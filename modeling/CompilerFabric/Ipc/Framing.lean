import CompilerFabric.Core.Checksum
import CompilerFabric.Ipc.Channel

namespace CompilerFabric

open Base (Bytes leBytes leValue)

def StatusCode.protocolFrameTooLarge : StatusCode := ⟨101⟩
def StatusCode.protocolFrameTruncated : StatusCode := ⟨102⟩
def StatusCode.protocolVersionMismatch : StatusCode := ⟨103⟩

/-- `parse_message_type` knows the type. -/
def MessageType.known (t : MessageType) : Bool :=
  let raw := t.raw.toNat
  1 ≤ raw && raw ≤ 5 || 10 ≤ raw && raw ≤ 15 || 20 ≤ raw && raw ≤ 36 || 40 ≤ raw && raw ≤ 56

def kFrameMagic : Nat := 0x31465243
def kFrameHeaderBytes : Nat := 32
def protocolVersionMajor : Nat := 1
def protocolVersionMinor : Nat := 0

/-! A socket: what it will deliver, in the pieces in which it arrives. -/

/-- `recv` with room for `limit` bytes. -/
def recv (limit : Nat) : List Bytes → Bytes × List Bytes
  | [] => ([],[])
  | []::rest => recv limit rest
  | (b::piece)::rest => ((b::piece).take limit,(b::piece).drop limit::rest)

section Recv

variable {limit count : Nat} {socket : List Bytes}

theorem recv_flatten : (recv limit socket).1++(recv limit socket).2.flatten=socket.flatten := by
  induction socket with
  | nil => rfl
  | cons piece rest ih =>
    cases piece with
    | nil => exact ih
    | cons b piece => simp only [recv,List.flatten_cons,← List.append_assoc,List.take_append_drop]

theorem recv_length_le : (recv limit socket).1.length ≤ limit := by
  induction socket with
  | nil => exact Nat.zero_le _
  | cons piece rest ih =>
    cases piece with
    | nil => exact ih
    | cons b piece => exact List.length_take_le _ _

/-- Nothing is delivered at the end of the stream only. -/
theorem recv_nil (hl : 0<limit) (h : (recv limit socket).1=[]) : socket.flatten=[] := by
  induction socket with
  | nil => rfl
  | cons piece rest ih =>
    cases piece with
    | nil => exact ih h
    | cons b piece =>
      cases limit with
      | zero => cases hl
      | succ limit => cases h

/-- `recv_all`. -/
def recvAll (count : Nat) (socket : List Bytes) : Option (Bytes × List Bytes) :=
  if _hc : count=0 then some ([],socket)
  else
    let got := recv (min count 1048576) socket
    if _h : got.1=[] then none
    else (recvAll (count-got.1.length) got.2).map fun all => (got.1++all.1,all.2)
termination_by count
decreasing_by
  exact Nat.sub_lt (Nat.pos_of_ne_zero _hc) (List.length_pos_iff.2 _h)

/-- However the bytes arrive, `recv_all` takes the first `count` of them. -/
theorem recvAll_of_le (h : count ≤ socket.flatten.length) : ∃ rest,
    recvAll count socket=some (socket.flatten.take count,rest) ∧
      rest.flatten=socket.flatten.drop count := by
  fun_induction recvAll count socket with
  | case1 socket => exact ⟨socket,by simp,by simp⟩
  | case2 count socket hc got hg =>
    have hn := recv_nil (by omega) hg
    rw [hn,List.length_nil] at h
    omega
  | case3 count socket hc got hg ih =>
    have hf : got.1++got.2.flatten=socket.flatten := recv_flatten
    have hl : got.1.length ≤ min count 1048576 := recv_length_le
    rw [← hf,List.length_append] at h
    have ⟨rest,hr,hd⟩ := ih (by omega)
    refine ⟨rest,?_,?_⟩
    · rw [hr,← hf,List.take_append,List.take_of_length_le (l := got.1) (by omega)]
      rfl
    · rw [hd,← hf,List.drop_append,List.drop_of_length_le (l := got.1) (by omega),List.nil_append]

theorem recvAll_of_lt (h : socket.flatten.length<count) : recvAll count socket=none := by
  fun_induction recvAll count socket with
  | case1 socket => omega
  | case2 => rfl
  | case3 count socket hc got hg ih =>
    have hf : got.1++got.2.flatten=socket.flatten := recv_flatten
    have hl : got.1.length ≤ min count 1048576 := recv_length_le
    rw [← hf,List.length_append] at h
    rw [ih (by omega)]
    rfl

end Recv

namespace Message

/-- The first 28 bytes of a frame header, which its checksum covers. -/
def checked (m : Message) : Bytes :=
  leBytes 4 kFrameMagic++(leBytes 4 (protocolVersionMajor|||protocolVersionMinor<<<16)++
    (leBytes 4 (m.type.raw.toNat|||m.flags.toNat<<<16)++
      (leBytes 4 (m.requestId.toNat&&&0xFFFFFFFF)++(leBytes 4 (m.requestId.toNat>>>32)++
        (leBytes 4 m.payload.length++leBytes 4 (crc32c m.payload).toNat)))))

def header (m : Message) : Bytes := m.checked++leBytes 4 (crc32c m.checked).toNat

def frame (m : Message) : Bytes := m.header++m.payload

@[simp] theorem checked_length (m : Message) : m.checked.length=28 := by simp [checked]

@[simp] theorem header_length (m : Message) : m.header.length=32 := by simp [header]

end Message

namespace Message

/-- The words of a frame's header, and what stands around them. -/
structure Framed (m : Message) (bytes rest : Bytes) : Prop where
  magic : getWord 4 0 bytes=kFrameMagic
  version : getWord 4 4 bytes&&&0xFFFF=protocolVersionMajor
  type : getWord 4 8 bytes&&&0xFFFF=m.type.raw.toNat
  flags : getWord 4 8 bytes>>>16&&&0xFFFF=m.flags.toNat
  requestId : getWord 4 12 bytes|||getWord 4 16 bytes<<<32=m.requestId.toNat
  length : getWord 4 20 bytes=m.payload.length
  payloadCrc : getWord 4 24 bytes=(crc32c m.payload).toNat
  headerCrc : getWord 4 28 bytes=(crc32c (bytes.take 28)).toNat
  payload : bytes.drop kFrameHeaderBytes=m.payload++rest

theorem and_low16 (n : Nat) : n&&&0xFFFF=n%2^16 := Nat.and_two_pow_sub_one_eq_mod n 16

theorem and_low32 (n : Nat) : n&&&0xFFFFFFFF=n%2^32 := Nat.and_two_pow_sub_one_eq_mod n 32

theorem low_or_high {a b w : Nat} (ha : a<2^w) : a|||b<<<w=a+b*2^w := by
  rw [Nat.or_comm,← Nat.shiftLeft_add_eq_or_of_lt ha,Nat.shiftLeft_eq,Nat.add_comm]

theorem framed_append (m : Message) (rest : Bytes) (h : m.payload.length<2^32) :
    m.Framed (m.frame++rest) rest := by
  have hw : m.frame++rest=m.checked++(leBytes 4 (crc32c m.checked).toNat++(m.payload++rest)) := by
    simp only [frame,header,List.append_assoc]
  have ht : (m.frame++rest).take 28=m.checked := by
    rw [hw,List.take_append_of_le_length (by simp),List.take_of_length_le (by simp)]
  have hv : protocolVersionMajor|||protocolVersionMinor<<<16<256^4 := by decide
  have htype : m.type.raw.toNat<2^16 := UInt16.toNat_lt _
  have hflags : m.flags.toNat<2^16 := UInt16.toNat_lt _
  have hid : m.requestId.toNat<2^64 := UInt64.toNat_lt _
  have hword : m.type.raw.toNat|||m.flags.toNat<<<16<256^4 := by
    rw [low_or_high htype]
    omega
  have hlow : m.requestId.toNat&&&0xFFFFFFFF<256^4 := Nat.lt_of_le_of_lt Nat.and_le_right (by decide)
  have hhigh : m.requestId.toNat>>>32<256^4 := by
    rw [Nat.shiftRight_eq_div_pow]
    omega
  have hl : m.payload.length<256^4 := h
  have hp : (crc32c m.payload).toNat<256^4 := UInt32.toNat_lt _
  have hc : (crc32c m.checked).toNat<256^4 := UInt32.toNat_lt _
  have hlowhigh : (m.requestId.toNat&&&0xFFFFFFFF)|||m.requestId.toNat>>>32<<<32=m.requestId.toNat := by
    rw [low_or_high hlow,and_low32,Nat.shiftRight_eq_div_pow]
    omega
  have hchecked : getWord 4 28 (m.frame++rest)=(crc32c m.checked).toNat := by
    rw [hw,checked]
    simp only [List.append_assoc]
    repeat rw [getWord_skip _ (by decide)]
    exact getWord_head _ hc
  rw [checked] at hw
  simp only [List.append_assoc] at hw
  constructor
  · rw [hw,getWord_head _ (by decide)]
  · rw [hw,getWord_skip _ (by decide),getWord_head _ hv]
    rfl
  · rw [hw]
    repeat rw [getWord_skip _ (by decide)]
    rw [getWord_head _ hword,low_or_high htype,and_low16]
    omega
  · rw [hw]
    repeat rw [getWord_skip _ (by decide)]
    rw [getWord_head _ hword,low_or_high htype,and_low16,Nat.shiftRight_eq_div_pow]
    omega
  · have h12 : getWord 4 12 (m.frame++rest)=(m.requestId.toNat&&&0xFFFFFFFF) := by
      rw [hw]
      repeat rw [getWord_skip _ (by decide)]
      exact getWord_head _ hlow
    have h16 : getWord 4 16 (m.frame++rest)=m.requestId.toNat>>>32 := by
      rw [hw]
      repeat rw [getWord_skip _ (by decide)]
      exact getWord_head _ hhigh
    rw [h12,h16,hlowhigh]
  · rw [hw]
    repeat rw [getWord_skip _ (by decide)]
    exact getWord_head _ hl
  · rw [hw]
    repeat rw [getWord_skip _ (by decide)]
    exact getWord_head _ hp
  · rw [ht,hchecked]
  · rw [frame,List.append_assoc,List.drop_append,List.drop_of_length_le (by rw [header_length]; rfl),
      header_length]
    rfl

end Message

/-- An open connection: what its socket will deliver, and the frames it turned away. -/
structure FramedConnection where
  maxFramePayload : UInt32 := 4194304
  socket : List Bytes := []
  rejected : Nat := 0

namespace FramedConnection

/-- What `send` puts on the wire. -/
def send (c : FramedConnection) (m : Message) : Result Bytes :=
  if c.maxFramePayload.toNat < m.payload.length then
    refuse .protocolFrameTooLarge "outbound payload exceeds the configured frame ceiling"
  else .ok m.frame

def receive (c : FramedConnection) : Result Message × FramedConnection :=
  let reject (e : Status) (socket : List Bytes) : Result Message × FramedConnection :=
    (.error e,{ c with socket,rejected := c.rejected+1 })
  match recvAll kFrameHeaderBytes c.socket with
  | none => reject (.of .protocolFrameTruncated "frame header was not received in full") []
  | some (header,socket) =>
      if getWord 4 0 header ≠ kFrameMagic then
        reject (protocolMalformed "frame magic is invalid") socket
      else if getWord 4 28 header ≠ (crc32c (header.take 28)).toNat then
        reject (protocolMalformed "frame header checksum failed") socket
      else if getWord 4 4 header&&&0xFFFF ≠ protocolVersionMajor then
        reject (.of .protocolVersionMismatch "frame protocol major version mismatch") socket
      else if c.maxFramePayload.toNat<getWord 4 20 header then
        reject (.of .protocolFrameTooLarge
          "inbound payload exceeds the configured frame ceiling") socket
      else if !(MessageType.mk (UInt16.ofNat (getWord 4 8 header&&&0xFFFF))).known then
        reject (protocolMalformed "frame carries an unknown message type") socket
      else match recvAll (getWord 4 20 header) socket with
        | none =>
            reject (.of .protocolFrameTruncated "frame payload was not received in full") []
        | some (payload,socket) =>
            if (crc32c payload).toNat ≠ getWord 4 24 header then
              reject (protocolMalformed "frame payload checksum failed") socket
            else
              (.ok {
                type := ⟨UInt16.ofNat (getWord 4 8 header&&&0xFFFF)⟩
                flags := UInt16.ofNat (getWord 4 8 header>>>16&&&0xFFFF)
                requestId := UInt64.ofNat (getWord 4 12 header|||getWord 4 16 header<<<32)
                payload },{ c with socket })

/-- What a stream must start with for `receive` to give the message. -/
structure Reads (ceiling : UInt32) (bytes : Bytes) (m : Message) : Prop where
  header : kFrameHeaderBytes ≤ bytes.length
  magic : getWord 4 0 bytes=kFrameMagic
  sound : getWord 4 28 bytes=(crc32c (bytes.take 28)).toNat
  version : getWord 4 4 bytes&&&0xFFFF=protocolVersionMajor
  within : getWord 4 20 bytes ≤ ceiling.toNat
  known : m.type.known
  length : getWord 4 20 bytes ≤ bytes.length-kFrameHeaderBytes
  intact : (crc32c m.payload).toNat=getWord 4 24 bytes
  type : m.type=⟨UInt16.ofNat (getWord 4 8 bytes&&&0xFFFF)⟩
  flags : m.flags=UInt16.ofNat (getWord 4 8 bytes>>>16&&&0xFFFF)
  requestId : m.requestId=UInt64.ofNat (getWord 4 12 bytes|||getWord 4 16 bytes<<<32)
  payload : m.payload=(bytes.drop kFrameHeaderBytes).take (getWord 4 20 bytes)

variable {c c' : FramedConnection} {m m' : Message} {bytes rest : Bytes} {ceiling : UInt32}

theorem receive_reads (h : c.receive=(.ok m,c')) :
    Reads c.maxFramePayload c.socket.flatten m := by
  unfold receive at h
  by_cases hheader : kFrameHeaderBytes ≤ c.socket.flatten.length
  case neg =>
    rw [recvAll_of_lt (Nat.not_le.1 hheader)] at h
    cases h
  have ⟨socket,hh,hs⟩ := recvAll_of_le hheader
  have hg {o : Nat} (ho : o+4 ≤ kFrameHeaderBytes) :
      getWord 4 o (c.socket.flatten.take kFrameHeaderBytes)=getWord 4 o c.socket.flatten :=
    getWord_of_take _ ho
  have ht : (c.socket.flatten.take kFrameHeaderBytes).take 28=c.socket.flatten.take 28 := by
    rw [List.take_take]
    rfl
  rw [hh] at h
  dsimp only at h
  generalize c.socket.flatten.take kFrameHeaderBytes=header at h hg ht
  split at h
  · cases h
  next hmagic =>
  split at h
  · cases h
  next hsound =>
  split at h
  · cases h
  next hversion =>
  split at h
  · cases h
  next hwithin =>
  split at h
  · cases h
  next hknown =>
  have hlength : getWord 4 20 header ≤ socket.flatten.length := by
    by_contra hlt
    rw [recvAll_of_lt (Nat.not_le.1 hlt)] at h
    cases h
  have ⟨left,hp,_⟩ := recvAll_of_le hlength
  rw [hp] at h
  dsimp only at h
  split at h
  · cases h
  next hintact =>
  rw [Prod.mk.injEq,Except.ok.injEq] at h
  have ⟨hm,_⟩ := h
  rw [hs,List.length_drop,hg (by decide)] at hlength
  rw [hg (by decide)] at hmagic hversion hwithin
  rw [hg (by decide),ht] at hsound
  rw [hg (by decide),hg (by decide),hs] at hintact
  rw [hg (by decide),hg (by decide),hg (by decide),hg (by decide),hs] at hm
  rw [hg (by decide),Bool.not_eq_true,Bool.not_eq_false'] at hknown
  subst m
  exact {
    header := hheader
    magic := not_not.1 hmagic
    sound := not_not.1 hsound
    version := not_not.1 hversion
    within := Nat.not_lt.1 hwithin
    known := hknown
    length := hlength
    intact := not_not.1 hintact
    type := rfl
    flags := rfl
    requestId := rfl
    payload := rfl }

theorem Reads.receive (h : Reads c.maxFramePayload c.socket.flatten m) : ∃ socket,
    c.receive=(.ok m,{ c with socket }) ∧
      socket.flatten=c.socket.flatten.drop (kFrameHeaderBytes+getWord 4 20 c.socket.flatten) := by
  have ⟨socket,hh,hs⟩ := recvAll_of_le h.header
  have hlength : getWord 4 20 c.socket.flatten ≤ socket.flatten.length := by
    rw [hs,List.length_drop]
    exact h.length
  have ⟨left,hp,hl⟩ := recvAll_of_le hlength
  refine ⟨left,?_,by rw [hl,hs,List.drop_drop]⟩
  have hg {o : Nat} (ho : o+4 ≤ kFrameHeaderBytes) :
      getWord 4 o (c.socket.flatten.take kFrameHeaderBytes)=getWord 4 o c.socket.flatten :=
    getWord_of_take _ ho
  have ht : (c.socket.flatten.take kFrameHeaderBytes).take 28=c.socket.flatten.take 28 := by
    rw [List.take_take]
    rfl
  unfold FramedConnection.receive
  rw [hh]
  dsimp only
  generalize c.socket.flatten.take kFrameHeaderBytes=header at hg ht
  rw [if_neg (not_not.2 ((hg (by decide)).trans h.magic)),
    if_neg (not_not.2 ((hg (by decide)).trans (h.sound.trans (by rw [ht])))),
    if_neg (not_not.2 (by rw [hg (by decide)]; exact h.version)),
    if_neg (Nat.not_lt.2 (by rw [hg (by decide)]; exact h.within)),
    if_neg (by rw [hg (by decide),← h.type,h.known]; decide),hg (by decide),hp]
  dsimp only
  rw [hs,← h.payload,if_neg (not_not.2 (h.intact.trans (hg (by decide)).symm)),hg (by decide),
    hg (by decide),hg (by decide),← h.type,← h.flags,← h.requestId]

theorem frame_reads (hk : m.type.known) (hr : m.payload.length ≤ ceiling.toNat) :
    Reads ceiling (m.frame++rest) m := by
  have h := m.framed_append rest (Nat.lt_of_le_of_lt hr (UInt32.toNat_lt _))
  have hlen : (m.frame++rest).length=kFrameHeaderBytes+m.payload.length+rest.length := by
    rw [List.length_append,Message.frame,List.length_append,Message.header_length]
    rfl
  exact {
    header := by omega
    magic := h.magic
    sound := h.headerCrc
    version := h.version
    within := h.length.trans_le hr
    known := hk
    length := by rw [h.length]; omega
    intact := h.payloadCrc.symm
    type := by rw [h.type,UInt16.ofNat_toNat]
    flags := by rw [h.flags,UInt16.ofNat_toNat]
    requestId := by rw [h.requestId,UInt64.ofNat_toNat]
    payload := by rw [h.payload,h.length,List.take_append_of_le_length le_rfl,List.take_length] }

/-- Nothing but the message can be read of its frame. -/
theorem Reads.frame (hl : m.payload.length<2^32) (h : Reads ceiling (m.frame++rest) m') : m'=m := by
  have hf := m.framed_append rest hl
  have htype : m'.type=m.type := by rw [h.type,hf.type,UInt16.ofNat_toNat]
  have hflags : m'.flags=m.flags := by rw [h.flags,hf.flags,UInt16.ofNat_toNat]
  have hid : m'.requestId=m.requestId := by rw [h.requestId,hf.requestId,UInt64.ofNat_toNat]
  have hpayload : m'.payload=m.payload := by
    rw [h.payload,hf.payload,hf.length,List.take_append_of_le_length le_rfl,List.take_length]
  cases m
  cases m'
  rw [Message.mk.injEq]
  exact ⟨htype,hflags,hid,hpayload⟩

/-- A change of one byte of a frame breaks a checksum. -/
theorem Reads.unchanged {i : Nat} {value : UInt8} (hl : m.payload.length<2^32)
    (hi : i < m.frame.length) (h : Reads ceiling ((m.frame++rest).set i value) m') :
    (m.frame++rest).set i value=m.frame++rest := by
  have hf := m.framed_append rest hl
  have hlen : m.frame.length=kFrameHeaderBytes+m.payload.length := by
    rw [Message.frame,List.length_append,Message.header_length]
    rfl
  by_cases hh : i<kFrameHeaderBytes
  · exact set_eq_self_of_checksum (n := 28) hh hf.headerCrc h.sound
  · have hword {o : Nat} (ho : o+4 ≤ kFrameHeaderBytes) :
        getWord 4 o ((m.frame++rest).set i value)=getWord 4 o (m.frame++rest) :=
      getWord_set (.inr (by omega))
    have hpiece : ((m.frame++rest).drop kFrameHeaderBytes).take m.payload.length=m.payload := by
      rw [hf.payload,List.take_append_of_le_length le_rfl,List.take_length]
    have hp := h.payload
    rw [hword (by decide),hf.length,piece_set_inside (Nat.not_lt.1 hh),hpiece] at hp
    have hc := h.intact
    rw [hword (by decide),hf.payloadCrc,hp] at hc
    apply set_eq_self_of_piece (o := kFrameHeaderBytes) (w := m.payload.length) (Nat.not_lt.1 hh)
    · omega
    · rw [hpiece]
      exact crc32c_set (UInt32.toNat.inj hc)

end FramedConnection

end CompilerFabric
