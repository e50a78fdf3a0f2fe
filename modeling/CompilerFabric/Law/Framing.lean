import CompilerFabric.Ipc.Framing

namespace CompilerFabric

open Base (Bytes)

namespace FramedConnection

/-- What a run of `send` puts on the wire. -/
def sendEach (c : FramedConnection) : List Message → Result Bytes
  | [] => .ok []
  | m::ms => do
      let frame ← c.send m
      let frames ← c.sendEach ms
      return frame++frames

/-- A run of `receive`, up to the first refusal. -/
def receiveEach : Nat → FramedConnection → Result (List Message) × FramedConnection
  | 0,c => (.ok [],c)
  | n+1,c =>
      match c.receive with
      | (.error e,c) => (.error e,c)
      | (.ok m,c) =>
          match receiveEach n c with
          | (.error e,c) => (.error e,c)
          | (.ok ms,c) => (.ok (m::ms),c)

variable {c : FramedConnection} {m m' : Message} {ms : List Message} {rest frame : Bytes}

theorem send_eq_ok : c.send m=.ok frame ↔
    m.payload.length ≤ c.maxFramePayload.toNat ∧ frame=m.frame := by
  unfold send
  split_ifs with h
  · exact ⟨nofun,fun ⟨hl,_⟩ => absurd h (Nat.not_lt.2 hl)⟩
  · rw [Except.ok.injEq]
    exact ⟨fun he => ⟨Nat.not_lt.1 h,he.symm⟩,fun ⟨_,he⟩ => he.symm⟩

theorem sendEach_ok (h : ∀ m ∈ ms,m.payload.length ≤ c.maxFramePayload.toNat) :
    c.sendEach ms=.ok (ms.flatMap Message.frame) := by
  induction ms with
  | nil => rfl
  | cons m ms ih =>
    have hm := send_eq_ok.2 ⟨h m List.mem_cons_self,rfl⟩
    have hms := ih fun m hm => h m (List.mem_cons_of_mem _ hm)
    rw [sendEach,hm,hms]
    rfl

/-- One frame is taken off the front of the stream. -/
theorem receive_frame (hk : m.type.known) (hr : m.payload.length ≤ c.maxFramePayload.toNat)
    (hs : c.socket.flatten=m.frame++rest) : ∃ socket,
    c.receive=(.ok m,{ c with socket }) ∧ socket.flatten=rest := by
  have hreads : Reads c.maxFramePayload c.socket.flatten m := hs ▸ frame_reads hk hr
  have hf := m.framed_append rest (Nat.lt_of_le_of_lt hr (UInt32.toNat_lt _))
  have ⟨socket,hm,hsocket⟩ := hreads.receive
  refine ⟨socket,hm,?_⟩
  rw [hsocket,hs,hf.length,← List.drop_drop,hf.payload,List.drop_left]

theorem receiveEach_frames {socket : List Bytes} (hk : ∀ m ∈ ms,m.type.known)
    (hr : ∀ m ∈ ms,m.payload.length ≤ c.maxFramePayload.toNat)
    (hs : socket.flatten=ms.flatMap Message.frame++rest) : ∃ left,
    receiveEach ms.length { c with socket }=(.ok ms,{ c with socket := left }) ∧
      left.flatten=rest := by
  induction ms generalizing socket with
  | nil => exact ⟨socket,rfl,hs⟩
  | cons m ms ih =>
    rw [List.flatMap_cons,List.append_assoc] at hs
    have ⟨after,hm,hafter⟩ := receive_frame (c := { c with socket })
      (hk m List.mem_cons_self) (hr m List.mem_cons_self) hs
    have ⟨left,hms,hleft⟩ := ih (fun m hm => hk m (List.mem_cons_of_mem _ hm))
      (fun m hm => hr m (List.mem_cons_of_mem _ hm)) hafter
    refine ⟨left,?_,hleft⟩
    rw [List.length_cons,receiveEach,hm]
    dsimp only
    rw [hms]

theorem framing (sender receiver : FramedConnection) (ms : List Message)
    (hknown : ∀ m ∈ ms,m.type.known)
    (hsender : ∀ m ∈ ms,m.payload.length ≤ sender.maxFramePayload.toNat)
    (hreceiver : ∀ m ∈ ms,m.payload.length ≤ receiver.maxFramePayload.toNat) :
    (∃ stream,sender.sendEach ms=.ok stream ∧ ∀ socket rest,
      socket.flatten=stream++rest → ∃ left,
        receiveEach ms.length { receiver with socket }=(.ok ms,{ receiver with socket := left }) ∧
          left.flatten=rest) ∧
      ∀ m frame,sender.send m=.ok frame → ∀ i value socket rest,i<frame.length →
        socket.flatten=frame.set i value++rest → ∀ m' c,
          { receiver with socket }.receive=(.ok m',c) → m'=m := by
  constructor
  · exact ⟨_,sendEach_ok hsender,fun socket rest => receiveEach_frames hknown hreceiver⟩
  · intro m frame hsend i value socket rest hi hsocket m' c hreceive
    have ⟨hl,hframe⟩ := send_eq_ok.1 hsend
    subst hframe
    have hreads := receive_reads hreceive
    dsimp only at hreads
    rw [hsocket,← List.set_append_left _ _ hi] at hreads
    have hlt := Nat.lt_of_le_of_lt hl (UInt32.toNat_lt _)
    rw [hreads.unchanged hlt hi] at hreads
    exact hreads.frame hlt

theorem framing_three :
    let ms : List Message := [{ type := .ping,requestId := 7 },
      { type := .hello,requestId := 8,payload := [1,0,0,0,2] },
      { type := .error,requestId := 9,payload := [1,2] }]
    (∃ stream,sendEach {} ms=.ok stream ∧ ∀ socket rest,
      socket.flatten=stream++rest → ∃ left,
        receiveEach 3 { socket }=(.ok ms,{ socket := left }) ∧ left.flatten=rest) ∧
      ∀ m frame,send {} m=.ok frame → ∀ i value socket rest,i<frame.length →
        socket.flatten=frame.set i value++rest → ∀ m' c,
          receive { socket }=(.ok m',c) → m'=m :=
  framing {} {} [{ type := .ping,requestId := 7 },
    { type := .hello,requestId := 8,payload := [1,0,0,0,2] },
    { type := .error,requestId := 9,payload := [1,2] }] (by decide) (by decide) (by decide)

end FramedConnection

end CompilerFabric
