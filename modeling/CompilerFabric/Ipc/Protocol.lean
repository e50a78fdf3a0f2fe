import CompilerFabric.Core.Phase
import Mathlib.Data.List.Pairwise

namespace CompilerFabric

open Base (Bytes leBytes leValue)

def StatusCode.protocolMalformed : StatusCode := ⟨100⟩

def kMaxFieldBytes : Nat := 1048576

def protocolMalformed (detail : String) : Status := ⟨.protocolMalformed,ascii detail⟩

/-- One field record of a payload: its id and the bytes of its value. -/
structure Field where
  id : UInt16
  value : Bytes
deriving DecidableEq

namespace Field

/-- The record on the wire: the id, the length in 32 bits, the value. -/
def record (f : Field) : Bytes := leBytes 2 f.id.toNat++leBytes 4 f.value.length++f.value

theorem record_length (f : Field) : f.record.length=f.value.length+6 := by
  simp [record]
  omega

end Field

structure FieldWriter where
  buffer : Bytes := []
  lastId : UInt16 := 0
  hasLast : Bool := false

namespace FieldWriter

/-- A field out of order is dropped without a word. -/
def emit (w : FieldWriter) (id : UInt16) (bytes : Bytes) : FieldWriter :=
  if w.hasLast ∧ id ≤ w.lastId then w else
  { buffer := w.buffer++leBytes 2 id.toNat++leBytes 4 bytes.length++bytes,lastId := id,hasLast := true }

def u8 (w : FieldWriter) (id : UInt16) (v : UInt8) : FieldWriter := w.emit id [v]
def u16 (w : FieldWriter) (id : UInt16) (v : UInt16) : FieldWriter := w.emit id (leBytes 2 v.toNat)
def u32 (w : FieldWriter) (id : UInt16) (v : UInt32) : FieldWriter := w.emit id (leBytes 4 v.toNat)
def u64 (w : FieldWriter) (id : UInt16) (v : UInt64) : FieldWriter := w.emit id (leBytes 8 v.toNat)

def boolean (w : FieldWriter) (id : UInt16) (v : Bool) : FieldWriter := w.u8 id (if v then 1 else 0)

/-- A value over the ceiling is dropped as well. -/
def text (w : FieldWriter) (id : UInt16) (v : Bytes) : FieldWriter :=
  if kMaxFieldBytes < v.length then w else w.emit id v

def blob (w : FieldWriter) (id : UInt16) (v : Bytes) : FieldWriter :=
  if kMaxFieldBytes < v.length then w else w.emit id v

def take (w : FieldWriter) : Bytes := w.buffer

end FieldWriter

structure FieldReader where
  payload : Bytes
  cursor : Nat := 0
  currentId : UInt16 := 0
  currentValue : Bytes := []
  lastId : UInt16 := 0
  hasLast : Bool := false

namespace FieldReader

/-- The bytes not read yet. -/
def rest (r : FieldReader) : Bytes := r.payload.drop r.cursor

def next (r : FieldReader) : Result (Bool × FieldReader) :=
  if r.cursor=r.payload.length then .ok (false,r)
  else if r.payload.length-r.cursor<6 then .error (protocolMalformed "field header is truncated")
  else
    let id := UInt16.ofNat (leValue (r.rest.take 2))
    let length := leValue ((r.rest.drop 2).take 4)
    if kMaxFieldBytes < length then
      .error (protocolMalformed "field length exceeds the protocol ceiling")
    else if r.hasLast ∧ id ≤ r.lastId then
      .error (protocolMalformed
        "field ids must be strictly ascending; duplicate or reordered field record")
    else if r.payload.length-(r.cursor+6)<length then
      .error (protocolMalformed "field value is truncated")
    else .ok (true,{ r with
      currentId := id,currentValue := (r.payload.drop (r.cursor+6)).take length,
      cursor := r.cursor+6+length,lastId := id,hasLast := true })

def asU8 (r : FieldReader) : Result UInt8 :=
  match r.currentValue with
  | [v] => .ok v
  | _ => .error (protocolMalformed "field is not a u8")

def asU16 (r : FieldReader) : Result UInt16 :=
  if r.currentValue.length ≠ 2 then .error (protocolMalformed "field is not a u16")
  else .ok (UInt16.ofNat (leValue r.currentValue))

def asU32 (r : FieldReader) : Result UInt32 :=
  if r.currentValue.length ≠ 4 then .error (protocolMalformed "field is not a u32")
  else .ok (UInt32.ofNat (leValue r.currentValue))

def asU64 (r : FieldReader) : Result UInt64 :=
  if r.currentValue.length ≠ 8 then .error (protocolMalformed "field is not a u64")
  else .ok (UInt64.ofNat (leValue r.currentValue))

def asBool (r : FieldReader) : Result Bool := r.asU8.map (· ≠ 0)

def asText (r : FieldReader) : Result Bytes := .ok r.currentValue
def asBlob (r : FieldReader) : Result Bytes := .ok r.currentValue

def finish (r : FieldReader) : Result Unit :=
  ensure (r.cursor=r.payload.length) (protocolMalformed "message payload has trailing bytes")

/-- The field the reader stands on. -/
def field (r : FieldReader) : Field := ⟨r.currentId,r.currentValue⟩

/-- The reader stands on a record boundary inside the payload, so no difference of positions
wraps. -/
def Within (r : FieldReader) : Prop := r.cursor ≤ r.payload.length

theorem rest_eq_nil {r : FieldReader} (hw : r.Within) : r.rest=[] ↔ r.cursor=r.payload.length := by
  have h : r.cursor ≤ r.payload.length := hw
  rw [rest,List.drop_eq_nil_iff]
  omega

theorem rest_length (r : FieldReader) : r.rest.length=r.payload.length-r.cursor := by
  simp [rest]

/-- Six bytes are the id and the length they spell. -/
theorem split_header (b : Bytes) (h : 6 ≤ b.length) :
    b=leBytes 2 (leValue (b.take 2))++leBytes 4 (leValue ((b.drop 2).take 4))++b.drop 6 := by
  have h₂ : (b.take 2).length=2 := by simp; omega
  have h₄ : ((b.drop 2).take 4).length=4 := by simp; omega
  have hid := Base.leBytes_leValue (b.take 2)
  have hlen := Base.leBytes_leValue ((b.drop 2).take 4)
  rw [h₂] at hid
  rw [h₄] at hlen
  have hd : b.drop 6=(b.drop 2).drop 4 := by simp
  rw [hid,hlen,hd,List.append_assoc,List.take_append_drop,List.take_append_drop]

/-- Everything a successful `next` can have done. -/
theorem next_ok {r r' : FieldReader} {more : Bool} (hw : r.Within) (h : r.next=.ok (more,r')) :
    (more=false ∧ r'=r ∧ r.rest=[]) ∨
    (more=true ∧ r'.payload=r.payload ∧ r'.Within ∧ r'.hasLast=true ∧ r'.lastId=r'.field.id ∧
      r'.field.value.length ≤ kMaxFieldBytes ∧ (r.hasLast=true → r.lastId<r'.field.id) ∧
      r.rest=r'.field.record++r'.rest) := by
  simp only [next] at h
  split_ifs at h with hend hhead hlen hasc hval
  · cases h
    exact .inl ⟨rfl,rfl,(rest_eq_nil hw).2 hend⟩
  · cases h
    have hsix : 6 ≤ r.rest.length := by
      rw [rest_length]
      omega
    have hid : leValue (r.rest.take 2)<2^16 := by
      have hl : (r.rest.take 2).length=2 := by simp; omega
      have hv := Base.leValue_lt (r.rest.take 2)
      rwa [hl] at hv
    have hsplit := split_header r.rest hsix
    have hdrop : r.rest.drop 6=r.payload.drop (r.cursor+6) := by simp [rest]
    rw [hdrop] at hsplit
    generalize leValue (r.rest.take 2)=i at *
    generalize leValue ((r.rest.drop 2).take 4)=n at *
    have hv : ((r.payload.drop (r.cursor+6)).take n).length=n := by
      simp
      omega
    refine .inr ⟨rfl,rfl,?_,rfl,rfl,?_,?_,?_⟩
    · simp only [Within]
      omega
    · simp only [field,hv]
      omega
    · intro hl
      have hlt : ¬UInt16.ofNat i ≤ r.lastId := fun hle => hasc ⟨hl,hle⟩
      exact UInt16.not_le.1 hlt
    · show r.rest=leBytes 2 (UInt16.ofNat i).toNat++
        leBytes 4 ((r.payload.drop (r.cursor+6)).take n).length++
        (r.payload.drop (r.cursor+6)).take n++r.payload.drop (r.cursor+6+n)
      have hi : (UInt16.ofNat i).toNat=i := UInt16.toNat_ofNat_of_lt' hid
      rw [hv,hi,← List.drop_drop (i := n) (j := r.cursor+6),List.append_assoc,
        List.take_append_drop]
      exact hsplit

/-- A record the reader may take: what `next` makes of it. -/
theorem next_record {r : FieldReader} {f : Field} {t : Bytes}
    (hrest : r.rest=f.record++t) (hb : f.value.length ≤ kMaxFieldBytes)
    (hasc : r.hasLast=true → r.lastId<f.id) :
    ∃ r',r.next=.ok (true,r') ∧ r'.Within ∧ r'.field=f ∧ r'.rest=t ∧ r'.hasLast=true ∧
      r'.lastId=f.id := by
  have hl : r.payload.length-r.cursor=f.value.length+6+t.length := by
    rw [← rest_length,hrest,List.length_append,Field.record_length]
  have hcap : kMaxFieldBytes<256^4 := by decide
  have hid : leValue (r.rest.take 2)=f.id.toNat := by
    rw [hrest,Field.record,List.append_assoc,List.append_assoc,List.take_left' (by simp)]
    exact Base.leValue_leBytes 2 _ f.id.toNat_lt
  have hlen : leValue ((r.rest.drop 2).take 4)=f.value.length := by
    rw [hrest,Field.record,List.append_assoc,List.append_assoc,List.drop_left' (by simp),
      List.take_left' (by simp)]
    exact Base.leValue_leBytes 4 _ (by omega)
  have hsix : r.rest.drop 6=f.value++t := by
    rw [hrest,Field.record,List.append_assoc,List.drop_left' (by simp)]
  have hdrop : r.payload.drop (r.cursor+6)=f.value++t := by
    rw [← hsix]
    simp [rest]
  have hlast : ¬(r.hasLast=true ∧ UInt16.ofNat f.id.toNat ≤ r.lastId) := by
    rintro ⟨hl,hle⟩
    rw [UInt16.ofNat_toNat] at hle
    exact absurd (hasc hl) (UInt16.not_lt.2 hle)
  have hnext : r.next=.ok (true,{ r with
      currentId := f.id,currentValue := f.value,cursor := r.cursor+6+f.value.length,
      lastId := f.id,hasLast := true }) := by
    rw [next,if_neg (by omega),if_neg (by omega)]
    simp only [hid,hlen,hdrop]
    rw [if_neg (by omega),if_neg hlast,if_neg (by omega)]
    simp
  refine ⟨_,hnext,?_,rfl,?_,rfl,rfl⟩
  · simp only [Within]
    omega
  · have hv : (f.value++t).drop f.value.length=t := List.drop_left' rfl
    rw [← hdrop] at hv
    simpa [rest,Nat.add_assoc] using hv

theorem next_lt {r r' : FieldReader} (h : r.next=.ok (true,r')) :
    r'.payload.length-r'.cursor<r.payload.length-r.cursor := by
  simp only [next] at h
  split_ifs at h
  · cases h
  · cases h
    simp only
    omega

/-- Calls `next` until it reports the end: the reader at each field and the reader at the end. -/
def iterate (r : FieldReader) : Result (List FieldReader × FieldReader) :=
  match h : r.next with
  | .error e => .error e
  | .ok (false,r') => .ok ([],r')
  | .ok (true,r') =>
    have _ := next_lt h
    (iterate r').map fun (rs,last) => (r'::rs,last)
termination_by r.payload.length-r.cursor

theorem iterate_error {r : FieldReader} {e : Status} (h : r.next=.error e) : r.iterate=.error e := by
  rw [iterate]
  split <;> simp_all

theorem iterate_end {r r' : FieldReader} (h : r.next=.ok (false,r')) : r.iterate=.ok ([],r') := by
  rw [iterate]
  split <;> simp_all

theorem iterate_more {r r' : FieldReader} (h : r.next=.ok (true,r')) :
    r.iterate=r'.iterate.map fun (rs,last) => (r'::rs,last) := by
  rw [iterate]
  split <;> simp_all

/-- The grammar of a payload behind a reader that has taken ids up to its last one. -/
structure Fields (r : FieldReader) (fs : List Field) : Prop where
  rest : r.rest=fs.flatMap Field.record
  ascending : fs.Pairwise (·.id<·.id)
  above : r.hasLast=true → ∀ f ∈ fs,r.lastId<f.id
  bounded : ∀ f ∈ fs,f.value.length ≤ kMaxFieldBytes

/-- One record more in front. -/
theorem Fields.cons {r r' : FieldReader} {fs : List Field} (h : r'.Fields fs) (hl : r'.hasLast=true)
    (hid : r'.lastId=r'.field.id) (hb : r'.field.value.length ≤ kMaxFieldBytes)
    (hasc : r.hasLast=true → r.lastId<r'.field.id) (hrest : r.rest=r'.field.record++r'.rest) :
    r.Fields (r'.field::fs) where
  rest := by rw [hrest,h.rest,List.flatMap_cons]
  ascending := List.pairwise_cons.2 ⟨fun f hf => hid ▸ h.above hl f hf,h.ascending⟩
  above hr f hf := by
    obtain rfl | hf := List.mem_cons.1 hf
    · exact hasc hr
    · exact UInt16.lt_trans (hasc hr) (hid ▸ h.above hl f hf)
  bounded f hf := by
    obtain rfl | hf := List.mem_cons.1 hf
    · exact hb
    · exact h.bounded f hf

theorem iterate_ok {r last : FieldReader} {rs : List FieldReader} (hw : r.Within)
    (h : r.iterate=.ok (rs,last)) : r.Fields (rs.map field) ∧ last.Within ∧ last.rest=[] := by
  fun_induction iterate r generalizing rs with
  | case1 r e hn => cases h
  | case2 r r' hn =>
    cases h
    obtain ⟨_,rfl,hr⟩ | ⟨hc,_⟩ := next_ok hw hn
    · exact ⟨⟨by simpa using hr,.nil,by simp,by simp⟩,hw,hr⟩
    · cases hc
  | case3 r r' hn _ ih =>
    obtain ⟨hc,_⟩ | ⟨_,_,hw',hl,hid,hb,hasc,hrest⟩ := next_ok hw hn
    · cases hc
    · cases hi : r'.iterate with
      | error e => simp [hi,Except.map] at h
      | ok v =>
        simp only [hi,Except.map,Except.ok.injEq,Prod.mk.injEq] at h
        obtain ⟨rfl,rfl⟩ := h
        obtain ⟨hf,hlast⟩ := ih hw' hi
        exact ⟨hf.cons hl hid hb hasc hrest,hlast⟩

theorem iterate_fields {r : FieldReader} {fs : List Field} (hw : r.Within) (h : r.Fields fs) :
    ∃ rs last,r.iterate=.ok (rs,last) ∧ rs.map field=fs := by
  induction fs generalizing r with
  | nil =>
    have hend := (rest_eq_nil hw).1 (by simpa using h.rest)
    have hnext : r.next=.ok (false,r) := by simp [next,hend]
    exact ⟨[],r,iterate_end hnext,rfl⟩
  | cons f fs ih =>
    obtain ⟨hf,hasc⟩ := List.pairwise_cons.1 h.ascending
    obtain ⟨r',hnext,hw',hfield,hrest,_,hid⟩ := next_record (t := fs.flatMap Field.record)
      (by simpa using h.rest) (h.bounded f (by simp)) fun hl => h.above hl f (by simp)
    obtain ⟨rs,last,hi,hrs⟩ := ih hw' ⟨hrest,hasc,fun _ g hg => hid ▸ hf g hg,
      fun g hg => h.bounded g (by simp [hg])⟩
    exact ⟨r'::rs,last,by simp [iterate_more hnext,hi,Except.map],by simp [hfield,hrs]⟩

/-- At the end of the payload nothing is left over. -/
theorem finish_of_rest {r : FieldReader} (hw : r.Within) (h : r.rest=[]) : r.finish=.ok () := by
  simp [finish,ensure,(rest_eq_nil hw).1 h]

end FieldReader

/-- One call of a typed method of `FieldWriter`. -/
inductive FieldCall where
  | u8 (id : UInt16) (v : UInt8)
  | u16 (id : UInt16) (v : UInt16)
  | u32 (id : UInt16) (v : UInt32)
  | u64 (id : UInt16) (v : UInt64)
  | boolean (id : UInt16) (v : Bool)
  | text (id : UInt16) (v : Bytes)
  | blob (id : UInt16) (v : Bytes)

namespace FieldCall

/-- The record the call stands for. -/
def field : FieldCall → Field
  | .u8 id v => ⟨id,[v]⟩
  | .u16 id v => ⟨id,leBytes 2 v.toNat⟩
  | .u32 id v => ⟨id,leBytes 4 v.toNat⟩
  | .u64 id v => ⟨id,leBytes 8 v.toNat⟩
  | .boolean id v => ⟨id,[if v then 1 else 0]⟩
  | .text id v => ⟨id,v⟩
  | .blob id v => ⟨id,v⟩

def perform (w : FieldWriter) : FieldCall → FieldWriter
  | .u8 id v => w.u8 id v
  | .u16 id v => w.u16 id v
  | .u32 id v => w.u32 id v
  | .u64 id v => w.u64 id v
  | .boolean id v => w.boolean id v
  | .text id v => w.text id v
  | .blob id v => w.blob id v

/-- The reader on this record gives the value of the call through the accessor of its type. -/
def ReadBack (r : FieldReader) : FieldCall → Prop
  | .u8 _ v => r.asU8=.ok v
  | .u16 _ v => r.asU16=.ok v
  | .u32 _ v => r.asU32=.ok v
  | .u64 _ v => r.asU64=.ok v
  | .boolean _ v => r.asBool=.ok v
  | .text _ v => r.asText=.ok v
  | .blob _ v => r.asBlob=.ok v

theorem readBack {c : FieldCall} {r : FieldReader} (h : r.field=c.field) : c.ReadBack r := by
  have hv : r.currentValue=c.field.value := congrArg Field.value h
  cases c with
  | u8 id v => simp [ReadBack,FieldReader.asU8,hv,field]
  | u16 id v =>
    simp [ReadBack,FieldReader.asU16,hv,field,Base.leValue_leBytes 2 _ v.toNat_lt]
  | u32 id v =>
    simp [ReadBack,FieldReader.asU32,hv,field,Base.leValue_leBytes 4 _ v.toNat_lt]
  | u64 id v =>
    simp [ReadBack,FieldReader.asU64,hv,field,Base.leValue_leBytes 8 _ v.toNat_lt]
  | boolean id v => cases v <;> simp [ReadBack,FieldReader.asBool,FieldReader.asU8,hv,field,Except.map]
  | text id v => simp [ReadBack,FieldReader.asText,hv,field]
  | blob id v => simp [ReadBack,FieldReader.asBlob,hv,field]

/-- Within the ceiling every call is one `emit`. -/
theorem perform_eq (w : FieldWriter) (c : FieldCall) (h : c.field.value.length ≤ kMaxFieldBytes) :
    c.perform w=w.emit c.field.id c.field.value := by
  cases c with
  | text id v => exact if_neg (Nat.not_lt.2 h)
  | blob id v => exact if_neg (Nat.not_lt.2 h)
  | _ => rfl

/-- The bytes of a payload built by the calls in turn. -/
def payload (cs : List FieldCall) : Bytes := (cs.foldl perform {}).take

/-- Calls in ascending order behind a writer append their records. -/
theorem foldl_buffer (cs : List FieldCall) (w : FieldWriter)
    (hb : ∀ c ∈ cs,c.field.value.length ≤ kMaxFieldBytes)
    (hasc : cs.Pairwise (·.field.id<·.field.id))
    (habove : w.hasLast=true → ∀ c ∈ cs,w.lastId<c.field.id) :
    (cs.foldl perform w).buffer=w.buffer++(cs.map field).flatMap Field.record := by
  induction cs generalizing w with
  | nil => simp
  | cons c cs ih =>
    obtain ⟨hc,hasc⟩ := List.pairwise_cons.1 hasc
    have hemit : ¬(w.hasLast=true ∧ c.field.id ≤ w.lastId) := by
      rintro ⟨hl,hle⟩
      exact absurd (habove hl c (by simp)) (UInt16.not_lt.2 hle)
    rw [List.foldl_cons,perform_eq w c (hb c (by simp)),FieldWriter.emit,if_neg hemit,
      ih _ (fun d hd => hb d (by simp [hd])) hasc fun _ => hc]
    simp [Field.record]

/-- A reader finds in such a payload the records of the calls. -/
theorem payload_fields (cs : List FieldCall) (hasc : cs.Pairwise (·.field.id<·.field.id))
    (hb : ∀ c ∈ cs,c.field.value.length ≤ kMaxFieldBytes) :
    ({ payload := payload cs } : FieldReader).Fields (cs.map field) := by
  have hbuf := foldl_buffer cs {} hb hasc (by simp)
  exact ⟨by simpa [FieldReader.rest,payload,FieldWriter.take] using hbuf,
    by simpa [List.pairwise_map] using hasc,by simp,by simpa using hb⟩

end FieldCall

namespace FieldReader

/-- A payload that reads to its end is a row of records with ascending ids and bounded values, and
each such row is what the writer produces from the calls it stands for. -/
theorem field_grammar :
    (∀ (b : Bytes) (fs : List Field),
      (∃ rs last,({ payload := b } : FieldReader).iterate=.ok (rs,last) ∧ rs.map field=fs) ↔
      b=fs.flatMap Field.record ∧ fs.Pairwise (·.id<·.id) ∧
        ∀ f ∈ fs,f.value.length ≤ kMaxFieldBytes) ∧
    (∀ (b : Bytes) (rs : List FieldReader) (last : FieldReader),
      ({ payload := b } : FieldReader).iterate=.ok (rs,last) → last.finish=.ok ()) ∧
    (∀ cs : List FieldCall,cs.Pairwise (·.field.id<·.field.id) →
      (∀ c ∈ cs,c.field.value.length ≤ kMaxFieldBytes) →
      ∃ rs last,({ payload := FieldCall.payload cs } : FieldReader).iterate=.ok (rs,last) ∧
        rs.map field=cs.map FieldCall.field ∧ List.Forall₂ FieldCall.ReadBack rs cs) := by
  have hw (b : Bytes) : ({ payload := b } : FieldReader).Within := Nat.zero_le _
  refine ⟨fun b fs => ⟨?_,?_⟩,?_,?_⟩
  · rintro ⟨rs,last,h,rfl⟩
    have hf := (iterate_ok (hw b) h).1
    exact ⟨by simpa [rest] using hf.rest,hf.ascending,hf.bounded⟩
  · rintro ⟨hb,hasc,hv⟩
    exact iterate_fields (hw b) ⟨by simpa [rest] using hb,hasc,by simp,hv⟩
  · intro b rs last h
    obtain ⟨_,hlast,hrest⟩ := iterate_ok (hw b) h
    exact finish_of_rest hlast hrest
  · intro cs hasc hb
    obtain ⟨rs,last,hi,hrs⟩ := iterate_fields (hw _) (FieldCall.payload_fields cs hasc hb)
    refine ⟨rs,last,hi,hrs,?_⟩
    have hall : List.Forall₂ (fun r c => r.field=FieldCall.field c) rs cs := by
      rwa [← List.forall₂_map_right_iff,← List.forall₂_map_left_iff,List.forall₂_eq_eq_eq]
    exact hall.imp fun _ _ => FieldCall.readBack

/-- Three calls with ids 1, 2 and 7 read back. -/
theorem field_grammar_three : ∃ rs last,
    ({ payload := FieldCall.payload [.u8 1 200,.boolean 2 true,.text 7 [104,105]] } :
      FieldReader).iterate=.ok (rs,last) ∧
    rs.map field=[⟨1,[200]⟩,⟨2,[1]⟩,⟨7,[104,105]⟩] ∧
    List.Forall₂ FieldCall.ReadBack rs [.u8 1 200,.boolean 2 true,.text 7 [104,105]] :=
  field_grammar.2.2 _ (by decide) (by decide)

end FieldReader

end CompilerFabric
