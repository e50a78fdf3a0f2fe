import CompilerFabric.Ipc.Worker

namespace CompilerFabric

open Base (Bytes leValue)

/-- The fields a payload is a row of. -/
def Carries (payload : Bytes) (fs : List Field) : Prop := ({ payload := payload } : FieldReader).Fields fs

/-- The payload has the field `id` once, as eight bytes. -/
def HasOnce (payload : Bytes) (id : Nat) : Prop :=
  ∃ fs f,Carries payload fs ∧ fs.filter (·.id.toNat=id)=[f] ∧ f.value.length=8

namespace Field

/-- The fields the decoder of `count` numbers reads; the others it passes over. -/
def Numbered (count : Nat) (f : Field) : Prop := 1 ≤ f.id.toNat ∧ f.id.toNat ≤ count

instance (count : Nat) (f : Field) : Decidable (f.Numbered count) := by
  unfold Numbered
  infer_instance

end Field

theorem isOk_bind_pure {α β : Type} (x : Result α) (g : α → β) :
    (x >>= fun a => pure (g a)).isOk=x.isOk := by
  cases x <;> rfl

namespace FieldReader

variable {σ : Type} {visit : σ → FieldReader → Result σ} {s : σ} {count : Nat} {r last : FieldReader}

theorem iterate_cons {r' : FieldReader} {rs : List FieldReader} (h : r.next=.ok (true,r')) :
    r.iterate=.ok (rs,last) ↔ ∃ ts,r'.iterate=.ok (ts,last) ∧ rs=r'::ts := by
  rw [iterate_more h]
  cases r'.iterate with
  | error e => simp [Except.map]
  | ok found =>
    simp only [Except.map,Except.ok.injEq,Prod.mk.injEq]
    constructor
    · rintro ⟨rfl,rfl⟩
      exact ⟨_,rfl,rfl⟩
    · rintro ⟨ts,rfl,rfl⟩
      exact ⟨rfl,rfl⟩

/-- A loop whose visits are refused for their field alone comes to its end exactly if the fields do
and none of them is refused. -/
theorem each_ok (good : Field → Prop) (hv : ∀ s r,(visit s r).isOk ↔ good r.field) :
    (∃ out,each visit s r=.ok (out,last)) ↔
      ∃ rs,r.iterate=.ok (rs,last) ∧ ∀ f ∈ rs.map field,good f := by
  fun_induction each visit s r with
  | case1 s r e hn => simp [iterate_error hn]
  | case2 s r r' hn =>
    simp only [iterate_end hn,Except.ok.injEq,Prod.mk.injEq]
    constructor
    · rintro ⟨out,rfl,rfl⟩
      exact ⟨[],⟨rfl,rfl⟩,by simp⟩
    · rintro ⟨rs,⟨rfl,rfl⟩,_⟩
      exact ⟨s,rfl,rfl⟩
  | case3 s r r' hn _ e he =>
    simp only [iterate_cons hn]
    constructor
    · rintro ⟨_,h⟩
      exact nomatch h
    · rintro ⟨_,⟨ts,_,rfl⟩,hall⟩
      have hok := (hv s r').2 (hall r'.field (by simp))
      rw [he] at hok
      exact nomatch hok
  | case4 s r r' hn _ out hout ih =>
    have hgood := (hv s r').1 (by rw [hout]; rfl)
    rw [ih]
    simp only [iterate_cons hn]
    constructor
    · rintro ⟨ts,hi,hall⟩
      refine ⟨_,⟨ts,hi,rfl⟩,?_⟩
      intro f hm
      rcases List.mem_cons.1 hm with rfl | hm
      · exact hgood
      · exact hall f hm
    · rintro ⟨_,⟨ts,hi,rfl⟩,hall⟩
      exact ⟨ts,hi,fun f hm => hall f (List.mem_cons_of_mem _ hm)⟩

/-- The numbered field of a reference; other ids are passed over. -/
def readNumber (count : Nat) (values : List UInt64) (r : FieldReader) : Result (List UInt64) :=
  if r.currentId.toNat<1 ∨ count<r.currentId.toNat then .ok values
  else do
    let value ← r.asU64
    return values.set (r.currentId.toNat-1) value

theorem asU64_isOk : r.asU64.isOk ↔ r.field.value.length=8 := by
  simp only [asU64,field]
  split_ifs with h
  · simp [h,Except.isOk,Except.toBool]
  · simpa [Except.isOk,Except.toBool] using h

theorem readNumber_isOk (values : List UInt64) :
    (readNumber count values r).isOk ↔ (r.field.Numbered count → r.field.value.length=8) := by
  unfold readNumber
  split_ifs with h
  · refine iff_of_true rfl fun hn => ?_
    have hlo : 1 ≤ r.currentId.toNat := hn.1
    have hhi : r.currentId.toNat ≤ count := hn.2
    omega
  · have hn : r.field.Numbered count := ⟨by simp only [field]; omega,by simp only [field]; omega⟩
    rw [isOk_bind_pure,asU64_isOk]
    exact ⟨fun hl _ => hl,fun hl => hl hn⟩

end FieldReader

theorem WorkspaceRequest.read_isOk (request : WorkspaceRequest) (r : FieldReader) :
    (request.read r).isOk ↔ (r.field.Numbered 4 → r.field.value.length=8) := by
  have hnum : (r.currentId<1 ∨ 4<r.currentId) ↔ ¬r.field.Numbered 4 := by
    have h4 : (4 : UInt16).toNat=4 := rfl
    have h1 : (1 : UInt16).toNat=1 := rfl
    simp only [Field.Numbered,FieldReader.field,UInt16.lt_iff_toNat_lt,h1,h4]
    omega
  unfold read
  by_cases h : r.currentId<1 ∨ 4<r.currentId
  · rw [if_pos h]
    exact iff_of_true rfl fun hn => absurd hn (hnum.1 h)
  · have hn : r.field.Numbered 4 := not_not.1 fun hc => h (hnum.2 hc)
    rw [if_neg h]
    split_ifs
    all_goals
      rw [isOk_bind_pure,FieldReader.asU64_isOk]
      exact ⟨fun hl _ => hl,fun hl => hl hn⟩

abbrev PhaseReference :=
  CompilerSessionId × CompilerPhaseId × CompilerPhaseGeneration × Ref .invocation

def referenceOf (values : List UInt64) : PhaseReference :=
  (⟨values.getD 0 0⟩,⟨values.getD 1 0⟩,⟨values.getD 2 0⟩,
    ⟨⟨values.getD 3 0⟩,⟨values.getD 4 0⟩⟩)

def decodePhaseReference (payload : Bytes) : Result PhaseReference := do
  let (values,r) ← FieldReader.each (FieldReader.readNumber 5) (List.replicate 5 0)
    { payload := payload }
  r.finish
  return referenceOf values

section Fields

variable {payload : Bytes} {fs gs : List Field} {count : Nat}

theorem carries_iterate (h : Carries payload fs) : ∃ rs last,
    ({ payload := payload } : FieldReader).iterate=.ok (rs,last) ∧ rs.map FieldReader.field=fs :=
  FieldReader.iterate_fields (Nat.zero_le _) h

/-- A payload is a row of fields in one way only. -/
theorem Carries.unique (h : Carries payload fs) (k : Carries payload gs) : fs=gs := by
  obtain ⟨rs,last,hi,rfl⟩ := carries_iterate h
  obtain ⟨ts,_,hj,rfl⟩ := carries_iterate k
  cases hi.symm.trans hj
  rfl

/-- A decoder whose visits ask for eight bytes in the numbered fields takes the rows of fields that
have them. -/
def Takes (count : Nat) (payload : Bytes) : Prop :=
  ∃ fs,Carries payload fs ∧ ∀ f ∈ fs,f.Numbered count → f.value.length=8

theorem takes_iff {σ α : Type} {visit : σ → FieldReader → Result σ} {s : σ} (g : σ → α)
    (hv : ∀ s r,(visit s r).isOk ↔ (r.field.Numbered count → r.field.value.length=8)) :
    (FieldReader.each visit s { payload := payload } >>= fun out =>
      out.2.finish >>= fun _ => pure (g out.1)).isOk ↔ Takes count payload := by
  let good (f : Field) : Prop := f.Numbered count → f.value.length=8
  have hw : ({ payload := payload } : FieldReader).Within := Nat.zero_le _
  constructor
  · intro h
    cases he : FieldReader.each visit s { payload := payload } with
    | error e =>
      rw [he] at h
      exact nomatch h
    | ok out =>
      obtain ⟨rs,hi,hall⟩ := (FieldReader.each_ok good hv).1 ⟨out.1,he⟩
      exact ⟨rs.map FieldReader.field,(FieldReader.iterate_ok hw hi).1,hall⟩
  · rintro ⟨fs,hfs,hall⟩
    obtain ⟨rs,last,hi,rfl⟩ := carries_iterate hfs
    obtain ⟨_,hlast,hrest⟩ := FieldReader.iterate_ok hw hi
    obtain ⟨out,hout⟩ := (FieldReader.each_ok (s := s) good hv).2 ⟨rs,hi,hall⟩
    have hfin := FieldReader.finish_of_rest hlast hrest
    rw [hout]
    simp only [bind,Except.bind,hfin]
    rfl

/-- Among fields in ascending order the ones of one id are none or one. -/
theorem filter_id (h : fs.Pairwise (·.id<·.id)) {f : Field} (hf : f ∈ fs) :
    fs.filter (·.id.toNat=f.id.toNat)=[f] := by
  induction fs with
  | nil => cases hf
  | cons g fs ih =>
    obtain ⟨hg,h⟩ := List.pairwise_cons.1 h
    rcases List.mem_cons.1 hf with rfl | hf
    · have hrest : fs.filter (·.id.toNat=f.id.toNat)=[] := by
        rw [List.filter_eq_nil_iff]
        intro x hx he
        have hlt := UInt16.lt_iff_toNat_lt.1 (hg x hx)
        have he : x.id.toNat=f.id.toNat := by simpa using he
        omega
      rw [List.filter_cons_of_pos (by simp),hrest]
    · have hlt := UInt16.lt_iff_toNat_lt.1 (hg f hf)
      rw [List.filter_cons_of_neg (by simp; omega),ih h hf]

/-- The payload lacks none of the numbers, unless it is refused for something else: it is no row of
fields, or a number of it is not eight bytes long. -/
def LacksNone (count : Nat) (payload : Bytes) : Prop :=
  ∀ fs,Carries payload fs → (∀ f ∈ fs,f.Numbered count → f.value.length=8) →
    ∀ i,1 ≤ i → i ≤ count → ∃ f ∈ fs,f.id.toNat=i

theorem required_iff : (Takes count payload → ∀ i,1 ≤ i → i ≤ count → HasOnce payload i) ↔
    LacksNone count payload := by
  constructor
  · intro h fs hfs hall i hlo hhi
    obtain ⟨gs,f,hgs,hfilter,_⟩ := h ⟨fs,hfs,hall⟩ i hlo hhi
    cases hfs.unique hgs
    have hf : f ∈ fs.filter (·.id.toNat=i) := by simp [hfilter]
    have ⟨hm,hid⟩ := List.mem_filter.1 hf
    exact ⟨f,hm,by simpa using hid⟩
  · rintro h ⟨fs,hfs,hall⟩ i hlo hhi
    obtain ⟨f,hf,rfl⟩ := h fs hfs hall i hlo hhi
    exact ⟨fs,f,hfs,filter_id hfs.ascending hf,hall f hf ⟨hlo,hhi⟩⟩

/-- Both decoders ask for every number exactly where the payload lacks none. -/
theorem required_fields_iff (payload : Bytes) :
    (((decodePhaseReference payload).isOk → ∀ i,1 ≤ i → i ≤ 5 → HasOnce payload i) ↔
      LacksNone 5 payload) ∧
    (((decodeWorkspaceRequest payload).isOk → ∀ i,1 ≤ i → i ≤ 4 → HasOnce payload i) ↔
      LacksNone 4 payload) := by
  have hphase : (decodePhaseReference payload).isOk ↔ Takes 5 payload :=
    takes_iff referenceOf fun values _ => FieldReader.readNumber_isOk values
  have hworkspace : (decodeWorkspaceRequest payload).isOk ↔ Takes 4 payload :=
    takes_iff id WorkspaceRequest.read_isOk
  rw [hphase,hworkspace]
  exact ⟨required_iff,required_iff⟩

/-- The empty payload refers to session, phase and invocation zero. -/
theorem empty_reference_taken : (decodePhaseReference []).isOk ∧
    (decodeWorkspaceRequest []).isOk ∧ ¬HasOnce [] 1 := by
  refine ⟨by decide +kernel,by decide +kernel,?_⟩
  rintro ⟨fs,f,hfs,hfilter,_⟩
  have hnil : Carries [] [] := ⟨rfl,.nil,by simp,by simp⟩
  cases hfs.unique hnil
  cases hfilter

end Fields

end CompilerFabric
