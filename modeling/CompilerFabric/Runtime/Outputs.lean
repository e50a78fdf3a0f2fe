import CompilerFabric.Runtime.Moves

namespace CompilerFabric

open Base Base.Action

/-- The entries at `ids` are written with `f`, the others stay. -/
def Table.Rewrites {α : Type} (f : α → α) (ids : List UInt64) (m m' : Table α) : Prop :=
  ∀ i : UInt64,m'[i]?=if i ∈ ids then m[i]?.map f else m[i]?

namespace Table.Rewrites

variable {α : Type} {f g : α → α} {ids : List UInt64} {m m' m'' : Table α}

theorem nil : Table.Rewrites f [] m m := by
  intro i
  simp

theorem modify (k : UInt64) : Table.Rewrites f [k] m (m.modify k f) := by
  intro i
  rw [Std.ExtTreeMap.getElem?_modify]
  by_cases hk : k=i
  · simp [hk]
  · have hc : compare k i ≠ .eq := fun h => hk (Std.LawfulEqCmp.eq_of_compare h)
    simp [hc,Ne.symm hk]

theorem cons {k : UInt64} (hf : ∀ a,f (f a)=f a) (h : Table.Rewrites f [k] m m')
    (h' : Table.Rewrites f ids m' m'') : Table.Rewrites f (k::ids) m m'' := by
  intro i
  rw [h' i,h i]
  by_cases hk : i=k <;> by_cases hi : i ∈ ids <;> simp [hk,hi,Function.comp_def,hf]

theorem comp (h : Table.Rewrites f ids m m') (h' : Table.Rewrites g ids m' m'') :
    Table.Rewrites (fun a => g (f a)) ids m m'' := by
  intro i
  rw [h' i,h i]
  by_cases hi : i ∈ ids <;> simp [hi,Function.comp_def]

end Table.Rewrites

namespace IntermediateArtifact

/-- What `set_authority` makes of an output that a commit hands it. -/
def promoted (a : IntermediateArtifact) : IntermediateArtifact :=
  if a.state.isConsumable then { a with authority := .authoritative,current := true } else a

/-- An output as a commit writes it before its persist. -/
def staged (provenance : ProvenanceId) (a : IntermediateArtifact) : IntermediateArtifact :=
  { a with provenance }.promoted

theorem promoted_promoted (a : IntermediateArtifact) : a.promoted.promoted=a.promoted := by
  by_cases h : a.state.isConsumable <;> simp [promoted,h]

end IntermediateArtifact

namespace Runtime

variable (w : World) (r : Reservation)

section Rewrites

variable {x : Ref .intermediate → Op Unit} {f : IntermediateArtifact → IntermediateArtifact}

/-- `x` writes one artifact with `f` and nothing else. -/
def WritesArtifact (f : IntermediateArtifact → IntermediateArtifact)
    (x : Ref .intermediate → Op Unit) : Prop :=
  ∀ reference rt,∃ artifacts,x reference rt=(.ok (),{ rt with artifacts }) ∧
    Table.Rewrites f [reference.id.value] rt.artifacts.entries artifacts.entries

theorem modifyArtifact_writes : WritesArtifact f (modifyArtifact f) :=
  fun reference rt => ⟨rt.artifacts.modify reference.id f,rfl,.modify _⟩

theorem promote_writes : WritesArtifact IntermediateArtifact.promoted promote := by
  intro reference rt
  refine ⟨_,rfl,?_⟩
  intro i
  unfold ArtifactRegistry.setAuthority
  cases ha : rt.artifacts.find reference.id with
  | none =>
    by_cases hi : i=reference.id.value
    · have hn : rt.artifacts.entries[i]?=none := hi ▸ ha
      simp [hn]
    · simp [hi]
  | some a =>
    by_cases hc : a.state.isConsumable
    · have hm := Table.Rewrites.modify (f := IntermediateArtifact.promoted)
        (m := rt.artifacts.entries) reference.id.value i
      simp only [hc,Bool.not_true,Bool.false_eq_true,and_false,if_false]
      rw [← hm]
      show (rt.artifacts.entries.modify _ _)[i]?=_
      rw [Std.ExtTreeMap.getElem?_modify,Std.ExtTreeMap.getElem?_modify]
      have hs : rt.artifacts.entries[reference.id.value]?=some a := ha
      rw [hs]
      simp [IntermediateArtifact.promoted,hc]
    · by_cases hi : i=reference.id.value
      · have hs : rt.artifacts.entries[i]?=some a := hi ▸ ha
        simp [hs,hc,IntermediateArtifact.promoted]
      · simp [hi,hc]

theorem forEach_writes (hx : WritesArtifact f x) (hf : ∀ a,f (f a)=f a)
    (references : List (Ref .intermediate)) (rt : Runtime) :
    ∃ artifacts,forEach x references rt=(.ok (),{ rt with artifacts }) ∧
      Table.Rewrites f (references.map (·.id.value)) rt.artifacts.entries artifacts.entries := by
  induction references generalizing rt with
  | nil => exact ⟨rt.artifacts,rfl,.nil⟩
  | cons reference references ih =>
    have ⟨artifacts,he,hw⟩ := hx reference rt
    have ⟨artifacts',he',hw'⟩ := ih { rt with artifacts }
    refine ⟨artifacts',?_,hw.cons hf hw'⟩
    rw [forEach,bind_ok he]
    exact he'

end Rewrites

theorem citeValidation_total (id : CompilerPhaseId) : Total (citeValidation id) := by
  intro rt
  unfold citeValidation
  split <;> exact ⟨_,_,rfl⟩

theorem conclude_total (session : CompilerSession) (phase : PhaseRecord) :
    Total (conclude w session phase) := by
  refine Total.get.bind fun rt => ?_
  split
  · split
    · exact .pure _
    · exact Total.bind (fun _ => ⟨_,_,rfl⟩) fun _ => (citeValidation_total _).bind fun _ => .pure _
  · exact .pure _

/-- Nothing before the persist refuses a commit. -/
theorem stage_total (session : CompilerSession) (phase : PhaseRecord) :
    Total (stage w r session phase) := by
  refine Total.bind (fun _ => ⟨_,_,rfl⟩) fun provenance => ?_
  refine (Total.forEach (fun _ => .modify _) _).bind fun _ => ?_
  refine Total.bind (fun _ => ⟨_,_,rfl⟩) fun commit => ?_
  refine (Total.forEach (fun _ => .modify _) _).bind fun _ => ?_
  exact (conclude_total w _ _).bind fun _ => .pure _

/-- No artifact is written. -/
def SameArtifacts (rt t : Runtime) : Prop := t.artifacts=rt.artifacts

instance : IsPreorder Runtime SameArtifacts where
  refl _ := rfl
  trans _ _ _ h h' := h'.trans h

theorem conclude_artifacts (session : CompilerSession) (phase : PhaseRecord) :
    Within SameArtifacts (conclude w session phase) := by
  have cite (id : CompilerPhaseId) : Within SameArtifacts (citeValidation id) := by
    intro rt
    unfold citeValidation
    split <;> rfl
  refine Within.get.bind fun rt => ?_
  split
  · split
    · exact .pure _
    · exact Within.bind (fun _ => rfl) fun _ => (cite _).bind fun _ => .pure _
  · exact .pure _

/-- A commit reaches its persist with the session as it was and the outputs staged. -/
theorem stage_spec (session : CompilerSession) (phase : PhaseRecord) (rt : Runtime) :
    ∃ staged t,stage w r session phase rt=(.ok staged,t) ∧ t.sessions=rt.sessions ∧
      Table.Rewrites (IntermediateArtifact.staged rt.provenance.allocator.next.1)
        (phase.outputs.map (·.id.value)) rt.artifacts.entries t.artifacts.entries := by
  have hs := (stage_aside w r session phase rt).sessions
  have ⟨staged,t,ht⟩ := stage_total w r session phase rt
  rw [ht] at hs
  refine ⟨staged,t,ht,hs,?_⟩
  have ⟨provenance,t₁,h₁,h⟩ := seq_eq_ok.1 ht
  have hp : provenance=rt.provenance.allocator.next.1 ∧ t₁.artifacts=rt.artifacts := by
    cases h₁
    exact ⟨rfl,rfl⟩
  clear h₁
  have ⟨_,t₂,h₂,h⟩ := seq_eq_ok.1 h
  have ⟨artifacts,he,hw⟩ := forEach_writes (modifyArtifact_writes
    (f := fun a => { a with provenance })) (fun _ => rfl) phase.outputs t₁
  have h₂ : t₂.artifacts=artifacts := by
    cases he.symm.trans h₂
    rfl
  have ⟨commit,t₃,h₃,h⟩ := seq_eq_ok.1 h
  have h₃ : t₃.artifacts=t₂.artifacts := by
    cases h₃
    rfl
  have ⟨_,t₄,h₄,h⟩ := seq_eq_ok.1 h
  have ⟨artifacts',he',hw'⟩ := forEach_writes promote_writes
    IntermediateArtifact.promoted_promoted phase.outputs t₃
  have h₄ : t₄.artifacts=artifacts' := by
    cases he'.symm.trans h₄
    rfl
  have ⟨candidate,t₅,h₅,h⟩ := seq_eq_ok.1 h
  have hc := conclude_artifacts w (session.committedPhase phase.id commit w.now)
    (phase.committed commit w.now) t₄
  rw [h₅] at hc
  have hc : t₅.artifacts=t₄.artifacts := hc
  cases h
  rw [hc,h₄]
  rw [h₃,h₂] at hw'
  rw [hp.2] at hw
  rw [← hp.1]
  exact hw.comp hw'

end Runtime

end CompilerFabric
