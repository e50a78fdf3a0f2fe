import CompilerFabric.Law.Sources

namespace CompilerFabric

open Base Base.Action

namespace IntermediateArtifact

/-- What a consumer of an artifact sees of its authority. -/
def standing (a : IntermediateArtifact) := (a.state,a.authority,a.current,a.provenance)

/-- The artifact already stands as a commit that cites `provenance` would leave it. -/
def settled (provenance : ProvenanceId) (a : IntermediateArtifact) : Bool :=
  a.provenance=provenance && (!a.state.isConsumable || a.authority=.authoritative && a.current)

theorem staged_standing (provenance : ProvenanceId) (a : IntermediateArtifact) :
    (a.staged provenance).standing=a.standing ↔ a.settled provenance := by
  by_cases hc : a.state.isConsumable
  · simp only [staged,promoted,hc,if_true,standing,settled,Prod.mk.injEq,true_and,Bool.not_true,
      Bool.false_or,Bool.and_eq_true,decide_eq_true_eq]
    constructor
    · intro h
      exact ⟨h.2.2.symm,h.1.symm,h.2.1.symm⟩
    · intro h
      exact ⟨h.2.1.symm,h.2.2.symm,h.1.symm⟩
  · simp [staged,promoted,hc,standing,settled,eq_comm]

end IntermediateArtifact

namespace Runtime

/-- No session and no phase is written, and every artifact stands as before. -/
structure Untouched (rt t : Runtime) : Prop where
  sessions : t.sessions=rt.sessions
  artifacts : ∀ id,(t.artifacts.find id).map (·.standing)=(rt.artifacts.find id).map (·.standing)

/-- `commit_reserved` gets to its persist, and the journal refuses the record. -/
def persistRefused (rt : Runtime) (w : World) (r : Reservation) : Bool :=
  match rt.committable r with
  | .error _ => false
  | .ok (session,phase) =>
      match reprobe w r session phase rt with
      | (.error _,_) => false
      | (.ok _,t) => t.commitVerdict w r session phase=.valid &&
          match stage w r session phase t with
          | (.error _,_) => false
          | (.ok (_,committed,_),u) => !(persist w committed u).1.toBool

/-- Every output of the phase that is registered is settled; so it is where none is. -/
def outputsSettled (rt : Runtime) (phase : PhaseRecord) : Bool :=
  phase.outputs.all fun reference => (rt.artifacts.find reference.id).all
    (·.settled rt.provenance.allocator.next.1)

variable {rt : Runtime} {w : World} {r : Reservation}

theorem persistRefused_spec (h : rt.persistRefused w r) (report : ExecutionReport) :
    ∃ session phase t staged u e v,rt.committable r=.ok (session,phase) ∧
      reprobe w r session phase rt=(.ok (),t) ∧ stage w r session phase t=(.ok staged,u) ∧
      persist w staged.2.1 u=(.error e,v) ∧ (commitReserved w r report rt).2=v := by
  unfold persistRefused at h
  split at h
  · cases h
  next session phase hc =>
  split at h
  · cases h
  next t ht =>
  rw [Bool.and_eq_true,decide_eq_true_eq] at h
  have ⟨hv,h⟩ := h
  split at h
  · cases h
  next provenance committed concluded u hu =>
  cases hp : persist w committed u with
  | mk result v =>
    cases result with
    | ok _ =>
      rw [hp] at h
      cases h
    | error e =>
      refine ⟨session,phase,t,_,u,e,v,hc,ht,hu,hp,?_⟩
      unfold commitReserved
      rw [bind_ok (rfl : get rt=_),bind_ok (a := (session,phase)) (t := rt) (by rw [hc]; rfl)]
      dsimp only
      rw [bind_ok ht,bind_ok (rfl : get t=_),if_pos hv,publish,bind_ok hu]
      dsimp only
      rw [bind_error hp]

/-- A commit whose persist is refused leaves everything as it was exactly when the outputs were
settled before it. -/
theorem untouched_iff_settled {phase : PhaseRecord} (report : ExecutionReport)
    (h : rt.persistRefused w r) (hp : rt.phase r.session r.phase=some phase) :
    rt.Untouched (commitReserved w r report rt).2 ↔ rt.outputsSettled phase := by
  obtain ⟨session,found,t,staged,u,e,v,hc,ht,hu,hv,he⟩ := persistRefused_spec h report
  rw [he]
  obtain ⟨hs,hf,_⟩ := committable_ok r hc
  rw [Runtime.phase,hs,Option.bind_some,hf] at hp
  cases hp
  obtain ⟨toolchains,evidenceIds,hframe⟩ := reprobe_ok w r ht
  obtain ⟨_,_,hst,hsessions,hwrites⟩ := stage_spec w r session phase t
  cases hst.symm.trans hu
  obtain ⟨_,_,hpersist⟩ := persist_frame w hv
  have hsame : v.sessions=rt.sessions := by
    rw [hpersist,hsessions,hframe]
  have hentries (id : IntermediateArtifactId) : v.artifacts.find id=
      if id.value ∈ phase.outputs.map (·.id.value) then
        (rt.artifacts.find id).map (·.staged rt.provenance.allocator.next.1)
      else rt.artifacts.find id := by
    have hi := hwrites id.value
    rw [hframe] at hi
    rw [hpersist]
    exact hi
  constructor
  · intro hunt
    apply List.all_eq_true.2
    intro reference hm
    have ha := hunt.artifacts reference.id
    have hm' : reference.id.value ∈ phase.outputs.map (·.id.value) := List.mem_map_of_mem hm
    rw [hentries,if_pos hm'] at ha
    cases hfind : rt.artifacts.find reference.id with
    | none => rfl
    | some a =>
      rw [hfind] at ha
      exact (a.staged_standing _).1 (Option.some.inj ha)
  · intro hset
    refine ⟨hsame,?_⟩
    intro id
    rw [hentries]
    split
    · next hm =>
      obtain ⟨reference,hm,hid⟩ := List.mem_map.1 hm
      have hid : reference.id=id := StrongId.ext hid
      have hall := List.all_eq_true.1 hset reference hm
      rw [hid] at hall
      cases hfind : rt.artifacts.find id with
      | none => rfl
      | some a =>
        rw [hfind] at hall
        exact congrArg some ((a.staged_standing _).2 hall)
    · rfl

end Runtime

namespace Sample

/-- A phase without outputs, about to commit to a store that takes no record. -/
def unfilled : Runtime :=
  { validated.rt.modifyPhase ⟨1⟩ ⟨1⟩ fun p => { p with outputs := [] } with
    persistence := some { options := { maxRecordBytes := 0 } } }

/-- A world whose next write fails. -/
def torn : World := { world with disk := [.torn 0] }

/-- A process that keeps a journal, with a validated phase about to commit. -/
def journaled : System := (System.boot durable [adapter] [] world).run
  (.call (.discoverToolchain family) world::.call (.createSession request) world::
    phaseRun.take 9)

/-- The commit `journaled` is about to make. -/
def publishing : Reservation × ExecutionReport :=
  match (journaled.calls[2]? : Option Call) with
  | some (.phase { pc := .commit r report,.. }) => (r,report)
  | _ => ({},{})

end Sample

namespace Runtime

theorem untouched_of_unfilled : Sample.unfilled.persistRefused Sample.world Sample.committing.1 ∧
    Sample.unfilled.Untouched (commitReserved Sample.world Sample.committing.1
      Sample.committing.2 Sample.unfilled).2 := by
  have hr : Sample.unfilled.persistRefused Sample.world Sample.committing.1 := by decide +kernel
  have hp : (Sample.unfilled.phase Sample.committing.1.session Sample.committing.1.phase).any
      Sample.unfilled.outputsSettled := by decide +kernel
  have ⟨phase,hp,hs⟩ := Option.any_eq_true _ _ |>.1 hp
  exact ⟨hr,(untouched_iff_settled _ hr hp).2 hs⟩

/-- The one output of the phase is authoritative after a commit that was never recorded. -/
theorem not_untouched_of_torn :
    (Sample.journaled.rt.facing Sample.torn).persistRefused Sample.torn Sample.publishing.1 ∧
    ¬(Sample.journaled.rt.facing Sample.torn).Untouched (commitReserved Sample.torn
      Sample.publishing.1 Sample.publishing.2 (Sample.journaled.rt.facing Sample.torn)).2 := by
  have h : ((Sample.journaled.rt.facing Sample.torn).persistRefused Sample.torn
      Sample.publishing.1,
      ((Sample.journaled.rt.facing Sample.torn).artifacts.find ⟨1⟩).map (·.authority),
      ((commitReserved Sample.torn Sample.publishing.1 Sample.publishing.2
        (Sample.journaled.rt.facing Sample.torn)).2.artifacts.find ⟨1⟩).map (·.authority))=
      (true,some .none,some .authoritative) := by decide +kernel
  simp only [Prod.mk.injEq] at h
  have ⟨hr,hbefore,hafter⟩ := h
  refine ⟨hr,?_⟩
  intro hu
  have ha := congrArg (Option.map fun x => x.2.1) (hu.artifacts ⟨1⟩)
  simp only [Option.map_map,Function.comp_def,IntermediateArtifact.standing] at ha
  rw [hbefore,hafter] at ha
  exact absurd ha (by decide)

end Runtime

end CompilerFabric
