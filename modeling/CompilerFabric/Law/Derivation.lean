import CompilerFabric.Law.Conclusion
import CompilerFabric.Law.Isolation

namespace CompilerFabric

open Base Base.Action

namespace IdAllocator

variable {tag : IdTag} {a b : IdAllocator tag} {id : StrongId tag}

/-- The identity will not be drawn again, as long as the allocator has others. -/
def told (a : IdAllocator tag) (id : StrongId tag) : Prop :=
  id.value.toNat<a.counter.toNat ∨ a.spent

theorem told.mono (h : a.told id) (hc : a.counter.toNat ≤ b.counter.toNat) : b.told id := by
  rcases h with h | h
  · exact .inl (Nat.lt_of_lt_of_le h hc)
  · exact .inr (Runtime.spent_of_le hc h)

theorem told_drawn (a : IdAllocator tag) : a.next.2.told a.next.1 := by
  cases h : a.next.2.spent with
  | true => exact .inr h
  | false => exact .inl (drawn_lt h)

end IdAllocator

namespace Runtime

/-- What an artifact is made from is written as it is registered, and is `inputs`. -/
structure Derives (inputs : List (Ref .intermediate)) (rt t : Runtime) : Prop where
  entries : ∀ id a',t.artifacts.find id=some a' →
    (∃ a,rt.artifacts.find id=some a ∧ a'.id=a.id ∧ a'.lineageInputs=a.lineageInputs) ∨
      a'.id=id ∧ a'.lineageInputs=inputs ∧ t.artifacts.allocator.told id ∧
        rt.artifacts.allocator.counter.toNat ≤ id.value.toNat
  counter : rt.artifacts.allocator.counter.toNat ≤ t.artifacts.allocator.counter.toNat

instance {inputs : List (Ref .intermediate)} : IsPreorder Runtime (Derives inputs) where
  refl _ := ⟨fun _ a' ha => .inl ⟨a',ha,rfl,rfl⟩,Nat.le_refl _⟩
  trans := by
    intro rt u t h h'
    refine ⟨?_,Nat.le_trans h.counter h'.counter⟩
    intro id a' ha
    rcases h'.entries id a' ha with ⟨b,hb,hid,hl⟩ | ⟨hid,hl,htold,hlow⟩
    · rcases h.entries id b hb with ⟨a,ha,hid',hl'⟩ | ⟨hid',hl',htold,hlow⟩
      · exact .inl ⟨a,ha,hid.trans hid',hl.trans hl'⟩
      · exact .inr ⟨hid.trans hid',hl.trans hl',htold.mono h'.counter,hlow⟩
    · exact .inr ⟨hid,hl,htold,Nat.le_trans h.counter hlow⟩

variable {inputs : List (Ref .intermediate)} {rt t : Runtime} {w : World} {r : Reservation}
  {sid : CompilerSessionId} {pid : CompilerPhaseId}

theorem Derives.of_eq (h : t.artifacts=rt.artifacts) : Derives inputs rt t :=
  ⟨fun _ a' ha => .inl ⟨a',h ▸ ha,rfl,rfl⟩,Nat.le_of_eq (by rw [h])⟩

theorem Derives.of_quiet (h : rt.artifacts.Quiet t.artifacts) : Derives inputs rt t := by
  refine ⟨?_,Nat.le_of_eq (by rw [h.allocator])⟩
  intro id a' ha
  have hi := h.entries id.value
  have ha' : t.artifacts.entries[id.value]?=some a' := ha
  rw [ha'] at hi
  cases hf : rt.artifacts.entries[id.value]? with
  | none =>
    rw [hf] at hi
    cases hi
  | some a =>
    rw [hf] at hi
    cases hi with
    | some hi => exact .inl ⟨a,hf,congrArg (·.id) hi.made,congrArg (·.lineageInputs) hi.made⟩

theorem Derives.of_evolves {σ : UInt64 → SessionState → SessionState → Prop}
    (h : Evolves σ PhaseRecord.Quiet rt t) : Derives inputs rt t :=
  .of_quiet h.artifacts

theorem derives_of_quiet {α : Type} {x : Op α} (h : Within Quiet x) : Within (Derives inputs) x :=
  h.mono fun _ _ h => .of_evolves h

theorem registerOutput_derives (session : CompilerSession) (phase : PhaseRecord)
    (output : OutputDescriptor) : Within (Derives phase.inputs) (registerOutput r session phase output) := by
  refine Within.bind ?_ fun reference => Within.bind (fun _ => .of_eq rfl) fun _ _ => .of_eq rfl
  intro rt
  unfold registerArtifact ArtifactRegistry.registerArtifact
  split_ifs
  · exact Std.Refl.refl rt
  · refine ⟨?_,IdAllocator.le_next _⟩
    intro id a' ha
    rcases Table.of_insertIfNew ha with ⟨hk,rfl⟩ | ha
    · have hk := StrongId.ext hk
      rw [← hk]
      exact .inr ⟨rfl,rfl,IdAllocator.told_drawn _,IdAllocator.le_drawn _⟩
    · exact .inl ⟨a',ha,rfl,rfl⟩

/-- The inputs of the phase. -/
def inputsOf (rt : Runtime) (sid : CompilerSessionId) (pid : CompilerPhaseId) :
    List (Ref .intermediate) :=
  ((rt.phase sid pid).map (·.inputs)).getD []

theorem persistSession_derives : Within (Derives inputs) (persistSession w sid) :=
  derives_of_quiet (persistSession_within w sid)

theorem write_derives (f : CompilerSession → CompilerSession) :
    Within (Derives inputs) (modify (·.modifySession sid f) : Op Unit) := fun _ => .of_eq rfl

theorem recordExecution_derives (report : ExecutionReport) :
    Derives (rt.inputsOf r.session r.phase) rt (recordExecution w r report rt).2 := by
  refine Within.get_at (Within.ofExcept_at fun (session,phase) hr => ?_)
  have hinputs : rt.inputsOf r.session r.phase=phase.inputs := by
    simp only [recordable,do_eq_ok,requireSession_ok,requirePhase_ok] at hr
    obtain ⟨s,hs,p,hp,_,_,_,_,_,_,he⟩ := hr
    cases he
    rw [inputsOf,Runtime.phase,hs,Option.bind_some,hp]
    rfl
  rw [hinputs]
  refine Within.bind (write_derives _) (fun _ => ?_) rt
  refine Within.bind ?_ fun stored => Within.bind (write_derives _) fun _ => ?_
  · intro rt
    unfold addDiagnostics
    split <;> exact .of_eq rfl
  refine Within.bind (fun _ => .of_eq rfl) fun _ => ?_
  split
  · refine Within.bind (write_derives _) fun _ => ?_
    refine (Within.forEach (registerOutput_derives session phase) _).bind fun _ => ?_
    refine Within.bind (fun _ => .of_eq rfl) fun _ => Within.bind (write_derives _) fun _ => ?_
    exact persistSession_derives
  · exact Within.bind (write_derives _) fun _ => persistSession_derives

theorem reportOutput_derives (generation : CompilerPhaseGeneration) (invocation : Ref .invocation)
    (outputs : List OutputDescriptor) (process : ProcessOutcome) :
    Derives (rt.inputsOf sid pid) rt
      (reportOutput w sid pid generation invocation outputs process rt).2 := by
  refine Within.get_at (Within.ofExcept_at fun session _ => Within.ofExcept_at fun phase _ =>
    Within.ofExcept_at fun _ _ => Within.ofExcept_at fun _ _ => ?_)
  have h := @recordExecution_derives rt w
    (rebuiltReservation session phase sid pid generation invocation)
    { executed := process.termination=.exited || process.termination=.crashed
      process := { process with invocation }
      outputs := outputs
      status := process.status.code
      detail := process.status.message }
  exact Within.bind_at h fun _ t _ => Std.Refl.refl t

theorem modifyArtifact_derives {f : IntermediateArtifact → IntermediateArtifact}
    (hf : ∀ a,(f a).id=a.id ∧ (f a).lineageInputs=a.lineageInputs) (reference : Ref .intermediate) :
    Within (Derives inputs) (modifyArtifact f reference) := by
  intro rt
  refine ⟨?_,Nat.le_refl _⟩
  intro id a' ha
  have ha : (rt.artifacts.entries.modify reference.id.value f)[id.value]?=some a' := ha
  rw [Std.ExtTreeMap.getElem?_modify] at ha
  split_ifs at ha with hk
  · have hk := Std.LawfulEqCmp.eq_of_compare hk
    have ⟨a,ha,he⟩ := Option.map_eq_some_iff.1 ha
    refine .inl ⟨a,?_,he ▸ hf a⟩
    rw [ArtifactRegistry.find,← hk,ha]
  · exact .inl ⟨a',ha,rfl,rfl⟩

theorem promote_derives (reference : Ref .intermediate) :
    Within (Derives inputs) (promote reference) := by
  intro rt
  show Derives inputs rt
    { rt with artifacts := (rt.artifacts.setAuthority reference.id .authoritative).1 }
  unfold ArtifactRegistry.setAuthority
  split
  · exact .of_eq rfl
  · split
    · exact .of_eq rfl
    · have hm : Derives inputs rt _ := modifyArtifact_derives (f := fun a => { a with
        authority := .authoritative
        current := true }) (fun _ => ⟨rfl,rfl⟩) reference rt
      exact hm

theorem stage_derives (session : CompilerSession) (phase : PhaseRecord) :
    Within (Derives inputs) (stage w r session phase) := by
  refine Within.bind (fun _ => .of_eq rfl) fun provenance => ?_
  refine Within.bind (Within.forEach ?_ _) fun _ => Within.bind (fun _ => .of_eq rfl) fun commit => ?_
  · exact modifyArtifact_derives fun _ => ⟨rfl,rfl⟩
  · refine (Within.forEach promote_derives _).bind fun _ => Within.bind ?_ fun _ => .pure _
    exact (conclude_artifacts w _ _).mono fun _ _ h => .of_eq h

theorem publish_derives (report : ExecutionReport) (session : CompilerSession) (phase : PhaseRecord) :
    Within (Derives inputs) (publish w r report session phase) := by
  refine (stage_derives session phase).bind fun (provenance,committed,concluded) => ?_
  refine Within.bind ?_ fun _ => (write_derives _).bind fun _ => Within.bind ?_ fun _ => .pure _
  · exact derives_of_quiet (persist_within w committed)
  · refine Within.get.bind fun _ => Within.bind (Within.forEach ?_ _) fun _ => ?_
    · exact modifyArtifact_derives fun _ => ⟨rfl,rfl⟩
    · exact Within.bind (fun _ => .of_eq rfl) fun _ _ => .of_eq rfl

theorem commitReserved_derives (report : ExecutionReport) :
    Within (Derives inputs) (commitReserved w r report) := by
  refine Within.get.bind fun _ => (Within.ofExcept _).bind fun (session,phase) => ?_
  refine Within.bind ?_ fun _ => Within.get.bind fun _ => ?_
  · exact derives_of_quiet (reprobe_within w r session phase)
  · dsimp only
    split
    · exact publish_derives report session phase
    · exact derives_of_quiet (refuseCommit_within w r phase _)

theorem reserve_derives (isRetry : Bool) : Within (Derives inputs) (reserve w sid pid isRetry) := by
  intro rt
  cases hx : reserve w sid pid isRetry rt with
  | mk result t =>
    rcases reserve_spec w sid pid hx with ⟨⟨_,_,ha⟩,_⟩ | ⟨_,_,_,_,h,_⟩
    · exact .of_eq ha
    · exact .of_eq h.artifacts

theorem createSession_derives (request : CompileRequest) :
    Within (Derives inputs) (createSession w request) := by
  refine Within.bind ?_ fun parts => Within.get.bind fun _ => Within.bind ?_ fun _ => ?_
  · exact derives_of_quiet (sessionParts_within w request)
  · exact derives_of_quiet (persist_within w _)
  · exact Within.bind (fun _ => .of_eq rfl) fun _ => Within.bind (fun _ => .of_eq rfl) fun _ => .pure _

theorem adoptSession_derives (session : CompilerSession) :
    Within (Derives inputs) (adoptSession w session) := by
  refine Within.get.bind fun _ => (Within.ofExcept _).bind fun _ => (Within.ofExcept _).bind fun _ => ?_
  refine Within.bind (fun _ => .of_eq rfl) fun _ => Within.bind ?_ fun fenced => Within.bind ?_ fun _ => ?_
  · exact derives_of_quiet (fencePhases_within w _ _ _)
  · exact derives_of_quiet (persist_within w _)
  · exact Within.bind (fun _ => .of_eq rfl) fun _ => .pure _

/-- Every artifact is registered under its identity, which its allocator was told of. -/
def Filed (rt : Runtime) : Prop := ∀ id a,rt.artifacts.find id=some a →
  a.id=id ∧ rt.artifacts.allocator.told id

theorem Derives.filed (h : Derives inputs rt t) (hf : rt.Filed) : t.Filed := by
  intro id a' ha
  rcases h.entries id a' ha with ⟨a,ha,hid,_⟩ | ⟨hid,_,htold,_⟩
  · have ⟨hi,htold⟩ := hf id a ha
    exact ⟨hid.trans hi,htold.mono h.counter⟩
  · exact ⟨hid,htold⟩

def Files (rt t : Runtime) : Prop := rt.Filed → t.Filed

instance : IsPreorder Runtime Files where
  refl _ h := h
  trans _ _ _ h h' hf := h' (h hf)

theorem Files.of_eq (h : t.artifacts=rt.artifacts) : Files rt t := fun hf => by
  rw [Filed,h]
  exact hf

theorem files_of_quiet {α : Type} {x : Op α} (h : Within Quiet x) : Within Files x := by
  have hd : Within (Derives []) x := derives_of_quiet h
  exact hd.mono fun _ _ h => h.filed

theorem reloadArtifact_files (artifact : IntermediateArtifact) :
    Within Files (reloadArtifact artifact) := by
  intro rt hf
  unfold reloadArtifact ArtifactRegistry.registerArtifactAs
  by_cases hp : !artifact.id.present
  · rw [if_pos hp]
    exact hf
  rw [if_neg hp]
  intro id a' ha
  rcases Table.of_insert ha with ⟨hk,rfl⟩ | ha
  · have hk : artifact.id=id := StrongId.ext hk
    exact ⟨hk,hk ▸ observed_or _ _⟩
  · have ⟨hid,htold⟩ := hf id a' ha
    exact ⟨hid,htold.mono (IdAllocator.le_observe _ _)⟩

theorem reload_files {α : Type} (bytes : Bytes) (decode : Bytes → Result α) {register : α → Op Unit}
    (h : ∀ a,Within Files (register a)) : Within Files (reload bytes decode register) := by
  unfold reload
  split
  · exact .pure _
  · exact (Within.ofExcept _).bind h

theorem reloadAuthority_files (bundle : SessionBundle) : Within Files (reloadAuthority bundle) := by
  have quiet {α : Type} {x : Op α} (h : Within Quiet x) : Within Files (x >>= fun _ => pure ()) :=
    (files_of_quiet h).bind fun _ => .pure _
  refine (reload_files _ _ fun _ => quiet (onToolchains_within _)).bind fun _ => ?_
  refine (reload_files _ _ fun _ => quiet (onTargets_within _)).bind fun _ => ?_
  refine (reload_files _ _ fun _ => quiet (onEnvironments_within _)).bind fun _ => ?_
  refine (reload_files _ _ fun _ => Within.bind ?_ fun _ => .pure _).bind fun _ => ?_
  · intro rt
    unfold onPolicies
    split <;> exact .of_eq rfl
  refine (Within.forEach (fun _ => reload_files _ _ fun _ => Within.bind ?_ fun _ => .pure _) _).bind
    fun _ => ?_
  · intro rt
    unfold onSources
    split <;> exact .of_eq rfl
  refine (Within.forEach reloadArtifact_files _).bind fun _ => ?_
  refine (Within.forEach (fun _ => reload_files _ _ fun _ _ => .of_eq rfl) _).bind fun _ => ?_
  refine Within.forEach (fun set rt => ?_) _
  unfold reloadDiagnostics
  split <;> exact .of_eq rfl

theorem recoverSession_files (w : World) (bundle : SessionBundle) :
    Within Files (recoverSession w bundle) := by
  refine (reloadAuthority_files bundle).bind fun _ => Within.bind (fun _ => .of_eq rfl) fun _ => ?_
  refine (files_of_quiet (fencePhases_within w _ _ _)).bind fun fenced => Within.get.bind fun _ => ?_
  exact (files_of_quiet (persist_within w _)).bind fun _ _ => .of_eq rfl

theorem create_filed (w : World) (options : RuntimeOptions) (adapters : List Adapter) (file : Bytes) :
    (create w options adapters file).2.Filed := by
  have start (store : Option PersistenceStore) (epoch : UInt64) :
      ({ options,adapters,epoch,persistence := store } : Runtime).Filed := by
    intro id a ha
    simp [ArtifactRegistry.find] at ha
  have recover (previous : DurableState) : Within Files (recoverFrom w previous) := by
    refine (Within.ofExcept _).bind fun _ => Within.bind (fun _ => .of_eq rfl) fun _ => ?_
    refine Within.bind (fun rt => ?_) fun _ => Within.get.bind fun _ => ?_
    · unfold recordEpoch
      split
      · exact .of_eq rfl
      · split <;> exact .of_eq rfl
    · split
      · refine Within.bind (fun _ => .of_eq rfl) fun _ => ?_
        refine (Within.forEach (recoverSession_files w) _).bind fun _ => ?_
        split
        · exact .pure _
        · exact (files_of_quiet recordEvidence_within).bind fun _ => .pure _
      · exact .pure _
  unfold create
  dsimp only
  split
  · exact start none 0
  · split
    · split
      · exact start _ 0
      · exact recover _ _ (start _ 0)
    · exact start none 1

end Runtime

namespace PhaseRun

variable {w : World} {run : PhaseRun} {rt : Runtime}

/-- What the artifacts are made from that the next part registers. -/
def registers (run : PhaseRun) (rt : Runtime) : List (Ref .intermediate) :=
  match run.pc with
  | .record r _ => rt.inputsOf r.session r.phase
  | _ => []

theorem step_derives : Runtime.Derives (run.registers rt) rt (run.step w rt).2 := by
  unfold step registers
  cases run.pc with
  | reserve =>
    have hd : Runtime.Derives [] rt (Runtime.reserve w run.session run.phase run.isRetry rt).2 :=
      Runtime.reserve_derives run.isRetry rt
    dsimp only
    split
    · next he => rwa [he] at hd
    · next he => rwa [he] at hd
  | prepare r =>
    have hd : Runtime.Derives [] rt (Runtime.prepare w r rt).2 :=
      Runtime.derives_of_quiet (Runtime.prepare_within w r) rt
    dsimp only
    split
    · next he => rwa [he] at hd
    · next he => rwa [he] at hd
  | execute r =>
    dsimp only
    split
    · exact Std.Refl.refl rt
    · exact Runtime.derives_of_quiet (Runtime.noteProcess_within r _) rt
  | record r report =>
    dsimp only
    rw [after_snd]
    exact Runtime.recordExecution_derives _
  | inspect r report =>
    dsimp only
    split
    · split <;> exact Std.Refl.refl rt
    · exact Std.Refl.refl rt
  | reproduce r report =>
    dsimp only
    split <;> exact Std.Refl.refl rt
  | verify r report =>
    dsimp only
    split <;> exact Std.Refl.refl rt
  | refuse r status =>
    dsimp only
    rw [after_snd]
    exact Runtime.derives_of_quiet (Runtime.refuseDivergent_within w r status) rt
  | validate r report =>
    dsimp only
    split <;> exact Std.Refl.refl rt
  | judge r report =>
    dsimp only
    split
    · exact Std.Refl.refl rt
    · rw [after_snd]
      exact Runtime.derives_of_quiet (Runtime.applyEvidence_within w r _) rt
  | commit r report =>
    dsimp only
    rw [after_snd]
    exact Runtime.commitReserved_derives report rt

end PhaseRun

theorem SessionRun.step_derives (w : World) (run : SessionRun) (calls : List Call) (rt : Runtime) :
    Runtime.Derives [] rt (run.step w calls rt).2.2 := by
  unfold step
  cases run.pc with
  | limit =>
    dsimp only
    split <;> exact Std.Refl.refl rt
  | ceiling =>
    dsimp only
    split <;> exact Std.Refl.refl rt
  | round =>
    dsimp only
    split
    · exact .of_evolves (Runtime.failSession_within w run.session _ rt)
    · have h : Runtime.Derives [] rt (Runtime.beginRound w run.session rt).2 :=
        .of_evolves (Runtime.beginRound_within w run.session rt)
      split
      · next he => rwa [he] at h
      · next he => rwa [he] at h
      · next he => rwa [he] at h
      · next he => rwa [he] at h
  | waiting children =>
    dsimp only
    split
    · exact Std.Refl.refl rt
    · split
      · exact Std.Refl.refl rt
      · split
        · exact Std.Refl.refl rt
        · exact .of_evolves (Runtime.failIfActive_within w run.session _ rt)
  | finish =>
    dsimp only
    split <;> exact Std.Refl.refl rt

namespace Command

variable {w : World} {rt : Runtime}

/-- What the artifacts are made from that a call registers as it begins. -/
def registers (rt : Runtime) : Command → List (Ref .intermediate)
  | .reportOutput session phase _ _ _ _ => rt.inputsOf session phase
  | _ => []

theorem start_derives (c : Command) : Runtime.Derives (c.registers rt) rt (c.start w rt).2 := by
  cases c with
  | createSession request => exact Runtime.createSession_derives request rt
  | adoptSession session => exact Runtime.adoptSession_derives session rt
  | runPhase => exact Std.Refl.refl rt
  | retryPhase session phase =>
    have h : Runtime.Derives [] rt (Runtime.beginRetry session phase rt).2 :=
      Runtime.derives_of_quiet (Runtime.beginRetry_within session phase) rt
    simp only [start]
    split
    · next he => rwa [he] at h
    · next he => rwa [he] at h
    · next he => rwa [he] at h
  | runSession => exact Std.Refl.refl rt
  | cancelPhase session phase reason =>
    exact Runtime.derives_of_quiet (Runtime.cancelPhase_within w session phase reason) rt
  | cancelSession session reason =>
    simp only [start]
    split <;> exact Std.Refl.refl rt
  | retireSession session reason =>
    exact .of_evolves (Runtime.retireSession_within w session reason rt)
  | reportOutput session phase generation invocation outputs process =>
    exact Runtime.reportOutput_derives generation invocation outputs process
  | commitPhase session phase generation invocation =>
    simp only [start]
    split <;> exact Std.Refl.refl rt
  | failPhase session phase generation failure status detail =>
    exact Runtime.derives_of_quiet
      (Runtime.failPhase_within w session phase generation failure status detail) rt
  | applyRecovery session =>
    have h : Runtime.Derives [] rt (Runtime.beginRecovery session rt).2 :=
      Runtime.derives_of_quiet (Runtime.beginRecovery_within session) rt
    simp only [start]
    split
    · next he => rwa [he] at h
    · next he => rwa [he] at h
  | shutdown =>
    have h : Runtime.Derives [] rt (Runtime.beginShutdown w rt).2 :=
      .of_evolves (Runtime.beginShutdown_within w rt)
    simp only [start]
    split
    · next he => rwa [he] at h
    · next he => rwa [he] at h
    · next he => rwa [he] at h
  | discoverToolchain family =>
    exact Runtime.derives_of_quiet (Runtime.discoverToolchain_within w family) rt
  | refreshToolchain id => exact Runtime.derives_of_quiet (Runtime.refreshToolchain_within w id) rt
  | invalidateToolchain id reason =>
    exact Runtime.derives_of_quiet (Runtime.moveToolchain_within _) rt
  | applyToolchainObservation observed =>
    exact Runtime.derives_of_quiet (Runtime.moveToolchain_within _) rt
  | internTarget spec => exact Runtime.derives_of_quiet (Runtime.onTargets_within _) rt
  | reviseTarget id spec => exact Runtime.derives_of_quiet (Runtime.onTargets_within _) rt
  | internEnvironment spec => exact Runtime.derives_of_quiet (Runtime.onEnvironments_within _) rt
  | reviseEnvironment id spec => exact Runtime.derives_of_quiet (Runtime.onEnvironments_within _) rt
  | internPolicy spec =>
    exact Runtime.derives_of_quiet
      (Runtime.onPolicies_within fun _ _ _ => SpecRegistry.internWith_advances) rt
  | revisePolicy id spec =>
    exact Runtime.derives_of_quiet
      (Runtime.onPolicies_within fun _ _ _ => SpecRegistry.reviseWith_advances) rt
  | addSource => exact Runtime.derives_of_quiet (Runtime.addSource_within _) rt
  | _ => exact .of_eq rfl

end Command

namespace System

variable {sys : System} {e : Event}

/-- What the artifacts are made from that an event registers. -/
def registers (sys : System) : Event → List (Ref .intermediate)
  | .call command _ => command.registers sys.rt
  | .resume index _ => match sys.calls[index]? with
    | some (.phase run) => run.registers sys.rt
    | _ => []
  | .restart .. => []

theorem apply_derives (h : e.inProcess) :
    Runtime.Derives (sys.registers e) sys.rt (sys.apply e).rt := by
  have facing {inputs : List (Ref .intermediate)} {w : World} {t : Runtime}
      (hd : Runtime.Derives inputs (sys.rt.facing w) t) : Runtime.Derives inputs sys.rt t :=
    ⟨hd.entries,hd.counter⟩
  cases e with
  | restart options adapters w => exact h.elim
  | call command w =>
    simp only [apply]
    split
    · have hd := @Command.start_derives w (sys.rt.facing w) command
      have hr : command.registers (sys.rt.facing w)=command.registers sys.rt := by cases command <;> rfl
      rw [hr] at hd
      exact facing hd
    · exact Std.Refl.refl sys.rt
  | resume index w =>
    simp only [apply]
    split
    · cases hc : sys.calls[index]? with
      | none => exact Std.Refl.refl sys.rt
      | some call =>
        simp only [registers,hc]
        cases call with
        | phase run =>
          have hd := @PhaseRun.step_derives w run (sys.rt.facing w)
          have hr : run.registers (sys.rt.facing w)=run.registers sys.rt := by
            unfold PhaseRun.registers
            cases run.pc <;> rfl
          rw [hr] at hd
          exact facing hd
        | session run => exact facing (run.step_derives w sys.calls (sys.rt.facing w))
        | cancel session reason remaining =>
          refine facing (w := w) ?_
          cases remaining with
          | nil => exact .of_evolves (Runtime.endCancelSession_within w session reason (sys.rt.facing w))
          | cons phase rest =>
            exact Runtime.derives_of_quiet (Runtime.cancelPhase_within w session phase reason)
              (sys.rt.facing w)
        | recovery session plan =>
          exact facing (.of_evolves (Runtime.endRecovery_within w session plan (sys.rt.facing w)))
        | stopping => exact facing (.of_evolves (Runtime.endShutdown_within w (sys.rt.facing w)))
        | ran | drove | created | recovered | ended => exact Std.Refl.refl sys.rt
    · exact Std.Refl.refl sys.rt

/-- An event registers artifacts made from the inputs of a phase of the session it is on. -/
theorem registers_on (hs : sys.Staffed) : sys.registers e=[] ∨
    ∃ who pid,sys.on e=some who ∧ sys.registers e=sys.rt.inputsOf who pid := by
  cases e with
  | restart options adapters w => exact .inl rfl
  | call command w =>
    cases command with
    | reportOutput session phase => exact .inr ⟨session,phase,rfl,rfl⟩
    | _ => exact .inl rfl
  | resume index w =>
    simp only [registers]
    split
    · next run hc =>
      have howned := hs index run hc
      unfold PhaseRun.registers
      unfold PhaseRun.owned at howned
      split
      · next r report hpc =>
        rw [hpc] at howned
        refine .inr ⟨run.session,r.phase,?_,?_⟩
        · simp only [on,hc]
          rfl
        · rw [howned]
      · exact .inl rfl
    · exact .inl rfl

end System

end CompilerFabric
