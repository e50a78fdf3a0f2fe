import CompilerFabric.Base.Triple
import CompilerFabric.Law.Reproducible
import CompilerFabric.Law.Sources

namespace CompilerFabric

open Base Base.Action

/-- Room for so many more artifacts. -/
def ArtifactRegistry.hasRoom : Nat → ArtifactRegistry → Bool
  | 0,_ => true
  | n+1,r => r.entries.size<kMaxArtifacts && hasRoom n { r with
      entries := r.entries.insertIfNew r.allocator.next.1.value {}
      allocator := r.allocator.next.2 }

def DiagnosticStore.hasRoom (s : DiagnosticStore) : Bool := s.entries.size<kMaxSets

/-- The re-probe of a commit shows a toolchain that is not registered. -/
def Runtime.unknownToolchain (rt : Runtime) (w : World) (session : CompilerSession) : Bool :=
  (rt.findAdapterByName session.adapterName).isSome &&
    (rt.toolchains.find session.toolchain.id).isSome &&
    match w.reprobed with
    | .ok observed => (rt.toolchains.find observed.id).isNone
    | .error _ => false

namespace ArtifactRegistry

/-- Room is a matter of the identities alone. -/
theorem hasRoom_congr {n : Nat} {r r' : ArtifactRegistry} (ha : r'.allocator=r.allocator)
    (hs : r'.entries.size=r.entries.size) (hk : ∀ k,k ∈ r'.entries ↔ k ∈ r.entries) :
    r'.hasRoom n=r.hasRoom n := by
  induction n generalizing r r' with
  | zero => rfl
  | succ n ih =>
    rw [hasRoom,hasRoom,hs]
    congr 1
    refine ih ?_ ?_ ?_
    · show r'.allocator.next.2=_
      rw [ha]
    · show (r'.entries.insertIfNew _ _).size=(r.entries.insertIfNew _ _).size
      rw [Std.ExtTreeMap.size_insertIfNew,Std.ExtTreeMap.size_insertIfNew,ha,hs]
      simp only [hk]
    · intro k
      show k ∈ r'.entries.insertIfNew _ _ ↔ k ∈ r.entries.insertIfNew _ _
      simp only [Std.ExtTreeMap.mem_insertIfNew,ha,hk]

/-- Registering an artifact uses up the room for one. -/
theorem registerArtifact_room (r : ArtifactRegistry) (artifact : IntermediateArtifact) (n : Nat) :
    (∃ e,r.registerArtifact artifact=.error e ∧ r.hasRoom (n+1)=false) ∨
    ∃ reference r',r.registerArtifact artifact=.ok (reference,r') ∧
      r.hasRoom (n+1)=r'.hasRoom n := by
  unfold registerArtifact
  by_cases hf : kMaxArtifacts ≤ r.entries.size
  · refine .inl ⟨_,if_pos hf,?_⟩
    simp [hasRoom,Nat.not_lt.2 hf]
  · refine .inr ⟨_,_,if_neg hf,?_⟩
    rw [hasRoom,decide_eq_true (Nat.not_le.1 hf),Bool.true_and]
    refine hasRoom_congr rfl ?_ fun k => ?_
    · show (r.entries.insertIfNew _ _).size=(r.entries.insertIfNew _ _).size
      rw [Std.ExtTreeMap.size_insertIfNew,Std.ExtTreeMap.size_insertIfNew]
      rfl
    · show k ∈ r.entries.insertIfNew _ _ ↔ k ∈ r.entries.insertIfNew _ _
      simp only [Std.ExtTreeMap.mem_insertIfNew]
      exact Iff.rfl

end ArtifactRegistry

/-- A toolchain is refreshed when it is registered. -/
theorem ToolchainRegistry.refresh_toBool (r : ToolchainRegistry) (observed : ToolchainIdentity) :
    (r.refresh observed).toBool=(r.find observed.id).isSome := by
  unfold refresh find
  cases r.entries[observed.id.value]? with
  | none => rfl
  | some entry =>
    dsimp only
    split <;> rfl

/-- The record is under way as the attempt of the reservation. -/
structure PhaseRecord.Attempted (r : Reservation) (p : PhaseRecord) : Prop where
  id : p.id=r.phase
  generation : p.generation=r.phaseGeneration
  invocation : p.activeInvocation=r.invocation
  attempt : r.attempt ∈ p.attempts.map (·.id)

/-- The step takes a record from one state to another and keeps its attempt. -/
structure PhaseRecord.Passes (a b : PhaseState) (f : PhaseRecord → PhaseRecord) : Prop where
  stays : ∀ p,PhaseRecord.Stays p (f p)
  invocation : ∀ p,(f p).activeInvocation=p.activeInvocation
  state : ∀ p,p.state=a → (f p).state=b

namespace PhaseRecord

variable {r : Reservation} {p : PhaseRecord} {a b : PhaseState} {f : PhaseRecord → PhaseRecord}

theorem Attempted.passes (h : p.Attempted r) (hf : Passes a b f) : (f p).Attempted r := by
  have hb := (hf.stays p).binding
  refine ⟨?_,?_,(hf.invocation p).trans h.invocation,?_⟩
  · exact (congrArg (·.1) hb).trans h.id
  · exact (hf.stays p).generation.trans h.generation
  · rw [(hf.stays p).attempts]
    exact h.attempt

theorem Passes.note (hf : ∀ p,(f p).outline=p.outline)
    (hi : ∀ p,(f p).activeInvocation=p.activeInvocation) : Passes a a f :=
  ⟨fun p => (Moves.note (hf p)).toStays,hi,fun p hp => (congrArg (·.1) (hf p)).trans hp⟩

theorem recordTransition_invocation (p : PhaseRecord) (next : PhaseState) (reason : Bytes)
    (now : UInt64) :
    (p.recordTransition next reason now).activeInvocation=p.activeInvocation := by
  have ⟨_,_,he,_⟩ := p.recordTransition_frame next reason now
  rw [he]

theorem Passes.record {next : PhaseState} (reason : Bytes) (now : UInt64)
    (hn : next ∉ [.committed,.preparing]) (hr : reach a next=b) :
    Passes a b (·.recordTransition next reason now) := by
  refine ⟨fun p => (Quiet.record hn (Std.Refl.refl p)).toStays,fun p => ?_,fun p hp => ?_⟩
  · exact p.recordTransition_invocation next reason now
  · rw [recordTransition_state,hp,hr]

theorem Passes.comp {c : PhaseState} {g : PhaseRecord → PhaseRecord} (hf : Passes a b f)
    (hg : Passes b c g) : Passes a c fun p => g (f p) :=
  ⟨fun p => IsTrans.trans _ _ _ (hf.stays p) (hg.stays (f p)),
    fun p => (hg.invocation (f p)).trans (hf.invocation p),
    fun p hp => hg.state (f p) (hf.state p hp)⟩

theorem Passes.attempt {id : AttemptId} {g : PhaseAttempt → PhaseAttempt} (hf : Passes a b f)
    (hg : ∀ x,(g x).id=x.id) : Passes a b fun p => (f p).modifyAttempt id g :=
  hf.comp ⟨fun p => (p.modifyAttempt_quiet id hg).toStays,fun _ => rfl,fun _ hp => hp⟩

theorem Passes.last {g : PhaseAttempt → PhaseAttempt} (hf : Passes a b f)
    (hg : ∀ x,(g x).id=x.id) : Passes a b fun p => (f p).modifyLastAttempt g :=
  hf.comp ⟨fun p => (p.modifyLastAttempt_quiet hg).toStays,fun _ => rfl,fun _ hp => hp⟩

theorem Passes.recorded {next : PhaseState} {reason : Bytes} {now : UInt64} (hf : Passes a a f)
    (hn : next ∉ [.committed,.preparing]) (hr : reach a next=b) :
    Passes a b fun p => (f p).recordTransition next reason now :=
  hf.comp (.record reason now hn hr)

theorem executionFailed_passes (report : ExecutionReport) (now : UInt64)
    (hr : reach a .failed=.failed) : Passes a .failed (·.executionFailed r report now) := by
  refine .recorded ?_ (by decide) hr
  exact .attempt (.note (fun _ => rfl) fun _ => rfl) fun _ => rfl

theorem produced_passes (now : UInt64) : Passes .running .produced (·.produced r now) := by
  refine .attempt ?_ fun _ => rfl
  exact .record _ now (by decide) rfl

theorem validationFailed_passes (evidence : ValidationEvidence) (now : UInt64) :
    Passes .validating .failed (Runtime.validationFailed evidence now) := by
  refine .recorded ?_ (by decide) rfl
  exact .last (.note (fun _ => rfl) fun _ => rfl) fun _ => rfl

theorem commitRefused_passes (verdict : AuthorityVerdict) (detail : Bytes) (now : UInt64) :
    Passes .commitReady .fenced (·.commitRefused verdict detail now) := by
  refine .recorded ?_ (by decide) rfl
  exact .last (.note (fun _ => rfl) fun _ => rfl) fun _ => rfl

theorem committed_state {p : PhaseRecord} (hp : p.state=.commitReady) (commit : CommitId)
    (now : UInt64) : (p.committed commit now).state=.committed := by
  show (recordTransition _ .committed _ now).state=.committed
  rw [recordTransition_state]
  show reach p.state .committed=.committed
  rw [hp]
  rfl

end PhaseRecord

namespace Runtime

/-- The phase of the reservation is in the state, as the attempt of the reservation. -/
def Underway (rt : Runtime) (r : Reservation) (s : PhaseState) : Prop :=
  ∃ p,rt.phase r.session r.phase=some p ∧ p.Attempted r ∧ p.state=s

/-- No attempt of the phase is under way. -/
def Stopped (rt : Runtime) (sid : CompilerSessionId) (pid : CompilerPhaseId) : Prop :=
  ∃ p,rt.phase sid pid=some p ∧ p.state.inFlight=false

variable {rt t : Runtime} {w : World} {r : Reservation} {sid : CompilerSessionId}
  {pid : CompilerPhaseId} {a b : PhaseState} {f : PhaseRecord → PhaseRecord}
  {g : CompilerSession → CompilerSession}

theorem phase_write (ht : t.sessions=rt.sessions.modify sid.value g)
    (hg : ∀ s,(g s).phases=(s.modifyPhase pid f).phases) :
    t.phase sid pid=(rt.phase sid pid).map f := by
  rw [phase_modifySession ht,if_pos rfl,Runtime.phase]
  cases rt.find sid with
  | none => rfl
  | some s =>
    show (g s).findPhase pid=_
    rw [CompilerSession.findPhase,hg]
    exact (s.findPhase_modifyPhase pid pid f).trans (if_pos rfl)

theorem Underway.same (h : rt.Underway r a) (ht : t.sessions=rt.sessions) : t.Underway r a := by
  have ⟨p,hp,hr⟩ := h
  exact ⟨p,by rw [Runtime.phase,find_of_sessions ht]; exact hp,hr⟩

theorem Underway.write (h : rt.Underway r a) (ht : t.sessions=rt.sessions.modify r.session.value g)
    (hg : ∀ s,(g s).phases=(s.modifyPhase r.phase f).phases) (hf : PhaseRecord.Passes a b f) :
    t.Underway r b := by
  have ⟨p,hp,hr,hs⟩ := h
  refine ⟨f p,?_,hr.passes hf,hf.state p hs⟩
  rw [phase_write ht hg,hp]
  rfl

/-- A write to another part of the session. -/
theorem Underway.beside (h : rt.Underway r a)
    (ht : t.sessions=rt.sessions.modify r.session.value g) (hg : ∀ s,(g s).phases=s.phases) :
    t.Underway r a := by
  have ⟨p,hp,hr⟩ := h
  refine ⟨p,?_,hr⟩
  rw [phase_modifySession ht,if_pos rfl,← hp,Runtime.phase]
  cases rt.find r.session with
  | none => rfl
  | some s =>
    show (g s).findPhase r.phase=s.findPhase r.phase
    rw [CompilerSession.findPhase,hg]
    rfl

theorem Stopped.same (h : rt.Stopped sid pid) (ht : t.sessions=rt.sessions) :
    t.Stopped sid pid := by
  have ⟨p,hp,hs⟩ := h
  exact ⟨p,by rw [Runtime.phase,find_of_sessions ht]; exact hp,hs⟩

/-- The attempt is found where its phase is. -/
theorem Underway.found (h : rt.Underway r a) : ∃ session phase,rt.find r.session=some session ∧
    session.findPhase r.phase=some phase ∧ phase.Attempted r ∧ phase.state=a := by
  have ⟨p,hp,hr,hs⟩ := h
  have ⟨session,hsession,hp⟩ := Option.bind_eq_some_iff.1 hp
  exact ⟨session,p,hsession,hp,hr,hs⟩

/-- A reservation that is granted starts the attempt. -/
theorem reserve_underway {isRetry : Bool} (hk : ∀ p,rt.phase sid pid=some p → p.id=pid)
    (h : reserve w sid pid isRetry rt=(.ok r,t)) :
    r.session=sid ∧ r.phase=pid ∧ t.Underway r .preparing := by
  rcases reserve_spec w sid pid h with ⟨_,e,he,_⟩ | ⟨s,p,inputs,r',hres,hr⟩
  · cases he
  have hr : r=r' := by
    rcases hr with hr | ⟨⟨_,hr⟩,_⟩
    · exact Except.ok.inj hr
    · cases hr
  subst hr
  have ha := (admission_iff sid pid).1 hres.admitted
  refine ⟨hres.session,hres.phase,p.reserved s r inputs isRetry w.now,?_,⟨?_,?_,?_,?_⟩,
    reserved_preparing r ha.startable s inputs w.now⟩
  · rw [hres.session,hres.phase]
    exact hres.record
  · have hid : p.id=pid := hk p (Option.bind_eq_some_iff.2 ⟨s,ha.session,ha.phase⟩)
    have ⟨_,_,he⟩ := reserved_frame r p s inputs isRetry w.now
    rw [he,hres.phase]
    exact hid
  · exact reserved_generation p s inputs isRetry w.now
  · have ⟨_,_,he⟩ := reserved_frame r p s inputs isRetry w.now
    rw [he]
    rfl
  · have ⟨_,_,he⟩ := reserved_frame r p s inputs isRetry w.now
    rw [he]
    simp [PhaseRecord.bound]

/-- The attempt is left in flight. -/
def Stranded (rt : Runtime) (r : Reservation) : Prop :=
  ∃ a : PhaseState,a.inFlight ∧ rt.Underway r a

section Triples

variable {n : Nat} {E : Runtime → Prop}

/-- The attempt is in the state, and at least `n` persists were refused. -/
structure Reaches (r : Reservation) (n : Nat) (a : PhaseState) (rt : Runtime) : Prop where
  underway : rt.Underway r a
  failures : n ≤ rt.persistFailures

theorem Reaches.same (h : rt.Reaches r n a) (hs : t.sessions=rt.sessions)
    (hf : rt.persistFailures ≤ t.persistFailures) : t.Reaches r n a :=
  ⟨h.underway.same hs,Nat.le_trans h.failures hf⟩

theorem Reaches.write (h : rt.Reaches r n a)
    (hg : ∀ s,(g s).phases=(s.modifyPhase r.phase f).phases) (hf : PhaseRecord.Passes a b f) :
    (rt.modifySession r.session g).Reaches r n b :=
  ⟨h.underway.write rfl hg hf,h.failures⟩

theorem persistSession_triple : Triple (Reaches r n a) (persistSession w sid)
    (fun _ t => t.Underway r a) (fun t => n<t.persistFailures) := by
  intro rt h
  have hs := persistSession_aside w sid rt
  constructor
  · intro _ t ht
    rw [ht] at hs
    exact h.underway.same hs.sessions
  · intro e t ht
    exact Nat.lt_of_le_of_lt h.failures (persistSession_refused w sid ht)

theorem prepare_triple : Triple (Reaches r n .preparing) (prepare w r)
    (fun _ t => t.Underway r .running)
    (fun t => ∃ a ∈ [PhaseState.preparing,.running],t.Underway r a) := by
  have stay (rt : Runtime) (h : rt.Reaches r n .preparing) :
      ∃ a ∈ [PhaseState.preparing,.running],rt.Underway r a := ⟨_,by simp,h.underway⟩
  have checked {α : Type} (x : Result α) : Triple (Reaches r n .preparing) (ofExcept x : Op α)
      (fun _ => Reaches r n .preparing)
      (fun t => ∃ a ∈ [PhaseState.preparing,.running],t.Underway r a) :=
    .ofExcept (fun _ _ _ h => h) fun _ rt _ h => stay rt h
  unfold prepare
  refine Triple.bind (Q := fun _ => Reaches r n .preparing) (.get fun _ h => h) fun rt => ?_
  refine (checked _).bind fun session => (checked _).bind fun phase => ?_
  refine Triple.bind (checked _) fun _ => Triple.bind (checked _) fun _ => (checked _).bind fun _ => ?_
  split
  · exact .fail stay
  · refine Triple.bind (.modify fun rt h => h.write (fun _ => rfl) (.note (fun _ => rfl) fun _ => rfl))
      fun _ => .fail stay
  · refine Triple.bind (Q := fun _ => Reaches r n .running) (.modify fun rt h =>
      h.write (fun _ => rfl) (.record _ _ (by decide) (by decide))) fun _ => ?_
    intro rt h
    have hs := persistSession_aside w r.session rt
    constructor
    · exact (persistSession_triple rt h).1
    · intro e t ht
      rw [ht] at hs
      exact ⟨_,by simp,h.underway.same hs.sessions⟩

theorem noteProcess_underway (report : ExecutionReport) (h : rt.Underway r a) :
    (noteProcess r report rt).2.Underway r a := by
  unfold noteProcess
  split
  · exact h.write rfl (fun _ => rfl) (.note (fun _ => rfl) fun _ => rfl)
  · exact h

/-- The attempt, before so many of its outputs are registered. -/
structure Recording (r : Reservation) (n : Nat) (a : PhaseState) (k : Bool) (m : Nat)
    (rt : Runtime) : Prop extends Reaches r n a rt where
  artifacts : rt.artifacts.hasRoom m=k

theorem Recording.write {k : Bool} {m : Nat} (h : rt.Recording r n a k m)
    (hg : ∀ s,(g s).phases=(s.modifyPhase r.phase f).phases) (hf : PhaseRecord.Passes a b f) :
    (rt.modifySession r.session g).Recording r n b k m :=
  ⟨h.toReaches.write hg hf,h.artifacts⟩

theorem Recording.same {k : Bool} {m : Nat} (h : rt.Recording r n a k m)
    (hs : t.sessions=rt.sessions) (hf : t.persistFailures=rt.persistFailures)
    (ha : t.artifacts=rt.artifacts) : t.Recording r n a k m :=
  ⟨h.toReaches.same hs (Nat.le_of_eq hf.symm),ha ▸ h.artifacts⟩

theorem recordable_of_underway (h : rt.Underway r a) : ∃ x,rt.recordable r=.ok x := by
  have ⟨session,phase,hs,hp,hr,_⟩ := h.found
  refine ⟨(session,phase),?_⟩
  simp only [recordable,do_eq_ok,requireSession_ok,requirePhase_ok,ensure_ok]
  refine ⟨session,hs,phase,hp,(),hr.generation,(),hr.invocation,(),?_,rfl⟩
  have ⟨x,hx,he⟩ := List.mem_map.1 hr.attempt
  rw [PhaseRecord.findAttempt,List.find?_isSome]
  exact ⟨x,hx,by simpa using he⟩

theorem registerOutput_triple (session : CompilerSession) (phase : PhaseRecord) {k : Bool}
    (output : OutputDescriptor) (rest : List OutputDescriptor) :
    Triple (Recording r n .produced k (output::rest).length) (registerOutput r session phase output)
      (fun _ => Recording r n .produced k rest.length) (fun t => k=false ∧ t.Underway r .produced) := by
  unfold registerOutput
  refine Triple.bind (Q := fun _ => Recording r n .produced k rest.length) ?_ fun reference => ?_
  · intro rt h
    rcases rt.artifacts.registerArtifact_room
      (candidateArtifact session phase r.invocation output) rest.length with
      ⟨e,he,hroom⟩ | ⟨reference,artifacts,ho,hroom⟩
    · have hx : registerArtifact (candidateArtifact session phase r.invocation output) rt=
          (.error e,rt) := by rw [registerArtifact,he]
      constructor
      · intro x t ht
        rw [hx] at ht
        cases ht
      · intro e' t ht
        rw [hx] at ht
        cases ht
        exact ⟨h.artifacts.symm.trans hroom,h.underway⟩
    · have hx : registerArtifact (candidateArtifact session phase r.invocation output) rt=
          (.ok reference,{ rt with artifacts }) := by rw [registerArtifact,ho]
      constructor
      · intro x t ht
        rw [hx] at ht
        cases ht
        exact ⟨h.toReaches.same rfl (Nat.le_refl _),hroom.symm.trans h.artifacts⟩
      · intro e t ht
        rw [hx] at ht
        cases ht
  · refine Triple.bind (Q := fun _ => Recording r n .produced k rest.length) (.modify fun rt h =>
      h.write (fun _ => rfl) (.note (fun _ => rfl) fun _ => rfl)) fun _ => ?_
    exact .modify fun rt h => h.same rfl rfl rfl

/-- A completion settles the attempt or passes it on to the validation, unless the store of
diagnostics or the registry of artifacts is full or the journal refuses it. -/
theorem recordExecution_triple (report : ExecutionReport) {d k : Bool}
    (ha : a=.running ∨ a=.preparing ∧ report.completed=false) :
    Triple (fun t => t.diagnostics.hasRoom=d ∧ Recording r n a k report.outputs.length t)
      (recordExecution w r report)
      (fun _ t => d=true ∧ (report.completed=true → k=true ∧ t.Underway r .validating) ∧
        (report.completed=false → t.Underway r .failed))
      (fun t => n<t.persistFailures ∨
        (d=false ∨ report.completed=true ∧ k=false) ∧ t.Stranded r) := by
  have hflight : a.inFlight := by rcases ha with rfl | ⟨rfl,_⟩ <;> rfl
  unfold recordExecution
  refine Triple.bind (Q := fun rt t => rt=t ∧ t.diagnostics.hasRoom=d ∧
    Recording r n a k report.outputs.length t) (.get fun _ h => ⟨rfl,h⟩) fun rt => ?_
  refine Triple.bind (Q := fun _ t => t.diagnostics.hasRoom=d ∧
    Recording r n a k report.outputs.length t) ?_ ?_
  · refine .ofExcept (fun _ _ _ h => h.2) ?_
    rintro e _ he ⟨rfl,_,h⟩
    have ⟨x,hx⟩ := recordable_of_underway h.underway
    rw [he] at hx
    cases hx
  rintro ⟨session,phase⟩
  refine Triple.bind (Q := fun _ t => t.diagnostics.hasRoom=d ∧
    Recording r n a k report.outputs.length t) (.modify fun rt h =>
      ⟨h.1,h.2.write (fun _ => rfl)
        (.attempt (.note (fun _ => rfl) fun _ => rfl) fun _ => rfl)⟩) fun _ => ?_
  refine Triple.bind (Q := fun _ t => d=true ∧ Recording r n a k report.outputs.length t) ?_
    fun stored => ?_
  · rintro rt' ⟨hd,h⟩
    unfold addDiagnostics DiagnosticStore.add
    by_cases hf : DiagnosticStore.kMaxSets ≤ rt'.diagnostics.entries.size
    · rw [DiagnosticStore.hasRoom,decide_eq_false (Nat.not_lt.2 hf)] at hd
      rw [if_pos hf]
      constructor
      · intro x t ht
        cases ht
      · intro e t ht
        cases ht
        exact .inr ⟨.inl hd.symm,a,hflight,h.underway⟩
    · rw [DiagnosticStore.hasRoom,decide_eq_true (Nat.not_le.1 hf)] at hd
      rw [if_neg hf]
      constructor
      · intro x t ht
        cases ht
        exact ⟨hd.symm,h.same rfl rfl rfl⟩
      · intro e t ht
        cases ht
  refine Triple.of_pre (fun _ h => h.1) fun hd => ?_
  subst hd
  refine Triple.bind (Q := fun _ => Recording r n a k report.outputs.length) (.modify fun rt h =>
    h.2.write (fun _ => rfl) (.note (fun _ => rfl) fun _ => rfl)) fun _ => ?_
  refine Triple.bind (Q := fun _ => Recording r n a k report.outputs.length) (.modify fun rt h =>
    h.same rfl rfl rfl) fun _ => ?_
  have hcompleted : report.completed=decide (report.executed ∧ report.process.exitedZero) := by
    simp [ExecutionReport.completed]
  split
  · next hc =>
    rw [decide_eq_true hc] at hcompleted
    have ha : a=.running := by
      rcases ha with ha | ⟨_,hn⟩
      · exact ha
      · rw [hcompleted] at hn
        cases hn
    subst ha
    -- the room left is what the outputs not yet registered need
    refine Triple.bind (Q := fun _ => Recording r n .produced k report.outputs.length)
      (.modify fun rt h => h.write (fun _ => rfl) (PhaseRecord.produced_passes w.now)) fun _ => ?_
    refine Triple.bind (Q := fun _ t => k=true ∧ Reaches r n .produced t) ?_ fun _ => ?_
    · have h := Triple.forEach (I := fun (outputs : List OutputDescriptor) =>
          Recording r n .produced k outputs.length) (E := fun t => k=false ∧ t.Underway r .produced)
          (registerOutput_triple session phase) report.outputs
      refine h.mono (fun _ h => h) (fun _ t h => ⟨h.artifacts.symm,h.toReaches⟩) fun t h => ?_
      exact .inr ⟨.inr ⟨hcompleted,h.1⟩,_,rfl,h.2⟩
    refine Triple.of_pre (fun _ h => h.1) fun hk => ?_
    refine Triple.bind (Q := fun _ => Reaches r n .produced) (.modify fun rt h =>
      h.2.write (fun _ => rfl) (.note (fun _ => rfl) fun _ => rfl)) fun _ => ?_
    refine Triple.bind (Q := fun _ => Reaches r n .validating) (.modify fun rt h =>
      h.write (fun _ => rfl) (.record _ _ (by decide) (by decide))) fun _ => ?_
    refine persistSession_triple.mono (fun _ h => h) ?_ fun t h => .inl h
    intro _ t h
    refine ⟨rfl,fun _ => ⟨hk,h⟩,fun hn => ?_⟩
    rw [hcompleted] at hn
    cases hn
  · next hc =>
    rw [decide_eq_false hc] at hcompleted
    refine Triple.bind (Q := fun _ => Reaches r n .failed) (.modify fun rt h => ?_) fun _ => ?_
    · refine h.toReaches.write (fun _ => rfl) (PhaseRecord.executionFailed_passes report w.now ?_)
      rcases ha with rfl | ⟨rfl,_⟩ <;> decide
    refine persistSession_triple.mono (fun _ h => h) ?_ fun t h => .inl h
    intro _ t h
    refine ⟨rfl,fun hn => ?_,fun _ => h⟩
    rw [hcompleted] at hn
    cases hn

theorem refuseDivergent_triple (e : Status) : Triple (Reaches r n .validating)
    (refuseDivergent w r e) (fun _ t => t.Stopped r.session r.phase)
    (fun t => n<t.persistFailures) := by
  unfold refuseDivergent
  refine Triple.bind (Q := fun rt t => rt=t ∧ Reaches r n .validating t) (.get fun _ h => ⟨rfl,h⟩)
    fun rt => ?_
  refine Triple.of_pre (p := rt.Reaches r n .validating) (fun _ h => h.1 ▸ h.2) fun hrt => ?_
  have ⟨session,phase,hs,hp,_⟩ := hrt.underway.found
  rw [hs,Option.bind_some,hp]
  refine Triple.bind (Q := fun _ => Reaches r n .failed) (.modify fun rt h => h.2.write (fun _ => rfl)
    (.recorded (.note (fun _ => rfl) fun _ => rfl) (by decide) rfl)) fun _ => ?_
  refine Triple.bind (Q := fun _ => Reaches r n .failed) (.modify fun rt h =>
    h.same rfl (Nat.le_refl _)) fun _ => ?_
  refine Triple.bind (Q := fun _ => Reaches r n .failed) (.modify fun rt h =>
    ⟨h.underway.beside rfl fun _ => rfl,h.failures⟩) fun _ => ?_
  refine persistSession_triple.mono (fun _ h => h) ?_ fun _ h => h
  intro _ t ⟨p,hp,_,hs⟩
  exact ⟨p,hp,by rw [hs]; rfl⟩

/-- Evidence settles the attempt or passes it on to the commit. -/
theorem applyEvidence_triple (evidence : ValidationEvidence) : Triple (Reaches r n .validating)
    (applyEvidence w r evidence)
    (fun _ t => if evidence.accepted then t.Underway r .commitReady else t.Underway r .failed)
    (fun t => n<t.persistFailures) := by
  unfold applyEvidence
  refine Triple.bind (Q := fun rt t => rt=t ∧ Reaches r n .validating t) (.get fun _ h => ⟨rfl,h⟩)
    fun rt => ?_
  refine Triple.of_pre (p := rt.Reaches r n .validating) (fun _ h => h.1 ▸ h.2) fun hrt => ?_
  have ⟨session,phase,hs,hp,_⟩ := hrt.underway.found
  refine Triple.bind_eq (S := Reaches r n .validating) ((Triple.passed
    ((requireSession_ok r.session).2 hs)).mono (fun _ h => h.2) (fun _ _ h => h) fun _ h => h) ?_
  refine Triple.bind_eq (Triple.passed ((requirePhase_ok r.phase).2 hp)) ?_
  refine Triple.bind (Q := fun _ => Reaches r n .validating) ?_ fun _ => ?_
  · refine Triple.forEach (I := fun _ => Reaches r n .validating) (fun reference _ => ?_) _
    exact .modify fun _ h => h.same rfl (Nat.le_refl _)
  split
  · next ha =>
    refine Triple.bind (Q := fun _ => Reaches r n .validating) (.modify fun _ h =>
      h.same rfl (Nat.le_refl _)) fun _ => ?_
    refine Triple.bind (Q := fun _ => Reaches r n .commitReady) (.modify fun _ h =>
      h.write (fun _ => rfl) (.record _ _ (by decide) rfl)) fun _ => ?_
    refine persistSession_triple.mono (fun _ h => h) (fun _ t h => ?_) fun _ h => h
    exact h
  · next ha =>
    refine Triple.bind (Q := fun _ => Reaches r n .failed) (.modify fun _ h =>
      h.write (fun _ => rfl) (PhaseRecord.validationFailed_passes evidence w.now)) fun _ => ?_
    refine persistSession_triple.mono (fun _ h => h) (fun _ t h => ?_) fun _ h => h
    exact h

/-- What a commit has read of the session, and what it will find. -/
structure Committing (r : Reservation) (n : Nat) (session : CompilerSession) (phase : PhaseRecord)
    (rt : Runtime) : Prop extends Reaches r n .commitReady rt where
  found : rt.find r.session=some session
  phase : session.findPhase r.phase=some phase

theorem Committing.record {session : CompilerSession} {phase : PhaseRecord}
    (h : rt.Committing r n session phase) : phase.Attempted r ∧ phase.state=.commitReady := by
  have ⟨p,hp,hr⟩ := h.underway
  rw [Runtime.phase,h.found,Option.bind_some,h.phase] at hp
  cases hp
  exact hr

theorem Committing.same {session : CompilerSession} {phase : PhaseRecord}
    (h : rt.Committing r n session phase) (hs : t.sessions=rt.sessions)
    (hf : rt.persistFailures ≤ t.persistFailures) : t.Committing r n session phase :=
  ⟨h.toReaches.same hs hf,(find_of_sessions hs _).trans h.found,h.phase⟩

theorem refuseCommit_triple {session : CompilerSession} (phase : PhaseRecord)
    (verdict : AuthorityVerdict) : Triple (Committing r n session phase)
    (refuseCommit w r phase verdict) (fun _ t => t.Underway r .fenced)
    (fun t => n<t.persistFailures) := by
  unfold refuseCommit
  refine Triple.bind (Q := fun _ => Reaches r n .commitReady) (.modify fun _ h =>
    h.toReaches.same rfl (Nat.le_refl _)) fun _ => ?_
  refine Triple.bind (Q := fun _ => Reaches r n .fenced) (.modify fun _ h =>
    h.write (fun _ => rfl) (PhaseRecord.commitRefused_passes verdict _ w.now)) fun _ => ?_
  refine Triple.bind (Q := fun _ => Reaches r n .fenced) (.modify fun _ h =>
    h.same rfl (Nat.le_refl _)) fun _ => ?_
  refine Triple.bind (Q := fun _ => Reaches r n .fenced) (.modify fun _ h =>
    h.same rfl (Nat.le_refl _)) fun _ => ?_
  refine Triple.bind (Q := fun _ => Reaches r n .fenced) (.modify fun _ h =>
    ⟨h.underway.beside rfl fun _ => rfl,h.failures⟩) fun _ => ?_
  refine Triple.bind (Q := fun rt t => rt=t ∧ Reaches r n .fenced t) (.get fun _ h => ⟨rfl,h⟩)
    fun rt => ?_
  refine Triple.of_pre (p := rt.Reaches r n .fenced) (fun _ h => h.1 ▸ h.2) fun hrt => ?_
  have ⟨session,_,hs,_⟩ := hrt.underway.found
  refine Triple.bind_eq (S := Reaches r n .fenced) ((Triple.passed
    ((requireSession_ok r.session).2 hs)).mono (fun _ h => h.2) (fun _ _ h => h) fun _ h => h) ?_
  refine Triple.bind (Q := fun _ => Reaches r n .fenced) ?_ fun _ => ?_
  · intro rt h
    constructor
    · intro x t ht
      cases ht
      exact h.same rfl (Nat.le_refl _)
    · intro e t ht
      cases ht
  exact persistSession_triple.bind fun _ => .pure fun _ h => h

/-- The re-probe passes, settles the attempt, or shows a toolchain that is not registered. -/
theorem reprobe_triple (session : CompilerSession) (phase : PhaseRecord) (c : Bool) :
    Triple (fun t => t.unknownToolchain w session=c ∧ Committing r n session phase t)
      (reprobe w r session phase) (fun _ t => c=false ∧ Committing r n session phase t)
      (fun t => n<t.persistFailures ∨ if c then t.Underway r .commitReady
        else t.Underway r .fenced) := by
  unfold reprobe
  refine Triple.bind (Q := fun rt t => rt=t ∧ t.unknownToolchain w session=c ∧
    Committing r n session phase t) (.get fun _ h => ⟨rfl,h⟩) fun rt => ?_
  refine Triple.of_pre (fun _ h => (h.1 ▸ h.2.1 : rt.unknownToolchain w session=c)) fun hc => ?_
  refine Triple.mono (P := Committing r n session phase) ?_ (fun _ h => h.2.2) (fun _ _ h => h)
    fun _ h => h
  unfold unknownToolchain at hc
  split
  · next hprobes =>
    rw [hprobes.1,hprobes.2,Bool.true_and,Bool.true_and] at hc
    split
    · next e hw =>
      rw [hw] at hc
      have hc : c=false := hc.symm
      subst hc
      refine Triple.bind (Q := fun _ => Reaches r n .commitReady) (.modify fun _ h =>
        h.toReaches.same rfl (Nat.le_refl _)) fun _ => ?_
      refine Triple.bind (Q := fun _ => Reaches r n .fenced) (.modify fun _ h => h.write
        (fun _ => rfl) (.recorded (.note (fun _ => rfl) fun _ => rfl) (by decide) rfl)) fun _ => ?_
      refine Triple.bind (Q := fun _ => Reaches r n .fenced) (.modify fun _ h =>
        h.same rfl (Nat.le_refl _)) fun _ => ?_
      refine Triple.bind (Q := fun _ => Reaches r n .fenced) (.modify fun _ h =>
        ⟨h.underway.beside rfl fun _ => rfl,h.failures⟩) fun _ => ?_
      refine (persistSession_triple.mono (fun _ h => h) (fun _ _ h => h) fun _ h => .inl h).bind
        fun _ => .fail fun _ h => .inr h
    · next observed hw =>
      have hr := rt.toolchains.refresh_toBool observed
      rw [hw] at hc
      dsimp only at hc
      cases ho : rt.toolchains.refresh observed with
      | error e =>
        rw [ho] at hr
        have hfind : rt.toolchains.find observed.id=none := by
          rw [← Option.not_isSome_iff_eq_none,← hr]
          exact Bool.false_ne_true
        rw [hfind] at hc
        have hc : c=true := hc.symm
        subst hc
        exact Triple.bind (Q := fun _ _ => False) (.ofExcept (fun _ _ hx => nomatch hx)
          fun _ _ _ h => .inr h.underway) fun _ _ h => h.elim
      | ok x =>
        rw [ho] at hr
        have ⟨found,hfind⟩ := Option.isSome_iff_exists.1 hr.symm
        rw [hfind] at hc
        have hc : c=false := hc.symm
        subst hc
        refine Triple.bind_eq (Triple.passed rfl) ?_
        refine Triple.bind (Q := fun _ => Committing r n session phase) (.modify fun _ h =>
          h.same rfl (Nat.le_refl _)) fun _ => ?_
        split
        · refine Triple.bind (Q := fun _ => Committing r n session phase) ?_ fun _ =>
            .pure fun _ h => ⟨rfl,h⟩
          intro t h
          constructor
          · intro x u hu
            cases hu
            exact h.same rfl (Nat.le_refl _)
          · intro e u hu
            cases hu
        · exact .pure fun _ h => ⟨rfl,h⟩
  · next hprobes =>
    have hc : c=false := by
      rw [← hc]
      by_cases ha : (rt.findAdapterByName session.adapterName).isSome
      · rw [ha,Bool.true_and]
        by_cases ht : (rt.toolchains.find session.toolchain.id).isSome
        · exact absurd ⟨ha,ht⟩ hprobes
        · rw [Bool.eq_false_of_not_eq_true ht,Bool.false_and]
      · rw [Bool.eq_false_of_not_eq_true ha,Bool.false_and,Bool.false_and]
    exact .pure fun _ h => ⟨hc,h⟩

theorem release_total (phase : PhaseRecord) (provenance : ProvenanceId) :
    Total (release phase provenance) :=
  Total.get.bind fun _ => (Total.forEach (fun _ => .modify _) _).bind fun _ =>
    (Total.modify _).bind fun _ => .modify _

/-- A published commit settles the attempt, unless the journal refuses it. -/
theorem publish_triple (report : ExecutionReport) (session : CompilerSession)
    (phase : PhaseRecord) : Triple (Committing r n session phase)
    (publish w r report session phase) (fun _ t => t.Stopped r.session r.phase)
    (fun t => n<t.persistFailures) := by
  unfold publish
  refine Triple.bind (Q := fun x t => (∃ commit candidate,
    x.2.1=(session.committedPhase phase.id commit w.now).withCandidate candidate) ∧
    Committing r n session phase t) ?_ ?_
  · intro rt h
    have hs := stage_aside w r session phase rt
    constructor
    · intro x t ht
      rw [ht] at hs
      obtain ⟨commit,candidate,_,he⟩ := stage_ok w r ht
      exact ⟨⟨commit,candidate,he⟩,h.same hs.sessions hs.failures⟩
    · intro e t ht
      obtain ⟨_,_,hx⟩ := stage_total w r session phase rt
      rw [ht] at hx
      cases hx
  rintro ⟨provenance,committed,concluded⟩
  refine Triple.of_pre (fun _ h => h.1) fun ⟨commit,candidate,he⟩ => ?_
  have he : committed=(session.committedPhase phase.id commit w.now).withCandidate candidate := he
  refine Triple.bind (Q := fun _ => Committing r n session phase) ?_ fun _ => ?_
  · intro rt h
    have hs := persist_aside w committed rt
    constructor
    · intro x t ht
      rw [ht] at hs
      exact h.2.same hs.sessions hs.failures
    · intro e t ht
      exact Nat.lt_of_le_of_lt h.2.failures (persist_refused w ht)
  refine Triple.bind (Q := fun _ t => t.Stopped r.session r.phase) (.modify fun rt h => ?_)
    fun _ => ?_
  · obtain ⟨hr,hs⟩ := h.record
    refine ⟨phase.committed commit w.now,?_,by rw [PhaseRecord.committed_state hs]; rfl⟩
    rw [@phase_modifySession rt (rt.modifySession r.session fun _ => committed) r.session r.session
      r.phase (fun _ => committed) rfl,if_pos rfl,h.found,he]
    show CompilerSession.findPhase _ r.phase=_
    rw [CompilerSession.findPhase,projected_phases,hr.id]
    exact (session.findPhase_modifyPhase r.phase r.phase _).trans (by rw [if_pos rfl,h.phase]; rfl)
  · have hrelease := release_aside phase provenance
    refine Triple.bind (Q := fun _ t => t.Stopped r.session r.phase) ?_ fun _ => .pure fun _ h => h
    intro rt h
    have hs := hrelease rt
    constructor
    · intro x t ht
      rw [ht] at hs
      exact h.same hs.sessions
    · intro e t ht
      obtain ⟨_,_,hx⟩ := release_total phase provenance rt
      rw [ht] at hx
      cases hx

/-- A commit settles the attempt, unless the re-probe shows a toolchain that is not registered or
the journal refuses the commit. -/
theorem commitReserved_triple (report : ExecutionReport) (c : Bool) :
    Triple (fun t => (t.find r.session).any (t.unknownToolchain w)=c ∧ Reaches r n .commitReady t)
      (commitReserved w r report) (fun _ t => c=false ∧ t.Stopped r.session r.phase)
      (fun t => n<t.persistFailures ∨ if c then t.Stranded r else t.Stopped r.session r.phase) := by
  have settled {t : Runtime} (h : t.Underway r .fenced) : t.Stopped r.session r.phase := by
    have ⟨p,hp,_,hs⟩ := h
    exact ⟨p,hp,by rw [hs]; rfl⟩
  unfold commitReserved
  refine Triple.bind (Q := fun rt t => rt=t ∧ (t.find r.session).any (t.unknownToolchain w)=c ∧
    Reaches r n .commitReady t) (.get fun _ h => ⟨rfl,h⟩) fun rt => ?_
  refine Triple.of_pre (p := (rt.find r.session).any (rt.unknownToolchain w)=c ∧
    Reaches r n .commitReady rt) (fun _ h => h.1 ▸ h.2) fun ⟨hc,hrt⟩ => ?_
  have ⟨session,phase,hs,hp,hr,hstate⟩ := hrt.underway.found
  rw [hs,Option.any_some] at hc
  have hcommittable : rt.committable r=.ok (session,phase) := by
    simp only [committable,do_eq_ok,requireSession_ok,requirePhase_ok,ensure_ok]
    exact ⟨session,hs,phase,hp,(),hr.generation,(),hr.invocation,(),hstate,rfl⟩
  refine Triple.bind_eq (S := fun t => t.unknownToolchain w session=c ∧
    Committing r n session phase t) ((Triple.passed hcommittable).mono (fun _ h => h)
      (fun _ t h => ⟨h.1,?_⟩) fun _ h => h) ?_
  · obtain ⟨rfl,_,hreach⟩ := h.2
    exact ⟨hc,hreach,hs,hp⟩
  refine Triple.bind (Q := fun _ t => c=false ∧ Committing r n session phase t) ?_ fun _ => ?_
  · refine (reprobe_triple session phase c).mono (fun _ h => h) (fun _ _ h => h) fun t h => ?_
    rcases h with h | h
    · exact .inl h
    · cases c with
      | true => exact .inr ⟨_,rfl,h⟩
      | false => exact .inr (settled h)
  refine Triple.of_pre (fun _ h => h.1) fun hc => ?_
  subst hc
  refine Triple.bind (Q := fun _ => Committing r n session phase) (.get fun _ h => h.2) fun t => ?_
  dsimp only
  split
  · refine (publish_triple report session phase).mono (fun _ h => h) (fun _ _ h => ⟨rfl,h⟩)
      fun _ h => .inl h
  · refine (refuseCommit_triple phase _).mono (fun _ h => h) (fun _ _ h => ⟨rfl,settled h⟩)
      fun _ h => .inl h

end Triples

end Runtime

end CompilerFabric
