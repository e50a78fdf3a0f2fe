import CompilerFabric.Runtime.Frame

namespace CompilerFabric

open Base Base.Action

/-- Only the session at `who` may leave its state, along `X`. -/
def changes (who : UInt64) (X : SessionState → SessionState → Prop) (i : UInt64)
    (a b : SessionState) : Prop :=
  a=b ∨ i=who ∧ X a b

instance {who i : UInt64} {X : SessionState → SessionState → Prop} [IsTrans _ X] :
    IsPreorder SessionState (changes who X i) where
  refl _ := .inl rfl
  trans := by
    intro a b c h h'
    rcases h with rfl | ⟨hi,h⟩
    · exact h'
    · rcases h' with rfl | ⟨_,h'⟩
      · exact .inr ⟨hi,h⟩
      · exact .inr ⟨hi,IsTrans.trans _ _ _ h h'⟩

/-- Into one of the states of `xs`, from anywhere. -/
def into (xs : List SessionState) (_ b : SessionState) : Prop := b ∈ xs

instance {xs : List SessionState} : IsTrans SessionState (into xs) := ⟨fun _ _ _ _ h => h⟩

/-- From one of the states of `xs` into `x`, which is not among them. -/
def leaves (xs : List SessionState) (x : SessionState) (a b : SessionState) : Prop :=
  x ∉ xs ∧ a ∈ xs ∧ b=x

instance {xs : List SessionState} {x : SessionState} : IsTrans SessionState (leaves xs x) where
  trans _ _ _ h h' := absurd (h.2.2 ▸ h'.2.1) h.1

namespace Runtime

open PhaseRecord (Allows)

variable (w : World) (r : Reservation) (sid : CompilerSessionId) (pid : CompilerPhaseId)

section Endings

variable {P : PhaseRecord → PhaseRecord → Prop} [Allows P]

theorem enter_within {P : PhaseRecord → PhaseRecord → Prop} [IsPreorder _ P]
    {X : SessionState → SessionState → Prop} [IsTrans _ X] {f : CompilerSession → CompilerSession}
    (hb : ∀ s,(f s).binding=s.binding) (hs : ∀ s,X s.state (f s).state)
    (hp : ∀ s,(f s).phases=s.phases) :
    Within (Evolves (changes sid.value X) P) (modify (·.modifySession sid f) : Op Unit) :=
  modifySession_within sid fun s => .enter (hb s) (.inr ⟨rfl,hs s⟩) (hp s)

theorem endCancelSession_within (reason : Bytes) :
    Within (Evolves (changes sid.value (into [.cancelled])) P)
      (endCancelSession w sid reason) := by
  refine Within.get.bind fun rt => (Within.ofExcept _).bind fun _ => ?_
  refine Within.bind (enter_within sid (fun _ => rfl) (fun _ => ?_) fun _ => rfl) fun _ => ?_
  · exact List.mem_singleton.2 rfl
  · exact persistSession_within w _

theorem retireSession_within (reason : Bytes) :
    Within (Evolves (changes sid.value (into [.retired])) P)
      (retireSession w sid reason) := by
  refine Within.get.bind fun rt => (Within.ofExcept _).bind fun session => ?_
  refine (Within.forEach (fun id => retirePhase_within w sid id reason) _).bind fun _ => ?_
  refine Within.bind (enter_within sid (fun _ => rfl) (fun _ => ?_) fun _ => rfl) fun _ => ?_
  · exact List.mem_singleton.2 rfl
  · exact persistSession_within w _

theorem failSession_within (detail : Bytes) :
    Within (Evolves (changes sid.value (into [.failed])) P)
      (failSession w sid detail) := by
  refine Within.bind (enter_within sid (fun _ => rfl) (fun _ => ?_) fun _ => rfl) fun _ => ?_
  · exact List.mem_singleton.2 rfl
  · exact persistSession_within w _

theorem beginRound_within :
    Within (Evolves (changes sid.value (into [.active,.failed])) P)
      (beginRound w sid) := by
  have into_failed (i : UInt64) (a b : SessionState) (h : changes sid.value (into [.failed]) i a b) :
      changes sid.value (into [.active,.failed]) i a b := by
    rcases h with h | ⟨hi,h⟩
    · exact .inl h
    · exact .inr ⟨hi,List.mem_cons_of_mem _ h⟩
  refine Within.get.bind fun rt => (Within.ofExcept _).bind fun _ => ?_
  refine Within.bind (enter_within sid (fun _ => rfl) (fun _ => ?_) fun _ => rfl) fun _ => ?_
  · exact List.mem_cons_self
  · refine Within.get.bind fun rt => (Within.ofExcept _).bind fun session => ?_
    split
    · exact .pure _
    · split
      · exact .pure _
      · exact ((failSession_within w sid _).mono fun _ _ h => h.mono into_failed fun _ _ h => h).bind
          fun _ => .pure _

/-- What `apply_recovery` may do to the state: a plan that needs an operator closes the session,
another one reopens it from RECOVERING. -/
def recoveryMoves : Bool → SessionState → SessionState → Prop
  | true => into [.recovering]
  | false => leaves [.recovering] .active

instance {operator : Bool} : IsTrans SessionState (recoveryMoves operator) := by
  cases operator
  · exact inferInstanceAs (IsTrans _ (leaves _ _))
  · exact inferInstanceAs (IsTrans _ (into _))

theorem reopened_evolves (s : CompilerSession) (operator : Bool) (now i : UInt64) :
    CompilerSession.Evolves (changes i (recoveryMoves operator) i) P s
      (s.reopened operator now) := by
  unfold CompilerSession.reopened
  split_ifs with h ho
  · have ho : operator=false := by simpa using h.2
    subst ho
    have hr := s.resumed_evolves (σ := changes i (recoveryMoves false) i) (P := P) now
    refine ⟨hr.binding,.inr ⟨rfl,by decide,?_,rfl⟩,hr.phases⟩
    rw [h.1]
    exact List.mem_singleton.2 rfl
  · subst ho
    exact .enter rfl (.inr ⟨rfl,List.mem_singleton.2 rfl⟩) rfl
  · exact Std.Refl.refl s

theorem afterRecovery_evolves (s : CompilerSession) (plan : RecoveryPlan) (now i : UInt64) :
    CompilerSession.Evolves (changes i (recoveryMoves plan.requiresOperator) i) P s
      (s.afterRecovery plan now) := by
  have h : CompilerSession.Evolves (changes i (recoveryMoves plan.requiresOperator) i)
      P s (s.planned plan) := .note rfl rfl rfl
  exact (h.trans (reopened_evolves _ _ now i)).trans (.note rfl rfl rfl)

theorem endRecovery_within (plan : RecoveryPlan) :
    Within (Evolves (changes sid.value (recoveryMoves plan.requiresOperator)) P)
      (endRecovery w sid plan) := by
  refine Within.get.bind fun rt => (Within.ofExcept _).bind fun _ =>
    (applyRevalidation_within w plan).bind fun _ => ?_
  refine Within.bind (modifySession_within _ fun s => afterRecovery_evolves s plan w.now _) fun _ => ?_
  exact (persistSession_within w _).bind fun _ => recordEvidence_within.bind fun _ => .pure _

theorem failIfActive_within (detail : Bytes) :
    Within (Evolves (changes sid.value (leaves [.active] .failed)) P)
      (failIfActive w sid detail) := by
  intro rt
  by_cases ha : (rt.find sid).any (·.state=.active)
  · have he : (failIfActive w sid detail rt).2=(failSession w sid detail rt).2 := by
      simp only [failIfActive,bind_apply,get_apply,if_pos ha]
      rfl
    rw [he]
    refine Within.bind_at ?_ fun _ t _ => persistSession_within w sid t
    refine rt.modifySession_evolves sid fun s hs => .enter rfl (.inr ⟨rfl,by decide,?_,rfl⟩) rfl
    rw [hs] at ha
    simpa using ha
  · have he : (failIfActive w sid detail rt).2=rt := by
      simp only [failIfActive,bind_apply,get_apply,if_neg ha]
      rfl
    rw [he]
    exact Std.Refl.refl rt

/-- An ACTIVE or CREATED session is ended by a shutdown. -/
def shutdownMoves (_ : UInt64) (a b : SessionState) : Prop :=
  a=b ∨ leaves [.active,.created] .failed a b

instance {i : UInt64} : IsPreorder SessionState (shutdownMoves i) where
  refl _ := .inl rfl
  trans := by
    intro a b c h h'
    rcases h with rfl | h
    · exact h'
    · rcases h' with rfl | h'
      · exact .inr h
      · exact .inr (IsTrans.trans _ _ _ h h')

theorem stopped_evolves (s : CompilerSession) (now i : UInt64) :
    CompilerSession.Evolves (shutdownMoves i) P s (stopped now s) := by
  unfold stopped
  apply touched_evolves
  split
  · next h => exact .enter rfl (.inr ⟨by decide,by simpa using h,rfl⟩) rfl
  · exact Std.Refl.refl s

theorem endShutdown_within : Within (Evolves shutdownMoves P) (endShutdown w) := by
  refine Within.get.bind fun rt => ?_
  refine (Within.forEach (fun i => Within.get.bind fun rt => ?_) _).bind fun _ => ?_
  · split
    · exact .pure _
    · split
      · exact .pure _
      · refine Within.bind (modifySession_within _ fun s => stopped_evolves s w.now _) fun _ => ?_
        exact (persistSession_within w _).attempt.bind fun _ => .pure _
  · exact (resetPersistence_within w).bind fun _ => recordEvidence_within.bind fun _ => .pure _

section Fence

variable {σ : SessionState → SessionState → Prop} [IsPreorder _ σ] {session fenced : CompilerSession}
  {rt rt' : Runtime}

theorem fencePhase_evolves (reason : Bytes)
    (h : fencePhase w reason session pid rt=(.ok fenced,rt')) :
    CompilerSession.Evolves σ P session fenced := by
  unfold fencePhase at h
  cases hp : session.findPhase pid with
  | none =>
    rw [hp] at h
    cases h
    exact Std.Refl.refl _
  | some phase =>
    rw [hp] at h
    dsimp only at h
    split at h
    · cases h
      exact Std.Refl.refl _
    · cases h
      exact session.modifyPhase_evolves pid fun p => Allows.calm (p.fencedInFlight_calm _ _)

theorem fencePhases_evolves (reason : Bytes) (order : List CompilerPhaseId)
    (h : fencePhases w reason order session rt=(.ok fenced,rt')) :
    CompilerSession.Evolves σ P session fenced := by
  induction order generalizing session rt with
  | nil =>
    cases h
    exact Std.Refl.refl _
  | cons id rest ih =>
    have ⟨s,t,h₁,h₂⟩ := seq_eq_ok.1 h
    exact (fencePhase_evolves w id reason h₁).trans (ih h₂)

theorem fenceAllInFlight_evolves (reason : String)
    (h : fenceAllInFlight w reason session rt=(.ok fenced,rt')) :
    CompilerSession.Evolves σ P session fenced :=
  fencePhases_evolves w _ _ h

end Fence

/-- The live record is still the one an operation that keeps aside started from. -/
theorem Aside.live {α : Type} {x : Op α} {result : Result α} {rt t : Runtime} {s s' : CompilerSession}
    (hx : Within Aside x) (ht : x rt=(result,t)) (hs : rt.find sid=some s)
    (hl : t.find sid=some s') : s'=s := by
  have ha := hx rt
  rw [ht] at ha
  rw [ha.find sid,hs] at hl
  exact (Option.some.inj hl).symm

theorem beginShutdown_within : Within (Evolves (fun _ => Eq) P) (beginShutdown w) := by
  refine Within.get.bind fun rt => ?_
  split
  · exact .pure _
  · refine Within.bind (fun _ => .aside rfl rfl rfl rfl rfl) fun _ =>
      (Within.forEach (fun i => ?_) _).bind fun _ => .pure _
    intro rt
    refine Within.bind_at (Std.Refl.refl rt) fun a t ht => ?_
    cases ht
    cases hs : rt.sessions[i]? with
    | none => exact Std.Refl.refl rt
    | some session =>
      by_cases hc : session.state=.retired ∨ session.state=.committed
      · simp only [hc,if_true]
        exact Std.Refl.refl rt
      · simp only [hc,if_false]
        refine Within.bind_at (fencePhases_within w _ _ _ rt) fun fenced t ht => ?_
        refine t.modifySession_evolves ⟨i⟩ fun s hl => ?_
        cases Aside.live ⟨i⟩ (fenceAllInFlight_aside w _ _) ht hs hl
        exact fenceAllInFlight_evolves w _ ht

end Endings

theorem reserved_opens (p : PhaseRecord) (session : CompilerSession)
    (inputs : List (Ref .intermediate)) (isRetry : Bool) (now : UInt64) :
    p.Opens (p.reserved session r inputs isRetry now) := by
  have bound : p.Opens (p.bound session r inputs now) := ⟨.note rfl rfl rfl,fun h => h⟩
  refine IsTrans.trans _ _ _ bound ?_
  exact IsTrans.trans _ _ _ (PhaseRecord.recordTransition_opens _ _ _ (by decide))
    (PhaseRecord.recordTransition_opens _ _ _ (by decide))

/-- A reservation writes the binding; its two transitions write the state and the history. -/
theorem reserved_frame (p : PhaseRecord) (session : CompilerSession)
    (inputs : List (Ref .intermediate)) (isRetry : Bool) (now : UInt64) :
    ∃ history state,p.reserved session r inputs isRetry now=
      { p.bound session r inputs now with history,state } := by
  unfold PhaseRecord.reserved
  have ⟨h₁,s₁,he₁,_⟩ := (p.bound session r inputs now).recordTransition_frame .ready
    (ascii (if isRetry then "retry authority reserved" else "phase authority reserved")) now
  rw [he₁]
  have ⟨h₂,s₂,he₂,_⟩ := PhaseRecord.recordTransition_frame
    { p.bound session r inputs now with history := h₁,state := s₁ } .preparing
    (ascii "workspace and environment prepared") now
  rw [he₂]
  exact ⟨h₂,s₂,rfl⟩

section Follows

variable {σ : UInt64 → SessionState → SessionState → Prop} [∀ i,IsPreorder _ (σ i)]

omit [∀ i,IsPreorder _ (σ i)] in
theorem keeps_of_within {P : PhaseRecord → PhaseRecord → Prop} {α : Type} {x : Op α}
    (h : Within (Evolves σ P) x) : Within (Keeps σ P) x :=
  h.mono fun _ _ h => h.keeps

theorem keeps_of_aside {P : PhaseRecord → PhaseRecord → Prop} [IsPreorder _ P] {α : Type}
    {x : Op α} (h : Within Aside x) : Within (Keeps σ P) x :=
  h.mono fun _ _ h => h.keeps

theorem grantLease_keeps {P : PhaseRecord → PhaseRecord → Prop} [IsPreorder _ P]
    (session : Ref .session) (phase : Ref .phase) (now : UInt64) (reason : Bytes) :
    Within (Keeps σ P) (grantLease session phase now reason) :=
  fun rt => ⟨⟨Nat.le_refl _,grantLease_mints session phase now reason rt⟩,.same rfl rfl rfl,
    fun _ s hs => ⟨s,hs,Std.Refl.refl s⟩⟩

theorem reserve_keeps (isRetry : Bool) :
    Within (Keeps σ PhaseRecord.Opens) (reserve w sid pid isRetry) := by
  refine Within.get.bind fun rt => (Within.ofExcept _).bind fun (session,phase,inputs) => ?_
  refine (keeps_of_within nextAttempt_within).bind fun attempt => ?_
  refine (keeps_of_within nextInvocation_within).bind fun invocation => ?_
  refine (Within.ofExcept _).bind fun workspace => (grantLease_keeps _ _ _ _).bind fun lease => ?_
  refine Within.bind (keeps_of_within (modifySession_within _ fun s => ?_)) fun _ => ?_
  · refine CompilerSession.Evolves.trans (s.modifyPhase_evolves pid fun p => ?_) (.note rfl rfl rfl)
    exact reserved_opens _ p _ _ _ _
  · exact (keeps_of_within (persistSession_within w _)).bind fun _ => .pure _

/-- What a reservation writes once it is admitted. -/
structure Reserves (isRetry : Bool) (rt t : Runtime) (s : CompilerSession) (p : PhaseRecord)
    (inputs : List (Ref .intermediate)) (r : Reservation) : Prop where
  admitted : rt.admission sid pid isRetry=.ok (s,p,inputs)
  session : r.session=sid
  phase : r.phase=pid
  kind : r.kind=p.kind
  phaseGeneration : r.phaseGeneration=p.nextGeneration
  attemptGeneration : r.attemptGeneration=p.nextAttemptGeneration isRetry
  attempt : r.attempt=rt.attemptIds.next.1
  invocation : r.invocation=⟨rt.invocationIds.next.1,.initial⟩
  workspace : w.workspace=.ok r.workspace
  authority : r.authority=authorityFromSession (s.reserved r inputs isRetry w.now)
    (p.reserved s r inputs isRetry w.now)
  sessions : t.sessions=rt.sessions.modify sid.value (·.reserved r inputs isRetry w.now)
  granted : ∃ reason,(r.lease,t.leases)=
    rt.leases.grant ⟨s.id,s.generation⟩ ⟨pid,p.nextGeneration⟩ 0 w.now reason
  artifacts : t.artifacts=rt.artifacts

/-- A persist writes the journal and nothing else. -/
theorem persist_frame {session : CompilerSession} {rt t : Runtime} {result : Result Unit}
    (h : persist w session rt=(result,t)) :
    ∃ persistence persistFailures,t={ rt with persistence,persistFailures } := by
  unfold persist at h
  split at h
  · cases h
    exact ⟨_,_,rfl⟩
  · split at h
    · cases h
      exact ⟨_,_,rfl⟩
    · cases h
      exact ⟨_,_,rfl⟩

theorem persistSession_frame {rt t : Runtime} {result : Result Unit}
    (h : persistSession w sid rt=(result,t)) :
    ∃ persistence persistFailures,t={ rt with persistence,persistFailures } := by
  unfold persistSession at h
  split at h
  · exact persist_frame w h
  · cases h
    exact ⟨_,_,rfl⟩

theorem persist_refused {session : CompilerSession} {e : Status} {rt t : Runtime}
    (h : persist w session rt=(.error e,t)) : rt.persistFailures<t.persistFailures := by
  unfold persist at h
  split at h
  · cases h
  · split at h
    · cases h
    · cases h
      exact Nat.lt_succ_self _

theorem persistSession_refused {e : Status} {rt t : Runtime}
    (h : persistSession w sid rt=(.error e,t)) : rt.persistFailures<t.persistFailures := by
  unfold persistSession at h
  split at h
  · exact persist_refused w h
  · cases h

/-- A reservation is refused before it writes anything but counters, not admitted or without a
workspace, or it is written: then it is granted unless the journal refuses it. -/
theorem reserve_spec {isRetry : Bool} {rt t : Runtime} {result : Result Reservation}
    (h : reserve w sid pid isRetry rt=(result,t)) :
    ((t.sessions=rt.sessions ∧ t.leases=rt.leases ∧ t.artifacts=rt.artifacts) ∧
      ∃ e,result=.error e ∧ (rt.admission sid pid isRetry=.error e ∨ w.workspace=.error e)) ∨
    ∃ s p inputs r,Reserves w sid pid isRetry rt t s p inputs r ∧
      (result=.ok r ∨ (∃ e,result=.error e) ∧ rt.persistFailures<t.persistFailures) := by
  rcases seq_eq h with ⟨e,hx,_⟩ | ⟨_,_,hg,h⟩
  · cases hx
  cases hg
  rcases seq_eq h with ⟨e,hx,he⟩ | ⟨⟨session,phase,inputs⟩,_,ha,h⟩
  · cases (congrArg Prod.snd hx : rt=t)
    exact .inl ⟨⟨rfl,rfl,rfl⟩,e,he,.inl (congrArg Prod.fst hx)⟩
  have ⟨hadmitted,he⟩ := ofExcept_eq_ok.1 ha
  subst he
  rcases seq_eq h with ⟨e,hx,_⟩ | ⟨attempt,t₁,h₁,h⟩
  · cases hx
  rcases seq_eq h with ⟨e,hx,_⟩ | ⟨invocation,t₂,h₂,h⟩
  · cases hx
  have hattempt : attempt=rt.attemptIds.next.1 := by
    cases h₁
    rfl
  have hinvocation : invocation=rt.invocationIds.next.1 := by
    cases h₁
    cases h₂
    rfl
  have hsame : (t₂.sessions=rt.sessions ∧ t₂.leases=rt.leases ∧ t₂.artifacts=rt.artifacts) ∧
      t₂.persistFailures=rt.persistFailures := by
    cases h₁
    cases h₂
    exact ⟨⟨rfl,rfl,rfl⟩,rfl⟩
  clear h₁ h₂
  rcases seq_eq h with ⟨e,hx,he⟩ | ⟨workspace,_,hw,h⟩
  · cases (congrArg Prod.snd hx : t₂=t)
    exact .inl ⟨hsame.1,e,he,.inr (congrArg Prod.fst hx)⟩
  have ⟨hworkspace,he⟩ := ofExcept_eq_ok.1 hw
  cases he
  rcases seq_eq h with ⟨e,hx,_⟩ | ⟨lease,t₃,h₃,h⟩
  · cases hx
  have hgrant : (lease,t₃.leases)=rt.leases.grant ⟨session.id,session.generation⟩
      ⟨pid,phase.nextGeneration⟩ 0 w.now
      (ascii (if isRetry then "retry of a failed phase" else "phase execution")) := by
    rw [← hsame.1.2.1]
    cases h₃
    rfl
  have hsame : t₃.sessions=rt.sessions ∧ t₃.artifacts=rt.artifacts ∧
      t₃.persistFailures=rt.persistFailures := by
    cases h₃
    exact ⟨hsame.1.1,hsame.1.2.2,hsame.2⟩
  clear h₃
  rcases seq_eq h with ⟨e,hx,_⟩ | ⟨_,t₄,hm,h⟩
  · cases hx
  -- the reservation without its authority writes the same record
  let r : Reservation :=
    { session := sid
      phase := pid
      phaseGeneration := phase.nextGeneration
      invocation := ⟨invocation,.initial⟩
      attempt := attempt
      attemptGeneration := phase.nextAttemptGeneration isRetry
      lease := lease
      kind := phase.kind
      workspace := workspace }
  let authority := authorityFromSession (session.reserved r inputs isRetry w.now)
    (phase.reserved session r inputs isRetry w.now)
  have hm : t₄.sessions=rt.sessions.modify sid.value (·.reserved r inputs isRetry w.now) ∧
      t₄.leases=t₃.leases ∧ t₄.artifacts=rt.artifacts ∧
      t₄.persistFailures=rt.persistFailures := by
    cases hm
    exact ⟨congrArg (Std.ExtTreeMap.modify · sid.value _) hsame.1,rfl,hsame.2⟩
  have written {u : Runtime} (hs : u.sessions=t₄.sessions) (hl : u.leases=t₄.leases)
      (ha : u.artifacts=t₄.artifacts) :
      Reserves w sid pid isRetry rt u session phase inputs { r with authority } := by
    have hl : (lease,u.leases)=_ := (congrArg (Prod.mk lease) (hl.trans hm.2.1)).trans hgrant
    refine ⟨hadmitted,rfl,rfl,rfl,rfl,rfl,hattempt,?_,hworkspace,rfl,hs.trans hm.1,⟨_,hl⟩,
      ha.trans hm.2.2.1⟩
    exact congrArg (Ref.mk · .initial) hinvocation
  refine .inr (Exists.intro session (Exists.intro phase (Exists.intro inputs
    (Exists.intro { r with authority } ?_))))
  rcases seq_eq h with ⟨e,hx,he⟩ | ⟨_,u,hx,h⟩
  · have hlt := persistSession_refused w sid hx
    rw [hm.2.2.2] at hlt
    have ⟨_,_,hu⟩ := persistSession_frame w sid hx
    refine ⟨written ?_ ?_ ?_,.inr ⟨⟨e,he⟩,hlt⟩⟩ <;> rw [hu]
  · have ⟨_,_,hu⟩ := persistSession_frame w sid hx
    cases h
    refine ⟨written ?_ ?_ ?_,.inl rfl⟩ <;> rw [hu]

theorem modifyPhase_keeps {f : PhaseRecord → PhaseRecord} (h : ∀ p,PhaseRecord.Moves p (f p)) :
    Within (Keeps σ PhaseRecord.Moves) (modify (·.modifyPhase sid pid f) : Op Unit) :=
  keeps_of_within (modifyPhase_within sid pid h)

theorem registerOutput_keeps (session : CompilerSession) (phase : PhaseRecord)
    (output : OutputDescriptor) :
    Within (Keeps σ PhaseRecord.Moves) (registerOutput r session phase output) := by
  refine (keeps_of_aside (registerArtifact_aside _)).bind fun reference => ?_
  refine Within.bind (keeps_of_within (modifySession_within _ fun s => ?_)) fun _ => ?_
  · refine CompilerSession.Evolves.trans (s.modifyPhase_evolves r.phase fun p => ?_)
      (.note rfl rfl rfl)
    exact .note rfl
  · exact fun _ => Aside.keeps (.note rfl rfl)

theorem recordExecution_keeps (report : ExecutionReport) :
    Within (Keeps σ PhaseRecord.Moves) (recordExecution w r report) := by
  refine Within.get.bind fun rt => (Within.ofExcept _).bind fun (session,phase) => ?_
  refine Within.bind (modifyPhase_keeps _ _ fun p => (p.attemptReported_quiet r report).toMoves)
    fun _ => (keeps_of_within (addDiagnostics_within _)).bind fun stored => ?_
  refine Within.bind (modifyPhase_keeps _ _ fun p => .note rfl) fun _ => ?_
  refine Within.bind (fun _ => Aside.keeps (.note rfl rfl)) fun _ => ?_
  split
  · refine Within.bind (modifyPhase_keeps _ _ fun p => (p.produced_quiet _ r).toMoves) fun _ => ?_
    refine (Within.forEach (registerOutput_keeps r session phase) _).bind fun _ => ?_
    refine Within.bind (fun rt => (rt.modifyPhase_evolves _ _ fun p => .note rfl).keeps) fun _ => ?_
    refine Within.bind (keeps_of_within (modifySession_within _ fun s => touched_evolves w.now
      (s.modifyPhase_evolves _ fun p => (p.recordTransition_quiet _ _ (by decide) (by decide)).toMoves))) fun _ => ?_
    exact keeps_of_aside (persistSession_aside w _)
  · refine Within.bind (keeps_of_within (modifySession_within _ fun s => touched_evolves w.now
      (s.modifyPhase_evolves _ fun p => (p.executionFailed_quiet _ r report).toMoves))) fun _ => ?_
    exact keeps_of_aside (persistSession_aside w _)

theorem reportOutput_keeps (generation : CompilerPhaseGeneration) (invocation : Ref .invocation)
    (outputs : List OutputDescriptor) (process : ProcessOutcome) :
    Within (Keeps σ PhaseRecord.Moves)
      (reportOutput w sid pid generation invocation outputs process) :=
  Within.get.bind fun _ => (Within.ofExcept _).bind fun _ => (Within.ofExcept _).bind fun _ =>
    (Within.ofExcept _).bind fun _ => (Within.ofExcept _).bind fun _ =>
      (recordExecution_keeps w _ _).bind fun _ => Within.get.bind fun _ => .pure _

end Follows

section Commit

theorem next_present {tag : IdTag} (a : IdAllocator tag) : a.next.1.present := by
  simp only [IdAllocator.next,StrongId.present]
  split
  · rfl
  · next h => simpa using h

theorem stage_aside (session : CompilerSession) (phase : PhaseRecord) :
    Within Aside (stage w r session phase) := by
  refine Within.bind (fun _ => .note rfl rfl) fun provenance => ?_
  refine (Within.forEach (modifyArtifact_aside _) _).bind fun _ => ?_
  refine Within.bind (fun rt => .write rfl (Nat.le_refl _) (nextCommit_mints rt) (.same rfl rfl rfl)
    (Std.Refl.refl _)) fun commit => ?_
  refine (Within.forEach promote_aside _).bind fun _ => ?_
  exact (conclude_aside w _ _).bind fun _ => .pure _

/-- The copy a commit publishes. -/
theorem stage_ok {session committed : CompilerSession} {phase : PhaseRecord}
    {provenance : ProvenanceId} {concluded : Bool} {rt t : Runtime}
    (h : stage w r session phase rt=(.ok (provenance,committed,concluded),t)) :
    ∃ commit candidate,commit.present ∧
      committed=(session.committedPhase phase.id commit w.now).withCandidate candidate := by
  have ⟨_,t₁,_,h⟩ := seq_eq_ok.1 h
  have ⟨_,t₂,_,h⟩ := seq_eq_ok.1 h
  have ⟨commit,t₃,hc,h⟩ := seq_eq_ok.1 h
  have ⟨_,t₄,_,h⟩ := seq_eq_ok.1 h
  have ⟨candidate,t₅,_,h⟩ := seq_eq_ok.1 h
  cases h
  cases hc
  exact ⟨_,candidate,next_present t₂.commitIds,rfl⟩

theorem release_aside (phase : PhaseRecord) (provenance : ProvenanceId) :
    Within Aside (release phase provenance) :=
  Within.get.bind fun _ => (Within.forEach (modifyArtifact_aside _) _).bind fun _ =>
    (revokeLease_aside _ _).bind fun _ _ => .note rfl rfl

/-- The sessions are as before, or one of them is replaced by the copy of it that was made. -/
def Published (w : World) (r : Reservation) (session : CompilerSession) (phase : PhaseRecord)
    (rt t : Runtime) : Prop :=
  t.sessions=rt.sessions ∨ ∃ commit candidate,commit.present ∧
    t.sessions=rt.sessions.modify r.session.value fun _ =>
      (session.committedPhase phase.id commit w.now).withCandidate candidate

theorem publish_sessions (report : ExecutionReport) (session : CompilerSession)
    (phase : PhaseRecord) (rt : Runtime) :
    Published w r session phase rt (publish w r report session phase rt).2 := by
  have hstage := stage_aside w r session phase rt
  refine bind_state ?_ ?_
  · intro e t ht
    rw [ht] at hstage
    exact .inl hstage.sessions
  rintro ⟨provenance,committed,concluded⟩ t ht
  rw [ht] at hstage
  have ⟨commit,candidate,hc,he⟩ := stage_ok w r ht
  have hpersist := persist_aside w committed t
  refine bind_state ?_ ?_
  · intro e u hu
    rw [hu] at hpersist
    exact .inl (hpersist.sessions.trans hstage.sessions)
  intro _ u hu
  rw [hu] at hpersist
  refine bind_state (fun _ _ h => nomatch h) ?_
  rintro _ _ ⟨⟩
  have hr (x : PhaseRunReport) : Within Aside (release phase provenance >>= fun _ => pure x) :=
    (release_aside phase provenance).bind fun _ => .pure x
  have hs : u.sessions=rt.sessions := hpersist.sessions.trans hstage.sessions
  refine .inr ⟨commit,candidate,hc,(hr _ _).sessions.trans ?_⟩
  show u.sessions.modify _ _=_
  rw [hs,he]

theorem committed_stays (p : PhaseRecord) (commit : CommitId) (now : UInt64) :
    p.Stays (p.committed commit now) := by
  refine .record (by decide) (.last (fun _ => rfl) ?_)
  exact .note rfl rfl rfl rfl

/-- A commit keeps the state of the session, or makes it COMMITTED. -/
def concluding (a b : SessionState) : Prop := a=b ∨ b=.committed

instance : IsPreorder SessionState concluding where
  refl _ := .inl rfl
  trans := by
    intro a b c h h'
    rcases h' with rfl | h'
    · exact h
    · exact .inr h'

section Copy

variable {P : PhaseRecord → PhaseRecord → Prop} [IsPreorder _ P]

theorem committedPhase_evolves (session : CompilerSession) (phase : CompilerPhaseId)
    (commit : CommitId) (now : UInt64) (hP : ∀ p : PhaseRecord,P p (p.committed commit now)) :
    CompilerSession.Evolves concluding P session (session.committedPhase phase commit now) := by
  have h : CompilerSession.Evolves concluding P session
      { session.modifyPhase phase (·.committed commit now) with
        generation := session.generation.next
        updatedAtNanos := now } :=
    (session.modifyPhase_evolves phase hP).trans (.note rfl rfl rfl)
  unfold CompilerSession.committedPhase
  dsimp only
  split
  · exact h.trans (.enter rfl (.inr rfl) rfl)
  · exact h

theorem withCandidate_evolves (session : CompilerSession) (candidate : Option FinalCandidate) :
    CompilerSession.Evolves concluding P session (session.withCandidate candidate) := by
  cases candidate with
  | none => exact Std.Refl.refl session
  | some candidate =>
    unfold CompilerSession.withCandidate
    dsimp only
    split
    · exact .enter rfl (.inr rfl) rfl
    · exact .note rfl rfl rfl

end Copy

/-- What the re-probe hands on to the verdict. -/
theorem reprobe_ok {session : CompilerSession} {phase : PhaseRecord} {rt t : Runtime}
    (h : reprobe w r session phase rt=(.ok (),t)) :
    ∃ toolchains evidenceIds,t={ rt with toolchains,evidenceIds } := by
  have ⟨_,_,hg,h⟩ := seq_eq_ok.1 h
  cases hg
  split at h
  · cases hw : w.reprobed with
    | error e =>
      rw [hw] at h
      have ⟨_,_,_,h⟩ := seq_eq_ok.1 h
      have ⟨_,_,_,h⟩ := seq_eq_ok.1 h
      have ⟨_,_,_,h⟩ := seq_eq_ok.1 h
      have ⟨_,_,_,h⟩ := seq_eq_ok.1 h
      have ⟨_,_,_,h⟩ := seq_eq_ok.1 h
      cases h
    | ok observed =>
      rw [hw] at h
      have ⟨_,_,ho,h⟩ := seq_eq_ok.1 h
      cases (ofExcept_eq_ok.1 ho).2
      have ⟨_,_,hm,h⟩ := seq_eq_ok.1 h
      cases hm
      split at h
      · have ⟨_,_,he,h⟩ := seq_eq_ok.1 h
        cases he
        cases h
        exact ⟨_,_,rfl⟩
      · cases h
        exact ⟨_,_,rfl⟩
  · cases h
    exact ⟨_,_,rfl⟩

theorem reprobe_sessions {session : CompilerSession} {phase : PhaseRecord} {rt t : Runtime}
    (h : reprobe w r session phase rt=(.ok (),t)) : t.sessions=rt.sessions := by
  have ⟨_,_,ht⟩ := reprobe_ok w r h
  rw [ht]

theorem requireSession_ok {rt : Runtime} {e : Status} {session : CompilerSession} :
    rt.requireSession sid e=.ok session ↔ rt.find sid=some session := by
  unfold requireSession
  cases rt.find sid <;> simp

theorem requirePhase_ok {s : CompilerSession} {e : Status} {phase : PhaseRecord} :
    s.requirePhase pid e=.ok phase ↔ s.findPhase pid=some phase := by
  unfold CompilerSession.requirePhase
  cases s.findPhase pid <;> simp

/-- A phase that no attempt of it has in flight and nothing has ended. -/
def startable (isRetry : Bool) (s : PhaseState) : Bool :=
  if isRetry then s ∈ [PhaseState.failed,.recoveryRequired]
  else s ∈ [PhaseState.pending,.ready,.recoveryRequired]

theorem reserved_preparing {isRetry : Bool} {p : PhaseRecord} (h : startable isRetry p.state)
    (session : CompilerSession) (inputs : List (Ref .intermediate)) (now : UInt64) :
    (p.reserved session r inputs isRetry now).state=.preparing := by
  unfold startable at h
  unfold PhaseRecord.reserved
  rw [PhaseRecord.recordTransition_state,PhaseRecord.recordTransition_state]
  show PhaseRecord.reach (PhaseRecord.reach p.state .ready) .preparing=.preparing
  revert h
  cases p.state <;> cases isRetry <;> decide

/-- What `reserve` asks for. -/
structure Admits (isRetry : Bool) (rt : Runtime) (s : CompilerSession) (p : PhaseRecord)
    (inputs : List (Ref .intermediate)) : Prop where
  up : rt.shuttingDown=false
  session : rt.find sid=some s
  admits : s.state.admitsNewAuthority
  phase : s.findPhase pid=some p
  startable : startable isRetry p.state
  ready : s.plan.isReady pid s.committedPhases
  current : rt.reserveVerdict s p=.valid
  inputs : rt.resolveInputs s p=.ok inputs
  room : p.attempts.length<kMaxPhaseAttempts

theorem admission_iff {isRetry : Bool} {rt : Runtime} {s : CompilerSession} {p : PhaseRecord}
    {inputs : List (Ref .intermediate)} :
    rt.admission sid pid isRetry=.ok (s,p,inputs) ↔ Admits sid pid isRetry rt s p inputs := by
  simp only [admission,do_eq_ok,requireSession_ok,requirePhase_ok,ensure_ok]
  constructor
  · intro h
    have ⟨_,hu,s,hs,_,_,_,ha,p,hp,_,hc,_,hw,_,hf,_,hr,_,hn,_,hd,_,hv,inputs,hi,_,hm,he⟩ := h
    cases he
    refine ⟨by simpa using hu,hs,ha,hp,?_,hd,hv,hi,hm⟩
    unfold startable
    revert hc hw hf hr hn
    cases p.state <;> cases isRetry <;> decide
  · intro h
    have hst := h.startable
    have hrec : s.state ≠ .recovering := by
      intro he
      have ha := h.admits
      rw [he] at ha
      cases ha
    unfold startable at hst
    refine ⟨(),by simpa using h.up,s,h.session,(),hrec,(),h.admits,p,h.phase,(),?_,(),?_,(),?_,(),?_,
      (),?_,(),h.ready,(),h.current,inputs,h.inputs,(),h.room,rfl⟩
    all_goals
      revert hst
      cases p.state <;> cases isRetry <;> decide

/-- The record a reservation leaves. -/
theorem Reserves.record {w : World} {sid : CompilerSessionId} {pid : CompilerPhaseId}
    {isRetry : Bool} {rt t : Runtime} {s : CompilerSession} {p : PhaseRecord}
    {inputs : List (Ref .intermediate)} {r : Reservation}
    (h : Reserves w sid pid isRetry rt t s p inputs r) :
    t.phase sid pid=some (p.reserved s r inputs isRetry w.now) := by
  have ha := (admission_iff sid pid).1 h.admitted
  rw [phase_modifySession h.sessions,if_pos rfl,ha.session,Option.map_some,Option.bind_some]
  have hf := s.findPhase_modifyPhase r.phase pid fun p => p.reserved s r inputs isRetry w.now
  rw [if_pos h.phase,ha.phase] at hf
  exact hf

theorem committable_ok {session : CompilerSession} {phase : PhaseRecord} {rt : Runtime}
    (h : rt.committable r=.ok (session,phase)) :
    rt.find r.session=some session ∧ session.findPhase r.phase=some phase ∧
      phase.generation=r.phaseGeneration ∧ phase.activeInvocation=r.invocation ∧
      phase.state=.commitReady := by
  simp only [committable,do_eq_ok,requireSession_ok,requirePhase_ok,ensure_ok] at h
  have ⟨_,hs,_,hp,_,hg,_,hi,_,hc,he⟩ := h
  cases he
  exact ⟨hs,hp,hg,hi,hc⟩

theorem verdict_sessionActive {bound : PhaseAuthority} {current : AuthorityObservation}
    (h : compareAuthority bound current=.valid) : current.sessionActive := by
  by_contra hn
  rw [compareAuthority,if_pos (by simpa using hn)] at h
  exact absurd h (by decide)

/-- A session a commit may change: open, or still to be recovered. -/
def committing : SessionState → SessionState → Prop :=
  leaves [.created,.active,.recovering] .committed

instance : IsTrans SessionState committing := inferInstanceAs (IsTrans _ (leaves _ _))

theorem publish_carries (report : ExecutionReport) (session : CompilerSession)
    (phase : PhaseRecord) : Within Carries (publish w r report session phase) := by
  have aside {α : Type} {x : Op α} (h : Within Aside x) : Within Carries x :=
    h.mono fun _ _ h => h.carries
  refine (aside (stage_aside w r session phase)).bind fun (provenance,committed,concluded) => ?_
  refine (aside (persist_aside w committed)).bind fun _ => ?_
  refine Within.bind (fun _ => .note rfl) fun _ => ?_
  exact (aside (release_aside phase provenance)).bind fun _ => .pure _

theorem publish_keeps {report : ExecutionReport} {session : CompilerSession} {phase : PhaseRecord}
    {rt : Runtime} (hl : rt.find r.session=some session)
    (hs : session.state ∈ [SessionState.created,.active,.recovering]) :
    Keeps (changes r.session.value committing) PhaseRecord.Stays rt
      (publish w r report session phase rt).2 := by
  have hcarries := publish_carries w r report session phase rt
  rcases publish_sessions w r report session phase rt with h | ⟨commit,candidate,_,h⟩
  · exact Aside.keeps ⟨⟨hcarries.toLedger,h⟩,hcarries.toRetains,hcarries.leases⟩
  have hm := (rt.modifySession_evolves r.session (P := PhaseRecord.Stays)
    (σ := changes r.session.value committing) (f := fun _ =>
      (session.committedPhase phase.id commit w.now).withCandidate candidate) ?_).keeps
  · refine ⟨hcarries.toLedger,hcarries.toRetains,?_⟩
    intro i s hi
    rw [h]
    exact hm.sessions i s hi
  intro s hf
  rw [hl] at hf
  cases hf
  have he := (committedPhase_evolves session phase.id commit w.now
    fun p => committed_stays p commit w.now).trans
    (withCandidate_evolves _ candidate)
  refine ⟨he.binding,?_,he.phases⟩
  rcases he.state with hc | hc
  · exact .inl hc
  · exact .inr ⟨rfl,by decide,hs,hc⟩

theorem commitReserved_keeps (report : ExecutionReport) :
    Within (Keeps (changes r.session.value committing) PhaseRecord.Stays)
      (commitReserved w r report) := by
  have quiet (p q : PhaseRecord) (h : p.Quiet q) : p.Stays q := h.toStays
  intro rt
  refine Within.bind_at (Std.Refl.refl rt) ?_
  rintro _ _ ⟨⟩
  refine Within.bind_at (Std.Refl.refl rt) ?_
  rintro ⟨session,phase⟩ t ht
  have ⟨hc,he⟩ := ofExcept_eq_ok.1 ht
  subst he
  have ⟨hl,_⟩ := committable_ok r hc
  refine Within.bind_at ?_ ?_
  · exact ((reprobe_within w r session phase rt).mono (fun _ _ _ h => h) quiet).keeps
  intro _ t ht
  have hs := reprobe_sessions w r ht
  have hl : t.find r.session=some session := by rw [find_of_sessions hs,hl]
  refine Within.bind_at (Std.Refl.refl t) ?_
  rintro _ _ ⟨⟩
  dsimp only
  split
  · next hv =>
    refine publish_keeps w r hl ?_
    have ha := verdict_sessionActive hv
    simp only [observe,SessionState.admitsNewAuthority] at ha
    simpa [or_assoc] using ha
  · exact ((refuseCommit_within w r phase _ t).mono (fun _ _ _ h => h) quiet).keeps

theorem committed_entered {p : PhaseRecord} {commit : CommitId} {now : UInt64}
    (h : (p.committed commit now).state=.committed) :
    p.state=.committed ∨ p.state=.commitReady := by
  generalize hs : p.state=state
  simp only [PhaseRecord.committed,PhaseRecord.recordTransition,PhaseRecord.modifyLastAttempt,hs] at h
  cases state <;> revert h <;> simp [isLegalPhaseTransition,PhaseRecord.kRoutes]

theorem projected_phases (session : CompilerSession) (phase : CompilerPhaseId) (commit : CommitId)
    (now : UInt64) (candidate : Option FinalCandidate) :
    ((session.committedPhase phase commit now).withCandidate candidate).phases=
      (session.modifyPhase phase (·.committed commit now)).phases := by
  have h : (session.committedPhase phase commit now).phases=
      (session.modifyPhase phase (·.committed commit now)).phases := by
    unfold CompilerSession.committedPhase
    dsimp only
    split <;> rfl
  cases candidate with
  | none => exact h
  | some candidate =>
    unfold CompilerSession.withCandidate
    dsimp only
    split <;> exact h

/-- A published commit turns the one phase it is about to COMMITTED. -/
theorem publish_entered {report : ExecutionReport} {session : CompilerSession}
    {phase p p' : PhaseRecord} {rt : Runtime} {sid : CompilerSessionId} {pid : CompilerPhaseId}
    (hl : rt.find r.session=some session) (hp : rt.phase sid pid=some p)
    (hp' : (publish w r report session phase rt).2.phase sid pid=some p')
    (hn : p.state ≠ .committed) (hc : p'.state=.committed) :
    p.state=.commitReady ∧ r.session=sid ∧ phase.id=pid := by
  have same {q : PhaseRecord} (hq : some p=some q) (h : q.state=.committed) : False := by
    cases hq
    exact hn h
  rcases publish_sessions w r report session phase rt with h | ⟨commit,candidate,_,h⟩
  · refine (same ?_ hc).elim
    rw [← hp,← hp',Runtime.phase,Runtime.phase,Runtime.find,Runtime.find,h]
  rw [phase_modifySession h] at hp'
  split at hp'
  · next hs =>
    subst hs
    rw [hl,Option.map_some,Option.bind_some,CompilerSession.findPhase,projected_phases] at hp'
    rw [Runtime.phase,hl,Option.bind_some] at hp
    have hf := session.findPhase_modifyPhase phase.id pid (·.committed commit w.now)
    rw [CompilerSession.findPhase,hp',hp] at hf
    split at hf
    · next hi =>
      cases hf
      exact ⟨(committed_entered hc).resolve_left hn,rfl,hi⟩
    · exact (same hf.symm hc).elim
  · exact (same (hp.symm.trans hp') hc).elim

/-- A phase becomes COMMITTED in a commit that found it COMMIT_READY and its authority valid. -/
theorem commitReserved_entered {report : ExecutionReport} {rt : Runtime} {sid : CompilerSessionId}
    {pid : CompilerPhaseId} {p p' : PhaseRecord} (hp : rt.phase sid pid=some p)
    (hp' : (commitReserved w r report rt).2.phase sid pid=some p') (hn : p.state ≠ .committed)
    (hc : p'.state=.committed) :
    p.state=.commitReady ∧ ∃ session phase t,rt.committable r=.ok (session,phase) ∧
      r.session=sid ∧ phase.id=pid ∧ reprobe w r session phase rt=(.ok (),t) ∧
      t.commitVerdict w r session phase=.valid := by
  let entered (t : Runtime) : Prop := t.phase sid pid=some p' →
    p.state=.commitReady ∧ ∃ session phase t,rt.committable r=.ok (session,phase) ∧
      r.session=sid ∧ phase.id=pid ∧ reprobe w r session phase rt=(.ok (),t) ∧
      t.commitVerdict w r session phase=.valid
  have quiet {t u : Runtime} (ht : t.phase sid pid=some p) (h : t.Quiet u) : entered u := by
    intro hu
    obtain ⟨q,hq,hm⟩ := h.keeps.phase ht
    cases hq.symm.trans hu
    exact absurd (hm.entered hc) hn
  suffices h : entered (commitReserved w r report rt).2 from h hp'
  refine bind_state (Q := entered) (fun _ _ h => nomatch h) ?_
  rintro _ _ ⟨⟩
  refine bind_state (Q := entered) ?_ ?_
  · intro e t ht
    cases (congrArg Prod.snd ht : rt=t)
    exact quiet hp (Std.Refl.refl rt)
  rintro ⟨session,phase⟩ t ht
  obtain ⟨hcm,he⟩ := ofExcept_eq_ok.1 ht
  subst he
  have hr := reprobe_within w r session phase rt (σ := fun _ => Eq) (P := PhaseRecord.Quiet)
  refine bind_state (Q := entered) ?_ ?_
  · intro e t ht
    rw [ht] at hr
    exact quiet hp hr
  intro _ t ht
  have hs := reprobe_sessions w r ht
  have hl : t.find r.session=some session := by rw [find_of_sessions hs,(committable_ok r hcm).1]
  have htp : t.phase sid pid=some p := by
    rw [← hp,Runtime.phase,Runtime.phase,find_of_sessions hs]
  refine bind_state (Q := entered) (fun _ _ h => nomatch h) ?_
  rintro _ _ ⟨⟩
  dsimp only
  split
  · next hv =>
    intro hu
    obtain ⟨hcr,hsid,hpid⟩ := publish_entered w r hl htp hu hn hc
    exact ⟨hcr,session,phase,t,hcm,hsid,hpid,ht,hv⟩
  · exact quiet htp (refuseCommit_within w r phase _ t)

end Commit

section Insert

variable {σ : UInt64 → SessionState → SessionState → Prop} {P : PhaseRecord → PhaseRecord → Prop}
  [∀ i,IsPreorder _ (σ i)] [IsPreorder _ P]

theorem insert_keeps (rt : Runtime) (k : UInt64) (session : CompilerSession) :
    Keeps σ P rt { rt with sessions := rt.sessions.insertIfNew k session } := by
  refine ⟨⟨Nat.le_refl _,.same rfl⟩,.same rfl rfl rfl,?_⟩
  intro i s hs
  refine ⟨s,?_,Std.Refl.refl s⟩
  show (rt.sessions.insertIfNew k session)[i]?=some s
  rw [Std.ExtTreeMap.getElem?_insertIfNew,if_neg]
  · exact hs
  intro h
  have hk := Std.LawfulEqCmp.eq_of_compare h.1
  subst hk
  exact h.2 (Std.ExtTreeMap.mem_iff_isSome_getElem?.2 (by rw [hs]; rfl))

theorem sessionParts_within (request : CompileRequest) :
    Within (Evolves σ P) (sessionParts w request) := by
  refine Within.get.bind fun rt => ?_
  refine (Within.ofExcept _).bind fun _ => (Within.ofExcept _).bind fun _ => ?_
  refine (Within.ofExcept _).bind fun _ => (Within.ofExcept _).bind fun adapter => ?_
  refine (Within.ofExcept _).bind fun toolchain => (Within.ofExcept _).bind fun spec => ?_
  refine (onTargets_within _).bind fun target => (addSources_within _).bind fun plain => ?_
  refine (addSources_within _).bind fun inline_ => (Within.ofExcept _).bind fun _ => ?_
  refine (Within.ofExcept _).bind fun composed => (onEnvironments_within _).bind fun environment => ?_
  refine (onPolicies_within fun _ _ _ => SpecRegistry.internWith_advances).bind fun policy => (Within.ofExcept _).bind fun local_ => ?_
  refine (nextPhases_within _).bind fun remap => (Within.ofExcept _).bind fun plan => ?_
  refine nextSession_within.bind fun id => Within.bind ?_ fun attempt => ?_
  · unfold requestedAttempt
    split
    · exact .pure _
    · exact nextAttempt_within
  · exact (addSources_within _).bind fun staged => .pure _

theorem createSession_keeps (request : CompileRequest) :
    Within (Keeps σ P) (createSession w request) := by
  refine (keeps_of_within (sessionParts_within w request)).bind fun parts => ?_
  refine Within.get.bind fun rt => (keeps_of_within (persist_within w _)).bind fun _ => ?_
  refine Within.bind (fun rt => insert_keeps rt _ _) fun _ => ?_
  exact (keeps_of_within recordEvidence_within).bind fun _ => .pure _

theorem adoptSession_keeps (session : CompilerSession) :
    Within (Keeps σ PhaseRecord.Quiet) (adoptSession w session) := by
  refine Within.get.bind fun rt => ?_
  refine (Within.ofExcept _).bind fun _ => (Within.ofExcept _).bind fun _ => ?_
  refine Within.bind (fun _ => Aside.keeps (.note rfl rfl)) fun _ => ?_
  refine (keeps_of_within (fencePhases_within w _ _ _)).bind fun fenced => ?_
  refine (keeps_of_within (persist_within w _)).bind fun _ => ?_
  exact Within.bind (fun rt => insert_keeps rt _ _) fun _ => .pure _

end Insert

end Runtime

end CompilerFabric
