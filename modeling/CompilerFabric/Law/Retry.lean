import CompilerFabric.Runtime.Steps

namespace CompilerFabric

open Base Base.Action

/-- A retry the policy permitted is counted. -/
def CompilerSession.counted (s : CompilerSession) : CompilerSession :=
  { s with sessionRetriesUsed := s.sessionRetriesUsed+1 }

namespace Runtime

/-- The phase failed with a class its policy lets be retried, below both ceilings; what it depends
on is committed and what it is bound to is current. The state of its session is left out. -/
structure Retryable (rt : Runtime) (sid : CompilerSessionId) (pid : CompilerPhaseId)
    (s : CompilerSession) (p : PhaseRecord) : Prop where
  session : rt.find sid=some s
  phase : s.findPhase pid=some p
  failed : p.state=.failed
  permitted : ∃ policy,rt.policies.find s.policy.id=some policy ∧
    policy.spec.permitsRetry p.failure ∧
    UInt32.ofNat p.attempts.length ≤ policy.spec.maxRetriesPerPhase ∧
    s.sessionRetriesUsed<policy.spec.maxRetriesPerSession
  ready : s.plan.isReady pid s.committedPhases
  current : rt.reserveVerdict { s with state := .active } p=.valid
  inputs : ∃ inputs,rt.resolveInputs s p=.ok inputs

/-- `Retryable`, read off a state. -/
def retryable (rt : Runtime) (sid : CompilerSessionId) (pid : CompilerPhaseId) : Bool :=
  (rt.find sid).any fun s => (s.findPhase pid).any fun p =>
    p.state=.failed && (rt.policies.find s.policy.id).any (fun policy =>
      policy.spec.permitsRetry p.failure &&
      UInt32.ofNat p.attempts.length ≤ policy.spec.maxRetriesPerPhase &&
      s.sessionRetriesUsed<policy.spec.maxRetriesPerSession) &&
    s.plan.isReady pid s.committedPhases &&
    rt.reserveVerdict { s with state := .active } p=.valid && (rt.resolveInputs s p).toBool

theorem Retryable.of_retryable {rt : Runtime} {sid : CompilerSessionId} {pid : CompilerPhaseId}
    (h : rt.retryable sid pid) : ∃ s p,rt.Retryable sid pid s p := by
  simp only [retryable,Option.any_eq_true,Bool.and_eq_true,decide_eq_true_eq] at h
  have ⟨s,hs,p,hp,⟨⟨⟨hf,policy,hpol,⟨hc,hphase⟩,hsession⟩,hr⟩,hv⟩,hi⟩ := h
  refine ⟨s,p,hs,hp,hf,⟨policy,hpol,hc,hphase,hsession⟩,hr,hv,?_⟩
  cases hri : rt.resolveInputs s p with
  | error e =>
    rw [hri] at hi
    cases hi
  | ok inputs => exact ⟨inputs,rfl⟩

/-- The session takes a further attempt of the phase. -/
structure Reopened (rt : Runtime) (w : World) (s : CompilerSession) (p : PhaseRecord) : Prop where
  admits : s.state.admitsNewAuthority
  decided : p.failure ≠ .unknownOutcome
  room : p.attempts.length<kMaxPhaseAttempts
  up : rt.shuttingDown=false
  workspace : w.workspace.toBool

variable {rt : Runtime} {w : World} {sid : CompilerSessionId} {pid : CompilerPhaseId}
  {s : CompilerSession} {p : PhaseRecord}

theorem Retryable.decision (h : rt.Retryable sid pid s p) :
    (rt.retryDecision s p).legal ↔ p.failure ≠ .unknownOutcome := by
  have ⟨policy,hp,hc,hphase,hsession⟩ := h.permitted
  have hphase : ¬policy.spec.maxRetriesPerPhase<UInt32.ofNat p.attempts.length :=
    UInt32.not_lt.2 hphase
  have hsession : ¬policy.spec.maxRetriesPerSession ≤ s.sessionRetriesUsed :=
    UInt32.not_le.2 hsession
  simp only [retryDecision,hp,Option.map_some,Option.getD_some,evaluateRetry,h.failed]
  by_cases hu : p.failure=.unknownOutcome
  · simp [hu]
  · by_cases ha : p.failure=.authorityInvalidated
    · simp [ha]
    · simp [hu,ha,hc,hphase,hsession]

/-- A permission is counted on the session. -/
theorem beginRetry_legal (hs : rt.find sid=some s) (hp : s.findPhase pid=some p)
    (hl : (rt.retryDecision s p).legal) : beginRetry sid pid rt=
      (.ok (rt.retryDecision s p,none),rt.modifySession sid (·.counted)) := by
  simp [beginRetry,bind_apply,requireSession,hs,CompilerSession.requirePhase,hp,hl]
  rfl

theorem beginRetry_refused (hs : rt.find sid=some s) (hp : s.findPhase pid=some p)
    (hl : ¬(rt.retryDecision s p).legal) :
    ∃ report,beginRetry sid pid rt=(.ok (rt.retryDecision s p,some report),rt) := by
  simp [beginRetry,bind_apply,requireSession,hs,CompilerSession.requirePhase,hp,hl]

theorem reserveVerdict_active (h : s.state.admitsNewAuthority) :
    rt.reserveVerdict { s with state := .active } p=rt.reserveVerdict s p := by
  simp only [reserveVerdict,observe,h]
  rfl

/-- The checks of the reservation that follows a permission. -/
theorem Retryable.admits (h : rt.Retryable sid pid s p) {inputs : List (Ref .intermediate)}
    (hi : rt.resolveInputs s p=.ok inputs) (ho : rt.Reopened w s p) :
    Admits sid pid true (rt.modifySession sid (·.counted)) s.counted p inputs where
  up := ho.up
  session := by
    have hs := h.session
    simp only [find,modifySession] at hs ⊢
    simp [hs]
  admits := ho.admits
  phase := h.phase
  startable := by
    rw [h.failed]
    rfl
  ready := h.ready
  current := by
    have hc := h.current
    rw [reserveVerdict_active ho.admits] at hc
    exact hc
  inputs := hi
  room := ho.room

theorem failSession_failed {detail : Bytes} (h : (failSession w sid detail rt).2.find sid=some s) :
    s.state=.failed := by
  have hp := (persistSession_aside w sid (rt.modifySession sid (·.failedWith detail))).sessions
  have he : (failSession w sid detail rt).2=
    (persistSession w sid (rt.modifySession sid (·.failedWith detail))).2 := rfl
  rw [he,find_of_sessions hp,find,modifySession,Std.ExtTreeMap.getElem?_modify_self] at h
  obtain ⟨_,_,hs⟩ := Option.map_eq_some_iff.1 h
  subst hs
  rfl

/-- A round that finds the session blocked fails it. -/
theorem beginRound_blocked {t : Runtime} {status : StatusCode} {detail : Bytes}
    (h : beginRound w sid rt=(.ok (.blocked status detail),t)) (hs : t.find sid=some s) :
    s.state=.failed := by
  have ⟨_,_,_,h⟩ := seq_eq_ok.1 h
  have ⟨_,_,_,h⟩ := seq_eq_ok.1 h
  have ⟨_,_,_,h⟩ := seq_eq_ok.1 h
  have ⟨_,_,_,h⟩ := seq_eq_ok.1 h
  have ⟨session,t₁,_,h⟩ := seq_eq_ok.1 h
  split at h
  · cases h
  · split at h
    · cases h
    · have ⟨_,t₂,hf,h⟩ := seq_eq_ok.1 h
      cases h
      have ht := congrArg Prod.snd hf
      rw [← show _=t from ht] at hs
      exact failSession_failed hs

theorem failIfActive_not_active {detail : Bytes}
    (h : (failIfActive w sid detail rt).2.find sid=some s) : s.state ≠ .active := by
  by_cases ha : (rt.find sid).any (·.state=.active)
  · have he : (failIfActive w sid detail rt).2=(failSession w sid detail rt).2 := by
      simp only [failIfActive,bind_apply,get_apply,if_pos ha]
      rfl
    rw [he] at h
    rw [failSession_failed h]
    decide
  · have he : (failIfActive w sid detail rt).2=rt := by
      simp only [failIfActive,bind_apply,get_apply,if_neg ha]
      rfl
    rw [he] at h
    intro hs
    rw [h] at ha
    exact ha (by simpa using hs)

end Runtime

namespace System

variable {sys : System} {w : World} {sid : CompilerSessionId} {pid : CompilerPhaseId}
  {s : CompilerSession} {p : PhaseRecord}

/-- `retry_phase` through its decision and its reservation. -/
def retried (sys : System) (sid : CompilerSessionId) (pid : CompilerPhaseId) (w : World) : System :=
  sys.run [.call (.retryPhase sid pid) w,.resume sys.calls.length w]

/-- A new attempt of `p` is reserved, with the next generations and with the attempt, invocation
and lease identities the process draws next. -/
structure Renewed (sys sys' : System) (sid : CompilerSessionId) (pid : CompilerPhaseId)
    (p : PhaseRecord) (r : Reservation) : Prop where
  granted : sys'.granted=sys.granted++[r]
  session : r.session=sid
  phase : r.phase=pid
  phaseGeneration : r.phaseGeneration=p.nextGeneration
  attemptGeneration : r.attemptGeneration=p.nextAttemptGeneration true
  attempt : r.attempt=sys.rt.attemptIds.next.1
  invocation : r.invocation=⟨sys.rt.invocationIds.next.1,.initial⟩
  lease : r.lease=⟨sys.rt.leases.allocator.next.1,.initial⟩
  recorded : ∃ q,sys'.phase sid pid=some q ∧ q.state=.preparing ∧
    q.generation=r.phaseGeneration ∧ q.activeInvocation=r.invocation ∧ q.lease=r.lease ∧
    q.attempts.map (·.id)=p.attempts.map (·.id)++[r.attempt]

/-- A refused decision ends the call. -/
theorem retried_refused (hs : sys.rt.find sid=some s) (hp : s.findPhase pid=some p)
    (hl : ¬(sys.rt.retryDecision s p).legal) : (sys.retried sid pid w).granted=sys.granted := by
  have ⟨report,hb⟩ := @Runtime.beginRetry_refused (sys.rt.facing w) sid pid s p hs hp hl
  simp only [retried,run,List.foldl_cons,List.foldl_nil,apply,Command.start,hb]
  by_cases hu : sys.up
  · simp [hu,resume]
  · simp [hu]

/-- A permission is followed by the reservation. -/
theorem retried_permitted (hu : sys.up) (hs : sys.rt.find sid=some s)
    (hp : s.findPhase pid=some p) (hl : (sys.rt.retryDecision s p).legal) :
    ∃ result t,Runtime.reserve w sid pid true
        ((sys.rt.facing w).modifySession sid (·.counted))=(result,t) ∧
      (sys.retried sid pid w).rt=t ∧
      (sys.retried sid pid w).granted=sys.granted++result.toOption.toList := by
  have hb := @Runtime.beginRetry_legal (sys.rt.facing w) sid pid s p hs hp hl
  have hf (f : CompilerSession → CompilerSession) :
      ((sys.rt.facing w).modifySession sid f).facing w=(sys.rt.facing w).modifySession sid f := by
    simp only [Runtime.facing,Runtime.modifySession,Option.map_map]
    rfl
  cases hr : Runtime.reserve w sid pid true ((sys.rt.facing w).modifySession sid (·.counted)) with
  | mk result t =>
    refine ⟨result,t,rfl,?_⟩
    simp only [retried,run,List.foldl_cons,List.foldl_nil,apply,Command.start,hb,hu,if_true,
      List.getElem?_concat_length,resume,PhaseRun.step,put,hf,hr]
    cases result with
    | error e => simp [PhaseRun.granted,PhaseRun.finish,Except.toOption]
    | ok r => simp [PhaseRun.granted,PhaseRun.goto,Except.toOption]

/-- A `run_session` on the session returns without having committed everything. -/
def stops (sys : System) (sid : CompilerSessionId) : Event → Bool
  | .resume index w => sys.up && (match sys.calls[index]? with
      | some (.session run) => run.session=sid && run.pc ≠ .finish
      | _ => false) && match (sys.apply (.resume index w)).calls[index]? with
      | some (.drove (.ok _)) => true
      | _ => false
  | _ => false

/-- A `run_session` that returns an outcome before its end does not leave its session ACTIVE. -/
theorem drove_not_active {run : SessionRun} {calls : List Call} {rt : Runtime}
    {outcome : CompileOutcome} (hpc : run.pc ≠ .finish)
    (h : (run.step w calls rt).1=.drove (.ok outcome))
    (hs : (run.step w calls rt).2.2.find run.session=some s) : s.state ≠ .active := by
  unfold SessionRun.step at h hs
  cases hp : run.pc with
  | limit =>
    rw [hp] at h
    dsimp only at h
    split at h <;> cases h
  | ceiling =>
    rw [hp] at h
    dsimp only at h
    split at h <;> cases h
  | round =>
    rw [hp] at h hs
    dsimp only at h hs
    split at h
    · cases h
    · next hc =>
      rw [if_neg hc] at hs
      split at h
      · cases h
      · cases h
      · next hb =>
        rw [hb] at hs
        rw [Runtime.beginRound_blocked hb hs]
        decide
      · cases h
  | waiting children =>
    rw [hp] at h hs
    dsimp only at h hs
    split at h
    · cases h
    · next hc =>
      rw [hc] at hs
      dsimp only at hs
      split at h
      · cases h
      · next hr =>
        rw [hr] at hs
        dsimp only at hs
        split at h
        · cases h
        · next hl =>
          rw [hl] at hs
          exact Runtime.failIfActive_not_active hs
  | finish => exact absurd hp hpc

theorem stops_not_active {e : Event} (h : sys.stops sid e)
    (hs : (sys.apply e).rt.find sid=some s) : s.state ≠ .active := by
  cases e with
  | resume index w =>
    simp only [stops,Bool.and_eq_true] at h
    obtain ⟨⟨hu,hr⟩,hd⟩ := h
    split at hr
    · next run hc =>
      simp only [Bool.and_eq_true,decide_eq_true_eq] at hr
      obtain ⟨hr,hpc⟩ := hr
      subst hr
      split at hd
      · next outcome ho =>
        simp only [apply,hu,if_true,hc,resume] at ho hs
        have hi : index<sys.calls.length := (List.getElem?_eq_some_iff.1 hc).1
        rw [List.getElem?_append_left (by simpa using hi),List.getElem?_set_self hi] at ho
        exact drove_not_active hpc (Option.some.inj ho) hs
      · cases hd
    · cases hr
  | call | restart => cases h

/-- What a granted reservation shows of the state the retry found. -/
theorem Renewed.reopened {r : Reservation} (hu : sys.up) (hr : sys.rt.Retryable sid pid s p)
    (h : Renewed sys (sys.retried sid pid w) sid pid p r) : sys.rt.Reopened w s p := by
  have hne : (sys.retried sid pid w).granted ≠ sys.granted := by
    rw [h.granted]
    simp
  have hl : (sys.rt.retryDecision s p).legal := by
    by_contra hl
    exact hne (retried_refused hr.session hr.phase hl)
  have ⟨result,t,hx,_,hg⟩ := retried_permitted (w := w) hu hr.session hr.phase hl
  rcases Runtime.reserve_spec w sid pid hx with ⟨_,e,he,_⟩ | ⟨s',p',inputs,r',hres,_⟩
  · subst he
    exact absurd (by simpa [Except.toOption] using hg) hne
  have ha := (Runtime.admission_iff sid pid).1 hres.admitted
  have hs : ((sys.rt.facing w).modifySession sid (·.counted)).find sid=some s.counted := by
    have hs := hr.session
    simp only [Runtime.find,Runtime.modifySession,Runtime.facing] at hs ⊢
    simp [hs]
  cases hs.symm.trans ha.session
  cases hr.phase.symm.trans ha.phase
  refine ⟨ha.admits,hr.decision.1 hl,ha.room,ha.up,?_⟩
  rw [hres.workspace]
  rfl

/-- A session that is open again gives the phase its new attempt. -/
theorem Renewed.of_reopened (hu : sys.up) (hr : sys.rt.Retryable sid pid s p)
    (hj : (sys.retried sid pid w).rt.persistFailures=sys.rt.persistFailures)
    (ho : sys.rt.Reopened w s p) : ∃ r,Renewed sys (sys.retried sid pid w) sid pid p r := by
  have ⟨result,t,hx,ht,hg⟩ :=
    retried_permitted (w := w) hu hr.session hr.phase (hr.decision.2 ho.decided)
  have ⟨inputs,hi⟩ := hr.inputs
  have ha : Runtime.Admits sid pid true ((sys.rt.facing w).modifySession sid (·.counted))
      s.counted p inputs := by
    have hr' : (sys.rt.facing w).Retryable sid pid s p :=
      ⟨hr.session,hr.phase,hr.failed,hr.permitted,hr.ready,hr.current,hr.inputs⟩
    have ho' : (sys.rt.facing w).Reopened w s p :=
      ⟨ho.admits,ho.decided,ho.room,ho.up,ho.workspace⟩
    exact hr'.admits hi ho'
  have hadm := (Runtime.admission_iff sid pid).2 ha
  rcases Runtime.reserve_spec w sid pid hx with ⟨_,e,_,he | he⟩ | ⟨s',p',inputs',r,hres,hr'⟩
  · rw [hadm] at he
    cases he
  · have hw := ho.workspace
    rw [he] at hw
    cases hw
  have hfound := hres.admitted
  rw [hadm] at hfound
  cases hfound
  rcases hr' with hok | ⟨_,hlt⟩
  · refine ⟨r,?_,hres.session,hres.phase,hres.phaseGeneration,hres.attemptGeneration,hres.attempt,
      hres.invocation,?_,?_⟩
    · rw [hg,hok]
      rfl
    · have ⟨reason,hl⟩ := hres.granted
      exact congrArg Prod.fst hl
    · refine ⟨_,(congrArg (·.phase sid pid) ht).trans hres.record,
        Runtime.reserved_preparing r ha.startable _ _ _,?_⟩
      have ⟨history,state,he⟩ := Runtime.reserved_frame r p s.counted inputs true w.now
      rw [he]
      refine ⟨rfl,rfl,rfl,?_⟩
      simp [PhaseRecord.bound]
  · rw [ht] at hj
    have hle : ((sys.rt.facing w).modifySession sid (·.counted)).persistFailures=
      sys.rt.persistFailures := rfl
    omega

/-- After a `run_session` that stopped the session is not ACTIVE. From then on a phase of it that
could be retried is given a new attempt exactly when the session has been opened again. -/
theorem renewed_iff_reopened {e : Event} (h : sys.stops sid e) :
    (∀ s,(sys.apply e).rt.find sid=some s → s.state ≠ .active) ∧
    ∀ events w pid s p,((sys.apply e).run events).up →
      ((sys.apply e).run events).rt.Retryable sid pid s p →
      (((sys.apply e).run events).retried sid pid w).rt.persistFailures=
        ((sys.apply e).run events).rt.persistFailures →
      ((∃ r,Renewed ((sys.apply e).run events) (((sys.apply e).run events).retried sid pid w)
        sid pid p r) ↔ ((sys.apply e).run events).rt.Reopened w s p) := by
  refine ⟨fun s hs => stops_not_active h hs,?_⟩
  intro events w pid s p
  generalize (sys.apply e).run events=sys
  intro hu hr hj
  refine ⟨?_,Renewed.of_reopened hu hr hj⟩
  rintro ⟨r,h⟩
  exact h.reopened hu hr

end System

namespace Sample

/-- A compiler that crashes. -/
def crashed : World :=
  { world with execution := .ok { executed := true
                                  process := { id := ⟨1⟩,termination := .crashed } } }

/-- Two phases that feed a link. -/
def forked : World :=
  { world with localPlan := PhasePlan.build [{ id := ⟨1⟩,kind := .codegen },
      { id := ⟨2⟩,kind := .codegen },{ id := ⟨3⟩,kind := .link,dependsOn := [⟨1⟩,⟨2⟩] }] }

/-- A `run_session` whose first phase has crashed, about to return. -/
def stalled : System := (ready.apply (.call (.createSession
    { request with policy := { allowParallelPhases := false } }) forked)).run
  (.call (.runSession ⟨1⟩) crashed::(List.replicate 3 (.resume 2 crashed)++
    List.replicate 5 (.resume 3 crashed)))

/-- A second `run_session` that has taken up the other phase. -/
def reopening : List Event :=
  .call (.runSession ⟨1⟩) world::List.replicate 3 (.resume 4 world)

end Sample

namespace System

/-- A retry after the second `run_session` has opened the session again. -/
theorem renewed_of_stalled : ∃ p r,
    Renewed ((Sample.stalled.apply (.resume 2 Sample.crashed)).run Sample.reopening)
      (((Sample.stalled.apply (.resume 2 Sample.crashed)).run Sample.reopening).retried ⟨1⟩ ⟨1⟩
        Sample.world) ⟨1⟩ ⟨1⟩ p r := by
  have ⟨_,hiff⟩ := renewed_iff_reopened (by decide +kernel :
    Sample.stalled.stops ⟨1⟩ (.resume 2 Sample.crashed))
  have ⟨s,p,hr⟩ := Runtime.Retryable.of_retryable (by decide +kernel :
    ((Sample.stalled.apply (.resume 2 Sample.crashed)).run Sample.reopening).rt.retryable ⟨1⟩ ⟨1⟩)
  have ho : (((Sample.stalled.apply (.resume 2 Sample.crashed)).run Sample.reopening).rt.find ⟨1⟩).any
      fun s => s.state.admitsNewAuthority && (s.findPhase ⟨1⟩).any fun p =>
        p.failure ≠ .unknownOutcome && p.attempts.length<kMaxPhaseAttempts := by decide +kernel
  simp only [hr.session,hr.phase,Option.any_some,Bool.and_eq_true,decide_eq_true_eq] at ho
  have ⟨r,h⟩ := (hiff Sample.reopening Sample.world ⟨1⟩ s p (by decide +kernel) hr
    (by decide +kernel)).2 ⟨ho.1,ho.2.1,ho.2.2,by decide +kernel,rfl⟩
  exact ⟨p,r,h⟩

/-- A crashed phase with both ceilings ahead is refused its retry: the `run_session` that stopped
has failed the session. -/
theorem not_renewed_of_stalled :
    Sample.stalled.stops ⟨1⟩ (.resume 2 Sample.crashed) ∧
    (∃ s p,(Sample.stalled.apply (.resume 2 Sample.crashed)).rt.Retryable ⟨1⟩ ⟨1⟩ s p) ∧
    ∀ p r,¬Renewed (Sample.stalled.apply (.resume 2 Sample.crashed))
      ((Sample.stalled.apply (.resume 2 Sample.crashed)).retried ⟨1⟩ ⟨1⟩ Sample.world)
      ⟨1⟩ ⟨1⟩ p r := by
  refine ⟨by decide +kernel,Runtime.Retryable.of_retryable (by decide +kernel),?_⟩
  intro p r h
  have hl : ((Sample.stalled.apply (.resume 2 Sample.crashed)).retried ⟨1⟩ ⟨1⟩
      Sample.world).granted.length=
    (Sample.stalled.apply (.resume 2 Sample.crashed)).granted.length := by decide +kernel
  rw [h.granted,List.length_append] at hl
  exact absurd hl (by simp)

end System

end CompilerFabric
