import CompilerFabric.Law.Recovered
import CompilerFabric.Law.Retry

namespace CompilerFabric

open Base Base.Action

namespace CompilerSession

theorem resumed_eq (s : CompilerSession) (now : UInt64) : ∃ phases,s.resumed now={ s with phases } := by
  unfold resumed
  generalize s.plan.order=order
  induction order generalizing s with
  | nil => exact ⟨s.phases,rfl⟩
  | cons id rest ih => exact ih _

variable {s : CompilerSession} {plan : RecoveryPlan} (now : UInt64)

/-- The session `apply_recovery` leaves where no operator has to decide. -/
theorem afterRecovery_eq (ho : plan.requiresOperator=false) :
    ∃ phases,s.afterRecovery plan now={ s with
      phases
      recovery := plan.id
      recoveryGeneration := plan.generation
      recoveryState := .resolved
      state := if s.state=.recovering then .active else s.state
      generation := s.generation.next
      updatedAtNanos := now } := by
  rw [afterRecovery,ho,reopened]
  by_cases hs : s.state=.recovering
  · obtain ⟨phases,hp⟩ := (s.planned plan).resumed_eq now
    have hs' : (s.planned plan).state=.recovering := hs
    refine ⟨phases,?_⟩
    rw [if_pos ⟨hs',rfl⟩,hp,if_pos hs]
    simp [planned,advanced,touched,ho]
  · have hs' : (s.planned plan).state ≠ .recovering := hs
    refine ⟨s.phases,?_⟩
    rw [if_neg fun h => hs' h.1,if_neg (by decide),if_neg hs]
    simp [planned,advanced,touched,ho]

/-- A phase of the plan is taken up with its session. -/
theorem findPhase_reopened {pid : CompilerPhaseId} {p : PhaseRecord}
    (ho : plan.requiresOperator=false) (hp : s.findPhase pid=some p) (hm : pid ∈ s.plan.order) :
    ∃ p',(s.afterRecovery plan now).findPhase pid=some p' ∧ p.Resumes p' ∧
      p'.state=if s.state=.recovering then p.state.resumed else p.state := by
  have hp' : (s.planned plan).findPhase pid=some p := hp
  rw [afterRecovery,ho,reopened]
  by_cases hs : s.state=.recovering
  · have hs' : (s.planned plan).state=.recovering := hs
    obtain ⟨p',hf,hr,hst⟩ := (s.planned plan).findPhase_resumed now pid hp'
    refine ⟨p',?_,hr,?_⟩
    · rw [if_pos ⟨hs',rfl⟩]
      exact hf
    · rw [if_pos hs]
      exact hst hm
  · have hs' : (s.planned plan).state ≠ .recovering := hs
    refine ⟨p,?_,.refl p,?_⟩
    · rw [if_neg fun h => hs' h.1,if_neg (by decide)]
      exact hp'
    · rw [if_neg hs]

variable {now} in
theorem hasCommitted_afterRecovery (pid : CompilerPhaseId) :
    (s.afterRecovery plan now).hasCommitted pid=s.hasCommitted pid := by
  have h := s.findPhase_afterRecovery plan now pid
  rw [Bool.eq_iff_iff,hasCommitted,hasCommitted,Option.any_eq_true,Option.any_eq_true]
  refine exists_congr fun p => and_congr_left fun hc => ?_
  exact PhaseRecord.Resumes.kept h (of_decide_eq_true hc)

end CompilerSession

namespace Runtime

variable {rt t : Runtime} {w : World} {sid : CompilerSessionId} {plan : RecoveryPlan}
  {session : CompilerSession}

/-- One output of a producer, as `resolve_inputs` takes it. -/
def givenOutput (rt : Runtime) (output : Ref .intermediate) : Result (Ref .intermediate) := do
  let artifact ← (rt.artifacts.find output.id).elim (.error ⟨.notFound,
    ascii "producer output is not registered: "++output.id.toText⟩) .ok
  ensure (artifact.authority=.authoritative ∧ artifact.state.isConsumable)
    ⟨.fanInInconsistent,ascii "producer output is not authoritative: "++output.id.toText⟩
  return ⟨artifact.id,artifact.generation⟩

theorem givenOutput_ok {output x : Ref .intermediate} : rt.givenOutput output=.ok x ↔
    ∃ a,rt.artifacts.find output.id=some a ∧ a.authority=.authoritative ∧ a.state.isConsumable ∧
      (⟨a.id,a.generation⟩ : Ref .intermediate)=x := by
  unfold givenOutput
  cases rt.artifacts.find output.id with
  | none => simp [do_eq_ok]
  | some a => simp [do_eq_ok,ensure_ok,and_assoc,pure,Except.pure]

theorem inputsFrom_ok {dependency : CompilerPhaseId} {inputs : List (Ref .intermediate)} :
    rt.inputsFrom session dependency=.ok inputs ↔ ∃ producer,
      session.findPhase dependency=some producer ∧ producer.state=.committed ∧
      producer.outputs.mapM rt.givenOutput=.ok inputs := by
  unfold inputsFrom
  simp only [do_eq_ok,requirePhase_ok,ensure_ok]
  constructor
  · rintro ⟨producer,hp,_,hc,hm⟩
    exact ⟨producer,hp,hc,hm⟩
  · rintro ⟨producer,hp,hc,hm⟩
    exact ⟨producer,hp,(),hc,hm⟩

section Inputs

variable {s : CompilerSession}
  (hp : ∀ pid,Option.Rel PhaseRecord.Resumes (session.findPhase pid) (s.findPhase pid))
  (same : ∀ id,rt.artifacts.upholds id=true → t.artifacts.find id=rt.artifacts.find id)
  (gains : ∀ id,rt.artifacts.upholds id=false → t.artifacts.upholds id=false)
include same gains

theorem givenOutput_iff (output x : Ref .intermediate) :
    t.givenOutput output=.ok x ↔ rt.givenOutput output=.ok x := by
  have up {u : Runtime} {a : IntermediateArtifact} (hf : u.artifacts.find output.id=some a)
      (ha : a.authority=.authoritative) : u.artifacts.upholds output.id=true := by
    simp [ArtifactRegistry.upholds,hf,ha]
  rw [givenOutput_ok,givenOutput_ok]
  refine exists_congr fun a => ⟨?_,?_⟩
  · rintro ⟨hf,ha,h⟩
    have hup : rt.artifacts.upholds output.id=true := by
      by_contra hn
      have hno := gains output.id (Bool.eq_false_of_not_eq_true hn)
      rw [up hf ha] at hno
      cases hno
    exact ⟨(same _ hup).symm.trans hf,ha,h⟩
  · rintro ⟨hf,ha,h⟩
    exact ⟨(same _ (up hf ha)).trans hf,ha,h⟩

include hp

/-- The inputs that committed producers give are given again after a recovery. -/
theorem inputsFrom_iff {dependency : CompilerPhaseId} {inputs : List (Ref .intermediate)} :
    t.inputsFrom s dependency=.ok inputs ↔ rt.inputsFrom session dependency=.ok inputs := by
  rw [inputsFrom_ok,inputsFrom_ok]
  have hm (outputs : List (Ref .intermediate)) : outputs.mapM t.givenOutput=.ok inputs ↔
      outputs.mapM rt.givenOutput=.ok inputs :=
    mapM_ok_congr fun output _ x => givenOutput_iff same gains output x
  refine exists_congr fun producer => ?_
  constructor
  · rintro ⟨hf,hc,ho⟩
    exact ⟨(PhaseRecord.Resumes.kept (hp dependency) hc).1 hf,hc,(hm _).1 ho⟩
  · rintro ⟨hf,hc,ho⟩
    exact ⟨(PhaseRecord.Resumes.kept (hp dependency) hc).2 hf,hc,(hm _).2 ho⟩

theorem resolveInputs_iff {p p' : PhaseRecord} {inputs : List (Ref .intermediate)}
    (hplan : s.plan=session.plan) (hid : p'.id=p.id) :
    t.resolveInputs s p'=.ok inputs ↔ rt.resolveInputs session p=.ok inputs := by
  unfold resolveInputs
  rw [hplan,hid]
  simp only [do_eq_ok]
  refine exists_congr fun node => and_congr_right fun _ => exists_congr fun found => ?_
  exact and_congr_left fun _ => mapM_ok_congr fun dependency _ found =>
    inputsFrom_iff hp same gains

end Inputs

/-- `run_phase` or `retry_phase` comes to hold a reservation on the phase: the checks of
`reserve` pass, in a retry after its decision. -/
def Reservable (rt : Runtime) (sid : CompilerSessionId) (pid : CompilerPhaseId) : Prop :=
  (∃ admitted,rt.admission sid pid false=.ok admitted) ∨
  ∃ decision u,beginRetry sid pid rt=(.ok (decision,none),u) ∧
    ∃ admitted,u.admission sid pid true=.ok admitted

/-- What the session has to be like for a recovery to leave the phase reservable. -/
structure Restartable (rt : Runtime) (session : CompilerSession) (pid : CompilerPhaseId)
    (phase : PhaseRecord) : Prop where
  up : rt.shuttingDown=false
  open_ : session.state ∈ [SessionState.created,.active,.recovering]
  found : session.findPhase pid=some phase
  live : phase.state ∉ [PhaseState.committed,.fenced,.cancelled,.retired]
  idle : phase.state ∈ [PhaseState.preparing,.running,.produced,.validating,.commitReady] →
    session.state=.recovering
  retried : phase.state=.failed → (rt.retryDecision session phase).legal
  ready : session.plan.isReady pid session.committedPhases
  current : rt.reserveVerdict session phase=.valid
  inputs : ∃ inputs,rt.resolveInputs session phase=.ok inputs
  room : phase.attempts.length<kMaxPhaseAttempts

theorem Admits.congr {pid : CompilerPhaseId} {isRetry : Bool} {s s' : CompilerSession}
    {p : PhaseRecord} {inputs : List (Ref .intermediate)} (h : Admits sid pid isRetry rt s p inputs)
    (hup : t.shuttingDown=rt.shuttingDown) (hs : t.find sid=some s')
    (hst : s'.state.admitsNewAuthority=s.state.admitsNewAuthority)
    (hp : s'.findPhase pid=s.findPhase pid)
    (hready : s'.plan.isReady pid s'.committedPhases=s.plan.isReady pid s.committedPhases)
    (hv : t.reserveVerdict s' p=rt.reserveVerdict s p)
    (hi : t.resolveInputs s' p=rt.resolveInputs s p) : Admits sid pid isRetry t s' p inputs :=
  ⟨hup.trans h.up,hs,hst.trans h.admits,hp.trans h.phase,h.startable,hready.trans h.ready,
    hv.trans h.current,hi.trans h.inputs,h.room⟩

/-- A retry that is not refused has its session and phase, and is counted. -/
theorem beginRetry_permits {pid : CompilerPhaseId} {decision : RetryDecision}
    (h : beginRetry sid pid rt=(.ok (decision,none),t)) : ∃ s p,rt.find sid=some s ∧
      s.findPhase pid=some p ∧ (rt.retryDecision s p).legal ∧
      t=rt.modifySession sid (·.counted) := by
  cases hs : rt.find sid with
  | none => simp [beginRetry,bind_apply,requireSession,hs] at h
  | some s =>
    cases hp : s.findPhase pid with
    | none => simp [beginRetry,bind_apply,requireSession,hs,CompilerSession.requirePhase,hp] at h
    | some p =>
      by_cases hl : (rt.retryDecision s p).legal
      · rw [beginRetry_legal hs hp hl] at h
        cases h
        exact ⟨s,p,rfl,hp,hl,rfl⟩
      · obtain ⟨report,hr⟩ := beginRetry_refused hs hp hl
        rw [hr] at h
        cases h

theorem reservable_iff {pid : CompilerPhaseId} : rt.Reservable sid pid ↔ ∃ s p inputs,
    Admits sid pid false rt s p inputs ∨
      Admits sid pid true rt s p inputs ∧ (rt.retryDecision s p).legal := by
  have counted {s : CompilerSession} (hs : rt.find sid=some s) :
      (rt.modifySession sid (·.counted)).find sid=some s.counted := by
    have hf : rt.sessions[sid.value]?=some s := hs
    show (rt.sessions.modify sid.value _)[sid.value]?=_
    rw [Std.ExtTreeMap.getElem?_modify_self,hf]
    rfl
  constructor
  · rintro (⟨⟨s,p,inputs⟩,h⟩ | ⟨decision,u,hb,⟨s',p',inputs⟩,h⟩)
    · exact ⟨s,p,inputs,.inl ((admission_iff sid pid).1 h)⟩
    · obtain ⟨s,p,hs,hp,hl,rfl⟩ := beginRetry_permits hb
      have ha := (admission_iff sid pid).1 h
      have he := ha.session
      rw [counted hs] at he
      cases he
      have hq : s.findPhase pid=some p' := ha.phase
      rw [hp] at hq
      cases hq
      exact ⟨s,p',inputs,.inr ⟨Admits.congr (t := rt) ha rfl hs rfl rfl rfl rfl rfl,hl⟩⟩
  · rintro ⟨s,p,inputs,h | ⟨h,hl⟩⟩
    · exact .inl ⟨_,(admission_iff sid pid).2 h⟩
    · have ha : Admits sid pid true (rt.modifySession sid (·.counted)) s.counted p inputs :=
        h.congr rfl (counted h.session) rfl rfl rfl rfl rfl
      exact .inr ⟨_,_,beginRetry_legal h.session h.phase hl,_,(admission_iff sid pid).2 ha⟩

/-- The states from which a recovery leaves a phase to be run, or to be retried. -/
theorem startable_resumed (s : PhaseState) (recovering : Prop) [Decidable recovering] :
    (startable false (if recovering then s.resumed else s) ↔
      s ∉ [PhaseState.committed,.fenced,.cancelled,.retired] ∧ s ≠ .failed ∧
        (s ∈ [PhaseState.preparing,.running,.produced,.validating,.commitReady] → recovering)) ∧
    (startable true (if recovering then s.resumed else s) →
      s ∉ [PhaseState.committed,.fenced,.cancelled,.retired] ∧
        s ∉ [PhaseState.preparing,.running,.produced,.validating,.commitReady]) := by
  by_cases hr : recovering
  · simp only [hr,if_true]
    cases s <;> decide
  · simp only [hr,if_false]
    cases s <;> decide

/-- A recovery leaves what `reserve` compares a session with as it was. -/
theorem reserveVerdict_recovered {p p' : PhaseRecord} (h : Recovered rt plan sid w.now session t)
    (ho : plan.requiresOperator=false) (hp : p.Resumes p') :
    t.reserveVerdict (session.afterRecovery plan w.now) p'=rt.reserveVerdict session p := by
  obtain ⟨phases,hs⟩ := session.afterRecovery_eq w.now ho
  obtain ⟨_,_,_,_,hq⟩ := hp.rest
  have hstate : ((if session.state=.recovering then SessionState.active else
      session.state).admitsNewAuthority || decide ((if session.state=.recovering then
      SessionState.active else session.state)=.recovering))=
      (session.state.admitsNewAuthority || decide (session.state=.recovering)) := by
    cases session.state <;> decide
  rw [hq,hs]
  simp only [reserveVerdict,observe,authorityFromSession,h.toolchains,h.targets,h.environments,
    h.policies,h.sources,hstate]
  -- the bound generation of the session is also the observed one
  simp only [compareAuthority,ne_eq,not_true_eq_false,if_false]

/-- The phase a plan restarts is one of the session's plan. -/
theorem restarts_ordered {step : RecoveryStep} (h : rt.planRecoveryOf sid=.ok plan)
    (hs : rt.find sid=some session) (hm : step ∈ plan.steps) (hq : step.outcome=.restartPhase) :
    step.phase ∈ session.plan.order := by
  unfold planRecoveryOf at h
  obtain ⟨s,hreq,h⟩ := do_eq_ok.1 h
  rw [requireSession_ok,hs] at hreq
  cases hreq
  cases h
  rcases mem_planRecovery_steps hm with ⟨_,ho⟩ | ⟨phase,hphase,rfl⟩
  · rw [hq] at ho
    cases ho
  · have hp : (restartStep (orderedPhaseRecords session) (decide (session.state=.recovering) ||
        decide (session.recoveryState=.required)) phase).1.phase=phase := by
      unfold restartStep
      split
      · split_ifs <;> rfl
      · rfl
    rw [hp]
    exact List.mem_of_find?_eq_some hphase

/-- A recovery admits a phase on what its session was before it, but for the state of the phase. -/
theorem admits_recovered_iff {pid : CompilerPhaseId} {p q : PhaseRecord} {isRetry : Bool}
    {inputs : List (Ref .intermediate)} (h : Recovered rt plan sid w.now session t)
    (hplan : rt.planRecoveryOf sid=.ok plan) (ho : plan.requiresOperator=false)
    (hq : (session.afterRecovery plan w.now).findPhase pid=some q) (hres : p.Resumes q) :
    Admits sid pid isRetry t (session.afterRecovery plan w.now) q inputs ↔
      rt.shuttingDown=false ∧ session.state ∈ [SessionState.created,.active,.recovering] ∧
      startable isRetry q.state ∧ session.plan.isReady pid session.committedPhases ∧
      rt.reserveVerdict session p=.valid ∧ rt.resolveInputs session p=.ok inputs ∧
      p.attempts.length<kMaxPhaseAttempts := by
  obtain ⟨phases,hs⟩ := session.afterRecovery_eq w.now ho
  obtain ⟨_,_,_,_,hrest⟩ := hres.rest
  have hstate : (session.afterRecovery plan w.now).state.admitsNewAuthority=true ↔
      session.state ∈ [SessionState.created,.active,.recovering] := by
    have hst : (session.afterRecovery plan w.now).state=
        if session.state=.recovering then .active else session.state := by rw [hs]
    rw [hst]
    cases session.state <;> decide
  have hplan' : (session.afterRecovery plan w.now).plan=session.plan := by rw [hs]
  have hready : (session.afterRecovery plan w.now).plan.isReady pid
      (session.afterRecovery plan w.now).committedPhases=
      session.plan.isReady pid session.committedPhases := by
    have hc : (session.afterRecovery plan w.now).hasCommitted=session.hasCommitted :=
      funext fun id => CompilerSession.hasCommitted_afterRecovery id
    rw [CompilerSession.committedPhases,CompilerSession.committedPhases,hplan',hc]
  have hcurrent := reserveVerdict_recovered h ho hres
  have hinputs : t.resolveInputs (session.afterRecovery plan w.now) q=.ok inputs ↔
      rt.resolveInputs session p=.ok inputs :=
    resolveInputs_iff (session.findPhase_afterRecovery plan w.now) (fun _ => h.upheld hplan)
      h.artifacts.gains hplan' (by rw [hrest])
  have hattempts : q.attempts=p.attempts := by rw [hrest]
  constructor
  · rintro ⟨hup,_,hopen,_,hstart,hr,hc,hi,hroom⟩
    exact ⟨h.shuttingDown.symm.trans hup,hstate.1 hopen,hstart,hready.symm.trans hr,
      hcurrent.symm.trans hc,hinputs.1 hi,by rwa [← hattempts]⟩
  · rintro ⟨hup,hopen,hstart,hr,hc,hi,hroom⟩
    exact ⟨h.shuttingDown.trans hup,h.left,hstate.2 hopen,hq,hstart,hready.trans hr,
      hcurrent.trans hc,hinputs.2 hi,by rwa [hattempts]⟩

/-- The phase a recovery plan restarts can be reserved after `apply_recovery` exactly when the
session is still open and its record, authority and inputs let it: above all, when no restart has
fenced it. -/
theorem recovery_progress_iff {rt₁ : Runtime} {step : RecoveryStep}
    (hb : beginRecovery sid rt=(.ok plan,rt₁)) (he : endRecovery w sid plan rt₁=(.ok (),t))
    (hs : rt.find sid=some session) (ho : plan.requiresOperator=false) (hm : step ∈ plan.steps)
    (hq : step.outcome=.restartPhase) :
    t.Reservable sid step.phase ↔ ∃ phase,rt.Restartable session step.phase phase := by
  obtain ⟨hplan,s,hr⟩ := recovered_of_ok hb he
  have hfound := hr.found
  rw [hs] at hfound
  cases hfound
  have hord := restarts_ordered hplan hs hm hq
  generalize step.phase=pid at hord ⊢
  have hretry (p : PhaseRecord) : t.retryDecision (session.afterRecovery plan w.now) p=
      rt.retryDecision session p := by
    obtain ⟨phases,hs'⟩ := session.afterRecovery_eq w.now ho
    rw [retryDecision,retryDecision,hs',hr.policies]
  rw [reservable_iff]
  constructor
  · rintro ⟨s',p',inputs,h⟩
    obtain ⟨isRetry,ha,hl⟩ : ∃ isRetry,Admits sid pid isRetry t s' p' inputs ∧
        (isRetry → (t.retryDecision s' p').legal) := by
      rcases h with h | ⟨h,hl⟩
      · exact ⟨false,h,fun hn => by cases hn⟩
      · exact ⟨true,h,fun _ => hl⟩
    cases hr.left.symm.trans ha.session
    obtain ⟨p,hp₀⟩ : ∃ p,session.findPhase pid=some p := by
      have hrel := session.findPhase_afterRecovery plan w.now pid
      rw [ha.phase] at hrel
      cases hp₀ : session.findPhase pid with
      | none =>
        rw [hp₀] at hrel
        cases hrel
      | some p => exact ⟨p,rfl⟩
    obtain ⟨q,hq,hres,hst⟩ := CompilerSession.findPhase_reopened w.now ho hp₀ hord
    cases hq.symm.trans ha.phase
    obtain ⟨hup,hopen,hst',hready,hcurrent,hinputs,hroom⟩ :=
      (admits_recovered_iff hr hplan ho hq hres).1 ha
    rw [hst] at hst'
    have hcase : p.state ∉ [PhaseState.committed,.fenced,.cancelled,.retired] ∧
        (p.state ∈ [PhaseState.preparing,.running,.produced,.validating,.commitReady] →
          session.state=.recovering) ∧ (p.state=.failed → isRetry=true) := by
      cases isRetry with
      | false =>
        obtain ⟨hlive,hfailed,hidle⟩ := (startable_resumed _ _).1.1 hst'
        exact ⟨hlive,hidle,fun hf => absurd hf hfailed⟩
      | true =>
        obtain ⟨hlive,hidle⟩ := (startable_resumed _ _).2 hst'
        exact ⟨hlive,fun hin => absurd hin hidle,fun _ => rfl⟩
    refine ⟨p,hup,hopen,hp₀,hcase.1,hcase.2.1,fun hf => ?_,hready,hcurrent,⟨inputs,hinputs⟩,hroom⟩
    have hkept := hres.ended (by rw [hf]; decide)
    rw [← hretry,← hkept]
    exact hl (hcase.2.2 hf)
  · rintro ⟨p,h⟩
    obtain ⟨p',hp',hres,hst⟩ := CompilerSession.findPhase_reopened w.now ho h.found hord
    obtain ⟨inputs,hi⟩ := h.inputs
    have ha {isRetry : Bool} (hst' : startable isRetry p'.state) :
        Admits sid pid isRetry t (session.afterRecovery plan w.now) p' inputs :=
      (admits_recovered_iff hr hplan ho hp' hres).2
        ⟨h.up,h.open_,hst',h.ready,h.current,hi,h.room⟩
    refine ⟨session.afterRecovery plan w.now,p',inputs,?_⟩
    by_cases hf : p.state=.failed
    · have hkept := hres.ended (by rw [hf]; decide)
      refine .inr ⟨ha ?_,?_⟩
      · rw [hkept,hf]
        rfl
      · rw [hretry,hkept]
        exact h.retried hf
    · refine .inl (ha ?_)
      rw [hst]
      exact (startable_resumed _ _).1.2 ⟨h.live,hf,h.idle⟩

/-- A phase that was in flight when the process ended: the plan restarts it, and the recovery
retires it. -/
theorem restart_refused_after_recovery : ∃ plan rt₁ t step,
    beginRecovery ⟨1⟩ (Sample.revived (Sample.compiled 2))=(.ok plan,rt₁) ∧
    endRecovery (rt₁.showing Sample.onDisk Sample.world) ⟨1⟩ plan rt₁=(.ok (),t) ∧
    plan.requiresOperator=false ∧ step ∈ plan.steps ∧ step.outcome=.restartPhase ∧
    ¬t.Reservable ⟨1⟩ step.phase := by
  have h : ((Sample.mended Sample.onDisk (Sample.revived (Sample.compiled 2))).any
      fun x => !x.1.requiresOperator && x.1.steps.any fun step =>
        decide (step.outcome=.restartPhase) && (x.2.find ⟨1⟩).any fun s =>
          (s.findPhase step.phase).any (·.state=.retired))=true := by
    decide +kernel
  generalize Sample.revived (Sample.compiled 2)=rt at h ⊢
  obtain ⟨⟨plan,t⟩,hm,h⟩ := (Option.any_eq_true _ _).1 h
  obtain ⟨ho,h⟩ := Bool.and_eq_true_iff.1 h
  obtain ⟨step,hstep,h⟩ := List.any_eq_true.1 h
  obtain ⟨hq,h⟩ := Bool.and_eq_true_iff.1 h
  obtain ⟨s,hs,h⟩ := (Option.any_eq_true _ _).1 h
  obtain ⟨p,hp,hr⟩ := (Option.any_eq_true _ _).1 h
  obtain ⟨rt₁,hb,he⟩ := of_mended hm
  refine ⟨plan,rt₁,t,step,hb,he,by simpa using ho,hstep,of_decide_eq_true hq,fun hn => ?_⟩
  obtain ⟨s',p',inputs,ha⟩ := reservable_iff.1 hn
  obtain ⟨isRetry,ha⟩ : ∃ isRetry,Admits ⟨1⟩ step.phase isRetry t s' p' inputs := by
    rcases ha with ha | ⟨ha,_⟩
    · exact ⟨false,ha⟩
    · exact ⟨true,ha⟩
  cases hs.symm.trans ha.session
  cases hp.symm.trans ha.phase
  have hst := ha.startable
  rw [of_decide_eq_true hr] at hst
  revert hst
  cases isRetry <;> decide

/-- A phase that had not begun is there to be run. -/
theorem reservable_after_recovery : ∃ plan rt₁ t step,
    beginRecovery ⟨1⟩ (Sample.revived Sample.created.rt)=(.ok plan,rt₁) ∧
    endRecovery (rt₁.showing Sample.onDisk Sample.world) ⟨1⟩ plan rt₁=(.ok (),t) ∧
    plan.requiresOperator=false ∧ step ∈ plan.steps ∧ step.outcome=.restartPhase ∧
    t.Reservable ⟨1⟩ step.phase := by
  have h : ((Sample.mended Sample.onDisk (Sample.revived Sample.created.rt)).any
      fun x => !x.1.requiresOperator && x.1.steps.any fun step =>
        decide (step.outcome=.restartPhase) && ((Sample.revived Sample.created.rt).find ⟨1⟩).any
          fun s => (s.findPhase step.phase).any fun p =>
            decide (p.state=.pending ∧ s.state=.recovering ∧
              (Sample.revived Sample.created.rt).shuttingDown=false ∧
              s.plan.isReady step.phase s.committedPhases ∧
              (Sample.revived Sample.created.rt).reserveVerdict s p=.valid ∧
              p.attempts.length<kMaxPhaseAttempts) &&
            ((Sample.revived Sample.created.rt).resolveInputs s p).toBool)=true := by
    decide +kernel
  generalize Sample.revived Sample.created.rt=rt at h ⊢
  obtain ⟨⟨plan,t⟩,hm,h⟩ := (Option.any_eq_true _ _).1 h
  obtain ⟨ho,h⟩ := Bool.and_eq_true_iff.1 h
  obtain ⟨step,hstep,h⟩ := List.any_eq_true.1 h
  obtain ⟨hq,h⟩ := Bool.and_eq_true_iff.1 h
  obtain ⟨s,hs,h⟩ := (Option.any_eq_true _ _).1 h
  obtain ⟨p,hp,h⟩ := (Option.any_eq_true _ _).1 h
  obtain ⟨h,hi⟩ := Bool.and_eq_true_iff.1 h
  obtain ⟨hpending,hrecovering,hup,hready,hcurrent,hroom⟩ := of_decide_eq_true h
  obtain ⟨rt₁,hb,he⟩ := of_mended hm
  have ho : plan.requiresOperator=false := by simpa using ho
  have hq := of_decide_eq_true hq
  refine ⟨plan,rt₁,t,step,hb,he,ho,hstep,hq,?_⟩
  refine (recovery_progress_iff hb he hs ho hstep hq).2 ⟨p,hup,?_,hp,?_,fun _ => hrecovering,?_,
    hready,hcurrent,?_,hroom⟩
  · rw [hrecovering]
    decide
  · rw [hpending]
    decide
  · intro hf
    rw [hpending] at hf
    cases hf
  · cases hr : rt.resolveInputs s p with
    | error e =>
      rw [hr] at hi
      cases hi
    | ok inputs => exact ⟨inputs,rfl⟩

end Runtime

end CompilerFabric
