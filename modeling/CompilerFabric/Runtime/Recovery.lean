import CompilerFabric.Runtime.Session

namespace CompilerFabric

open Base Base.Action

inductive RecoveryOutcome
  | none | restartPhase | resumeFromCommittedPhase | revalidateIntermediate
  | rebuildIntermediate | restartSession | cancel | terminalFailure
  | manualResolutionRequired | unsupported
deriving DecidableEq

structure RecoveryStep where
  outcome : RecoveryOutcome := .none
  phase : CompilerPhaseId := {}
  reason : Bytes := []
  requiresToolchainRevalidation : Bool := false
  requiresEnvironmentRevalidation : Bool := false
  requiresIntermediateRevalidation : Bool := false
  affectedArtifacts : List (Ref .intermediate) := []
deriving DecidableEq

structure RecoveryPlan where
  id : RecoveryId := {}
  generation : RecoveryGeneration := {}
  session : Ref .session := {}
  headline : RecoveryOutcome := .none
  steps : List RecoveryStep := []
  legal : Bool := false
  requiresOperator : Bool := false
  rationale : Bytes := []
deriving DecidableEq

/-- The binding a committed phase recorded, against what is registered now. -/
def boundaryHolds (authority : AuthorityObservation) (phase : PhaseRecord) : Bool :=
  let bound : PhaseAuthority :=
    { sessionGeneration := phase.sessionGeneration
      compilationGeneration := phase.compilationGeneration
      attemptGeneration := phase.attemptGeneration
      phaseGeneration := phase.generation
      toolchain := phase.toolchain
      target := phase.target
      environment := phase.environment
      policy := phase.policy
      source := phase.source
      irGeneration := phase.irGeneration
      lease := phase.lease }
  compareAuthority bound { authority with
    phaseGeneration := phase.generation
    attemptGeneration := phase.attemptGeneration
    sessionGeneration := phase.sessionGeneration }=.valid

/-- `recovery_restart_phase`; nothing when every mandatory phase is a legal boundary. -/
def recoveryRestartPhase (plan : PhasePlan) (phases : List PhaseRecord)
    (authority : AuthorityObservation) : Option CompilerPhaseId :=
  plan.order.find? fun id => (plan.find id).any (·.mandatory) &&
    match phases.find? (·.id=id) with
    | none => true
    | some phase => phase.state ≠ .committed || !boundaryHolds authority phase

/-- Outputs of committed phases that are not authoritative any more. -/
def suspectArtifacts (phases : List PhaseRecord) (artifacts : ArtifactRegistry) :
    List (Ref .intermediate) :=
  (phases.filter (·.state=.committed)).flatMap fun phase => phase.outputs.filter fun output =>
    !(artifacts.find output.id).any (·.authority=.authoritative)

/-- The step that restarts a phase, and whether an operator must decide. -/
def restartStep (phases : List PhaseRecord) (afterRestart : Bool) (phase : CompilerPhaseId) :
    RecoveryStep × Bool :=
  match phases.find? (·.id=phase) with
  | some found =>
      if found.state=.committed then
        ({ phase,outcome := .rebuildIntermediate,affectedArtifacts := found.outputs
           reason := ascii ("phase committed under an authority generation that has since "++
             "moved; its outputs are revoked and must be rebuilt") },false)
      else if found.state=.failed ∧ found.failure=.unknownOutcome then
        ({ phase,outcome := .manualResolutionRequired
           reason := ascii "previous attempt outcome is UNKNOWN; a human must decide" },true)
      else (plain,false)
  | none => (plain,false)
where
  plain : RecoveryStep :=
    { phase,outcome := .restartPhase
      reason := ascii (if afterRestart then
          "runtime restart: in-flight process state is not resumable, so the phase restarts "++
            "from the last authoritative boundary"
        else "phase is not committed under current authority") }

/-- `RecoveryPlanner::plan`. -/
def planRecovery (plan : PhasePlan) (phases : List PhaseRecord) (artifacts : ArtifactRegistry)
    (authority : AuthorityObservation) (afterRestart : Bool) : RecoveryPlan :=
  let suspect := suspectArtifacts phases artifacts
  let revalidate : RecoveryStep :=
    { outcome := .revalidateIntermediate
      requiresToolchainRevalidation := afterRestart
      requiresEnvironmentRevalidation := afterRestart
      requiresIntermediateRevalidation := true
      affectedArtifacts := suspect
      reason := ascii "committed intermediates must be re-hashed before they may feed a later phase" }
  let steps := if suspect.isEmpty then [] else [revalidate]
  match recoveryRestartPhase plan phases authority with
  | none =>
      if suspect.isEmpty then
        { headline := .none,legal := true
          rationale := ascii "every mandatory phase is committed under current authority" }
      else
        { headline := .revalidateIntermediate,legal := true,steps
          rationale := ascii "revalidation is required before the session can be considered complete" }
  | some phase =>
      let (step,operator) := restartStep phases afterRestart phase
      { headline := if suspect.isEmpty then step.outcome else .revalidateIntermediate
        legal := !suspect.isEmpty || step.outcome ≠ .manualResolutionRequired
        requiresOperator := operator
        steps := steps++[step]
        rationale := ascii "restart boundary determined by the first non-committed mandatory phase" }

namespace CompilerSession

/-- What `apply_recovery` does to one phase of a session it reopens. -/
def resumePhase (phase : PhaseRecord) (now : UInt64) : PhaseRecord :=
  if phase.state ∈ [PhaseState.committed,.failed,.cancelled,.retired] then phase
  else
    let moved := if phase.state.retainsCommitAuthority then
        phase.recordTransition .ready
          (ascii "recovery resumed from the last authoritative boundary") now
      else if phase.state=.fenced then
        phase.recordTransition .retired (ascii "recovery retired a fenced phase generation") now
      else phase
    { moved with failure := .none,lastStatus := .ok,lastDetail := [] }

def resumed (session : CompilerSession) (now : UInt64) : CompilerSession :=
  session.plan.order.foldl (fun s id => s.modifyPhase id (resumePhase · now)) session

/-- The plan is noted on the session. -/
def planned (session : CompilerSession) (plan : RecoveryPlan) : CompilerSession :=
  { session with
    recovery := plan.id
    recoveryGeneration := plan.generation
    recoveryState := if plan.requiresOperator then .manualRequired else .resolved }

/-- A RECOVERING session is reopened unless an operator must decide. -/
def reopened (session : CompilerSession) (operator : Bool) (now : UInt64) : CompilerSession :=
  if session.state=.recovering ∧ !operator then { session.resumed now with state := .active }
  else if operator then { session with state := .recovering }
  else session

/-- The session `apply_recovery` leaves for a plan. -/
def afterRecovery (session : CompilerSession) (plan : RecoveryPlan) (now : UInt64) :
    CompilerSession :=
  ((session.planned plan).reopened plan.requiresOperator now).advanced.touched now

end CompilerSession

namespace Runtime

def orderedPhaseRecords (session : CompilerSession) : List PhaseRecord :=
  session.plan.order.filterMap session.findPhase

/-- `plan_recovery_impl`. -/
def planRecoveryOf (rt : Runtime) (sid : CompilerSessionId) : Result RecoveryPlan := do
  let session ← rt.requireSession sid
    ⟨.notFound,ascii "session is not registered: "++sid.toText⟩
  let plan := planRecovery session.plan (orderedPhaseRecords session) rt.artifacts
    (rt.observe session) (session.state=.recovering || session.recoveryState=.required)
  return { plan with
    id := rt.recoveryIds.next.1
    generation := .initial
    session := ⟨sid,{}⟩ }

/-- The first locked part of `apply_recovery`, with the identity its plan is given. -/
def beginRecovery (sid : CompilerSessionId) : Op RecoveryPlan := do
  let plan ← ofExcept ((← get).planRecoveryOf sid)
  modify fun rt => { rt with recoveryIds := rt.recoveryIds.next.2 }
  return plan

def revalidateArtifact (w : World) (reference : Ref .intermediate) : Op Unit := fun rt =>
  let probe := (w.artifactFiles.lookup reference.id).getD .missing
  match rt.artifacts.revalidate reference.id probe with
  | (artifacts,.ok _) => (.ok (),{ rt with artifacts })
  | (artifacts,.error e) => (.error e,{ rt with artifacts })

/-- `RecoveryPlanner::apply_revalidation`. -/
def applyRevalidation (w : World) (plan : RecoveryPlan) : Op Unit :=
  forEach (revalidateArtifact w) ((plan.steps.filter
    (·.requiresIntermediateRevalidation)).flatMap (·.affectedArtifacts))

/-- The second locked part of `apply_recovery`. -/
def endRecovery (w : World) (sid : CompilerSessionId) (plan : RecoveryPlan) : Op Unit := do
  let _ ← ofExcept ((← get).requireSession sid (.of .notFound "session is not registered"))
  applyRevalidation w plan
  modify (·.modifySession sid (·.afterRecovery plan w.now))
  persistSession w sid
  let _ ← recordEvidence

/-- `evaluate_retry`. -/
def evaluateRetry (phase : PhaseRecord) (policy : PolicySpec) (sessionRetriesUsed : UInt32) :
    RetryDecision :=
  let decision : RetryDecision :=
    { failure := phase.failure
      attemptsUsed := UInt32.ofNat phase.attempts.length
      sessionRetriesUsed := sessionRetriesUsed
      nextAttemptGeneration := phase.attemptGeneration }
  let permitted (reason : String) : RetryDecision := { decision with
    kind := .permitted
    legal := true
    nextAttemptGeneration := phase.attemptGeneration.next
    reason := ascii reason }
  if phase.state=.committed then { decision with
    kind := .alreadyCommitted
    createsNewInvocation := false
    refusal := .duplicateCompletion
    reason := ascii "the phase already committed an authoritative result" }
  else if phase.state ∈ [PhaseState.fenced,.cancelled,.retired] then { decision with
    kind := .authorityWithdrawn
    createsNewInvocation := false
    refusal := .phaseRetired
    reason := ascii "the phase is "++ascii phase.state.text++
      ascii " and no longer retains commit authority" }
  else if phase.state ∈ [PhaseState.running,.preparing,.produced,.validating,.commitReady] then
    { decision with
      kind := .authorityWithdrawn
      createsNewInvocation := false
      refusal := .phaseAlreadyRunning
      reason := ascii
        "the phase is still in flight; retry requires the current attempt to conclude" }
  else if phase.failure=.unknownOutcome then { decision with
    kind := .manualResolutionRequired
    refusal := .manualResolutionRequired
    reason := ascii ("the outcome of the previous attempt is UNKNOWN; the runtime fails closed "++
      "rather than retrying an unproven failure") }
  else if phase.failure=.authorityInvalidated then
    permitted ("authority moved while the phase was executing; a fresh invocation under current "++
      "authority is permitted")
  else if !policy.permitsRetry phase.failure then { decision with
    kind := .classificationRefuses
    refusal := .retryNotPermitted
    reason := ascii "failure class "++ascii phase.failure.text++ascii " is not retryable" }
  else if policy.maxRetriesPerPhase<UInt32.ofNat phase.attempts.length then { decision with
    kind := .exhausted
    refusal := .retryExhausted
    reason := ascii "the per-phase retry ceiling has been reached" }
  else if policy.maxRetriesPerSession ≤ sessionRetriesUsed then { decision with
    kind := .exhausted
    refusal := .retryExhausted
    reason := ascii "the per-session retry ceiling has been reached" }
  else permitted "failure class is retryable and both retry ceilings permit another attempt"

def retryDecision (rt : Runtime) (session : CompilerSession) (phase : PhaseRecord) :
    RetryDecision :=
  evaluateRetry phase (((rt.policies.find session.policy.id).map (·.spec)).getD {})
    session.sessionRetriesUsed

/-- The first locked part of `retry_phase`: a refusal reports, a permission is counted. -/
def beginRetry (sid : CompilerSessionId) (pid : CompilerPhaseId) :
    Op (RetryDecision × Option PhaseRunReport) := do
  let rt ← get
  let session ← ofExcept (rt.requireSession sid (.of .notFound "session is not registered"))
  let phase ← ofExcept (session.requirePhase pid (.of .notFound "phase is not registered"))
  let decision := rt.retryDecision session phase
  if decision.legal then do
    modify (·.modifySession sid fun s =>
      { s with sessionRetriesUsed := s.sessionRetriesUsed+1 })
    return (decision,none)
  else
    return (decision,some { rt.phaseStatusReport sid pid with
      retry := decision
      status := if decision.refusal=.ok then .retryNotPermitted else decision.refusal
      detail := decision.reason })

/-- The first locked part of `shutdown`, once; whether it was the first. -/
def beginShutdown (w : World) : Op Bool := do
  let rt ← get
  if rt.shuttingDown then return false
  else do
    modify fun rt => { rt with shuttingDown := true }
    forEach (fun (sid : UInt64) => do
      match (← get).sessions[sid]? with
      | none => pure ()
      | some session =>
          if session.state=.retired ∨ session.state=.committed then pure ()
          else do
            let fenced ← fenceAllInFlight w "runtime shutdown fenced in-flight authority" session
            modify (·.modifySession ⟨sid⟩ fun _ => fenced)) rt.sessions.keys
    return true

/-- What the second locked part of `shutdown` does to a session still open. -/
def stopped (now : UInt64) (session : CompilerSession) : CompilerSession :=
  let ended := if session.state=.active ∨ session.state=.created then
      { session with
        state := .failed
        failureDetail := ascii "runtime shutdown while the session was in progress" }
    else session
  ended.touched now

/-- A throwaway runtime leaves no journal behind. -/
def resetPersistence (w : World) : Op Unit := modify fun rt =>
  if rt.options.ephemeralState then
    { rt with persistence := rt.persistence.map fun store => (store.reset w.wall).2 }
  else rt

/-- The second locked part of `shutdown`. -/
def endShutdown (w : World) : Op Unit := do
  forEach (fun (sid : UInt64) => do
    match (← get).sessions[sid]? with
    | none => pure ()
    | some session =>
        if session.state=.retired ∨ session.state=.committed then pure ()
        else do
          modify (·.modifySession ⟨sid⟩ (stopped w.now))
          let _ ← attempt (persistSession w ⟨sid⟩)) (← get).sessions.keys
  resetPersistence w
  let _ ← recordEvidence

end Runtime

end CompilerFabric
