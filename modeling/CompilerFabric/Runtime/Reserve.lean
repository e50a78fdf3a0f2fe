import CompilerFabric.Runtime.Bundle

namespace CompilerFabric

open Base Base.Action

namespace PhaseRecord

/-- The record bound to the authority it is reserved under. -/
def bound (phase : PhaseRecord) (session : CompilerSession) (r : Reservation)
    (inputs : List (Ref .intermediate)) (now : UInt64) : PhaseRecord :=
  { phase with
    sessionGeneration := session.generation
    compilationGeneration := session.compilationGeneration
    toolchain := session.toolchain
    target := session.target
    environment := session.environment
    policy := session.policy
    source := session.source
    irGeneration := session.irGeneration
    generation := r.phaseGeneration
    attemptGeneration := r.attemptGeneration
    attempts := phase.attempts++[{
      id := r.attempt
      generation := r.attemptGeneration
      invocation := r.invocation
      terminalState := .pending
      startedAtNanos := now }]
    activeInvocation := r.invocation
    activeProcess := {}
    activeProcessGeneration := {}
    lease := r.lease
    inputs := inputs
    outputs := []
    diagnostics := {}
    commit := {}
    committedOutputDigest := {}
    failure := .none
    lastStatus := .ok
    lastDetail := [] }

/-- A phase takes a reservation: bound, then READY and PREPARING. -/
def reserved (phase : PhaseRecord) (session : CompilerSession) (r : Reservation)
    (inputs : List (Ref .intermediate)) (isRetry : Bool) (now : UInt64) : PhaseRecord :=
  ((phase.bound session r inputs now).recordTransition .ready
    (ascii (if isRetry then "retry authority reserved" else "phase authority reserved"))
    now).recordTransition .preparing (ascii "workspace and environment prepared") now

def nextGeneration (phase : PhaseRecord) : CompilerPhaseGeneration :=
  if phase.generation.present then phase.generation.next else .initial

def nextAttemptGeneration (phase : PhaseRecord) (isRetry : Bool) : AttemptGeneration :=
  if isRetry ∨ !phase.attemptGeneration.present then
    if phase.attemptGeneration.present then phase.attemptGeneration.next else .initial
  else phase.attemptGeneration

end PhaseRecord

namespace CompilerSession

def requirePhase (session : CompilerSession) (id : CompilerPhaseId) (e : Status) :
    Result PhaseRecord :=
  (session.findPhase id).elim (.error e) .ok

def touched (session : CompilerSession) (now : UInt64) : CompilerSession :=
  { session with updatedAtNanos := now }

def advanced (session : CompilerSession) : CompilerSession :=
  { session with generation := session.generation.next }

def reserved (session : CompilerSession) (r : Reservation) (inputs : List (Ref .intermediate))
    (isRetry : Bool) (now : UInt64) : CompilerSession :=
  { session.modifyPhase r.phase fun p => p.reserved session r inputs isRetry now with
    attemptGeneration := r.attemptGeneration
    currentPhase := r.phase
    generation := session.generation.next
    updatedAtNanos := now }

end CompilerSession

def check (p : Prop) [Decidable p] (e : Status) : Op Unit := ofExcept (ensure p e)

namespace Runtime

def requireSession (rt : Runtime) (id : CompilerSessionId) (e : Status) :
    Result CompilerSession :=
  (rt.find id).elim (.error e) .ok

/-- `persist(*session)` on the live record. -/
def persistSession (w : World) (id : CompilerSessionId) : Op Unit := fun rt =>
  match rt.find id with
  | some session => persist w session rt
  | none => (.ok (),rt)

/-- `evidence_log.record`: only its identities are read again. -/
def recordEvidence : Op EvidenceId := fun rt =>
  let (id,evidenceIds) := rt.evidenceIds.next
  (.ok id,{ rt with evidenceIds })

def nextAttempt : Op AttemptId := fun rt =>
  let (id,attemptIds) := rt.attemptIds.next
  (.ok id,{ rt with attemptIds,issued := rt.issued++[(.attempt,id.value)] })

def nextInvocation : Op InvocationId := fun rt =>
  let (id,invocationIds) := rt.invocationIds.next
  (.ok id,{ rt with invocationIds,issued := rt.issued++[(.invocation,id.value)] })

def grantLease (session : Ref .session) (phase : Ref .phase) (now : UInt64) (reason : Bytes) :
    Op (Ref .lease) := fun rt =>
  let (lease,leases) := rt.leases.grant session phase 0 now reason
  (.ok lease,{ rt with leases,issued := rt.issued++[(.lease,lease.id.value)] })

def revokeLease (id : LeaseId) (reason : Bytes) : Op Unit :=
  modify fun rt => { rt with leases := rt.leases.revoke id reason }

def revokeOutputs (phase : CompilerPhaseId) (generation : CompilerPhaseGeneration)
    (detail : Bytes) : Op Unit :=
  modify fun rt => { rt with artifacts := rt.artifacts.revokePhaseOutputs phase generation detail }

/-- `phase_status_report`. -/
def phaseStatusReport (rt : Runtime) (session : CompilerSessionId) (phase : CompilerPhaseId) :
    PhaseRunReport :=
  match rt.find session with
  | none => { status := .notFound,detail := ascii "session is not registered" }
  | some s => match s.findPhase phase with
    | none => { status := .notFound,detail := ascii "phase is not registered" }
    | some p =>
        { phase := ⟨p.id,p.generation⟩
          state := p.state
          status := p.lastStatus
          failure := p.failure
          diagnostics := p.diagnostics
          invocation := p.activeInvocation
          process := p.activeProcess
          outputs := p.outputs
          detail := p.lastDetail }

def inputsFrom (rt : Runtime) (session : CompilerSession) (dependency : CompilerPhaseId) :
    Result (List (Ref .intermediate)) := do
  let producer ← session.requirePhase dependency ⟨.fanInIncomplete,
    ascii "a required producer phase is not committed: "++dependency.toText⟩
  ensure (producer.state=.committed) ⟨.fanInIncomplete,
    ascii "a required producer phase is not committed: "++dependency.toText⟩
  producer.outputs.mapM fun output => do
    let artifact ← (rt.artifacts.find output.id).elim (.error ⟨.notFound,
      ascii "producer output is not registered: "++output.id.toText⟩) .ok
    ensure (artifact.authority=.authoritative ∧ artifact.state.isConsumable)
      ⟨.fanInInconsistent,ascii "producer output is not authoritative: "++output.id.toText⟩
    return ⟨artifact.id,artifact.generation⟩

def resolveInputs (rt : Runtime) (session : CompilerSession) (phase : PhaseRecord) :
    Result (List (Ref .intermediate)) := do
  let node ← (session.plan.find phase.id).elim
    (refuse .notFound "phase is not part of the session plan") .ok
  let found ← node.dependsOn.mapM (rt.inputsFrom session)
  let inputs := uniqueBy (fun a b => a.id=b.id)
    (found.flatten.insertionSort fun a b => a.id.value ≤ b.id.value)
  ensure (¬(node.fanIn ∧ inputs.length<node.requiredInputs.toNat))
    (.of .fanInIncomplete "fan-in phase received fewer authoritative inputs than it declared")
  return inputs

/-- The session's binding compared with what is registered now, before new authority. -/
def reserveVerdict (rt : Runtime) (session : CompilerSession) (phase : PhaseRecord) :
    AuthorityVerdict :=
  let bound := authorityFromSession session { phase with lease := {} }
  compareAuthority bound { rt.observe session with
    phaseGeneration := phase.generation
    attemptGeneration :=
      if phase.attemptGeneration.present then phase.attemptGeneration
      else session.attemptGeneration
    sessionGeneration := bound.sessionGeneration }

/-- The checks of `reserve`. -/
def admission (rt : Runtime) (sid : CompilerSessionId) (pid : CompilerPhaseId) (isRetry : Bool) :
    Result (CompilerSession × PhaseRecord × List (Ref .intermediate)) := do
  ensure (!rt.shuttingDown) (.of .shuttingDown "runtime is shutting down")
  let session ← rt.requireSession sid
    ⟨.notFound,ascii "session is not registered: "++sid.toText⟩
  ensure (session.state ≠ .recovering) (.of .sessionNotActive
    "session requires recovery before new authority is granted")
  ensure session.state.admitsNewAuthority ⟨.sessionNotActive,
    ascii "session state "++ascii session.state.text++ascii " does not admit new authority"⟩
  let phase ← session.requirePhase pid
    ⟨.notFound,ascii "phase is not part of the session: "++pid.toText⟩
  ensure (phase.state ≠ .committed)
    (.of .duplicateCompletion "phase already committed an authoritative result")
  ensure (phase.state ∉ [PhaseState.retired,.fenced,.cancelled]) ⟨.phaseRetired,
    ascii "phase is "++ascii phase.state.text++ascii " and retains no execution authority"⟩
  ensure (phase.state ∉ [PhaseState.running,.preparing,.produced,.validating,.commitReady])
    (.of .phaseAlreadyRunning "phase is still in flight")
  ensure (¬(isRetry ∧ phase.state ≠ .failed ∧ phase.state ≠ .recoveryRequired))
    (.of .illegalTransition "phase is not in a retryable state")
  ensure (¬(!isRetry ∧ phase.state=.failed)) (.of .illegalTransition
    "a failed phase may only be restarted through an explicit retry")
  ensure (session.plan.isReady pid session.committedPhases)
    (.of .phaseNotReady "a dependency of this phase is not committed yet")
  let verdict := rt.reserveVerdict session phase
  ensure (verdict=.valid) ⟨verdict.toStatusCode,
    ascii "session authority is not current: "++ascii verdict.text⟩
  let inputs ← rt.resolveInputs session phase
  ensure (phase.attempts.length<kMaxPhaseAttempts)
    (.of .capacityExceeded "phase attempt history is full")
  return (session,phase,inputs)

def reserve (w : World) (sid : CompilerSessionId) (pid : CompilerPhaseId) (isRetry : Bool) :
    Op Reservation := do
  let rt ← get
  let (session,phase,inputs) ← ofExcept (rt.admission sid pid isRetry)
  let attempt ← nextAttempt
  let invocation ← nextInvocation
  let workspace ← ofExcept w.workspace
  let lease ← grantLease ⟨session.id,session.generation⟩ ⟨pid,phase.nextGeneration⟩ w.now
    (ascii (if isRetry then "retry of a failed phase" else "phase execution"))
  let r : Reservation :=
    { session := sid
      phase := pid
      phaseGeneration := phase.nextGeneration
      invocation := ⟨invocation,.initial⟩
      attempt := attempt
      attemptGeneration := phase.nextAttemptGeneration isRetry
      lease := lease
      kind := phase.kind
      workspace := workspace }
  let reserved := session.reserved r inputs isRetry w.now
  modify (·.modifySession sid fun s => s.reserved r inputs isRetry w.now)
  persistSession w sid
  return { r with
    authority := authorityFromSession reserved (phase.reserved session r inputs isRetry w.now) }

/-- `build_request`: the authority a phase runs under must still be registered. -/
def buildRequest (rt : Runtime) (session : CompilerSession) : Result Unit :=
  ensure ((rt.toolchains.find session.toolchain.id).isSome ∧
      (rt.targets.find session.target.id).isSome ∧
      (rt.environments.find session.environment.id).isSome ∧
      (rt.policies.find session.policy.id).isSome)
    (.of .integrityUnproven "phase execution context is missing an authority component")

/-- The locked part of `execute_reserved` before the launch. Building the environment block
and the invocation, binding its executable and `validate_invocation` are the world's. -/
def prepare (w : World) (r : Reservation) : Op Unit := do
  let rt ← get
  let session ← ofExcept (rt.requireSession r.session
    (.of .notFound "session disappeared during execution"))
  let phase ← ofExcept (session.requirePhase r.phase
    (.of .notFound "phase disappeared during execution"))
  check (phase.generation=r.phaseGeneration ∧ phase.activeInvocation=r.invocation)
    (.of .staleInvocation "phase invocation is no longer the current one")
  check (rt.findAdapterByName session.adapterName).isSome
    ⟨.unsupported,ascii "no adapter is registered for "++session.adapterName⟩
  ofExcept (rt.buildRequest session)
  match w.refusedInvocation,w.invalidInvocation with
  | some e,_ => fail e
  | none,some e => do
      modify (·.modifyPhase r.session r.phase fun p =>
        { p with lastStatus := e.code,failure := classifyStatus e.code,lastDetail := e.message })
      fail e
  | none,none => do
      modify (·.modifySession r.session fun s =>
        (s.modifyPhase r.phase
          (·.recordTransition .running (ascii "compiler process launched") w.now)).touched w.now)
      persistSession w r.session

/-- The report `run_phase` goes on with when nothing was launched. -/
def unlaunched (r : Reservation) (e : Status) : ExecutionReport :=
  { status := e.code
    detail := e.message
    workspaceRoot := r.workspace.root
    workspaceMarker := r.workspace.markerDigest
    process := { invocation := r.invocation,termination := .launchFailed } }

/-- The end of `execute_reserved`: the child is noted on the phase, whatever became of it. -/
def noteProcess (r : Reservation) (report : ExecutionReport) : Op Unit :=
  if report.process.id.present then
    modify (·.modifyPhase r.session r.phase fun p =>
      { p with
        activeProcess := report.process.id
        activeProcessGeneration := report.process.generation })
  else pure ()

end Runtime

end CompilerFabric
