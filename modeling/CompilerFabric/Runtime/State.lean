import CompilerFabric.Base.Action
import CompilerFabric.Core.Journal

namespace CompilerFabric

inductive ProcessTermination
  | exited | crashed | killed | timedOut | launchFailed | unknown
deriving DecidableEq

structure ProcessCapture where
  standardOutput : Bytes := []
  standardError : Bytes := []
  standardOutputBytes : UInt64 := 0
  standardErrorBytes : UInt64 := 0
  droppedStandardOutputBytes : UInt64 := 0
  droppedStandardErrorBytes : UInt64 := 0
  truncated : Bool := false
deriving DecidableEq

structure ProcessOutcome where
  id : ProcessId := {}
  generation : ProcessGeneration := {}
  invocation : Ref .invocation := {}
  osProcessId : UInt32 := 0
  termination : ProcessTermination := .unknown
  exitCode : UInt32 := 0
  capture : ProcessCapture := {}
  startedAtNanos : UInt64 := 0
  finishedAtNanos : UInt64 := 0
  status : Status := ⟨.ok,[]⟩
deriving DecidableEq

def ProcessOutcome.exitedZero (o : ProcessOutcome) : Bool :=
  o.termination=.exited && o.exitCode=0

structure OutputDescriptor where
  logicalName : Bytes := []
  path : Bytes := []
  format : ObjectFormat := .unknown
  content : Digest := {}
  sizeBytes : UInt64 := 0
  present : Bool := false
deriving DecidableEq

structure ExecutionReport where
  executed : Bool := false
  process : ProcessOutcome := {}
  outputs : List OutputDescriptor := []
  diagnostics : List Diagnostic := []
  workspaceRoot : Bytes := []
  workspaceMarker : Digest := {}
  status : StatusCode := .ok
  detail : Bytes := []
deriving DecidableEq

structure ValidationEvidence where
  accepted : Bool := false
  state : ArtifactState := .unknown
  format : ObjectFormat := .unknown
  refusal : StatusCode := .ok
  checks : List Bytes := []
  detail : Bytes := []
deriving DecidableEq

structure Workspace where
  root : Bytes := []
  session : CompilerSessionId := {}
  sessionGeneration : CompilerSessionGeneration := {}
  phase : CompilerPhaseId := {}
  phaseGeneration : CompilerPhaseGeneration := {}
  markerDigest : Digest := {}
  valid : Bool := false
deriving DecidableEq

/-- What the runtime asks an adapter about itself. -/
structure Adapter where
  name : Bytes := []
  family : ToolchainFamily := .unknown
  capabilities : UInt32 := 0
  evidenceClass : EvidenceClass := {}
  deterministicPhases : List PhaseKind := []
deriving DecidableEq

def kStructuredDiagnostics : UInt32 := 0x80

structure RuntimeOptions where
  runtimeName : Bytes := ascii "crf-runtime"
  enablePersistence : Bool := true
  ephemeralState : Bool := false
  recoverOnLoad : Bool := true
  maxSessions : Nat := 4096
  persistence : PersistenceOptions := {}
  stateDirectory : Bytes := []
deriving DecidableEq

structure Reservation where
  session : CompilerSessionId := {}
  phase : CompilerPhaseId := {}
  phaseGeneration : CompilerPhaseGeneration := {}
  invocation : Ref .invocation := {}
  attempt : AttemptId := {}
  attemptGeneration : AttemptGeneration := {}
  lease : Ref .lease := {}
  kind : PhaseKind := .unknown
  authority : PhaseAuthority := {}
  workspace : Workspace := {}
deriving DecidableEq

inductive RetryDecisionKind
  | permitted | classificationRefuses | exhausted | alreadyCommitted | authorityWithdrawn
  | manualResolutionRequired | sessionNotActive
deriving DecidableEq

structure RetryDecision where
  kind : RetryDecisionKind := .classificationRefuses
  legal : Bool := false
  failure : FailureClass := .none
  attemptsUsed : UInt32 := 0
  sessionRetriesUsed : UInt32 := 0
  nextAttemptGeneration : AttemptGeneration := {}
  createsNewInvocation : Bool := true
  refusal : StatusCode := .ok
  reason : Bytes := []
deriving DecidableEq

structure PhaseRunReport where
  phase : Ref .phase := {}
  state : PhaseState := .pending
  status : StatusCode := .ok
  failure : FailureClass := .none
  retry : RetryDecision := {}
  diagnostics : Ref .diagnostics := {}
  invocation : Ref .invocation := {}
  process : ProcessId := {}
  outputs : List (Ref .intermediate) := []
  authority : AuthorityVerdict := .valid
  detail : Bytes := []
deriving DecidableEq

/-- A completion report taken for a phase generation. -/
structure Completion where
  session : CompilerSessionId := {}
  phase : CompilerPhaseId := {}
  generation : CompilerPhaseGeneration := {}
  report : ExecutionReport := {}
deriving DecidableEq

/-- The phase generation an artifact was registered for. -/
structure Registration where
  artifact : IntermediateArtifactId := {}
  session : CompilerSessionId := {}
  phase : CompilerPhaseId := {}
  generation : CompilerPhaseGeneration := {}
deriving DecidableEq

/-- `Runtime::Impl`: what its lock protects. The last four fields are not in the source: they
record what happened. -/
structure Runtime where
  options : RuntimeOptions := {}
  epoch : UInt64 := 0
  persistence : Option PersistenceStore := none
  toolchains : ToolchainRegistry := {}
  targets : TargetRegistry := {}
  environments : EnvironmentRegistry := {}
  policies : PolicyRegistry := {}
  sources : SourceRegistry := {}
  artifacts : ArtifactRegistry := {}
  diagnostics : DiagnosticStore := {}
  provenance : ProvenanceLog := {}
  leases : LeaseTable := {}
  evidenceIds : IdAllocator .evidence := {}
  adapters : List Adapter := []
  sessions : Table CompilerSession := ∅
  lastValidation : Table ValidationEvidence := ∅
  sessionIds : IdAllocator .session := {}
  invocationIds : IdAllocator .invocation := {}
  commitIds : IdAllocator .commit := {}
  phaseIds : IdAllocator .phase := {}
  recoveryIds : IdAllocator .recovery := {}
  finalIds : IdAllocator .artifact := {}
  attemptIds : IdAllocator .attempt := {}
  shuttingDown : Bool := false
  commitTotal : UInt64 := 0
  staleCommitTotal : UInt64 := 0
  persistedDefects : Nat := 0
  /-- How many calls of `persist` were refused. -/
  persistFailures : Nat := 0
  /-- The identities drawn from the allocators of phases, invocations, attempts, leases, commits
  and final artifacts. -/
  issued : List (IdTag × UInt64) := []
  completions : List Completion := []
  registered : List Registration := []

abbrev Op (α : Type) := Base.Action Runtime Status α

namespace PhaseState

/-- `phase_state_retains_commit_authority`. -/
def retainsCommitAuthority (s : PhaseState) : Bool :=
  s ∈ [pending,ready,preparing,running,produced,validating,commitReady]

end PhaseState

namespace PhaseRecord

/-- `append_transition`; `now` is the monotonic clock. -/
def appendTransition (phase : PhaseRecord) (next : PhaseState) (reason : Bytes) (now : UInt64) :
    PhaseRecord :=
  let kept := if kMaxPhaseTransitions ≤ phase.history.length then phase.history.drop 1
    else phase.history
  { phase with history := kept++[⟨phase.state,next,now,reason⟩],state := next }

def kRoutes : List PhaseState := [.ready,.failed,.fenced]

/-- `record_transition`: the direct edge, else the first legal route of two, else nothing. -/
def recordTransition (phase : PhaseRecord) (next : PhaseState) (reason : Bytes) (now : UInt64) :
    PhaseRecord :=
  if phase.state=next then phase
  else if isLegalPhaseTransition phase.state next then phase.appendTransition next reason now
  else match kRoutes.find? fun via =>
      isLegalPhaseTransition phase.state via && isLegalPhaseTransition via next with
    | some via =>
        (phase.appendTransition via (ascii "phase passed through "++ascii via.text++
          ascii " before "++reason) now).appendTransition next reason now
    | none => phase

/-- `attempts.back()` written through, where there is one. -/
def modifyLastAttempt (phase : PhaseRecord) (f : PhaseAttempt → PhaseAttempt) : PhaseRecord :=
  { phase with attempts := phase.attempts.dropLast++(phase.attempts.getLast?.map f).toList }

/-- The first attempt with that identity, written through. -/
def modifyAttempt (phase : PhaseRecord) (id : AttemptId) (f : PhaseAttempt → PhaseAttempt) :
    PhaseRecord :=
  { phase with attempts := phase.attempts.modify (phase.attempts.findIdx (·.id=id)) f }

end PhaseRecord

namespace Runtime

def find (rt : Runtime) (id : CompilerSessionId) : Option CompilerSession := rt.sessions[id.value]?

def phase (rt : Runtime) (session : CompilerSessionId) (phase : CompilerPhaseId) :
    Option PhaseRecord :=
  (rt.find session).bind (·.findPhase phase)

def findAdapter (rt : Runtime) (family : ToolchainFamily) : Option Adapter :=
  rt.adapters.find? (·.family=family)

def findAdapterByName (rt : Runtime) (name : Bytes) : Option Adapter :=
  rt.adapters.find? fun a => equalsAsciiCi a.name name

def modifySession (rt : Runtime) (id : CompilerSessionId)
    (f : CompilerSession → CompilerSession) : Runtime :=
  { rt with sessions := rt.sessions.modify id.value f }

def modifyPhase (rt : Runtime) (session : CompilerSessionId) (phase : CompilerPhaseId)
    (f : PhaseRecord → PhaseRecord) : Runtime :=
  rt.modifySession session (·.modifyPhase phase f)

def observe (rt : Runtime) (session : CompilerSession) : AuthorityObservation :=
  let toolchain := rt.toolchains.find session.toolchain.id
  let target := rt.targets.find session.target.id
  let environment := rt.environments.find session.environment.id
  let policy := rt.policies.find session.policy.id
  let source := rt.sources.find session.source.id
  { sessionGeneration := session.generation
    compilationGeneration := session.compilationGeneration
    attemptGeneration := session.attemptGeneration
    toolchain := (toolchain.map fun t => ⟨t.id,t.generation⟩).getD session.toolchain
    toolchainCurrent := toolchain.isSome
    cooperatingToolchains := session.cooperatingToolchains.map fun reference =>
      ((rt.toolchains.find reference.id).map fun t => ⟨t.id,t.generation⟩).getD reference
    target := (target.map fun t => ⟨t.id,t.generation⟩).getD session.target
    targetCurrent := target.isSome
    environment := (environment.map fun e => ⟨e.id,e.generation⟩).getD session.environment
    environmentCurrent := environment.isSome
    policy := (policy.map fun p => ⟨p.id,p.generation⟩).getD session.policy
    policyCurrent := policy.isSome
    source := (source.map fun u => ⟨u.id,u.generation⟩).getD session.source
    sourceCurrent := source.isSome
    irGeneration := session.irGeneration
    sessionActive := session.state.admitsNewAuthority || session.state=.recovering
    componentCurrent := true
    leaseHeld := true }

end Runtime

end CompilerFabric
