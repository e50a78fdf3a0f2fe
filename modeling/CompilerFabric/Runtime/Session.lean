import CompilerFabric.Runtime.Commit

namespace CompilerFabric

open Base Base.Action

structure CompileRequest where
  request : RequestId := {}
  compilation : CompilationId := {}
  compilationGeneration : CompilationGeneration := {}
  attempt : AttemptId := {}
  attemptGeneration : AttemptGeneration := {}
  toolchainFamily : ToolchainFamily := .unknown
  toolchain : ToolchainId := {}
  target : TargetSpec := {}
  sources : List Bytes := []
  inlineSources : List (Bytes × Bytes) := []
  outputDirectory : Bytes := []
  finalArtifactName : Bytes := []
  policy : PolicySpec := {}
  environment : EnvironmentSpec := {}
  stageInputs : Bool := false
  runSmokeTest : Bool := true
  adapterOptions : List EnvironmentVariable := []
deriving DecidableEq

def CompileRequest.canonicalDigest (c : CompileRequest) : Digest :=
  .of (canonicalText c.request.toText++canonicalText c.compilation.toText++
    canonicalU64 c.compilationGeneration.value.toNat++canonicalText c.attempt.toText++
    canonicalU64 c.attemptGeneration.value.toNat++
    canonicalText (ascii c.toolchainFamily.text)++canonicalText c.toolchain.toText++
    canonicalText c.target.canonicalDigest.toHex++
    (sortBytes (c.sources.map canonicalPathKey)).flatMap canonicalText++
    (sortBytes (c.inlineSources.map fun (name,contents) =>
      name++(Digest.of contents).toHex)).flatMap canonicalText++
    canonicalText (canonicalPathKey c.outputDirectory)++canonicalText c.finalArtifactName++
    canonicalText c.policy.canonicalDigest.toHex++
    canonicalText c.environment.canonicalDigest.toHex++canonicalBool c.stageInputs++
    canonicalBool c.runSmokeTest++canonicalVariables c.adapterOptions)

namespace PhaseRecord

/-- An in-flight phase loses its authority. -/
def fencedInFlight (phase : PhaseRecord) (reason : Bytes) (now : UInt64) : PhaseRecord :=
  { ({ phase with
      failure := .authorityInvalidated
      lastStatus := .staleEpoch
      lastDetail := reason }.recordTransition .fenced reason now).modifyLastAttempt fun a => { a with
        terminalState := .fenced
        failure := .authorityInvalidated } with
    activeInvocation := {}
    activeProcess := {}
    activeProcessGeneration := {} }

/-- What `cancel_phase` does to a phase that is not committed. -/
def cancelled (phase : PhaseRecord) (reason : Bytes) (now : UInt64) : PhaseRecord :=
  let ended := if phase.state.retainsCommitAuthority then
      ({ phase with
        failure := .externalCancellation
        lastStatus := .cancelled
        lastDetail := reason }.modifyLastAttempt fun a => { a with
          terminalState := .cancelled
          failure := .externalCancellation }).recordTransition .cancelled reason now
    else phase
  { ended with activeInvocation := {} }

/-- What `fail_phase` does to a phase that is not committed. -/
def failedBy (phase : PhaseRecord) (failure : FailureClass) (status : StatusCode)
    (detail : Bytes) (now : UInt64) : PhaseRecord :=
  let noted := { phase with failure,lastStatus := status,lastDetail := detail }.modifyLastAttempt
    fun a => { a with terminalState := .failed,failure,status }
  if phase.state.retainsCommitAuthority then noted.recordTransition .failed detail now else noted

end PhaseRecord

/-- The plan-local identities, each with the runtime identity it is given. -/
def remapIds : List PhaseNode → IdAllocator .phase →
    List (CompilerPhaseId × CompilerPhaseId) × IdAllocator .phase
  | [],allocator => ([],allocator)
  | node::rest,allocator =>
      let (id,allocator) := allocator.next
      let (remap,allocator) := remapIds rest allocator
      ((node.id,id)::remap,allocator)

def remapNode (remap : List (CompilerPhaseId × CompilerPhaseId)) (node : PhaseNode) : PhaseNode :=
  let to_ (id : CompilerPhaseId) := (remap.lookup id).getD {}
  { node with id := to_ node.id,dependsOn := node.dependsOn.map to_ }

/-- The phase a node of the plan starts as. -/
def initialPhase (attempt : AttemptGeneration) (node : PhaseNode) : PhaseRecord :=
  { id := node.id
    generation := .initial
    attemptGeneration := attempt
    kind := node.kind
    adapterPhase := node.adapterPhase
    mandatory := node.mandatory
    dependsOn := node.dependsOn
    state := .pending }

namespace Runtime

def resolveToolchain (rt : Runtime) (request : CompileRequest) : Result ToolchainIdentity :=
  if request.toolchain.present then
    (rt.toolchains.find request.toolchain).elim (.error ⟨.toolchainNotFound,
      ascii "requested toolchain is not registered: "++request.toolchain.toText⟩) .ok
  else
    (rt.toolchains.findLatest request.toolchainFamily).elim (refuse .toolchainNotFound
      "no toolchain of the requested family has been discovered yet") .ok

/-- A registry operation on the live registry. -/
def onTargets (f : TargetRegistry → Result (Ref .target × TargetRegistry)) : Op (Ref .target) :=
  fun rt => match f rt.targets with
    | .error e => (.error e,rt)
    | .ok (reference,targets) => (.ok reference,{ rt with targets })

def onEnvironments (f : EnvironmentRegistry → Result (Ref .environment × EnvironmentRegistry)) :
    Op (Ref .environment) :=
  fun rt => match f rt.environments with
    | .error e => (.error e,rt)
    | .ok (reference,environments) => (.ok reference,{ rt with environments })

def onPolicies (f : PolicyRegistry → Result (Ref .policy × PolicyRegistry)) : Op (Ref .policy) :=
  fun rt => match f rt.policies with
    | .error e => (.error e,rt)
    | .ok (reference,policies) => (.ok reference,{ rt with policies })

def onSources (f : SourceRegistry → Result (Ref .source × SourceRegistry)) : Op (Ref .source) :=
  fun rt => match f rt.sources with
    | .error e => (.error e,rt)
    | .ok (reference,sources) => (.ok reference,{ rt with sources })

def onToolchains {α : Type} (f : ToolchainRegistry → Result (α × ToolchainRegistry)) : Op α :=
  fun rt => match f rt.toolchains with
    | .error e => (.error e,rt)
    | .ok (found,toolchains) => (.ok found,{ rt with toolchains })

/-- `sources.add` on what the file system showed for one path. -/
def addSource (file : Result SourceUnit) : Op (Ref .source) :=
  onSources fun sources => if SourceRegistry.kMaxSources ≤ sources.entries.size then
      refuse .capacityExceeded "source registry is full"
    else file.bind sources.add

def addSources : List (Result SourceUnit) → Op (List (Ref .source))
  | [] => pure []
  | file::rest => do
      let reference ← addSource file
      return reference::(← addSources rest)

/-- `sources_add_inline`: the contents under the given name. -/
def inlineUnit (source : Bytes × Bytes) : Result SourceUnit :=
  .ok {
    path := source.1
    language := sourceLanguageFromExtension (pathExtension source.1)
    content := .of source.2
    sizeBytes := UInt64.ofNat source.2.length }

/-- The file behind each of the paths; one the world knows nothing of is unreadable. -/
def filesOf (shown : List (Result SourceUnit)) (paths : List Bytes) : List (Result SourceUnit) :=
  paths.zipIdx.map fun (path,i) => shown.getD i
    (.error ⟨.notFound,ascii "source file could not be hashed: "++path⟩)

def nextPhases (nodes : List PhaseNode) : Op (List (CompilerPhaseId × CompilerPhaseId)) := fun rt =>
  let (remap,phaseIds) := remapIds nodes rt.phaseIds
  (.ok remap,{ rt with phaseIds,issued := rt.issued++remap.map fun (_,id) => (.phase,id.value) })

def nextSession : Op CompilerSessionId := fun rt =>
  let (id,sessionIds) := rt.sessionIds.next
  (.ok id,{ rt with sessionIds })

/-- A wish for the user's locale is overridden where output must be reproducible. -/
def controlled (request : CompileRequest) (environment : EnvironmentSpec) : EnvironmentSpec :=
  if request.policy.reproducibility ≠ .notRequired ∧ environment.deterministicControls ∧
      environment.localePolicy=.userDefault then
    { environment with localePolicy := .cLocale }
  else environment

/-- What `create_session` resolves before it builds the record. -/
structure SessionParts where
  id : CompilerSessionId := {}
  attempt : AttemptId := {}
  toolchain : Ref .toolchain := {}
  target : Ref .target := {}
  environment : Ref .environment := {}
  policy : Ref .policy := {}
  sources : List (Ref .source) := []
  adapterName : Bytes := []
  plan : PhasePlan := {}

def requestedAttempt (request : CompileRequest) : Op AttemptId :=
  if request.attempt.present then pure request.attempt else nextAttempt

def sessionParts (w : World) (request : CompileRequest) : Op SessionParts := do
  let rt ← get
  check (!rt.shuttingDown) (.of .shuttingDown "runtime is shutting down")
  check (rt.sessions.size<rt.options.maxSessions)
    (.of .capacityExceeded "session ceiling reached")
  check (¬(request.sources=[] ∧ request.inlineSources=[]))
    (.of .invalidArgument "a compile request must carry at least one source")
  let adapter ← ofExcept ((rt.findAdapter request.toolchainFamily).elim (.error ⟨.unsupported,
    ascii "no adapter is registered for toolchain family "++
      ascii request.toolchainFamily.text⟩) .ok)
  let toolchain ← ofExcept (rt.resolveToolchain request)
  let spec ← ofExcept w.resolvedTarget
  let target ← onTargets (·.intern spec)
  let plain ← addSources (filesOf w.sourceFiles request.sources)
  let inline_ ← addSources (request.inlineSources.map inlineUnit)
  check (plain++inline_ ≠ []) (.of .invalidArgument "no source could be admitted")
  let composed ← ofExcept w.composedEnvironment
  let environment ← onEnvironments (·.intern (controlled request composed))
  let policy ← onPolicies (·.intern request.policy)
  let local_ ← ofExcept w.localPlan
  let remap ← nextPhases local_.nodes
  let plan ← ofExcept (PhasePlan.build (local_.nodes.map (remapNode remap)))
  let id ← nextSession
  let attempt ← requestedAttempt request
  let staged ← addSources (filesOf w.stagedFiles (request.inlineSources.map (·.1)))
  return {
    id := id
    attempt := attempt
    toolchain := ⟨toolchain.id,toolchain.generation⟩
    target := target
    environment := environment
    policy := policy
    sources := plain++staged
    adapterName := adapter.name
    plan := plan }

/-- The record `create_session` registers. -/
def newSession (request : CompileRequest) (parts : SessionParts) (epoch now : UInt64) :
    CompilerSession :=
  let attemptGeneration :=
    if request.attemptGeneration.present then request.attemptGeneration else .initial
  { id := parts.id
    generation := .initial
    state := .active
    recoveryState := .none
    request := if request.request.present then request.request else ⟨parts.id.value⟩
    compilation := if request.compilation.present then request.compilation else ⟨parts.id.value⟩
    compilationGeneration :=
      if request.compilationGeneration.present then request.compilationGeneration else .initial
    attempt := parts.attempt
    attemptGeneration := attemptGeneration
    toolchain := parts.toolchain
    target := parts.target
    environment := parts.environment
    policy := parts.policy
    source := parts.sources.headD {}
    sources := parts.sources
    irGeneration := .initial
    adapterName := parts.adapterName
    finalArtifactName := request.finalArtifactName
    adapterOptions := request.adapterOptions
    plan := parts.plan
    phases := emplacePhases (parts.plan.nodes.map (initialPhase attemptGeneration))
    epoch := ⟨epoch⟩
    createdAtNanos := now
    updatedAtNanos := now
    requestDigest := request.canonicalDigest }

def createSession (w : World) (request : CompileRequest) : Op (Ref .session) := do
  let parts ← sessionParts w request
  let session := newSession request parts (← get).epoch w.now
  persist w session
  modify fun rt => { rt with sessions := rt.sessions.insertIfNew session.id.value session }
  let _ ← recordEvidence
  return ⟨parts.id,.initial⟩

/-- One phase of `fence_all_in_flight`, on a session that need not be registered yet. -/
def fencePhase (w : World) (reason : Bytes) (session : CompilerSession) (id : CompilerPhaseId) :
    Op CompilerSession := do
  match session.findPhase id with
  | none => return session
  | some phase =>
      if !phase.state.retainsCommitAuthority ∨ phase.state=.pending ∨ phase.state=.ready then
        return session
      else do
        revokeOutputs phase.id phase.generation reason
        revokeLease phase.lease.id reason
        return session.modifyPhase id (·.fencedInFlight reason w.now)

def fencePhases (w : World) (reason : Bytes) : List CompilerPhaseId → CompilerSession →
    Op CompilerSession
  | [],session => pure session
  | id::rest,session => do fencePhases w reason rest (← fencePhase w reason session id)

/-- `fence_all_in_flight`. -/
def fenceAllInFlight (w : World) (reason : String) (session : CompilerSession) :
    Op CompilerSession :=
  fencePhases w (ascii reason) session.plan.order session

/-- A session that comes from durable state: unless it is COMMITTED or RETIRED it needs
recovery. -/
def recovered (session : CompilerSession) (epoch now : UInt64) : CompilerSession :=
  let session := { session with
    epoch := ⟨epoch⟩
    generation := session.generation.next
    updatedAtNanos := now }
  if session.state ≠ .committed ∧ session.state ≠ .retired then
    { session with state := .recovering,recoveryState := .required }
  else session

def adoptSession (w : World) (session : CompilerSession) : Op (Ref .session) := do
  let rt ← get
  check session.id.present (.of .invalidIdentity "adopted session has no identity")
  check (rt.find session.id).isNone
    (.of .alreadyExists "session identity is already registered")
  modify fun rt => { rt with sessionIds := rt.sessionIds.observe session.id }
  let fenced ← fenceAllInFlight w "session adoption fenced in-flight authority" session
  let session := recovered fenced rt.epoch w.now
  persist w session
  modify fun rt => { rt with sessions := rt.sessions.insertIfNew session.id.value session }
  return ⟨session.id,{}⟩

def cancelPhase (w : World) (sid : CompilerSessionId) (pid : CompilerPhaseId) (reason : Bytes) :
    Op Unit := do
  let session ← ofExcept ((← get).requireSession sid (.of .notFound "session is not registered"))
  let phase ← ofExcept (session.requirePhase pid (.of .notFound "phase is not registered"))
  check (phase.state ≠ .committed) (.of .duplicateCompletion
    "a committed phase cannot be cancelled; retire the session instead")
  revokeLease phase.lease.id reason
  revokeOutputs phase.id phase.generation reason
  modify (·.modifySession sid fun s =>
    (s.modifyPhase pid (·.cancelled reason w.now)).advanced.touched w.now)
  persistSession w sid
  let _ ← recordEvidence

/-- The end of `cancel_session`, after its phases. -/
def endCancelSession (w : World) (sid : CompilerSessionId) (reason : Bytes) : Op Unit := do
  let _ ← ofExcept ((← get).requireSession sid (.of .notFound "session is not registered"))
  modify (·.modifySession sid fun s =>
    { s.advanced.touched w.now with state := .cancelled,failureDetail := reason })
  persistSession w sid

/-- One phase of `retire_session`. -/
def retirePhase (w : World) (sid : CompilerSessionId) (reason : Bytes) (pid : CompilerPhaseId) :
    Op Unit := do
  match ((← get).find sid).bind (·.findPhase pid) with
  | none => pure ()
  | some phase => do
      revokeLease phase.lease.id reason
      modify (·.modifyPhase sid pid (·.recordTransition .retired reason w.now))

def retireSession (w : World) (sid : CompilerSessionId) (reason : Bytes) : Op Unit := do
  let session ← ofExcept ((← get).requireSession sid (.of .notFound "session is not registered"))
  forEach (retirePhase w sid reason) session.plan.order
  modify (·.modifySession sid fun s =>
    { s.advanced.touched w.now with state := .retired,failureDetail := reason })
  persistSession w sid

/-- The reservation `report_output` and `commit_phase` rebuild from the record. -/
def rebuiltReservation (session : CompilerSession) (phase : PhaseRecord)
    (sid : CompilerSessionId) (pid : CompilerPhaseId) (generation : CompilerPhaseGeneration)
    (invocation : Ref .invocation) : Reservation :=
  { session := sid
    phase := pid
    phaseGeneration := generation
    invocation := invocation
    attempt := (phase.attempts.getLast?.map (·.id)).getD {}
    kind := phase.kind
    authority := authorityFromSession session phase }

def reportOutput (w : World) (sid : CompilerSessionId) (pid : CompilerPhaseId)
    (generation : CompilerPhaseGeneration) (invocation : Ref .invocation)
    (outputs : List OutputDescriptor) (process : ProcessOutcome) : Op PhaseRunReport := do
  let session ← ofExcept ((← get).requireSession sid (.of .notFound "session is not registered"))
  let phase ← ofExcept (session.requirePhase pid (.of .notFound "phase is not registered"))
  check (phase.generation=generation) (.of .stalePhaseGeneration
    "reported phase generation is not the current one")
  check (phase.activeInvocation=invocation) (.of .staleInvocation
    "reported invocation is not the current one for this phase generation")
  recordExecution w (rebuiltReservation session phase sid pid generation invocation)
    { executed := process.termination=.exited || process.termination=.crashed
      process := { process with invocation }
      outputs := outputs
      status := process.status.code
      detail := process.status.message }
  return (← get).phaseStatusReport sid pid

/-- What the first locked part of `commit_phase` comes to. -/
inductive CommitEntry
  | existing (report : PhaseRunReport)
  | proceed (r : Reservation)

def commitPhase (rt : Runtime) (sid : CompilerSessionId) (pid : CompilerPhaseId)
    (generation : CompilerPhaseGeneration) (invocation : Ref .invocation) :
    Result CommitEntry := do
  let session ← rt.requireSession sid (.of .notFound "session is not registered")
  let phase ← session.requirePhase pid (.of .notFound "phase is not registered")
  ensure (phase.generation=generation) (.of .stalePhaseGeneration
    "commit request names a phase generation that is not current")
  ensure (phase.activeInvocation=invocation) (.of .staleInvocation
    "commit request names an invocation that is not current")
  if phase.state=.committed then
    ensure (!phase.committedOutputDigest.zero ∧ phase.committedOutputDigest=
        outputSetDigestFromArtifacts rt.artifacts phase.outputs)
      (.of .divergentCompletion "a different completion already committed this phase generation")
    return .existing { rt.phaseStatusReport sid pid with
      status := .duplicateCompletion
      detail := ascii ("an equivalent completion already committed this phase generation; the "++
        "existing authoritative result is returned") }
  else
    ensure (phase.state=.validating ∨ phase.state=.commitReady) ⟨.illegalTransition,
      ascii "phase is "++ascii phase.state.text++ascii " and cannot commit"⟩
    return .proceed (rebuiltReservation session phase sid pid generation invocation)

def failPhase (w : World) (sid : CompilerSessionId) (pid : CompilerPhaseId)
    (generation : CompilerPhaseGeneration) (failure : FailureClass) (status : StatusCode)
    (detail : Bytes) : Op PhaseRunReport := do
  let session ← ofExcept ((← get).requireSession sid (.of .notFound "session is not registered"))
  let phase ← ofExcept (session.requirePhase pid (.of .notFound "phase is not registered"))
  check (phase.generation=generation) (.of .stalePhaseGeneration
    "failed outcome names a stale phase generation")
  check (phase.state ≠ .committed)
    (.of .duplicateCompletion "a committed phase cannot be failed")
  modify (·.modifyPhase sid pid (·.failedBy failure status detail w.now))
  revokeOutputs phase.id phase.generation detail
  revokeLease phase.lease.id detail
  modify (·.modifySession sid fun s => s.advanced.touched w.now)
  persistSession w sid
  return (← get).phaseStatusReport sid pid

end Runtime

end CompilerFabric
