import CompilerFabric.Runtime.Reserve

namespace CompilerFabric

open Base Base.Action

def StatusCode.protocolPeerClosed : StatusCode := ⟨106⟩
def StatusCode.protocolIo : StatusCode := ⟨107⟩

/-- The bytes both output digests hash: the entries in order. -/
def outputEntries (entries : List Bytes) : Digest :=
  .of (canonicalU64 entries.length++(sortBytes entries).flatMap canonicalText)

/-- `output_set_digest`. -/
def outputSetDigest (outputs : List OutputDescriptor) : Digest :=
  outputEntries (outputs.map fun o => o.logicalName++ascii "|"++o.content.toHex)

/-- `output_set_digest_from_artifacts`. -/
def outputSetDigestFromArtifacts (artifacts : ArtifactRegistry)
    (outputs : List (Ref .intermediate)) : Digest :=
  outputEntries (outputs.filterMap fun reference => (artifacts.find reference.id).map fun a =>
    reference.id.toText++ascii "|"++a.content.toHex)

/-- `classify_execution_failure`. -/
def classifyExecutionFailure (report : ExecutionReport) : FailureClass :=
  if report.executed then
    match report.process.termination with
    | .crashed => .processCrash
    | .killed | .timedOut => .externalCancellation
    | .launchFailed => .transientWorkspaceFailure
    | .unknown => .unknownOutcome
    | .exited => classifyStatus report.status
  else if report.status=.protocolPeerClosed ∨ report.status=.protocolIo then .processInterrupted
  else if report.status=.unknownOutcome ∨ report.status=.integrityUnproven then .unknownOutcome
  else classifyStatus report.status

def countSeverity (severities : List DiagnosticSeverity) (entries : List Diagnostic) : UInt32 :=
  UInt32.ofNat (entries.countP fun d => d.severity ∈ severities)

def rawTail (text : Bytes) : Bytes := text.drop (text.length-DiagnosticSet.kMaxRawTailBytes)

/-- The state an output takes from the adapter's evidence. -/
def ValidationEvidence.outputState (evidence : ValidationEvidence) : ArtifactState :=
  if evidence.accepted then .valid
  else if evidence.state=.unknown then .corrupt
  else evidence.state

namespace PhaseRecord

/-- What `record_execution` copies into the attempt it concerns. -/
def attemptReported (phase : PhaseRecord) (r : Reservation) (report : ExecutionReport) :
    PhaseRecord :=
  phase.modifyAttempt r.attempt fun a => { a with
    invocation := r.invocation
    processGeneration := report.process.generation
    osProcessId := report.process.osProcessId
    exitCode := report.process.exitCode.toInt32
    startedAtNanos := report.process.startedAtNanos
    finishedAtNanos := report.process.finishedAtNanos
    status := report.status
    detail := report.detail }

def executionFailed (phase : PhaseRecord) (r : Reservation) (report : ExecutionReport)
    (now : UInt64) : PhaseRecord :=
  let failure := classifyExecutionFailure report
  let detail := if report.detail.isEmpty then ascii "compiler execution did not succeed"
    else report.detail
  let noted := { phase with
    failure := failure
    lastStatus := if report.status=StatusCode.ok then .processExitedNonzero else report.status
    lastDetail := detail }
  (noted.modifyAttempt r.attempt fun a => { a with
    terminalState := .failed
    failure := failure }).recordTransition .failed detail now

def produced (phase : PhaseRecord) (r : Reservation) (now : UInt64) : PhaseRecord :=
  (phase.recordTransition .produced
    (ascii "compiler process exited 0; output is not yet authoritative") now).modifyAttempt
      r.attempt fun a => { a with terminalState := .produced }

end PhaseRecord

namespace Runtime

/-- The diagnostic set of one execution. -/
def diagnosticSetOf (rt : Runtime) (session : CompilerSession) (phase : PhaseRecord)
    (r : Reservation) (report : ExecutionReport) : DiagnosticSet :=
  let ceiling := ((rt.policies.find session.policy.id).map
    (·.spec.maxDiagnosticEntries.toNat)).getD DiagnosticSet.kMaxEntries
  let entries := report.diagnostics.take ceiling
  let capture := report.process.capture
  { invocation := r.invocation
    phase := ⟨phase.id,phase.generation⟩
    toolchain := session.toolchain
    target := session.target
    exitCode := report.process.exitCode.toInt32
    processCrashed := report.process.termination=.crashed
    rawStdoutBytes := capture.standardOutputBytes
    rawStderrBytes := capture.standardErrorBytes
    droppedStdoutBytes := capture.droppedStandardOutputBytes
    droppedStderrBytes := capture.droppedStandardErrorBytes
    truncated := capture.truncated || ceiling<report.diagnostics.length
    rawStdoutTail := rawTail capture.standardOutput
    rawStderrTail := rawTail capture.standardError
    entries := entries
    normalized := (rt.findAdapterByName session.adapterName).any
      (·.capabilities &&& kStructuredDiagnostics ≠ 0)
    errorCount := countSeverity [.error,.fatal,.internal] entries
    warningCount := countSeverity [.warning] entries }

def addDiagnostics (set : DiagnosticSet) : Op (Ref .diagnostics) := fun rt =>
  match rt.diagnostics.add set with
  | .error e => (.error e,rt)
  | .ok (reference,diagnostics) => (.ok reference,{ rt with diagnostics })

/-- An output as it is registered: a candidate without authority. -/
def candidateArtifact (session : CompilerSession) (phase : PhaseRecord)
    (invocation : Ref .invocation) (output : OutputDescriptor) : IntermediateArtifact :=
  { format := output.format
    path := output.path
    content := output.content
    sizeBytes := output.sizeBytes
    producerPhase := ⟨phase.id,phase.generation⟩
    producerInvocation := invocation
    toolchain := session.toolchain
    target := session.target
    source := session.source
    irGeneration := session.irGeneration
    environment := session.environment
    policy := session.policy
    lineageInputs := phase.inputs
    state := if output.present then .unknown else .stale
    authority := .none
    declaredDigest := output.content
    current := false
    validationDetail := ascii "registered as a candidate; not yet validated" }

def registerArtifact (artifact : IntermediateArtifact) : Op (Ref .intermediate) := fun rt =>
  match rt.artifacts.registerArtifact artifact with
  | .error e => (.error e,rt)
  | .ok (reference,artifacts) => (.ok reference,{ rt with artifacts })

/-- One turn of the registration loop of `record_execution`. -/
def registerOutput (r : Reservation) (session : CompilerSession) (phase : PhaseRecord)
    (output : OutputDescriptor) : Op Unit := do
  let reference ← registerArtifact (candidateArtifact session phase r.invocation output)
  modify (·.modifySession r.session fun s =>
    { s.modifyPhase r.phase fun p => { p with outputs := p.outputs++[reference] } with
      intermediates := s.intermediates++[reference] })
  modify fun rt => { rt with registered :=
    rt.registered++[⟨reference.id,r.session,r.phase,r.phaseGeneration⟩] }

/-- The digest of the registered set is what a later completion is compared with. -/
def digestOutputs (r : Reservation) : Op Unit :=
  modify fun rt => rt.modifyPhase r.session r.phase fun p =>
    { p with committedOutputDigest := outputSetDigestFromArtifacts rt.artifacts p.outputs }

/-- The refusals of `record_execution`: the phase a completion may be recorded for. -/
def recordable (rt : Runtime) (r : Reservation) : Result (CompilerSession × PhaseRecord) := do
  let session ← rt.requireSession r.session (.of .notFound "session disappeared")
  let phase ← session.requirePhase r.phase (.of .notFound "phase disappeared")
  ensure (phase.generation=r.phaseGeneration) (.of .stalePhaseGeneration
    "phase generation moved while the execution was in flight")
  ensure (phase.activeInvocation=r.invocation) (.of .staleInvocation
    "invocation is no longer current for this phase generation")
  ensure (phase.findAttempt r.attempt).isSome (.of .notFound "attempt record is missing")
  return (session,phase)

def noteCompletion (r : Reservation) (report : ExecutionReport) : Op Unit :=
  modify fun rt => { rt with
    completions := rt.completions++[⟨r.session,r.phase,r.phaseGeneration,report⟩] }

def recordExecution (w : World) (r : Reservation) (report : ExecutionReport) : Op Unit := do
  let rt ← get
  let (session,phase) ← ofExcept (rt.recordable r)
  modify (·.modifyPhase r.session r.phase (·.attemptReported r report))
  let stored ← addDiagnostics (rt.diagnosticSetOf session phase r report)
  modify (·.modifyPhase r.session r.phase fun p => { p with diagnostics := stored })
  noteCompletion r report
  if report.executed ∧ report.process.exitedZero then do
    modify (·.modifyPhase r.session r.phase (·.produced r w.now))
    forEach (registerOutput r session phase) report.outputs
    digestOutputs r
    modify (·.modifySession r.session fun s =>
      (s.modifyPhase r.phase (·.recordTransition .validating
        (ascii "candidate outputs registered for validation") w.now)).touched w.now)
    persistSession w r.session
  else do
    modify (·.modifySession r.session fun s =>
      (s.modifyPhase r.phase (·.executionFailed r report w.now)).touched w.now)
    persistSession w r.session

/-- The diagnostics `run_phase` asks the adapter for when the executor brought none. -/
def withDiagnostics (rt : Runtime) (w : World) (r : Reservation) (report : ExecutionReport) :
    ExecutionReport :=
  let asked := report.diagnostics.isEmpty && report.executed &&
    (rt.find r.session).any fun s => (rt.findAdapterByName s.adapterName).isSome &&
      (s.findPhase r.phase).isSome && (rt.buildRequest s).toBool
  if asked then { report with diagnostics := w.parsedDiagnostics.getD [] } else report

/-- `reproducibility_verify` from the point where the policy requires it; the second run is
prepared and executed by the world. -/
def reproducibilityVerify (rt : Runtime) (w : World) (r : Reservation)
    (primary : List OutputDescriptor) : Result Unit := do
  let session ← rt.requireSession r.session (.of .notFound "session disappeared")
  let adapter ← (rt.findAdapterByName session.adapterName).elim
    (refuse .unsupported "no adapter registered") .ok
  if r.kind ∉ adapter.deterministicPhases then return ()
  let second ← w.secondExecution
  ensure (second.executed ∧ second.process.exitedZero) (.of .unknownOutcome
    "the reproducibility verification run did not complete successfully")
  ensure (outputSetDigest second.outputs=outputSetDigest primary) (.of .divergentCompletion
    ("reproducibility is REQUIRED but two executions of a deterministic phase produced "++
      "different output; the runtime refuses to choose a winner"))

def reproducibilityRequired (rt : Runtime) (sid : CompilerSessionId) : Bool :=
  (rt.find sid).any fun s =>
    (rt.policies.find s.policy.id).any (·.spec.reproducibility=.required)

/-- `run_phase` on a divergent pair: the phase fails and its outputs are revoked. -/
def refuseDivergent (w : World) (r : Reservation) (e : Status) : Op Unit := do
  let rt ← get
  match (rt.find r.session).bind (·.findPhase r.phase) with
  | none => pure ()
  | some phase => do
      modify (·.modifyPhase r.session r.phase fun p =>
        { p with failure := .outputInvalid,lastStatus := e.code,lastDetail := e.message
          }.recordTransition .failed e.message w.now)
      revokeOutputs phase.id phase.generation e.message
      modify (·.modifySession r.session (·.advanced))
      persistSession w r.session

/-- The first locked part of `validate_phase_outputs`; what it reads goes to the adapter. -/
def beginValidation (rt : Runtime) (r : Reservation) : Result Unit := do
  let session ← rt.requireSession r.session (.of .notFound "session disappeared")
  let _ ← session.requirePhase r.phase (.of .notFound "phase disappeared")
  ensure (rt.findAdapterByName session.adapterName).isSome
    (.of .unsupported "no adapter is registered for this session")
  rt.buildRequest session

/-- `artifacts.set_state`; the caller looks at no refusal. -/
def setArtifactState (state : ArtifactState) (detail : Bytes) (reference : Ref .intermediate) :
    Op Unit :=
  modify fun rt => { rt with artifacts := (rt.artifacts.setState reference.id state detail).1 }

def validationFailed (evidence : ValidationEvidence) (now : UInt64) (phase : PhaseRecord) :
    PhaseRecord :=
  let failure := classifyStatus evidence.refusal
  let noted := { phase with
    failure := failure
    lastStatus := evidence.refusal
    lastDetail := evidence.detail }
  (noted.modifyLastAttempt fun a => { a with
    terminalState := .failed
    failure := failure }).recordTransition .failed evidence.detail now

/-- The last locked part of `validate_phase_outputs`, on the outputs the phase has then. -/
def applyEvidence (w : World) (r : Reservation) (evidence : ValidationEvidence) : Op Unit := do
  let rt ← get
  let session ← ofExcept (rt.requireSession r.session (.of .notFound "session disappeared"))
  let phase ← ofExcept (session.requirePhase r.phase (.of .notFound "phase disappeared"))
  forEach (setArtifactState evidence.outputState evidence.detail)
    phase.outputs
  if evidence.accepted then do
    modify fun rt => { rt with lastValidation := rt.lastValidation.insert phase.id.value evidence }
    modify (·.modifySession r.session fun s =>
      (s.modifyPhase r.phase (·.recordTransition .commitReady
        (ascii "output validation accepted") w.now)).touched w.now)
    persistSession w r.session
  else do
    modify (·.modifySession r.session fun s =>
      (s.modifyPhase r.phase (validationFailed evidence w.now)).touched w.now)
    persistSession w r.session

end Runtime

end CompilerFabric
