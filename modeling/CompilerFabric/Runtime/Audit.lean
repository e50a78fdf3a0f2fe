import CompilerFabric.Base.Findings
import CompilerFabric.Runtime.State

namespace CompilerFabric

open Base

inductive ViolationCode
  | none | duplicateSessionId | nonMonotonicGeneration | multipleCurrentPhaseStates
  | committedPhaseWithoutInvocation | committedPhaseStaleAuthority | staleInvocationRetainsAuthority
  | phaseConsumesUncommittedInput | orphanIntermediateAuthoritative
  | finalCandidateIncompleteLineage | duplicateLogicalPhaseCommit | retiredPhaseExecutable
  | cancelledPhaseCommitted | staleProcessResultCurrent | invalidFanIn
  | corruptPersistedStateAccepted | artifactWithoutProvenance | planDefect
  | sessionGenerationRegression | authorityBindingMismatch | diagnosticSetOrphan
  | intermediateConsumableWithoutValidState | candidateWithoutValidationEvidence
  | illegalPhaseTransitionRecorded | fencedPhaseCommitted | leaseOutstandingAfterRetire
  | liveProcessForRetiredPhase | attemptHistoryUnbounded | sessionStateInconsistent
  | recoveryStateInconsistent
deriving DecidableEq

structure AuditViolation where
  code : ViolationCode := .none
  subject : Bytes := []
  detail : Bytes := []
deriving DecidableEq

/-- What the auditor is shown, any part of which may be missing; of the process supervisor it looks
at the live processes. -/
structure AuditSubject where
  sessions : Option (List CompilerSession) := none
  artifacts : Option ArtifactRegistry := none
  diagnostics : Option DiagnosticStore := none
  provenance : Option ProvenanceLog := none
  toolchains : Option ToolchainRegistry := none
  leases : Option LeaseTable := none
  liveProcesses : Option Nat := none
  persistedDefects : Nat := 0
  runtimeEpoch : UInt64 := 0

structure AuditReport where
  violations : List AuditViolation := []
  checksRun : Nat := 0
  sessionsAudited : Nat := 0
  phasesAudited : Nat := 0
  artifactsAudited : Nat := 0
  runtimeEpoch : UInt64 := 0
  completedAtNanos : UInt64 := 0

namespace AuditReport

/-- `if (broken) report.violations.push_back(..)`. -/
def flag (report : AuditReport) (broken : Bool) (code : ViolationCode) (subject : Bytes)
    (detail : Bytes) : AuditReport :=
  { report with violations := Base.flag report.violations broken ⟨code,subject,detail⟩ }

def checked (report : AuditReport) (n : Nat) : AuditReport :=
  { report with checksRun := report.checksRun+n }

end AuditReport

def PhaseState.mayHoldProcess (s : PhaseState) : Bool := s=.preparing || s=.running

def PhaseRecord.producedPendingCommit (p : PhaseRecord) : Bool :=
  p.state ∈ [PhaseState.produced,.validating,.commitReady]

def ArtifactRegistry.list (r : ArtifactRegistry) : List IntermediateArtifact :=
  (r.entries.toList.map (·.2)).insertionSort fun a b => a.id.value ≤ b.id.value

def LeaseTable.list (t : LeaseTable) : List Lease :=
  (t.entries.toList.map (·.2)).insertionSort fun a b => a.id.value ≤ b.id.value

namespace InvariantAuditor

open AuditReport

/-- The recorded transitions, each with the one before it. -/
def auditTransitions (name : Bytes) :
    Option PhaseTransition → List PhaseTransition → AuditReport → AuditReport
  | _,[],report => report
  | before,t::rest,report =>
      let report := report.flag (!isLegalPhaseTransition t.src t.dst) .illegalPhaseTransitionRecorded
        name (ascii "recorded transition "++ascii t.src.text++ascii " -> "++ascii t.dst.text++
          ascii " is not legal")
      let report := report.flag (before.any (·.dst ≠ t.src)) .illegalPhaseTransitionRecorded name
        (ascii "phase transition history is not contiguous")
      auditTransitions name (some t) rest report

def auditHistory (name : Bytes) (phase : PhaseRecord) (report : AuditReport) : AuditReport :=
  (auditTransitions name none phase.history report).flag
    (phase.history.getLast?.any (·.dst ≠ phase.state)) .illegalPhaseTransitionRecorded name
    (ascii "phase state disagrees with its transition history")

/-- The phase is bound to other generations than its session. -/
def authorityMismatch (session : CompilerSession) (phase : PhaseRecord) : Bool :=
  phase.toolchain ≠ session.toolchain || phase.target ≠ session.target ||
    phase.environment ≠ session.environment || phase.policy ≠ session.policy ||
    phase.compilationGeneration ≠ session.compilationGeneration

def unregisteredToolchain (subject : AuditSubject) (phase : PhaseRecord) : Bool :=
  phase.toolchain.id.present &&
    subject.toolchains.any fun toolchains => (toolchains.find phase.toolchain.id).isNone

/-- The checks of a COMMITTED phase; `commitIds` are the commits met before. -/
def auditCommitted (subject : AuditSubject) (session : CompilerSession) (name : Bytes)
    (phase : PhaseRecord) (commitIds : List UInt64) (report : AuditReport) : AuditReport :=
  let report := report.flag (!phase.commit.present || !phase.activeInvocation.id.present ||
      phase.attempts.isEmpty) .committedPhaseWithoutInvocation name
    (ascii "committed phase has no commit identity, invocation, or attempt record")
  let report := report.flag (phase.commit.present && phase.commit.value ∈ commitIds)
    .duplicateLogicalPhaseCommit name (ascii "two phases share one commit identity")
  let report := report.flag (authorityMismatch session phase) .committedPhaseStaleAuthority name
    (ascii "committed phase is bound to authority generations the session no longer holds")
  report.flag (unregisteredToolchain subject phase) .authorityBindingMismatch name
    (ascii "committed phase references a toolchain that is not registered")

/-- The checks of a phase in itself, in whatever state. -/
def auditRecord (subject : AuditSubject) (session : CompilerSession) (name : Bytes)
    (phase : PhaseRecord) (report : AuditReport) : AuditReport :=
  let report := report.flag (phase.state=.cancelled && phase.commit.present)
    .cancelledPhaseCommitted name (ascii "cancelled phase carries a commit identity")
  let report := report.flag (phase.state=.fenced && phase.commit.present)
    .fencedPhaseCommitted name (ascii "fenced phase carries a commit identity")
  let report := report.flag (phase.state=.retired && phase.mandatory &&
      !session.hasCommitted phase.id) .retiredPhaseExecutable name
    (ascii "mandatory phase was retired without committing")
  let report := report.flag (phase.producedPendingCommit && !phase.activeInvocation.id.present)
    .staleInvocationRetainsAuthority name
    (ascii "phase holds pending output without an invocation identity")
  let report := report.flag (phase.activeProcess.present && !phase.activeProcessGeneration.present)
    .staleProcessResultCurrent name (ascii "phase records a process without a generation")
  let report := report.flag (phase.state=.running && phase.activeInvocation.id.present &&
      phase.attempts.isEmpty) .staleInvocationRetainsAuthority name
    (ascii "running phase has an invocation but no attempt record")
  let report := report.flag (phase.diagnostics.id.present &&
      subject.diagnostics.any fun diagnostics => (diagnostics.find phase.diagnostics.id).isNone)
    .diagnosticSetOrphan name (ascii "phase references an unknown diagnostic set")
  report.flag (unregisteredToolchain subject phase) .authorityBindingMismatch name
    (ascii "phase references an unregistered toolchain")

/-- The producer does not stand COMMITTED in the generation that produced the artifact. -/
def uncommittedProducer (session : CompilerSession) (artifact : IntermediateArtifact) : Bool :=
  !(session.findPhase artifact.producerPhase.id).any fun producer =>
    producer.state=.committed && producer.generation=artifact.producerPhase.generation

def auditInput (artifacts : ArtifactRegistry) (session : CompilerSession) (name : Bytes)
    (report : AuditReport) (input : Ref .intermediate) : AuditReport :=
  match artifacts.find input.id with
  | none => report.flag true .phaseConsumesUncommittedInput name
      (ascii "phase consumes an unregistered artifact")
  | some artifact =>
      let report := report.flag (uncommittedProducer session artifact)
        .phaseConsumesUncommittedInput name
        (ascii "phase consumes output from a producer phase that is not committed")
      report.flag (artifact.authority ≠ .authoritative) .phaseConsumesUncommittedInput name
        (ascii "phase consumes artifact "++artifact.id.toText++ascii " which carries authority "++
          ascii artifact.authority.text++ascii " and state "++ascii artifact.state.text++
          ascii " (producer "++artifact.producerPhase.toText++ascii ")")

def auditFanIn (session : CompilerSession) (name : Bytes) (phase : PhaseRecord)
    (report : AuditReport) : AuditReport :=
  report.flag (phase.state=.committed && (session.plan.find phase.id).any fun node =>
      node.fanIn && phase.inputs.length<node.requiredInputs.toNat) .invalidFanIn name
    (ascii "fan-in phase committed with fewer authoritative inputs than it declared")

def auditOutput (artifacts : ArtifactRegistry) (name : Bytes) (phase : PhaseRecord)
    (report : AuditReport) (output : Ref .intermediate) : AuditReport :=
  match artifacts.find output.id with
  | none => report.flag true .orphanIntermediateAuthoritative name
      (ascii "phase references an unregistered output")
  | some artifact =>
      report.flag (artifact.authority=.authoritative && phase.state ≠ .committed)
        .orphanIntermediateAuthoritative name
        (ascii "phase that never committed produced an authoritative artifact")

/-- `if (subject.part == nullptr) break;` at the head of a loop: without the part nothing is
looked at. -/
def within {α : Type} (part : Option α) (pass : α → AuditReport → AuditReport)
    (report : AuditReport) : AuditReport :=
  match part with
  | none => report
  | some a => pass a report

/-- What the loop over the phases of a session carries along. -/
structure PhaseScan where
  report : AuditReport
  commitIds : List UInt64 := []
  inFlight : Nat := 0
  liveProcessPhases : Nat := 0

def auditPhase (subject : AuditSubject) (session : CompilerSession) (scan : PhaseScan)
    (id : CompilerPhaseId) : PhaseScan :=
  let report := { scan.report.checked 12 with phasesAudited := scan.report.phasesAudited+1 }
  match session.findPhase id with
  | none =>
      let name := session.id.toText++ascii "/"++id.toText
      { scan with report := report.flag true .planDefect name
                    (ascii "plan declares a phase with no phase record") }
  | some phase =>
      let name := session.id.toText++ascii "/"++phase.id.toText
      let report := report.flag (kMaxPhaseAttempts<phase.attempts.length) .attemptHistoryUnbounded
        name (ascii "phase retained more attempts than the ceiling")
      let report := auditHistory name phase report
      let report := if phase.state=.committed then
        auditCommitted subject session name phase scan.commitIds report else report
      let report := auditRecord subject session name phase report
      let report := within subject.artifacts (fun artifacts report =>
        phase.inputs.foldl (auditInput artifacts session name) report) report
      let report := auditFanIn session name phase report
      { report := within subject.artifacts (fun artifacts report =>
          phase.outputs.foldl (auditOutput artifacts name phase) report) report
        commitIds := if phase.state=.committed ∧ phase.commit.present then
          phase.commit.value::scan.commitIds else scan.commitIds
        inFlight := if phase.state.retainsCommitAuthority ∧ phase.state ≠ .pending ∧
          phase.state ≠ .ready then scan.inFlight+1 else scan.inFlight
        liveProcessPhases := if phase.state.mayHoldProcess then scan.liveProcessPhases+1
          else scan.liveProcessPhases }

def auditLease (session : CompilerSession) (report : AuditReport) (lease : Lease) : AuditReport :=
  report.flag (lease.session.id=session.id && lease.held) .leaseOutstandingAfterRetire
    session.id.toText (ascii "session finished with a lease still held: "++lease.id.toText)

def auditSession (subject : AuditSubject) (session : CompilerSession) (report : AuditReport) :
    AuditReport :=
  let name := session.id.toText
  let scan := session.plan.order.foldl (auditPhase subject session) { report }
  let report := scan.report.flag (session.state=.committed &&
      (!session.allMandatoryCommitted || !session.candidatePresent)) .sessionStateInconsistent name
    (ascii ("session is COMMITTED without every mandatory phase committed and a candidate "++
      "present"))
  let report := if session.candidatePresent then
      ((report.checked 2).flag (!session.candidate.completeLineage)
        .finalCandidateIncompleteLineage name
        (ascii "final candidate has incomplete lineage")).flag
          session.candidate.validationEvidence.isEmpty .candidateWithoutValidationEvidence name
          (ascii "final candidate carries no validation evidence")
    else report
  let report := report.flag (session.recoveryState=.resolved && !session.recovery.present)
    .recoveryStateInconsistent name (ascii "recovery is marked resolved without a recovery id")
  let report := (report.checked 1).flag (session.state=.active && 0<scan.inFlight &&
      scan.liveProcessPhases=0) .staleProcessResultCurrent name
    (ascii ("session has in-flight phases but none is in a state that may hold a compiler "++
      "process"))
  let report := if session.state=.retired ∨ session.state=.committed then
      within subject.leases (fun leases report => leases.list.foldl (auditLease session) report) report
    else report
  report.flag (subject.liveProcesses.any (0<·) && session.state=.retired)
    .liveProcessForRetiredPhase name (ascii "retired session still has live compiler processes")

/-- One turn of the loop over the sessions, with the identities met before. -/
def auditEntry (subject : AuditSubject) (s : AuditReport × List UInt64)
    (session : CompilerSession) : AuditReport × List UInt64 :=
  let name := session.id.toText
  let report := { s.1.checked 5 with sessionsAudited := s.1.sessionsAudited+1 }
  let report := report.flag (session.id.value ∈ s.2) .duplicateSessionId name
    (ascii "two sessions share one identity")
  let report := report.flag (!session.id.present || session.generation.value=0)
    .sessionGenerationRegression name (ascii "session identity or generation is not established")
  let report := if session.plan.nodes=[] then
      report.flag true .planDefect name (ascii "session has an empty phase plan")
    else auditSession subject session report
  (report,session.id.value::s.2)

def auditArtifact (subject : AuditSubject) (report : AuditReport)
    (artifact : IntermediateArtifact) : AuditReport :=
  let name := artifact.id.toText
  let report := { report.checked 3 with artifactsAudited := report.artifactsAudited+1 }
  let report := report.flag (!artifact.current && artifact.authority=.authoritative)
    .intermediateConsumableWithoutValidState name
    (ascii "artifact is authoritative but not marked current")
  let report := report.flag (artifact.current && (artifact.authority ≠ .authoritative ||
      !artifact.state.isConsumable)) .intermediateConsumableWithoutValidState name
    (ascii "artifact is current while its state is "++ascii artifact.state.text)
  if artifact.authority=.authoritative then
    if !artifact.provenance.present then
      report.flag true .artifactWithoutProvenance name
        (ascii "authoritative artifact has no provenance")
    else report.flag (subject.provenance.any fun log => (log.find artifact.provenance).isNone)
      .artifactWithoutProvenance name
      (ascii "authoritative artifact references an unknown provenance record")
  else report

/-- `InvariantAuditor::audit` at the time `now`. -/
def audit (now : UInt64) (subject : AuditSubject) : AuditReport :=
  let report : AuditReport := { runtimeEpoch := subject.runtimeEpoch,completedAtNanos := now }
  let report := report.flag (subject.persistedDefects ≠ 0) .corruptPersistedStateAccepted
    (ascii "runtime") (ascii "persisted state reported "++decimal subject.persistedDefects++
      ascii " defects")
  let report := report.checked 1
  match subject.sessions with
  | none => report
  | some sessions =>
      let report := (sessions.foldl (auditEntry subject) (report,[])).1
      let report := within subject.artifacts (fun artifacts report =>
        artifacts.list.foldl (auditArtifact subject) report) report
      report.checked (if subject.liveProcesses.isSome then 1 else 0)

end InvariantAuditor

namespace Runtime

def listSessions (rt : Runtime) : List CompilerSession :=
  (rt.sessions.toList.map (·.2)).insertionSort fun a b => a.id.value ≤ b.id.value

/-- What `Runtime::audit` shows its auditor. -/
def auditSubject (rt : Runtime) (liveProcesses : Nat) : AuditSubject where
  sessions := some rt.listSessions
  artifacts := some rt.artifacts
  diagnostics := some rt.diagnostics
  provenance := some rt.provenance
  toolchains := some rt.toolchains
  leases := some rt.leases
  liveProcesses := some liveProcesses
  persistedDefects := rt.persistedDefects
  runtimeEpoch := rt.epoch

def audit (rt : Runtime) (liveProcesses : Nat) (now : UInt64) : AuditReport :=
  InvariantAuditor.audit now (rt.auditSubject liveProcesses)

end Runtime

end CompilerFabric
