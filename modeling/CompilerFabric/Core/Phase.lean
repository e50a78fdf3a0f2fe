import CompilerFabric.Core.Digest
import Std.Data.ExtTreeMap

namespace CompilerFabric

/-- The refusal vocabulary, as its 16-bit underlying value (persisted as such). -/
structure StatusCode where
  raw : UInt16
deriving DecidableEq

namespace StatusCode

def ok : StatusCode := ⟨0⟩
def invalidArgument : StatusCode := ⟨1⟩
def invalidIdentity : StatusCode := ⟨2⟩
def invalidEnum : StatusCode := ⟨3⟩
def capacityExceeded : StatusCode := ⟨4⟩
def notFound : StatusCode := ⟨5⟩
def alreadyExists : StatusCode := ⟨6⟩
def permissionDenied : StatusCode := ⟨7⟩
def pathTraversal : StatusCode := ⟨8⟩
def workspaceEscape : StatusCode := ⟨9⟩
def pathNotAbsolute : StatusCode := ⟨10⟩
def reparsePointRejected : StatusCode := ⟨11⟩
def unsupported : StatusCode := ⟨12⟩
def notImplemented : StatusCode := ⟨13⟩
def policyRefused : StatusCode := ⟨14⟩
def staleSessionGeneration : StatusCode := ⟨20⟩
def staleCompilationGeneration : StatusCode := ⟨21⟩
def staleAttemptGeneration : StatusCode := ⟨22⟩
def stalePhaseGeneration : StatusCode := ⟨23⟩
def staleInvocation : StatusCode := ⟨24⟩
def staleToolchainGeneration : StatusCode := ⟨25⟩
def staleComponentGeneration : StatusCode := ⟨26⟩
def staleTargetGeneration : StatusCode := ⟨27⟩
def staleSourceGeneration : StatusCode := ⟨28⟩
def staleIrGeneration : StatusCode := ⟨29⟩
def staleEnvironmentGeneration : StatusCode := ⟨30⟩
def stalePolicyGeneration : StatusCode := ⟨31⟩
def staleLeaseGeneration : StatusCode := ⟨32⟩
def staleArtifactGeneration : StatusCode := ⟨33⟩
def staleEpoch : StatusCode := ⟨34⟩
def staleWorkerGeneration : StatusCode := ⟨35⟩
def illegalTransition : StatusCode := ⟨40⟩
def phaseNotReady : StatusCode := ⟨41⟩
def phaseAlreadyRunning : StatusCode := ⟨42⟩
def phaseRetired : StatusCode := ⟨43⟩
def duplicateCompletion : StatusCode := ⟨44⟩
def divergentCompletion : StatusCode := ⟨45⟩
def notAuthoritative : StatusCode := ⟨46⟩
def sessionNotActive : StatusCode := ⟨47⟩
def sessionRetired : StatusCode := ⟨48⟩
def fanInIncomplete : StatusCode := ⟨49⟩
def fanInInconsistent : StatusCode := ⟨50⟩
def cancelled : StatusCode := ⟨51⟩
def shuttingDown : StatusCode := ⟨52⟩
def outputMissing : StatusCode := ⟨60⟩
def outputEmpty : StatusCode := ⟨61⟩
def outputCorrupt : StatusCode := ⟨62⟩
def outputUnexpectedFormat : StatusCode := ⟨63⟩
def outputWrongTarget : StatusCode := ⟨64⟩
def outputIncompatible : StatusCode := ⟨65⟩
def outputValidationFailed : StatusCode := ⟨66⟩
def smokeTestFailed : StatusCode := ⟨67⟩
def processLaunchFailed : StatusCode := ⟨70⟩
def processExitedNonzero : StatusCode := ⟨71⟩
def processCrashed : StatusCode := ⟨72⟩
def processCancelled : StatusCode := ⟨73⟩
def processOrphaned : StatusCode := ⟨75⟩
def retryNotPermitted : StatusCode := ⟨80⟩
def retryExhausted : StatusCode := ⟨81⟩
def manualResolutionRequired : StatusCode := ⟨83⟩
def integrityUnproven : StatusCode := ⟨84⟩
def unknownOutcome : StatusCode := ⟨85⟩
def persistenceIo : StatusCode := ⟨90⟩
def persistenceCorrupt : StatusCode := ⟨91⟩
def persistenceTruncated : StatusCode := ⟨92⟩
def persistenceSchemaMismatch : StatusCode := ⟨93⟩
def persistenceBoundsExceeded : StatusCode := ⟨94⟩
def toolchainNotFound : StatusCode := ⟨110⟩
def toolchainAmbiguous : StatusCode := ⟨111⟩
def componentNotFound : StatusCode := ⟨112⟩
def componentMutated : StatusCode := ⟨113⟩
def targetUnsupported : StatusCode := ⟨115⟩
def internalError : StatusCode := ⟨200⟩

def texts : List (UInt16 × String) :=
  [(0,"ok"),(1,"invalid-argument"),(2,"invalid-identity"),(3,"invalid-enum"),
    (4,"capacity-exceeded"),(5,"not-found"),(6,"already-exists"),(7,"permission-denied"),
    (8,"path-traversal"),(9,"workspace-escape"),(10,"path-not-absolute"),
    (11,"reparse-point-rejected"),(12,"unsupported"),(13,"not-implemented"),(14,"policy-refused"),
    (20,"stale-session-generation"),(21,"stale-compilation-generation"),
    (22,"stale-attempt-generation"),(23,"stale-phase-generation"),(24,"stale-invocation"),
    (25,"stale-toolchain-generation"),(26,"stale-component-generation"),
    (27,"stale-target-generation"),(28,"stale-source-generation"),(29,"stale-ir-generation"),
    (30,"stale-environment-generation"),(31,"stale-policy-generation"),
    (32,"stale-lease-generation"),(33,"stale-artifact-generation"),(34,"stale-epoch"),
    (35,"stale-worker-generation"),(40,"illegal-transition"),(41,"phase-not-ready"),
    (42,"phase-already-running"),(43,"phase-retired"),(44,"duplicate-completion"),
    (45,"divergent-completion"),(46,"not-authoritative"),(47,"session-not-active"),
    (48,"session-retired"),(49,"fan-in-incomplete"),(50,"fan-in-inconsistent"),(51,"cancelled"),
    (52,"shutting-down"),(60,"output-missing"),(61,"output-empty"),(62,"output-corrupt"),
    (63,"output-unexpected-format"),(64,"output-wrong-target"),(65,"output-incompatible"),
    (66,"output-validation-failed"),(67,"smoke-test-failed"),(70,"process-launch-failed"),
    (71,"process-exited-nonzero"),(72,"process-crashed"),(73,"process-cancelled"),
    (74,"process-capture-truncated"),(75,"process-orphaned"),(80,"retry-not-permitted"),
    (81,"retry-exhausted"),(82,"recovery-unsupported"),(83,"manual-resolution-required"),
    (84,"integrity-unproven"),(85,"unknown-outcome"),(90,"persistence-io"),
    (91,"persistence-corrupt"),(92,"persistence-truncated"),(93,"persistence-schema-mismatch"),
    (94,"persistence-bounds-exceeded"),(100,"protocol-malformed"),(101,"protocol-frame-too-large"),
    (102,"protocol-frame-truncated"),(103,"protocol-version-mismatch"),
    (104,"protocol-duplicate-request"),(105,"protocol-unknown-operation"),
    (106,"protocol-peer-closed"),(107,"protocol-io"),(108,"protocol-replay-rejected"),
    (110,"toolchain-not-found"),(111,"toolchain-ambiguous"),(112,"component-not-found"),
    (113,"component-mutated"),(114,"probe-failed"),(115,"target-unsupported"),
    (200,"internal-error")]

/-- `to_string(StatusCode)`. -/
def text (c : StatusCode) : String := (texts.lookup c.raw).getD "unknown-status"

end StatusCode

/-- A refusal: a code and diagnostic text. -/
structure Status where
  code : StatusCode
  message : Bytes := []
deriving DecidableEq

abbrev Result (α : Type) := Except Status α

def refuse {α : Type} (code : StatusCode) (message : String) : Result α :=
  .error ⟨code,ascii message⟩

/-- `if (!ok) return Status(...)`. -/
def ensure (ok : Prop) [Decidable ok] (status : Status) : Result Unit :=
  if ok then .ok () else .error status

@[simp] theorem ensure_ok {p : Prop} [Decidable p] {status : Status} {u : Unit} :
    ensure p status=.ok u ↔ p := by
  unfold ensure
  split_ifs with h <;> simp [h]

theorem check_ok {α : Type} {x : Result Unit} {f : Unit → Result α} {y : α} :
    (x >>= f)=.ok y ↔ x=.ok () ∧ f ()=.ok y := by
  rw [Base.do_eq_ok]
  exact ⟨fun ⟨_,hx,hf⟩ => ⟨hx,hf⟩,fun ⟨hx,hf⟩ => ⟨(),hx,hf⟩⟩

theorem forM_ok {α : Type} {f : α → Result Unit} {l : List α} :
    l.forM f=.ok () ↔ ∀ x ∈ l,f x=.ok () := by
  induction l with
  | nil => simp [List.forM,pure,Except.pure]
  | cons x l ih =>
    have hcons : (x::l).forM f=(f x >>= fun _ => l.forM f) := rfl
    rw [hcons,check_ok,List.forall_mem_cons,ih]

def Status.of (code : StatusCode) (message : String) : Status := ⟨code,ascii message⟩

inductive PhaseKind
  | unknown | inputValidate | preprocess | frontend | parse | semanticAnalysis | irGenerate
  | irOptimize | codegen | assemble | deviceCompile | deviceLink | link | postprocess
  | validate | finalize | custom
deriving DecidableEq

def PhaseKind.values : List PhaseKind :=
  [unknown,inputValidate,preprocess,frontend,parse,semanticAnalysis,irGenerate,irOptimize,
    codegen,assemble,deviceCompile,deviceLink,link,postprocess,validate,finalize,custom]

inductive PhaseState
  | pending | ready | preparing | running | produced | validating | commitReady | committed
  | failed | cancelled | fenced | recoveryRequired | retired
deriving DecidableEq

namespace PhaseState

def values : List PhaseState :=
  [pending,ready,preparing,running,produced,validating,commitReady,committed,failed,cancelled,
    fenced,recoveryRequired,retired]

def text : PhaseState → String
  | pending => "PENDING" | ready => "READY" | preparing => "PREPARING" | running => "RUNNING"
  | produced => "PRODUCED" | validating => "VALIDATING" | commitReady => "COMMIT_READY"
  | committed => "COMMITTED" | failed => "FAILED" | cancelled => "CANCELLED"
  | fenced => "FENCED" | recoveryRequired => "RECOVERY_REQUIRED" | retired => "RETIRED"

end PhaseState

/-- `is_legal_phase_transition`. -/
def isLegalPhaseTransition : PhaseState → PhaseState → Bool
  | .pending,to_ => to_ ∈ [PhaseState.ready,.cancelled,.retired]
  | .ready,to_ => to_ ∈ [PhaseState.preparing,.cancelled,.retired,.recoveryRequired,.failed]
  | .preparing,to_ => to_ ∈ [PhaseState.running,.failed,.cancelled,.fenced,.recoveryRequired]
  | .running,to_ => to_ ∈ [PhaseState.produced,.failed,.cancelled,.fenced,.recoveryRequired]
  | .produced,to_ => to_ ∈ [PhaseState.validating,.failed,.cancelled,.fenced,.recoveryRequired]
  | .validating,to_ => to_ ∈ [PhaseState.commitReady,.failed,.cancelled,.fenced,.recoveryRequired]
  | .commitReady,to_ => to_ ∈ [PhaseState.committed,.failed,.cancelled,.fenced,.recoveryRequired]
  | .committed,to_ => to_ ∈ [PhaseState.fenced,.retired]
  | .failed,to_ => to_ ∈ [PhaseState.ready,.cancelled,.retired,.recoveryRequired,.fenced]
  | .cancelled,to_ => to_=PhaseState.retired
  | .fenced,to_ => to_=PhaseState.retired
  | .recoveryRequired,to_ => to_ ∈ [PhaseState.ready,.failed,.cancelled,.retired]
  | .retired,_ => false

inductive FailureClass
  | none | processCrash | processInterrupted | transientWorkspaceFailure
  | transientStorageFailure | retrySafeToolInvocationFailure | externalCancellation
  | invalidSource | deterministicCompilerError | unsupportedTarget | unsupportedOption
  | invalidToolchain | policyRefusal | outputInvalid | authorityInvalidated | unknownOutcome
deriving DecidableEq

namespace FailureClass

def values : List FailureClass :=
  [none,processCrash,processInterrupted,transientWorkspaceFailure,transientStorageFailure,
    retrySafeToolInvocationFailure,externalCancellation,invalidSource,
    deterministicCompilerError,unsupportedTarget,unsupportedOption,invalidToolchain,
    policyRefusal,outputInvalid,authorityInvalidated,unknownOutcome]

def text : FailureClass → String
  | none => "NONE" | processCrash => "PROCESS_CRASH"
  | processInterrupted => "PROCESS_INTERRUPTED"
  | transientWorkspaceFailure => "TRANSIENT_WORKSPACE_FAILURE"
  | transientStorageFailure => "TRANSIENT_STORAGE_FAILURE"
  | retrySafeToolInvocationFailure => "RETRY_SAFE_TOOL_INVOCATION_FAILURE"
  | externalCancellation => "EXTERNAL_CANCELLATION" | invalidSource => "INVALID_SOURCE"
  | deterministicCompilerError => "DETERMINISTIC_COMPILER_ERROR"
  | unsupportedTarget => "UNSUPPORTED_TARGET" | unsupportedOption => "UNSUPPORTED_OPTION"
  | invalidToolchain => "INVALID_TOOLCHAIN" | policyRefusal => "POLICY_REFUSAL"
  | outputInvalid => "OUTPUT_INVALID" | authorityInvalidated => "AUTHORITY_INVALIDATED"
  | unknownOutcome => "UNKNOWN_OUTCOME"

def isRetryable : FailureClass → Bool
  | processCrash | processInterrupted | transientWorkspaceFailure | transientStorageFailure
  | retrySafeToolInvocationFailure | externalCancellation => true
  | _ => false

end FailureClass

open StatusCode in
/-- `classify_status`; what cannot be proved about is UNKNOWN. -/
def classifyStatus (code : StatusCode) : FailureClass :=
  if code=ok then .none
  else if code=processCrashed then .processCrash
  else if code ∈ [processCancelled,cancelled,shuttingDown] then .externalCancellation
  else if code ∈ [processLaunchFailed,processOrphaned] then .transientWorkspaceFailure
  else if code ∈ [persistenceIo,persistenceTruncated] then .transientStorageFailure
  else if code ∈ [staleSessionGeneration,staleCompilationGeneration,staleAttemptGeneration,
      stalePhaseGeneration,staleInvocation,staleToolchainGeneration,staleComponentGeneration,
      staleTargetGeneration,staleSourceGeneration,staleIrGeneration,
      staleEnvironmentGeneration,stalePolicyGeneration,staleLeaseGeneration,
      staleArtifactGeneration,staleEpoch,staleWorkerGeneration] then .authorityInvalidated
  else if code ∈ [outputMissing,outputEmpty,outputCorrupt,outputUnexpectedFormat,
      outputWrongTarget,outputIncompatible,outputValidationFailed,smokeTestFailed] then
    .outputInvalid
  else if code ∈ [toolchainNotFound,componentNotFound,componentMutated,toolchainAmbiguous] then
    .invalidToolchain
  else if code ∈ [targetUnsupported,unsupported,notImplemented] then .unsupportedTarget
  else if code ∈ [policyRefused,invalidArgument,invalidIdentity,invalidEnum,pathTraversal,
      workspaceEscape,pathNotAbsolute,reparsePointRejected,permissionDenied,retryNotPermitted,
      retryExhausted] then .policyRefusal
  else if code ∈ [processExitedNonzero,notFound] then .deterministicCompilerError
  else .unknownOutcome

structure PhaseAttempt where
  id : AttemptId := {}
  generation : AttemptGeneration := {}
  invocation : Ref .invocation := {}
  processGeneration : ProcessGeneration := {}
  osProcessId : UInt32 := 0
  terminalState : PhaseState := .pending
  failure : FailureClass := .none
  status : StatusCode := .ok
  exitCode : Int32 := 0
  startedAtNanos : UInt64 := 0
  finishedAtNanos : UInt64 := 0
  observedOutputDigest : Digest := {}
  detail : Bytes := []
deriving DecidableEq

structure PhaseTransition where
  src : PhaseState := .pending
  dst : PhaseState := .pending
  atNanos : UInt64 := 0
  reason : Bytes := []
deriving DecidableEq

structure PhaseRecord where
  id : CompilerPhaseId := {}
  generation : CompilerPhaseGeneration := {}
  kind : PhaseKind := .unknown
  adapterPhase : Bytes := []
  state : PhaseState := .pending
  mandatory : Bool := true
  dependsOn : List CompilerPhaseId := []
  sessionGeneration : CompilerSessionGeneration := {}
  compilationGeneration : CompilationGeneration := {}
  attemptGeneration : AttemptGeneration := {}
  toolchain : Ref .toolchain := {}
  target : Ref .target := {}
  environment : Ref .environment := {}
  policy : Ref .policy := {}
  source : Ref .source := {}
  irGeneration : IRGeneration := {}
  lease : Ref .lease := {}
  activeInvocation : Ref .invocation := {}
  activeProcess : ProcessId := {}
  activeProcessGeneration : ProcessGeneration := {}
  inputs : List (Ref .intermediate) := []
  outputs : List (Ref .intermediate) := []
  diagnostics : Ref .diagnostics := {}
  commit : CommitId := {}
  committedOutputDigest : Digest := {}
  committedAtNanos : UInt64 := 0
  attempts : List PhaseAttempt := []
  history : List PhaseTransition := []
  failure : FailureClass := .none
  lastStatus : StatusCode := .ok
  lastDetail : Bytes := []
  recovery : RecoveryId := {}
  recoveryGeneration : RecoveryGeneration := {}
deriving DecidableEq

def kMaxPhaseAttempts : Nat := 64
def kMaxPhaseTransitions : Nat := 256

namespace PhaseRecord

def findAttempt (p : PhaseRecord) (attempt : AttemptId) : Option PhaseAttempt :=
  p.attempts.find? (·.id=attempt)

end PhaseRecord

end CompilerFabric
