import CompilerFabric.Base.Packing
import CompilerFabric.Core.Bounds
import CompilerFabric.Ipc.Protocol
import CompilerFabric.Runtime.Invocation
import CompilerFabric.Runtime.Session

namespace CompilerFabric

open Base (Format)

-- `Packer`/`Unpacker`: what the one field of a payload carries. In the source a reader that fails
-- goes on with zeros and reports at the end; here the first refusal is the answer, so only the
-- status reported for bytes that are wrong twice can differ.
namespace Payload

open Codec

def kMaxCollection : Nat := 4096

theorem list_collection : kMaxCollection<2^64 := by decide
theorem list_arguments : kMaxArguments<2^64 := by decide
theorem text_argument : kMaxArgumentBytes<2^32 := by decide

def capacityExceeded (detail : String) : Status := .of .capacityExceeded detail

/-- The sequences whose count has a refusal of its own. -/
def crowd {α : Type} (excess : String) (e : Status) (F : Format Status α) (bound : Nat := kMaxCollection)
    (h : bound<2^64 := by
      with_reducible first
        | exact list_256 | exact list_entries | exact list_collection | exact list_arguments
        | decide) :
    Format Status (List α) :=
  .counted bound h (capacityExceeded excess) e F

/-- The enumerations are cast from their byte without a check. -/
def objectFormat (e : Status) : Format Status ObjectFormat :=
  .cast ObjectFormat.values ObjectFormat.mem_values ObjectFormat.values_few .unknown e

def severity (e : Status) : Format Status DiagnosticSeverity :=
  .cast DiagnosticSeverity.values DiagnosticSeverity.mem_values DiagnosticSeverity.values_few
    .unknown e

def termination (e : Status) : Format Status ProcessTermination :=
  .cast [.exited,.crashed,.killed,.timedOut,.launchFailed,.unknown] (fun x => by cases x <;> decide)
    (by decide) .unknown e

/-- Every use of a style asks whether it is `msvc`. -/
def style (e : Status) : Format Status ArgumentStyle :=
  .cast ArgumentStyle.values (fun x => by cases x <;> decide) (by decide) .posix e

def statusCode (e : Status) : Format Status StatusCode :=
  .view StatusCode.raw StatusCode.mk Eq.refl Eq.refl (Format.u16 e)

/-- `pack_policy`/`unpack_policy`. -/
def policy (e : Status) : Format Status PolicySpec :=
  .view
    (fun s => (s.reproducibility.raw,s.maxRetriesPerPhase,s.maxRetriesPerSession,
      s.retryableClasses,s.forbiddenOptions,s.allowParallelPhases,s.maxParallelPhases,
      s.phaseTimeoutMillis,s.validationTimeoutMillis,s.runSmokeTest,s.requireContentDigest,
      s.maxDiagnosticEntries,s.maxDiagnosticBytesPerStream,s.allowLocalCache))
    (fun (r,rp,rs,rc,fo,ap,mp,pt,vt,st,cd,de,db,lc) =>
      ⟨⟨r⟩,rp,rs,rc,fo,ap,mp,pt,vt,st,cd,de,db,lc⟩)
    Eq.refl Eq.refl <|
  (u8 e).pair <| (u32 e).pair <| (u32 e).pair <| (collection e (u8 e) 64).pair <|
  (collection e (str e 4096) 256).pair <| (b e).pair <| (u64 e).pair <| (u32 e).pair <|
  (u32 e).pair <| (b e).pair <| (b e).pair <| (u64 e).pair <| (u64 e).pair <| b e

def inlineSource (e : Status) : Format Status (Bytes × Bytes) := (str e 4096).pair (str e (2^22))

/-- `encode_compile_request`/`decode_compile_request`. -/
def compileRequest : Format Status CompileRequest :=
  let e := protocolMalformed "compile request is malformed"
  .view
    (fun c => (c.request,c.compilation,c.compilationGeneration,c.attempt,c.attemptGeneration,
      c.toolchainFamily.raw,c.toolchain,c.target,c.sources,c.inlineSources,c.outputDirectory,
      c.finalArtifactName,c.policy,c.environment,c.stageInputs,c.runSmokeTest,c.adapterOptions))
    (fun (r,co,cg,at',ag,tf,tc,ta,so,ins,od,fn,po,en,st,sm,ao) =>
      ⟨r,co,cg,at',ag,⟨tf⟩,tc,ta,so,ins,od,fn,po,en,st,sm,ao⟩)
    (fun _ => rfl) (fun _ => rfl) <|
  (identity e).pair <| (identity e).pair <| (generation e).pair <| (identity e).pair <|
  (generation e).pair <| (u8 e).pair <| (identity e).pair <| (targetSpecFormat e).pair <|
  (crowd "compile request declares too many sources" e (path e)).pair <|
  (crowd "compile request declares too many inline sources" e (inlineSource e)).pair <|
  (path e).pair <| (str e 4096).pair <| (policy e).pair <| (environmentSpecFormat e).pair <|
  (b e).pair <| (b e).pair <|
  crowd "compile request declares too many options" e (variableFormat e 4096 (2^16))

def capture (e : Status) : Format Status ProcessCapture :=
  .view
    (fun c => (c.standardOutput,c.standardError,c.standardOutputBytes,c.standardErrorBytes,
      c.droppedStandardOutputBytes,c.droppedStandardErrorBytes,c.truncated))
    (fun (o,er,ob,eb,od,ed,t) => ⟨o,er,ob,eb,od,ed,t⟩) (fun _ => rfl) (fun _ => rfl) <|
  (str e (2^22)).pair <| (str e (2^22)).pair <| (u64 e).pair <| (u64 e).pair <| (u64 e).pair <|
  (u64 e).pair <| b e

def output (e : Status) : Format Status OutputDescriptor :=
  .view (fun o => (o.logicalName,o.path,o.format,o.content,o.sizeBytes,o.present))
    (fun (n,p,f,c,s,x) => ⟨n,p,f,c,s,x⟩) (fun _ => rfl) (fun _ => rfl) <|
  (str e 256).pair <| (path e).pair <| (objectFormat e).pair <| (digest e).pair <| (u64 e).pair <| b e

def diagnostic (e : Status) : Format Status Diagnostic :=
  .view (fun d => (d.severity,d.code,d.message,d.file,d.line,d.column,d.origin,d.raw))
    (fun (s,c,m,f,l,col,o,r) => ⟨s,c,m,f,l,col,o,r⟩) Eq.refl Eq.refl <|
  (severity e).pair <| (str e 256).pair <| (str e 8192).pair <| (str e 4096).pair <|
  (u32 e).pair <| (u32 e).pair <| (str e 256).pair <| str e 8192

/-- `encode_execution_report`/`decode_execution_report`: all but the status of the process. -/
def executionReport : Format Status ExecutionReport :=
  let e := protocolMalformed "execution report is malformed"
  .projected
    (fun r => (r.executed,r.process.id,r.process.generation,r.process.invocation,
      r.process.osProcessId,r.process.termination,r.process.exitCode,r.process.capture,
      r.process.startedAtNanos,r.process.finishedAtNanos,r.status,r.detail,r.workspaceRoot,
      r.workspaceMarker,r.outputs,r.diagnostics))
    (fun (ex,i,g,inv,os,t,ec,ca,sa,fa,st,d,wr,wm,os',ds) =>
      ⟨ex,⟨i,g,inv,os,t,ec,ca,sa,fa,⟨.ok,[]⟩⟩,os',ds,wr,wm,st,d⟩)
    (fun _ => rfl) <|
  (b e).pair <| (identity e).pair <| (generation e).pair <| (reference e).pair <| (u32 e).pair <|
  (termination e).pair <| (u32 e).pair <| (capture e).pair <| (u64 e).pair <| (u64 e).pair <|
  (statusCode e).pair <| (str e (2^16)).pair <| (path e).pair <| (digest e).pair <|
  (crowd "execution report declares too many outputs" e (output e) 256).pair <|
  crowd "execution report declares too many diagnostics" e (diagnostic e) DiagnosticSet.kMaxEntries

end Payload

/-- What `encode_invocation_order` is given and `decode_invocation_order` gives back. -/
structure InvocationOrder where
  invocation : InvocationSpec := {}
  process : ProcessSpec := {}
  workspaceRoot : Bytes := []
  phaseLabel : Bytes := []
deriving DecidableEq

namespace Payload

open Codec

def binding (e : Status) : Format Status OutputBinding :=
  .view (fun o => (o.logicalName,o.path,o.expectedFormat,o.required,o.allowEmpty))
    (fun (n,p,f,r,a) => ⟨n,p,f,r,a⟩) (fun _ => rfl) (fun _ => rfl) <|
  (str e 256).pair <| (path e).pair <| (objectFormat e).pair <| (b e).pair <| b e

/-- `encode_invocation_order`/`decode_invocation_order`. The identity of the executable is put
together from its path, digest and size, and the process runs what the invocation names. -/
def invocationOrder : Format Status InvocationOrder :=
  let e := protocolMalformed "invocation order is malformed"
  .projected
    (fun o => (o.invocation.id,o.invocation.generation,o.invocation.session,o.invocation.phase,
      o.invocation.attemptGeneration,o.invocation.component,o.invocation.componentGeneration,
      o.invocation.toolchain,o.invocation.target,o.invocation.environment,o.invocation.policy,
      o.invocation.executable,o.invocation.executableIdentity.content,
      o.invocation.executableIdentity.sizeBytes,o.invocation.arguments,o.process.environment,
      o.process.workingDirectory,o.invocation.workingDirectory,o.invocation.style,
      o.invocation.adapterName,o.invocation.producedExecutable,o.invocation.expectedOutputs,
      o.process.timeoutMillis,o.process.maxCaptureBytes,o.workspaceRoot,o.phaseLabel))
    (fun (i,g,s,p,ag,c,cg,tc,ta,en,po,x,xd,xs,args,env,pw,iw,st,an,pe,outs,tm,mc,wr,pl) =>
      { invocation := {
          id := i,generation := g,session := s,phase := p,attemptGeneration := ag,component := c,
          componentGeneration := cg,toolchain := tc,target := ta,environment := en,policy := po,
          executable := x,
          executableIdentity := {
            canonicalPath := x,content := xd,sizeBytes := xs,contentHashed := !xd.zero },
          arguments := args,workingDirectory := iw,style := st,adapterName := an,
          producedExecutable := pe,expectedOutputs := outs }
        process := {
          executable := x,arguments := args,environment := env,workingDirectory := pw,
          timeoutMillis := tm,maxCaptureBytes := mc }
        workspaceRoot := wr
        phaseLabel := pl })
    (fun _ => rfl) <|
  (identity e).pair <| (generation e).pair <| (reference e).pair <| (reference e).pair <|
  (generation e).pair <| (identity e).pair <| (generation e).pair <| (reference e).pair <|
  (reference e).pair <| (reference e).pair <| (reference e).pair <| (path e).pair <|
  (digest e).pair <| (u64 e).pair <|
  (crowd "invocation declares too many arguments" e (str e kMaxArgumentBytes text_argument)
    kMaxArguments).pair <|
  (crowd "invocation declares too many variables" e (variableFormat e 4096 (2^16))).pair <|
  (path e).pair <| (path e).pair <| (style e).pair <| (str e 256).pair <| (b e).pair <|
  (crowd "invocation declares too many outputs" e (binding e) 256).pair <|
  (u32 e).pair <| (u64 e).pair <| (str e 32768).pair <| str e 256

end Payload

/-- A payload of one field. -/
def blobPayload (bytes : Bytes) : Bytes := (FieldWriter.blob {} 1 bytes).take

def fieldBlob (payload : Bytes) (expectedId : UInt16) : Result Bytes := do
  let (more,r) ← FieldReader.next { payload := payload }
  ensure more (protocolMalformed "message payload is empty")
  ensure (r.currentId=expectedId) (protocolMalformed "message payload has an unexpected field id")
  let blob ← r.asBlob
  r.finish
  return blob

def encodeExecutionReport (report : ExecutionReport) : Bytes :=
  blobPayload (Payload.executionReport.write report)

def decodeExecutionReport (payload : Bytes) : Result ExecutionReport := do
  let blob ← fieldBlob payload 1
  Payload.executionReport.readAll (protocolMalformed "execution report has trailing bytes") blob

def encodeCompileRequest (request : CompileRequest) : Bytes :=
  blobPayload (Payload.compileRequest.write request)

def decodeCompileRequest (payload : Bytes) : Result CompileRequest := do
  let blob ← fieldBlob payload 1
  Payload.compileRequest.readAll (protocolMalformed "compile request has trailing bytes") blob

def encodeInvocationOrder (order : InvocationOrder) : Bytes :=
  blobPayload (Payload.invocationOrder.write order)

def decodeInvocationOrder (payload : Bytes) : Result InvocationOrder := do
  let blob ← fieldBlob payload 1
  Payload.invocationOrder.readAll (protocolMalformed "invocation order has trailing bytes") blob

end CompilerFabric
