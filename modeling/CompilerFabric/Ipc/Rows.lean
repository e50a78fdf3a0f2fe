import CompilerFabric.Core.Declared
import CompilerFabric.Ipc.Messages
import CompilerFabric.Ipc.Worker

namespace CompilerFabric

open Base (Format Bytes)
open Codec

/-! The payloads with their enumerations as the bytes the code casts. -/

abbrev OutputFields := Bytes × Bytes × UInt8 × Digest × UInt64 × Bool

abbrev DiagnosticFields := UInt8 × Bytes × Bytes × Bytes × UInt32 × UInt32 × Bytes × Bytes

abbrev ReportFields := Bool × ProcessId × Generation .process × Ref .invocation × UInt32 × UInt8 ×
  UInt32 × ProcessCapture × UInt64 × UInt64 × StatusCode × Bytes × Bytes × Digest ×
  List OutputFields × List DiagnosticFields

abbrev BindingFields := Bytes × Bytes × UInt8 × Bool × Bool

abbrev OrderFields := InvocationId × InvocationGeneration × Ref .session × Ref .phase ×
  AttemptGeneration × CompilerComponentId × Generation .component × Ref .toolchain × Ref .target ×
  Ref .environment × Ref .policy × Bytes × Digest × UInt64 × List Bytes ×
  List EnvironmentVariable × Bytes × Bytes × UInt8 × Bytes × Bool × List BindingFields × UInt32 ×
  UInt64 × Bytes × Bytes

namespace Payload

variable {φ τ ο δ : Type}

/-- The fields of an output of an execution report, by how its format is read. -/
def outputRow (format : Format Status φ) (e : Status) :
    Format Status (Bytes × Bytes × φ × Digest × UInt64 × Bool) :=
  (str e 256).pair <| (path e).pair <| format.pair <| (digest e).pair <| (u64 e).pair <| b e

def diagnosticRow (severity : Format Status φ) (e : Status) :
    Format Status (φ × Bytes × Bytes × Bytes × UInt32 × UInt32 × Bytes × Bytes) :=
  severity.pair <| (str e 256).pair <| (str e 8192).pair <| (str e 4096).pair <|
  (u32 e).pair <| (u32 e).pair <| (str e 256).pair <| str e 8192

def reportRow (termination : Format Status τ) (output : Format Status ο)
    (diagnostic : Format Status δ) (e : Status) : Format Status (Bool × ProcessId ×
      Generation .process × Ref .invocation × UInt32 × τ × UInt32 × ProcessCapture × UInt64 ×
      UInt64 × StatusCode × Bytes × Bytes × Digest × List ο × List δ) :=
  (b e).pair <| (identity e).pair <| (generation e).pair <| (reference e).pair <| (u32 e).pair <|
  termination.pair <| (u32 e).pair <| (capture e).pair <| (u64 e).pair <| (u64 e).pair <|
  (statusCode e).pair <| (str e (2^16)).pair <| (path e).pair <| (digest e).pair <|
  (crowd "execution report declares too many outputs" e output 256).pair <|
  crowd "execution report declares too many diagnostics" e diagnostic DiagnosticSet.kMaxEntries

/-- What `decode_execution_report` holds when it is done. -/
def reportFields : Format Status ReportFields :=
  let e := protocolMalformed "execution report is malformed"
  reportRow (u8 e) (outputRow (u8 e) e) (diagnosticRow (u8 e) e) e

def bindingRow (format : Format Status φ) (e : Status) :
    Format Status (Bytes × Bytes × φ × Bool × Bool) :=
  (str e 256).pair <| (path e).pair <| format.pair <| (b e).pair <| b e

def orderRow (style : Format Status τ) (output : Format Status ο) (e : Status) :
    Format Status (InvocationId × InvocationGeneration × Ref .session × Ref .phase ×
      AttemptGeneration × CompilerComponentId × Generation .component × Ref .toolchain × Ref .target ×
      Ref .environment × Ref .policy × Bytes × Digest × UInt64 × List Bytes ×
      List EnvironmentVariable × Bytes × Bytes × τ × Bytes × Bool × List ο × UInt32 × UInt64 ×
      Bytes × Bytes) :=
  (identity e).pair <| (generation e).pair <| (reference e).pair <| (reference e).pair <|
  (generation e).pair <| (identity e).pair <| (generation e).pair <| (reference e).pair <|
  (reference e).pair <| (reference e).pair <| (reference e).pair <| (path e).pair <|
  (digest e).pair <| (u64 e).pair <|
  (crowd "invocation declares too many arguments" e (str e kMaxArgumentBytes text_argument)
    kMaxArguments).pair <|
  (crowd "invocation declares too many variables" e (variableFormat e 4096 (2^16))).pair <|
  (path e).pair <| (path e).pair <| style.pair <| (str e 256).pair <| (b e).pair <|
  (crowd "invocation declares too many outputs" e output 256).pair <|
  (u32 e).pair <| (u64 e).pair <| (str e 32768).pair <| str e 256

/-- What `decode_invocation_order` holds when it is done. -/
def orderFields : Format Status OrderFields :=
  let e := protocolMalformed "invocation order is malformed"
  orderRow (u8 e) (bindingRow (u8 e) e) e

/-- The enumerator of a byte, as the records of the model have it. -/
def enumerator {α : Type} (values : List α) (fallback : α) (raw : UInt8) : α :=
  (values[raw.toNat]?).getD fallback

def outputOf (o : OutputFields) : OutputDescriptor :=
  ⟨o.1,o.2.1,enumerator ObjectFormat.values .unknown o.2.2.1,o.2.2.2.1,o.2.2.2.2.1,o.2.2.2.2.2⟩

def diagnosticOf (d : DiagnosticFields) : Diagnostic :=
  let (s,c,m,f,l,col,o,r) := d
  ⟨enumerator DiagnosticSeverity.values .unknown s,c,m,f,l,col,o,r⟩

def bindingOf (o : BindingFields) : OutputBinding :=
  ⟨o.1,o.2.1,enumerator ObjectFormat.values .unknown o.2.2.1,o.2.2.2.1,o.2.2.2.2⟩

section Reads

open Base.Format.Reads

attribute [local irreducible] Format.view Format.pair Format.counted Format.projected Format.cast

variable {e : Status}

theorem output_reads : (output e).Reads (outputRow (u8 e) e) outputOf :=
  .view <| .pair (.same _) <| .pair (.same _) <| .pair (.cast _ _ _ _ _) <| .same _

theorem diagnostic_reads : (diagnostic e).Reads (diagnosticRow (u8 e) e) diagnosticOf :=
  .view <| .pair (.cast _ _ _ _ _) <| .same _

theorem binding_reads : (binding e).Reads (bindingRow (u8 e) e) bindingOf :=
  .view <| .pair (.same _) <| .pair (.same _) <| .pair (.cast _ _ _ _ _) <| .same _

/-- The records of the model are read from the same bytes, and made of the same fields. -/
theorem executionReport_reads : ∃ f,executionReport.Reads reportFields f :=
  ⟨_,.projected <| .pair (.same _) <| .pair (.same _) <| .pair (.same _) <| .pair (.same _) <|
    .pair (.same _) <| .pair (.cast _ _ _ _ _) <| .pair (.same _) <| .pair (.same _) <|
    .pair (.same _) <| .pair (.same _) <| .pair (.same _) <| .pair (.same _) <| .pair (.same _) <|
    .pair (.same _) <| .pair (.counted output_reads) (.counted diagnostic_reads)⟩

theorem invocationOrder_reads : ∃ f,invocationOrder.Reads orderFields f :=
  ⟨_,.projected <| .pair (.same _) <| .pair (.same _) <| .pair (.same _) <| .pair (.same _) <|
    .pair (.same _) <| .pair (.same _) <| .pair (.same _) <| .pair (.same _) <| .pair (.same _) <|
    .pair (.same _) <| .pair (.same _) <| .pair (.same _) <| .pair (.same _) <| .pair (.same _) <|
    .pair (.same _) <| .pair (.same _) <| .pair (.same _) <| .pair (.same _) <|
    .pair (.cast _ _ _ _ _) <| .pair (.same _) <| .pair (.same _) <|
    .pair (.counted binding_reads) <| .same _⟩

end Reads

end Payload

def decodeReportFields (payload : Bytes) : Result ReportFields :=
  fieldBlob payload 1 >>= Payload.reportFields.readAll
    (protocolMalformed "execution report has trailing bytes")

def decodeOrderFields (payload : Bytes) : Result OrderFields :=
  fieldBlob payload 1 >>= Payload.orderFields.readAll
    (protocolMalformed "invocation order has trailing bytes")

theorem blob_reads {α β : Type} {F : Format Status α} {G : Format Status β} {f : β → α}
    (h : F.Reads G f) (e : Status) (payload : Bytes) :
    (fieldBlob payload 1 >>= F.readAll e)=(fieldBlob payload 1 >>= G.readAll e).map f := by
  show (fieldBlob payload 1).bind _=((fieldBlob payload 1).bind _).map f
  cases fieldBlob payload 1 with
  | error => rfl
  | ok blob => exact h.readAll _ blob

theorem decodeExecutionReport_fields :
    ∃ f,∀ payload,decodeExecutionReport payload=(decodeReportFields payload).map f := by
  obtain ⟨f,hf⟩ := Payload.executionReport_reads
  exact ⟨f,blob_reads hf _⟩

theorem decodeInvocationOrder_fields :
    ∃ f,∀ payload,decodeInvocationOrder payload=(decodeOrderFields payload).map f := by
  obtain ⟨f,hf⟩ := Payload.invocationOrder_reads
  exact ⟨f,blob_reads hf _⟩

/-- The numbered field of an error; other ids are passed over. -/
def readError (error : StatusCode × Bytes) (r : FieldReader) : Result (StatusCode × Bytes) :=
  if r.currentId=1 then return (⟨← r.asU16⟩,error.2)
  else if r.currentId=2 then return (error.1,← r.asText)
  else .ok error

def decodeError (payload : Bytes) : Result (StatusCode × Bytes) := do
  let (error,r) ← FieldReader.each readError (.internalError,[]) { payload := payload }
  r.finish
  return error

namespace Strict

open Base.Format.Stricter

attribute [local irreducible] Format.view Format.pair Format.list Format.counted

variable {e' : Status} (e : Status)

def sentPolicy : Format.Stricter (Payload.policy e') :=
  .view <| .pair (byte 3 e) <| .after <| .after <| .first (.list (byte 16 e))

def compileRequest : Format.Stricter Payload.compileRequest :=
  .view <| .after <| .after <| .after <| .after <| .after <| .pair (byte 9 e) <| .after <|
  .pair (targetSpec e) <| .after <| .after <| .after <| .after <| .pair (sentPolicy e) <|
  .first (environmentSpec e)

def output : Format.Stricter (Payload.outputRow (u8 e') e') :=
  .after <| .after <| .first (byte 13 e)

def diagnostic : Format.Stricter (Payload.diagnosticRow (u8 e') e') := .first (byte 6 e)

def reportStatus : Format.Stricter (Payload.statusCode e') := .ranged (fun c => decide c.Declared) e

def report : Format.Stricter Payload.reportFields :=
  .after <| .after <| .after <| .after <| .after <| .pair (byte 6 e) <| .after <| .after <|
  .after <| .after <| .pair (reportStatus e) <| .after <| .after <| .after <|
  .pair (.counted (output e)) <| .counted (diagnostic e)

def binding : Format.Stricter (Payload.bindingRow (u8 e') e') :=
  .after <| .after <| .first (byte 13 e)

def order : Format.Stricter Payload.orderFields :=
  .after <| .after <| .after <| .after <| .after <| .after <| .after <| .after <| .after <|
  .after <| .after <| .after <| .after <| .after <| .after <| .after <| .after <| .after <|
  .pair (byte 2 e) <| .after <| .after <| .first (.counted (binding e))

end Strict

end CompilerFabric
