import CompilerFabric.Ipc.Messages

namespace CompilerFabric

open Base (Format)

/-- The bytes a list of texts takes behind its count. -/
def packedTexts (texts : List Bytes) : Nat := (texts.map fun t => t.length+4).sum+8

def packedVariables (vs : List EnvironmentVariable) : Nat :=
  (vs.map fun v => v.name.length+v.value.length+8).sum+8

def OutputDescriptor.packedBytes (o : OutputDescriptor) : Nat := o.logicalName.length+o.path.length+86

def Diagnostic.packedBytes (d : Diagnostic) : Nat :=
  d.code.length+d.message.length+d.file.length+d.origin.length+d.raw.length+29

/-- How long the packed report is. -/
def ExecutionReport.packedBytes (r : ExecutionReport) : Nat :=
  r.process.capture.standardOutput.length+r.process.capture.standardError.length+r.detail.length+
    r.workspaceRoot.length+(r.outputs.map fun o => o.packedBytes).sum+
    (r.diagnostics.map fun d => d.packedBytes).sum+193

def TargetSpec.packedBytes (t : TargetSpec) : Nat :=
  t.triple.length+t.cpu.length+t.deviceArch.length+t.deviceVirtualArch.length+t.abi.length+26

def PolicySpec.packedBytes (p : PolicySpec) : Nat :=
  p.retryableClasses.length+packedTexts p.forbiddenOptions+53

def EnvironmentSpec.packedBytes (s : EnvironmentSpec) : Nat :=
  s.workingDirectory.length+s.tempDirectory.length+packedVariables s.vars+
    packedTexts s.includePaths+packedTexts s.libraryPaths+packedTexts s.sdkRoots+
    packedTexts s.toolkitRoots+packedTexts s.inheritedVariables+s.localeName.length+14

/-- How long the packed request is. -/
def CompileRequest.packedBytes (c : CompileRequest) : Nat :=
  c.target.packedBytes+packedTexts c.sources+
    (c.inlineSources.map fun s => s.1.length+s.2.length+8).sum+c.outputDirectory.length+
    c.finalArtifactName.length+c.policy.packedBytes+c.environment.packedBytes+
    packedVariables c.adapterOptions+67

def OutputBinding.packedBytes (o : OutputBinding) : Nat := o.logicalName.length+o.path.length+11

/-- How long the packed order is. -/
def InvocationOrder.packedBytes (o : InvocationOrder) : Nat :=
  o.invocation.executable.length+packedTexts o.invocation.arguments+
    packedVariables o.process.environment+o.process.workingDirectory.length+
    o.invocation.workingDirectory.length+o.invocation.adapterName.length+
    (o.invocation.expectedOutputs.map fun b => b.packedBytes).sum+o.workspaceRoot.length+
    o.phaseLabel.length+258

namespace Codec

variable {tag : IdTag} (e : Status)

@[simp] theorem u8_length (n : UInt8) : ((u8 e).write n).length=1 := Format.u8_length e n
@[simp] theorem u32_length (n : UInt32) : ((u32 e).write n).length=4 := Format.u32_length e n
@[simp] theorem u64_length (n : UInt64) : ((u64 e).write n).length=8 := Format.u64_length e n
@[simp] theorem b_length (v : Bool) : ((b e).write v).length=1 := Format.u8_length e _

@[simp] theorem str_length (bound : Nat) (h) (s : Bytes) : ((str e bound h).write s).length=s.length+4 :=
  Format.text_length e bound h s

@[simp] theorem path_length (s : Bytes) : ((path e).write s).length=s.length+4 :=
  str_length e kMaxPathBytes _ s

@[simp] theorem digest_length (d : Digest) : ((digest e).write d).length=68 := by
  show ((str e 64).write d.toHex).length=68
  rw [str_length,d.toHex_length]

@[simp] theorem identity_length (x : StrongId tag) : ((identity e).write x).length=8 :=
  Format.u64_length e _

@[simp] theorem generation_length (x : Generation tag) : ((generation e).write x).length=8 :=
  Format.u64_length e _

@[simp] theorem reference_length (x : Ref tag) : ((reference e).write x).length=16 := by
  simp [reference]

@[simp] theorem collection_length {α : Type} (F : Format Status α) (bound : Nat) (h) (xs : List α) :
    ((collection e F bound h).write xs).length=(xs.map fun x => (F.write x).length).sum+8 :=
  Format.list_length e bound h F xs

end Codec

namespace Payload

open Codec

variable (e : Status)

@[simp] theorem crowd_length {α : Type} (excess : String) (F : Format Status α) (bound : Nat) (h)
    (xs : List α) :
    ((crowd excess e F bound h).write xs).length=(xs.map fun x => (F.write x).length).sum+8 :=
  Format.counted_length e bound h _ F xs

@[simp] theorem variableFormat_length (nameBound valueBound : Nat) (hn) (hv) (v : EnvironmentVariable) :
    ((variableFormat e nameBound valueBound hn hv).write v).length=v.name.length+v.value.length+8 := by
  simp [variableFormat]
  omega

@[simp] theorem targetSpecFormat_length (t : TargetSpec) :
    ((targetSpecFormat e).write t).length=t.packedBytes := by
  simp [targetSpecFormat,TargetSpec.packedBytes]
  omega

@[simp] theorem policy_length (p : PolicySpec) : ((policy e).write p).length=p.packedBytes := by
  simp [policy,PolicySpec.packedBytes,packedTexts]
  omega

@[simp] theorem environmentSpecFormat_length (s : EnvironmentSpec) :
    ((environmentSpecFormat e).write s).length=s.packedBytes := by
  simp [environmentSpecFormat,variablesFormat,EnvironmentSpec.packedBytes,packedTexts,packedVariables]
  omega

@[simp] theorem output_length (o : OutputDescriptor) : ((output e).write o).length=o.packedBytes := by
  simp [output,objectFormat,OutputDescriptor.packedBytes]
  omega

@[simp] theorem diagnostic_length (d : Diagnostic) : ((diagnostic e).write d).length=d.packedBytes := by
  simp [diagnostic,severity,Diagnostic.packedBytes]
  omega

@[simp] theorem binding_length (o : OutputBinding) : ((binding e).write o).length=o.packedBytes := by
  simp [binding,objectFormat,OutputBinding.packedBytes]
  omega

@[simp] theorem inlineSource_length (s : Bytes × Bytes) :
    ((inlineSource e).write s).length=s.1.length+s.2.length+8 := by
  simp [inlineSource]
  omega

theorem executionReport_length (r : ExecutionReport) :
    (executionReport.write r).length=r.packedBytes := by
  simp only [executionReport,termination,capture,statusCode,Format.projected_length,
    Format.pair_length,Format.view_length,Format.cast_length,Format.u16_length,b_length,
    identity_length,generation_length,reference_length,u32_length,u64_length,str_length,path_length,
    digest_length,crowd_length,output_length,diagnostic_length,ExecutionReport.packedBytes]
  omega

theorem compileRequest_length (c : CompileRequest) : (compileRequest.write c).length=c.packedBytes := by
  simp only [compileRequest,inlineSource_length,Format.pair_length,Format.view_length,identity_length,
    generation_length,u8_length,b_length,str_length,path_length,crowd_length,targetSpecFormat_length,
    policy_length,environmentSpecFormat_length,variableFormat_length,CompileRequest.packedBytes,
    packedTexts,packedVariables]
  omega

theorem invocationOrder_length (o : InvocationOrder) :
    (invocationOrder.write o).length=o.packedBytes := by
  simp only [invocationOrder,style,Format.projected_length,Format.pair_length,Format.cast_length,
    identity_length,generation_length,reference_length,u32_length,u64_length,b_length,str_length,
    path_length,digest_length,crowd_length,variableFormat_length,binding_length,
    InvocationOrder.packedBytes,packedTexts,packedVariables]
  omega

@[simp] theorem crowd_good {α : Type} (excess : String) (F : Format Status α) (bound : Nat) (h)
    (xs : List α) : (crowd excess e F bound h).good xs ↔ xs.length ≤ bound ∧ ∀ x ∈ xs,F.good x := Iff.rfl

@[simp] theorem policy_good (p : PolicySpec) : (policy e).good p ↔
    p.retryableClasses.length ≤ 64 ∧ BoundedTexts 256 4096 p.forbiddenOptions := by
  simp [policy,BoundedTexts]

end Payload

/-- A name and a path as the lists of outputs bound them. -/
def Labelled (name path : Bytes) : Prop := name.length ≤ 256 ∧ path.length ≤ kMaxPathBytes

@[mk_iff]
structure Diagnostic.Transportable (d : Diagnostic) : Prop where
  code : d.code.length ≤ 256
  message : d.message.length ≤ 8192
  file : d.file.length ≤ 4096
  origin : d.origin.length ≤ 256
  raw : d.raw.length ≤ 8192

/-- The reports `decode_execution_report` takes: one field holds them, and every text and list
keeps within its ceiling. -/
@[mk_iff]
structure ExecutionReport.Transportable (r : ExecutionReport) : Prop where
  size : r.packedBytes ≤ kMaxFieldBytes
  standardOutput : r.process.capture.standardOutput.length ≤ 2^22
  standardError : r.process.capture.standardError.length ≤ 2^22
  detail : r.detail.length ≤ 2^16
  workspaceRoot : r.workspaceRoot.length ≤ kMaxPathBytes
  outputs : r.outputs.length ≤ 256 ∧ ∀ o ∈ r.outputs,Labelled o.logicalName o.path
  diagnostics : r.diagnostics.length ≤ DiagnosticSet.kMaxEntries ∧ ∀ d ∈ r.diagnostics,d.Transportable

/-- The requests `decode_compile_request` takes. -/
@[mk_iff]
structure CompileRequest.Transportable (c : CompileRequest) : Prop where
  size : c.packedBytes ≤ kMaxFieldBytes
  target : c.target.Bounded
  sources : BoundedTexts 4096 kMaxPathBytes c.sources
  inlineSources : c.inlineSources.length ≤ 4096 ∧
    ∀ s ∈ c.inlineSources,s.1.length ≤ 4096 ∧ s.2.length ≤ 2^22
  outputDirectory : c.outputDirectory.length ≤ kMaxPathBytes
  finalArtifactName : c.finalArtifactName.length ≤ 4096
  policy : c.policy.retryableClasses.length ≤ 64 ∧ BoundedTexts 256 4096 c.policy.forbiddenOptions
  environment : c.environment.Bounded
  adapterOptions : c.adapterOptions.length ≤ 4096 ∧ ∀ v ∈ c.adapterOptions,v.Bounded 4096 (2^16)

/-- The orders `decode_invocation_order` takes. -/
@[mk_iff]
structure InvocationOrder.Transportable (o : InvocationOrder) : Prop where
  size : o.packedBytes ≤ kMaxFieldBytes
  executable : o.invocation.executable.length ≤ kMaxPathBytes
  arguments : BoundedTexts kMaxArguments kMaxArgumentBytes o.invocation.arguments
  variables' : o.process.environment.length ≤ 4096 ∧ ∀ v ∈ o.process.environment,v.Bounded 4096 (2^16)
  processDirectory : o.process.workingDirectory.length ≤ kMaxPathBytes
  invocationDirectory : o.invocation.workingDirectory.length ≤ kMaxPathBytes
  adapterName : o.invocation.adapterName.length ≤ 256
  expectedOutputs : o.invocation.expectedOutputs.length ≤ 256 ∧
    ∀ b ∈ o.invocation.expectedOutputs,Labelled b.logicalName b.path
  workspaceRoot : o.workspaceRoot.length ≤ 32768
  phaseLabel : o.phaseLabel.length ≤ 256

/-- The report as far as it is transported: the status of the process stays behind. -/
def ExecutionReport.transported (r : ExecutionReport) : ExecutionReport :=
  { r with process := { r.process with status := ⟨.ok,[]⟩ } }

/-- The order as far as it is transported. What the worker does not get of the invocation are the
variables, the inputs and all but the path, digest and size of the executable; of the process it gets
the environment, the directory and the two limits. -/
def InvocationOrder.transported (o : InvocationOrder) : InvocationOrder where
  invocation := { o.invocation with
    environmentVariables := []
    inputs := []
    executableIdentity := {
      canonicalPath := o.invocation.executable
      content := o.invocation.executableIdentity.content
      sizeBytes := o.invocation.executableIdentity.sizeBytes
      contentHashed := !o.invocation.executableIdentity.content.zero } }
  process := { o.process with
    executable := o.invocation.executable
    arguments := o.invocation.arguments
    standardInput := []
    inheritAmbientEnvironment := false }
  workspaceRoot := o.workspaceRoot
  phaseLabel := o.phaseLabel

/-- One field carries at most `kMaxFieldBytes`; more than that, and no field is written at all. -/
theorem fieldBlob_blobPayload {bytes blob : Bytes} :
    fieldBlob (blobPayload bytes) 1=.ok blob ↔ bytes.length ≤ kMaxFieldBytes ∧ bytes=blob := by
  unfold blobPayload FieldWriter.blob
  split_ifs with h
  · constructor
    · intro hb
      cases hb
    · exact fun hb => absurd hb.1 (by omega)
  · let f : Field := ⟨1,bytes⟩
    obtain ⟨r',hn,hw,hf,hr,_⟩ := FieldReader.next_record (t := [])
      (r := { payload := (FieldWriter.emit {} 1 bytes).take }) (f := f) (by
        simp [FieldReader.rest,FieldWriter.emit,FieldWriter.take,Field.record,f])
      (Nat.not_lt.1 h) (by simp)
    have hid : r'.currentId=1 := congrArg Field.id hf
    have hv : r'.currentValue=bytes := congrArg Field.value hf
    have hblob : fieldBlob (FieldWriter.emit {} 1 bytes).take 1=.ok bytes := by
      have hfin := FieldReader.finish_of_rest hw hr
      simp only [fieldBlob,hn,bind,Except.bind,ensure,hid,if_true,FieldReader.asBlob,hv,hfin]
      rfl
    rw [hblob]
    simp [Nat.not_lt.1 h]

/-- A packed value comes back from its payload exactly when one field holds it and its reader
takes it. -/
theorem fieldBlob_bind {α : Type} {F : Format Status α} {e : Status} {x y : α} :
    (do let blob ← fieldBlob (blobPayload (F.write x)) 1; F.readAll e blob)=.ok y ↔
      (F.write x).length ≤ kMaxFieldBytes ∧ F.readAll e (F.write x)=.ok y := by
  rw [Base.do_eq_ok]
  constructor
  · rintro ⟨blob,hb,h⟩
    obtain ⟨hl,rfl⟩ := fieldBlob_blobPayload.1 hb
    exact ⟨hl,h⟩
  · rintro ⟨hl,h⟩
    exact ⟨_,fieldBlob_blobPayload.2 ⟨hl,rfl⟩,h⟩

theorem executionReport_good (r : ExecutionReport) :
    r.Transportable ↔ r.packedBytes ≤ kMaxFieldBytes ∧ Payload.executionReport.good r.transported := by
  simp [ExecutionReport.transportable_iff,Payload.executionReport,ExecutionReport.transported,
    Payload.capture,Payload.termination,Payload.statusCode,Payload.output,Payload.objectFormat,
    Payload.diagnostic,Payload.severity,Diagnostic.transportable_iff,Labelled,and_assoc]

theorem executionReport_recovered (r : ExecutionReport) :
    decodeExecutionReport (encodeExecutionReport r)=.ok r.transported ↔ r.Transportable := by
  unfold decodeExecutionReport encodeExecutionReport
  rw [fieldBlob_bind,Payload.executionReport_length,executionReport_good]
  exact and_congr_right fun _ => Format.readAll_write _ _ r.transported

theorem compileRequest_good (c : CompileRequest) :
    c.Transportable ↔ c.packedBytes ≤ kMaxFieldBytes ∧ Payload.compileRequest.good c := by
  simp [CompileRequest.transportable_iff,Payload.compileRequest,Payload.inlineSource,
    Payload.kMaxCollection,BoundedTexts]

theorem compileRequest_recovered (c : CompileRequest) :
    decodeCompileRequest (encodeCompileRequest c)=.ok c ↔ c.Transportable := by
  unfold decodeCompileRequest encodeCompileRequest
  rw [fieldBlob_bind,Payload.compileRequest_length,compileRequest_good]
  exact and_congr_right fun _ => Format.readAll_write _ _ c

theorem invocationOrder_good (o : InvocationOrder) :
    o.Transportable ↔ o.packedBytes ≤ kMaxFieldBytes ∧ Payload.invocationOrder.good o.transported := by
  simp [InvocationOrder.transportable_iff,Payload.invocationOrder,InvocationOrder.transported,
    Payload.style,Payload.binding,Payload.objectFormat,Payload.kMaxCollection,BoundedTexts,Labelled]

theorem invocationOrder_recovered (o : InvocationOrder) :
    decodeInvocationOrder (encodeInvocationOrder o)=.ok o.transported ↔ o.Transportable := by
  unfold decodeInvocationOrder encodeInvocationOrder
  rw [fieldBlob_bind,Payload.invocationOrder_length,invocationOrder_good]
  exact and_congr_right fun _ => Format.readAll_write _ _ o.transported

/-- Reports, requests and orders come back from their payloads with everything that is transported
exactly when they are transportable. -/
theorem payloads_recovered_iff (r : ExecutionReport) (c : CompileRequest) (o : InvocationOrder) :
    (decodeExecutionReport (encodeExecutionReport r)=.ok r.transported ↔ r.Transportable) ∧
    (decodeCompileRequest (encodeCompileRequest c)=.ok c ↔ c.Transportable) ∧
    (decodeInvocationOrder (encodeInvocationOrder o)=.ok o.transported ↔ o.Transportable) :=
  ⟨executionReport_recovered r,compileRequest_recovered c,invocationOrder_recovered o⟩

/-- Of a report that one field does not hold the writer drops everything, and the reader finds an
empty payload. -/
theorem executionReport_dropped {r : ExecutionReport} (h : kMaxFieldBytes<r.packedBytes) :
    decodeExecutionReport (encodeExecutionReport r)=
      .error (protocolMalformed "message payload is empty") := by
  rw [← Payload.executionReport_length] at h
  unfold decodeExecutionReport encodeExecutionReport blobPayload FieldWriter.blob
  rw [if_pos h]
  rfl

/-- The report of a compiler that printed `n` bytes. -/
def Sample.printed (n : Nat) : ExecutionReport where
  executed := true
  process := {
    termination := .exited
    capture := { standardOutput := List.replicate n 46,standardOutputBytes := UInt64.ofNat n } }

theorem Sample.printed_packedBytes (n : Nat) : (printed n).packedBytes=n+193 := by
  simp [printed,ExecutionReport.packedBytes]

/-- As much output as is captured by default is already too much for the way back. -/
theorem captured_report_lost :
    (Sample.printed 1048576).process.capture.standardOutput.length ≤ kDefaultCaptureBytes.toNat ∧
    decodeExecutionReport (encodeExecutionReport (Sample.printed 1048576))=
      .error (protocolMalformed "message payload is empty") := by
  constructor
  · have hlen : (Sample.printed 1048576).process.capture.standardOutput.length=1048576 :=
      List.length_replicate
    rw [hlen]
    decide
  · apply executionReport_dropped
    rw [Sample.printed_packedBytes]
    decide

end CompilerFabric
