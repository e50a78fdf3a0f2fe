import CompilerFabric.Core.Bounds
import CompilerFabric.Ipc.Rows

namespace CompilerFabric

open Base (Format Bytes)

/-! Whether what is decoded keeps to the declared enumerators. -/

/-- The decoders of the records that are stored and of the messages that carry enumerations. -/
inductive DecoderKind
  | phase | session | artifact | diagnostics | toolchain | target | environment | policy | source
  | compileRequest | invocationOrder | executionReport | error

def ReportFields.Declared (r : ReportFields) : Prop :=
  let (_,_,_,_,_,termination,_,_,_,_,status,_,_,_,outputs,diagnostics) := r
  termination.toNat<6 ∧ status.Declared ∧
    (∀ o ∈ outputs,o.2.2.1.toNat<ObjectFormat.values.length) ∧
    ∀ d ∈ diagnostics,d.1.toNat<DiagnosticSeverity.values.length

def OrderFields.Declared (o : OrderFields) : Prop :=
  let (_,_,_,_,_,_,_,_,_,_,_,_,_,_,_,_,_,_,style,_,_,outputs,_) := o
  style.toNat<ArgumentStyle.values.length ∧
    ∀ b ∈ outputs,b.2.2.1.toNat<ObjectFormat.values.length

def CompileRequest.Declared (c : CompileRequest) : Prop :=
  c.toolchainFamily.Declared ∧ c.target.Declared ∧ c.policy.Declared ∧ c.environment.Declared

/-- The visit of `decode_error`, with a check of the code. -/
def Strict.readError (error : StatusCode × Bytes) (r : FieldReader) : Result (StatusCode × Bytes) := do
  let read ← CompilerFabric.readError error r
  ensure (r.currentId=1 → read.1.Declared) (protocolMalformed "error code is not declared")
  return read

namespace DecoderKind

/-- What a decoder gives back, the enumerations of a message as the bytes they are cast from. -/
def Value : DecoderKind → Type
  | phase => PhaseRecord
  | session => CompilerSession
  | artifact => IntermediateArtifact
  | diagnostics => DiagnosticSet
  | toolchain => ToolchainIdentity
  | target => TargetIdentity
  | environment => EnvironmentIdentity
  | policy => PolicyIdentity
  | source => SourceUnit
  | compileRequest => CompileRequest
  | invocationOrder => OrderFields
  | executionReport => ReportFields
  | error => StatusCode × Bytes

def decode : (kind : DecoderKind) → Bytes → Result kind.Value
  | phase => decodePhase
  | session => decodeSession
  | artifact => decodeArtifact
  | diagnostics => decodeDiagnosticSet
  | toolchain => decodeToolchain
  | target => decodeTargetIdentity
  | environment => decodeEnvironmentIdentity
  | policy => decodePolicyIdentity
  | source => decodeSourceUnit
  | compileRequest => decodeCompileRequest
  | invocationOrder => decodeOrderFields
  | executionReport => decodeReportFields
  | error => decodeError

/-- The bytes are taken by the decoder, whose records of a message hold enumerators. -/
def accepts : DecoderKind → Bytes → Bool
  | invocationOrder,bytes => (decodeInvocationOrder bytes).isOk
  | executionReport,bytes => (decodeExecutionReport bytes).isOk
  | kind,bytes => (kind.decode bytes).isOk

/-- Every enumeration of the value is one of its declared enumerators. -/
def Declared : (kind : DecoderKind) → kind.Value → Prop
  | phase => PhaseRecord.Declared
  | session => CompilerSession.Declared
  | artifact => IntermediateArtifact.Declared
  | diagnostics => DiagnosticSet.Declared
  | toolchain => ToolchainIdentity.Declared
  | target => fun identity => identity.spec.Declared
  | environment => fun identity => identity.spec.Declared
  | policy => fun identity => identity.spec.Declared
  | source => SourceUnit.Declared
  | compileRequest => CompileRequest.Declared
  | invocationOrder => OrderFields.Declared
  | executionReport => ReportFields.Declared
  | error => fun read => read.1.Declared

/-- The decoder with every enumeration checked where it is read, as `Decoder::enumeration` does,
against its declared enumerators. -/
def decodeStrict : (kind : DecoderKind) → Bytes → Result kind.Value
  | phase => (Strict.phase (malformed "phase body")).strict.readAll
      (malformed "phase has trailing bytes")
  | session => (Strict.session (malformed "session candidate")).strict.readAll
      (malformed "session has trailing bytes")
  | artifact => decodeArtifact
  | diagnostics => decodeDiagnosticSet
  | toolchain => (Strict.toolchain (malformed "toolchain body")).strict.readAll
      (malformed "toolchain has trailing bytes")
  | target => Strict.target.strict.readAll
      (malformed "target identity has trailing bytes")
  | environment => Strict.environment.strict.readAll
      (malformed "environment identity has trailing bytes")
  | policy => Strict.policy.strict.readAll
      (malformed "policy identity has trailing bytes")
  | source => (Strict.sourceUnit (malformed "source unit body")).strict.readAll
      (malformed "source unit has trailing bytes")
  | compileRequest => fun payload => fieldBlob payload 1 >>=
      (Strict.compileRequest (protocolMalformed "compile request is malformed")).strict.readAll
        (protocolMalformed "compile request has trailing bytes")
  | invocationOrder => fun payload => fieldBlob payload 1 >>=
      (Strict.order (protocolMalformed "invocation order is malformed")).strict.readAll
        (protocolMalformed "invocation order has trailing bytes")
  | executionReport => fun payload => fieldBlob payload 1 >>=
      (Strict.report (protocolMalformed "execution report is malformed")).strict.readAll
        (protocolMalformed "execution report has trailing bytes")
  | error => fun payload => do
      let (read,r) ← FieldReader.each Strict.readError (.internalError,[]) { payload := payload }
      r.finish
      return read

end DecoderKind

section Laws

variable {payload bytes : Bytes}

theorem blob_strict_iff {α : Type} {F : Format Status α} (N : Format.Stricter F) {e : Status}
    {value : α} (h : (fieldBlob payload 1 >>= F.readAll e)=.ok value) :
    (fieldBlob payload 1 >>= N.strict.readAll e).isOk=true ↔ N.fine value := by
  obtain ⟨blob,hblob,hread⟩ := Base.do_eq_ok.1 h
  rw [hblob]
  exact N.isOk_iff hread

variable {e : Status}

theorem compileRequest_fine {c : CompileRequest} : (Strict.compileRequest e).fine c ↔ c.Declared := by
  have hfine : (Strict.compileRequest e).fine c ↔ decide (c.toolchainFamily.raw.toNat<9)=true ∧
      (Strict.targetSpec e : Format.Stricter (targetSpecFormat _)).fine c.target ∧
      (decide (c.policy.reproducibility.raw.toNat<3)=true ∧
        ∀ f ∈ c.policy.retryableClasses,decide (f.toNat<16)=true) ∧
      (Strict.environmentSpec e : Format.Stricter (environmentSpecFormat
        (protocolMalformed "compile request is malformed"))).fine c.environment := Iff.rfl
  rw [hfine,Strict.targetSpec_fine,Strict.environmentSpec_fine]
  simp [CompileRequest.Declared,PolicySpec.Declared,ToolchainFamily.Declared,
    ReproducibilityPolicy.Declared,FailureClass.values]

theorem order_fine {o : OrderFields} : (Strict.order e).fine o ↔ OrderFields.Declared o := by
  have hfine : (Strict.order e).fine o ↔
      decide (o.2.2.2.2.2.2.2.2.2.2.2.2.2.2.2.2.2.2.1.toNat<2)=true ∧
      ∀ b ∈ o.2.2.2.2.2.2.2.2.2.2.2.2.2.2.2.2.2.2.2.2.2.1,
        decide (b.2.2.1.toNat<13)=true := Iff.rfl
  rw [hfine]
  simp [OrderFields.Declared,ArgumentStyle.values,ObjectFormat.values]

theorem report_fine {r : ReportFields} : (Strict.report e).fine r ↔ ReportFields.Declared r := by
  have hfine : (Strict.report e).fine r ↔ decide (r.2.2.2.2.2.1.toNat<6)=true ∧
      decide r.2.2.2.2.2.2.2.2.2.2.1.Declared=true ∧
      (∀ o ∈ r.2.2.2.2.2.2.2.2.2.2.2.2.2.2.1,decide (o.2.2.1.toNat<13)=true) ∧
      ∀ d ∈ r.2.2.2.2.2.2.2.2.2.2.2.2.2.2.2,decide (d.1.toNat<6)=true := Iff.rfl
  rw [hfine]
  simp [ReportFields.Declared,ObjectFormat.values,DiagnosticSeverity.values]

section Errors

variable {read out : StatusCode × Bytes} {r last : FieldReader}

theorem readError_code (h : readError read r=.ok out) (hid : r.currentId ≠ 1) : out.1=read.1 := by
  unfold readError at h
  rw [if_neg hid] at h
  split_ifs at h
  · cases h
    rfl
  · cases h
    rfl

/-- The ids ascend, so behind the code there is no other. -/
theorem each_readError_code (hw : r.Within) (hlast : r.hasLast=true) (hid : 1 ≤ r.lastId)
    (h : FieldReader.each readError read r=.ok (out,last)) : out.1=read.1 := by
  fun_induction FieldReader.each readError read r with
  | case1 read r e hn => cases h
  | case2 read r r' hn =>
    cases h
    rfl
  | case3 read r r' hn _ e he => cases h
  | case4 read r r' hn _ next hnext ih =>
    obtain ⟨hc,_⟩ | ⟨_,_,hw',hlast',hid',_,hasc,_⟩ := FieldReader.next_ok hw hn
    · cases hc
    have hlt : 1<r'.currentId := UInt16.lt_of_le_of_lt hid (hasc hlast)
    have hle : 1 ≤ r'.lastId := by
      rw [hid']
      exact UInt16.le_of_lt hlt
    rw [ih hw' hlast' hle h]
    exact readError_code hnext (UInt16.ne_of_lt hlt).symm

theorem strict_readError (h : readError read r=.ok out) : Strict.readError read r=
    if r.currentId=1 → out.1.Declared then .ok out
    else .error (protocolMalformed "error code is not declared") := by
  unfold Strict.readError
  rw [h]
  show (ensure _ _).bind _=_
  unfold ensure
  split_ifs <;> rfl

/-- The checked loop ends like the other one, unless the code it ends with is not declared. -/
theorem each_strict (hw : r.Within) (hread : read.1.Declared)
    (h : FieldReader.each readError read r=.ok (out,last)) :
    FieldReader.each Strict.readError read r=if out.1.Declared then .ok (out,last)
      else .error (protocolMalformed "error code is not declared") := by
  fun_induction FieldReader.each readError read r with
  | case1 read r e hn => cases h
  | case2 read r r' hn =>
    cases h
    rw [FieldReader.each_end hn,if_pos hread]
  | case3 read r r' hn _ e he => cases h
  | case4 read r r' hn _ next hnext ih =>
    obtain ⟨hc,_⟩ | ⟨_,_,hw',hlast',hid',_,_,_⟩ := FieldReader.next_ok hw hn
    · cases hc
    rw [FieldReader.each_more hn,strict_readError hnext]
    by_cases hdeclared : next.1.Declared
    · rw [if_pos fun _ => hdeclared]
      exact ih hw' hdeclared h
    · -- only the field of the code can have changed it
      have hone : r'.currentId=1 := by
        by_contra hid
        rw [readError_code hnext hid] at hdeclared
        exact hdeclared hread
      have hle : 1 ≤ r'.lastId := by
        rw [hid']
        exact UInt16.le_of_eq hone.symm
      rw [each_readError_code hw' hlast' hle h,if_neg hdeclared,if_neg fun hc => hdeclared (hc hone)]
      rfl

end Errors

theorem error_strict_iff {read : StatusCode × Bytes} (h : decodeError payload=.ok read) :
    (DecoderKind.error.decodeStrict payload).isOk=true ↔ read.1.Declared := by
  obtain ⟨⟨out,last⟩,heach,h⟩ := Base.do_eq_ok.1 h
  obtain ⟨⟨⟩,hfinish,h⟩ := Base.do_eq_ok.1 h
  obtain rfl := Except.ok.inj h
  have hstrict := each_strict (Nat.zero_le _) (by decide) heach
  show (FieldReader.each Strict.readError (.internalError,[]) { payload := payload } >>= _).isOk=true ↔ _
  rw [hstrict]
  by_cases hdeclared : out.1.Declared
  · rw [if_pos hdeclared]
    refine iff_of_true ?_ hdeclared
    show (last.finish >>= _).isOk=true
    rw [hfinish]
    rfl
  · rw [if_neg hdeclared]
    exact iff_of_false (by simp [bind,Except.bind,Except.isOk,Except.toBool]) hdeclared

namespace DecoderKind

theorem isOk_map {ε α β : Type} (f : α → β) (r : Except ε α) : (r.map f).isOk=r.isOk := by
  cases r with
  | error => rfl
  | ok => rfl

/-- The decoder takes what its fields are read from. -/
theorem accepts_eq (kind : DecoderKind) (bytes : Bytes) :
    kind.accepts bytes=(kind.decode bytes).isOk := by
  cases kind with
  | invocationOrder =>
    obtain ⟨f,hf⟩ := decodeInvocationOrder_fields
    rw [accepts,hf bytes,isOk_map]
    rfl
  | executionReport =>
    obtain ⟨f,hf⟩ := decodeExecutionReport_fields
    rw [accepts,hf bytes,isOk_map]
    rfl
  | _ => rfl

theorem declared_iff_strict (kind : DecoderKind) {value : kind.Value}
    (h : kind.decode bytes=.ok value) :
    kind.Declared value ↔ (kind.decodeStrict bytes).isOk=true := by
  cases kind with
  | phase => exact (((Strict.phase (malformed "phase body")).isOk_iff h).trans Strict.phase_fine).symm
  | session => exact (((Strict.session (malformed "session candidate")).isOk_iff h).trans Strict.session_fine).symm
  | artifact =>
    have hok : decodeArtifact bytes=.ok value := h
    refine iff_of_true ?_ (by rw [decodeStrict,hok]; rfl)
    exact ⟨ObjectFormat.mem_values _,ArtifactState.mem_values _,AuthorityState.mem_values _⟩
  | diagnostics =>
    have hok : decodeDiagnosticSet bytes=.ok value := h
    exact iff_of_true (fun entry _ => DiagnosticSeverity.mem_values _) (by rw [decodeStrict,hok]; rfl)
  | toolchain => exact (((Strict.toolchain (malformed "toolchain body")).isOk_iff h).trans Strict.toolchain_fine).symm
  | target => exact ((Strict.target.isOk_iff h).trans Strict.targetSpec_fine).symm
  | environment => exact ((Strict.environment.isOk_iff h).trans decide_eq_true_iff).symm
  | policy => exact ((Strict.policy.isOk_iff h).trans Strict.policySpec_fine).symm
  | source => exact (((Strict.sourceUnit (malformed "source unit body")).isOk_iff h).trans decide_eq_true_iff).symm
  | compileRequest => exact ((blob_strict_iff (Strict.compileRequest (protocolMalformed "compile request is malformed")) h).trans
      compileRequest_fine).symm
  | invocationOrder => exact ((blob_strict_iff (Strict.order (protocolMalformed "invocation order is malformed")) h).trans
      order_fine).symm
  | executionReport => exact ((blob_strict_iff (Strict.report (protocolMalformed "execution report is malformed")) h).trans
      report_fine).symm
  | error => exact (error_strict_iff h).symm

/-- What is decoded keeps to the declared enumerators exactly when the bytes, which the decoder
takes, are taken as well with every enumeration checked. -/
theorem declared_iff (kind : DecoderKind) {value : kind.Value} (h : kind.decode bytes=.ok value) :
    kind.accepts bytes=true ∧ (kind.Declared value ↔ (kind.decodeStrict bytes).isOk=true) := by
  refine ⟨?_,kind.declared_iff_strict h⟩
  rw [accepts_eq,h]
  rfl

end DecoderKind

end Laws

namespace Sample

/-- A target of this architecture, as it is stored. -/
def targetOf (architecture : Architecture) : TargetIdentity :=
  { spec := { architecture } }

end Sample

theorem decode_targetOf (architecture : Architecture) :
    DecoderKind.target.decode (encodeTargetIdentity (Sample.targetOf architecture))=
      .ok (Sample.targetOf architecture) := by
  refine (targetFormat.readAll_write _ _).2 ?_
  rw [targetFormat,identityFormat_good,targetSpecFormat_good]
  have hnone : ([] : Bytes).length ≤ 256 := by decide
  exact ⟨hnone,hnone,hnone,hnone,hnone⟩

theorem declared_iff_x64 :
    DecoderKind.target.decode (encodeTargetIdentity (Sample.targetOf ⟨2⟩))=.ok (Sample.targetOf ⟨2⟩) ∧
      DecoderKind.target.accepts (encodeTargetIdentity (Sample.targetOf ⟨2⟩))=true ∧
      (DecoderKind.target.Declared (Sample.targetOf ⟨2⟩) ↔ (DecoderKind.target.decodeStrict
        (encodeTargetIdentity (Sample.targetOf ⟨2⟩))).isOk=true) :=
  ⟨decode_targetOf ⟨2⟩,DecoderKind.declared_iff .target (decode_targetOf ⟨2⟩)⟩

/-- A stored target of architecture 77 is taken. -/
theorem not_declared_architecture :
    ¬∀ (kind : DecoderKind) (bytes : Bytes) (value : kind.Value),kind.decode bytes=.ok value →
      kind.Declared value := by
  intro hall
  have h : (77 : UInt8).toNat<5 := (hall .target _ _ (decode_targetOf ⟨77⟩)).1
  exact absurd h (by decide)

end CompilerFabric
