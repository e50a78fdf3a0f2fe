import CompilerFabric.Core.Persistence
import Mathlib.Tactic.MkIffOfInductiveProp

namespace CompilerFabric

open Base (Bytes Format)

namespace Codec

variable {tag : IdTag} (e : Status)

@[simp] theorem u8_good (n : UInt8) : (u8 e).good n := trivial
@[simp] theorem u32_good (n : UInt32) : (u32 e).good n := trivial
@[simp] theorem u64_good (n : UInt64) : (u64 e).good n := trivial
@[simp] theorem i32_good (n : Int32) : (i32 e).good n := trivial
@[simp] theorem b_good (v : Bool) : (b e).good v := trivial
@[simp] theorem digest_good (d : Digest) : (digest e).good d := trivial
@[simp] theorem identity_good (x : StrongId tag) : (identity e).good x := trivial
@[simp] theorem generation_good (x : Generation tag) : (generation e).good x := trivial
@[simp] theorem reference_good (x : Ref tag) : (reference e).good x := ⟨trivial,trivial⟩
@[simp] theorem schema_good (m : Status) (x : Unit) : (schema e m).good x := trivial

@[simp] theorem phaseKind_good (x : PhaseKind) : (phaseKind e).good x := ⟨trivial,trivial⟩
@[simp] theorem phaseState_good (x : PhaseState) : (phaseState e).good x := ⟨trivial,trivial⟩
@[simp] theorem failureClass_good (x : FailureClass) : (failureClass e).good x := ⟨trivial,trivial⟩
@[simp] theorem objectFormat_good (x : ObjectFormat) : (objectFormat e).good x := ⟨trivial,trivial⟩
@[simp] theorem artifactState_good (x : ArtifactState) : (artifactState e).good x := ⟨trivial,trivial⟩
@[simp] theorem severity_good (x : DiagnosticSeverity) : (severity e).good x := ⟨trivial,trivial⟩
@[simp] theorem sessionState_good (x : SessionState) : (sessionState e).good x := ⟨trivial,trivial⟩

@[simp] theorem authorityState_good (x : AuthorityState) : (authorityState e).good x :=
  ⟨trivial,trivial⟩

@[simp] theorem recoveryState_good (x : RecoveryState) : (recoveryState e).good x :=
  ⟨trivial,trivial⟩

@[simp] theorem str_good (bound : Nat) (h) (s : Bytes) : (str e bound h).good s ↔ s.length ≤ bound :=
  Iff.rfl

@[simp] theorem path_good (s : Bytes) : (path e).good s ↔ s.length ≤ kMaxPathBytes := Iff.rfl

@[simp] theorem collection_good {α : Type} (F : Format Status α) (bound : Nat) (h) (xs : List α) :
    (collection e F bound h).good xs ↔ xs.length ≤ bound ∧ ∀ x ∈ xs,F.good x := Iff.rfl

@[simp] theorem count_good (bound : Nat) (n : UInt64) : (count e bound).good n ↔ n.toNat ≤ bound := by
  simp [count]

@[simp] theorem statusCode_good (c : StatusCode) : (statusCode e).good c ↔ c.raw ≤ 200 := by
  simp [statusCode]

end Codec

/-- The bounds `decode_phase` checks in an attempt. -/
@[mk_iff]
structure PhaseAttempt.Bounded (a : PhaseAttempt) : Prop where
  status : a.status.raw ≤ 200
  detail : a.detail.length ≤ kMaxStringBytes

@[simp] theorem Codec.attempt_good (e : Status) (a : PhaseAttempt) :
    (attempt e).good a ↔ a.Bounded := by
  simp [attempt,PhaseAttempt.bounded_iff]

@[simp] theorem Codec.transition_good (e : Status) (t : PhaseTransition) :
    (transition e).good t ↔ t.reason.length ≤ kMaxStringBytes := by
  simp [transition]

/-- The bounds `decode_phase` checks. -/
@[mk_iff]
structure PhaseRecord.Bounded (p : PhaseRecord) : Prop where
  adapterPhase : p.adapterPhase.length ≤ kMaxStringBytes
  lastStatus : p.lastStatus.raw ≤ 200
  lastDetail : p.lastDetail.length ≤ kMaxStringBytes
  dependsOn : p.dependsOn.length ≤ kMaxCollection
  inputs : p.inputs.length ≤ kMaxCollection
  outputs : p.outputs.length ≤ kMaxCollection
  attempts : p.attempts.length ≤ kMaxPhaseAttempts ∧ ∀ a ∈ p.attempts,a.Bounded
  history : p.history.length ≤ kMaxPhaseTransitions ∧
    ∀ t ∈ p.history,t.reason.length ≤ kMaxStringBytes

theorem phaseFormat_good (p : PhaseRecord) : phaseFormat.good p ↔ p.Bounded := by
  simp [phaseFormat,PhaseRecord.bounded_iff]

/-- The bounds `decode_artifact` checks. -/
@[mk_iff]
structure IntermediateArtifact.Bounded (a : IntermediateArtifact) : Prop where
  path : a.path.length ≤ kMaxPathBytes
  validationDetail : a.validationDetail.length ≤ kMaxStringBytes
  lineageInputs : a.lineageInputs.length ≤ kMaxCollection

theorem artifactFormat_good (a : IntermediateArtifact) : artifactFormat.good a ↔ a.Bounded := by
  simp [artifactFormat,IntermediateArtifact.bounded_iff]

@[mk_iff]
structure Diagnostic.Bounded (d : Diagnostic) : Prop where
  code : d.code.length ≤ kMaxStringBytes
  message : d.message.length ≤ kMaxStringBytes
  file : d.file.length ≤ kMaxStringBytes
  origin : d.origin.length ≤ kMaxStringBytes
  raw : d.raw.length ≤ kMaxBlobBytes

@[simp] theorem Codec.diagnostic_good (e : Status) (d : Diagnostic) :
    (diagnostic e).good d ↔ d.Bounded := by
  simp [diagnostic,Diagnostic.bounded_iff]

/-- The bounds `decode_diagnostic_set` checks. -/
@[mk_iff]
structure DiagnosticSet.Bounded (d : DiagnosticSet) : Prop where
  rawStdoutTail : d.rawStdoutTail.length ≤ kMaxRawTailBytes
  rawStderrTail : d.rawStderrTail.length ≤ kMaxRawTailBytes
  entries : d.entries.length ≤ kMaxEntries ∧ ∀ x ∈ d.entries,x.Bounded

theorem diagnosticSetFormat_good (d : DiagnosticSet) : diagnosticSetFormat.good d ↔ d.Bounded := by
  simp [diagnosticSetFormat,DiagnosticSet.bounded_iff]

/-- The bounds `decode_candidate` checks. -/
@[mk_iff]
structure FinalCandidate.Bounded (c : FinalCandidate) : Prop where
  path : c.path.length ≤ kMaxPathBytes
  lineage : c.lineage.length ≤ kMaxCollection
  validationEvidence : c.validationEvidence.length ≤ kMaxCollection

theorem candidateFormat_good (c : FinalCandidate) : candidateFormat.good c ↔ c.Bounded := by
  simp [candidateFormat,FinalCandidate.bounded_iff]

@[mk_iff]
structure PhaseNode.Bounded (n : PhaseNode) : Prop where
  adapterPhase : n.adapterPhase.length ≤ kMaxStringBytes
  requiredInputs : n.requiredInputs.toNat ≤ kMaxCollection
  dependsOn : n.dependsOn.length ≤ kMaxCollection
  expectedOutputs : n.expectedOutputs.length ≤ kMaxCollection

@[simp] theorem nodeFormat_good (e : Status) (n : PhaseNode) : (nodeFormat e).good n ↔ n.Bounded := by
  simp [nodeFormat,PhaseNode.bounded_iff]

/-- The bounds `decode_plan` checks before it builds the plan. -/
@[mk_iff]
structure PhasePlan.Bounded (plan : PhasePlan) : Prop where
  nodes : plan.nodes.length ≤ PlanData.kMaxPhases ∧ ∀ n ∈ plan.nodes,n.Bounded

theorem nodesFormat_good (plan : PhasePlan) : nodesFormat.good plan.nodes ↔ plan.Bounded := by
  simp [nodesFormat,PhasePlan.bounded_iff]

/-- A plan `PhasePlan::build` made. -/
def PhasePlan.Built (plan : PhasePlan) : Prop := ∃ nodes,PhasePlan.build nodes=.ok plan

theorem PhasePlan.Built.build_nodes {plan : PhasePlan} (h : plan.Built) :
    PhasePlan.build plan.nodes=.ok plan := by
  obtain ⟨nodes,h⟩ := h
  rwa [show plan.nodes=nodes from PlanData.build_nodes (PhasePlan.build_ok.1 h)]

@[mk_iff]
structure EnvironmentVariable.Bounded (nameBound valueBound : Nat) (v : EnvironmentVariable) : Prop where
  name : v.name.length ≤ nameBound
  value : v.value.length ≤ valueBound

@[simp] theorem variableFormat_good (e : Status) (nameBound valueBound : Nat) (hn) (hv)
    (v : EnvironmentVariable) :
    (variableFormat e nameBound valueBound hn hv).good v ↔ v.Bounded nameBound valueBound := by
  simp [variableFormat,EnvironmentVariable.bounded_iff]

/-- The bounds `decode_session` checks, those of the records a session holds included. -/
@[mk_iff]
structure CompilerSession.Bounded (s : CompilerSession) : Prop where
  adapterName : s.adapterName.length ≤ kMaxStringBytes
  finalArtifactName : s.finalArtifactName.length ≤ kMaxStringBytes
  adapterOptions : s.adapterOptions.length ≤ 1024 ∧
    ∀ v ∈ s.adapterOptions,v.Bounded kMaxStringBytes kMaxStringBytes
  cooperatingToolchains : s.cooperatingToolchains.length ≤ kMaxCollection
  sources : s.sources.length ≤ SourceRegistry.kMaxSources
  plan : s.plan.Bounded ∧ (encodePlan s.plan).length ≤ kMaxBlobBytes
  phases : s.phases.size ≤ PlanData.kMaxPhases ∧
    ∀ (k : UInt64) (p : PhaseRecord),s.phases[k]?=some p →
      p.Bounded ∧ (encodePhase p).length ≤ kMaxBlobBytes
  intermediates : s.intermediates.length ≤ ArtifactRegistry.kMaxArtifacts
  candidate : s.candidate.Bounded ∧ (encodeCandidate s.candidate).length ≤ kMaxBlobBytes
  failureDetail : s.failureDetail.length ≤ kMaxStringBytes

theorem orderedPhases_length (phases : Table PhaseRecord) :
    (orderedPhases phases).length=phases.size := by
  simp [orderedPhases,List.length_insertionSort]

theorem phasesFormat_good (e : Status) (phases : Table PhaseRecord) :
    (phasesFormat e).good phases ↔ KeyedById phases ∧ phases.size ≤ PlanData.kMaxPhases ∧
      ∀ (k : UInt64) (p : PhaseRecord),phases[k]?=some p →
        p.Bounded ∧ (encodePhase p).length ≤ kMaxBlobBytes := by
  have hlist : (∀ p ∈ orderedPhases phases,(phaseBlob e).good p) ↔
      ∀ (k : UInt64) (p : PhaseRecord),phases[k]?=some p →
        p.Bounded ∧ (encodePhase p).length ≤ kMaxBlobBytes := by
    simp only [mem_orderedPhases,phaseBlob,Format.blob_good,phaseFormat_good]
    constructor
    · intro h k p hk
      exact h p ⟨k,hk⟩
    · rintro h p ⟨k,hk⟩
      exact h k p hk
  rw [← hlist,← orderedPhases_length]
  exact Iff.rfl

theorem planFormat_good (e : Status) (plan : PhasePlan) :
    (planFormat e).good plan ↔ plan.nodes ≠ [] ∧ plan.Bounded ∧
      (encodePlan plan).length ≤ kMaxBlobBytes := by
  simp [planFormat,nodesFormat_good,encodePlan]

theorem sessionFormat_good (s : CompilerSession) :
    sessionFormat.good s ↔ s.plan.nodes ≠ [] ∧ KeyedById s.phases ∧ s.Bounded := by
  simp only [sessionFormat,Format.view_good,Format.pair_good,planFormat_good,phasesFormat_good,
    CompilerSession.bounded_iff,Codec.schema_good,Codec.identity_good,Codec.generation_good,
    Codec.reference_good,Codec.sessionState_good,Codec.recoveryState_good,Codec.str_good,
    Codec.collection_good,variableFormat_good,Codec.b_good,Format.blob_good,candidateFormat_good,
    Codec.u64_good,Codec.u32_good,Codec.digest_good,encodeCandidate,implies_true,and_true,true_and,
    and_assoc]
  constructor
  · rintro ⟨name,final,count,options,tools,sources,nodes,plan,planSize,keyed,size,phases,rest⟩
    exact ⟨nodes,keyed,name,final,count,options,tools,sources,plan,planSize,size,phases,rest⟩
  · rintro ⟨nodes,keyed,name,final,count,options,tools,sources,plan,planSize,size,phases,rest⟩
    exact ⟨name,final,count,options,tools,sources,nodes,plan,planSize,keyed,size,phases,rest⟩

@[mk_iff]
structure FileIdentity.Bounded (f : FileIdentity) : Prop where
  canonicalPath : f.canonicalPath.length ≤ kMaxPathBytes
  volumeSerialHex : f.volumeSerialHex.length ≤ 64
  fileIndexHex : f.fileIndexHex.length ≤ 64

@[simp] theorem fileIdentityFormat_good (e : Status) (f : FileIdentity) :
    (fileIdentityFormat e).good f ↔ f.Bounded := by
  simp [fileIdentityFormat,FileIdentity.bounded_iff]

/-- The bounds `decode_environment_variables` checks. -/
def BoundedVariables (vs : List EnvironmentVariable) : Prop :=
  vs.length ≤ 4096 ∧ ∀ v ∈ vs,v.Bounded 4096 (2^20)

@[simp] theorem variablesFormat_good (e : Status) (vs : List EnvironmentVariable) :
    (variablesFormat e).good vs ↔ BoundedVariables vs := by
  simp [variablesFormat,BoundedVariables]

/-- A list of at most `bound` texts of at most `size` bytes. -/
def BoundedTexts (bound size : Nat) (ts : List Bytes) : Prop :=
  ts.length ≤ bound ∧ ∀ t ∈ ts,t.length ≤ size

/-- The bounds `decode_environment_identity` checks. -/
@[mk_iff]
structure EnvironmentSpec.Bounded (s : EnvironmentSpec) : Prop where
  workingDirectory : s.workingDirectory.length ≤ kMaxPathBytes
  tempDirectory : s.tempDirectory.length ≤ kMaxPathBytes
  vars : BoundedVariables s.vars
  includePaths : BoundedTexts 4096 kMaxPathBytes s.includePaths
  libraryPaths : BoundedTexts 4096 kMaxPathBytes s.libraryPaths
  sdkRoots : BoundedTexts 4096 kMaxPathBytes s.sdkRoots
  toolkitRoots : BoundedTexts 4096 kMaxPathBytes s.toolkitRoots
  inheritedVariables : BoundedTexts 4096 1024 s.inheritedVariables
  localeName : s.localeName.length ≤ 256

@[simp] theorem environmentSpecFormat_good (e : Status) (s : EnvironmentSpec) :
    (environmentSpecFormat e).good s ↔ s.Bounded := by
  simp [environmentSpecFormat,EnvironmentSpec.bounded_iff,BoundedTexts]

/-- The bounds `decode_policy_identity` checks. -/
@[mk_iff]
structure PolicySpec.Bounded (s : PolicySpec) : Prop where
  retryableClasses : s.retryableClasses.length ≤ 64
  forbiddenOptions : BoundedTexts 256 4096 s.forbiddenOptions
  maxParallelPhases : s.maxParallelPhases.toNat ≤ 4096
  maxDiagnosticEntries : s.maxDiagnosticEntries.toNat ≤ 2^20
  maxDiagnosticBytesPerStream : s.maxDiagnosticBytesPerStream.toNat ≤ 2^30

@[simp] theorem policySpecFormat_good (e : Status) (s : PolicySpec) :
    (policySpecFormat e).good s ↔ s.Bounded := by
  simp [policySpecFormat,PolicySpec.bounded_iff,BoundedTexts]

/-- The bounds `decode_target_identity` checks. -/
@[mk_iff]
structure TargetSpec.Bounded (s : TargetSpec) : Prop where
  triple : s.triple.length ≤ 256
  cpu : s.cpu.length ≤ 256
  deviceArch : s.deviceArch.length ≤ 256
  deviceVirtualArch : s.deviceVirtualArch.length ≤ 256
  abi : s.abi.length ≤ 256

@[simp] theorem targetSpecFormat_good (e : Status) (s : TargetSpec) :
    (targetSpecFormat e).good s ↔ s.Bounded := by
  simp [targetSpecFormat,TargetSpec.bounded_iff]

theorem identityFormat_good {tag : IdTag} {σ : Type} (what : String)
    (spec : Status → Format Status σ) (i : SpecIdentity tag σ) :
    (identityFormat what spec).good i ↔ (spec (malformed (what++" body"))).good i.spec := by
  simp [identityFormat]

def BoundedArchitectures (as : List Architecture) : Prop := as.length ≤ 32 ∧ ∀ a ∈ as,a.raw ≤ 4

@[simp] theorem architecturesFormat_good (e : Status) (as : List Architecture) :
    (architecturesFormat e).good as ↔ BoundedArchitectures as := by
  simp [architecturesFormat,BoundedArchitectures]

@[mk_iff]
structure ComponentIdentity.Bounded (c : ComponentIdentity) : Prop where
  name : c.name.length ≤ kMaxStringBytes
  version : c.version.length ≤ kMaxStringBytes
  file : c.file.Bounded
  commandCapabilities : BoundedTexts 256 4096 c.commandCapabilities
  targetSupport : BoundedArchitectures c.targetSupport
  objectFormats : c.objectFormats.length ≤ 32
  environmentRequirements : BoundedVariables c.environmentRequirements

@[simp] theorem componentFormat_good (e : Status) (c : ComponentIdentity) :
    (componentFormat e).good c ↔ c.Bounded := by
  simp [componentFormat,ComponentIdentity.bounded_iff,BoundedTexts]

/-- The bounds `decode_toolchain` checks. -/
@[mk_iff]
structure ToolchainIdentity.Bounded (t : ToolchainIdentity) : Prop where
  displayName : t.displayName.length ≤ kMaxStringBytes
  version : t.version.length ≤ kMaxStringBytes
  components : t.components.length ≤ 256 ∧ ∀ c ∈ t.components,c.Bounded
  targetSupport : BoundedArchitectures t.targetSupport
  objectFormats : t.objectFormats.length ≤ 32
  environmentContract : BoundedVariables t.environmentContract
  toolkitRoot : t.toolkitRoot.length ≤ kMaxPathBytes
  sdkRoot : t.sdkRoot.length ≤ kMaxPathBytes
  attributes : BoundedVariables t.attributes
  standardLibraryIdentity : t.standardLibraryIdentity.length ≤ kMaxStringBytes

theorem toolchainFormat_good (t : ToolchainIdentity) : toolchainFormat.good t ↔ t.Bounded := by
  simp [toolchainFormat,ToolchainIdentity.bounded_iff]

/-- The bounds `decode_source_unit` checks. -/
@[mk_iff]
structure SourceUnit.Bounded (u : SourceUnit) : Prop where
  path : u.path.length ≤ kMaxPathBytes
  dialect : u.dialect.length ≤ 256

theorem sourceUnitFormat_good (u : SourceUnit) : sourceUnitFormat.good u ↔ u.Bounded := by
  simp [sourceUnitFormat,SourceUnit.bounded_iff]

/-- The bounds `decode_provenance` checks. -/
@[mk_iff]
structure ProvenanceRecord.Bounded (r : ProvenanceRecord) : Prop where
  kind : r.kind.length ≤ 256
  inputs : r.inputs.length ≤ 4096
  outputs : r.outputs.length ≤ 4096
  adapter : r.adapter.length ≤ 256
  detail : r.detail.length ≤ ProvenanceLog.kMaxDetailBytes

theorem provenanceFormat_good (r : ProvenanceRecord) : provenanceFormat.good r ↔ r.Bounded := by
  simp [provenanceFormat,ProvenanceRecord.bounded_iff]

theorem decodePlan_encodePlan (plan : PhasePlan) :
    decodePlan (encodePlan plan)=.ok plan ↔ plan.Built ∧ plan.Bounded := by
  rw [← nodesFormat_good,← Format.readAll_write nodesFormat (malformed "plan has trailing bytes"),
    decodePlan,Base.bind_eq_ok]
  constructor
  · rintro ⟨nodes,hread,hbuild⟩
    have hn : plan.nodes=nodes := PlanData.build_nodes (PhasePlan.build_ok.1 hbuild)
    subst hn
    exact ⟨⟨_,hbuild⟩,hread⟩
  · rintro ⟨hbuilt,hread⟩
    exact ⟨_,hread,hbuilt.build_nodes⟩

theorem decodeSession_encodeSession (s : CompilerSession) :
    decodeSession (encodeSession s)=.ok s ↔ s.plan.Built ∧ KeyedById s.phases ∧ s.Bounded := by
  have hbuilt : s.plan.Built ↔ s.plan.nodes ≠ [] :=
    ⟨fun h => s.plan.build_nodes_self.1 h.build_nodes,fun h => ⟨_,s.plan.build_nodes_self.2 h⟩⟩
  rw [hbuilt,← sessionFormat_good]
  exact Format.readAll_write _ _ _

/-- Each decoder gives a record back from its own encoding exactly when the record is within the
bounds the decoder checks; a plan has to be one `PhasePlan::build` makes, and a session files its
phases under their identities. -/
theorem codecs_round_trip :
    (∀ x : PhaseRecord,decodePhase (encodePhase x)=.ok x ↔ x.Bounded) ∧
    (∀ x : IntermediateArtifact,decodeArtifact (encodeArtifact x)=.ok x ↔ x.Bounded) ∧
    (∀ x : DiagnosticSet,decodeDiagnosticSet (encodeDiagnosticSet x)=.ok x ↔ x.Bounded) ∧
    (∀ x : FinalCandidate,decodeCandidate (encodeCandidate x)=.ok x ↔ x.Bounded) ∧
    (∀ x : PhasePlan,decodePlan (encodePlan x)=.ok x ↔ x.Built ∧ x.Bounded) ∧
    (∀ x : CompilerSession,decodeSession (encodeSession x)=.ok x ↔
      x.plan.Built ∧ KeyedById x.phases ∧ x.Bounded) ∧
    (∀ x : ToolchainIdentity,decodeToolchain (encodeToolchain x)=.ok x ↔ x.Bounded) ∧
    (∀ x : TargetIdentity,decodeTargetIdentity (encodeTargetIdentity x)=.ok x ↔ x.spec.Bounded) ∧
    (∀ x : EnvironmentIdentity,
      decodeEnvironmentIdentity (encodeEnvironmentIdentity x)=.ok x ↔ x.spec.Bounded) ∧
    (∀ x : PolicyIdentity,decodePolicyIdentity (encodePolicyIdentity x)=.ok x ↔ x.spec.Bounded) ∧
    (∀ x : SourceUnit,decodeSourceUnit (encodeSourceUnit x)=.ok x ↔ x.Bounded) ∧
    (∀ x : ProvenanceRecord,decodeProvenance (encodeProvenance x)=.ok x ↔ x.Bounded) := by
  refine ⟨fun x => ?_,fun x => ?_,fun x => ?_,fun x => ?_,decodePlan_encodePlan,
    decodeSession_encodeSession,fun x => ?_,fun x => ?_,fun x => ?_,fun x => ?_,fun x => ?_,fun x => ?_⟩
  · rw [← phaseFormat_good]
    exact Format.readAll_write _ _ _
  · rw [← artifactFormat_good]
    exact Format.readAll_write _ _ _
  · rw [← diagnosticSetFormat_good]
    exact Format.readAll_write _ _ _
  · rw [← candidateFormat_good]
    exact Format.readAll_write _ _ _
  · rw [← toolchainFormat_good]
    exact Format.readAll_write _ _ _
  · rw [← targetSpecFormat_good,← identityFormat_good]
    exact Format.readAll_write _ _ _
  · rw [← environmentSpecFormat_good,← identityFormat_good]
    exact Format.readAll_write _ _ _
  · rw [← policySpecFormat_good,← identityFormat_good]
    exact Format.readAll_write _ _ _
  · rw [← sourceUnitFormat_good]
    exact Format.readAll_write _ _ _
  · rw [← provenanceFormat_good]
    exact Format.readAll_write _ _ _

end CompilerFabric
