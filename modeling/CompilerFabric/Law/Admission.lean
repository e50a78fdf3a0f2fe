import CompilerFabric.Core.Bounds
import CompilerFabric.Core.Environment
import CompilerFabric.Runtime.System

namespace CompilerFabric

open Base Base.Action

namespace EnvironmentSpec

/-- The lengths that `canonicalize` admits and `decode_environment_identity` may refuse. -/
@[mk_iff]
structure Persistable (s : EnvironmentSpec) : Prop where
  workingDirectory : (normalizeDirectory s.workingDirectory).length ≤ kMaxPathBytes
  tempDirectory : (normalizeDirectory s.tempDirectory).length ≤ kMaxPathBytes
  includePaths : ∀ p ∈ s.includePaths,(normalizePath p).length ≤ kMaxPathBytes
  libraryPaths : ∀ p ∈ s.libraryPaths,(normalizePath p).length ≤ kMaxPathBytes
  sdkRoots : ∀ p ∈ s.sdkRoots,(normalizePath p).length ≤ kMaxPathBytes
  toolkitRoots : ∀ p ∈ s.toolkitRoots,(normalizePath p).length ≤ kMaxPathBytes
  inheritedVariables : ∀ name ∈ s.inheritedVariables,name.length ≤ 1024
  localeName : s.localeName.length ≤ 256

theorem boundedTexts_normalizeList (ps : List Bytes) (h : ps.length ≤ 1024) :
    BoundedTexts 4096 kMaxPathBytes (normalizeList ps) ↔
      ∀ p ∈ ps,(normalizePath p).length ≤ kMaxPathBytes := by
  have hl := normalizeList_length ps
  rw [BoundedTexts]
  constructor
  · exact fun hb p hp => hb.2 _ ((mem_normalizeList ps _).2 ⟨p,hp,rfl⟩)
  · refine fun hb => ⟨by omega,fun p hp => ?_⟩
    obtain ⟨q,hq,rfl⟩ := (mem_normalizeList ps p).1 hp
    exact hb q hq

theorem boundedTexts_inherited (names : List Bytes) (h : names.length ≤ 256) :
    BoundedTexts 4096 1024 (uniqueBy (· == ·) (sortBytes names)) ↔ ∀ name ∈ names,name.length ≤ 1024 := by
  have hl := inherited_length names
  rw [BoundedTexts]
  simp only [mem_inherited]
  exact ⟨fun hb => hb.2,fun hb => ⟨by omega,hb⟩⟩

theorem Accepted.bounded_iff {s t : EnvironmentSpec} (h : s.Accepted t) :
    t.Bounded ↔ s.Persistable := by
  obtain ⟨hv,⟨hi,hl,hs,ht⟩,hn,he,_,_,_,_,rfl⟩ := h
  have hvars : BoundedVariables (s.vars.insertionSort fun a b => variableLe a b) := by
    refine ⟨by simpa using hv,fun v hv => ?_⟩
    have hc := checkVariable_ok (forM_ok.1 he v
      ((List.perm_insertionSort (fun a b => variableLe a b) s.vars).mem_iff.1 hv))
    exact ⟨by omega,by omega⟩
  rw [EnvironmentSpec.bounded_iff,persistable_iff]
  simp only [hvars,true_and,boundedTexts_normalizeList _ hi,boundedTexts_normalizeList _ hl,
    boundedTexts_normalizeList _ hs,boundedTexts_normalizeList _ ht,boundedTexts_inherited _ hn]

end EnvironmentSpec

/-- The fields that `validate` leaves open and `decode_policy_identity` bounds. -/
structure PolicySpec.Persistable (s : PolicySpec) : Prop where
  retryableClasses : s.retryableClasses.length ≤ 64
  maxDiagnosticEntries : s.maxDiagnosticEntries.toNat ≤ 2^20
  maxDiagnosticBytesPerStream : s.maxDiagnosticBytesPerStream.toNat ≤ 2^30

theorem PolicySpec.bounded_of_validate {s : PolicySpec} (h : s.validate=.ok ()) :
    s.Bounded ↔ s.Persistable := by
  unfold validate refuse at h
  split_ifs at h with h₁ h₂ h₃ h₄ h₅ h₆
  constructor
  · exact fun hb => ⟨hb.retryableClasses,hb.maxDiagnosticEntries,hb.maxDiagnosticBytesPerStream⟩
  · refine fun hp => ⟨hp.retryableClasses,⟨by omega,fun o ho => ?_⟩,?_,hp.maxDiagnosticEntries,
      hp.maxDiagnosticBytesPerStream⟩
    · simp only [List.any_eq_true,not_exists,not_and,Bool.or_eq_true,decide_eq_true_eq,not_or] at h₄
      have := (h₄ o ho).2
      omega
    · have hm : s.maxParallelPhases.toNat ≤ 256 := UInt64.le_iff_toNat_le.1 (UInt64.not_lt.1 h₆)
      omega

/-- The fields that `validate` leaves open and `decode_target_identity` bounds. -/
structure TargetSpec.Persistable (s : TargetSpec) : Prop where
  cpu : s.cpu.length ≤ 256
  deviceArch : s.deviceArch.length ≤ 256
  deviceVirtualArch : s.deviceVirtualArch.length ≤ 256
  abi : s.abi.length ≤ 256

theorem TargetSpec.bounded_of_validate {s : TargetSpec} (h : s.validate=.ok ()) :
    s.Bounded ↔ s.Persistable := by
  unfold validate refuse at h
  split_ifs at h with h₁ h₂ h₃ h₄ h₅
  constructor
  · exact fun hb => ⟨hb.cpu,hb.deviceArch,hb.deviceVirtualArch,hb.abi⟩
  · exact fun hp => ⟨by omega,hp.cpu,hp.deviceArch,hp.deviceVirtualArch,hp.abi⟩

namespace Runtime

def registerTarget (identity : TargetIdentity) : Op Unit := do
  let _ ← onTargets (·.internAs identity.id identity.spec)

def registerEnvironment (identity : EnvironmentIdentity) : Op Unit := do
  let _ ← onEnvironments (·.internAs identity.id identity.spec)

def registerPolicy (identity : PolicyIdentity) : Op Unit := do
  let _ ← onPolicies (·.internAs identity.id identity.spec)

/-- An identity decodes from its persisted encoding to itself, and `Runtime::create` reloads it. -/
def Reloads {α : Type} (encode : α → Bytes) (decode : Bytes → Result α) (register : α → Op Unit)
    (i : α) : Prop :=
  decode (encode i)=.ok i ∧ ∀ rt,(reload (encode i) decode register rt).1=.ok ()

theorem reloads_iff {α : Type} {encode : α → Bytes} {decode : Bytes → Result α}
    {register : α → Op Unit} {i : α} (h : ∀ rt,(register i rt).1=.ok ()) :
    Reloads encode decode register i ↔ decode (encode i)=.ok i := by
  refine ⟨And.left,fun hd => ⟨hd,fun rt => ?_⟩⟩
  rw [reload]
  split_ifs
  · rfl
  · rw [hd]
    exact h rt

theorem internWith_accept {tag : IdTag} {σ : Type} {accept : σ → Result σ} {digestOf : σ → Digest}
    {r : SpecRegistry tag σ} {spec : σ} {out : Ref tag × SpecRegistry tag σ}
    (h : r.internWith accept digestOf spec=.ok out) : ∃ t,accept spec=.ok t := by
  obtain ⟨t,ht,_⟩ := do_eq_ok.1 h
  exact ⟨t,ht⟩

theorem internAsWith_ok {tag : IdTag} {σ : Type} (absent : String) {accept : σ → Result σ}
    (digestOf : σ → Digest) {id : StrongId tag} {spec t : σ} (hid : id.present)
    (h : accept spec=.ok t) (r : SpecRegistry tag σ) :
    ∃ out,r.internAsWith absent accept digestOf id spec=.ok out := by
  refine ⟨_,do_eq_ok.2 ⟨(),ensure_ok.2 hid,do_eq_ok.2 ⟨t,h,rfl⟩⟩⟩

theorem registerPolicy_ok {i : PolicyIdentity} {t : PolicySpec} (hid : i.id.present)
    (h : i.spec.accept=.ok t) (rt : Runtime) : (registerPolicy i rt).1=.ok () := by
  obtain ⟨out,ho⟩ := internAsWith_ok "policy identity is absent" PolicySpec.canonicalDigest
    hid h rt.policies
  have hin : onPolicies (·.internAs i.id i.spec) rt=(.ok out.1,{ rt with policies := out.2 }) := by
    simp only [onPolicies,PolicyRegistry.internAs,ho]
  have hr : registerPolicy i rt=(.ok (),{ rt with policies := out.2 }) :=
    seq_eq_ok.2 ⟨_,_,hin,rfl⟩
  rw [hr]

theorem registerTarget_ok {i : TargetIdentity} {t : TargetSpec} (hid : i.id.present)
    (h : i.spec.accept=.ok t) (rt : Runtime) : (registerTarget i rt).1=.ok () := by
  obtain ⟨out,ho⟩ := internAsWith_ok "target identity is absent" TargetSpec.canonicalDigest
    hid h rt.targets
  have hin : onTargets (·.internAs i.id i.spec) rt=(.ok out.1,{ rt with targets := out.2 }) := by
    simp only [onTargets,TargetRegistry.internAs,ho]
  have hr : registerTarget i rt=(.ok (),{ rt with targets := out.2 }) :=
    seq_eq_ok.2 ⟨_,_,hin,rfl⟩
  rw [hr]

theorem registerEnvironment_ok {i : EnvironmentIdentity} {t : EnvironmentSpec} (hid : i.id.present)
    (h : i.spec.canonicalize=.ok t) (rt : Runtime) : (registerEnvironment i rt).1=.ok () := by
  obtain ⟨out,ho⟩ := internAsWith_ok "environment identity is absent" EnvironmentSpec.canonicalDigest
    hid h rt.environments
  have hin : onEnvironments (·.internAs i.id i.spec) rt=
      (.ok out.1,{ rt with environments := out.2 }) := by
    simp only [onEnvironments,EnvironmentRegistry.internAs,ho]
  have hr : registerEnvironment i rt=(.ok (),{ rt with environments := out.2 }) :=
    seq_eq_ok.2 ⟨_,_,hin,rfl⟩
  rw [hr]

theorem validate_of_map {σ : Type} {v : Result Unit} {s t : σ} (h : v.map (fun _ => s)=.ok t) :
    v=.ok () := by
  cases v with
  | error e => cases h
  | ok u => rfl

/-- Whatever the registries admit is reloaded exactly when the fields they leave open are within the
bounds of the decoders. -/
theorem admitted_reloads_iff (policy : PolicySpec) (target : TargetSpec)
    (environment : EnvironmentSpec) :
    (∀ (r : PolicyRegistry) (out),r.intern policy=.ok out →
      ∀ i : PolicyIdentity,i.id.present → i.spec=policy →
      (Reloads encodePolicyIdentity decodePolicyIdentity registerPolicy i ↔ policy.Persistable)) ∧
    (∀ (r : TargetRegistry) (out),r.intern target=.ok out →
      ∀ i : TargetIdentity,i.id.present → i.spec=target →
      (Reloads encodeTargetIdentity decodeTargetIdentity registerTarget i ↔ target.Persistable)) ∧
    (∀ (r : EnvironmentRegistry) (out),r.intern environment=.ok out →
      ∀ i : EnvironmentIdentity,i.id.present → environment.canonicalize=.ok i.spec →
      (Reloads encodeEnvironmentIdentity decodeEnvironmentIdentity registerEnvironment i ↔
        environment.Persistable)) := by
  refine ⟨?_,?_,?_⟩
  · rintro r out h i hid rfl
    obtain ⟨t,ht⟩ := internWith_accept h
    rw [reloads_iff (registerPolicy_ok hid ht),
      ← PolicySpec.bounded_of_validate (validate_of_map ht),← policySpecFormat_good,← identityFormat_good]
    exact Format.readAll_write _ _ _
  · rintro r out h i hid rfl
    obtain ⟨t,ht⟩ := internWith_accept h
    rw [reloads_iff (registerTarget_ok hid ht),
      ← TargetSpec.bounded_of_validate (validate_of_map ht),← targetSpecFormat_good,← identityFormat_good]
    exact Format.readAll_write _ _ _
  · intro r out _ i hid hc
    have ha := EnvironmentSpec.canonicalize_ok.1 hc
    obtain ⟨u,hu⟩ := ha.again
    rw [reloads_iff (registerEnvironment_ok hid hu),← ha.bounded_iff,← environmentSpecFormat_good,
      ← identityFormat_good]
    exact Format.readAll_write _ _ _

end Runtime

namespace Sample

/-- A policy with classes to retry and options to refuse. -/
def strictPolicy : PolicySpec :=
  { retryableClasses := [1,3],forbiddenOptions := [ascii "/GL",ascii "/showIncludes"] }

def avxTarget : TargetSpec :=
  { architecture := ⟨2⟩,os := ⟨2⟩,triple := ascii "x86_64",cpu := ascii "znver4"
    deviceArch := ascii "sm_90",abi := ascii "ms",pointerWidthBits := 64 }

def buildEnvironment : EnvironmentSpec :=
  { vars := [⟨ascii "LIB",ascii "C:\\lib"⟩,⟨ascii "INCLUDE",ascii "C:\\inc"⟩]
    includePaths := [ascii "C:\\inc",ascii "C:\\sdk\\inc"]
    inheritedVariables := [ascii "PATH",ascii "TEMP"]
    localeName := ascii "en-US" }

end Sample

namespace Runtime

/-- A policy with classes, a target with a device and an environment with variables and paths are
admitted and reloaded. -/
theorem specs_reload :
    ((PolicyRegistry.intern {} Sample.strictPolicy).isOk ∧
      Reloads encodePolicyIdentity decodePolicyIdentity registerPolicy
        ⟨⟨1⟩,⟨1⟩,{},Sample.strictPolicy⟩) ∧
    ((TargetRegistry.intern {} Sample.avxTarget).isOk ∧
      Reloads encodeTargetIdentity decodeTargetIdentity registerTarget
        ⟨⟨1⟩,⟨1⟩,{},Sample.avxTarget⟩) ∧
    ∃ spec,Sample.buildEnvironment.canonicalize=.ok spec ∧
      Reloads encodeEnvironmentIdentity decodeEnvironmentIdentity registerEnvironment
        ⟨⟨1⟩,⟨1⟩,{},spec⟩ := by
  have h : (PolicyRegistry.intern {} Sample.strictPolicy).isOk ∧
      (TargetRegistry.intern {} Sample.avxTarget).isOk ∧
      (EnvironmentRegistry.intern {} Sample.buildEnvironment).isOk := by decide +kernel
  obtain ⟨out,hpolicy⟩ := Base.exists_eq_ok h.1
  obtain ⟨out',htarget⟩ := Base.exists_eq_ok h.2.1
  obtain ⟨out'',henvironment⟩ := Base.exists_eq_ok h.2.2
  obtain ⟨spec,hspec⟩ := internWith_accept henvironment
  obtain ⟨policies,targets,environments⟩ :=
    admitted_reloads_iff Sample.strictPolicy Sample.avxTarget Sample.buildEnvironment
  refine ⟨⟨h.1,?_⟩,⟨h.2.1,?_⟩,spec,hspec,?_⟩
  · exact (policies _ _ hpolicy ⟨⟨1⟩,⟨1⟩,{},Sample.strictPolicy⟩ rfl rfl).2
      ⟨by decide,by decide,by decide⟩
  · exact (targets _ _ htarget ⟨⟨1⟩,⟨1⟩,{},Sample.avxTarget⟩ rfl rfl).2
      ⟨by decide,by decide,by decide,by decide⟩
  · exact (environments _ _ henvironment ⟨⟨1⟩,⟨1⟩,{},spec⟩ rfl hspec).2
      ⟨by decide,by decide,by decide,by decide,by decide,by decide,by decide,by decide⟩

end Runtime

namespace Sample

/-- A policy that lists 65 retryable classes. -/
def lavish : PolicySpec := { retryableClasses := List.replicate 65 0 }

/-- A process that made a session under that policy. -/
def lavishly : System := (System.boot durable [adapter] [] world).run
  [.call (.discoverToolchain family) world,.call (.createSession { request with policy := lavish }) world]

end Sample

namespace Runtime

/-- The policy is admitted and a session made with it, and the next start fails on the journal. -/
theorem not_reloads_of_lavish :
    (∃ out,PolicyRegistry.intern {} Sample.lavish=.ok out) ∧
    (Sample.lavishly.rt.find ⟨1⟩).isSome ∧
    ¬Reloads encodePolicyIdentity decodePolicyIdentity registerPolicy ⟨⟨1⟩,⟨1⟩,{},Sample.lavish⟩ ∧
    (create Sample.world Sample.durable [Sample.adapter] Sample.lavishly.journal).1 ≠ .ok () := by
  have h : ((PolicyRegistry.intern {} Sample.lavish).isOk && (Sample.lavishly.rt.find ⟨1⟩).isSome &&
      !(create Sample.world Sample.durable [Sample.adapter] Sample.lavishly.journal).1.isOk)=true := by
    decide +kernel
  simp only [Bool.and_eq_true,Bool.not_eq_true'] at h
  obtain ⟨⟨hin,hsession⟩,hcreate⟩ := h
  refine ⟨Base.exists_eq_ok hin,hsession,fun hr => ?_,fun hc => ?_⟩
  · have hb : Sample.lavish.Bounded :=
      (policySpecFormat_good _ _).1 ((identityFormat_good _ _ _).1 ((Format.readAll_write _ _ _).1 hr.1))
    have hl := hb.retryableClasses
    simp [Sample.lavish] at hl
  · rw [hc] at hcreate
    cases hcreate

end Runtime

end CompilerFabric
