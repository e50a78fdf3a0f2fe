import CompilerFabric.Base.Stricter
import CompilerFabric.Core.Persistence

namespace CompilerFabric

open Base (Format Bytes)
open Codec

/-! The declared enumerators, and the persisted records read against them. -/

-- The enumerations that are cast from their byte: how many enumerators each declares.

def StatusCode.Declared (c : StatusCode) : Prop := (StatusCode.texts.lookup c.raw).isSome=true

instance (c : StatusCode) : Decidable c.Declared := inferInstanceAs (Decidable (_=true))

def Architecture.Declared (a : Architecture) : Prop := a.raw.toNat<5
def OperatingSystem.Declared (o : OperatingSystem) : Prop := o.raw.toNat<5
def LocalePolicy.Declared (p : LocalePolicy) : Prop := p.raw.toNat<3
def ReproducibilityPolicy.Declared (p : ReproducibilityPolicy) : Prop := p.raw.toNat<3
def ToolchainFamily.Declared (f : ToolchainFamily) : Prop := f.raw.toNat<9
def ComponentKind.Declared (k : ComponentKind) : Prop := k.raw.toNat<15
def EvidenceClass.Declared (c : EvidenceClass) : Prop := c.raw.toNat<4
def SourceLanguage.Declared (l : SourceLanguage) : Prop := l.raw.toNat<7

namespace Codec

/-- A byte read as an enumeration through `Decoder::enumeration`. -/
def byte {e' : Status} (count : Nat) (e : Status) : Format.Stricter (u8 e') :=
  .ranged (fun raw => decide (raw.toNat<count)) e

end Codec

section Records

/-- Every enumeration of the record is one of its declared enumerators. -/
def PhaseAttempt.Declared (a : PhaseAttempt) : Prop :=
  a.terminalState ∈ PhaseState.values ∧ a.failure ∈ FailureClass.values ∧ a.status.Declared

instance (a : PhaseAttempt) : Decidable a.Declared := inferInstanceAs (Decidable (_ ∧ _))

def PhaseTransition.Declared (t : PhaseTransition) : Prop :=
  t.src ∈ PhaseState.values ∧ t.dst ∈ PhaseState.values

instance (t : PhaseTransition) : Decidable t.Declared := inferInstanceAs (Decidable (_ ∧ _))

def PhaseRecord.Declared (p : PhaseRecord) : Prop :=
  p.kind ∈ PhaseKind.values ∧ p.state ∈ PhaseState.values ∧ p.failure ∈ FailureClass.values ∧
    p.lastStatus.Declared ∧ (∀ a ∈ p.attempts,a.Declared) ∧ ∀ t ∈ p.history,t.Declared

instance (p : PhaseRecord) : Decidable p.Declared := inferInstanceAs (Decidable (_ ∧ _))

def IntermediateArtifact.Declared (a : IntermediateArtifact) : Prop :=
  a.format ∈ ObjectFormat.values ∧ a.state ∈ ArtifactState.values ∧ a.authority ∈ AuthorityState.values

def DiagnosticSet.Declared (d : DiagnosticSet) : Prop :=
  ∀ entry ∈ d.entries,entry.severity ∈ DiagnosticSeverity.values

def PhaseNode.Declared (n : PhaseNode) : Prop :=
  n.kind ∈ PhaseKind.values ∧ ∀ f ∈ n.expectedOutputs,f ∈ ObjectFormat.values

def CompilerSession.Declared (s : CompilerSession) : Prop :=
  s.state ∈ SessionState.values ∧ s.recoveryState ∈ RecoveryState.values ∧
    s.candidate.format ∈ ObjectFormat.values ∧ (∀ n ∈ s.plan.nodes,n.Declared) ∧
    ∀ x ∈ s.phases.toList,x.2.Declared

def TargetSpec.Declared (s : TargetSpec) : Prop := s.architecture.Declared ∧ s.os.Declared

def EnvironmentSpec.Declared (s : EnvironmentSpec) : Prop := s.localePolicy.Declared

def PolicySpec.Declared (s : PolicySpec) : Prop :=
  s.reproducibility.Declared ∧ ∀ c ∈ s.retryableClasses,c.toNat<FailureClass.values.length

def SourceUnit.Declared (u : SourceUnit) : Prop := u.language.Declared

def ComponentIdentity.Declared (c : ComponentIdentity) : Prop :=
  c.kind.Declared ∧ (∀ a ∈ c.targetSupport,a.Declared) ∧
    (∀ f ∈ c.objectFormats,f ∈ ObjectFormat.values) ∧ c.evidenceClass.Declared

def ToolchainIdentity.Declared (t : ToolchainIdentity) : Prop :=
  t.family.Declared ∧ (∀ c ∈ t.components,c.Declared) ∧ (∀ a ∈ t.targetSupport,a.Declared) ∧
    (∀ f ∈ t.objectFormats,f ∈ ObjectFormat.values) ∧ t.evidenceClass.Declared

end Records

namespace Strict

open Base.Format.Stricter

variable {e' : Status} (e : Status)

-- A format is unfolded down to its combinators, and these are not.
attribute [local irreducible] Format.view Format.pair Format.list

def status : Format.Stricter (Codec.statusCode e') := .ranged (fun c => decide c.Declared) e

def attempt : Format.Stricter (Codec.attempt e') :=
  .view <| .after <| .after <| .after <| .after <| .after <| .after <| .after <| .first (status e)

def phase : Format.Stricter phaseFormat :=
  .view <| .after <| .after <| .after <| .after <| .after <| .after <| .after <| .after <|
  .after <| .after <| .after <| .after <| .after <| .after <| .after <| .after <| .after <|
  .after <| .after <| .after <| .after <| .after <| .after <| .after <| .after <|
  .pair (status e) <| .after <| .after <| .after <| .after <| .after <| .after <|
  .first (.list (attempt e))

/-- Of the phases of a session only those are checked that it keeps. -/
def phases : Format.Stricter (phasesFormat e') :=
  .ranged (fun table => table.toList.all fun x => decide x.2.Declared) e

def session : Format.Stricter sessionFormat :=
  .view <| .after <| .after <| .after <| .after <| .after <| .after <| .after <| .after <|
  .after <| .after <| .after <| .after <| .after <| .after <| .after <| .after <| .after <|
  .after <| .after <| .after <| .after <| .after <| .first (phases e)

def environmentSpec : Format.Stricter (environmentSpecFormat e') :=
  .view <| .after <| .after <| .after <| .after <| .after <| .after <| .after <| .after <|
  .first (byte 3 e)

def policySpec : Format.Stricter (policySpecFormat e') :=
  .view <| .pair (byte 3 e) <| .after <| .after <| .first (.list (byte 16 e))

def targetSpec : Format.Stricter (targetSpecFormat e') :=
  .view <| .pair (byte 5 e) <| .first (byte 5 e)

/-- `decode_enum_list` checks what it reads. -/
def architectures : Format.Stricter (architecturesFormat e') :=
  .list (.view (.sure (fun raw => raw.toNat<5) fun _ _ _ h =>
    Nat.lt_succ_of_le (UInt8.le_iff_toNat_le.1 (of_decide_eq_true (check_read_iff.1 h).2))))

def component : Format.Stricter (componentFormat e') :=
  .view <| .after <| .after <| .pair (byte 15 e) <| .after <| .after <| .after <| .after <|
  .pair architectures <| .after <| .after <| byte 4 e

def toolchain : Format.Stricter toolchainFormat :=
  .view <| .after <| .after <| .after <| .pair (byte 9 e) <| .after <| .after <|
  .pair (.list (component e)) <| .pair architectures <| .after <| .after <| .after <| .after <|
  .after <| .after <| .first (byte 4 e)

def identity {tag : IdTag} {σ : Type} {what : String} {spec : Status → Format Status σ}
    (N : ∀ e,Format.Stricter (spec e)) : Format.Stricter (@identityFormat tag σ what spec) :=
  .view <| .after <| .after <| .after <| .after <| N _

def target : Format.Stricter targetFormat := identity fun e => targetSpec e

def environment : Format.Stricter environmentFormat := identity fun e => environmentSpec e

def policy : Format.Stricter policyFormat := identity fun e => policySpec e

def sourceUnit : Format.Stricter sourceUnitFormat :=
  .view <| .after <| .after <| .after <| .after <| .first (byte 7 e)

end Strict

section Fine

variable {e e' : Status}

theorem Strict.phase_fine {p : PhaseRecord} : (Strict.phase e).fine p ↔ p.Declared := by
  have hfine : (Strict.phase e).fine p ↔ decide p.lastStatus.Declared=true ∧
      ∀ a ∈ p.attempts,decide a.status.Declared=true := Iff.rfl
  rw [hfine]
  simp [PhaseRecord.Declared,PhaseAttempt.Declared,PhaseTransition.Declared,PhaseKind.mem_values,
    PhaseState.mem_values,FailureClass.mem_values]

theorem Strict.session_fine {s : CompilerSession} : (Strict.session e).fine s ↔ s.Declared := by
  have hfine : (Strict.session e).fine s ↔
      (s.phases.toList.all fun x => decide x.2.Declared)=true := Iff.rfl
  rw [hfine]
  simp [CompilerSession.Declared,PhaseNode.Declared,PhaseKind.mem_values,ObjectFormat.mem_values,
    SessionState.mem_values,RecoveryState.mem_values]

theorem Strict.environmentSpec_fine {s : EnvironmentSpec} :
    (Strict.environmentSpec e : Format.Stricter (environmentSpecFormat e')).fine s ↔ s.Declared :=
  decide_eq_true_iff

theorem Strict.policySpec_fine {s : PolicySpec} :
    (Strict.policySpec e : Format.Stricter (policySpecFormat e')).fine s ↔ s.Declared := by
  have hfine : (Strict.policySpec e : Format.Stricter (policySpecFormat e')).fine s ↔
      decide (s.reproducibility.raw.toNat<3)=true ∧
        ∀ c ∈ s.retryableClasses,decide (c.toNat<16)=true := Iff.rfl
  rw [hfine]
  simp [PolicySpec.Declared,ReproducibilityPolicy.Declared,FailureClass.values]

theorem Strict.targetSpec_fine {s : TargetSpec} :
    (Strict.targetSpec e : Format.Stricter (targetSpecFormat e')).fine s ↔ s.Declared :=
  and_congr decide_eq_true_iff decide_eq_true_iff

theorem Strict.component_fine {c : ComponentIdentity} :
    (Strict.component e : Format.Stricter (componentFormat e')).fine c ↔ c.Declared := by
  have hfine : (Strict.component e : Format.Stricter (componentFormat e')).fine c ↔
      decide (c.kind.raw.toNat<15)=true ∧ (∀ a ∈ c.targetSupport,a.raw.toNat<5) ∧
        decide (c.evidenceClass.raw.toNat<4)=true := Iff.rfl
  rw [hfine]
  simp [ComponentIdentity.Declared,ComponentKind.Declared,Architecture.Declared,
    EvidenceClass.Declared,ObjectFormat.mem_values]

theorem Strict.toolchain_fine {t : ToolchainIdentity} :
    (Strict.toolchain e).fine t ↔ t.Declared := by
  have hfine : (Strict.toolchain e).fine t ↔ decide (t.family.raw.toNat<9)=true ∧
      (∀ c ∈ t.components,(Strict.component e : Format.Stricter (componentFormat
        (malformed "toolchain body"))).fine c) ∧
      (∀ a ∈ t.targetSupport,a.raw.toNat<5) ∧ decide (t.evidenceClass.raw.toNat<4)=true := Iff.rfl
  rw [hfine]
  simp [ToolchainIdentity.Declared,Strict.component_fine,ToolchainFamily.Declared,
    Architecture.Declared,EvidenceClass.Declared,ObjectFormat.mem_values]

end Fine

end CompilerFabric
