import CompilerFabric.Base.Format

namespace CompilerFabric

export CompilerFabric.Base (Bytes)

/-- Byte text of an ASCII literal. -/
def ascii (s : String) : Bytes := s.toList.map fun c => UInt8.ofNat c.toNat

def decimal (n : Nat) : Bytes := ascii (toString n)

def hexDigit (n : Nat) : UInt8 :=
  if n<10 then UInt8.ofNat (48+n) else UInt8.ofNat (87+n)

def asciiLower (c : UInt8) : UInt8 := if 65 ≤ c ∧ c ≤ 90 then c+32 else c

def asciiUpper (c : UInt8) : UInt8 := if 97 ≤ c ∧ c ≤ 122 then c-32 else c

def toUpperAscii (text : Bytes) : Bytes := text.map asciiUpper

def toLowerAscii (text : Bytes) : Bytes := text.map asciiLower

def equalsAsciiCi (a b : Bytes) : Bool := toLowerAscii a==toLowerAscii b

/-- `less_ascii_ci`. A `char` is signed. -/
def lessAsciiCi (a b : Bytes) : Bool :=
  decide ((toLowerAscii a).map UInt8.toInt8<(toLowerAscii b).map UInt8.toInt8)

inductive IdTag
  | session | compilation | attempt | phase | toolchain | component | target | source | ir
  | intermediate | artifact | environment | diagnostics | invocation | process | lease | policy
  | request | commit | evidence | provenance | recovery | worker | epoch
deriving DecidableEq

def IdTag.idName : IdTag → String
  | session => "session" | compilation => "compilation" | attempt => "attempt"
  | phase => "phase" | toolchain => "toolchain" | component => "component"
  | target => "target" | source => "source" | ir => "ir" | intermediate => "intermediate"
  | artifact => "artifact" | environment => "environment" | diagnostics => "diagnostics"
  | invocation => "invocation" | process => "process" | lease => "lease" | policy => "policy"
  | request => "request" | commit => "commit" | evidence => "evidence"
  | provenance => "provenance" | recovery => "recovery" | worker => "worker"
  | epoch => "epoch"

/-- A 64-bit identity of one authority domain; 0 is absent. -/
@[ext] structure StrongId (tag : IdTag) where
  value : UInt64 := 0
deriving DecidableEq

namespace StrongId

variable {tag : IdTag}

def present (i : StrongId tag) : Bool := i.value ≠ 0

def toText (i : StrongId tag) : Bytes :=
  ascii tag.idName++[45]++
    (List.range 16).map fun k => hexDigit (i.value.toNat/16^(15-k)%16)

end StrongId

@[ext] structure Generation (tag : IdTag) where
  value : UInt64 := 0
deriving DecidableEq

namespace Generation

variable {tag : IdTag}

def initial : Generation tag := ⟨1⟩

def present (g : Generation tag) : Bool := g.value ≠ 0

def kMax : UInt64 := 0xFFFFFFFFFFFFFFFF

/-- Saturating. -/
def next (g : Generation tag) : Generation tag :=
  if g.value=kMax then g else ⟨g.value+1⟩

def toText (g : Generation tag) : Bytes := decimal g.value.toNat

theorem next_toNat (g : Generation tag) (h : g.value ≠ kMax) :
    g.next.value.toNat=g.value.toNat+1 := by
  have hlt : g.value.toNat<2^64-1 := by
    have h' := g.value.toNat_lt
    have hne : g.value.toNat ≠ 2^64-1 := fun he => h (UInt64.toNat_inj.1 (by rw [he]; rfl))
    omega
  rw [next,if_neg h,UInt64.toNat_add]
  have : (1 : UInt64).toNat=1 := rfl
  omega

end Generation

@[ext] structure Ref (tag : IdTag) where
  id : StrongId tag := {}
  generation : Generation tag := {}
deriving DecidableEq

namespace Ref

variable {tag : IdTag}

def present (r : Ref tag) : Bool := r.id.present

def toText (r : Ref tag) : Bytes := r.id.toText++[64]++r.generation.toText

end Ref

abbrev CompilerSessionId := StrongId .session
abbrev CompilationId := StrongId .compilation
abbrev AttemptId := StrongId .attempt
abbrev CompilerPhaseId := StrongId .phase
abbrev ToolchainId := StrongId .toolchain
abbrev CompilerComponentId := StrongId .component
abbrev TargetId := StrongId .target
abbrev SourceId := StrongId .source
abbrev IntermediateArtifactId := StrongId .intermediate
abbrev FinalArtifactId := StrongId .artifact
abbrev EnvironmentId := StrongId .environment
abbrev DiagnosticSetId := StrongId .diagnostics
abbrev InvocationId := StrongId .invocation
abbrev ProcessId := StrongId .process
abbrev LeaseId := StrongId .lease
abbrev PolicyId := StrongId .policy
abbrev RequestId := StrongId .request
abbrev CommitId := StrongId .commit
abbrev EvidenceId := StrongId .evidence
abbrev ProvenanceId := StrongId .provenance
abbrev RecoveryId := StrongId .recovery
abbrev EpochId := StrongId .epoch

abbrev CompilerSessionGeneration := Generation .session
abbrev CompilationGeneration := Generation .compilation
abbrev AttemptGeneration := Generation .attempt
abbrev CompilerPhaseGeneration := Generation .phase
abbrev ToolchainGeneration := Generation .toolchain
abbrev IRGeneration := Generation .ir
abbrev InvocationGeneration := Generation .invocation
abbrev ProcessGeneration := Generation .process
abbrev EvidenceGeneration := Generation .evidence
abbrev RecoveryGeneration := Generation .recovery

/-- Monotonic identities of one domain. -/
structure IdAllocator (tag : IdTag) where
  counter : UInt64 := 1
deriving DecidableEq

namespace IdAllocator

variable {tag : IdTag}

def kMax : UInt64 := 0xFFFFFFFFFFFFFFFF

def next (a : IdAllocator tag) : StrongId tag × IdAllocator tag :=
  let c : UInt64 := if a.counter=0 then 1 else a.counter
  (⟨c⟩,⟨if c=kMax then c else c+1⟩)

def observe (a : IdAllocator tag) (id : StrongId tag) : IdAllocator tag :=
  if a.counter ≤ id.value then ⟨if id.value=kMax then kMax else id.value+1⟩ else a

end IdAllocator

end CompilerFabric
