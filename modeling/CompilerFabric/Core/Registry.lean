import CompilerFabric.Core.Path
import CompilerFabric.Core.Phase
import Mathlib.Data.List.Sort

namespace CompilerFabric

/-- `std::unordered_map<std::uint64_t, T>`; every traversal the code depends on is sorted. -/
abbrev Table (α : Type) := Std.ExtTreeMap UInt64 α compare

def sortBytes (xs : List Bytes) : List Bytes := xs.insertionSort (· ≤ ·)

def canonicalBool (b : Bool) : Bytes := [if b then 1 else 0]

def canonicalU32 (value : UInt32) : Bytes := Base.leBytes 4 value.toNat

-- Enumerations whose decoder casts the stored byte unchecked keep that byte.

structure Architecture where
  raw : UInt8 := 0
deriving DecidableEq

namespace Architecture

def unknown : Architecture := ⟨0⟩

def text (a : Architecture) : String :=
  match a.raw.toNat with
  | 1 => "x86" | 2 => "x64" | 3 => "arm" | 4 => "arm64" | _ => "unknown"

def pointerBits (a : Architecture) : UInt32 :=
  match a.raw.toNat with
  | 1 | 3 => 32 | 2 | 4 => 64 | _ => 0

end Architecture

structure OperatingSystem where
  raw : UInt8 := 0
deriving DecidableEq

def OperatingSystem.text (o : OperatingSystem) : String :=
  match o.raw.toNat with
  | 1 => "windows" | 2 => "linux" | 3 => "macos" | 4 => "bare-metal" | _ => "unknown"

inductive ObjectFormat
  | unknown | coffObject | coffImage | ptx | cubin | fatbin | elf | archive
  | preprocessedSource | assemblySource | linkerMap | debugInfo | metadata
deriving DecidableEq

def ObjectFormat.values : List ObjectFormat :=
  [unknown,coffObject,coffImage,ptx,cubin,fatbin,elf,archive,preprocessedSource,
    assemblySource,linkerMap,debugInfo,metadata]

structure TargetSpec where
  architecture : Architecture := {}
  os : OperatingSystem := {}
  triple : Bytes := []
  cpu : Bytes := []
  deviceArch : Bytes := []
  deviceVirtualArch : Bytes := []
  abi : Bytes := []
  pointerWidthBits : UInt32 := 0
deriving DecidableEq

def TargetSpec.validate (s : TargetSpec) : Result Unit :=
  if s.architecture=.unknown then refuse .invalidArgument "target architecture is unknown"
  else if s.os=⟨0⟩ then refuse .invalidArgument "target operating system is unknown"
  else if s.triple.isEmpty then refuse .invalidArgument "target triple is empty"
  else if 256<s.triple.length then
    refuse .invalidArgument "target triple is unreasonably long"
  else if s.pointerWidthBits ≠ 0 ∧ s.pointerWidthBits ≠ s.architecture.pointerBits then
    refuse .invalidArgument "target pointer width disagrees with the declared architecture"
  else .ok ()

def TargetSpec.canonicalDigest (s : TargetSpec) : Digest :=
  .of (canonicalText (ascii s.architecture.text)++canonicalText (ascii s.os.text)++
    canonicalText s.triple++canonicalText s.cpu++canonicalText s.deviceArch++
    canonicalText s.deviceVirtualArch++canonicalText s.abi++canonicalU32 s.pointerWidthBits)

structure EnvironmentVariable where
  name : Bytes := []
  value : Bytes := []
deriving DecidableEq

structure LocalePolicy where
  raw : UInt8 := 0
deriving DecidableEq

namespace LocalePolicy

def cLocale : LocalePolicy := ⟨0⟩
def explicitName : LocalePolicy := ⟨1⟩
def userDefault : LocalePolicy := ⟨2⟩

def text (p : LocalePolicy) : String :=
  match p.raw.toNat with
  | 0 => "c-locale" | 1 => "explicit-name" | 2 => "user-default" | _ => "unknown"

end LocalePolicy

structure EnvironmentSpec where
  workingDirectory : Bytes := []
  tempDirectory : Bytes := []
  vars : List EnvironmentVariable := []
  includePaths : List Bytes := []
  libraryPaths : List Bytes := []
  sdkRoots : List Bytes := []
  toolkitRoots : List Bytes := []
  inheritedVariables : List Bytes := []
  localePolicy : LocalePolicy := .cLocale
  localeName : Bytes := []
  deterministicControls : Bool := true
deriving DecidableEq

/-- The rest of `std::unique` once `x` is kept. -/
def uniqueAfter {α : Type} (eq : α → α → Bool) (x : α) : List α → List α
  | [] => [x]
  | y::rest => if eq x y then uniqueAfter eq x rest else x::uniqueAfter eq y rest

/-- Consecutive equal elements collapse to the first (`std::unique`). -/
def uniqueBy {α : Type} (eq : α → α → Bool) : List α → List α
  | [] => []
  | x::rest => uniqueAfter eq x rest

namespace EnvironmentSpec

def checkVariable (v : EnvironmentVariable) : Result Unit :=
  if v.name.isEmpty then refuse .invalidArgument "environment variable name is empty"
  else if 1024<v.name.length then
    refuse .invalidArgument "environment variable name is too long"
  else if 32768<v.value.length then
    .error ⟨.invalidArgument,ascii "environment variable value is too long: "++v.name⟩
  else if v.name.contains 61 || v.name.contains 0 then
    .error ⟨.invalidArgument,
      ascii "environment variable name contains an illegal character: "++v.name⟩
  else .ok ()

/-- Canonical order: upper-cased name, then the exact name. -/
def variableLe (a b : EnvironmentVariable) : Bool :=
  let left := toUpperAscii a.name
  let right := toUpperAscii b.name
  if left ≠ right then left<right else a.name ≤ b.name

def duplicateName : List EnvironmentVariable → Option Bytes
  | x::y::rest =>
      if equalsAsciiCi x.name y.name then some y.name else duplicateName (y::rest)
  | _ => none

def normalizeList (paths : List Bytes) : List Bytes :=
  uniqueBy (· == ·) ((paths.map normalizePath).insertionSort
    fun a b => canonicalPathKey a ≤ canonicalPathKey b)

def normalizeDirectory (path : Bytes) : Bytes := if path.isEmpty then path else normalizePath path

def canonicalize (s : EnvironmentSpec) : Result EnvironmentSpec := do
  ensure (s.vars.length ≤ 4096)
    (.of .capacityExceeded "environment variable count exceeds the ceiling")
  ensure (s.includePaths.length ≤ 1024 ∧ s.libraryPaths.length ≤ 1024 ∧
      s.sdkRoots.length ≤ 1024 ∧ s.toolkitRoots.length ≤ 1024)
    (.of .capacityExceeded "environment search path count exceeds the ceiling")
  ensure (s.inheritedVariables.length ≤ 256)
    (.of .capacityExceeded "inherited variable allowlist is too large")
  s.vars.forM checkVariable
  ensure ((s.vars.map (·.value.length)).sum ≤ 2^20)
    (.of .capacityExceeded "environment variable bytes exceed the ceiling")
  let vars := s.vars.insertionSort fun a b => variableLe a b
  ensure ((duplicateName vars).isNone) ⟨.invalidArgument,
    ascii "duplicate environment variable name: "++(duplicateName vars).getD []⟩
  let inherited := uniqueBy (· == ·) (sortBytes s.inheritedVariables)
  ensure (∀ name ∈ inherited,name ≠ [] ∧ 61 ∉ name)
    (.of .invalidArgument "invalid inherited variable name")
  ensure (¬(s.localePolicy=.explicitName ∧ s.localeName=[]))
    (.of .invalidArgument "explicit locale policy requires a locale name")
  return { s with
    vars := vars
    inheritedVariables := inherited
    workingDirectory := normalizeDirectory s.workingDirectory
    tempDirectory := normalizeDirectory s.tempDirectory
    includePaths := normalizeList s.includePaths
    libraryPaths := normalizeList s.libraryPaths
    sdkRoots := normalizeList s.sdkRoots
    toolkitRoots := normalizeList s.toolkitRoots }

def canonicalDigest (s : EnvironmentSpec) : Digest :=
  let paths (ps : List Bytes) := ps.flatMap fun p => canonicalText (canonicalPathKey p)
  .of (canonicalText (canonicalPathKey s.workingDirectory)++
    canonicalText (canonicalPathKey s.tempDirectory)++
    (s.vars.flatMap fun v => canonicalText (toUpperAscii v.name)++canonicalText v.value)++
    paths s.includePaths++paths s.libraryPaths++paths s.sdkRoots++paths s.toolkitRoots++
    (s.inheritedVariables.flatMap fun name => canonicalText (toUpperAscii name))++
    canonicalText (ascii s.localePolicy.text)++canonicalText s.localeName++
    canonicalBool s.deterministicControls)

end EnvironmentSpec

structure ReproducibilityPolicy where
  raw : UInt8 := 1
deriving DecidableEq

namespace ReproducibilityPolicy

def required : ReproducibilityPolicy := ⟨0⟩
def preferred : ReproducibilityPolicy := ⟨1⟩
def notRequired : ReproducibilityPolicy := ⟨2⟩

def text (p : ReproducibilityPolicy) : String :=
  match p.raw.toNat with
  | 0 => "REQUIRED" | 1 => "PREFERRED" | 2 => "NOT_REQUIRED" | _ => "UNKNOWN"

end ReproducibilityPolicy

def FailureClass.raw (f : FailureClass) : UInt8 := UInt8.ofNat (FailureClass.values.idxOf f)

def failureClassText (raw : UInt8) : String :=
  ((FailureClass.values[raw.toNat]?).map (·.text)).getD "UNKNOWN_OUTCOME"

structure PolicySpec where
  reproducibility : ReproducibilityPolicy := .preferred
  maxRetriesPerPhase : UInt32 := 2
  maxRetriesPerSession : UInt32 := 8
  /-- Underlying values of `FailureClass`. -/
  retryableClasses : List UInt8 := []
  forbiddenOptions : List Bytes := []
  allowParallelPhases : Bool := true
  maxParallelPhases : UInt64 := 4
  phaseTimeoutMillis : UInt32 := 0
  validationTimeoutMillis : UInt32 := 0
  runSmokeTest : Bool := true
  requireContentDigest : Bool := true
  maxDiagnosticEntries : UInt64 := 4096
  maxDiagnosticBytesPerStream : UInt64 := 1048576
  allowLocalCache : Bool := false
deriving DecidableEq

namespace PolicySpec

def validate (s : PolicySpec) : Result Unit :=
  if 32<s.maxRetriesPerPhase then
    refuse .invalidArgument "per-phase retry ceiling is out of range"
  else if 128<s.maxRetriesPerSession then
    refuse .invalidArgument "per-session retry ceiling is out of range"
  else if 256<s.forbiddenOptions.length then
    refuse .capacityExceeded "forbidden option list is too large"
  else if s.forbiddenOptions.any fun o => o.isEmpty || 4096<o.length then
    refuse .invalidArgument "forbidden option entry has an invalid length"
  else if s.maxParallelPhases=0 ∧ s.allowParallelPhases then
    refuse .invalidArgument "parallel phases are enabled with a zero concurrency ceiling"
  else if 256<s.maxParallelPhases then
    refuse .invalidArgument "parallel phase ceiling is out of range"
  else .ok ()

def canonicalDigest (s : PolicySpec) : Digest :=
  .of (canonicalText (ascii s.reproducibility.text)++canonicalU32 s.maxRetriesPerPhase++
    canonicalU32 s.maxRetriesPerSession++
    (sortBytes (s.retryableClasses.map fun c => ascii (failureClassText c))).flatMap
      canonicalText++
    (sortBytes s.forbiddenOptions).flatMap (fun o => canonicalText (toLowerAscii o))++
    canonicalBool s.allowParallelPhases++canonicalU64 s.maxParallelPhases.toNat++
    canonicalU32 s.phaseTimeoutMillis++canonicalU32 s.validationTimeoutMillis++
    canonicalBool s.runSmokeTest++canonicalBool s.requireContentDigest++
    canonicalU64 s.maxDiagnosticEntries.toNat++
    canonicalU64 s.maxDiagnosticBytesPerStream.toNat++canonicalBool s.allowLocalCache)

def permitsRetry (s : PolicySpec) (failure : FailureClass) : Bool :=
  if s.retryableClasses.isEmpty then failure.isRetryable
  else s.retryableClasses.contains failure.raw

end PolicySpec

/-- `TargetIdentity`, `EnvironmentIdentity` and `PolicyIdentity` have one shape. -/
structure SpecIdentity (tag : IdTag) (σ : Type) where
  id : StrongId tag := {}
  generation : Generation tag := {}
  digest : Digest := {}
  spec : σ
deriving DecidableEq

structure SpecEntry (tag : IdTag) (σ : Type) where
  identity : SpecIdentity tag σ
  current : Bool := true
deriving DecidableEq

structure SpecRegistry (tag : IdTag) (σ : Type) where
  entries : Table (SpecEntry tag σ) := ∅
  allocator : IdAllocator tag := {}

namespace SpecRegistry

variable {tag : IdTag} {σ : Type}

def find (r : SpecRegistry tag σ) (id : StrongId tag) : Option (SpecIdentity tag σ) :=
  r.entries[id.value]?.map (·.identity)

/-- `intern`: an equal current spec is reused. `accept` is the registry's own check. -/
def internWith (accept : σ → Result σ) (digestOf : σ → Digest) (r : SpecRegistry tag σ)
    (spec : σ) : Result (Ref tag × SpecRegistry tag σ) := do
  let spec ← accept spec
  let digest := digestOf spec
  match r.entries.toList.find? fun e => e.2.current && e.2.identity.digest==digest with
  | some e => return (⟨e.2.identity.id,e.2.identity.generation⟩,r)
  | none =>
      let (id,allocator) := r.allocator.next
      let entry := ⟨⟨id,.initial,digest,spec⟩,true⟩
      return (⟨id,.initial⟩,⟨r.entries.insertIfNew id.value entry,allocator⟩)

/-- `intern_as`: the recorded identity, at the initial generation. -/
def internAsWith (absent : String) (accept : σ → Result σ) (digestOf : σ → Digest)
    (r : SpecRegistry tag σ) (id : StrongId tag) (spec : σ) :
    Result (Ref tag × SpecRegistry tag σ) := do
  ensure id.present (.of .invalidIdentity absent)
  let spec ← accept spec
  let entry := ⟨⟨id,.initial,digestOf spec,spec⟩,true⟩
  return (⟨id,.initial⟩,⟨r.entries.insert id.value entry,r.allocator.observe id⟩)

def reviseWith (missing : String) (accept : σ → Result σ) (digestOf : σ → Digest)
    (r : SpecRegistry tag σ) (id : StrongId tag) (spec : σ) :
    Result (Ref tag × SpecRegistry tag σ) := do
  let entry ← (r.entries[id.value]?).elim (.error ⟨.notFound,ascii missing++id.toText⟩) .ok
  let spec ← accept spec
  let digest := digestOf spec
  if entry.identity.digest=digest ∧ entry.current then
    return (⟨id,entry.identity.generation⟩,r)
  else
    let generation := entry.identity.generation.next
    let identity := { entry.identity with generation,digest,spec }
    return (⟨id,generation⟩,{ r with entries := r.entries.insert id.value ⟨identity,true⟩ })

end SpecRegistry

abbrev TargetIdentity := SpecIdentity .target TargetSpec
abbrev EnvironmentIdentity := SpecIdentity .environment EnvironmentSpec
abbrev PolicyIdentity := SpecIdentity .policy PolicySpec
abbrev TargetRegistry := SpecRegistry .target TargetSpec
abbrev EnvironmentRegistry := SpecRegistry .environment EnvironmentSpec
abbrev PolicyRegistry := SpecRegistry .policy PolicySpec

def TargetSpec.accept (s : TargetSpec) : Result TargetSpec := s.validate.map fun _ => s

def PolicySpec.accept (s : PolicySpec) : Result PolicySpec := s.validate.map fun _ => s

def TargetRegistry.intern (r : TargetRegistry) (spec : TargetSpec) :=
  r.internWith TargetSpec.accept TargetSpec.canonicalDigest spec

def TargetRegistry.internAs (r : TargetRegistry) (id : TargetId) (spec : TargetSpec) :=
  r.internAsWith "target identity is absent" TargetSpec.accept TargetSpec.canonicalDigest id spec

def TargetRegistry.revise (r : TargetRegistry) (id : TargetId) (spec : TargetSpec) :=
  r.reviseWith "target identity is not registered: " TargetSpec.accept TargetSpec.canonicalDigest id spec

def EnvironmentRegistry.intern (r : EnvironmentRegistry) (spec : EnvironmentSpec) :=
  r.internWith EnvironmentSpec.canonicalize EnvironmentSpec.canonicalDigest spec

def EnvironmentRegistry.internAs (r : EnvironmentRegistry) (id : EnvironmentId)
    (spec : EnvironmentSpec) :=
  r.internAsWith "environment identity is absent" EnvironmentSpec.canonicalize EnvironmentSpec.canonicalDigest id spec

def EnvironmentRegistry.revise (r : EnvironmentRegistry) (id : EnvironmentId)
    (spec : EnvironmentSpec) :=
  r.reviseWith "environment identity is not registered: " EnvironmentSpec.canonicalize EnvironmentSpec.canonicalDigest id spec

def PolicyRegistry.intern (r : PolicyRegistry) (spec : PolicySpec) :=
  r.internWith PolicySpec.accept PolicySpec.canonicalDigest spec

def PolicyRegistry.internAs (r : PolicyRegistry) (id : PolicyId) (spec : PolicySpec) :=
  r.internAsWith "policy identity is absent" PolicySpec.accept PolicySpec.canonicalDigest id spec

def PolicyRegistry.revise (r : PolicyRegistry) (id : PolicyId) (spec : PolicySpec) :=
  r.reviseWith "policy identity is not registered: " PolicySpec.accept PolicySpec.canonicalDigest id spec

end CompilerFabric
