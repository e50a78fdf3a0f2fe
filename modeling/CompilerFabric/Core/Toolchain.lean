import CompilerFabric.Core.Registry

namespace CompilerFabric

def ObjectFormat.text : ObjectFormat → String
  | unknown => "unknown" | coffObject => "coff-object" | coffImage => "coff-image"
  | ptx => "ptx" | cubin => "cubin" | fatbin => "fatbin" | elf => "elf"
  | archive => "archive" | preprocessedSource => "preprocessed-source"
  | assemblySource => "assembly-source" | linkerMap => "linker-map"
  | debugInfo => "debug-info" | metadata => "metadata"

structure EvidenceClass where
  raw : UInt8 := 0
deriving DecidableEq

namespace EvidenceClass

def synthetic : EvidenceClass := ⟨2⟩

def text (e : EvidenceClass) : String :=
  match e.raw.toNat with
  | 1 => "REAL" | 2 => "SYNTHETIC" | 3 => "UNSUPPORTED" | _ => "UNKNOWN"

end EvidenceClass

structure ComponentKind where
  raw : UInt8 := 0
deriving DecidableEq

def ComponentKind.text (k : ComponentKind) : String :=
  match k.raw.toNat with
  | 1 => "host-c-compiler" | 2 => "host-cxx-compiler" | 3 => "device-compiler"
  | 4 => "device-assembler" | 5 => "assembler" | 6 => "linker" | 7 => "librarian"
  | 8 => "optimizer" | 9 => "plugin" | 10 => "sdk-header-set" | 11 => "runtime-library"
  | 12 => "standard-library" | 13 => "target-library" | 14 => "other" | _ => "unknown"

structure ToolchainFamily where
  raw : UInt8 := 0
deriving DecidableEq

namespace ToolchainFamily

def unknown : ToolchainFamily := ⟨0⟩

def text (f : ToolchainFamily) : String :=
  match f.raw.toNat with
  | 1 => "msvc" | 2 => "clang-cl" | 3 => "clang" | 4 => "gcc" | 5 => "nvcc" | 6 => "hipcc"
  | 7 => "intel-icx" | 8 => "synthetic" | _ => "unknown"

end ToolchainFamily

structure FileIdentity where
  canonicalPath : Bytes := []
  volumeSerialHex : Bytes := []
  fileIndexHex : Bytes := []
  sizeBytes : UInt64 := 0
  lastWriteNanos : UInt64 := 0
  content : Digest := {}
  contentHashed : Bool := false
deriving DecidableEq

namespace FileIdentity

def sameFileAs (a b : FileIdentity) : Bool :=
  if a.volumeSerialHex.isEmpty || b.volumeSerialHex.isEmpty then
    canonicalPathKey a.canonicalPath==canonicalPathKey b.canonicalPath
  else a.volumeSerialHex==b.volumeSerialHex && a.fileIndexHex==b.fileIndexHex

def sameBinaryAs (a b : FileIdentity) : Bool :=
  if !a.sameFileAs b then false
  else if a.contentHashed && b.contentHashed then a.content==b.content
  else a.sizeBytes==b.sizeBytes && a.lastWriteNanos==b.lastWriteNanos &&
    a.contentHashed==b.contentHashed

def canonicalDigest (f : FileIdentity) : Digest :=
  .of (canonicalText (canonicalPathKey f.canonicalPath)++canonicalText f.volumeSerialHex++
    canonicalText f.fileIndexHex++canonicalU64 f.sizeBytes.toNat++
    canonicalU64 f.lastWriteNanos.toNat++canonicalText f.content.toHex++
    canonicalBool f.contentHashed)

def describe (f : FileIdentity) : Bytes :=
  (if f.canonicalPath.isEmpty then ascii "<none>" else f.canonicalPath)++ascii " size="++
    decimal f.sizeBytes.toNat++
    (if f.contentHashed then ascii " sha256="++f.content.toHex.take 16
      else ascii " sha256=<unhashed>")++
    (if f.volumeSerialHex.isEmpty then []
      else ascii " fileid="++f.volumeSerialHex++ascii ":"++f.fileIndexHex)

end FileIdentity

structure ComponentIdentity where
  id : CompilerComponentId := {}
  generation : Generation .component := {}
  kind : ComponentKind := {}
  name : Bytes := []
  version : Bytes := []
  file : FileIdentity := {}
  commandCapabilities : List Bytes := []
  targetSupport : List Architecture := []
  objectFormats : List ObjectFormat := []
  environmentRequirements : List EnvironmentVariable := []
  evidenceClass : EvidenceClass := {}
deriving DecidableEq

/-- `less_ascii_ci` sorting of name/value pairs, upper-cased names written. -/
def canonicalVariables (vs : List EnvironmentVariable) : Bytes :=
  (vs.insertionSort fun a b => !lessAsciiCi b.name a.name).flatMap fun v =>
    canonicalText (toUpperAscii v.name)++canonicalText v.value

def ComponentIdentity.canonicalDigest (c : ComponentIdentity) : Digest :=
  .of (canonicalText c.id.toText++canonicalU64 c.generation.value.toNat++
    canonicalText (ascii c.kind.text)++canonicalText c.name++canonicalText c.version++
    canonicalText c.file.canonicalDigest.toHex++
    (sortBytes c.commandCapabilities).flatMap canonicalText++
    (sortBytes (c.targetSupport.map fun a => ascii a.text)).flatMap canonicalText++
    (sortBytes (c.objectFormats.map fun f => ascii f.text)).flatMap canonicalText++
    canonicalVariables c.environmentRequirements++canonicalText (ascii c.evidenceClass.text))

structure ToolchainIdentity where
  id : ToolchainId := {}
  generation : ToolchainGeneration := {}
  family : ToolchainFamily := {}
  displayName : Bytes := []
  version : Bytes := []
  components : List ComponentIdentity := []
  targetSupport : List Architecture := []
  objectFormats : List ObjectFormat := []
  environmentContract : List EnvironmentVariable := []
  toolkitRoot : Bytes := []
  sdkRoot : Bytes := []
  attributes : List EnvironmentVariable := []
  standardLibraryIdentity : Bytes := []
  evidenceClass : EvidenceClass := {}
  evidenceDigest : Digest := {}
deriving DecidableEq

namespace ToolchainIdentity

/-- The evidence only: identity and generation are left out. -/
def canonicalDigest (t : ToolchainIdentity) : Digest :=
  .of (canonicalText (ascii t.family.text)++canonicalText t.displayName++
    canonicalText t.version++canonicalU64 t.components.length++
    (sortBytes (t.components.map fun c => c.name++[61]++c.canonicalDigest.toHex)).flatMap
      canonicalText++
    (sortBytes (t.targetSupport.map fun a => ascii a.text)).flatMap canonicalText++
    (sortBytes (t.objectFormats.map fun f => ascii f.text)).flatMap canonicalText++
    canonicalVariables t.environmentContract++canonicalText (canonicalPathKey t.toolkitRoot)++
    canonicalText (canonicalPathKey t.sdkRoot)++canonicalVariables t.attributes++
    canonicalText t.standardLibraryIdentity++canonicalText (ascii t.evidenceClass.text)++
    canonicalText t.evidenceDigest.toHex)

def findComponent (t : ToolchainIdentity) (name : Bytes) : Option ComponentIdentity :=
  t.components.find? fun c => equalsAsciiCi c.name name

end ToolchainIdentity

structure ToolchainMutation where
  mutated : Bool := false
  previousGeneration : ToolchainGeneration := {}
  currentGeneration : ToolchainGeneration := {}
  changedComponents : List Bytes := []
  removedComponents : List Bytes := []
  addedComponents : List Bytes := []
  detail : Bytes := []

def describeComponent (c : ComponentIdentity) : Bytes :=
  c.name++ascii " ("++c.file.describe++ascii ")"

def changedComponent (previous observed : ComponentIdentity) : Bytes :=
  describeComponent observed++
    (if !previous.file.sameFileAs observed.file then ascii " [replaced at same path]"
      else if !previous.file.contentHashed || !observed.file.contentHashed then
        ascii " [identity unprovable without content digest]"
      else ascii " [content changed in place]")

def diffToolchains (previous observed : ToolchainIdentity) : ToolchainMutation :=
  let unchanged : ToolchainMutation :=
    { previousGeneration := previous.generation,currentGeneration := previous.generation }
  if !previous.id.present || previous.id ≠ observed.id then
    { unchanged with mutated := true,detail := ascii "toolchain identity changed" }
  else if previous.canonicalDigest=observed.canonicalDigest then
    { unchanged with detail := ascii "toolchain evidence is unchanged" }
  else
    let removed := previous.components.filter fun c => (observed.findComponent c.name).isNone
    let changed := previous.components.filterMap fun c =>
      (observed.findComponent c.name).bind fun m =>
        if c.file.sameBinaryAs m.file then none else some (changedComponent c m)
    let added := observed.components.filter fun c => (previous.findComponent c.name).isNone
    let metadataChanged := previous.attributes ≠ observed.attributes ∨
      previous.version ≠ observed.version ∨
      previous.standardLibraryIdentity ≠ observed.standardLibraryIdentity ∨
      canonicalPathKey previous.toolkitRoot ≠ canonicalPathKey observed.toolkitRoot ∨
      previous.evidenceDigest ≠ observed.evidenceDigest ∨
      previous.environmentContract.length ≠ observed.environmentContract.length
    let found : ToolchainMutation :=
      { unchanged with changedComponents := changed
                       removedComponents := removed.map describeComponent
                       addedComponents := added.map describeComponent }
    if changed.isEmpty ∧ removed.isEmpty ∧ added.isEmpty ∧ ¬metadataChanged then
      { found with detail := ascii "no authority-relevant toolchain change detected" }
    else
      { found with
        mutated := true
        currentGeneration := previous.generation.next
        detail := ascii "toolchain generation advanced: "++decimal changed.length++
          ascii " changed, "++decimal removed.length++ascii " removed, "++
          decimal added.length++ascii " added" }

structure ToolchainEntry where
  identity : ToolchainIdentity
  current : Bool := true

structure ToolchainRegistry where
  entries : Table ToolchainEntry := ∅
  allocator : IdAllocator .toolchain := {}

namespace ToolchainRegistry

def find (r : ToolchainRegistry) (id : ToolchainId) : Option ToolchainIdentity :=
  r.entries[id.value]?.map (·.identity)

def registerToolchain (r : ToolchainRegistry) (identity : ToolchainIdentity) :
    Result (Ref .toolchain × ToolchainRegistry) :=
  if identity.family=.unknown then refuse .invalidArgument "toolchain family is unknown"
  else if identity.components.isEmpty ∧ identity.evidenceClass ≠ .synthetic then
    refuse .invalidArgument "toolchain has no probed components and is not declared synthetic"
  else
    let (id,allocator) := r.allocator.next
    let entry := ⟨{ identity with id,generation := .initial },true⟩
    .ok (⟨id,.initial⟩,⟨r.entries.insertIfNew id.value entry,allocator⟩)

def registerToolchainAs (r : ToolchainRegistry) (id : ToolchainId)
    (identity : ToolchainIdentity) : Result (Ref .toolchain × ToolchainRegistry) :=
  if !id.present then refuse .invalidIdentity "toolchain identity is absent"
  else
    let generation := if identity.generation.present then identity.generation else .initial
    .ok (⟨id,generation⟩,
      ⟨r.entries.insert id.value ⟨{ identity with id,generation },true⟩,r.allocator.observe id⟩)

/-- `refresh`, i.e. `apply_observed` with the advance allowed. -/
def refresh (r : ToolchainRegistry) (observed : ToolchainIdentity) :
    Result (ToolchainMutation × ToolchainRegistry) :=
  match r.entries[observed.id.value]? with
  | none => .error ⟨.notFound,ascii "toolchain identity is not registered: "++observed.id.toText⟩
  | some entry =>
      let mutation := diffToolchains entry.identity observed
      if !mutation.mutated then .ok (mutation,r)
      else
        let previous := entry.identity.generation
        let next := previous.next
        .ok ({ mutation with previousGeneration := previous,currentGeneration := next },
          { r with entries := r.entries.insert observed.id.value
                      ⟨{ observed with generation := next },true⟩ })

def invalidate (r : ToolchainRegistry) (id : ToolchainId) (reason : Bytes) :
    Result (ToolchainMutation × ToolchainRegistry) :=
  match r.entries[id.value]? with
  | none => .error ⟨.notFound,ascii "toolchain identity is not registered: "++id.toText⟩
  | some entry =>
      let next := entry.identity.generation.next
      .ok ({ mutated := true,previousGeneration := entry.identity.generation,
             currentGeneration := next,detail := reason },
        { r with entries := r.entries.insert id.value
                    ⟨{ entry.identity with generation := next },true⟩ })

def findLatest (r : ToolchainRegistry) (family : ToolchainFamily) : Option ToolchainIdentity :=
  ((r.entries.toList.map (·.2.identity)).filter (·.family=family)).foldl
    (fun best t => match best with
      | some b => if b.id.value<t.id.value then some t else some b
      | none => some t) none

end ToolchainRegistry

structure SourceLanguage where
  raw : UInt8 := 0
deriving DecidableEq

/-- `source_language_from_extension`. -/
def sourceLanguageFromExtension (extension : Bytes) : SourceLanguage :=
  let lowered := toLowerAscii extension
  if lowered=ascii ".c" then ⟨1⟩
  else if lowered ∈ [".cc",".cpp",".cxx",".c++",".hpp",".hxx",".ixx"].map ascii then ⟨2⟩
  else if lowered=ascii ".cu" then ⟨3⟩
  else if lowered ∈ [".asm",".s"].map ascii then ⟨4⟩
  else if lowered=ascii ".ptx" then ⟨5⟩
  else ⟨0⟩

structure SourceUnit where
  id : SourceId := {}
  generation : Generation .source := {}
  path : Bytes := []
  language : SourceLanguage := {}
  dialect : Bytes := []
  content : Digest := {}
  sizeBytes : UInt64 := 0
  redactDiagnostics : Bool := false
deriving DecidableEq

structure SourceRegistry where
  entries : Table SourceUnit := ∅
  allocator : IdAllocator .source := {}

namespace SourceRegistry

def kMaxSources : Nat := 4096

def find (r : SourceRegistry) (id : SourceId) : Option SourceUnit := r.entries[id.value]?

/-- `add`: `content` and the unit's other fields are what the file system showed. -/
def add (r : SourceRegistry) (unit : SourceUnit) : Result (Ref .source × SourceRegistry) :=
  if kMaxSources ≤ r.entries.size then refuse .capacityExceeded "source registry is full"
  else
    let (id,allocator) := r.allocator.next
    .ok (⟨id,.initial⟩,
      ⟨r.entries.insertIfNew id.value { unit with id,generation := .initial },allocator⟩)

def addAs (r : SourceRegistry) (id : SourceId) (unit : SourceUnit) :
    Result (Ref .source × SourceRegistry) :=
  if !id.present then refuse .invalidIdentity "source identity is absent"
  else
    let generation := if unit.generation.present then unit.generation else .initial
    .ok (⟨id,generation⟩,
      ⟨r.entries.insert id.value { unit with id,generation },r.allocator.observe id⟩)

end SourceRegistry

end CompilerFabric
