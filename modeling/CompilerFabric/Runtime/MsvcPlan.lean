import CompilerFabric.Runtime.Msvc
import CompilerFabric.Runtime.Invocation
import CompilerFabric.Runtime.Session

namespace CompilerFabric

def PhaseKind.text : PhaseKind → String
  | unknown => "UNKNOWN" | inputValidate => "INPUT_VALIDATE" | preprocess => "PREPROCESS"
  | frontend => "FRONTEND" | parse => "PARSE" | semanticAnalysis => "SEMANTIC_ANALYSIS"
  | irGenerate => "IR_GENERATE" | irOptimize => "IR_OPTIMIZE" | codegen => "CODEGEN"
  | assemble => "ASSEMBLE" | deviceCompile => "DEVICE_COMPILE" | deviceLink => "DEVICE_LINK"
  | link => "LINK" | postprocess => "POSTPROCESS" | validate => "VALIDATE" | finalize => "FINALIZE"
  | custom => "CUSTOM"

/-- The text around the last `c`. -/
def splitLast (c : UInt8) : Bytes → Option (Bytes × Bytes)
  | [] => none
  | x::rest => match splitLast c rest with
    | some (before,after) => some (x::before,after)
    | none => if x=c then some ([],rest) else none

/-- `ToolchainIdentity::find_component` by its kind. -/
def ToolchainIdentity.componentOf (t : ToolchainIdentity) (kind : ComponentKind) :
    Option ComponentIdentity := t.components.find? (·.kind=kind)

/-- What `build_plan` is asked for. -/
structure PhasePlanRequest where
  translationUnitCount : Nat := 1
  wantSmokeTest : Bool := true

/-- What `build_invocation` is given of the phase, the session and the registries. -/
structure PhaseExecutionRequest where
  kind : PhaseKind := .unknown
  adapterPhase : Bytes := []
  toolchain : ToolchainIdentity := {}
  sources : List SourceUnit := []
  resolvedInputs : List (Ref .intermediate) := []
  artifacts : ArtifactRegistry := {}
  workspace : Workspace := {}
  finalArtifactName : Bytes := []
  adapterOptions : List EnvironmentVariable := []

def PhaseExecutionRequest.optionOr (request : PhaseExecutionRequest) (name fallback : Bytes) :
    Bytes :=
  ((request.adapterOptions.find? fun entry => equalsAsciiCi entry.name name).map
    (·.value)).getD fallback

namespace MsvcAdapter

def sourceStem (unit : SourceUnit) : Bytes :=
  let name := pathFilename unit.path
  let name := match splitLast 46 name with
    | some (stem,_) => if stem.isEmpty then name else stem
    | none => name
  if name.isEmpty then ascii "translation-unit" else name

def defaultFinalName (request : PhaseExecutionRequest) : Bytes :=
  if !request.finalArtifactName.isEmpty then request.finalArtifactName
  else match request.sources.head? with
    | some unit => sourceStem unit++ascii ".exe"
    | none => ascii "candidate.exe"

/-- `parse_phase_index`: the digits behind the last `#`. -/
def parsePhaseIndex (name : Bytes) : Option Nat :=
  match splitLast 35 name with
  | some (_,digits) =>
      if digits.isEmpty || !digits.all isDecimalDigit then none else some (strtoull digits).toNat
  | none => none

def compileName (i : Nat) : Bytes := ascii "compile#"++decimal i

/-- The phases that compile, from the `i`-th unit on. -/
def compileNodes (validate : CompilerPhaseId) : Nat → Nat → IdAllocator .phase →
    List PhaseNode × IdAllocator .phase
  | 0,_,ids => ([],ids)
  | units+1,i,ids =>
      let (id,ids) := ids.next
      let (rest,ids) := compileNodes validate units (i+1) ids
      ({ id := id
         kind := .codegen
         adapterPhase := compileName i
         dependsOn := [validate]
         mandatory := true
         expectedOutputs := [.coffObject] }::rest,ids)

/-- The list `build_plan` hands on. -/
def planNodes (units : Nat) (wantSmokeTest : Bool) : List PhaseNode :=
  let (validate,ids) := ({} : IdAllocator .phase).next
  let (compile,ids) := compileNodes validate units 0 ids
  let (link,ids) := ids.next
  let finalize := if wantSmokeTest then
      [{ id := ids.next.1
         kind := .finalize
         adapterPhase := ascii "execute-candidate"
         dependsOn := [link]
         mandatory := true }]
    else []
  { id := validate,kind := .inputValidate,adapterPhase := ascii "validate-inputs"
    mandatory := true }::compile++
  { id := link
    kind := .link
    adapterPhase := ascii "link"
    dependsOn := compile.map (·.id)
    mandatory := true
    fanIn := true
    requiredInputs := UInt64.ofNat compile.length
    expectedOutputs := [.coffImage,.linkerMap] }::finalize

def kMaxUnits : Nat := 64

def buildPlan (request : PhasePlanRequest) : Result PhasePlan :=
  let units := max 1 request.translationUnitCount
  if kMaxUnits<units then refuse .capacityExceeded
    "the MSVC adapter supports at most 64 translation units per session"
  else PhasePlan.build (planNodes units request.wantSmokeTest)

def boundUnit (unit : SourceUnit) : InputBinding :=
  { source := unit.id,generation := unit.generation,path := unit.path,content := unit.content }

def boundObject (artifact : IntermediateArtifact) : InputBinding :=
  { source := artifact.source.id
    generation := artifact.source.generation
    path := artifact.path
    content := artifact.content }

/-- The loop over the inputs of the link: the objects among them. -/
def linkObjects (artifacts : ArtifactRegistry) : List (Ref .intermediate) →
    Result (List IntermediateArtifact)
  | [] => .ok []
  | reference::rest =>
      match artifacts.find reference.id with
      | none => refuse .notFound "link input artifact is not registered"
      | some artifact => (linkObjects artifacts rest).map fun objects =>
          if artifact.format=.coffObject then artifact::objects else objects

variable (host : Host) (request : PhaseExecutionRequest)

def validateInvocation (compiler : ComponentIdentity) (spec : InvocationSpec) :
    Result InvocationSpec := do
  ensure (request.sources ≠ [])
    (.of .invalidArgument "input validation requires at least one source")
  return { spec with
    executable := compiler.file.canonicalPath
    arguments := [ascii "/nologo",ascii "/Zs",ascii "/std:c++20",ascii "/EHsc",ascii "/Brepro"]++
      request.sources.map (·.path)
    inputs := request.sources.map boundUnit }

def compileInvocation (compiler : ComponentIdentity) (spec : InvocationSpec) :
    Result InvocationSpec := do
  let index ← (parsePhaseIndex request.adapterPhase).elim
    (refuse .invalidArgument "compile phase is missing its translation-unit ordinal") .ok
  let unit ← request.sources[index]?.elim (refuse .invalidArgument
    "compile phase names a translation unit that is not part of the session") .ok
  let object ← request.workspace.resolve host
    (ascii "outputs/"++sourceStem unit++ascii "-"++decimal index++ascii ".obj")
  return { spec with
    executable := compiler.file.canonicalPath
    arguments := [ascii "/nologo",ascii "/c",
      ascii "/std:"++request.optionOr (ascii "msvc.standard") (ascii "c++20"),ascii "/EHsc",
      ascii "/Brepro",ascii "/Fo"++object,unit.path]
    inputs := [boundUnit unit]
    expectedOutputs := [{ logicalName := ascii "object",path := object
                          expectedFormat := .coffObject }] }

def linkInvocation (linker : ComponentIdentity) (spec : InvocationSpec) : Result InvocationSpec := do
  ensure (request.resolvedInputs ≠ [])
    (.of .fanInIncomplete "link phase received no object inputs")
  let name := defaultFinalName request
  let image ← request.workspace.resolve host (ascii "outputs/"++name)
  let stem := ((splitLast 46 name).map (·.1)).getD name
  let map ← request.workspace.resolve host (ascii "outputs/"++stem++ascii ".map")
  let objects ← linkObjects request.artifacts request.resolvedInputs
  return { spec with
    executable := linker.file.canonicalPath
    arguments := [ascii "/nologo",ascii "/Brepro",ascii "/INCREMENTAL:NO",ascii "/OUT:"++image,
      ascii "/MAP:"++map]++objects.map (·.path)
    inputs := objects.map boundObject
    expectedOutputs := [{ logicalName := ascii "image",path := image,expectedFormat := .coffImage },
      { logicalName := ascii "map",path := map,expectedFormat := .linkerMap
        required := false,allowEmpty := true }] }

def finalizeInvocation (spec : InvocationSpec) : Result InvocationSpec := do
  let image ← ((request.resolvedInputs.filterMap fun reference =>
    request.artifacts.find reference.id).find? (·.format=.coffImage)).elim
      (refuse .fanInIncomplete "finalize phase found no linked image among its inputs") .ok
  return { spec with executable := image.path,producedExecutable := true }

/-- `MsvcAdapter::build_invocation`. -/
def buildInvocation : Result InvocationSpec := do
  let compiler ← (request.toolchain.componentOf ⟨2⟩).elim
    (refuse .componentNotFound "the MSVC toolchain lacks cl.exe or link.exe") .ok
  let linker ← (request.toolchain.componentOf ⟨6⟩).elim
    (refuse .componentNotFound "the MSVC toolchain lacks cl.exe or link.exe") .ok
  let spec : InvocationSpec := { adapterName := ascii "msvc",style := .msvc
                                 workingDirectory := request.workspace.root }
  match request.kind with
  | .inputValidate => validateInvocation request compiler spec
  | .codegen => compileInvocation host request compiler spec
  | .link => linkInvocation host request linker spec
  | .finalize => finalizeInvocation request spec
  | kind => .error ⟨.unsupported,
      ascii "the MSVC adapter does not implement phase "++ascii kind.text⟩

end MsvcAdapter

namespace Runtime

/-- `build_request`, with what an adapter reads of it. -/
def executionRequest (rt : Runtime) (session : CompilerSession) (phase : PhaseRecord)
    (workspace : Workspace) : Result PhaseExecutionRequest := do
  rt.buildRequest session
  let toolchain ← (rt.toolchains.find session.toolchain.id).elim (refuse .integrityUnproven
    "phase execution context is missing an authority component") .ok
  return {
    kind := phase.kind
    adapterPhase := phase.adapterPhase
    toolchain := toolchain
    sources := session.sources.filterMap fun reference => rt.sources.find reference.id
    resolvedInputs := phase.inputs
    artifacts := rt.artifacts
    workspace := workspace
    finalArtifactName := session.finalArtifactName
    adapterOptions := session.adapterOptions }

end Runtime

end CompilerFabric
