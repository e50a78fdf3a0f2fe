import CompilerFabric.Core.Text
import CompilerFabric.Runtime.Workspace

namespace CompilerFabric

open Base Base.Action

inductive ArgumentStyle
  | msvc | posix
deriving DecidableEq

def ArgumentStyle.values : List ArgumentStyle := [msvc,posix]

structure InputBinding where
  source : SourceId := {}
  generation : Generation .source := {}
  path : Bytes := []
  content : Digest := {}
  staged : Bool := false
  readOnly : Bool := true
deriving DecidableEq

structure OutputBinding where
  logicalName : Bytes := []
  path : Bytes := []
  expectedFormat : ObjectFormat := .unknown
  required : Bool := true
  allowEmpty : Bool := false
deriving DecidableEq

structure InvocationSpec where
  id : InvocationId := {}
  generation : InvocationGeneration := {}
  session : Ref .session := {}
  phase : Ref .phase := {}
  attemptGeneration : AttemptGeneration := {}
  component : CompilerComponentId := {}
  componentGeneration : Generation .component := {}
  toolchain : Ref .toolchain := {}
  target : Ref .target := {}
  environment : Ref .environment := {}
  policy : Ref .policy := {}
  executable : Bytes := []
  executableIdentity : FileIdentity := {}
  arguments : List Bytes := []
  environmentVariables : List EnvironmentVariable := []
  workingDirectory : Bytes := []
  inputs : List InputBinding := []
  expectedOutputs : List OutputBinding := []
  style : ArgumentStyle := .msvc
  adapterName : Bytes := []
  producedExecutable : Bool := false
deriving DecidableEq

def kDefaultCaptureBytes : UInt64 := 1048576
def kMaxCaptureBytes : UInt64 := 67108864
def kMaxArguments : Nat := 65536
def kMaxArgumentBytes : Nat := 1048576
def kMaxCommandLineBytes : Nat := 33554432
def kMaxEnvironmentBytes : Nat := 1048576

structure ProcessSpec where
  executable : Bytes := []
  arguments : List Bytes := []
  environment : List EnvironmentVariable := []
  workingDirectory : Bytes := []
  standardInput : Bytes := []
  timeoutMillis : UInt32 := 0
  maxCaptureBytes : UInt64 := kDefaultCaptureBytes
  inheritAmbientEnvironment : Bool := false
deriving DecidableEq

/-- The machine a process is launched on: its files, the reparse points among them, and what
`probe_file_identity` observes. -/
structure Host where
  files : FileTree := fun _ => none
  reparse : Bytes → Bool := fun _ => false
  probe : Bytes → Result FileIdentity := fun _ => refuse .notFound "file does not exist: "

/-- `path::is_absolute`: after a drive letter only with a separator. -/
def isAbsolutePath : Bytes → Bool
  | c::d::rest =>
      if isDriveLetter c && d==58 then rest.head?.any isSlash
      else rootNameEnd (c::d::rest) ≠ 0
  | _ => false

def hasRootDirectory (path : Bytes) : Bool := (path.drop (rootNameEnd path)).head?.any isSlash

def pathComponents (path : Bytes) : List Bytes := pathParts (path.drop (rootNameEnd path))

def pathHasTraversal (path : Bytes) : Bool :=
  path.contains 0 || (pathComponents path).contains [46,46]

/-- The components left when those in common are gone. -/
def dropCommon : List Bytes → List Bytes → List Bytes × List Bytes
  | a::as,b::bs => if a=b then dropCommon as bs else (a::as,b::bs)
  | as,bs => (as,bs)

/-- `path::lexically_relative`. -/
def lexicallyRelative (path base : Bytes) : Bytes :=
  if path.take (rootNameEnd path) ≠ base.take (rootNameEnd base) ∨
      isAbsolutePath path ≠ isAbsolutePath base ∨
      (!hasRootDirectory path && hasRootDirectory base) then []
  else
    let (rest,above) := dropCommon (pathComponents path) (pathComponents base)
    let down := above.countP fun c => c ≠ [46] ∧ c ≠ [46,46]
    let up := above.countP (· = [46,46])
    if down<up then []
    else if down=up && rest.isEmpty then [46]
    else joinAscii (List.replicate (down-up) [46,46]++rest) [92]

namespace Workspace

def contains (workspace : Workspace) (candidate : Bytes) : Bool :=
  workspace.valid && pathIsWithin (normalizePath candidate) workspace.root

/-- The walk of `resolve` down the components that exist. -/
def crossesReparse (host : Host) : Bytes → List Bytes → Option Bytes
  | _,[] => none
  | walk,component::components =>
      let walk := appendPath walk component
      if !host.files.present walk then none
      else if host.reparse (canonicalPathKey walk) then some walk
      else crossesReparse host walk components

def resolve (host : Host) (workspace : Workspace) (relative : Bytes) : Result Bytes := do
  ensure workspace.valid (.of .invalidArgument "workspace is not valid")
  ensure (¬relative.isEmpty) (.of .invalidArgument "workspace-relative path is empty")
  ensure (relative.length ≤ 4096) (.of .invalidArgument "workspace-relative path is too long")
  ensure (¬relative.contains 0)
    (.of .pathTraversal "workspace-relative path contains a NUL byte")
  ensure (¬isAbsolutePath relative ∧ rootNameEnd relative=0 ∧ ¬hasRootDirectory relative)
    (.of .pathTraversal "workspace-relative path must not be absolute or drive-relative")
  ensure (¬pathHasTraversal relative) ⟨.pathTraversal,
    ascii "workspace-relative path escapes with a parent component: "++relative⟩
  let resolved := normalizePath (appendPath workspace.root relative)
  ensure (pathIsWithin resolved workspace.root)
    ⟨.workspaceEscape,ascii "resolved path escapes the workspace: "++resolved⟩
  match crossesReparse host workspace.root (pathComponents relative) with
  | some walk =>
      .error ⟨.reparsePointRejected,ascii "workspace path crosses a reparse point: "++walk⟩
  | none => return resolved

end Workspace

/-- The body of `quote_windows_argument` between its quotes: backslashes are doubled in front of
a quote and at the end. -/
def quoteBody : Nat → Bytes → Bytes
  | slashes,[] => List.replicate (slashes*2) 92
  | slashes,c::rest =>
      if c=92 then quoteBody (slashes+1) rest
      else if c=34 then List.replicate (slashes*2+1) 92++34::quoteBody 0 rest
      else List.replicate slashes 92++c::quoteBody 0 rest

def quoteWindowsArgument (argument : Bytes) : Bytes :=
  if argument.isEmpty || argument.any (· ∈ [32,9,34]) then 34::(quoteBody 0 argument++[34])
  else argument

def quotePosixArgument (argument : Bytes) : Bytes :=
  if argument.isEmpty || argument.any (· ∈ [32,9,34,39]) then 34::(argument++[34]) else argument

def renderCommandLine (argv : List Bytes) (style : ArgumentStyle) : Bytes :=
  joinAscii (argv.map (if style=.msvc then quoteWindowsArgument else quotePosixArgument)) [32]

def InvocationSpec.render (spec : InvocationSpec) : Bytes :=
  renderCommandLine (spec.executable::spec.arguments) spec.style

def environmentBytes (block : List EnvironmentVariable) : Nat :=
  (block.map fun v => v.name.length+v.value.length+2).sum

def EnvironmentVariable.misnamed (v : EnvironmentVariable) : Bool :=
  v.name.isEmpty || v.name.contains 61

/-- The check of one argument of a process. -/
def checkArgument (argument : Bytes) : Result Unit := do
  ensure (argument.length ≤ kMaxArgumentBytes)
    (.of .capacityExceeded "a single argument exceeds the byte ceiling")
  ensure (¬argument.contains 0) (.of .invalidArgument "an argument contains a NUL byte")

def ProcessSpec.validate (host : Host) (spec : ProcessSpec) : Result Unit := do
  ensure (¬spec.executable.isEmpty) (.of .invalidArgument "process executable is empty")
  ensure (isAbsolutePath spec.executable) ⟨.pathNotAbsolute,
    ascii "process executable must be an absolute path: "++spec.executable⟩
  ensure (¬spec.executable.contains 0)
    (.of .invalidArgument "process executable contains a NUL byte")
  ensure (normalizePath spec.executable=spec.executable) ⟨.invalidArgument,
    ascii "process executable path is not canonical: "++spec.executable⟩
  ensure (spec.arguments.length ≤ kMaxArguments)
    (.of .capacityExceeded "argument count exceeds the ceiling")
  spec.arguments.forM checkArgument
  ensure (spec.executable.length+(spec.arguments.map List.length).sum+spec.arguments.length ≤
    kMaxCommandLineBytes) (.of .capacityExceeded "the rendered command line exceeds the ceiling")
  ensure (spec.workingDirectory.isEmpty ∨ isAbsolutePath spec.workingDirectory)
    (.of .pathNotAbsolute "process working directory must be absolute")
  ensure (spec.workingDirectory.isEmpty ∨
      host.files (canonicalPathKey spec.workingDirectory)=some .directory)
    ⟨.notFound,ascii "process working directory does not exist: "++spec.workingDirectory⟩
  ensure (¬spec.environment.any (·.misnamed))
    (.of .invalidArgument "process environment contains an invalid name")
  ensure (environmentBytes spec.environment ≤ kMaxEnvironmentBytes)
    (.of .capacityExceeded "the environment block exceeds the byte ceiling")
  ensure (spec.maxCaptureBytes ≠ 0 ∧ spec.maxCaptureBytes ≤ kMaxCaptureBytes)
    (.of .invalidArgument "capture ceiling is out of range")

def InvocationSpec.toProcessSpec (host : Host) (spec : InvocationSpec) : Result ProcessSpec := do
  let process : ProcessSpec :=
    { executable := spec.executable
      arguments := spec.arguments
      environment := spec.environmentVariables
      workingDirectory := spec.workingDirectory }
  process.validate host
  return process

structure InvocationLimits where
  maxArguments : Nat := 4096
  maxArgumentBytes : Nat := 32768
  maxCommandLineBytes : Nat := 1048576
  maxEnvironmentVariables : Nat := 1024
  maxEnvironmentBytes : Nat := 1048576
  maxOutputs : Nat := 256
  maxInputs : Nat := 256

structure InvocationValidationContext where
  workspace : Option Workspace := none
  targetArchitecture : Architecture := .unknown
  forbiddenOptions : List Bytes := []
  limits : InvocationLimits := {}
  requireComponentIdentity : Bool := true
  allowedExecutableRoots : List Bytes := []

def argumentIsHostile (argument : Bytes) : Bool :=
  argument.any fun c => c=0 || (decide (c<0x20) && c ≠ 9) || c=0x7F

def argumentLooksLikeSwitch (argument : Bytes) : Bool := argument.head?.any (· ∈ [47,45])

/-- An argument that is a forbidden option, alone or with a value behind `:` or `=`. -/
def forbids (options : List Bytes) (argument : Bytes) : Bool :=
  argumentLooksLikeSwitch argument && options.any fun o => equalsAsciiCi argument o ||
    (decide (o.length<argument.length) && startsWithCi argument o &&
      (argument[o.length]?).any (· ∈ [58,61]))

/-- `PolicySpec::forbids_option`, which looks at every argument. -/
def PolicySpec.forbidsOption (spec : PolicySpec) (argument : Bytes) : Bool :=
  spec.forbiddenOptions.any fun o => equalsAsciiCi argument o ||
    (decide (o.length<argument.length) && startsWithCi argument o &&
      (argument[o.length]?).any (· ∈ [58,61]))

namespace InvocationValidationContext

variable (context : InvocationValidationContext)

def checkArguments (spec : InvocationSpec) : Result Unit := do
  ensure (spec.arguments.length ≤ context.limits.maxArguments)
    (.of .capacityExceeded "invocation argument count exceeds the ceiling")
  spec.arguments.forM fun argument => do
    ensure (argument.length ≤ context.limits.maxArgumentBytes)
      (.of .capacityExceeded "invocation argument exceeds the byte ceiling")
    ensure (¬argumentIsHostile argument)
      (.of .invalidArgument "invocation argument contains a forbidden control character")
  ensure (spec.render.length ≤ context.limits.maxCommandLineBytes)
    (.of .capacityExceeded "invocation command line exceeds the ceiling")

def checkEnvironment (spec : InvocationSpec) : Result Unit := do
  ensure (spec.environmentVariables.length ≤ context.limits.maxEnvironmentVariables)
    (.of .capacityExceeded "invocation environment exceeds the entry ceiling")
  ensure (¬spec.environmentVariables.any (·.misnamed))
    (.of .invalidArgument "invocation environment has an invalid name")
  ensure (environmentBytes spec.environmentVariables ≤ context.limits.maxEnvironmentBytes)
    (.of .capacityExceeded "invocation environment exceeds the byte ceiling")

/-- The executable still exists and is the file it was bound to. -/
def checkExecutable (host : Host) (spec : InvocationSpec) : Result Unit := do
  ensure (host.files.present spec.executable)
    ⟨.notFound,ascii "invocation executable does not exist: "++spec.executable⟩
  if context.requireComponentIdentity && !spec.producedExecutable then
    ensure spec.executableIdentity.contentHashed (.of .integrityUnproven
      "invocation executable identity was never content-verified")
    let observed ← host.probe spec.executable
    ensure (spec.executableIdentity.sameBinaryAs observed) (.of .componentMutated
      "invocation executable no longer matches the bound component identity")
  ensure (context.allowedExecutableRoots.isEmpty ∨
      context.allowedExecutableRoots.any (pathIsWithin spec.executable))
    (.of .policyRefused "invocation executable is outside every permitted root")

def checkOptions (spec : InvocationSpec) : Result Unit :=
  match spec.arguments.find? (forbids context.forbiddenOptions) with
  | some argument => .error ⟨.policyRefused,ascii "forbidden option: "++argument⟩
  | none => .ok ()

def checkInput (binding : InputBinding) : Result Unit := do
  ensure (¬binding.path.isEmpty) (.of .invalidArgument "invocation input has an empty path")
  ensure (¬pathHasTraversal binding.path)
    (.of .pathTraversal "invocation input path contains a parent component")
  ensure (¬(binding.staged ∧ context.workspace.any fun w => !w.contains binding.path))
    (.of .workspaceEscape "staged input is outside the workspace")

/-- An output lies inside the workspace, and no reparse point is on the way to it. -/
def checkInside (host : Host) (workspace : Workspace) (path : Bytes) : Result Unit := do
  ensure (workspace.contains path)
    ⟨.workspaceEscape,ascii "invocation output escapes the workspace: "++path⟩
  let relative := lexicallyRelative (normalizePath path) (normalizePath workspace.root)
  ensure (¬relative.isEmpty ∧ ¬[46,46].isPrefixOf relative) ⟨.workspaceEscape,
    ascii "invocation output is not addressable inside the workspace: "++path⟩
  let _ ← workspace.resolve host relative

def checkOutput (host : Host) (binding : OutputBinding) : Result Unit := do
  ensure (¬binding.path.isEmpty) (.of .invalidArgument "invocation output has an empty path")
  ensure (isAbsolutePath binding.path)
    ⟨.pathNotAbsolute,ascii "invocation output must be absolute: "++binding.path⟩
  ensure (¬pathHasTraversal binding.path)
    (.of .pathTraversal "invocation output path contains a parent component")
  ensure (¬binding.logicalName.isEmpty)
    (.of .invalidArgument "invocation output has no logical name")
  context.workspace.elim (.ok ()) fun w => checkInside host w binding.path

/-- A spec without a working directory runs in the root of its workspace. -/
def settle (spec : InvocationSpec) : InvocationSpec :=
  match context.workspace with
  | some w => if spec.workingDirectory.isEmpty then { spec with workingDirectory := w.root } else spec
  | none => spec

def checkWorkingDirectory (spec : InvocationSpec) : Result Unit := do
  ensure (spec.workingDirectory.isEmpty ∨ isAbsolutePath spec.workingDirectory)
    (.of .pathNotAbsolute "invocation working directory must be absolute")
  ensure (spec.workingDirectory.isEmpty ∨
      ¬context.workspace.any fun w => !w.contains spec.workingDirectory)
    (.of .workspaceEscape "invocation working directory is outside the workspace")

end InvocationValidationContext

/-- `validate_invocation`. -/
def validateInvocation (host : Host) (context : InvocationValidationContext)
    (spec : InvocationSpec) : Result InvocationSpec := do
  ensure (¬spec.executable.isEmpty) (.of .invalidArgument "invocation has no executable")
  ensure (isAbsolutePath spec.executable)
    ⟨.pathNotAbsolute,ascii "invocation executable must be absolute: "++spec.executable⟩
  context.checkArguments spec
  context.checkEnvironment spec
  ensure (spec.inputs.length ≤ context.limits.maxInputs)
    (.of .capacityExceeded "invocation input count exceeds the ceiling")
  ensure (spec.expectedOutputs.length ≤ context.limits.maxOutputs)
    (.of .capacityExceeded "invocation output count exceeds the ceiling")
  context.checkExecutable host spec
  context.checkOptions spec
  ensure (context.targetArchitecture ≠ .unknown)
    (.of .targetUnsupported "invocation has no resolved target architecture")
  spec.inputs.forM context.checkInput
  spec.expectedOutputs.forM (context.checkOutput host)
  context.checkWorkingDirectory (context.settle spec)
  let _ ← (context.settle spec).toProcessSpec host
  return context.settle spec

namespace InvocationValidationContext

theorem settle_identity (context : InvocationValidationContext) (spec : InvocationSpec) : (context.settle spec).session=spec.session ∧
    (context.settle spec).phase=spec.phase := by
  unfold settle
  split
  · split_ifs <;> exact ⟨rfl,rfl⟩
  · exact ⟨rfl,rfl⟩

end InvocationValidationContext

/-- What `validate_invocation` accepts, it gives back with a working directory at most added. -/
theorem validateInvocation_ok {context : InvocationValidationContext} {host : Host}
    {spec out : InvocationSpec} (h : validateInvocation host context spec=.ok out) :
    out=context.settle spec := by
  iterate 13 obtain ⟨_,_,h⟩ := do_eq_ok.1 h
  exact (Except.ok.inj h).symm

end CompilerFabric
