import CompilerFabric.Core.Registry
import CompilerFabric.Core.Text

namespace CompilerFabric

/-- The variables of the runtime's own process: `ambient_value`, empty for a name it does not have. -/
abbrev Ambient := Bytes → Bytes

def kLoaderVariables : List Bytes := [ascii "SystemRoot",ascii "windir",ascii "SystemDrive"]

def pathName : Bytes := ascii "PATH"

def tempNames : List Bytes := [ascii "TEMP",ascii "TMP"]

def EnvironmentVariable.named (v : EnvironmentVariable) (name : Bytes) : Bool := equalsAsciiCi v.name name

namespace EnvironmentBlock

def hasVariable (out : List EnvironmentVariable) (name : Bytes) : Bool := out.any (·.named name)

/-- The value of the first variable of the name changed. -/
def modifyFirst (name : Bytes) (f : Bytes → Bytes) : List EnvironmentVariable → List EnvironmentVariable
  | [] => []
  | v::out => if v.named name then { v with value := f v.value }::out else v::modifyFirst name f out

def addLoaderVariable (ambient : Ambient) (out : List EnvironmentVariable) (name : Bytes) :
    List EnvironmentVariable :=
  if hasVariable out name then out
  else if (ambient name).isEmpty then out
  else out++[⟨name,ambient name⟩]

/-- The system directories behind what the path has. -/
def extendPath (systemRoot value : Bytes) : Bytes :=
  let system32 := systemRoot++ascii "\\System32"
  let value :=
    if !startsWithCi value system32 && (findText system32 value).isNone then value++[59]++system32
    else value
  if (findText systemRoot value).isNone then value++[59]++systemRoot else value

def addSystemDirectories (ambient : Ambient) (out : List EnvironmentVariable) : List EnvironmentVariable :=
  let systemRoot := ambient (ascii "SystemRoot")
  if systemRoot.isEmpty then out
  else if hasVariable out pathName then modifyFirst pathName (extendPath systemRoot) out
  else out++[⟨pathName,systemRoot++ascii "\\System32"++[59]++systemRoot⟩]

def defaultTemp (ambient : Ambient) (spec : EnvironmentSpec) (out : List EnvironmentVariable) :
    List EnvironmentVariable :=
  if spec.tempDirectory.isEmpty && !hasVariable out (ascii "TEMP") then
    let temporary := ambient (ascii "TEMP")
    let temporary := if temporary.isEmpty then ambient (ascii "SystemRoot") else temporary
    if temporary.isEmpty then out else out++[⟨ascii "TEMP",temporary⟩]
  else out

def setOrAdd (value : Bytes) (out : List EnvironmentVariable) (name : Bytes) : List EnvironmentVariable :=
  if hasVariable out name then modifyFirst name (fun _ => value) out else out++[⟨name,value⟩]

/-- The body of the loop over the sorted variables: the later of two of one name stays. -/
def keepLater (unique : List EnvironmentVariable) (v : EnvironmentVariable) : List EnvironmentVariable :=
  if unique.getLast?.any (·.named v.name) then unique.dropLast++[v] else unique++[v]

end EnvironmentBlock

open EnvironmentBlock

/-- `build_process_environment`, which never refuses. -/
def buildProcessEnvironment (ambient : Ambient) (spec : EnvironmentSpec)
    (includeLoaderVariables : Bool) : List EnvironmentVariable :=
  let out := if includeLoaderVariables then kLoaderVariables.foldl (addLoaderVariable ambient) spec.vars
    else spec.vars
  let out := addSystemDirectories ambient out
  let out := defaultTemp ambient spec out
  let out := if spec.tempDirectory.isEmpty then out
    else tempNames.foldl (setOrAdd spec.tempDirectory) out
  (out.insertionSort fun a b => !lessAsciiCi b.name a.name).foldl keepLater []

end CompilerFabric
