import CompilerFabric.Base.Writes
import CompilerFabric.Runtime.Workspace
import CompilerFabric.Runtime.Estate

namespace CompilerFabric

open Base Base.Action

/-- `path::filename`: what follows the root name and the last separator. -/
def fileName (path : Bytes) : Bytes :=
  ((path.drop (rootNameEnd path)).reverse.takeWhile fun c => !isSlash c).reverse

/-- The name of an inline source, reduced to one element of a path. -/
def stagedLeaf (name : Bytes) : Bytes :=
  let leaf := fileName name
  (if leaf.isEmpty then ascii "translation-unit.cpp" else leaf).map fun c =>
    if c=92 ∨ c=47 ∨ c=58 ∨ c=0 then 95 else c

/-- What the operating system refuses while a source is staged. A write that breaks off leaves
the bytes it got to. -/
structure StagingDenial where
  directories : FileDenial := {}
  opens : Bytes → Bool := fun _ => false
  breaksAt : Bytes → Option Nat := fun _ => none

/-- A stream opened for writing: a directory cannot be. -/
def FileTree.openable (denial : StagingDenial) (path : Bytes) (tree : FileTree) : Bool :=
  !denial.opens path && tree (canonicalPathKey path) ≠ some .directory

def FileTree.put (path contents : Bytes) (tree : FileTree) : FileTree := fun p =>
  if p=canonicalPathKey path then some (.file contents) else tree p

namespace WorkspaceManager

def stagedSourcesRoot (m : WorkspaceManager) : Bytes :=
  normalizePath (appendPath m.baseDirectory (ascii "_staged-sources"))

def stagedDirectory (m : WorkspaceManager) (session : CompilerSessionId) : Bytes :=
  appendPath m.stagedSourcesRoot session.toText

def stagedPath (m : WorkspaceManager) (session : CompilerSessionId) (name : Bytes) : Bytes :=
  normalizePath (appendPath (m.stagedDirectory session) (stagedLeaf name))

def writeStream (denial : StagingDenial) (path contents : Bytes) :
    Action WorkspaceManager Status Bytes := fun m =>
  match denial.breaksAt path with
  | some n => (.error ⟨.persistenceIo,ascii "staged source write failed: "++path⟩,
      { m with files := m.files.put path (contents.take n) })
  | none => (.ok path,{ m with files := m.files.put path contents })

def stageInlineSource (denial : StagingDenial) (session : CompilerSessionId)
    (name contents : Bytes) : Action WorkspaceManager Status Bytes := do
  let m ← get
  onFiles (FileTree.createDirectories denial.directories (m.stagedDirectory session))
    ⟨.permissionDenied,ascii "staged source directory could not be created: "++
      denial.directories.message⟩
  let path := m.stagedPath session name
  ofExcept (ensure ((← get).files.openable denial path)
    ⟨.permissionDenied,ascii "staged source could not be written: "++path⟩)
  writeStream denial path contents

/-- What `sources.add` finds at a path. -/
def sourceAt (m : WorkspaceManager) (path : Bytes) : Result SourceUnit :=
  match m.files (canonicalPathKey path) with
  | some (.file contents) => .ok {
      path := normalizePath path
      language := sourceLanguageFromExtension (pathExtension path)
      content := .of contents
      sizeBytes := UInt64.ofNat contents.length }
  | _ => .error ⟨.notFound,ascii "source file could not be hashed: "++path⟩

/-- The staging loop of `create_session`: each file is read back before the next one is
written. -/
def stageInlineSources (denial : StagingDenial) (session : CompilerSessionId) :
    List (Bytes × Bytes) → WorkspaceManager → List (Result SourceUnit) × WorkspaceManager
  | [],m => ([],m)
  | (name,contents)::rest,m =>
      match stageInlineSource denial session name contents m with
      | (.error e,m) => ([.error e],m)
      | (.ok path,m) =>
          let (shown,last) := stageInlineSources denial session rest m
          (m.sourceAt path::shown,last)

end WorkspaceManager

/-- `create_session`, with the files it stages. What a refused request leaves on disk is not
told. -/
def Site.createSession (denial : StagingDenial) (w : World) (request : CompileRequest)
    (site : Site) : Result (Ref .session × Site) :=
  let (stagedFiles,workspaces) := WorkspaceManager.stageInlineSources denial
    site.rt.sessionIds.next.1 request.inlineSources site.workspaces
  match Runtime.createSession { w with stagedFiles } request site.rt with
  | (.error e,_) => .error e
  | (.ok reference,rt) => .ok (reference,{ rt,workspaces })

end CompilerFabric
