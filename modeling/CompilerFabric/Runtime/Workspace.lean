import CompilerFabric.Runtime.Session

namespace CompilerFabric

open Base Base.Action

def pathIsWithin (candidate root : Bytes) : Bool :=
  let child := canonicalPathKey candidate
  let parent := canonicalPathKey root
  if child.isEmpty || parent.isEmpty then false
  else if child=parent then true
  else
    let parent := if parent.getLast?=some 92 then parent else parent++[92]
    decide (parent.length<child.length) && parent.isPrefixOf child

/-- `path / leaf` for a relative leaf: no separator follows a bare drive. -/
def appendPath (path leaf : Bytes) : Bytes :=
  if path.isEmpty || path.getLast?.any isSlash || (path.length=2 && rootNameEnd path=2) then
    path++leaf
  else path++[92]++leaf

inductive FileEntry
  | directory
  | file (contents : Bytes)
deriving DecidableEq

/-- The file system as a map, by the canonical key of a path. -/
abbrev FileTree := Bytes → Option FileEntry

/-- What the operating system refuses to write, and the text it gives. -/
structure FileDenial where
  denies : Bytes → Bool := fun _ => false
  message : Bytes := []

namespace FileTree

def present (tree : FileTree) (path : Bytes) : Bool := (tree (canonicalPathKey path)).isSome

/-- The keys of a path and of the directories above it. -/
def lineage (path : Bytes) : List Bytes :=
  let key := canonicalPathKey path
  ((List.range key.length).filter fun n => key[n]?=some 92).map (key.take ·)++[key]

def createDirectories (denial : FileDenial) (path : Bytes) (tree : FileTree) : Option FileTree :=
  if denial.denies path || (lineage path).any fun p => (tree p).any (· ≠ .directory) then none
  else some fun p => if p ∈ lineage path then some .directory else tree p

/-- `rename` of a directory onto a path that is free. -/
def rename (denial : FileDenial) (path target : Bytes) (tree : FileTree) : Option FileTree :=
  if denial.denies path || tree.present target then none
  else some fun p =>
    if pathIsWithin p target then
      tree (canonicalPathKey path++(canonicalPathKey p).drop (canonicalPathKey target).length)
    else if pathIsWithin p path then none
    else tree p

/-- `write_file_atomic`. -/
def writeFileAtomic (denial : FileDenial) (path contents : Bytes) (tree : FileTree) :
    Option FileTree :=
  if denial.denies path then none
  else some fun p => if p=canonicalPathKey path then some (.file contents) else tree p

def removeAll (path : Bytes) (tree : FileTree) : FileTree := fun p =>
  if pathIsWithin p path then none else tree p

/-- Where a stale directory is moved to: the first free name of a thousand. -/
def staleName (tree : FileTree) (root : Bytes) : Bytes := go 1000 0 (root++ascii ".stale")
where
  go : Nat → Nat → Bytes → Bytes
  | 0,_,stale => stale
  | fuel+1,attempt,stale =>
      if tree.present stale then
        go fuel (attempt+1) (root++ascii ".stale-"++decimal (attempt+1))
      else stale

end FileTree

def kMarkerName : Bytes := ascii ".crf-workspace.marker"

def markerBody (session : CompilerSessionId) (sessionGeneration : CompilerSessionGeneration)
    (phase : CompilerPhaseId) (phaseGeneration : CompilerPhaseGeneration) (created : UInt64) :
    Bytes :=
  ascii "crf-workspace/1\n"++ascii "session="++session.toText++
    ascii "\nsession-generation="++sessionGeneration.toText++ascii "\nphase="++phase.toText++
    ascii "\nphase-generation="++phaseGeneration.toText++ascii "\ncreated="++
    decimal created.toNat++ascii "\n"

def markerContents (body : Bytes) : Bytes :=
  body++ascii "digest="++(Digest.of body).toHex++ascii "\n"

/-- `WorkspaceManager`, with the file system it works on: one list of live roots for all
sessions. -/
structure WorkspaceManager where
  baseDirectory : Bytes := []
  live : List Bytes := []
  files : FileTree := fun _ => none

namespace WorkspaceManager

def sessionDirectory (m : WorkspaceManager) (session : CompilerSessionId) : Bytes :=
  appendPath m.baseDirectory session.toText

/-- The label of a workspace, reduced to what a file name may hold. -/
def suffixOf (label : Bytes) : Bytes :=
  (label.filter fun c => (48 ≤ c && c ≤ 57) || (65 ≤ c && c ≤ 90) || (97 ≤ c && c ≤ 122) ||
    c=45 || c=95).take 64

def rootOf (m : WorkspaceManager) (session : CompilerSessionId) (phase : CompilerPhaseId)
    (phaseGeneration : CompilerPhaseGeneration) (label : Bytes) : Bytes :=
  let root := appendPath (m.sessionDirectory session)
    (phase.toText++ascii "-g"++phaseGeneration.toText)
  normalizePath (if (suffixOf label).isEmpty then root else root++ascii "-"++suffixOf label)

/-- A change of the file system, or the refusal it stands for. -/
def onFiles (f : FileTree → Option FileTree) (e : Status) : Action WorkspaceManager Status Unit :=
  fun m => match f m.files with
    | some files => (.ok (),{ m with files })
    | none => (.error e,m)

theorem onFiles_ok {f : FileTree → Option FileTree} {e : Status} {m m' : WorkspaceManager}
    (h : onFiles f e m=(.ok (),m')) : ∃ files,f m.files=some files ∧ m'={ m with files } := by
  unfold onFiles at h
  split at h
  · next files hf =>
    cases h
    exact ⟨files,hf,rfl⟩
  · cases h

/-- An existing directory is never adopted: it is moved aside. -/
def moveAside (denial : FileDenial) (root : Bytes) : Action WorkspaceManager Status Unit := do
  let m ← get
  if m.files.present root then
    onFiles (FileTree.rename denial root (m.files.staleName root)) ⟨.alreadyExists,
      ascii "a stale workspace exists and could not be moved aside: "++denial.message⟩
  else pure ()

def create (denial : FileDenial) (wall : UInt64) (session : CompilerSessionId)
    (sessionGeneration : CompilerSessionGeneration) (phase : CompilerPhaseId)
    (phaseGeneration : CompilerPhaseGeneration) (label : Bytes) :
    Action WorkspaceManager Status Workspace := do
  let m ← get
  ofExcept (ensure (session.present ∧ phase.present)
    (.of .invalidIdentity "workspace requires a session and phase identity"))
  ofExcept (ensure (¬m.baseDirectory.isEmpty)
    (.of .invalidArgument "workspace base directory is not configured"))
  let root := m.rootOf session phase phaseGeneration label
  ofExcept (ensure (pathIsWithin root m.baseDirectory)
    (.of .workspaceEscape "workspace root escapes the configured base"))
  onFiles (FileTree.createDirectories denial m.baseDirectory) ⟨.permissionDenied,
    ascii "workspace base directory could not be created: "++denial.message⟩
  moveAside denial root
  onFiles (FileTree.createDirectories denial root) ⟨.permissionDenied,
    ascii "workspace could not be created: "++denial.message⟩
  forEach (fun leaf => onFiles (FileTree.createDirectories denial (appendPath root leaf))
    ⟨.permissionDenied,ascii "workspace subdirectory could not be created: "++denial.message⟩)
    [ascii "inputs",ascii "outputs",ascii "temp",ascii "logs"]
  let body := markerBody session sessionGeneration phase phaseGeneration wall
  onFiles (FileTree.writeFileAtomic denial (appendPath root kMarkerName) (markerContents body))
    (.of .persistenceIo "workspace marker could not be written")
  modify fun m => { m with live := m.live++[root] }
  return { root,session,sessionGeneration,phase,phaseGeneration
           markerDigest := Digest.of body,valid := true }

/-- One root of `cleanup_all`. -/
def cleanupRoot (m : WorkspaceManager) (files : FileTree) (root : Bytes) : FileTree :=
  if pathIsWithin root m.baseDirectory then files.removeAll root else files

/-- `cleanup_all`: how many roots it removed is not read. -/
def cleanupAll (m : WorkspaceManager) : WorkspaceManager :=
  { m with live := [],files := m.live.foldl m.cleanupRoot m.files }

end WorkspaceManager

/-- A runtime beside its workspaces. -/
structure Site where
  rt : Runtime
  workspaces : WorkspaceManager

namespace Site

/-- `reserve`, with the workspace it creates. -/
def reserve (denial : FileDenial) (w : World) (sid : CompilerSessionId) (pid : CompilerPhaseId)
    (isRetry : Bool) (site : Site) : Result Reservation × Site :=
  match site.rt.admission sid pid isRetry with
  | .error e => (.error e,site)
  | .ok (session,phase,_) =>
      let (workspace,workspaces) := WorkspaceManager.create denial w.wall session.id
        session.generation pid phase.nextGeneration (ascii (if isRetry then "retry" else ""))
        site.workspaces
      let (result,rt) := Runtime.reserve { w with workspace } sid pid isRetry site.rt
      (result,{ rt,workspaces })

/-- `retire_session`: its locked part, then the cleanup. -/
def retireSession (w : World) (sid : CompilerSessionId) (reason : Bytes) (site : Site) :
    Result Unit × Site :=
  match Runtime.retireSession w sid reason site.rt with
  | (.ok (),rt) => (.ok (),{ rt,workspaces := site.workspaces.cleanupAll })
  | (.error e,rt) => (.error e,{ site with rt })

end Site

end CompilerFabric
