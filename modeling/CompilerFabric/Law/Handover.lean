import CompilerFabric.Runtime.Marker
import CompilerFabric.Runtime.Invocation
import CompilerFabric.Runtime.System
import CompilerFabric.Runtime.Moves

namespace CompilerFabric

open Base Base.Action

/-- What an execution gets from elsewhere: the environment block and what the adapter built. -/
structure Drafted where
  block : Result (List EnvironmentVariable)
  built : Result InvocationSpec

namespace Runtime

/-- The fields that both executions write into what the adapter built. -/
def bindInvocation (session : CompilerSession) (phase : PhaseRecord) (r : Reservation)
    (root : Bytes) (block : List EnvironmentVariable) (built : InvocationSpec) : InvocationSpec :=
  { built with
    id := r.invocation.id
    generation := r.invocation.generation
    session := ⟨session.id,r.workspace.sessionGeneration⟩
    phase := ⟨phase.id,phase.generation⟩
    attemptGeneration := phase.attemptGeneration
    toolchain := session.toolchain
    target := session.target
    environment := session.environment
    policy := session.policy
    environmentVariables := block
    workingDirectory := root
    adapterName := session.adapterName }

/-- The first component of the session's toolchain that is the executable. -/
def findComponent (rt : Runtime) (session : CompilerSession) (spec : InvocationSpec) :
    Option ComponentIdentity :=
  (rt.toolchains.find session.toolchain.id).bind fun toolchain => toolchain.components.find?
    fun c => canonicalPathKey c.file.canonicalPath=canonicalPathKey spec.executable

def bindComponent (spec : InvocationSpec) (c : ComponentIdentity) : InvocationSpec :=
  { spec with
    component := c.id
    componentGeneration := c.generation
    executableIdentity := c.file }

/-- An executable is a component of the toolchain or an artifact the session may rely on. -/
def bindExecutable (host : Host) (rt : Runtime) (session : CompilerSession) (phase : PhaseRecord)
    (spec : InvocationSpec) : Result InvocationSpec :=
  match rt.findComponent session spec with
  | some c => .ok (bindComponent spec c)
  | none => do
      ensure spec.producedExecutable ⟨.componentNotFound,
        ascii "invocation executable is not a probed toolchain component: "++spec.executable⟩
      ensure (phase.inputs.any fun reference => (rt.artifacts.find reference.id).any fun a =>
          a.authority=.authoritative && canonicalPathKey a.path=canonicalPathKey spec.executable)
        ⟨.notAuthoritative,ascii "produced executable is not an authoritative artifact of this "++
          ascii "session: "++spec.executable⟩
      let observed ← host.probe spec.executable
      return { spec with executableIdentity := observed }

def invocationContext (rt : Runtime) (session : CompilerSession) (workspace : Workspace)
    (requireComponentIdentity : Bool) : InvocationValidationContext :=
  { workspace := some workspace
    targetArchitecture :=
      ((rt.targets.find session.target.id).map (·.spec.architecture)).getD .unknown
    forbiddenOptions := ((rt.policies.find session.policy.id).map (·.spec.forbiddenOptions)).getD []
    requireComponentIdentity }

/-- The invocation that `execute_reserved` hands to the executor, with `reservation.workspace`. -/
def executeOrder (host : Host) (drafted : Drafted) (rt : Runtime) (r : Reservation) :
    Result InvocationSpec := do
  let session ← rt.requireSession r.session
    (.of .notFound "session disappeared during execution")
  let phase ← session.requirePhase r.phase (.of .notFound "phase disappeared during execution")
  ensure (phase.generation=r.phaseGeneration ∧ phase.activeInvocation=r.invocation)
    (.of .staleInvocation "phase invocation is no longer the current one")
  ensure (rt.findAdapterByName session.adapterName).isSome
    ⟨.unsupported,ascii "no adapter is registered for "++session.adapterName⟩
  rt.buildRequest session
  let block ← drafted.block
  let built ← drafted.built
  let spec ← rt.bindExecutable host session phase
    (bindInvocation session phase r r.workspace.root block built)
  let spec ← validateInvocation host
    (rt.invocationContext session r.workspace (!spec.producedExecutable)) spec
  let _ ← spec.toProcessSpec host
  return spec

/-- The second locked part of `reproducibility_verify`, on the workspace made for it. -/
def reproducibilitySpec (host : Host) (drafted : Drafted) (rt : Runtime) (r : Reservation)
    (workspace : Workspace) : Result InvocationSpec := do
  let session ← rt.requireSession r.session (.of .notFound "session disappeared")
  let phase ← session.requirePhase r.phase (.of .notFound "phase disappeared")
  rt.buildRequest session
  let block ← drafted.block
  let built ← drafted.built
  let spec := bindInvocation session phase r workspace.root block built
  let spec ← validateInvocation host (rt.invocationContext session workspace true)
    ((rt.findComponent session spec).elim spec (bindComponent spec))
  let _ ← spec.toProcessSpec host
  return spec

/-- What `reproducibility_verify` hands to the executor, if anything: `rt` is the runtime of its
first locked part and `later` that of its second. -/
def reproducibilityOrder (denial : FileDenial) (wall : UInt64) (host : Host) (drafted : Drafted)
    (rt later : Runtime) (r : Reservation) :
    Action WorkspaceManager Status (Option (InvocationSpec × Workspace)) := do
  let session ← ofExcept (rt.requireSession r.session (.of .notFound "session disappeared"))
  let adapter ← ofExcept ((rt.findAdapterByName session.adapterName).elim
    (refuse .unsupported "no adapter registered") .ok)
  if r.kind ∉ adapter.deterministicPhases then return none
  else do
    let workspace ← WorkspaceManager.create denial wall r.session {} r.phase r.phaseGeneration
      (ascii "repro")
    let spec ← ofExcept (later.reproducibilitySpec host drafted r workspace)
    return some (spec,workspace)

end Runtime

namespace WorkspaceManager

variable {m m' : WorkspaceManager} {denial : FileDenial} {root path : Bytes} {e : Status}

/-- Directories stay where they are when others are made. -/
theorem createDirectories_within (path : Bytes) :
    Within (fun m m' : WorkspaceManager => m.files.present root=true → m'.files.present root=true)
      (onFiles (FileTree.createDirectories denial path) e) := by
  intro m hm
  unfold onFiles
  split
  · next files hf =>
    unfold FileTree.createDirectories at hf
    split_ifs at hf
    cases hf
    simp only [FileTree.present] at hm ⊢
    split_ifs
    · rfl
    · exact hm
  · exact hm

theorem createDirectories_present (h : onFiles (FileTree.createDirectories denial path) e m=
    (.ok (),m')) : m'.files.present path=true := by
  obtain ⟨files,hf,rfl⟩ := onFiles_ok h
  unfold FileTree.createDirectories at hf
  split_ifs at hf
  simp only [Option.some.injEq] at hf
  simp only [FileTree.present,← hf]
  rw [if_pos (by simp [FileTree.lineage])]
  rfl

/-- What `create` leaves behind: a directory with a marker of the identities it was given. -/
theorem create_ok {wall : UInt64} {session : CompilerSessionId}
    {sessionGeneration : CompilerSessionGeneration} {phase : CompilerPhaseId}
    {phaseGeneration : CompilerPhaseGeneration} {label : Bytes} {workspace : Workspace}
    (h : create denial wall session sessionGeneration phase phaseGeneration label m=
      (.ok workspace,m')) :
    session.present=true ∧ phase.present=true ∧ m'.files.present workspace.root=true ∧
    m'.files (canonicalPathKey (appendPath workspace.root kMarkerName))=some (.file
      (markerContents (markerBody session sessionGeneration phase phaseGeneration wall))) ∧
    workspace.session=session ∧ workspace.sessionGeneration=sessionGeneration ∧
    workspace.phase=phase ∧ workspace.phaseGeneration=phaseGeneration := by
  obtain ⟨_,_,_,h⟩ := seq_eq_ok.1 h
  obtain ⟨_,_,hids,h⟩ := seq_eq_ok.1 h
  obtain ⟨_,_,_,h⟩ := seq_eq_ok.1 h
  obtain ⟨_,_,_,h⟩ := seq_eq_ok.1 h
  obtain ⟨_,_,_,h⟩ := seq_eq_ok.1 h
  obtain ⟨_,_,_,h⟩ := seq_eq_ok.1 h
  obtain ⟨_,m1,hroot,h⟩ := seq_eq_ok.1 h
  obtain ⟨_,m2,hsub,h⟩ := seq_eq_ok.1 h
  obtain ⟨_,m3,hwrite,h⟩ := seq_eq_ok.1 h
  obtain ⟨_,m4,hlive,h⟩ := seq_eq_ok.1 h
  cases h
  cases hlive
  have hpresent := createDirectories_present hroot
  generalize hr : rootOf _ session phase phaseGeneration label=root at *
  have hkept : m2.files.present root=true := by
    have hw : Within (fun m m' : WorkspaceManager =>
        m.files.present root=true → m'.files.present root=true) (forEach (fun leaf =>
          onFiles (FileTree.createDirectories denial (appendPath root leaf)) ⟨.permissionDenied,
            ascii "workspace subdirectory could not be created: "++denial.message⟩)
          [ascii "inputs",ascii "outputs",ascii "temp",ascii "logs"]) := by
      have : IsPreorder WorkspaceManager fun m m' =>
          m.files.present root=true → m'.files.present root=true :=
        { refl := fun _ h => h,trans := fun _ _ _ h h' hm => h' (h hm) }
      exact Within.forEach (fun leaf => createDirectories_within _) _
    have := hw m1 hpresent
    rwa [hsub] at this
  obtain ⟨files,hfiles,rfl⟩ := onFiles_ok hwrite
  unfold FileTree.writeFileAtomic at hfiles
  split_ifs at hfiles
  simp only [Option.some.injEq] at hfiles
  have hpair : session.present ∧ phase.present := ensure_ok.1 (ofExcept_eq_ok.1 hids).1
  refine ⟨hpair.1,hpair.2,?_,?_,rfl,rfl,rfl,rfl⟩
  · simp only [FileTree.present,← hfiles] at hkept ⊢
    split_ifs
    · rfl
    · exact hkept
  · simp only [← hfiles,if_true]

end WorkspaceManager

namespace Site

variable {denial : FileDenial} {w : World} {sid : CompilerSessionId} {pid : CompilerPhaseId}
  {isRetry : Bool} {site site' : Site} {r : Reservation}

/-- A reservation carries the workspace that was made for it. -/
theorem reserve_ok (h : site.reserve denial w sid pid isRetry=(.ok r,site')) :
    ∃ session : CompilerSession,r.phase=pid ∧
      WorkspaceManager.create denial w.wall session.id session.generation pid r.phaseGeneration
        (ascii (if isRetry then "retry" else "")) site.workspaces=(.ok r.workspace,site'.workspaces) := by
  unfold reserve at h
  split at h
  · cases h
  · next session phase inputs hadm =>
    rcases hc : WorkspaceManager.create denial w.wall session.id session.generation pid
      phase.nextGeneration (ascii (if isRetry then "retry" else "")) site.workspaces with ⟨ws,ms⟩
    rw [hc] at h
    simp only [Prod.mk.injEq] at h
    obtain ⟨hr,rfl⟩ := h
    obtain ⟨rt,hreserve⟩ : ∃ rt,Runtime.reserve { w with workspace := ws } sid pid isRetry site.rt=
      (.ok r,rt) := ⟨_,Prod.ext hr rfl⟩
    obtain ⟨_,_,hget,h⟩ := seq_eq_ok.1 hreserve
    cases hget
    obtain ⟨_,_,ha,h⟩ := seq_eq_ok.1 h
    cases hadm.symm.trans (ofExcept_eq_ok.1 ha).1
    obtain ⟨_,_,_,h⟩ := seq_eq_ok.1 h
    obtain ⟨_,_,_,h⟩ := seq_eq_ok.1 h
    obtain ⟨workspace,_,hw,h⟩ := seq_eq_ok.1 h
    obtain ⟨_,_,_,h⟩ := seq_eq_ok.1 h
    obtain ⟨_,_,_,h⟩ := seq_eq_ok.1 h
    obtain ⟨_,_,_,h⟩ := seq_eq_ok.1 h
    cases h
    have hws : ws=.ok workspace := (ofExcept_eq_ok.1 hw).1
    exact ⟨session,rfl,hws ▸ hc⟩

end Site

inductive Execution
  | primary | reproducibility
deriving DecidableEq

/-- What `create` left of a workspace is in the tree still. -/
structure Workspace.Stands (workspace : Workspace) (created files : FileTree) : Prop where
  root : files (canonicalPathKey workspace.root)=created (canonicalPathKey workspace.root)
  marker : files (canonicalPathKey (appendPath workspace.root kMarkerName))=
    created (canonicalPathKey (appendPath workspace.root kMarkerName))

theorem Workspace.Stands.same (workspace : Workspace) (files : FileTree) :
    workspace.Stands files files := ⟨rfl,rfl⟩

/-- What the executor is called with: for a reservation, by the runtime `rt`, over the files that
it finds. -/
inductive HandedOut (r : Reservation) (rt : Runtime) :
    Execution → InvocationSpec → Workspace → FileTree → Prop
  | primary {denial : FileDenial} {w : World} {sid : CompilerSessionId} {pid : CompilerPhaseId}
      {isRetry : Bool} {site site' : Site} {host : Host} {drafted : Drafted}
      {spec : InvocationSpec} {files : FileTree}
      (reserved : site.reserve denial w sid pid isRetry=(.ok r,site'))
      (built : rt.executeOrder host drafted r=.ok spec)
      (stands : r.workspace.Stands site'.workspaces.files files) :
      HandedOut r rt .primary spec r.workspace files
  | reproducibility {denial : FileDenial} {wall : UInt64} {host : Host} {drafted : Drafted}
      {before : Runtime} {m m' : WorkspaceManager} {spec : InvocationSpec} {workspace : Workspace}
      {files : FileTree}
      (built : Runtime.reproducibilityOrder denial wall host drafted before rt r m=
        (.ok (some (spec,workspace)),m'))
      (stands : workspace.Stands m'.files files) :
      HandedOut r rt .reproducibility spec workspace files

namespace Runtime

variable {host : Host} {drafted : Drafted} {rt : Runtime} {r : Reservation} {spec : InvocationSpec}

theorem bindExecutable_ok {session : CompilerSession} {phase : PhaseRecord} {out : InvocationSpec}
    (h : rt.bindExecutable host session phase spec=.ok out) :
    out.session=spec.session ∧ out.phase=spec.phase := by
  unfold bindExecutable at h
  split at h
  · cases h
    exact ⟨rfl,rfl⟩
  · iterate 3 obtain ⟨_,_,h⟩ := do_eq_ok.1 h
    cases h
    exact ⟨rfl,rfl⟩

theorem validateInvocation_identity {context : InvocationValidationContext} {out : InvocationSpec}
    (h : validateInvocation host context spec=.ok out) :
    out.session=spec.session ∧ out.phase=spec.phase := by
  rw [validateInvocation_ok h]
  exact context.settle_identity spec

/-- The identities of the invocation that the primary execution is handed. -/
theorem executeOrder_ok (h : rt.executeOrder host drafted r=.ok spec) : ∃ session phase,
    rt.find r.session=some session ∧ session.findPhase r.phase=some phase ∧
    phase.generation=r.phaseGeneration ∧
    spec.session=⟨session.id,r.workspace.sessionGeneration⟩ ∧ spec.phase=⟨phase.id,phase.generation⟩ := by
  obtain ⟨session,hs,h⟩ := do_eq_ok.1 h
  obtain ⟨phase,hp,h⟩ := do_eq_ok.1 h
  obtain ⟨_,hg,h⟩ := do_eq_ok.1 h
  iterate 4 obtain ⟨_,_,h⟩ := do_eq_ok.1 h
  obtain ⟨bound,hb,h⟩ := do_eq_ok.1 h
  obtain ⟨checked,hv,h⟩ := do_eq_ok.1 h
  obtain ⟨_,_,h⟩ := do_eq_ok.1 h
  cases h
  have hbound := bindExecutable_ok hb
  have hchecked := validateInvocation_identity hv
  exact ⟨session,phase,(requireSession_ok _).1 hs,(requirePhase_ok _).1 hp,(ensure_ok.1 hg).1,
    hchecked.1.trans hbound.1,hchecked.2.trans hbound.2⟩

/-- Those of the second one, which looks at no generation. -/
theorem reproducibilitySpec_ok {workspace : Workspace}
    (h : rt.reproducibilitySpec host drafted r workspace=.ok spec) : ∃ session phase,
    rt.find r.session=some session ∧ session.findPhase r.phase=some phase ∧
    spec.session=⟨session.id,r.workspace.sessionGeneration⟩ ∧ spec.phase=⟨phase.id,phase.generation⟩ := by
  obtain ⟨session,hs,h⟩ := do_eq_ok.1 h
  obtain ⟨phase,hp,h⟩ := do_eq_ok.1 h
  iterate 3 obtain ⟨_,_,h⟩ := do_eq_ok.1 h
  obtain ⟨checked,hv,h⟩ := do_eq_ok.1 h
  obtain ⟨_,_,h⟩ := do_eq_ok.1 h
  cases h
  refine ⟨session,phase,(requireSession_ok _).1 hs,(requirePhase_ok _).1 hp,?_⟩
  have hchecked := validateInvocation_identity hv
  generalize rt.findComponent session _=component at hchecked
  cases component with
  | none => exact hchecked
  | some c => exact hchecked

/-- The second run gets a workspace of its own, made without a session generation. -/
theorem reproducibilityOrder_ok {denial : FileDenial} {wall : UInt64} {before : Runtime}
    {m m' : WorkspaceManager} {workspace : Workspace}
    (h : reproducibilityOrder denial wall host drafted before rt r m=
      (.ok (some (spec,workspace)),m')) :
    WorkspaceManager.create denial wall r.session {} r.phase r.phaseGeneration (ascii "repro") m=
      (.ok workspace,m') ∧ rt.reproducibilitySpec host drafted r workspace=.ok spec := by
  obtain ⟨_,_,hs,h⟩ := seq_eq_ok.1 h
  obtain ⟨_,rfl⟩ := ofExcept_eq_ok.1 hs
  obtain ⟨adapter,_,ha,h⟩ := seq_eq_ok.1 h
  obtain ⟨_,rfl⟩ := ofExcept_eq_ok.1 ha
  split_ifs at h
  swap
  · cases h
  obtain ⟨made,_,hc,h⟩ := seq_eq_ok.1 h
  obtain ⟨_,_,hspec,h⟩ := seq_eq_ok.1 h
  cases h
  obtain ⟨hok,rfl⟩ := ofExcept_eq_ok.1 hspec
  exact ⟨hc,hok⟩

end Runtime

namespace HandedOut

variable {r : Reservation} {rt : Runtime} {kind : Execution} {spec : InvocationSpec}
  {workspace : Workspace} {files : FileTree} {reparse : Bytes → Bool}

/-- The marker of a workspace that is handed out names the identities the workspace carries. -/
theorem opens_iff_identities (h : HandedOut r rt kind spec workspace files)
    (hplain : reparse (canonicalPathKey workspace.root)=false) :
    (files.openWorkspace reparse workspace.root spec.session.id spec.session.generation
      spec.phase.id spec.phase.generation).isOk=true ↔
    spec.session=⟨workspace.session,workspace.sessionGeneration⟩ ∧
      spec.phase=⟨workspace.phase,workspace.phaseGeneration⟩ := by
  obtain ⟨denial,wall,label,m,m',hc,stands⟩ : ∃ denial wall label m m',
      WorkspaceManager.create denial wall workspace.session workspace.sessionGeneration
        workspace.phase workspace.phaseGeneration label m=(.ok workspace,m') ∧
      workspace.Stands m'.files files := by
    cases h with
    | primary reserved built stands =>
      obtain ⟨s,_,hc⟩ := Site.reserve_ok reserved
      obtain ⟨_,_,_,_,e1,e2,e3,e4⟩ := WorkspaceManager.create_ok hc
      rw [← e1,← e2,← e3,← e4] at hc
      exact ⟨_,_,_,_,_,hc,stands⟩
    | reproducibility built stands =>
      obtain ⟨hc,_⟩ := Runtime.reproducibilityOrder_ok built
      obtain ⟨_,_,_,_,e1,e2,e3,e4⟩ := WorkspaceManager.create_ok hc
      rw [← e1,← e2,← e3,← e4] at hc
      exact ⟨_,_,_,_,_,hc,stands⟩
  obtain ⟨hs,hp,hpresent,hmarker,_⟩ := WorkspaceManager.create_ok hc
  have hpresent' : files.present workspace.root=true := by
    rw [FileTree.present,stands.root]
    exact hpresent
  exact FileTree.openWorkspace_isOk_iff hpresent' hplain (stands.marker.trans hmarker) hs hp _ _

/-- The executor may open the workspace it is handed exactly when the records found for the
reservation are those the workspace was made for and the run is the primary one; the second run
would need a session of generation 0, whose phase has kept the generation reserved. -/
theorem opens_iff (h : HandedOut r rt kind spec workspace files)
    (hplain : reparse (canonicalPathKey workspace.root)=false) :
    (files.openWorkspace reparse workspace.root spec.session.id spec.session.generation
      spec.phase.id spec.phase.generation).isOk=true ↔
    ∃ session phase,rt.find r.session=some session ∧ session.findPhase r.phase=some phase ∧
      session.id=workspace.session ∧ phase.id=workspace.phase ∧ (kind=.primary ∨
        r.workspace.sessionGeneration={} ∧ phase.generation=r.phaseGeneration) := by
  rw [opens_iff_identities h hplain]
  cases h with
  | primary reserved built stands =>
    obtain ⟨s,hphase,hc⟩ := Site.reserve_ok reserved
    obtain ⟨_,_,_,_,e1,e2,e3,e4⟩ := WorkspaceManager.create_ok hc
    obtain ⟨session,phase,hfs,hfp,hgen,hsession,hph⟩ := Runtime.executeOrder_ok built
    rw [hsession,hph,hgen,e4]
    constructor
    · intro h
      exact ⟨session,phase,hfs,hfp,congrArg Ref.id h.1,congrArg Ref.id h.2,.inl rfl⟩
    · rintro ⟨s',p',hs',hp',hsid,hpid,_⟩
      cases hfs.symm.trans hs'
      cases hfp.symm.trans hp'
      rw [hsid,hpid]
      exact ⟨rfl,rfl⟩
  | reproducibility built stands =>
    obtain ⟨hc,hspec⟩ := Runtime.reproducibilityOrder_ok built
    obtain ⟨_,_,_,_,_,e2,_,e4⟩ := WorkspaceManager.create_ok hc
    obtain ⟨session,phase,hfs,hfp,hsession,hph⟩ := Runtime.reproducibilitySpec_ok hspec
    rw [hsession,hph,e2,e4]
    constructor
    · intro h
      exact ⟨session,phase,hfs,hfp,congrArg Ref.id h.1,congrArg Ref.id h.2,
        .inr ⟨congrArg Ref.generation h.1,congrArg Ref.generation h.2⟩⟩
    · rintro ⟨s',p',hs',hp',hsid,hpid,hkind | ⟨hzero,hgen⟩⟩
      · cases hkind
      · cases hfs.symm.trans hs'
        cases hfp.symm.trans hp'
        rw [hsid,hpid,hzero,hgen]
        exact ⟨rfl,rfl⟩

end HandedOut

namespace Sample

/-- A compiler on disk, the component of a toolchain, and an adapter that builds to the bit. -/
def compiler : FileIdentity := { canonicalPath := ascii "C:\\cc.exe",contentHashed := true }

def builder : Adapter := { adapter with deterministicPhases := [.link] }

def probedWorld : World :=
  { world with probed := .ok { toolchain with components := [{ id := ⟨1⟩,file := compiler }] } }

/-- A session with one phase, before its reservation. -/
def bench : Site :=
  ⟨((System.boot options [builder] [] probedWorld).run
      [.call (.discoverToolchain family) probedWorld,.call (.createSession request) probedWorld]).rt,
    { baseDirectory := ascii "C:\\work" }⟩

def benched : Result Reservation × Site := bench.reserve {} probedWorld ⟨1⟩ ⟨1⟩ false

def ticket : Reservation := (benched.1.toOption).getD {}

/-- The workspace of the second run, as `reproducibility_verify` makes it. -/
def second : Result Workspace × WorkspaceManager :=
  WorkspaceManager.create {} 1 ticket.session {} ticket.phase ticket.phaseGeneration
    (ascii "repro") benched.2.workspaces

/-- A machine with the compiler on it. -/
def machine (files : FileTree) : Host where
  files p := if p=ascii "c:\\cc.exe" then some (.file []) else files p
  probe _ := .ok compiler

def drafted : Drafted := ⟨.ok [],.ok { executable := ascii "C:\\cc.exe" }⟩

/-- What the executor is handed for the second run. -/
def secondRun : Result (Option (InvocationSpec × Workspace)) × WorkspaceManager :=
  Runtime.reproducibilityOrder {} 1 (machine second.2.files) drafted benched.2.rt benched.2.rt ticket
    benched.2.workspaces

end Sample

theorem eq_of_isOk {α σ : Type} {x : Result α × σ} (h : x.1.isOk=true) (a : α) :
    x=(.ok (x.1.toOption.getD a),x.2) := by
  obtain ⟨_ | b,t⟩ := x
  · cases h
  · rfl

theorem eq_of_join {α σ : Type} {x : Result (Option α) × σ} {a : α}
    (h : x.1.toOption.join=some a) : x=(.ok (some a),x.2) := by
  obtain ⟨_ | b,t⟩ := x
  · cases h
  · cases h
    rfl

namespace HandedOut

open Sample

/-- The first run of a phase opens its workspace. -/
theorem primary_opens : ∃ spec,
    HandedOut ticket benched.2.rt .primary spec ticket.workspace benched.2.workspaces.files ∧
    (benched.2.workspaces.files.openWorkspace (fun _ => false) ticket.workspace.root
      spec.session.id spec.session.generation spec.phase.id spec.phase.generation).isOk=true := by
  have h : (benched.1.isOk && (benched.2.rt.executeOrder (machine benched.2.workspaces.files)
      drafted ticket).isOk && (benched.2.rt.find ticket.session).any fun s =>
        s.id=ticket.workspace.session && (s.findPhase ticket.phase).any
          (·.id=ticket.workspace.phase))=true := by decide +kernel
  simp only [Bool.and_eq_true,Option.any_eq_true,decide_eq_true_eq] at h
  obtain ⟨⟨hreserve,horder⟩,s,hs,hsid,p,hp,hpid⟩ := h
  obtain ⟨spec,hspec⟩ : ∃ spec,benched.2.rt.executeOrder (machine benched.2.workspaces.files)
      drafted ticket=.ok spec := by
    revert horder
    cases benched.2.rt.executeOrder (machine benched.2.workspaces.files) drafted ticket with
    | error e => intro h; cases h
    | ok spec => exact fun _ => ⟨spec,rfl⟩
  have hticket : bench.reserve {} probedWorld ⟨1⟩ ⟨1⟩ false=(.ok ticket,benched.2) :=
    eq_of_isOk hreserve {}
  have handed : HandedOut ticket benched.2.rt .primary spec ticket.workspace
      benched.2.workspaces.files := .primary hticket hspec (.same _ _)
  exact ⟨spec,handed,(opens_iff handed rfl).2 ⟨s,p,hs,hp,hsid,hpid,.inl rfl⟩⟩

/-- The second run is handed a workspace that the worker turns away. -/
theorem second_run_refused : ∃ spec workspace,
    HandedOut ticket benched.2.rt .reproducibility spec workspace secondRun.2.files ∧
    (secondRun.2.files.openWorkspace (fun _ => false) workspace.root spec.session.id
      spec.session.generation spec.phase.id spec.phase.generation).isOk=false := by
  have h : (secondRun.1.toOption.join.any fun (spec,workspace) =>
      spec.session.generation ≠ workspace.sessionGeneration)=true := by decide +kernel
  simp only [Option.any_eq_true,decide_eq_true_eq] at h
  obtain ⟨⟨spec,workspace⟩,hrun,hne⟩ := h
  have horder : Runtime.reproducibilityOrder {} 1 (machine second.2.files) drafted benched.2.rt
      benched.2.rt ticket benched.2.workspaces=(.ok (some (spec,workspace)),secondRun.2) :=
    eq_of_join hrun
  have handed : HandedOut ticket benched.2.rt .reproducibility spec workspace
      secondRun.2.files := .reproducibility horder (.same _ _)
  refine ⟨spec,workspace,handed,?_⟩
  rw [← Bool.not_eq_true,opens_iff_identities handed rfl]
  rintro ⟨hs,_⟩
  exact hne (congrArg Ref.generation hs)

end HandedOut

end CompilerFabric
