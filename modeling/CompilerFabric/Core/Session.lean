import CompilerFabric.Core.Artifact

namespace CompilerFabric

structure PhaseNode where
  id : CompilerPhaseId := {}
  kind : PhaseKind := .unknown
  adapterPhase : Bytes := []
  dependsOn : List CompilerPhaseId := []
  mandatory : Bool := true
  expectedOutputs : List ObjectFormat := []
  fanIn : Bool := false
  requiredInputs : UInt64 := 0
deriving DecidableEq

structure PlanData where
  nodes : List PhaseNode := []
  dependents : List (List CompilerPhaseId) := []
  order : List CompilerPhaseId := []
deriving DecidableEq

namespace PlanData

def kMaxPhases : Nat := 4096

def checkIdentities : List CompilerPhaseId → List PhaseNode → Result Unit
  | _,[] => .ok ()
  | seen,node::rest =>
      if !node.id.present then
        refuse .invalidIdentity "phase plan contains an absent phase identity"
      else if node.id ∈ seen then
        .error ⟨.alreadyExists,ascii "duplicate phase identity in phase plan: "++node.id.toText⟩
      else checkIdentities (node.id::seen) rest

def checkDependency (ids : List CompilerPhaseId) (node : PhaseNode)
    (dependency : CompilerPhaseId) : Result Unit :=
  if dependency=node.id then
    .error ⟨.invalidArgument,ascii "phase depends on itself: "++dependency.toText⟩
  else if dependency ∉ ids then
    .error ⟨.notFound,ascii "phase dependency is not part of the plan: "++dependency.toText⟩
  else .ok ()

def checkFanIn (node : PhaseNode) : Result Unit :=
  if node.fanIn ∧ (node.requiredInputs=0 ∨ node.dependsOn.length<node.requiredInputs.toNat) then
    .error ⟨.invalidArgument,
      ascii "fan-in phase declares an impossible input arity: "++node.id.toText⟩
  else .ok ()

/-- Who depends on `id`, in declaration order, once per declared edge. -/
def dependentsOf (nodes : List PhaseNode) (id : CompilerPhaseId) : List CompilerPhaseId :=
  nodes.flatMap fun node => (node.dependsOn.filter (· = id)).map fun _ => node.id

/-- One dependent of a released node: its indegree drops, and it is released at zero. -/
def release (nodes : List PhaseNode) (s : List Nat × List Nat) (dependent : CompilerPhaseId) :
    List Nat × List Nat :=
  let index := nodes.findIdx (·.id=dependent)
  let degree := s.1.getD index 0-1
  (s.1.set index degree,if degree=0 then s.2++[index] else s.2)

/-- The `while (!ready.empty())` loop; every node is released at most once, so the number
of nodes bounds its turns. -/
def kahn (nodes : List PhaseNode) : Nat → List Nat → List Nat → List CompilerPhaseId →
    List CompilerPhaseId
  | 0,_,_,order => order
  | _+1,[],_,order => order
  | turns+1,current::ready,indegree,order =>
      let id := (nodes.getD current {}).id
      let (indegree,released) := (dependentsOf nodes id).foldl (release nodes) (indegree,[])
      kahn nodes turns (ready++released.insertionSort (· ≤ ·)) indegree (order++[id])

def topologicalSort (nodes : List PhaseNode) : List CompilerPhaseId :=
  let indegree := nodes.map (·.dependsOn.length)
  let ready := (List.range nodes.length).filter fun i => indegree.getD i 0==0
  kahn nodes nodes.length ready indegree []

/-- Phases from which the last of the order can be reached, scanned backwards. -/
def reachesPrimary (nodes : List PhaseNode) (primary : CompilerPhaseId) :
    List CompilerPhaseId → List CompilerPhaseId → List CompilerPhaseId
  | reached,[] => reached
  | reached,id::rest =>
      let reaches := id=primary ∨ ∃ d ∈ dependentsOf nodes id,d ∈ reached
      reachesPrimary nodes primary (if reaches then id::reached else reached) rest

def build (nodes : List PhaseNode) : Result PlanData := do
  ensure (nodes ≠ []) (.of .invalidArgument "phase plan is empty")
  ensure (nodes.length ≤ kMaxPhases)
    (.of .capacityExceeded "phase plan exceeds the phase ceiling")
  checkIdentities [] nodes
  nodes.forM fun node => node.dependsOn.forM (checkDependency (nodes.map (·.id)) node)
  nodes.forM checkFanIn
  let order := topologicalSort nodes
  ensure (order.length=nodes.length)
    (.of .invalidArgument "phase plan contains a dependency cycle")
  ensure (nodes.any fun node => (dependentsOf nodes node.id).isEmpty && node.mandatory)
    (.of .invalidArgument
      "phase plan has no mandatory sink phase to produce the final artifact")
  let reached := reachesPrimary nodes (order.getLastD {}) [] order.reverse
  nodes.forM fun node => ensure (node.id ∈ reached)
    ⟨.invalidArgument,ascii "phase contributes to no final artifact: "++node.id.toText⟩
  return ⟨nodes,nodes.map fun node => dependentsOf nodes node.id,order⟩

theorem build_nodes {nodes : List PhaseNode} {d : PlanData} (h : build nodes=.ok d) :
    d.nodes=nodes := by
  simp only [build,Base.do_eq_ok,pure,Except.pure,Except.ok.injEq] at h
  obtain ⟨_,_,_,_,_,_,_,_,_,_,_,_,_,_,_,_,rfl⟩ := h
  rfl

end PlanData

theorem PlanData.empty_built :
    ({} : PlanData)={} ∨ PlanData.build ({} : PlanData).nodes=.ok {} := .inl rfl

/-- A plan is the empty default or what `build` made of its nodes. -/
structure PhasePlan extends PlanData where
  built : toPlanData={} ∨ PlanData.build nodes=.ok toPlanData := by
    first | exact PlanData.empty_built | exact .inl rfl

namespace PhasePlan

instance : Inhabited PhasePlan := ⟨{ }⟩

def build (nodes : List PhaseNode) : Result PhasePlan :=
  match h : PlanData.build nodes with
  | .error e => .error e
  | .ok d => .ok ⟨d,.inr (by rw [PlanData.build_nodes h]; exact h)⟩

theorem build_ok {nodes : List PhaseNode} {plan : PhasePlan} :
    build nodes=.ok plan ↔ PlanData.build nodes=.ok plan.toPlanData := by
  unfold build
  split
  · next e h => simp [h]
  · next d h =>
    simp only [h,Except.ok.injEq]
    constructor
    · intro he
      simp [← he]
    · intro he
      cases plan
      simp_all

/-- Rebuilding a plan from its own nodes gives it back, unless it is the empty default. -/
theorem build_nodes_self (plan : PhasePlan) :
    build plan.nodes=.ok plan ↔ plan.nodes ≠ [] := by
  rw [build_ok]
  constructor
  · intro h he
    rw [he,PlanData.build,Base.do_eq_ok] at h
    simp at h
  · intro h
    cases plan.built with
    | inl he => exact absurd (by rw [he]) h
    | inr hb => exact hb

def find (plan : PhasePlan) (id : CompilerPhaseId) : Option PhaseNode :=
  plan.nodes.find? (·.id=id)

def isReady (plan : PhasePlan) (id : CompilerPhaseId) (committed : List CompilerPhaseId) : Bool :=
  match plan.find id with
  | none => false
  | some node => node.dependsOn.all (· ∈ committed)

end PhasePlan

inductive SessionState
  | created | active | recovering | committed | failed | cancelled | retired
deriving DecidableEq

namespace SessionState

def values : List SessionState := [created,active,recovering,committed,failed,cancelled,retired]

def text : SessionState → String
  | created => "CREATED" | active => "ACTIVE" | recovering => "RECOVERING"
  | committed => "COMMITTED" | failed => "FAILED" | cancelled => "CANCELLED"
  | retired => "RETIRED"

def admitsNewAuthority (s : SessionState) : Bool := s=.created || s=.active

end SessionState

inductive RecoveryState
  | none | required | planned | inProgress | resolved | manualRequired | unsupported
deriving DecidableEq

def RecoveryState.values : List RecoveryState :=
  [none,required,planned,inProgress,resolved,manualRequired,unsupported]

structure CompilerSession where
  id : CompilerSessionId := {}
  generation : CompilerSessionGeneration := .initial
  state : SessionState := .created
  recoveryState : RecoveryState := .none
  request : RequestId := {}
  compilation : CompilationId := {}
  compilationGeneration : CompilationGeneration := {}
  attempt : AttemptId := {}
  attemptGeneration : AttemptGeneration := {}
  toolchain : Ref .toolchain := {}
  cooperatingToolchains : List (Ref .toolchain) := []
  target : Ref .target := {}
  environment : Ref .environment := {}
  policy : Ref .policy := {}
  source : Ref .source := {}
  sources : List (Ref .source) := []
  irGeneration : IRGeneration := {}
  adapterName : Bytes := []
  finalArtifactName : Bytes := []
  adapterOptions : List EnvironmentVariable := []
  plan : PhasePlan := {}
  phases : Table PhaseRecord := ∅
  currentPhase : CompilerPhaseId := {}
  intermediates : List (Ref .intermediate) := []
  candidate : FinalCandidate := {}
  candidatePresent : Bool := false
  recovery : RecoveryId := {}
  recoveryGeneration : RecoveryGeneration := {}
  evidenceGeneration : EvidenceGeneration := {}
  epoch : EpochId := {}
  failureDetail : Bytes := []
  createdAtNanos : UInt64 := 0
  updatedAtNanos : UInt64 := 0
  sessionRetriesUsed : UInt32 := 0
  requestDigest : Digest := {}

namespace CompilerSession

def findPhase (s : CompilerSession) (id : CompilerPhaseId) : Option PhaseRecord :=
  s.phases[id.value]?

def hasCommitted (s : CompilerSession) (id : CompilerPhaseId) : Bool :=
  (s.findPhase id).any (·.state=.committed)

def committedPhases (s : CompilerSession) : List CompilerPhaseId :=
  s.plan.order.filter s.hasCommitted

def allMandatoryCommitted (s : CompilerSession) : Bool :=
  s.plan.nodes.all fun node => !node.mandatory || s.hasCommitted node.id

/-- `*find_phase(id)` written through. -/
def modifyPhase (s : CompilerSession) (id : CompilerPhaseId) (f : PhaseRecord → PhaseRecord) :
    CompilerSession :=
  { s with phases := s.phases.modify id.value f }

end CompilerSession

/-- `authority_from_session`. -/
def authorityFromSession (session : CompilerSession) (phase : PhaseRecord) : PhaseAuthority where
  sessionGeneration := session.generation
  compilationGeneration := session.compilationGeneration
  attemptGeneration := phase.attemptGeneration
  phaseGeneration := phase.generation
  toolchain := session.toolchain
  cooperatingToolchains := session.cooperatingToolchains
  target := session.target
  environment := session.environment
  policy := session.policy
  source := session.source
  irGeneration := session.irGeneration
  lease := phase.lease

end CompilerFabric
