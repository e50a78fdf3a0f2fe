import CompilerFabric.Runtime.Boot

namespace CompilerFabric

open Base Base.Action

/-- Where a `run_phase` stands between two of its locked parts. -/
inductive PhasePc
  | reserve
  | prepare (r : Reservation)
  | execute (r : Reservation)
  | record (r : Reservation) (report : ExecutionReport)
  | inspect (r : Reservation) (report : ExecutionReport)
  | reproduce (r : Reservation) (report : ExecutionReport)
  | verify (r : Reservation) (report : ExecutionReport)
  | refuse (r : Reservation) (status : Status)
  | validate (r : Reservation) (report : ExecutionReport)
  | judge (r : Reservation) (report : ExecutionReport)
  | commit (r : Reservation) (report : ExecutionReport)
deriving DecidableEq

/-- A `run_phase`, `retry_phase` or `commit_phase` call in progress. -/
structure PhaseRun where
  session : CompilerSessionId
  phase : CompilerPhaseId
  isRetry : Bool := false
  /-- The decision `retry_phase` reports at its end. -/
  retry : Option RetryDecision := none
  /-- Entered through `commit_phase`. -/
  direct : Bool := false
  pc : PhasePc := .reserve
deriving DecidableEq

structure CompileOutcome where
  session : Ref .session := {}
  candidate : FinalCandidate := {}
  diagnostics : Ref .diagnostics := {}
  intermediates : List (Ref .intermediate) := []
  lineageDigest : Digest := {}
  evidence : EvidenceClass := {}
  phases : List PhaseRunReport := []
  status : StatusCode := .ok
  detail : Bytes := []
deriving DecidableEq

inductive SessionPc
  | limit | ceiling | round | waiting (children : List Nat) | finish
deriving DecidableEq

/-- A `run_session` call in progress. -/
structure SessionRun where
  session : CompilerSessionId
  parallelLimit : Nat := 1
  iterationCeiling : Nat := 0
  iterations : Nat := 0
  outcome : CompileOutcome := {}
  pc : SessionPc := .limit
deriving DecidableEq

/-- A public call: in progress, or with what it returned. -/
inductive Call
  | phase (run : PhaseRun)
  | session (run : SessionRun)
  | cancel (session : CompilerSessionId) (reason : Bytes) (remaining : List CompilerPhaseId)
  | recovery (session : CompilerSessionId) (plan : RecoveryPlan)
  | stopping
  | ran (result : Result PhaseRunReport)
  | drove (result : Result CompileOutcome)
  | created (result : Result (Ref .session))
  | recovered (result : Result RecoveryPlan)
  | ended (result : Result Unit)

namespace PhaseRun

def finish (run : PhaseRun) (report : PhaseRunReport) : Call :=
  .ran (.ok { report with retry := run.retry.getD report.retry })

def goto (run : PhaseRun) (pc : PhasePc) : Call := .phase { run with pc }

/-- What follows a locked part: `next` on success, the refusal returned otherwise. -/
def after {α : Type} (x : Result α × Runtime) (next : α → Runtime → Call) : Call × Runtime :=
  match x with
  | (.ok a,rt) => (next a rt,rt)
  | (.error e,rt) => (.ran (.error e),rt)

/-- The next locked part of a `run_phase`. -/
def step (w : World) (run : PhaseRun) (rt : Runtime) : Call × Runtime :=
  let report (rt : Runtime) := rt.phaseStatusReport run.session run.phase
  match run.pc with
  | .reserve =>
      match Runtime.reserve w run.session run.phase run.isRetry rt with
      | (.ok r,rt) => (run.goto (.prepare r),rt)
      | (.error e,rt) =>
          (run.finish { report rt with status := e.code,detail := e.message },rt)
  | .prepare r =>
      match Runtime.prepare w r rt with
      | (.ok (),rt) => (run.goto (.execute r),rt)
      | (.error e,rt) => (run.goto (.record r (Runtime.unlaunched r e)),rt)
  | .execute r =>
      match w.execution with
      | .error e =>
          (run.goto (.record r { status := e.code,detail := e.message
                                 workspaceRoot := r.workspace.root
                                 workspaceMarker := r.workspace.markerDigest }),rt)
      | .ok execution =>
          (run.goto (.record r execution),(Runtime.noteProcess r execution rt).2)
  | .record r execution =>
      let execution := rt.withDiagnostics w r execution
      after (Runtime.recordExecution w r execution rt) fun _ _ => run.goto (.inspect r execution)
  | .inspect r execution =>
      match (rt.find run.session).bind fun s => (s.findPhase run.phase).map fun p => (s,p) with
      | some (session,phase) =>
          if phase.state=.failed then
            (run.finish { report rt with retry := rt.retryDecision session phase },rt)
          else (run.goto (.reproduce r execution),rt)
      | none => (run.goto (.reproduce r execution),rt)
  | .reproduce r execution =>
      if rt.reproducibilityRequired run.session then (run.goto (.verify r execution),rt)
      else (run.goto (.validate r execution),rt)
  | .verify r execution =>
      match rt.reproducibilityVerify w r execution.outputs with
      | .ok () => (run.goto (.validate r execution),rt)
      | .error e => (run.goto (.refuse r e),rt)
  | .refuse r e =>
      after (Runtime.refuseDivergent w r e rt) fun _ rt =>
        run.finish { report rt with status := e.code,detail := e.message }
  | .validate r execution =>
      match rt.beginValidation r with
      | .ok () => (run.goto (.judge r execution),rt)
      | .error e => (.ran (.error e),rt)
  | .judge r execution =>
      match w.evidence with
      | .error e => (.ran (.error e),rt)
      | .ok evidence =>
          after (Runtime.applyEvidence w r evidence rt) fun _ rt =>
            if evidence.accepted then run.goto (.commit r execution)
            else if run.direct then run.finish (report rt)
            else run.finish { report rt with
              status := evidence.refusal
              detail := evidence.detail }
  | .commit r execution =>
      after (Runtime.commitReserved w r execution rt) fun report _ => run.finish report

end PhaseRun

namespace CompilerSession

/-- The phases a round of `run_session` finds ready, in topological order. -/
def readyPhases (session : CompilerSession) : List CompilerPhaseId :=
  session.plan.order.filter fun id => (session.findPhase id).any fun phase =>
    phase.state ∉ [PhaseState.committed,.failed,.fenced,.cancelled,.retired] &&
      session.plan.isReady id session.committedPhases

def blockedPhase (session : CompilerSession) : Option PhaseRecord :=
  (session.plan.order.filterMap session.findPhase).find? (·.state ≠ .committed)

def failedWith (session : CompilerSession) (detail : Bytes) : CompilerSession :=
  { session with state := .failed,failureDetail := detail }

end CompilerSession

namespace Runtime

/-- The session driver gives up on a session. -/
def failSession (w : World) (sid : CompilerSessionId) (detail : Bytes) : Op Unit := do
  modify (·.modifySession sid (·.failedWith detail))
  persistSession w sid

/-- The end of a round that did not commit everything: only an ACTIVE session fails. -/
def failIfActive (w : World) (sid : CompilerSessionId) (detail : Bytes) : Op Unit := do
  if ((← get).find sid).any (·.state=.active) then
    let _ ← attempt (failSession w sid detail)

/-- The detail of a session without progress. -/
def noProgress (session : Option CompilerSession) (iterations : Nat) : Bytes :=
  ascii "session made no progress after "++decimal iterations++ascii " scheduling rounds"++
    (session.map fun s => s.plan.order.flatMap fun id => ((s.findPhase id).map fun p =>
      ascii " | "++id.toText++ascii "="++ascii p.state.text++ascii "/"++
        ascii p.lastStatus.text).getD []).getD []

/-- What a round of `run_session` comes to. -/
inductive Round
  | complete
  | blocked (status : StatusCode) (detail : Bytes)
  | ready (phases : List CompilerPhaseId)

/-- The locked part a round begins with. The session is ACTIVE from here on. -/
def beginRound (w : World) (sid : CompilerSessionId) : Op Round := do
  let _ ← ofExcept ((← get).requireSession sid
    (.of .notFound "session disappeared during execution"))
  modify (·.modifySession sid fun s => { s with state := .active })
  let session ← ofExcept ((← get).requireSession sid
    (.of .notFound "session disappeared during execution"))
  if session.readyPhases ≠ [] then return .ready session.readyPhases
  else if session.allMandatoryCommitted then return .complete
  else do
    let blocked := session.blockedPhase
    let detail := (blocked.map fun p => ascii "session cannot progress: phase "++p.id.toText++
      ascii " is "++ascii p.state.text).getD (ascii "session cannot progress")
    failSession w sid detail
    return .blocked ((blocked.map (·.lastStatus)).getD .phaseNotReady) detail

end Runtime

namespace SessionRun

def goto (run : SessionRun) (pc : SessionPc) : Call := .session { run with pc }

/-- The reports of the children, once all of them have returned. -/
def collected (calls : List Call) (children : List Nat) : Option (List (Result PhaseRunReport)) :=
  children.mapM fun (i : Nat) => match (calls[i]? : Option Call) with
    | some (Call.ran result) => some result
    | _ => none

def conclusion (rt : Runtime) (run : SessionRun) (session : CompilerSession) : CompileOutcome :=
  let base := { run.outcome with
    diagnostics := ((session.plan.order.getLast?.bind session.findPhase).map
      (·.diagnostics)).getD {}
    evidence := ((rt.findAdapterByName session.adapterName).map (·.evidenceClass)).getD {} }
  if session.candidatePresent then { base with
    candidate := session.candidate
    intermediates := session.intermediates
    lineageDigest := session.candidate.lineageDigest }
  else base

/-- The next locked part of a `run_session`, with the phase runs it starts. -/
def step (w : World) (run : SessionRun) (calls : List Call) (rt : Runtime) :
    Call × List Call × Runtime :=
  let missing : Status := ⟨.notFound,ascii "session is not registered: "++run.session.toText⟩
  let policy := (rt.find run.session).bind fun s => rt.policies.find s.policy.id
  match run.pc with
  | .limit =>
      if (rt.find run.session).isNone then (.drove (.error missing),[],rt)
      else
        let limit := (policy.map fun p => if p.spec.allowParallelPhases then
          max 1 p.spec.maxParallelPhases.toNat else 1).getD 1
        ({ run with parallelLimit := limit }.goto .ceiling,[],rt)
  | .ceiling =>
      match rt.find run.session with
      | none => (.drove (.error missing),[],rt)
      | some session =>
          let retries := (policy.map (·.spec.maxRetriesPerPhase.toNat)).getD 2
          ({ run with iterationCeiling := session.plan.nodes.length*(retries+2)+16 }.goto .round,
            [],rt)
  | .round =>
      let run := { run with iterations := run.iterations+1 }
      if run.iterationCeiling<run.iterations then
        let detail := Runtime.noProgress (rt.find run.session) run.iterations
        (.drove (.error ⟨.internalError,detail⟩),[],
          (attempt (Runtime.failSession w run.session detail) rt).2)
      else match Runtime.beginRound w run.session rt with
        | (.error e,rt) => (.drove (.error e),[],rt)
        | (.ok .complete,rt) => (run.goto .finish,[],rt)
        | (.ok (.blocked status detail),rt) =>
            (.drove (.ok { run.outcome with status,detail,phases := [] }),[],rt)
        | (.ok (.ready phases),rt) =>
            let batch := phases.take (min run.parallelLimit phases.length)
            (run.goto (.waiting ((List.range batch.length).map (calls.length+·))),
              batch.map fun phase => .phase { session := run.session,phase },rt)
  | .waiting children =>
      match collected calls children with
      | none => (.session run,[],rt)
      | some results =>
          match results.mapM id with
          | .error e => (.drove (.error e),[],rt)
          | .ok reports =>
              let outcome := { run.outcome with phases := run.outcome.phases++reports }
              match (reports.filter (·.state ≠ .committed)).getLast? with
              | none => ({ run with outcome }.goto .round,[],rt)
              | some stalled =>
                  (.drove (.ok { outcome with status := stalled.status,detail := stalled.detail }),
                    [],(Runtime.failIfActive w run.session stalled.detail rt).2)
  | .finish =>
      match rt.find run.session with
      | none => (.drove (refuse .notFound "session disappeared at completion"),[],rt)
      | some session => (.drove (.ok (run.conclusion rt session)),[],rt)

end SessionRun

/-- The public calls, with what the caller hands over. -/
inductive Command
  | createSession (request : CompileRequest)
  | adoptSession (session : CompilerSession)
  | runPhase (session : CompilerSessionId) (phase : CompilerPhaseId)
  | retryPhase (session : CompilerSessionId) (phase : CompilerPhaseId)
  | runSession (session : CompilerSessionId)
  | cancelPhase (session : CompilerSessionId) (phase : CompilerPhaseId) (reason : Bytes)
  | cancelSession (session : CompilerSessionId) (reason : Bytes)
  | retireSession (session : CompilerSessionId) (reason : Bytes)
  | reportOutput (session : CompilerSessionId) (phase : CompilerPhaseId)
      (generation : CompilerPhaseGeneration) (invocation : Ref .invocation)
      (outputs : List OutputDescriptor) (process : ProcessOutcome)
  | commitPhase (session : CompilerSessionId) (phase : CompilerPhaseId)
      (generation : CompilerPhaseGeneration) (invocation : Ref .invocation)
  | failPhase (session : CompilerSessionId) (phase : CompilerPhaseId)
      (generation : CompilerPhaseGeneration) (failure : FailureClass) (status : StatusCode)
      (detail : Bytes)
  | applyRecovery (session : CompilerSessionId)
  | shutdown
  | reopen
  | addAdapter (adapter : Adapter)
  | discoverToolchain (family : ToolchainFamily)
  | refreshToolchain (id : ToolchainId)
  | invalidateToolchain (id : ToolchainId) (reason : Bytes)
  | applyToolchainObservation (observed : ToolchainIdentity)
  | internTarget (spec : TargetSpec)
  | reviseTarget (id : TargetId) (spec : TargetSpec)
  | internEnvironment (spec : EnvironmentSpec)
  | reviseEnvironment (id : EnvironmentId) (spec : EnvironmentSpec)
  | internPolicy (spec : PolicySpec)
  | revisePolicy (id : PolicyId) (spec : PolicySpec)
  | addSource
  | revokeLease (id : LeaseId) (reason : Bytes)
  | revokePhaseLeases (phase : CompilerPhaseId) (reason : Bytes)

namespace Runtime

/-- Evidence is logged where the toolchain moved. -/
def moveToolchain (f : ToolchainRegistry → Result (ToolchainMutation × ToolchainRegistry)) :
    Op Unit := do
  let mutation ← onToolchains f
  if mutation.mutated then
    let _ ← recordEvidence

def discoverToolchain (w : World) (family : ToolchainFamily) : Op Unit := do
  check ((← get).findAdapter family).isSome ⟨.unsupported,
    ascii "no adapter is registered for toolchain family "++ascii family.text⟩
  let identity ← ofExcept w.probed
  let _ ← onToolchains (·.registerToolchain identity)
  let _ ← recordEvidence

def refreshToolchain (w : World) (id : ToolchainId) : Op Unit := do
  let rt ← get
  let recorded ← ofExcept ((rt.toolchains.find id).elim (.error ⟨.toolchainNotFound,
    ascii "toolchain is not registered: "++id.toText⟩) .ok)
  check (rt.findAdapter recorded.family).isSome
    (.of .unsupported "no adapter is registered for this toolchain family")
  let observed ← ofExcept w.reprobed
  moveToolchain (·.refresh observed)

end Runtime

/-- What a locked part that returns nothing of interest leaves. -/
def ended {α : Type} (x : Result α × Runtime) : Call × Runtime :=
  (.ended (x.1.map fun _ => ()),x.2)

/-- The report `commit_phase` hands to the commit. -/
def directReport (invocation : Ref .invocation) : ExecutionReport :=
  { process := { invocation,termination := .exited,exitCode := 0 } }

/-- A call up to the end of its first locked part. -/
def Command.start (w : World) (rt : Runtime) : Command → Call × Runtime
  | createSession request =>
      let (result,rt) := Runtime.createSession w request rt
      (.created result,rt)
  | adoptSession session =>
      let (result,rt) := Runtime.adoptSession w session rt
      (.created result,rt)
  | runPhase session phase => (.phase { session,phase },rt)
  | retryPhase session phase =>
      match Runtime.beginRetry session phase rt with
      | (.error e,rt) => (.ran (.error e),rt)
      | (.ok (_,some report),rt) => (.ran (.ok report),rt)
      | (.ok (decision,none),rt) =>
          (.phase { session,phase,isRetry := true,retry := some decision },rt)
  | runSession session =>
      (.session { session,outcome := { session := ⟨session,{}⟩ } },rt)
  | cancelPhase session phase reason => ended (Runtime.cancelPhase w session phase reason rt)
  | cancelSession session reason =>
      match rt.find session with
      | none => (.ended (refuse .notFound "session is not registered"),rt)
      | some s => (.cancel session reason s.plan.order,rt)
  | retireSession session reason => ended (Runtime.retireSession w session reason rt)
  | reportOutput session phase generation invocation outputs process =>
      let (result,rt) :=
        Runtime.reportOutput w session phase generation invocation outputs process rt
      (.ran result,rt)
  | commitPhase session phase generation invocation =>
      match rt.commitPhase session phase generation invocation with
      | .error e => (.ran (.error e),rt)
      | .ok (.existing report) => (.ran (.ok report),rt)
      | .ok (.proceed r) =>
          (.phase { session,phase,direct := true,pc := .validate r (directReport invocation) },rt)
  | failPhase session phase generation failure status detail =>
      let (result,rt) := Runtime.failPhase w session phase generation failure status detail rt
      (.ran result,rt)
  | applyRecovery session =>
      match Runtime.beginRecovery session rt with
      | (.error e,rt) => (.recovered (.error e),rt)
      | (.ok plan,rt) => (.recovery session plan,rt)
  | shutdown =>
      match Runtime.beginShutdown w rt with
      | (.ok true,rt) => (.stopping,rt)
      | (.ok false,rt) => (.ended (.ok ()),rt)
      | (.error e,rt) => (.ended (.error e),rt)
  | reopen => (.ended (.ok ()),{ rt with shuttingDown := false })
  | addAdapter adapter => (.ended (.ok ()),{ rt with adapters := rt.adapters++[adapter] })
  | discoverToolchain family => ended (Runtime.discoverToolchain w family rt)
  | refreshToolchain id => ended (Runtime.refreshToolchain w id rt)
  | invalidateToolchain id reason =>
      ended (Runtime.moveToolchain (·.invalidate id reason) rt)
  | applyToolchainObservation observed => ended (Runtime.moveToolchain (·.refresh observed) rt)
  | internTarget spec => ended (Runtime.onTargets (·.intern spec) rt)
  | reviseTarget id spec => ended (Runtime.onTargets (·.revise id spec) rt)
  | internEnvironment spec => ended (Runtime.onEnvironments (·.intern spec) rt)
  | reviseEnvironment id spec => ended (Runtime.onEnvironments (·.revise id spec) rt)
  | internPolicy spec => ended (Runtime.onPolicies (·.intern spec) rt)
  | revisePolicy id spec => ended (Runtime.onPolicies (·.revise id spec) rt)
  | addSource => ended (Runtime.addSource (w.sourceFiles.headD (refuse .notFound "")) rt)
  | revokeLease id reason => ended (Runtime.revokeLease id reason rt)
  | revokePhaseLeases phase reason =>
      (.ended (.ok ()),{ rt with leases := rt.leases.revokePhase phase reason })

/-- The reservation a locked part has just granted. -/
def PhaseRun.granted (run : PhaseRun) (call : Call) : List Reservation :=
  match run.pc,call with
  | .reserve,.phase { pc := .prepare r,.. } => [r]
  | _,_ => []

/-- One runtime process with the calls in progress, over the journal file it left or found. -/
structure System where
  rt : Runtime := {}
  up : Bool := true
  file : Bytes := []
  calls : List Call := []
  /-- Every reservation the process granted. -/
  granted : List Reservation := []

/-- A caller enters, a call takes its next locked part, or the process ends and another one is
started on its journal. -/
inductive Event
  | call (command : Command) (w : World)
  | resume (index : Nat) (w : World)
  | restart (options : RuntimeOptions) (adapters : List Adapter) (w : World)

def Runtime.facing (rt : Runtime) (w : World) : Runtime :=
  { rt with persistence := rt.persistence.map fun store => { store with disk := w.disk } }

namespace System

/-- The journal as it is on disk. -/
def journal (sys : System) : Bytes := (sys.rt.persistence.map (·.file)).getD sys.file

/-- A process started on a journal. -/
def boot (options : RuntimeOptions) (adapters : List Adapter) (file : Bytes) (w : World) :
    System :=
  let (result,rt) := Runtime.create w options adapters file
  { rt,up := result.toBool,file }

def put (sys : System) (index : Nat) (x : Call × Runtime) : System :=
  { sys with calls := sys.calls.set index x.1,rt := x.2 }

/-- The next locked part of a call. -/
def resume (sys : System) (index : Nat) (w : World) (rt : Runtime) : Call → System
  | .phase run =>
      let (call,rt) := run.step w rt
      { sys.put index (call,rt) with granted := sys.granted++run.granted call }
  | .session run =>
      let (call,started,rt) := run.step w sys.calls rt
      { sys with calls := sys.calls.set index call++started,rt }
  | .cancel session reason [] =>
      sys.put index (ended (Runtime.endCancelSession w session reason rt))
  | .cancel session reason (phase::remaining) =>
      sys.put index (.cancel session reason remaining,
        (Runtime.cancelPhase w session phase reason rt).2)
  | .recovery session plan =>
      let (result,rt) := Runtime.endRecovery w session plan rt
      sys.put index (.recovered (result.map fun _ => plan),rt)
  | .stopping => sys.put index (ended (Runtime.endShutdown w rt))
  | _ => sys

def apply (sys : System) : Event → System
  | .call command w =>
      if sys.up then
        let (call,rt) := command.start w (sys.rt.facing w)
        { sys with calls := sys.calls++[call],rt }
      else sys
  | .resume index w =>
      if sys.up then
        match sys.calls[index]? with
        | some call => sys.resume index w (sys.rt.facing w) call
        | none => sys
      else sys
  | .restart options adapters w => boot options adapters sys.journal w

def run (sys : System) (events : List Event) : System := events.foldl apply sys

end System

namespace Sample

/-! A small configuration: one synthetic toolchain and sessions of one linking phase. -/

def family : ToolchainFamily := ⟨8⟩

def adapter : Adapter := { name := ascii "synthetic",family }

def toolchain : ToolchainIdentity := { family,evidenceClass := .synthetic }

def options : RuntimeOptions := { stateDirectory := ascii "state",enablePersistence := false }

def report : ExecutionReport :=
  { executed := true
    process := { id := ⟨1⟩,termination := .exited }
    outputs := [{ logicalName := ascii "image",format := .elf,present := true }] }

def world : World where
  probed := .ok toolchain
  reprobed := .ok { toolchain with id := ⟨1⟩,generation := ⟨1⟩ }
  resolvedTarget := .ok { architecture := ⟨2⟩,os := ⟨2⟩,triple := ascii "x86_64" }
  sourceFiles := [.ok {}]
  localPlan := PhasePlan.build [{ id := ⟨1⟩,kind := .link }]
  execution := .ok report
  evidence := .ok { accepted := true,state := .valid }

def request : CompileRequest := { toolchainFamily := family,sources := [ascii "main.c"] }

/-- A process that has found its toolchain. -/
def ready : System :=
  (System.boot options [adapter] [] world).apply (.call (.discoverToolchain family) world)

def created : System := ready.apply (.call (.createSession request) world)

/-- One `run_phase` through all its locked parts. -/
def phaseRun : List Event :=
  .call (.runPhase ⟨1⟩ ⟨1⟩) world::List.replicate 9 (.resume 2 world)

def committed : System := created.run phaseRun

/-- A second session, brought from elsewhere, that needs recovery. -/
def adopted : System := created.apply (.call (.adoptSession
  { (created.rt.find ⟨1⟩).getD {} with id := ⟨2⟩ }) world)

def durable : RuntimeOptions := { stateDirectory := ascii "state" }

/-- A process that kept a journal. -/
def persisted : System := (System.boot durable [adapter] [] world).run
  [.call (.discoverToolchain family) world,.call (.createSession request) world]

end Sample

end CompilerFabric
