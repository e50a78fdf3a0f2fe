import CompilerFabric.Ipc.Executor
import CompilerFabric.Law.Containment
import CompilerFabric.Law.Refused

namespace CompilerFabric

open Base (Bytes do_eq_ok)
open Base.Action

namespace Worker

variable {w w' : Worker} {s : Surroundings} {m reply : Message}

theorem handle_processes (w : Worker) (s : Surroundings) (m : Message) :
    (w.handle s m).1.processes=w.processes := by
  unfold handle
  split_ifs
  · rfl
  · rfl
  · split <;> rfl
  · split
    · rfl
    · dsimp only
      split <;> rfl
  · split <;> rfl
  · rfl
  · rfl

theorem serve_processes (w : Worker) (s : Surroundings) (m : Message) :
    (w.serve s m).1.processes=w.processes := by
  unfold serve
  split_ifs
  · rfl
  · split
    · rfl
    · next recent _ => exact handle_processes { w with recent } s m

/-- A preparation that is answered without an error has opened its directory. -/
theorem serve_ready (hm : m.type=.prepareWorkspace) (h : w.serve s m=(w',some reply))
    (hr : reply.type ≠ .error) : ∃ root workspace,
      prepareWorkspace w.options s.host m.payload=.ok (root,workspace) ∧
      w'.history=.opened root workspace::w.history := by
  unfold serve at h
  split_ifs at h
  · cases h
  split at h
  · cases h
    exact absurd rfl hr
  · unfold handle at h
    simp only [hm] at h
    rw [if_neg (by decide),if_neg (by decide),if_pos trivial] at h
    split at h
    · cases h
      exact absurd rfl hr
    · next root workspace hp =>
      cases h
      exact ⟨root,workspace,hp,rfl⟩

/-- An order that is answered without an error has been launched, and the answer reports it. -/
theorem serve_executed (hm : m.type=.startPhase) (h : w.serve s m=(w',some reply))
    (hr : reply.type ≠ .error) : ∃ checked process outcome,
      startPhase w.processes s m.payload=.ok (checked,process) ∧ s.outcome=.ok outcome ∧
      w'.history=.launched checked process::w.history ∧
      reply.payload=encodeExecutionReport (report s checked outcome) := by
  unfold serve at h
  split_ifs at h
  · cases h
  split at h
  · cases h
    exact absurd rfl hr
  · unfold handle at h
    simp only [hm] at h
    rw [if_neg (by decide),if_neg (by decide),if_neg (by decide),if_pos trivial] at h
    split at h
    · cases h
      exact absurd rfl hr
    · next checked process hs =>
      split at h
      · cases h
        exact absurd rfl hr
      · next outcome ho =>
        cases h
        exact ⟨checked,process,outcome,hs,ho,rfl,rfl⟩

/-- An order opens no directory. -/
theorem serve_order (hm : m.type=.startPhase) : (w.serve s m).1.history=w.history ∨
    ∃ checked process,startPhase w.processes s m.payload=.ok (checked,process) ∧
      (w.serve s m).1.history=.launched checked process::w.history := by
  unfold serve
  split_ifs
  · exact .inl rfl
  · split
    · exact .inl rfl
    · unfold handle
      simp only [hm]
      rw [if_neg (by decide),if_neg (by decide),if_neg (by decide),if_pos trivial]
      split
      · exact .inl rfl
      · next checked process hs =>
        split <;> exact .inr ⟨checked,process,hs,rfl⟩

end Worker

theorem Message.accepted_ok {reply : Message} {u : Unit} (h : reply.accepted=.ok u) :
    reply.type ≠ .error := by
  intro he
  rw [accepted,if_pos he] at h
  split at h <;> cases h

namespace PeerChannel

variable {c c' : PeerChannel} {passage : Passage} {m reply : Message}

theorem exchange_serves (c : PeerChannel) (passage : Passage) (m : Message) :
    (exchange passage m c).2.worker=c.worker ∨
      (exchange passage m c).2.worker=(c.worker.serve passage.surroundings m).1 := by
  unfold exchange
  split
  · exact .inl rfl
  · exact .inr rfl

/-- A request leaves the worker alone or is served by it, under some id. -/
theorem request_serves (c : PeerChannel) (passage : Passage) (m : Message) :
    (request passage m c).2.worker=c.worker ∨ ∃ requestId,(request passage m c).2.worker=
      (c.worker.serve passage.surroundings { m with requestId }).1 := by
  unfold request
  split_ifs
  · exact .inl rfl
  · exact (exchange_serves _ _ _).imp id fun h => ⟨_,h⟩
  · exact (exchange_serves _ _ _).imp id fun h => ⟨m.requestId,h⟩

theorem exchange_ok (h : exchange passage m c=(.ok reply,c')) :
    c.worker.serve passage.surroundings m=(c'.worker,some reply) := by
  unfold exchange at h
  split_ifs at h with _ hback
  · cases h
  · cases hs : c.worker.serve passage.surroundings m with
    | mk worker answer =>
      rw [hs] at h
      cases answer with
      | none => cases h
      | some answer =>
        cases h
        rfl
  · cases h

/-- A reply is the worker's. -/
theorem request_ok (h : request passage m c=(.ok reply,c')) : ∃ requestId,
    c.worker.serve passage.surroundings { m with requestId }=(c'.worker,some reply) := by
  unfold request at h
  split_ifs at h
  · cases h
  · have hserve := exchange_ok h
    exact ⟨_,hserve⟩
  · exact ⟨m.requestId,exchange_ok h⟩

end PeerChannel

namespace RemoteCall

/-- The worker opens the directory a call names. -/
def Prepares (call : RemoteCall) (w : Worker) (root : Bytes) (workspace : Workspace) : Prop :=
  Worker.prepareWorkspace w.options call.turn.prepare.surroundings.host
    (prepareOrder ⟨call.invocation.session,call.invocation.phase⟩ call.workspace.root)=.ok (root,workspace)

/-- The worker launches a process for the order of a call. -/
def Starts (call : RemoteCall) (w : Worker) (checked : InvocationSpec) (process : ProcessSpec) : Prop :=
  Worker.startPhase w.processes call.turn.start.surroundings (encodeInvocationOrder call.order)=
    .ok (checked,process)

/-- The report of a launch that was executed is the worker's, in the workspace of the caller. -/
def Reports (call : RemoteCall) (checked : InvocationSpec) (report : ExecutionReport) : Prop :=
  ∃ outcome remote,call.turn.start.surroundings.outcome=.ok outcome ∧
    decodeExecutionReport (encodeExecutionReport
      (Worker.report call.turn.start.surroundings checked outcome))=.ok remote ∧
    report={ remote with
      workspaceRoot := call.workspace.root
      workspaceMarker := call.workspace.markerDigest }

/-- All that one call can do: nothing, open the directory, or open it and then launch once. Only then
may the report say that something was executed. -/
inductive Step (call : RemoteCall) (w : Worker) : List WorkerEvent → ExecutionReport → Prop
  | idle {report : ExecutionReport} (he : report.executed=false) : Step call w w.history report
  | opened {report : ExecutionReport} {root : Bytes} {workspace : Workspace}
      (hp : call.Prepares w root workspace) (he : report.executed=false) :
      Step call w (.opened root workspace::w.history) report
  | launched {report : ExecutionReport} {root : Bytes} {workspace : Workspace}
      {checked : InvocationSpec} {process : ProcessSpec} (hp : call.Prepares w root workspace)
      (hs : call.Starts w checked process)
      (he : report.executed=true → call.Reports checked report) :
      Step call w (.launched checked process::.opened root workspace::w.history) report

variable {call : RemoteCall} {c c' : PeerChannel} {w w' : Worker}

/-- What a preparation leaves, answered or not. -/
theorem prepare_history (h : w'=w ∨ ∃ requestId,w'=(w.serve call.turn.prepare.surroundings
      { RemotePhaseExecutor.prepareMessage call.invocation call.workspace with requestId }).1) :
    w'.processes=w.processes ∧ (w'.history=w.history ∨ ∃ root workspace,
      call.Prepares w root workspace ∧ w'.history=.opened root workspace::w.history) := by
  obtain rfl | ⟨requestId,rfl⟩ := h
  · exact ⟨rfl,.inl rfl⟩
  · refine ⟨Worker.serve_processes _ _ _,?_⟩
    obtain ⟨_,hh | ⟨root,workspace,hp,hh⟩ | ⟨_,_,hm,_⟩⟩ := Worker.serve_history w _ _
    · exact .inl hh
    · exact .inr ⟨root,workspace,hp,hh⟩
    · exact absurd (show MessageType.prepareWorkspace=.startPhase from hm) (by decide)

/-- A report of nothing, in whatever way a preparation was left. -/
theorem Step.of_prepare {report : ExecutionReport} (he : report.executed=false)
    (h : w'.history=w.history ∨ ∃ root workspace,
      call.Prepares w root workspace ∧ w'.history=.opened root workspace::w.history) :
    call.Step w w'.history report := by
  obtain hh | ⟨root,workspace,hp,hh⟩ := h
  · rw [hh]
    exact .idle he
  · rw [hh]
    exact .opened hp he

/-- What an order leaves, answered or not. -/
theorem start_history (hw : w'.processes=w.processes) {w₂ : Worker}
    (h : w₂=w' ∨ ∃ requestId,w₂=(w'.serve call.turn.start.surroundings
      { RemotePhaseExecutor.startMessage call.order with requestId }).1) :
    w₂.history=w'.history ∨ ∃ checked process,call.Starts w checked process ∧
      w₂.history=.launched checked process::w'.history := by
  obtain rfl | ⟨requestId,rfl⟩ := h
  · exact .inl rfl
  · obtain hh | ⟨checked,process,hs,hh⟩ := Worker.serve_order (w := w')
      (s := call.turn.start.surroundings)
      (m := { RemotePhaseExecutor.startMessage call.order with requestId }) rfl
    · exact .inl hh
    · rw [hw] at hs
      exact .inr ⟨checked,process,hs,hh⟩

/-- A report of nothing, in whatever way an order was left. -/
theorem Step.of_start {report : ExecutionReport} {root : Bytes} {workspace : Workspace}
    {history : List WorkerEvent} (hp : call.Prepares w root workspace) (he : report.executed=false)
    (h : history=.opened root workspace::w.history ∨ ∃ checked process,call.Starts w checked process ∧
      history=.launched checked process::.opened root workspace::w.history) :
    call.Step w history report := by
  obtain rfl | ⟨checked,process,hs,rfl⟩ := h
  · exact .opened hp he
  · exact .launched hp hs fun hx => absurd (he.symm.trans hx) Bool.false_ne_true

theorem refused_executed (workspace : Workspace) (e : Status) :
    (workspace.unreported.refused e).executed=false := rfl

theorem execute_step (call : RemoteCall) (c : PeerChannel) :
    call.Step c.worker (call.execute c).2.worker.history (call.execute c).1 := by
  unfold execute RemotePhaseExecutor.execute
  cases hrun : RemotePhaseExecutor.attempt call.turn call.invocation call.process call.workspace
      call.phaseLabel c with
  | mk r after =>
    obtain ⟨e,hx,rfl⟩ | ⟨_,_,hx,h⟩ := seq_eq hrun
    · obtain ⟨_,rfl⟩ := Prod.mk.inj hx
      exact .idle (refused_executed _ _)
    obtain ⟨_,rfl⟩ := ofExcept_eq_ok.1 hx
    obtain ⟨e,hx,rfl⟩ | ⟨_,_,hx,h⟩ := seq_eq h
    · obtain ⟨_,rfl⟩ := Prod.mk.inj hx
      exact .idle (refused_executed _ _)
    obtain ⟨_,rfl⟩ := ofExcept_eq_ok.1 hx
    have hprepare := PeerChannel.request_serves c call.turn.prepare
      (RemotePhaseExecutor.prepareMessage call.invocation call.workspace)
    obtain ⟨e,hx,rfl⟩ | ⟨ready,c₁,hready,h⟩ := seq_eq h
    · rw [hx] at hprepare
      exact .of_prepare (refused_executed _ _) (prepare_history hprepare).2
    rw [hready] at hprepare
    obtain ⟨hprocesses,hprepared⟩ := prepare_history hprepare
    obtain ⟨e,hx,rfl⟩ | ⟨_,_,hx,h⟩ := seq_eq h
    · obtain ⟨_,rfl⟩ := Prod.mk.inj hx
      exact .of_prepare (refused_executed _ _) hprepared
    -- From here on the worker has accepted the directory.
    obtain ⟨haccepted,rfl⟩ := ofExcept_eq_ok.1 hx
    obtain ⟨requestId,hserve⟩ := PeerChannel.request_ok hready
    obtain ⟨root,workspace,hp,hopened⟩ :=
      Worker.serve_ready rfl hserve (Message.accepted_ok haccepted)
    have hp : call.Prepares c.worker root workspace := hp
    have horder := start_history hprocesses (PeerChannel.request_serves c₁ call.turn.start
      (RemotePhaseExecutor.startMessage
        ⟨call.invocation,call.process,call.workspace.root,call.phaseLabel⟩))
    rw [hopened] at horder
    obtain ⟨e,hx,rfl⟩ | ⟨executed,c₂,hexecuted,h⟩ := seq_eq h
    · rw [hx] at horder
      exact .of_start hp (refused_executed _ _) horder
    rw [hexecuted] at horder
    obtain ⟨e,hx,rfl⟩ | ⟨_,_,hx,h⟩ := seq_eq h
    · obtain ⟨_,rfl⟩ := Prod.mk.inj hx
      exact .of_start hp (refused_executed _ _) horder
    obtain ⟨haccepted,rfl⟩ := ofExcept_eq_ok.1 hx
    obtain ⟨requestId,hserve⟩ := PeerChannel.request_ok hexecuted
    obtain ⟨checked,process,outcome,hs,ho,hlaunched,hpayload⟩ :=
      Worker.serve_executed rfl hserve (Message.accepted_ok haccepted)
    obtain ⟨e,hx,rfl⟩ | ⟨remote,_,hx,h⟩ := seq_eq h
    · obtain ⟨_,rfl⟩ := Prod.mk.inj hx
      exact .of_start hp (refused_executed _ _) horder
    obtain ⟨hremote,rfl⟩ := ofExcept_eq_ok.1 hx
    cases h
    rw [hlaunched,hopened]
    rw [hprocesses] at hs
    rw [hpayload] at hremote
    exact .launched hp hs fun _ => ⟨outcome,remote,ho,hremote,rfl⟩

/-- The settings of the worker stay what they are. -/
def SameSettings (c c' : PeerChannel) : Prop :=
  c'.worker.options=c.worker.options ∧ c'.worker.processes=c.worker.processes

instance : IsPreorder PeerChannel SameSettings where
  refl _ := ⟨rfl,rfl⟩
  trans _ _ _ h h' := ⟨h'.1.trans h.1,h'.2.trans h.2⟩

theorem request_settings (passage : Passage) (m : Message) :
    Within SameSettings (PeerChannel.request passage m) := by
  intro c
  obtain h | ⟨_,h⟩ := PeerChannel.request_serves c passage m
  · exact ⟨congrArg Worker.options h,congrArg Worker.processes h⟩
  · rw [SameSettings,h]
    exact ⟨(Worker.serve_history _ _ _).1,Worker.serve_processes _ _ _⟩

theorem execute_settings (call : RemoteCall) (c : PeerChannel) :
    SameSettings c (call.execute c).2 := by
  have hattempt : Within SameSettings (RemotePhaseExecutor.attempt call.turn call.invocation
      call.process call.workspace call.phaseLabel) :=
    .bind (.ofExcept _) fun _ => .bind (.ofExcept _) fun _ =>
    .bind (request_settings _ _) fun _ => .bind (.ofExcept _) fun _ =>
    .bind (request_settings _ _) fun _ => .bind (.ofExcept _) fun _ =>
    .bind (.ofExcept _) fun _ => .pure _
  have h := hattempt c
  unfold execute RemotePhaseExecutor.execute
  split <;> next heq => rwa [heq] at h

/-- A root too long for its field is not sent at all. -/
theorem read_prepareOrder_over (request : WorkspaceRequest) {root : Bytes}
    (h : kMaxFieldBytes<root.length) : orderedRoot (prepareOrder request root)=.ok [] := by
  let calls : List FieldCall := [.u64 1 request.session.id.value,.u64 2 request.session.generation.value,
    .u64 3 request.phase.id.value,.u64 4 request.phase.generation.value]
  have hcap : 8 ≤ kMaxFieldBytes := by decide
  have hfields := FieldCall.payload_fields calls (by simp [calls,FieldCall.field]) (by
    simp [calls,FieldCall.field,hcap])
  have hdropped : prepareOrder request root=FieldCall.payload calls := by
    rw [prepareOrder,FieldWriter.blob,if_pos h]
    rfl
  rw [hdropped]
  have hfold : (calls.map FieldCall.field).foldlM
      (fun root f => if f.id=5 then Except.ok f.value else .ok root) []=(.ok [] : Result Bytes) := by
    simp [calls,FieldCall.field,bind,Except.bind,pure,Except.pure]
  obtain ⟨last,hl,_⟩ := FieldReader.each_fields (fun root r => if r.currentId=5 then r.asText else .ok root)
    _ (fun _ _ => rfl) (Nat.zero_le _) hfields hfold
  rw [orderedRoot,hl]
  rfl

/-- The directory opened is the one of the caller's workspace, for the identities of the invocation. -/
theorem Prepares.workspace {root : Bytes} {workspace : Workspace}
    (h : call.Prepares w root workspace) : root=normalizePath call.workspace.root ∧
      call.invocation.session=⟨workspace.session,workspace.sessionGeneration⟩ ∧
      call.invocation.phase=⟨workspace.phase,workspace.phaseGeneration⟩ := by
  obtain ⟨request,hrequest,h⟩ := do_eq_ok.1 h
  obtain ⟨ordered,hordered,h⟩ := do_eq_ok.1 h
  obtain ⟨_,hgiven,h⟩ := do_eq_ok.1 h
  obtain ⟨_,_,h⟩ := do_eq_ok.1 h
  obtain ⟨opened,hopen,h⟩ := do_eq_ok.1 h
  cases h
  by_cases hl : call.workspace.root.length ≤ kMaxFieldBytes
  · obtain ⟨hreq,hroot⟩ := read_prepareOrder ⟨call.invocation.session,call.invocation.phase⟩ hl
    cases hreq.symm.trans hrequest
    cases hroot.symm.trans hordered
    exact ⟨rfl,FileTree.openWorkspace_identities hopen⟩
  · have hnone := read_prepareOrder_over ⟨call.invocation.session,call.invocation.phase⟩
      (Nat.lt_of_not_le hl)
    cases hnone.symm.trans hordered
    exact absurd (ensure_ok.1 hgiven) (by simp)

/-- What is launched runs in the directory of the call's process, under the call's identities. -/
theorem Starts.order {checked : InvocationSpec} {process : ProcessSpec}
    (h : call.Starts w checked process) : checked=call.order.transported.invocation ∧
      process.workingDirectory=call.process.workingDirectory := by
  obtain ⟨order,horder,hchecked,hdir⟩ := Worker.startPhase_ok h
  cases decodeInvocationOrder_ok horder
  exact ⟨hchecked,hdir⟩

/-- The process of a call runs in the workspace of the call, which has a normal name. -/
def Placed (call : RemoteCall) : Prop :=
  normalizePath call.workspace.root=call.workspace.root ∧
    call.process.workingDirectory=call.workspace.root

/-- A contained history whose directories lie in the root as well. -/
structure Keeps (root : Bytes) (history : List WorkerEvent) : Prop where
  contained : Worker.Contained root history
  inside : ∀ opened workspace,.opened opened workspace ∈ history → pathIsWithin opened root=true

theorem Keeps.opened {root opened : Bytes} {workspace : Workspace} {history : List WorkerEvent}
    (h : Keeps root history) (hin : pathIsWithin opened root=true) :
    Keeps root (.opened opened workspace::history) := by
  constructor
  · exact Worker.contained_cons h.contained fun _ _ he => by cases he
  · intro other ws hm
    obtain he | hm := List.mem_cons.1 hm
    · cases he
      exact hin
    · exact h.inside other ws hm

theorem Keeps.launched {root : Bytes} {invocation : InvocationSpec} {process : ProcessSpec}
    {history : List WorkerEvent} (h : Keeps root history)
    (ho : Worker.Opened history process.workingDirectory invocation) :
    Keeps root (.launched invocation process::history) := by
  constructor
  · apply Worker.contained_cons h.contained
    rintro _ _ he
    cases he
    exact ⟨ho.inside h.inside,ho⟩
  · intro other ws hm
    obtain he | hm := List.mem_cons.1 hm
    · cases he
    · exact h.inside other ws hm

theorem Step.keeps {history : List WorkerEvent} {report : ExecutionReport}
    (h : call.Step w history report) (hk : Keeps w.options.workspaceRoot w.history)
    (hroot : w.options.workspaceRoot ≠ []) (hp : call.Placed) :
    Keeps w.options.workspaceRoot history := by
  cases h with
  | idle => exact hk
  | opened hprepares => exact hk.opened (Worker.prepareWorkspace_ok hroot hprepares)
  | launched hprepares hstarts =>
    apply (hk.opened (Worker.prepareWorkspace_ok hroot hprepares)).launched
    obtain ⟨rfl,hsession,hphase⟩ := hprepares.workspace
    obtain ⟨rfl,hdirectory⟩ := hstarts.order
    refine ⟨_,_,List.mem_cons_self,?_,hsession,hphase⟩
    rw [hdirectory,hp.2,hp.1]

/-- How many processes a history has launched. -/
def launches : List WorkerEvent → Nat
  | [] => 0
  | .launched _ _::history => launches history+1
  | .opened _ _::history => launches history

theorem Step.launches {history : List WorkerEvent} {report : ExecutionReport}
    (h : call.Step w history report) : launches w.history ≤ launches history ∧
      launches history ≤ launches w.history+1 ∧
      (report.executed=true → launches history=launches w.history+1) := by
  cases h with
  | idle he => simp [he]
  | opened _ he => simp [he,RemoteCall.launches]
  | launched => simp [RemoteCall.launches]

theorem run_keeps (calls : List RemoteCall) (hroot : c.worker.options.workspaceRoot ≠ [])
    (hp : ∀ call ∈ calls,call.Placed) (hk : Keeps c.worker.options.workspaceRoot c.worker.history) :
    Keeps c.worker.options.workspaceRoot (run c calls).2.worker.history ∧
      (run c calls).1.countP (·.executed)+launches c.worker.history ≤
        launches (run c calls).2.worker.history ∧
      launches (run c calls).2.worker.history ≤ launches c.worker.history+calls.length := by
  induction calls generalizing c with
  | nil => exact ⟨hk,by simp [run]⟩
  | cons call calls ih =>
    obtain ⟨hcall,hcalls⟩ := List.forall_mem_cons.1 hp
    have hstep := execute_step call c
    have hoptions := (execute_settings call c).1
    obtain ⟨hmin,hmax,hone⟩ := hstep.launches
    rw [← hoptions] at hroot ⊢
    obtain ⟨hkeeps,hleast,hmost⟩ := ih hroot hcalls (hoptions ▸ hstep.keeps hk (hoptions ▸ hroot) hcall)
    refine ⟨hkeeps,?_,?_⟩
    · simp only [run,List.countP_cons]
      split
      · next hx =>
        have := hone hx
        omega
      · omega
    · simp only [run,List.length_cons]
      omega

end RemoteCall

/-- The limits of a policy never leave a process without room for its output. -/
theorem InvocationSpec.processUnder_ok {host : Host} {policy : Option PolicySpec}
    {spec : InvocationSpec} {process : ProcessSpec} (h : spec.processUnder host policy=.ok process) :
    (∃ timeoutMillis maxCaptureBytes,process=
      { executable := spec.executable
        arguments := spec.arguments
        environment := spec.environmentVariables
        workingDirectory := spec.workingDirectory
        timeoutMillis
        maxCaptureBytes }) ∧ process.maxCaptureBytes ≠ 0 := by
  obtain ⟨built,hbuilt,h⟩ := do_eq_ok.1 h
  obtain ⟨_,_,hbuilt⟩ := do_eq_ok.1 hbuilt
  cases hbuilt
  cases policy with
  | none =>
    cases h
    exact ⟨⟨_,_,rfl⟩,show kDefaultCaptureBytes ≠ 0 from by decide⟩
  | some policy =>
    cases h
    refine ⟨⟨_,_,rfl⟩,?_⟩
    show (if 4096 ≤ min policy.maxDiagnosticBytesPerStream kMaxCaptureBytes then
      min policy.maxDiagnosticBytesPerStream kMaxCaptureBytes else 4096) ≠ (0 : UInt64)
    split
    · next hle =>
      intro h0
      rw [h0] at hle
      exact absurd hle (by decide)
    · decide

/-- What can be spawned is valid as it stands, where nothing is inherited and the ceiling is given. -/
theorem ProcessSpec.validate_of_spawn {options : ProcessSupervisorOptions} {s : Surroundings}
    {spec out : ProcessSpec} (h : spec.spawn options s=.ok out)
    (hinherit : spec.inheritAmbientEnvironment=false) (hcap : spec.maxCaptureBytes ≠ 0) :
    spec.validate s.host=.ok () := by
  obtain ⟨_,hvalid,_⟩ := do_eq_ok.1 h
  simp only [hinherit,Bool.false_eq_true,if_false,if_neg hcap] at hvalid
  simp only [ProcessSpec.validate,check_ok,ensure_ok] at hvalid ⊢
  obtain ⟨h1,h2,h3,h4,h5,h6,h7,h8,h9,hnames,hbytes,hrest⟩ := hvalid
  refine ⟨h1,h2,h3,h4,h5,h6,h7,h8,h9,?_,?_,hrest⟩
  -- An empty environment is filled up by the loader, and is valid before that.
  · cases hempty : spec.environment with
    | nil => simp
    | cons => simpa [hempty] using hnames
  · cases hempty : spec.environment with
    | nil => simp [environmentBytes]
    | cons => simpa [hempty] using hbytes

namespace Worker

/-- What is launched for an order is what the ordered process is spawned as. -/
theorem startPhase_spawns {processes : ProcessSupervisorOptions} {s : Surroundings} {payload : Bytes}
    {checked : InvocationSpec} {process : ProcessSpec}
    (h : startPhase processes s payload=.ok (checked,process)) :
    ∃ order,decodeInvocationOrder payload=.ok order ∧ checked=order.invocation ∧
      (effectiveProcess
        { executable := checked.executable
          arguments := checked.arguments
          environment := checked.environmentVariables
          workingDirectory := checked.workingDirectory } order.process).spawn processes s=.ok process := by
  obtain ⟨order,horder,h⟩ := do_eq_ok.1 h
  obtain ⟨valid,hvalid,h⟩ := do_eq_ok.1 h
  have hchecked : valid=order.invocation := validateInvocation_ok hvalid
  have hrest : ∃ spec,valid.toProcessSpec s.host=.ok spec ∧
      (effectiveProcess spec order.process).spawn processes s=.ok process ∧ checked=valid := by
    split at h
    · obtain ⟨_,_,h⟩ := do_eq_ok.1 h
      obtain ⟨_,_,h⟩ := do_eq_ok.1 h
      obtain ⟨spec,hspec,h⟩ := do_eq_ok.1 h
      obtain ⟨_,hspawn,h⟩ := do_eq_ok.1 h
      cases h
      exact ⟨spec,hspec,hspawn,rfl⟩
    · obtain ⟨spec,hspec,h⟩ := do_eq_ok.1 h
      obtain ⟨_,hspawn,h⟩ := do_eq_ok.1 h
      cases h
      exact ⟨spec,hspec,hspawn,rfl⟩
  obtain ⟨spec,hspec,hspawn,rfl⟩ := hrest
  obtain ⟨_,_,hspec⟩ := do_eq_ok.1 hspec
  cases hspec
  exact ⟨order,horder,hchecked,hspawn⟩

end Worker

namespace RemoteCall

variable {call : RemoteCall} {c : PeerChannel} {w : Worker} {host : Host} {policy : Option PolicySpec}

/-- The worker launches what a local executor on its machine would launch. -/
theorem Starts.launch {checked : InvocationSpec} {process : ProcessSpec}
    (h : call.Starts w checked process)
    (hp : call.invocation.processUnder host policy=.ok call.process)
    (hw : call.invocation.workingDirectory=call.workspace.root) :
    LocalPhaseExecutor.launch w.processes call.turn.start.surroundings call.invocation call.process
      call.workspace=.ok process := by
  obtain ⟨order,horder,rfl,hspawn⟩ := Worker.startPhase_spawns h
  cases decodeInvocationOrder_ok horder
  obtain ⟨⟨timeout,capture,hprocess⟩,hcap⟩ := InvocationSpec.processUnder_ok hp
  have heffective : Worker.effectiveProcess
      { executable := call.order.transported.invocation.executable
        arguments := call.order.transported.invocation.arguments
        environment := call.order.transported.invocation.environmentVariables
        workingDirectory := call.order.transported.invocation.workingDirectory }
      call.order.transported.process=call.process := by
    have hordered : call.order.transported.process.maxCaptureBytes ≠ 0 := hcap
    rw [Worker.effectiveProcess,if_neg hordered]
    show ({ executable := call.invocation.executable
            arguments := call.invocation.arguments
            environment := call.process.environment
            workingDirectory := call.process.workingDirectory
            timeoutMillis := call.process.timeoutMillis
            maxCaptureBytes := call.process.maxCaptureBytes } : ProcessSpec)=call.process
    rw [hprocess]
  rw [heffective] at hspawn
  have hlocal : (if call.process.workingDirectory.isEmpty then call.workspace.root
        else call.process.workingDirectory)=call.process.workingDirectory ∧
      (if call.process.environment.isEmpty then call.invocation.environmentVariables
        else call.process.environment)=call.process.environment := by
    rw [hprocess]
    simp [hw]
  unfold LocalPhaseExecutor.launch
  simp only [hlocal]
  have hvalid := ProcessSpec.validate_of_spawn hspawn (by rw [hprocess]) hcap
  exact check_ok.2 ⟨hvalid,hspawn⟩

theorem Reports.local_report {launched : ProcessSpec} {report : ExecutionReport}
    (h : call.Reports call.order.transported.invocation report)
    (hl : LocalPhaseExecutor.launch w.processes call.turn.start.surroundings call.invocation
      call.process call.workspace=.ok launched) :
    report=(LocalPhaseExecutor.execute w.processes call.turn.start.surroundings call.invocation
      call.process call.workspace).transported := by
  obtain ⟨outcome,remote,ho,hremote,rfl⟩ := h
  cases decodeExecutionReport_ok hremote
  unfold LocalPhaseExecutor.execute
  rw [hl,ho]
  rfl

end RemoteCall

namespace Worker

variable {w : Worker} {s : Surroundings} {m : Message} {recent : List UInt64}

/-- Whether a worker goes on after a message it has handled. -/
def lastTurn (w : Worker) (s : Surroundings) : Bool :=
  !s.sent || w.shutdownRequested ||
    (decide (w.options.maxRequests ≠ 0) && decide (w.options.maxRequests ≤ w.served+1))

theorem serve_prepared (hstop : w.stopped=false)
    (hnote : noteRequest w.options.connection w.recent m.requestId=some recent)
    (hm : m.type=.prepareWorkspace) {root : Bytes} {workspace : Workspace}
    (hp : prepareWorkspace w.options s.host m.payload=.ok (root,workspace)) : ∃ w' reply,
      w.serve s m=(w',some reply) ∧ reply.type ≠ .error ∧ w'.options=w.options ∧
      w'.processes=w.processes ∧ w'.recent=recent ∧ w'.stopped=w.lastTurn s := by
  simp only [serve,hstop,Bool.false_eq_true,if_false,hnote,handle,hm]
  rw [if_neg (by decide),if_neg (by decide),if_pos trivial,hp]
  exact ⟨_,_,rfl,show MessageType.workspaceReady ≠ .error from by decide,rfl,rfl,rfl,rfl⟩

theorem serve_started (hstop : w.stopped=false) {requestId : UInt64}
    (hnote : noteRequest w.options.connection w.recent requestId=some recent) {order : InvocationOrder}
    {checked : InvocationSpec} {process : ProcessSpec} {outcome : ProcessOutcome}
    (hs : startPhase w.processes s (encodeInvocationOrder order)=.ok (checked,process))
    (ho : s.outcome=.ok outcome) : ∃ w' reply,
      w.serve s { RemotePhaseExecutor.startMessage order with requestId }=(w',some reply) ∧
      reply.type ≠ .error ∧ reply.payload=encodeExecutionReport (report s checked outcome) := by
  simp only [serve,hstop,Bool.false_eq_true,if_false,hnote,handle,RemotePhaseExecutor.startMessage]
  rw [if_neg (by decide),if_neg (by decide),if_neg (by decide),if_pos trivial,hs]
  simp only [ho]
  exact ⟨_,_,rfl,show MessageType.phaseStarted ≠ .error from by decide,rfl⟩

end Worker

namespace PeerChannel

variable {c : PeerChannel} {passage : Passage} {m reply : Message} {w' : Worker}

/-- A request nothing happens to is answered by the worker, under the next id. -/
theorem request_answered (hopened : passage.opened=true) (hreaches : passage.reaches=true)
    (hreturns : passage.returns=true) (hm : m.requestId=0)
    (h : c.worker.serve passage.surroundings { m with requestId := c.requestCounter+1 }=(w',some reply)) :
    request passage m c=(.ok reply,⟨w',c.requestCounter+1⟩) := by
  simp [request,exchange,hopened,hreaches,hreturns,hm,h]

end PeerChannel

theorem Message.accepted_of_type {reply : Message} (h : reply.type ≠ .error) :
    reply.accepted=.ok () := if_neg h

/-- A call both of whose messages are answered without an error hands on the report. -/
theorem RemoteCall.execute_answered {call : RemoteCall} {c c₁ c₂ : PeerChannel}
    {ready executed : Message} {remote : ExecutionReport} (hoffline : call.turn.offline=false)
    (hconnected : call.turn.connected=true)
    (hready : PeerChannel.request call.turn.prepare
      (RemotePhaseExecutor.prepareMessage call.invocation call.workspace) c=(.ok ready,c₁))
    (hr : ready.type ≠ .error)
    (hexecuted : PeerChannel.request call.turn.start
      (RemotePhaseExecutor.startMessage call.order) c₁=(.ok executed,c₂))
    (he : executed.type ≠ .error) (hremote : decodeExecutionReport executed.payload=.ok remote) :
    call.execute c=({ remote with
      workspaceRoot := call.workspace.root
      workspaceMarker := call.workspace.markerDigest },c₂) := by
  have hattempt : RemotePhaseExecutor.attempt call.turn call.invocation call.process call.workspace
      call.phaseLabel c=(.ok { remote with
        workspaceRoot := call.workspace.root
        workspaceMarker := call.workspace.markerDigest },c₂) := by
    refine seq_eq_ok.2 ⟨(),c,ofExcept_eq_ok.2 ⟨ensure_ok.2 (by simp [hoffline]),rfl⟩,?_⟩
    refine seq_eq_ok.2 ⟨(),c,ofExcept_eq_ok.2 ⟨ensure_ok.2 hconnected,rfl⟩,?_⟩
    refine seq_eq_ok.2 ⟨ready,c₁,hready,?_⟩
    refine seq_eq_ok.2 ⟨(),c₁,ofExcept_eq_ok.2 ⟨Message.accepted_of_type hr,rfl⟩,?_⟩
    refine seq_eq_ok.2 ⟨executed,c₂,hexecuted,?_⟩
    refine seq_eq_ok.2 ⟨(),c₂,ofExcept_eq_ok.2 ⟨Message.accepted_of_type he,rfl⟩,?_⟩
    exact seq_eq_ok.2 ⟨remote,c₂,ofExcept_eq_ok.2 ⟨hremote,rfl⟩,rfl⟩
  unfold execute RemotePhaseExecutor.execute
  rw [hattempt]

namespace Sample

def remoteCall : RemoteCall where
  turn :=
    { prepare := { surroundings := workerSurroundings }
      start := { surroundings := workerSurroundings } }
  invocation :=
    { (orderFor []).invocation with workingDirectory := ascii "C:\\work\\p" }
  process := { executable := ascii "C:\\cc.exe",workingDirectory := ascii "C:\\work\\p" }
  workspace := { root := ascii "C:\\work\\p" }

def remoteChannel : PeerChannel := { worker := Worker.connect workerOptions }

theorem remoteCall_process :
    remoteCall.invocation.processUnder workerHost none=.ok remoteCall.process := by
  decide +kernel

theorem remoteCall_decoded : decodeInvocationOrder (encodeInvocationOrder remoteCall.order)=
    .ok remoteCall.order.transported := by
  rw [invocationOrder_recovered]
  have hcap : kMaxFieldBytes=1048576 := rfl
  have hpath : kMaxPathBytes=32768 := rfl
  have hexe : (ascii "C:\\cc.exe").length=9 := by decide
  have hroot : (ascii "C:\\work\\p").length=9 := by decide
  constructor <;>
    simp [RemoteCall.order,remoteCall,orderFor,InvocationOrder.packedBytes,packedTexts,packedVariables,
      hcap,hpath,hexe,hroot,BoundedTexts]

theorem remoteCall_started :
    (Worker.startPhase {} workerSurroundings (encodeInvocationOrder remoteCall.order)).isOk=true := by
  unfold Worker.startPhase
  rw [remoteCall_decoded]
  decide +kernel

theorem remoteCall_reported : decodeExecutionReport (encodeExecutionReport
    (Worker.report workerSurroundings remoteCall.order.transported.invocation {}))=
      .ok (Worker.report workerSurroundings remoteCall.order.transported.invocation {}).transported := by
  rw [executionReport_recovered]
  exact ⟨by decide +kernel,by decide,by decide,by decide,by decide,⟨by decide,by rintro _ ⟨⟩⟩,
    ⟨by decide,by rintro _ ⟨⟩⟩⟩

theorem remoteCall_prepares : ∃ root workspace,
    remoteCall.Prepares remoteChannel.worker root workspace := by
  obtain ⟨workspace,hp,_⟩ := workspace_opened
  exact ⟨_,workspace,hp⟩

/-- With both messages delivered and answered, the process is executed. -/
theorem remoteCall_executed : (remoteCall.execute remoteChannel).1.executed=true := by
  obtain ⟨root,workspace,hp⟩ := remoteCall_prepares
  obtain ⟨⟨checked,process⟩,hs⟩ := Base.exists_eq_ok remoteCall_started
  obtain ⟨order,horder,rfl,_⟩ := Worker.startPhase_ok hs
  obtain rfl := Except.ok.inj (horder.symm.trans remoteCall_decoded)
  obtain ⟨w,ready,hserve,hr,hoptions,hprocesses,hrecent,hstop⟩ :=
    @Worker.serve_prepared remoteChannel.worker workerSurroundings
      { RemotePhaseExecutor.prepareMessage remoteCall.invocation remoteCall.workspace with requestId := 1 }
      [1] rfl (by decide) rfl root workspace hp
  have hready := @PeerChannel.request_answered remoteChannel remoteCall.turn.prepare _ _ _
    rfl rfl rfl rfl hserve
  have hnote : noteRequest w.options.connection w.recent 2=some [1,2] := by
    rw [hoptions,hrecent]
    decide
  have hprocesses : w.processes={} := hprocesses
  rw [← hprocesses] at hs
  obtain ⟨w',executed,hstart,he,hpayload⟩ := Worker.serve_started hstop hnote hs rfl
  have hexecuted := @PeerChannel.request_answered ⟨w,remoteChannel.requestCounter+1⟩
    remoteCall.turn.start (RemotePhaseExecutor.startMessage remoteCall.order) _ w' rfl rfl rfl rfl hstart
  have hremote := remoteCall_reported
  rw [← hpayload] at hremote
  rw [RemoteCall.execute_answered rfl rfl hready hr hexecuted he hremote]
  rfl

end Sample

namespace RemoteCall

end RemoteCall

end CompilerFabric
