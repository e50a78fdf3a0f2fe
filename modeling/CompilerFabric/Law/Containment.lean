import CompilerFabric.Ipc.Worker
import CompilerFabric.Law.Payloads

namespace CompilerFabric

open Base (Bytes do_eq_ok)

namespace Worker

/-- A directory opened earlier for the session and the phase of an invocation. -/
def Opened (before : List WorkerEvent) (directory : Bytes) (invocation : InvocationSpec) : Prop :=
  ∃ root workspace,.opened root workspace ∈ before ∧
    canonicalPathKey root=canonicalPathKey directory ∧
    invocation.session=⟨workspace.session,workspace.sessionGeneration⟩ ∧
    invocation.phase=⟨workspace.phase,workspace.phaseGeneration⟩

/-- Every process was launched inside the configured root, in a directory whose marker had been
accepted for the identities and generations of its order. -/
def Contained (root : Bytes) (history : List WorkerEvent) : Prop :=
  ∀ later before invocation process,history=later++.launched invocation process::before →
    pathIsWithin process.workingDirectory root=true ∧
      Opened before process.workingDirectory invocation

/-- The condition on a message: an order names a directory opened before for its identities. -/
def Tied (w : Worker) (m : Message) : Prop :=
  m.type=.startPhase → ∀ order,decodeInvocationOrder m.payload=.ok order →
    Opened w.history order.process.workingDirectory order.invocation

def TiedRun (w : Worker) : List (Surroundings × Message) → Prop
  | [] => True
  | (s,m)::inputs => w.Tied m ∧ TiedRun (w.serve s m).1 inputs

section Steps

variable {w : Worker} {s : Surroundings} {m : Message}

theorem spawn_workingDirectory {options : ProcessSupervisorOptions} {spec out : ProcessSpec}
    (h : spec.spawn options s=.ok out) : out.workingDirectory=spec.workingDirectory := by
  obtain ⟨_,_,h⟩ := do_eq_ok.1 h
  cases h
  rfl

/-- What is launched runs where the order says, under the identities of the order. -/
theorem startPhase_ok {processes : ProcessSupervisorOptions} {payload : Bytes} {checked : InvocationSpec}
    {process : ProcessSpec} (h : startPhase processes s payload=.ok (checked,process)) :
    ∃ order,decodeInvocationOrder payload=.ok order ∧ checked=order.invocation ∧
      process.workingDirectory=order.process.workingDirectory := by
  obtain ⟨order,horder,h⟩ := do_eq_ok.1 h
  obtain ⟨valid,hvalid,h⟩ := do_eq_ok.1 h
  have hchecked : valid=order.invocation := validateInvocation_ok hvalid
  -- Whether or not the executable is probed, the same launch follows.
  have hrest : ∃ spec,(effectiveProcess spec order.process).spawn processes s=.ok process ∧ checked=valid := by
    split at h
    · obtain ⟨_,_,h⟩ := do_eq_ok.1 h
      obtain ⟨_,_,h⟩ := do_eq_ok.1 h
      obtain ⟨spec,_,h⟩ := do_eq_ok.1 h
      obtain ⟨_,hspawn,h⟩ := do_eq_ok.1 h
      cases h
      exact ⟨spec,hspawn,rfl⟩
    · obtain ⟨spec,_,h⟩ := do_eq_ok.1 h
      obtain ⟨_,hspawn,h⟩ := do_eq_ok.1 h
      cases h
      exact ⟨spec,hspawn,rfl⟩
  obtain ⟨spec,hspawn,rfl⟩ := hrest
  refine ⟨order,horder,hchecked,?_⟩
  rw [spawn_workingDirectory hspawn]
  rfl

/-- An accepted preparation names a directory inside the configured root. -/
theorem prepareWorkspace_ok {options : WorkerOptions} {host : Host} {payload root : Bytes}
    {workspace : Workspace} (hroot : options.workspaceRoot ≠ [])
    (h : prepareWorkspace options host payload=.ok (root,workspace)) :
    pathIsWithin root options.workspaceRoot=true := by
  obtain ⟨_,_,h⟩ := do_eq_ok.1 h
  obtain ⟨_,_,h⟩ := do_eq_ok.1 h
  obtain ⟨_,_,h⟩ := do_eq_ok.1 h
  obtain ⟨_,hin,h⟩ := do_eq_ok.1 h
  obtain ⟨_,_,h⟩ := do_eq_ok.1 h
  cases h
  obtain hempty | hin := ensure_ok.1 hin
  · exact absurd (List.isEmpty_iff.1 hempty) hroot
  · exact hin

theorem handle_history (w : Worker) (s : Surroundings) (m : Message) :
    (w.handle s m).1.options=w.options ∧
    ((w.handle s m).1.history=w.history ∨
     (∃ root workspace,prepareWorkspace w.options s.host m.payload=.ok (root,workspace) ∧
       (w.handle s m).1.history=.opened root workspace::w.history) ∨
     (∃ checked process,m.type=.startPhase ∧
       startPhase w.processes s m.payload=.ok (checked,process) ∧
       (w.handle s m).1.history=.launched checked process::w.history)) := by
  unfold handle
  split_ifs with h1 h2 h3 h4 h5 h6
  · exact ⟨rfl,.inl rfl⟩
  · exact ⟨rfl,.inl rfl⟩
  · cases hp : prepareWorkspace w.options s.host m.payload with
    | error e => exact ⟨rfl,.inl rfl⟩
    | ok v => exact ⟨rfl,.inr (.inl ⟨v.1,v.2,rfl,rfl⟩)⟩
  · cases hs : startPhase w.processes s m.payload with
    | error e => exact ⟨rfl,.inl rfl⟩
    | ok v =>
      dsimp only
      split
      · exact ⟨rfl,.inr (.inr ⟨v.1,v.2,h4,rfl,rfl⟩)⟩
      · exact ⟨rfl,.inr (.inr ⟨v.1,v.2,h4,rfl,rfl⟩)⟩
  · split
    · exact ⟨rfl,.inl rfl⟩
    · exact ⟨rfl,.inl rfl⟩
  · exact ⟨rfl,.inl rfl⟩
  · exact ⟨rfl,.inl rfl⟩

/-- Everything one message can add to the history. -/
theorem serve_history (w : Worker) (s : Surroundings) (m : Message) :
    (w.serve s m).1.options=w.options ∧
    ((w.serve s m).1.history=w.history ∨
     (∃ root workspace,prepareWorkspace w.options s.host m.payload=.ok (root,workspace) ∧
       (w.serve s m).1.history=.opened root workspace::w.history) ∨
     (∃ checked process,m.type=.startPhase ∧
       startPhase w.processes s m.payload=.ok (checked,process) ∧
       (w.serve s m).1.history=.launched checked process::w.history)) := by
  unfold serve
  split_ifs
  · exact ⟨rfl,.inl rfl⟩
  · split
    · exact ⟨rfl,.inl rfl⟩
    · next recent _ => exact handle_history { w with recent } s m

/-- A message of an id not served yet is handled: an accepted order launches. -/
theorem serve_start (hstop : w.stopped=false) (hid : m.requestId ∉ w.recent) (hm : m.type=.startPhase)
    {checked : InvocationSpec} {process : ProcessSpec}
    (hs : startPhase w.processes s m.payload=.ok (checked,process)) :
    (w.serve s m).1.history=.launched checked process::w.history := by
  obtain ⟨recent,hn,_⟩ := @noteRequest_fresh w.options.connection _ _ hid
  simp only [serve,hstop,Bool.false_eq_true,if_false,hn,handle,hm]
  rw [if_neg (by decide),if_neg (by decide),if_neg (by decide),if_pos trivial,hs]
  dsimp only
  split <;> rfl

theorem serve_prepare (hstop : w.stopped=false) (hid : m.requestId ∉ w.recent)
    (hm : m.type=.prepareWorkspace) {root : Bytes} {workspace : Workspace}
    (hp : prepareWorkspace w.options s.host m.payload=.ok (root,workspace)) :
    (w.serve s m).1.history=.opened root workspace::w.history := by
  obtain ⟨recent,hn,_⟩ := @noteRequest_fresh w.options.connection _ _ hid
  simp only [serve,hstop,Bool.false_eq_true,if_false,hn,handle,hm]
  rw [if_neg (by decide),if_neg (by decide),if_pos trivial,hp]

theorem run_cons (w : Worker) (s : Surroundings) (m : Message) (inputs : List (Surroundings × Message)) :
    w.run ((s,m)::inputs)=(w.serve s m).1.run inputs := rfl

@[simp] theorem run_nil (w : Worker) : w.run []=w := rfl

/-- The history so far is contained, and so is every directory in it. -/
structure Kept (w : Worker) : Prop where
  contained : Contained w.options.workspaceRoot w.history
  inside : ∀ root workspace,.opened root workspace ∈ w.history →
    pathIsWithin root w.options.workspaceRoot=true

/-- Launches are looked at one by one, from the latest on. -/
theorem contained_cons {root : Bytes} {e : WorkerEvent} {history : List WorkerEvent}
    (h : Contained root history) (he : ∀ invocation process,e=.launched invocation process →
      pathIsWithin process.workingDirectory root=true ∧
        Opened history process.workingDirectory invocation) : Contained root (e::history) := by
  intro later before invocation process heq
  cases later with
  | nil =>
    simp only [List.nil_append,List.cons.injEq] at heq
    obtain ⟨hlaunch,rfl⟩ := heq
    exact he _ _ hlaunch
  | cons f later =>
    simp only [List.cons_append,List.cons.injEq] at heq
    exact h later before invocation process heq.2

theorem Opened.inside {root directory : Bytes} {invocation : InvocationSpec}
    {history : List WorkerEvent} (ho : Opened history directory invocation)
    (h : ∀ opened workspace,.opened opened workspace ∈ history → pathIsWithin opened root=true) :
    pathIsWithin directory root=true := by
  obtain ⟨opened,workspace,hmem,hkey,_⟩ := ho
  have hin := h opened workspace hmem
  unfold pathIsWithin at hin ⊢
  rwa [← hkey]

theorem Kept.serve (h : w.Kept) (hroot : w.options.workspaceRoot ≠ []) (ht : w.Tied m) :
    (w.serve s m).1.Kept := by
  obtain ⟨hoptions,hh | ⟨root,workspace,hp,hh⟩ | ⟨checked,process,hm,hs,hh⟩⟩ := serve_history w s m
  · constructor
    · rw [hoptions,hh]
      exact h.contained
    · rw [hoptions,hh]
      exact h.inside
  · constructor
    · rw [hoptions,hh]
      exact contained_cons h.contained fun _ _ he => by cases he
    · rw [hoptions,hh]
      intro opened ws hmem
      obtain he | hmem := List.mem_cons.1 hmem
      · cases he
        exact prepareWorkspace_ok hroot hp
      · exact h.inside opened ws hmem
  · obtain ⟨order,horder,rfl,hdir⟩ := startPhase_ok hs
    have ho : Opened w.history process.workingDirectory order.invocation := hdir ▸ ht hm order horder
    constructor
    · rw [hoptions,hh]
      apply contained_cons h.contained
      rintro _ _ he
      cases he
      exact ⟨ho.inside h.inside,ho⟩
    · rw [hoptions,hh]
      intro opened ws hmem
      obtain he | hmem := List.mem_cons.1 hmem
      · cases he
      · exact h.inside opened ws hmem

end Steps

theorem Kept.run {w : Worker} {inputs : List (Surroundings × Message)} (h : w.Kept)
    (hroot : w.options.workspaceRoot ≠ []) (ht : w.TiedRun inputs) : (w.run inputs).Kept := by
  induction inputs generalizing w with
  | nil => exact h
  | cons input inputs ih =>
    obtain ⟨s,m⟩ := input
    have hoptions := (serve_history w s m).1
    exact ih (h.serve hroot ht.1) (hoptions ▸ hroot) ht.2

theorem run_options (w : Worker) (inputs : List (Surroundings × Message)) :
    (w.run inputs).options=w.options := by
  induction inputs generalizing w with
  | nil => rfl
  | cons input inputs ih => exact (ih _).trans (serve_history w input.1 input.2).1

/-- A worker with a configured root launches nothing outside it, and nothing in a directory it has not
opened for the same session and phase, as long as every order it gets is tied to such a directory. -/
theorem contained_of_tied (options : WorkerOptions) (inputs : List (Surroundings × Message))
    (hroot : normalizePath options.workspaceRoot ≠ []) (ht : (connect options).TiedRun inputs) :
    Contained (normalizePath options.workspaceRoot) ((connect options).run inputs).history := by
  have hkept : (connect options).Kept := by
    constructor
    · intro later before invocation process h
      cases later <;> cases h
    · intro root workspace h
      cases h
  have hrun := (hkept.run hroot ht).contained
  rwa [run_options] at hrun

end Worker

/-- What `open` accepts carries the identities and generations it was asked for. -/
theorem FileTree.openWorkspace_identities {files : FileTree} {reparse : Bytes → Bool} {root : Bytes}
    {s : Ref .session} {p : Ref .phase} {workspace : Workspace}
    (h : files.openWorkspace reparse root s.id s.generation p.id p.generation=.ok workspace) :
    s=⟨workspace.session,workspace.sessionGeneration⟩ ∧ p=⟨workspace.phase,workspace.phaseGeneration⟩ := by
  unfold openWorkspace refuse at h
  dsimp only at h
  split_ifs at h with hdefect hsession hphase
  cases h
  simp only [not_or,not_not] at hsession hphase
  obtain ⟨sid,sg⟩ := s
  obtain ⟨pid,pg⟩ := p
  simp only at hsession hphase
  rw [hsession.1,hsession.2,hphase.1,hphase.2]
  exact ⟨rfl,rfl⟩

namespace Sample

def workerOptions : WorkerOptions := { workspaceRoot := ascii "C:\\work" }

def phaseRequest : WorkspaceRequest := ⟨⟨⟨1⟩,⟨1⟩⟩,⟨⟨1⟩,⟨1⟩⟩⟩

/-- An order to run a compiler in a directory. -/
def orderFor (directory : Bytes) : InvocationOrder where
  invocation := { executable := ascii "C:\\cc.exe",session := phaseRequest.session,phase := phaseRequest.phase }
  process := { workingDirectory := directory }

def startMessage (directory : Bytes) : Message :=
  { type := .startPhase,requestId := 7,payload := encodeInvocationOrder (orderFor directory) }

def prepareMessage : Message :=
  { type := .prepareWorkspace,requestId := 6,payload := prepareOrder phaseRequest (ascii "C:\\work\\p") }

/-- A machine with the compiler, a directory of its own and a workspace for the phase. -/
def workerHost : Host where
  files key :=
    if key=ascii "c:\\cc.exe" then some (.file [])
    else if key=ascii "c:\\users" ∨ key=ascii "c:\\work\\p" then some .directory
    else if key=canonicalPathKey (appendPath (ascii "C:\\work\\p") kMarkerName) then
      some (.file (markerContents (markerBody ⟨1⟩ ⟨1⟩ ⟨1⟩ ⟨1⟩ 0)))
    else none

def workerSurroundings : Surroundings := { host := workerHost }

theorem orderFor_decoded (directory : Bytes) (h : directory.length ≤ 100) :
    decodeInvocationOrder (startMessage directory).payload=.ok (orderFor directory).transported := by
  show decodeInvocationOrder (encodeInvocationOrder (orderFor directory))=_
  rw [invocationOrder_recovered]
  have hcap : kMaxFieldBytes=1048576 := rfl
  have hpath : kMaxPathBytes=32768 := rfl
  have hexe : (ascii "C:\\cc.exe").length=9 := by decide
  constructor <;>
    simp [orderFor,InvocationOrder.packedBytes,packedTexts,packedVariables,hcap,hpath,hexe,BoundedTexts] <;>
    omega

/-- The worker takes an order for any directory that exists. -/
theorem startPhase_users :
    (Worker.startPhase {} workerSurroundings (startMessage (ascii "C:\\users")).payload).isOk=true := by
  have hdec := orderFor_decoded (ascii "C:\\users") (by decide)
  unfold Worker.startPhase
  rw [hdec]
  decide +kernel

theorem users_launched : ∃ invocation process,
    ((Worker.connect workerOptions).run [(workerSurroundings,startMessage (ascii "C:\\users"))]).history=
      [.launched invocation process] ∧ process.workingDirectory=ascii "C:\\users" := by
  cases hs : Worker.startPhase {} workerSurroundings (startMessage (ascii "C:\\users")).payload with
  | error e => exact absurd startPhase_users (by simp [hs,Except.isOk,Except.toBool])
  | ok v =>
    obtain ⟨invocation,process⟩ := v
    obtain ⟨order,hdec,_,hdir⟩ := Worker.startPhase_ok hs
    have horder := orderFor_decoded (ascii "C:\\users") (by decide)
    have heq : order=(orderFor (ascii "C:\\users")).transported :=
      Except.ok.inj (hdec.symm.trans horder)
    refine ⟨invocation,process,?_,?_⟩
    · rw [Worker.run_cons,Worker.run_nil]
      exact Worker.serve_start rfl List.not_mem_nil rfl hs
    · rw [hdir,heq]
      rfl

theorem marker_present :
    workerHost.files (canonicalPathKey (appendPath (ascii "C:\\work\\p") kMarkerName))=
      some (.file (markerContents (markerBody ⟨1⟩ ⟨1⟩ ⟨1⟩ ⟨1⟩ 0))) := by
  simp only [workerHost]
  rw [if_neg (by decide),if_neg (by decide),if_pos trivial]

/-- The workspace of the phase is opened for it. -/
theorem workspace_opened : ∃ workspace,
    Worker.prepareWorkspace (Worker.connect workerOptions).options workerHost prepareMessage.payload=
      .ok (ascii "C:\\work\\p",workspace) ∧
    phaseRequest.session=⟨workspace.session,workspace.sessionGeneration⟩ ∧
    phaseRequest.phase=⟨workspace.phase,workspace.phaseGeneration⟩ := by
  obtain ⟨hrequest,hroot⟩ := @read_prepareOrder phaseRequest (ascii "C:\\work\\p") (by decide)
  have hpresent : workerHost.files.present (ascii "C:\\work\\p")=true := by decide
  have hplain : workerHost.reparse (canonicalPathKey (ascii "C:\\work\\p"))=false := rfl
  have hopen := (FileTree.openWorkspace_isOk_iff hpresent hplain marker_present rfl rfl
    phaseRequest.session phaseRequest.phase).2 ⟨rfl,rfl⟩
  cases hw : workerHost.files.openWorkspace workerHost.reparse (ascii "C:\\work\\p") phaseRequest.session.id
      phaseRequest.session.generation phaseRequest.phase.id phaseRequest.phase.generation with
  | error e => simp [hw,Except.isOk,Except.toBool] at hopen
  | ok workspace =>
    refine ⟨workspace,?_,FileTree.openWorkspace_identities hw⟩
    have hnormal : normalizePath (ascii "C:\\work\\p")=ascii "C:\\work\\p" := by decide
    unfold Worker.prepareWorkspace prepareMessage
    simp only [hrequest,hroot,bind,Except.bind,hnormal,hw]
    rw [ensure,if_pos (by decide),ensure,if_pos (by decide)]
    rfl

/-- Prepared and then ordered there, a process is contained. -/
theorem prepared_tied : (Worker.connect workerOptions).TiedRun
    [(workerSurroundings,prepareMessage),(workerSurroundings,startMessage (ascii "C:\\work\\p"))] := by
  obtain ⟨workspace,hp,hs,hph⟩ := workspace_opened
  have hhistory := Worker.serve_prepare (w := Worker.connect workerOptions) (s := workerSurroundings)
    (m := prepareMessage) rfl List.not_mem_nil rfl hp
  refine ⟨fun h => absurd h (by decide),fun _ order horder => ?_,trivial⟩
  have hdec := orderFor_decoded (ascii "C:\\work\\p") (by decide)
  have heq : order=(orderFor (ascii "C:\\work\\p")).transported := Except.ok.inj (horder.symm.trans hdec)
  rw [hhistory,heq]
  exact ⟨_,workspace,List.mem_cons_self,rfl,hs,hph⟩

end Sample

namespace Worker

/-- A worker prepares a workspace and gets an order for it. -/
theorem prepared_order_contained :
    (connect Sample.workerOptions).TiedRun [(Sample.workerSurroundings,Sample.prepareMessage),
      (Sample.workerSurroundings,Sample.startMessage (ascii "C:\\work\\p"))] ∧
    Contained (normalizePath Sample.workerOptions.workspaceRoot)
      ((connect Sample.workerOptions).run [(Sample.workerSurroundings,Sample.prepareMessage),
        (Sample.workerSurroundings,Sample.startMessage (ascii "C:\\work\\p"))]).history :=
  ⟨Sample.prepared_tied,contained_of_tied _ _ (by decide) Sample.prepared_tied⟩

/-- An order alone, with nothing prepared, runs a compiler outside the configured root. -/
theorem unprepared_order_launched : ¬Contained (normalizePath Sample.workerOptions.workspaceRoot)
    ((connect Sample.workerOptions).run
      [(Sample.workerSurroundings,Sample.startMessage (ascii "C:\\users"))]).history := by
  obtain ⟨invocation,process,hhistory,hdir⟩ := Sample.users_launched
  rw [hhistory]
  intro h
  have hin := (h [] [] invocation process rfl).1
  rw [hdir] at hin
  exact absurd hin (by decide)

end Worker

end CompilerFabric
