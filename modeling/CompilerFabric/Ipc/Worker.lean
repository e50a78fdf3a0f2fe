import CompilerFabric.Ipc.Channel
import CompilerFabric.Ipc.Messages
import CompilerFabric.Runtime.Marker

namespace CompilerFabric

open Base (Bytes)

def StatusCode.protocolUnknownOperation : StatusCode := ⟨105⟩

namespace MessageType

def helloAck : MessageType := ⟨2⟩
def prepareWorkspace : MessageType := ⟨20⟩
def workspaceReady : MessageType := ⟨21⟩
def startPhase : MessageType := ⟨22⟩
def phaseStarted : MessageType := ⟨23⟩
def cancelPhase : MessageType := ⟨24⟩
def phaseCancelled : MessageType := ⟨25⟩
def shutdown : MessageType := ⟨50⟩
def shutdownAck : MessageType := ⟨51⟩

/-- The names of the types 0 to 5, 10 to 15, 20 to 36 and 40 to 56. -/
def names : List (Nat × List String) :=
  [(0,["INVALID","HELLO","HELLO_ACK","PING","PONG","ERROR"]),
    (10,["CREATE_SESSION","SESSION_CREATED","QUERY_SESSION","SESSION_REPORT","LIST_SESSIONS",
      "SESSION_LIST"]),
    (20,["PREPARE_WORKSPACE","WORKSPACE_READY","START_PHASE","PHASE_STARTED","CANCEL_PHASE",
      "PHASE_CANCELLED","REPORT_PROCESS","PROCESS_REPORTED","REPORT_OUTPUT","OUTPUT_REPORTED",
      "COMMIT_PHASE","PHASE_COMMITTED","FAIL_PHASE","PHASE_FAILED","RETRY_PHASE","QUERY_AUTHORITY",
      "AUTHORITY_REPORT"]),
    (40,["VALIDATE_ARTIFACT","ARTIFACT_REPORT","QUERY_DIAGNOSTICS","DIAGNOSTICS_REPORT",
      "RECOVER_SESSION","RECOVERY_REPORT","SNAPSHOT","SNAPSHOT_REPORT","AUDIT","AUDIT_REPORT",
      "SHUTDOWN","SHUTDOWN_ACK","REFRESH_TOOLCHAIN","TOOLCHAIN_REPORT","INVALIDATE_TOOLCHAIN",
      "RUN_SESSION","SESSION_RAN"])]

def text (t : MessageType) : String :=
  (names.findSome? fun (first,block) =>
    if first ≤ t.raw.toNat then block[t.raw.toNat-first]? else none).getD "INVALID"

end MessageType

namespace FieldReader

variable {σ : Type}

/-- The loop of the decoders: `visit` at every field until `next` reports the end. -/
def each (visit : σ → FieldReader → Result σ) (s : σ) (r : FieldReader) : Result (σ × FieldReader) :=
  match h : r.next with
  | .error e => .error e
  | .ok (false,r') => .ok (s,r')
  | .ok (true,r') =>
    have _ := next_lt h
    match visit s r' with
    | .error e => .error e
    | .ok s => each visit s r'
termination_by r.payload.length-r.cursor

variable {visit : σ → FieldReader → Result σ} {s : σ}

theorem each_end {r r' : FieldReader} (h : r.next=.ok (false,r')) : each visit s r=.ok (s,r') := by
  rw [each]
  split <;> simp_all

theorem each_more {r r' : FieldReader} (h : r.next=.ok (true,r')) :
    each visit s r=(visit s r').bind fun s => each visit s r' := by
  rw [each]
  split
  · simp_all
  · simp_all
  · next q hq =>
    have hr : r'=q := by simp_all
    subst hr
    cases visit s r' <;> rfl

/-- A visit that looks at the field alone folds over the fields of the payload. -/
theorem each_fields (visit : σ → FieldReader → Result σ) (fold : σ → Field → Result σ) (hvisit : ∀ s r,visit s r=fold s r.field)
    {r : FieldReader} {fs : List Field} (hw : r.Within) (h : r.Fields fs) {out : σ}
    (hout : fs.foldlM fold s=.ok out) :
    ∃ last,each visit s r=.ok (out,last) ∧ last.finish=.ok () := by
  induction fs generalizing r s with
  | nil =>
    have hrest : r.rest=[] := by simpa using h.rest
    have hend := (rest_eq_nil hw).1 hrest
    have hnext : r.next=.ok (false,r) := by simp [next,hend]
    cases hout
    exact ⟨r,each_end hnext,finish_of_rest hw hrest⟩
  | cons f fs ih =>
    obtain ⟨hf,hasc⟩ := List.pairwise_cons.1 h.ascending
    obtain ⟨r',hnext,hw',hfield,hrest,_,hid⟩ := next_record (t := fs.flatMap Field.record)
      (by simpa using h.rest) (h.bounded f (by simp)) fun hl => h.above hl f (by simp)
    rw [List.foldlM_cons] at hout
    obtain ⟨s',hs',hout⟩ := Base.do_eq_ok.1 hout
    obtain ⟨last,hl,hfin⟩ := ih hw' ⟨hrest,hasc,fun _ g hg => hid ▸ hf g hg,
      fun g hg => h.bounded g (by simp [hg])⟩ hout
    refine ⟨last,?_,hfin⟩
    rw [each_more hnext,hvisit,hfield,hs']
    exact hl

end FieldReader

def encodeHello (runtimeName role : Bytes) (epoch : UInt64) (detail : Bytes) : Bytes :=
  ((((({} : FieldWriter).text 1 runtimeName).text 2 role).u64 3 epoch).text 4 detail).u32 5 1 |>.take

/-- The session and the phase a workspace is asked for. -/
structure WorkspaceRequest where
  session : Ref .session := {}
  phase : Ref .phase := {}
deriving DecidableEq

namespace WorkspaceRequest

/-- The numbered field of a request; other ids are passed over. -/
def read (request : WorkspaceRequest) (r : FieldReader) : Result WorkspaceRequest :=
  if r.currentId<1 ∨ 4<r.currentId then .ok request
  else do
    let value ← r.asU64
    if r.currentId=1 then return { request with session := ⟨⟨value⟩,request.session.generation⟩ }
    else if r.currentId=2 then return { request with session := ⟨request.session.id,⟨value⟩⟩ }
    else if r.currentId=3 then return { request with phase := ⟨⟨value⟩,request.phase.generation⟩ }
    else return { request with phase := ⟨request.phase.id,⟨value⟩⟩ }

end WorkspaceRequest

def decodeWorkspaceRequest (payload : Bytes) : Result WorkspaceRequest := do
  let (request,r) ← FieldReader.each WorkspaceRequest.read {} { payload := payload }
  r.finish
  return request

/-- The second pass of the worker over the same payload, for the root in field 5. -/
def orderedRoot (payload : Bytes) : Result Bytes := do
  let (root,_) ← FieldReader.each (fun root r => if r.currentId=5 then r.asText else .ok root) []
    { payload := payload }
  return root

/-- The payload of `prepare_workspace` as the coordinator writes it. -/
def prepareOrder (request : WorkspaceRequest) (root : Bytes) : Bytes :=
  (((((({} : FieldWriter).u64 1 request.session.id.value).u64 2 request.session.generation.value).u64
    3 request.phase.id.value).u64 4 request.phase.generation.value).blob 5 root).take

/-- The worker reads from it what the coordinator wrote. -/
theorem read_prepareOrder (request : WorkspaceRequest) {root : Bytes} (h : root.length ≤ kMaxFieldBytes) :
    decodeWorkspaceRequest (prepareOrder request root)=.ok request ∧
      orderedRoot (prepareOrder request root)=.ok root := by
  let calls : List FieldCall := [.u64 1 request.session.id.value,.u64 2 request.session.generation.value,
    .u64 3 request.phase.id.value,.u64 4 request.phase.generation.value,.blob 5 root]
  have hcap : 8 ≤ kMaxFieldBytes := by decide
  have hfields := FieldCall.payload_fields calls (by simp [calls,FieldCall.field]) (by
    simp [calls,FieldCall.field,h,hcap])
  have hw : ({ payload := prepareOrder request root } : FieldReader).Within := Nat.zero_le _
  have hu (id : UInt16) (v : UInt64) :
      FieldReader.asU64 { payload := [],currentId := id,currentValue := Base.leBytes 8 v.toNat }=.ok v := by
    simp [FieldReader.asU64,Base.leValue_leBytes 8 _ v.toNat_lt]
  constructor
  · have hfold : (calls.map FieldCall.field).foldlM (fun s f => WorkspaceRequest.read s
        { payload := [],currentId := f.id,currentValue := f.value }) {}=.ok request := by
      simp [calls,FieldCall.field,WorkspaceRequest.read,hu,bind,Except.bind,pure,Except.pure]
    obtain ⟨last,hl,hfin⟩ := FieldReader.each_fields WorkspaceRequest.read _ (fun _ _ => rfl) hw hfields hfold
    rw [decodeWorkspaceRequest,hl]
    simp only [bind,Except.bind,hfin]
    rfl
  · have hfold : (calls.map FieldCall.field).foldlM
        (fun root f => if f.id=5 then Except.ok f.value else .ok root) []=(.ok root : Result Bytes) := by
      simp [calls,FieldCall.field,bind,Except.bind,pure,Except.pure]
    obtain ⟨last,hl,_⟩ := FieldReader.each_fields (fun root r => if r.currentId=5 then r.asText else .ok root)
      _ (fun _ _ => rfl) hw hfields hfold
    rw [orderedRoot,hl]
    rfl

structure WorkerOptions where
  name : Bytes := ascii "crf-worker"
  workspaceRoot : Bytes := []
  connection : ConnectionOptions := {}
  /-- 0 means never. -/
  maxRequests : Nat := 0

structure ProcessSupervisorOptions where
  maxCaptureBytes : UInt64 := kDefaultCaptureBytes
  defaultTimeoutMillis : UInt32 := 0

/-- What the machine does to one message: its files while the message is checked, its environment, what
becomes of the process, its files afterwards, and whether the reply can be sent. -/
structure Surroundings where
  host : Host := {}
  ambient : List EnvironmentVariable := []
  /-- The minimal environment of the loader. -/
  loader : Result (List EnvironmentVariable) := .ok []
  outcome : Result ProcessOutcome := .ok {}
  after : FileTree := fun _ => none
  sent : Bool := true

/-- One variable of a spec over the ambient ones: the first of its name is replaced. -/
def overlayVariable (merged : List EnvironmentVariable) (v : EnvironmentVariable) :
    List EnvironmentVariable :=
  match merged.findIdx? fun existing => equalsAsciiCi existing.name v.name with
  | some i => merged.modify i fun existing => { existing with value := v.value }
  | none => merged++[v]

/-- `ProcessSupervisor::spawn` up to the creation of the process: the spec in force. -/
def ProcessSpec.spawn (options : ProcessSupervisorOptions) (s : Surroundings) (spec : ProcessSpec) :
    Result ProcessSpec := do
  let environment :=
    if spec.inheritAmbientEnvironment then
      (spec.environment.foldl overlayVariable s.ambient).insertionSort fun a b =>
        !lessAsciiCi b.name a.name
    else spec.environment
  let environment := if environment.isEmpty then s.loader.toOption.getD environment else environment
  let effective := { spec with
    environment
    maxCaptureBytes := if spec.maxCaptureBytes=0 then options.maxCaptureBytes else spec.maxCaptureBytes
    timeoutMillis := if spec.timeoutMillis=0 then options.defaultTimeoutMillis else spec.timeoutMillis }
  effective.validate s.host
  return effective

/-- What the worker has opened and launched, as far as the outside can tell. -/
inductive WorkerEvent where
  | opened (root : Bytes) (workspace : Workspace)
  | launched (invocation : InvocationSpec) (process : ProcessSpec)

/-- The worker, with the history of what it did, latest first. -/
structure Worker where
  options : WorkerOptions := {}
  processes : ProcessSupervisorOptions := {}
  executed : Nat := 0
  shutdownRequested : Bool := false
  recent : List UInt64 := []
  served : Nat := 0
  stopped : Bool := false
  history : List WorkerEvent := []

namespace Worker

/-- `prepare_workspace` up to the reply. -/
def prepareWorkspace (options : WorkerOptions) (host : Host) (payload : Bytes) :
    Result (Bytes × Workspace) := do
  let request ← decodeWorkspaceRequest payload
  let root ← orderedRoot payload
  ensure (¬root.isEmpty) (.of .invalidArgument "workspace root was not supplied")
  let workspaceRoot := normalizePath root
  ensure (options.workspaceRoot.isEmpty ∨ pathIsWithin workspaceRoot options.workspaceRoot)
    (.of .workspaceEscape "ordered workspace is outside the worker's permitted root")
  let workspace ← host.files.openWorkspace host.reparse workspaceRoot request.session.id
    request.session.generation request.phase.id request.phase.generation
  return (workspaceRoot,workspace)

def validationContext : InvocationValidationContext :=
  { targetArchitecture := ⟨2⟩,requireComponentIdentity := false }

/-- The process an order asks for: the executable and arguments of the checked invocation, the rest
as the order says it. -/
def effectiveProcess (process ordered : ProcessSpec) : ProcessSpec :=
  { process with
    environment := ordered.environment
    timeoutMillis := ordered.timeoutMillis
    maxCaptureBytes := if ordered.maxCaptureBytes=0 then kDefaultCaptureBytes else ordered.maxCaptureBytes
    workingDirectory := ordered.workingDirectory }

/-- `start_phase` up to the launch. -/
def startPhase (processes : ProcessSupervisorOptions) (s : Surroundings) (payload : Bytes) :
    Result (InvocationSpec × ProcessSpec) := do
  let order ← decodeInvocationOrder payload
  let checked ← validateInvocation s.host validationContext order.invocation
  if !checked.executableIdentity.content.zero then
    let observed ← s.host.probe checked.executable
    ensure (observed.content=checked.executableIdentity.content) (.of .componentMutated
      "the ordered executable no longer matches the digest it was ordered with")
  let process ← checked.toProcessSpec s.host
  let effective ← (effectiveProcess process order.process).spawn processes s
  return (checked,effective)

def describe (files : FileTree) (binding : OutputBinding) : OutputDescriptor :=
  let descriptor : OutputDescriptor :=
    { logicalName := binding.logicalName,path := binding.path,format := binding.expectedFormat }
  match files (canonicalPathKey binding.path) with
  | some (.file contents) => { descriptor with
      present := true
      sizeBytes := UInt64.ofNat contents.length
      content := Digest.of contents }
  | _ => descriptor

def report (s : Surroundings) (checked : InvocationSpec) (outcome : ProcessOutcome) : ExecutionReport :=
  { executed := true
    process := outcome
    status := outcome.status.code
    detail := outcome.status.message
    outputs := checked.expectedOutputs.map (describe s.after) }

/-- The fields of `cancel_phase` are read and not used. -/
def readCancel (_ : Unit) (r : FieldReader) : Result Unit :=
  if r.currentId=1 ∨ r.currentId=2 then r.asU64.map fun _ => ()
  else if r.currentId=3 then r.asText.map fun _ => () else .ok ()

def failure (request : Message) (status : Status) : Message :=
  { type := .error
    requestId := request.requestId
    payload := encodeError status.code status.message }

def handle (w : Worker) (s : Surroundings) (request : Message) : Worker × Message :=
  if request.type=.hello then
    (w,{ type := .helloAck,payload := encodeHello w.options.name (ascii "worker") 0 (ascii "worker ready") })
  else if request.type=.ping then (w,{ type := .pong })
  else if request.type=.prepareWorkspace then
    match prepareWorkspace w.options s.host request.payload with
    | .error e => (w,failure request e)
    | .ok (root,workspace) =>
        ({ w with history := .opened root workspace::w.history },
          { type := .workspaceReady
            payload := ((({} : FieldWriter).boolean 1 true).blob 2 workspace.markerDigest.toHex).take })
  else if request.type=.startPhase then
    match startPhase w.processes s request.payload with
    | .error e => (w,failure request e)
    | .ok (checked,process) =>
        let w := { w with history := .launched checked process::w.history }
        match s.outcome with
        | .error e => (w,failure request e)
        | .ok outcome =>
            ({ w with executed := w.executed+1 },
              { type := .phaseStarted,payload := encodeExecutionReport (report s checked outcome) })
  else if request.type=.cancelPhase then
    match FieldReader.each readCancel () { payload := request.payload } with
    | .error e => (w,failure request e)
    | .ok _ => (w,{ type := .phaseCancelled })
  else if request.type=.shutdown then
    ({ w with shutdownRequested := true },{ type := .shutdownAck })
  else (w,failure request ⟨.protocolUnknownOperation,
    ascii "unsupported worker operation "++ascii request.type.text⟩)

/-- One turn of `WorkerService::serve`, with the reply it sends. -/
def serve (w : Worker) (s : Surroundings) (inbound : Message) : Worker × Option Message :=
  if w.stopped then (w,none)
  else match noteRequest w.options.connection w.recent inbound.requestId with
    | none => (w,some (failure inbound (.of .protocolDuplicateRequest
        "this request id was already served on this connection")))
    | some recent =>
        let (next,reply) := handle { w with recent } s inbound
        ({ next with
            served := next.served+1
            stopped := !s.sent || next.shutdownRequested ||
              (decide (w.options.maxRequests ≠ 0) && decide (w.options.maxRequests ≤ next.served+1)) },
          some { reply with requestId := inbound.requestId })

def run (w : Worker) (inputs : List (Surroundings × Message)) : Worker :=
  inputs.foldl (fun w (s,m) => (w.serve s m).1) w

/-- The worker `connect` sets up. -/
def connect (options : WorkerOptions) : Worker :=
  { options := { options with workspaceRoot := normalizePath options.workspaceRoot } }

end Worker

end CompilerFabric
