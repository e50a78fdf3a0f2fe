import CompilerFabric.Ipc.Executor
import CompilerFabric.Ipc.References
import CompilerFabric.Law.Rotation
import CompilerFabric.Runtime.Audit
import CompilerFabric.Runtime.System

namespace CompilerFabric

open Base (Bytes Format)

namespace MessageType

def createSession : MessageType := ⟨10⟩
def sessionCreated : MessageType := ⟨11⟩
def querySession : MessageType := ⟨12⟩
def sessionReport : MessageType := ⟨13⟩
def sessionList : MessageType := ⟨15⟩
def reportOutput : MessageType := ⟨28⟩
def outputReported : MessageType := ⟨29⟩
def commitPhase : MessageType := ⟨30⟩
def phaseCommitted : MessageType := ⟨31⟩
def retryPhase : MessageType := ⟨34⟩
def queryAuthority : MessageType := ⟨35⟩
def authorityReport : MessageType := ⟨36⟩
def queryDiagnostics : MessageType := ⟨42⟩
def diagnosticsReport : MessageType := ⟨43⟩
def recoverSession : MessageType := ⟨44⟩
def recoveryReport : MessageType := ⟨45⟩
def snapshot : MessageType := ⟨46⟩
def snapshotReport : MessageType := ⟨47⟩
def audit : MessageType := ⟨48⟩
def auditReport : MessageType := ⟨49⟩
def refreshToolchain : MessageType := ⟨52⟩
def toolchainReport : MessageType := ⟨53⟩
def invalidateToolchain : MessageType := ⟨54⟩
def runSession : MessageType := ⟨55⟩
def sessionRan : MessageType := ⟨56⟩

end MessageType

/-- The violation codes, each at its value. -/
def ViolationCode.values : List ViolationCode :=
  [.none,.duplicateSessionId,.nonMonotonicGeneration,.multipleCurrentPhaseStates,
    .committedPhaseWithoutInvocation,.committedPhaseStaleAuthority,.staleInvocationRetainsAuthority,
    .phaseConsumesUncommittedInput,.orphanIntermediateAuthoritative,.finalCandidateIncompleteLineage,
    .duplicateLogicalPhaseCommit,.retiredPhaseExecutable,.cancelledPhaseCommitted,
    .staleProcessResultCurrent,.invalidFanIn,.corruptPersistedStateAccepted,
    .artifactWithoutProvenance,.planDefect,.sessionGenerationRegression,.authorityBindingMismatch,
    .diagnosticSetOrphan,.intermediateConsumableWithoutValidState,.candidateWithoutValidationEvidence,
    .illegalPhaseTransitionRecorded,.fencedPhaseCommitted,.leaseOutstandingAfterRetire,
    .liveProcessForRetiredPhase,.attemptHistoryUnbounded,.sessionStateInconsistent,
    .recoveryStateInconsistent]

theorem ViolationCode.mem_values (code : ViolationCode) : code ∈ values := by
  cases code <;> decide

theorem PhaseState.values_few : PhaseState.values.length ≤ 256 := by decide

theorem FailureClass.values_few : FailureClass.values.length ≤ 256 := by decide

def RecoveryOutcome.raw : RecoveryOutcome → UInt8
  | none => 0 | restartPhase => 1 | resumeFromCommittedPhase => 2 | revalidateIntermediate => 3
  | rebuildIntermediate => 4 | restartSession => 5 | cancel => 6 | terminalFailure => 7
  | manualResolutionRequired => 8 | unsupported => 9

/-- The two durations of a phase report. -/
structure PhaseTimes where
  compilerNanos : UInt64 := 0
  governanceNanos : UInt64 := 0
deriving DecidableEq

namespace Payload

open Codec

def phaseState (e : Status) : Format Status PhaseState :=
  .cast PhaseState.values PhaseState.mem_values PhaseState.values_few .pending e

def failureClass (e : Status) : Format Status FailureClass :=
  .cast FailureClass.values FailureClass.mem_values FailureClass.values_few .none e

def authorityVerdict (e : Status) : Format Status AuthorityVerdict :=
  .view AuthorityVerdict.raw AuthorityVerdict.mk Eq.refl Eq.refl (u8 e)

/-- `encode_phase_report`/`decode_phase_report`: all but the retry decision. -/
def phaseReport : Format Status (PhaseRunReport × PhaseTimes) :=
  let e := protocolMalformed "phase report is malformed"
  .projected
    (fun (r,t) => (r.phase,r.state,r.status,r.failure,r.diagnostics,r.invocation,r.process,
      t.compilerNanos,t.governanceNanos,r.authority,r.detail,r.outputs))
    (fun (p,st,s,f,ds,inv,pr,cn,gn,au,d,os) =>
      ({ phase := p,state := st,status := s,failure := f,diagnostics := ds,invocation := inv
         process := pr,outputs := os,authority := au,detail := d },⟨cn,gn⟩))
    (fun _ => rfl) <|
  (reference e).pair <| (phaseState e).pair <| (statusCode e).pair <| (failureClass e).pair <|
  (reference e).pair <| (reference e).pair <| (identity e).pair <| (u64 e).pair <| (u64 e).pair <|
  (authorityVerdict e).pair <| (str e (2^16)).pair <|
  crowd "phase report declares too many outputs" e (reference e) 256

def violation (e : Status) : Format Status AuditViolation :=
  .view (fun v => (v.code,v.subject,v.detail)) (fun (c,s,d) => ⟨c,s,d⟩) (fun _ => rfl) (fun _ => rfl) <|
  (Format.cast ViolationCode.values ViolationCode.mem_values (by decide) .none e).pair <|
  (str e 4096).pair <| str e (2^16)

def total (e : Status) : Format Status Nat :=
  .projected UInt64.ofNat UInt64.toNat (fun _ => UInt64.ofNat_toNat) (u64 e)

/-- `encode_audit_report`/`decode_audit_report`: all but the time of completion. -/
def auditReport : Format Status AuditReport :=
  let e := protocolMalformed "audit report is malformed"
  .projected
    (fun r => (r.checksRun,r.sessionsAudited,r.phasesAudited,r.artifactsAudited,r.runtimeEpoch,
      r.violations))
    (fun (c,s,p,a,e,vs) => { violations := vs,checksRun := c,sessionsAudited := s,phasesAudited := p
                             artifactsAudited := a,runtimeEpoch := e })
    (fun _ => rfl) <|
  (total e).pair <| (total e).pair <| (total e).pair <| (total e).pair <| (u64 e).pair <|
  crowd "audit report declares too many violations" e (violation e)

end Payload

def encodePhaseReport (report : PhaseRunReport) (times : PhaseTimes) : Bytes :=
  blobPayload (Payload.phaseReport.write (report,times))

def decodePhaseReport (payload : Bytes) : Result (PhaseRunReport × PhaseTimes) := do
  let blob ← fieldBlob payload 1
  Payload.phaseReport.readAll (protocolMalformed "phase report has trailing bytes") blob

def encodeAuditReport (report : AuditReport) : Bytes := blobPayload (Payload.auditReport.write report)

def encodeSessionSummary (session : CompilerSession) : Bytes := blobPayload (encodeSession session)

/-- The numbered field of a greeting; other ids are passed over. -/
def readHello (hello : Bytes × Bytes × UInt64 × Bytes) (r : FieldReader) :
    Result (Bytes × Bytes × UInt64 × Bytes) := do
  let (name,role,epoch,detail) := hello
  if r.currentId=1 then return (← r.asText,role,epoch,detail)
  else if r.currentId=2 then return (name,← r.asText,epoch,detail)
  else if r.currentId=3 then return (name,role,← r.asU64,detail)
  else if r.currentId=4 then return (name,role,epoch,← r.asText)
  else return hello

def decodeHelloDetail (payload : Bytes) : Result Bytes := do
  let ((name,role,epoch,detail),r) ← FieldReader.each readHello ([],[],0,[]) { payload := payload }
  r.finish
  return role++ascii "|"++name++ascii "|"++decimal epoch.toNat++ascii "|"++detail

namespace Coordinator

/-- What a request asks of the coordinator. -/
inductive Order
  | hello (detail : Bytes)
  | ping
  | refreshToolchain (id : ToolchainId)
  | invalidateToolchain (id : ToolchainId) (reason : Bytes)
  | recoverSession (session : CompilerSessionId)
  | createSession (request : CompileRequest)
  | runSession (session : CompilerSessionId)
  | querySession (session : CompilerSessionId)
  | sessionList
  | startPhase (session : CompilerSessionId) (phase : CompilerPhaseId)
  | retryPhase (session : CompilerSessionId) (phase : CompilerPhaseId)
  | commitPhase (reference : PhaseReference)
  | reportOutput (reference : PhaseReference)
  | cancelPhase (session : CompilerSessionId) (phase : CompilerPhaseId) (reason : Bytes)
  | queryAuthority (session : CompilerSessionId) (phase : CompilerPhaseId)
  | queryDiagnostics (id : DiagnosticSetId)
  | snapshot
  | audit
  | shutdown

/-- The first field as a number, whatever its id. -/
def firstNumber (payload : Bytes) : Result UInt64 := do
  let (_,r) ← FieldReader.next { payload := payload }
  r.asU64

/-- The session and the phase of `start_phase`. Where there is no second field, `next` leaves the
reader on the first. -/
def startedPhase (payload : Bytes) : Result (CompilerSessionId × CompilerPhaseId) := do
  let (_,r) ← FieldReader.next { payload := payload }
  let session ← r.asU64
  let (_,r) ← r.next
  let phase ← r.asU64
  return (⟨session⟩,⟨phase⟩)

/-- The session and the phase of `retry_phase` and `query_authority`. -/
def namedPhase (payload : Bytes) : Result (CompilerSessionId × CompilerPhaseId) := do
  let (values,_) ← FieldReader.each (FieldReader.readNumber 2) [0,0] { payload := payload }
  return (⟨values.getD 0 0⟩,⟨values.getD 1 0⟩)

def readToolchain (order : UInt64 × Bytes) (r : FieldReader) : Result (UInt64 × Bytes) := do
  if r.currentId=1 then return (← r.asU64,order.2)
  else if r.currentId=2 then return (order.1,← r.asText)
  else return order

def toolchainOrder (payload : Bytes) : Result (UInt64 × Bytes) := do
  let (order,_) ← FieldReader.each readToolchain (0,[]) { payload := payload }
  return order

def readCancel (order : List UInt64 × Bytes) (r : FieldReader) : Result (List UInt64 × Bytes) := do
  if r.currentId=1 ∨ r.currentId=2 then
    return (order.1.set (r.currentId.toNat-1) (← r.asU64),order.2)
  else if r.currentId=3 then return (order.1,← r.asText)
  else return order

def cancelOrder (payload : Bytes) : Result (CompilerSessionId × CompilerPhaseId × Bytes) := do
  let ((values,reason),_) ← FieldReader.each readCancel ([0,0],[]) { payload := payload }
  return (⟨values.getD 0 0⟩,⟨values.getD 1 0⟩,reason)

def Order.read (request : Message) : Result Order :=
  let type := request.type
  let payload := request.payload
  if type=.hello then (decodeHelloDetail payload).map .hello
  else if type=.ping then .ok .ping
  else if type=.refreshToolchain then
    (toolchainOrder payload).map fun order => .refreshToolchain ⟨order.1⟩
  else if type=.invalidateToolchain then
    (toolchainOrder payload).map fun order => .invalidateToolchain ⟨order.1⟩ order.2
  else if type=.recoverSession then (firstNumber payload).map fun id => .recoverSession ⟨id⟩
  else if type=.createSession then (decodeCompileRequest payload).map .createSession
  else if type=.runSession then (firstNumber payload).map fun id => .runSession ⟨id⟩
  else if type=.querySession then (firstNumber payload).map fun id => .querySession ⟨id⟩
  else if type=.sessionList then .ok .sessionList
  else if type=.startPhase then (startedPhase payload).map fun (s,p) => .startPhase s p
  else if type=.retryPhase then (namedPhase payload).map fun (s,p) => .retryPhase s p
  else if type=.commitPhase then (decodePhaseReference payload).map .commitPhase
  else if type=.reportOutput then (decodePhaseReference payload).map .reportOutput
  else if type=.cancelPhase then (cancelOrder payload).map fun (s,p,reason) => .cancelPhase s p reason
  else if type=.queryAuthority then (namedPhase payload).map fun (s,p) => .queryAuthority s p
  else if type=.queryDiagnostics then (firstNumber payload).map fun id => .queryDiagnostics ⟨id⟩
  else if type=.snapshot then .ok .snapshot
  else if type=.audit then .ok .audit
  else if type=.shutdown then .ok .shutdown
  else .error ⟨.protocolUnknownOperation,ascii "unsupported operation "++ascii type.text⟩

/-- What a handler waits for, when it has made a call. -/
inductive Duty
  /-- `create_session` is behind the discovery of its toolchain. -/
  | discovery (request : CompileRequest)
  | creation
  | recovery
  | session (id : CompilerSessionId)
  /-- The phase call is answered with a reply of this type. -/
  | phase (reply : MessageType)
  | toolchain (mutation : ToolchainMutation)
  | cancellation

/-- A handler at work on a request, with the call it has made. -/
structure Handling where
  request : Message
  duty : Duty
  call : Nat

/-- What a handler answered, and the call it had made last. -/
structure Answer where
  request : Message
  call : Option Nat
  reply : Message

end Coordinator

/-- A connection the coordinator has accepted. Its reader thread hands on one request at a time. -/
structure Peer where
  handling : Option Coordinator.Handling := none
  /-- What was answered, latest first. -/
  answers : List Coordinator.Answer := []

/-- What one step of a handler meets. -/
structure Turn where
  world : World := {}
  times : PhaseTimes := {}
  snapshot : SnapshotOutcome := .replaced
  liveProcesses : Nat := 0

/-- `CoordinatorService` over its runtime, with the connections in the order they were accepted. -/
structure Coordinator where
  runtimeName : Bytes := []
  sys : System := {}
  snapshotFile : Option Bytes := none
  peers : List Peer := []
  /-- The connection adopted as the execution backend. -/
  worker : Option Nat := none
  shutdownRequested : Bool := false

namespace Runtime

/-- `Runtime::require_session`. -/
def sessionAt (rt : Runtime) (id : CompilerSessionId) : Result CompilerSession :=
  (rt.find id).elim (.error ⟨.notFound,ascii "session is not registered: "++id.toText⟩) .ok

def checkAuthority (rt : Runtime) (now : UInt64) (session : CompilerSessionId)
    (phase : CompilerPhaseId) : Result AuthorityVerdict := do
  let found ← (rt.find session).elim (refuse .notFound "session is not registered") .ok
  let record ← (found.findPhase phase).elim (refuse .notFound "phase is not registered") .ok
  return compareAuthority (authorityFromSession found record) { rt.observe found with
    phaseGeneration := record.generation
    attemptGeneration := record.attemptGeneration
    lease := record.lease
    leaseHeld := rt.leases.isHeld record.lease now }

/-- The mutation a move of the toolchains reports. -/
def mutationBy (rt : Runtime)
    (move : ToolchainRegistry → Result (ToolchainMutation × ToolchainRegistry)) : ToolchainMutation :=
  ((move rt.toolchains).toOption.map (·.1)).getD {}

end Runtime

namespace Coordinator

/-- What the handler gives, under the id of the request. -/
def respond (request : Message) : Result Message → Message
  | .ok m => { m with requestId := request.requestId }
  | .error e => Worker.failure request e

/-- The handler of a connection returns. -/
def answer (c : Coordinator) (peer : Nat) (request : Message) (call : Option Nat)
    (reply : Result Message) : Coordinator :=
  { c with peers := c.peers.modify peer fun p =>
      { handling := none,answers := ⟨request,call,respond request reply⟩::p.answers } }

/-- The handler makes a call of the runtime. -/
def call (c : Coordinator) (peer : Nat) (request : Message) (t : Turn) (command : Command)
    (duty : Duty) : Coordinator :=
  { c with
    sys := c.sys.apply (.call command t.world)
    peers := c.peers.modify peer fun p =>
      { p with handling := some ⟨request,duty,c.sys.calls.length⟩ } }

def summary (c : Coordinator) (type : MessageType) (id : CompilerSessionId) : Result Message :=
  (c.sys.rt.sessionAt id).map fun session => { type,payload := encodeSessionSummary session }

def recoveryReport (plan : RecoveryPlan) : Message :=
  { type := .recoveryReport
    payload := (((({} : FieldWriter).u8 1 plan.headline.raw).boolean 2 plan.legal).boolean 3
      plan.requiresOperator |>.text 4 plan.rationale).take }

def toolchainReport (mutation : ToolchainMutation) : Message :=
  { type := .toolchainReport
    payload := ((({} : FieldWriter).boolean 1 mutation.mutated).u64 2
      mutation.currentGeneration.value |>.text 3 mutation.detail).take }

def isWorker (detail : Bytes) : Bool := (ascii "worker|").isPrefixOf detail

/-- `handle` on a request that was understood. -/
def serve (c : Coordinator) (peer : Nat) (request : Message) (t : Turn) : Order → Coordinator
  | .hello detail =>
      { c with worker := if isWorker detail then some peer else c.worker }.answer peer request none
        (.ok { type := .helloAck
               payload := encodeHello c.runtimeName (ascii "coordinator") c.sys.rt.epoch
                 (ascii (if isWorker detail then "worker registered" else "client")) })
  | .ping => c.answer peer request none (.ok { type := .pong })
  | .refreshToolchain id => c.call peer request t (.refreshToolchain id)
      (.toolchain (c.sys.rt.mutationBy fun r => t.world.reprobed.bind r.refresh))
  | .invalidateToolchain id reason => c.call peer request t (.invalidateToolchain id reason)
      (.toolchain (c.sys.rt.mutationBy (·.invalidate id reason)))
  | .recoverSession session => c.call peer request t (.applyRecovery session) .recovery
  | .createSession wanted =>
      if (c.sys.rt.toolchains.findLatest wanted.toolchainFamily).isNone then
        c.call peer request t (.discoverToolchain wanted.toolchainFamily) (.discovery wanted)
      else c.call peer request t (.createSession wanted) .creation
  | .runSession session => c.call peer request t (.runSession session) (.session session)
  | .querySession session => c.answer peer request none (c.summary .sessionReport session)
  | .sessionList =>
      let sessions := c.sys.rt.listSessions
      c.answer peer request none (.ok {
        type := .sessionList
        payload := blobPayload (canonicalU64 sessions.length++
          sessions.flatMap fun session => canonicalText (encodeSession session)) })
  | .startPhase session phase =>
      c.call peer request t (.runPhase session phase) (.phase .phaseStarted)
  | .retryPhase session phase =>
      c.call peer request t (.retryPhase session phase) (.phase .phaseStarted)
  | .commitPhase (session,phase,generation,invocation) =>
      c.call peer request t (.commitPhase session phase generation invocation) (.phase .phaseCommitted)
  | .reportOutput (session,phase,generation,invocation) =>
      c.call peer request t (.commitPhase session phase generation invocation) (.phase .outputReported)
  | .cancelPhase session phase reason =>
      c.call peer request t (.cancelPhase session phase reason) .cancellation
  | .queryAuthority session phase => c.answer peer request none
      ((c.sys.rt.checkAuthority t.world.now session phase).map fun verdict =>
        { type := .authorityReport,payload := (FieldWriter.u8 {} 1 verdict.raw).take })
  | .queryDiagnostics id => c.answer peer request none
      ((c.sys.rt.diagnostics.find id).elim
        (refuse .notFound "diagnostic set is not registered") fun set =>
          .ok { type := .diagnosticsReport,payload := blobPayload (encodeDiagnosticSet set) })
  | .snapshot =>
      let (written,file,rt) :=
        Runtime.snapshot t.snapshot c.snapshotFile (c.sys.rt.facing t.world)
      { c with sys := { c.sys with rt },snapshotFile := file }.answer peer request none
        (written.map fun _ =>
          { type := .snapshotReport,payload := (FieldWriter.boolean {} 1 true).take })
  | .audit => c.answer peer request none (.ok {
      type := .auditReport
      payload := encodeAuditReport (c.sys.rt.audit t.liveProcesses t.world.now) })
  | .shutdown =>
      { c with shutdownRequested := true }.answer peer request none (.ok { type := .shutdownAck })

/-- `handle` of a connection that is at no other request. -/
def receive (c : Coordinator) (peer : Nat) (request : Message) (t : Turn) : Coordinator :=
  if (c.peers[peer]?).any (·.handling.isNone) then
    match Order.read request with
    | .ok order => c.serve peer request t order
    | .error e => c.answer peer request none (.error e)
  else c

/-- A handler whose call has ended goes on. -/
def proceed (c : Coordinator) (peer : Nat) (t : Turn) (h : Handling) : Duty → Call → Coordinator
  | .discovery wanted,.ended result => match result with
    | .ok _ => c.call peer h.request t (.createSession wanted) .creation
    | .error e => c.answer peer h.request (some h.call) (.error e)
  | .creation,.created result => c.answer peer h.request (some h.call)
      (result.bind fun created => c.summary .sessionCreated created.id)
  | .recovery,.recovered result =>
      c.answer peer h.request (some h.call) (result.map recoveryReport)
  | .session id,.drove result =>
      c.answer peer h.request (some h.call) (result.bind fun _ => c.summary .sessionRan id)
  | .phase type,.ran result => c.answer peer h.request (some h.call)
      (result.map fun report => { type,payload := encodePhaseReport report t.times })
  | .toolchain mutation,.ended result =>
      c.answer peer h.request (some h.call) (result.map fun _ => toolchainReport mutation)
  | .cancellation,.ended result =>
      c.answer peer h.request (some h.call) (result.map fun _ => { type := .phaseCancelled })
  | _,_ => c

inductive Event
  /-- `serve_once` takes in a connection. -/
  | accept
  | receive (peer : Nat) (request : Message) (t : Turn)
  | proceed (peer : Nat) (t : Turn)
  /-- A call of the runtime takes its next locked part. -/
  | resume (index : Nat) (w : World)

def apply (c : Coordinator) : Event → Coordinator
  | .accept => { c with peers := c.peers++[{}] }
  | .receive peer request t => c.receive peer request t
  | .proceed peer t =>
      match (c.peers[peer]?).bind (·.handling) with
      | none => c
      | some h => (c.sys.calls[h.call]?).elim c (c.proceed peer t h h.duty)
  | .resume index w => { c with sys := c.sys.apply (.resume index w) }

def run (c : Coordinator) (events : List Event) : Coordinator := events.foldl apply c

/-- `CoordinatorService::start`. -/
def start (runtimeName : Bytes) (options : RuntimeOptions) (adapters : List Adapter) (file : Bytes)
    (w : World) : Coordinator :=
  { runtimeName,sys := .boot options adapters file w }

end Coordinator

namespace Cli

/-- What `call` makes of a reply. -/
def accepted (reply : Message) : Result Message := do
  if reply.type=.error then
    let (code,detail) ← decodeError reply.payload
    .error ⟨code,detail⟩
  else return reply

def phaseRequest (type : MessageType) (session : CompilerSessionId) (phase : CompilerPhaseId) : Message :=
  { type,payload := ((({} : FieldWriter).u64 1 session.value).u64 2 phase.value).take }

def phaseOutcome (reply : Message) : Result (PhaseRunReport × PhaseTimes) := do
  let reply ← accepted reply
  decodePhaseReport reply.payload

end Cli

end CompilerFabric
