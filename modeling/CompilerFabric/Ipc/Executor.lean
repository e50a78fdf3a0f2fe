import CompilerFabric.Ipc.Rows
import CompilerFabric.Ipc.Worker

namespace CompilerFabric

open Base (Bytes)
open Base.Action

/-- What becomes of one request: whether the channel is open, whether the request reaches the worker,
the machine the worker is on, and whether the reply comes back; a request without one ends in `lost`. -/
structure Passage where
  opened : Bool := true
  reaches : Bool := true
  surroundings : Surroundings := {}
  returns : Bool := true
  lost : Status := .of .protocolPeerClosed "peer channel closed before the reply arrived"

/-- The channel of the coordinator, with the worker at its other end. -/
structure PeerChannel where
  worker : Worker := {}
  requestCounter : UInt64 := 0

namespace PeerChannel

/-- One message that has its id, and the wait for the reply. -/
def exchange (passage : Passage) (message : Message) : Base.Action PeerChannel Status Message := fun c =>
  if !passage.reaches then (.error passage.lost,c)
  else
    let (worker,reply) := c.worker.serve passage.surroundings message
    ((if passage.returns then reply else none).elim (.error passage.lost) .ok,{ c with worker })

def request (passage : Passage) (message : Message) : Base.Action PeerChannel Status Message := fun c =>
  if !passage.opened then (.error (.of .protocolPeerClosed "channel is not open"),c)
  else if message.requestId=0 then
    exchange passage { message with requestId := c.requestCounter+1 }
      { c with requestCounter := c.requestCounter+1 }
  else exchange passage message c

end PeerChannel

/-- What a reply is taken for: an error reply is the status it carries. -/
def Message.accepted (reply : Message) : Result Unit :=
  if reply.type=.error then
    match decodeError reply.payload with
    | .ok (code,detail) => .error ⟨code,detail⟩
    | .error _ => .error (.of .protocolMalformed "malformed error reply")
  else .ok ()

/-- The process an invocation is launched as, within the limits of the policy. -/
def InvocationSpec.processUnder (host : Host) (policy : Option PolicySpec) (spec : InvocationSpec) :
    Result ProcessSpec := do
  let process ← spec.toProcessSpec host
  match policy with
  | none => return process
  | some policy => return { process with
      timeoutMillis := policy.phaseTimeoutMillis
      maxCaptureBytes := max 4096 (min policy.maxDiagnosticBytesPerStream kMaxCaptureBytes) }

/-- The report an executor starts from. -/
def Workspace.unreported (workspace : Workspace) : ExecutionReport :=
  { workspaceRoot := workspace.root,workspaceMarker := workspace.markerDigest }

def ExecutionReport.refused (report : ExecutionReport) (status : Status) : ExecutionReport :=
  { report with status := status.code,detail := status.message }

namespace LocalPhaseExecutor

/-- `execute` up to the launch. -/
def launch (options : ProcessSupervisorOptions) (s : Surroundings) (invocation : InvocationSpec)
    (process : ProcessSpec) (workspace : Workspace) : Result ProcessSpec := do
  let effective := { process with
    workingDirectory :=
      if process.workingDirectory.isEmpty then workspace.root else process.workingDirectory
    environment :=
      if process.environment.isEmpty then invocation.environmentVariables else process.environment }
  effective.validate s.host
  effective.spawn options s

def execute (options : ProcessSupervisorOptions) (s : Surroundings) (invocation : InvocationSpec)
    (process : ProcessSpec) (workspace : Workspace) : ExecutionReport :=
  match launch options s invocation process workspace >>= fun _ => s.outcome with
  | .error e => workspace.unreported.refused e
  | .ok outcome => { workspace.unreported with
      executed := true
      process := outcome
      status := outcome.status.code
      detail := outcome.status.message
      outputs := invocation.expectedOutputs.map (Worker.describe s.after) }

end LocalPhaseExecutor

/-- What one call of `execute` meets. -/
structure RemoteTurn where
  offline : Bool := false
  /-- The provider has an open channel. -/
  connected : Bool := true
  prepare : Passage := {}
  start : Passage := {}

namespace RemotePhaseExecutor

def prepareMessage (invocation : InvocationSpec) (workspace : Workspace) : Message :=
  { type := .prepareWorkspace
    payload := prepareOrder ⟨invocation.session,invocation.phase⟩ workspace.root }

def startMessage (order : InvocationOrder) : Message :=
  { type := .startPhase,payload := encodeInvocationOrder order }

/-- `execute` as far as it gets. -/
def attempt (turn : RemoteTurn) (invocation : InvocationSpec) (process : ProcessSpec)
    (workspace : Workspace) (phaseLabel : Bytes) : Base.Action PeerChannel Status ExecutionReport := do
  ofExcept (ensure (¬turn.offline)
    (.of .protocolPeerClosed "the worker is offline; no physical execution is possible"))
  ofExcept (ensure turn.connected (.of .protocolPeerClosed "no compiler worker is connected"))
  let ready ← PeerChannel.request turn.prepare (prepareMessage invocation workspace)
  ofExcept ready.accepted
  let executed ← PeerChannel.request turn.start
    (startMessage ⟨invocation,process,workspace.root,phaseLabel⟩)
  ofExcept executed.accepted
  let remote ← ofExcept (decodeExecutionReport executed.payload)
  return { remote with workspaceRoot := workspace.root,workspaceMarker := workspace.markerDigest }

def execute (turn : RemoteTurn) (invocation : InvocationSpec) (process : ProcessSpec)
    (workspace : Workspace) (phaseLabel : Bytes) (c : PeerChannel) : ExecutionReport × PeerChannel :=
  match attempt turn invocation process workspace phaseLabel c with
  | (.error e,c) => (workspace.unreported.refused e,c)
  | (.ok report,c) => (report,c)

end RemotePhaseExecutor

/-- A call of `RemotePhaseExecutor::execute` with all it is given and meets. -/
structure RemoteCall where
  turn : RemoteTurn := {}
  invocation : InvocationSpec := {}
  process : ProcessSpec := {}
  workspace : Workspace := {}
  phaseLabel : Bytes := []

namespace RemoteCall

def execute (call : RemoteCall) (c : PeerChannel) : ExecutionReport × PeerChannel :=
  RemotePhaseExecutor.execute call.turn call.invocation call.process call.workspace call.phaseLabel c

def order (call : RemoteCall) : InvocationOrder :=
  ⟨call.invocation,call.process,call.workspace.root,call.phaseLabel⟩

/-- The reports of a sequence of calls, and the channel after it. -/
def run (c : PeerChannel) : List RemoteCall → List ExecutionReport × PeerChannel
  | [] => ([],c)
  | call::calls =>
      let (report,c) := call.execute c
      let (reports,c) := run c calls
      (report::reports,c)

end RemoteCall

end CompilerFabric
