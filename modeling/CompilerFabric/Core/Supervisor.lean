import CompilerFabric.Core.Registry

namespace CompilerFabric

inductive ChildState
  | running | exited
  /-- `wait` has its outcome: `finished`. -/
  | collected
deriving DecidableEq

/-- A launched child as its `ProcessHandle::Impl` knows it; handles are numbered in the order of
their launches. -/
structure Child where
  id : ProcessId
  generation : ProcessGeneration := .initial
  state : ChildState := .running
  terminateRequested : Bool := false
deriving DecidableEq

namespace Child

/-- `ProcessHandle::terminate`. -/
def terminated (c : Child) : Child :=
  if c.state=.collected then c else { c with terminateRequested := true }

/-- Live, and nobody has terminated it. -/
def orphan (c : Child) : Bool := c.state=.running && !c.terminateRequested

theorem terminated_orphan (c : Child) : c.terminated.orphan=false := by
  unfold terminated
  split
  · next h => simp [orphan,h]
  · simp [orphan]

end Child

structure ProcessSupervisor where
  closed : Bool := false
  live : Table Nat := ∅
  allocator : IdAllocator .process := {}
  children : List Child := []

/-- What becomes of a `spawn` that was admitted. -/
inductive Launch
  | invalid | failed | started
deriving DecidableEq

namespace ProcessSupervisor

/-- A call between two of its steps. -/
inductive Call
  /-- `spawn` (within `run` where it `waits`) has found the supervisor open. -/
  | admitted (waits : Bool)
  /-- The child runs and is not registered yet. -/
  | launched (handle : Nat) (waits : Bool)
  /-- `run` waits for its child. -/
  | waiting (handle : Nat)
  /-- `terminate` or `terminate_all`, with the handles it still has to terminate. -/
  | terminating (handles : List Nat)
  /-- `close`, with the handles it still has to terminate and wait for. -/
  | closing (handles : List Nat)
  | awaiting (handle : Nat) (handles : List Nat)
  /-- `close` has returned. -/
  | closed
  | returned
deriving DecidableEq

variable (s : ProcessSupervisor)

def modifyChild (handle : Nat) (f : Child → Child) : ProcessSupervisor :=
  { s with children := s.children.modify handle f }

def running (handle : Nat) : Bool := s.children[handle]?.any (·.state=.running)

def handles : List Nat := s.live.toList.map (·.2)

/-- The handle under a process identity, where its generation is the one named. -/
def supervised (id : ProcessId) (generation : ProcessGeneration) : Option Nat :=
  s.live[id.value]?.filter fun handle => s.children[handle]?.any (·.generation=generation)

/-- The first step of `spawn` and of `run`. -/
def spawn (waits : Bool) : Call := if s.closed then .returned else .admitted waits

/-- `validate`, `CreateProcessW` and `ResumeThread`. -/
def launch (waits : Bool) : Launch → Call × ProcessSupervisor
  | .invalid => (.returned,s)
  | .failed => (.returned,{ s with allocator := s.allocator.next.2 })
  | .started => (.launched s.children.length waits,{ s with
      allocator := s.allocator.next.2
      children := s.children++[{ id := s.allocator.next.1 }] })

def register (handle : Nat) : ProcessSupervisor :=
  { s with live := s.children[handle]?.elim s.live fun c => s.live.insertIfNew c.id.value handle }

def erase (handle : Nat) : ProcessSupervisor :=
  { s with live := s.children[handle]?.elim s.live fun c => s.live.erase c.id.value }

def reap (id : ProcessId) (generation : ProcessGeneration) : ProcessSupervisor :=
  if (s.supervised id generation).isSome then { s with live := s.live.erase id.value } else s

def terminate (id : ProcessId) (generation : ProcessGeneration) : Call :=
  .terminating (s.supervised id generation).toList

/-- The first step of `close`. -/
def close : Call × ProcessSupervisor :=
  if s.closed then (.closed,s)
  else (.closing s.handles,{ s with closed := true,live := ∅ })

/-- The next step of a call. -/
def resume (outcome : Launch) : Call → Call × ProcessSupervisor
  | .admitted waits => s.launch waits outcome
  | .launched handle waits => (if waits then .waiting handle else .returned,s.register handle)
  | .waiting handle =>
      if s.running handle then (.waiting handle,s)
      else (.returned,(s.modifyChild handle fun c => { c with state := .collected }).erase handle)
  | .terminating [] => (.returned,s)
  | .terminating (handle::handles) =>
      (.terminating handles,s.modifyChild handle Child.terminated)
  | .closing [] => (.closed,s)
  | .closing (handle::handles) =>
      (.awaiting handle handles,s.modifyChild handle Child.terminated)
  | .awaiting handle handles =>
      if s.running handle then (.awaiting handle handles,s)
      else (.closing handles,s.modifyChild handle fun c => { c with state := .collected })
  | .closed => (.closed,s)
  | .returned => (.returned,s)

end ProcessSupervisor

/-- What happens next at a supervisor: a caller enters, a call goes on, a child ends by itself or
whoever holds its handle terminates it. -/
inductive SupervisorEvent
  | spawn (waits : Bool)
  | terminate (id : ProcessId) (generation : ProcessGeneration)
  | terminateAll
  | reap (id : ProcessId) (generation : ProcessGeneration)
  | close
  | resume (index : Nat) (outcome : Launch)
  | exit (handle : Nat)
  | kill (handle : Nat)
deriving DecidableEq

/-- A supervisor with the calls of all its threads. -/
structure Supervision extends ProcessSupervisor where
  calls : List ProcessSupervisor.Call := []

namespace Supervision

def enter (v : Supervision) (x : ProcessSupervisor.Call × ProcessSupervisor) : Supervision :=
  { x.2 with calls := v.calls++[x.1] }

def apply (v : Supervision) : SupervisorEvent → Supervision
  | .spawn waits => v.enter (v.spawn waits,v.toProcessSupervisor)
  | .terminate id generation => v.enter (v.terminate id generation,v.toProcessSupervisor)
  | .terminateAll => v.enter (.terminating v.handles,v.toProcessSupervisor)
  | .reap id generation => v.enter (.returned,v.reap id generation)
  | .close => v.enter v.close
  | .resume index outcome =>
      v.calls[index]?.elim v fun call =>
        let x := v.resume outcome call
        { x.2 with calls := v.calls.set index x.1 }
  | .exit handle =>
      { v.modifyChild handle fun c =>
          if c.state=.running then { c with state := .exited } else c with calls := v.calls }
  | .kill handle => { v.modifyChild handle Child.terminated with calls := v.calls }

def run (v : Supervision) (events : List SupervisorEvent) : Supervision := events.foldl apply v

end Supervision

end CompilerFabric
