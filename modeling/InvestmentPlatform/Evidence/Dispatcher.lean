/-
The dispatcher of the persistence operations: `_run_blocking_persistence` on a database with
worker threads, and `_run_lease_persistence` beside it.

A caller is a coroutine that makes one call, and a step is what happens from one await to the
next.  A cancellation is a step too: it is thrown into the caller where it awaits.  The operation
runs in a thread, so it ends when it ends, whatever happens to its caller.
-/
import InvestmentPlatform.Lib.Machine
import InvestmentPlatform.Lib.Semaphore

namespace InvestmentPlatform.Evidence.Dispatcher

variable {I V E : Type}

/-- How a call ends. -/
inductive Outcome (V E : Type)
  | returned (value : V)
  | raised (error : E)
  | cancelled
  deriving DecidableEq, Repr

/-- What a thread came back with, to the one who awaits it. -/
def Outcome.ofResult : Except E V → Outcome V E
  | .ok value => .returned value
  | .error error => .raised error

/-- Where a caller is. -/
inductive Phase (V E : Type)
  | fresh
  /-- It waits for the slot. -/
  | queued
  /-- The slot is its own, and it has not run since. -/
  | granted
  /-- In `await asyncio.shield(task)`. -/
  | awaiting
  /-- In the loop of the handler of `CancelledError`. -/
  | draining
  /-- In `_run_lease_persistence`. -/
  | leasing
  | ended (outcome : Outcome V E)
  deriving DecidableEq, Repr

/-- The operation of a call. -/
inductive Job (V E : Type)
  | none
  /-- Handed to the threads; the connection lock is not its own yet. -/
  | pending
  | executing
  | done (result : Except E V)
  /-- Taken back before a thread began it. -/
  | revoked
  deriving DecidableEq, Repr

structure Call (V E : Type) where
  phase : Phase V E := .fresh
  job : Job V E := .none
  /-- A cancellation has hit the call. -/
  hit : Bool := false
  acquired : Nat := 0
  released : Nat := 0
  executions : Nat := 0
  deriving DecidableEq, Repr

namespace Call

variable (call : Call V E)

/-- The slot was acquired, and the task is created. -/
def dispatch : Call V E :=
  { call with phase := .awaiting, job := .pending, acquired := call.acquired + 1 }

/-- The call leaves `async with`. -/
def leave (outcome : Outcome V E) : Call V E :=
  { call with phase := .ended outcome, released := call.released + 1 }

def isDone : Bool :=
  match call.job with
  | .done _ => true
  | _ => false

end Call

/-- The slot, the connection lock and the calls. -/
structure State (I V E : Type) where
  slot : Semaphore I
  lock : Option I
  calls : I → Call V E

def start : State I V E := ⟨.single, none, fun _ => {}⟩

inductive Action (I V E : Type)
  /-- `_run_blocking_persistence`, up to its first await. -/
  | call (i : I)
  /-- `_run_lease_persistence`. -/
  | lease (i : I)
  /-- A waiter that was given the slot goes on. -/
  | resume (i : I)
  | cancel (i : I)
  /-- The thread of the operation gets the connection lock. -/
  | begin (i : I)
  | finish (i : I) (result : Except E V)
  /-- The caller is told that its task is done. -/
  | wake (i : I)
  /-- An operation that no thread has begun goes with its caller. -/
  | revoke (i : I)
  deriving DecidableEq, Repr

namespace State

variable [DecidableEq I] (state : State I V E)

def put (i : I) (call : Call V E) : State I V E :=
  { state with calls := Function.update state.calls i call }

/-- The slot is given back, and its next owner is marked. -/
def releaseSlot : State I V E :=
  let state' := { state with slot := state.slot.release.2 }
  match state.slot.release.1 with
  | none => state'
  | some j => state'.put j { state.calls j with phase := .granted }

/-- `async with` is left with an outcome. -/
def leave (i : I) (outcome : Outcome V E) : State I V E :=
  (state.put i ((state.calls i).leave outcome)).releaseSlot

/-- A cancellation that is thrown into the call. -/
def cancel (i : I) : Option (State I V E) :=
  let call := { state.calls i with hit := true }
  match (state.calls i).phase with
  | .fresh | .ended _ => none
  | .queued =>
    some { state.put i { call with phase := .ended .cancelled } with
      slot := state.slot.abandon i }
  | .granted => some (state.put i { call with phase := .ended .cancelled }).releaseSlot
  | .awaiting | .draining =>
    if call.isDone then some ((state.put i call).leave i .cancelled)
    else some (state.put i { call with phase := .draining })
  | .leasing => some (state.put i { call with phase := .ended .cancelled })

/-- The caller goes on with the result of its task. -/
def wake (i : I) (result : Except E V) : Option (State I V E) :=
  match (state.calls i).phase with
  | .awaiting => some (state.leave i (.ofResult result))
  | .draining =>
    match result with
    | .ok _ => some (state.leave i .cancelled)
    -- The handler awaits the task itself, so the error of the task leaves the handler.
    | .error error => some (state.leave i (.raised error))
  | .leasing => some (state.put i { state.calls i with phase := .ended (.ofResult result) })
  | _ => none

def exec : Action I V E → Option (State I V E)
  | .call i =>
    match (state.calls i).phase with
    | .fresh =>
      match state.slot.tryAcquire with
      | some slot => some { state.put i (state.calls i).dispatch with slot := slot }
      | none =>
        some { state.put i { state.calls i with phase := .queued } with
          slot := state.slot.enqueue i }
    | _ => none
  | .lease i =>
    match (state.calls i).phase with
    | .fresh => some (state.put i { state.calls i with phase := .leasing, job := .pending })
    | _ => none
  | .resume i =>
    match (state.calls i).phase with
    | .granted => some (state.put i (state.calls i).dispatch)
    | _ => none
  | .cancel i => state.cancel i
  | .begin i =>
    match (state.calls i).job, state.lock with
    | .pending, none =>
      some { state.put i { state.calls i with
          job := .executing, executions := (state.calls i).executions + 1 } with
        lock := some i }
    | _, _ => none
  | .finish i result =>
    match (state.calls i).job with
    | .executing => some { state.put i { state.calls i with job := .done result } with lock := none }
    | _ => none
  | .wake i =>
    match (state.calls i).job with
    | .done result => state.wake i result
    | _ => none
  | .revoke i =>
    match (state.calls i).phase, (state.calls i).job with
    | .ended _, .pending => some (state.put i { state.calls i with job := .revoked })
    | _, _ => none

end State

/-- Any interleaving of any number of calls. -/
def machine [DecidableEq I] : Machine (State I V E) (Action I V E) :=
  .ofPartial start State.exec

end InvestmentPlatform.Evidence.Dispatcher
