/-
`YahooFinanceProvider._dispatch_yfinance_in_thread`: a slot for every synchronous call that runs
in a thread.

A caller acquires the slot, and the thread gives it back, through a callback of the loop.  The
pool is shared, so a job may wait in it for any time.  The cancellation of a caller reaches a job
that still waits; then it never runs.
-/
import InvestmentPlatform.Lib.Machine
import InvestmentPlatform.Lib.Semaphore

namespace InvestmentPlatform.Market.YahooThreads

variable {I V E : Type}

inductive Outcome (V E : Type)
  | returned (value : V)
  | raised (error : E)
  | cancelled
  deriving DecidableEq, Repr

def Outcome.ofResult : Except E V → Outcome V E
  | .ok value => .returned value
  | .error error => .raised error

/-- Where a caller is. -/
inductive Phase (V E : Type)
  | fresh
  /-- It waits for a slot. -/
  | queued
  /-- A slot is its own, and it has not run since. -/
  | granted
  /-- In `await asyncio.to_thread(run_and_release)`. -/
  | awaiting
  | ended (outcome : Outcome V E)
  deriving DecidableEq, Repr

/-- `run_and_release` of a call. -/
inductive Job (V E : Type)
  | none
  /-- In the queue of the pool. -/
  | pending
  | running
  /-- It has scheduled `release_once`; and whether that has run. -/
  | done (result : Except E V) (released : Bool)
  /-- Cancelled in the queue of the pool. -/
  | revoked
  deriving DecidableEq, Repr

structure Call (V E : Type) where
  phase : Phase V E := .fresh
  job : Job V E := .none
  /-- How often the call acquired a slot, and how often one was given back for it. -/
  acquired : Nat := 0
  released : Nat := 0
  deriving DecidableEq, Repr

/-- The slot was acquired and `run_and_release` goes to the pool, without an await between. -/
def Call.dispatch (call : Call V E) : Call V E :=
  { call with phase := .awaiting, job := .pending, acquired := call.acquired + 1 }

/-- A slot is handed to the call, which waits for one. -/
def Call.grant (call : Call V E) : Call V E := { call with phase := .granted }

/-- Where the call is with respect to the slots: it holds the one that it acquired until that is
given back. -/
def Call.place (call : Call V E) : Semaphore.Place :=
  match call.phase with
  | .queued => .waiting
  | .granted => .holding
  | _ => if call.released < call.acquired then .holding else .outside

structure State (I V E : Type) where
  slot : Semaphore I
  calls : I → Call V E

def start (n : Nat) : State I V E := ⟨.of n, fun _ => {}⟩

inductive Action (I V E : Type)
  | call (i : I)
  /-- A waiter that was given a slot goes on. -/
  | resume (i : I)
  | cancel (i : I)
  /-- A thread of the pool takes the job up. -/
  | begin (i : I)
  /-- The synchronous call returns or raises. -/
  | finish (i : I) (result : Except E V)
  /-- The loop runs `release_once`. -/
  | releaseOnce (i : I)
  /-- The caller is told that its job is done. -/
  | wake (i : I)
  /-- The cancellation of the caller reaches a job that still waits in the pool. -/
  | revoke (i : I)
  deriving DecidableEq, Repr

namespace State

variable [DecidableEq I] (state : State I V E)

def put (i : I) (call : Call V E) : State I V E :=
  { state with calls := Function.update state.calls i call }

/-- A slot is given back, and its next owner is marked. -/
def releaseSlot : State I V E :=
  ⟨state.slot.release.2, state.slot.pass Call.grant state.calls⟩

def exec : Action I V E → Option (State I V E)
  | .call i =>
    match (state.calls i).phase with
    | .fresh =>
      match state.slot.tryAcquire with
      | some slot => some { state.put i (state.calls i).dispatch with slot := slot }
      | none =>
        some { state.put i { state.calls i with phase := .queued } with
          slot := state.slot.enqueue i }
    | _ => none
  | .resume i =>
    match (state.calls i).phase with
    | .granted => some (state.put i (state.calls i).dispatch)
    | _ => none
  | .cancel i =>
    let call := { state.calls i with phase := .ended .cancelled }
    match (state.calls i).phase with
    | .fresh | .ended _ => none
    | .queued => some { state.put i call with slot := state.slot.abandon i }
    | .granted => some (state.put i call).releaseSlot
    | .awaiting => some (state.put i call)
  | .begin i =>
    match (state.calls i).job with
    | .pending => some (state.put i { state.calls i with job := .running })
    | _ => none
  | .finish i result =>
    match (state.calls i).job with
    | .running => some (state.put i { state.calls i with job := .done result false })
    | _ => none
  | .releaseOnce i =>
    match (state.calls i).job with
    | .done result false =>
      some (state.put i { state.calls i with
        job := .done result true, released := (state.calls i).released + 1 }).releaseSlot
    | _ => none
  | .wake i =>
    match (state.calls i).phase, (state.calls i).job with
    | .awaiting, .done result _ =>
      some (state.put i { state.calls i with phase := .ended (.ofResult result) })
    | _, _ => none
  | .revoke i =>
    match (state.calls i).phase, (state.calls i).job with
    | .ended _, .pending => some (state.put i { state.calls i with job := .revoked })
    | _, _ => none

end State

/-- Any interleaving of any number of calls over `n` slots. -/
def machine [DecidableEq I] (n : Nat) : Machine (State I V E) (Action I V E) :=
  .ofPartial (start n) State.exec

end InvestmentPlatform.Market.YahooThreads
