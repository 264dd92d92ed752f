/-
The PDF branch of `HttpResearchFetcher.process_network_response_async`: a permit for every
extraction, and a caller that may be gone before its extraction ends.

The extraction runs in a thread that cannot be stopped.  So the permit comes back in
`release_when_done`, a callback of the future, and a caller that has given up leaves a second
callback behind, which hands the outcome to `on_late_result`.
-/
import InvestmentPlatform.Lib.Machine
import InvestmentPlatform.Lib.Semaphore

namespace InvestmentPlatform.Evidence.PdfExtraction

variable {I V E : Type}

/-- Which handler of the caller an exception of the worker reaches. -/
inductive Kind
  | timeout
  | cancelled
  | other
  deriving DecidableEq, Repr

/-- How a call ends. -/
inductive Ending (V E : Type)
  | returned (value : V)
  | raised (error : E)
  /-- `PdfExtractionTimeoutError`. -/
  | timedOut (message : String)
  /-- `CancelledError`, and whether `_pdf_extraction_worker_never_started` is set on it. -/
  | cancelled (workerNeverStarted : Bool)
  deriving DecidableEq, Repr

/-- Where a caller is. -/
inductive Phase (V E : Type)
  | fresh
  /-- It waits for a permit. -/
  | queued
  /-- A permit was handed to it, and it has not run since. -/
  | granted
  /-- In `await asyncio.wait_for(asyncio.shield(task), timeout=timeout)`. -/
  | awaiting
  | ended (ending : Ending V E)
  deriving DecidableEq, Repr

/-- The future of an extraction. -/
inductive Worker (V E : Type)
  | none
  | running
  /-- The future has its outcome; and whether `release_when_done` has run. -/
  | done (outcome : Except E V) (released : Bool)
  deriving DecidableEq, Repr

structure Call (V E : Type) where
  phase : Phase V E := .fresh
  worker : Worker V E := .none
  /-- `_deliver_late_result` is attached to the future and has not run. -/
  late : Bool := false
  /-- The calls of `on_late_result`. -/
  lateResults : List (Except E V) := []
  deriving DecidableEq, Repr

/-- The worker of the call has not ended for the loop. -/
def Worker.working : Worker V E → Bool
  | .running => true
  | .done _ released => !released
  | .none => false

/-- Where the call is with respect to the permits. -/
def Call.place (call : Call V E) : Semaphore.Place :=
  match call.phase with
  | .queued => .waiting
  | .granted => .holding
  | _ => if call.worker.working then .holding else .outside

namespace Call

variable (call : Call V E)

/-- The permit is the call's own, and the extraction goes to the executor. -/
def extract : Call V E := { call with phase := .awaiting, worker := .running }

/-- A permit is handed to the call, which waits for one. -/
def grant : Call V E := { call with phase := .granted }

def leave (ending : Ending V E) : Call V E := { call with phase := .ended ending }

/-- The caller gives up, and what the worker ends with goes to `on_late_result`. -/
def abandon (listens : Bool) (ending : Ending V E) : Call V E :=
  { call with phase := .ended ending, late := listens }

end Call

def queueTimeout : Ending V E := .timedOut "PDF_EXTRACTION_QUEUE_TIMEOUT"

def extractionTimeout : Ending V E := .timedOut "PDF_EXTRACTION_TIMEOUT"

structure State (I V E : Type) where
  /-- `_pdf_extraction_semaphore`. -/
  slot : Semaphore I
  /-- `_queued_pdf_extractions`. -/
  queued : Int
  calls : I → Call V E

def start (n : Nat) : State I V E := ⟨.of n, 0, fun _ => {}⟩

inductive Action (I V E : Type)
  | call (i : I)
  /-- A waiter that a permit was handed to goes on. -/
  | resume (i : I)
  /-- The budget of the queue is spent. -/
  | queueTimeout (i : I)
  /-- The budget of the extraction is spent. -/
  | timeout (i : I)
  | cancel (i : I)
  /-- The thread returns or raises, and the future gets the outcome. -/
  | finish (i : I) (outcome : Except E V)
  /-- The loop runs `release_when_done`. -/
  | release (i : I)
  /-- The caller is given what its shielded future ended with. -/
  | wake (i : I)
  /-- The loop runs `_deliver_late_result`. -/
  | deliver (i : I)
  deriving DecidableEq, Repr

namespace State

variable [DecidableEq I] (state : State I V E)

def put (i : I) (call : Call V E) : State I V E :=
  { state with calls := Function.update state.calls i call }

/-- The caller waits for admission no longer. -/
def unqueue : State I V E := { state with queued := state.queued - 1 }

/-- A permit is given back, and its next owner is marked. -/
def releasePermit : State I V E :=
  { state with slot := state.slot.release.2, calls := state.slot.pass Call.grant state.calls }

/-- The wait for a permit ends without one. -/
def refuse (i : I) (ending : Ending V E) : Option (State I V E) :=
  let left := (state.put i ((state.calls i).leave ending)).unqueue
  match (state.calls i).phase with
  | .queued => some { left with slot := state.slot.abandon i }
  | .granted => some left.releasePermit
  | _ => none

variable (listens : I → Bool) (kind : E → Kind)

def exec : Action I V E → Option (State I V E)
  | .call i =>
    match (state.calls i).phase with
    | .fresh =>
      let state' := { state with queued := state.queued + 1 }
      match state.slot.tryAcquire with
      | some slot =>
        some { (state'.put i (state.calls i).extract).unqueue with slot := slot }
      | none =>
        some { state'.put i { state.calls i with phase := .queued } with
          slot := state.slot.enqueue i }
    | _ => none
  | .resume i =>
    match (state.calls i).phase with
    | .granted => some (state.put i (state.calls i).extract).unqueue
    | _ => none
  | .queueTimeout i =>
    match (state.calls i).phase with
    -- a budget of nothing is spent before the permit is asked for
    | .fresh =>
      let state' := { state with queued := state.queued + 1 }
      some (state'.put i ((state.calls i).leave queueTimeout)).unqueue
    | _ => state.refuse i queueTimeout
  | .timeout i =>
    match (state.calls i).phase with
    | .awaiting => some (state.put i ((state.calls i).abandon (listens i) extractionTimeout))
    | _ => none
  | .cancel i =>
    match (state.calls i).phase with
    | .awaiting => some (state.put i ((state.calls i).abandon (listens i) (.cancelled false)))
    | _ => state.refuse i (.cancelled true)
  | .finish i outcome =>
    match (state.calls i).worker with
    | .running => some (state.put i { state.calls i with worker := .done outcome false })
    | _ => none
  | .release i =>
    match (state.calls i).worker with
    | .done outcome false =>
      some (state.put i { state.calls i with worker := .done outcome true }).releasePermit
    | _ => none
  | .wake i =>
    match (state.calls i).phase, (state.calls i).worker with
    | .awaiting, .done (.ok value) true =>
      some (state.put i ((state.calls i).leave (.returned value)))
    | .awaiting, .done (.error error) true =>
      match kind error with
      | .timeout => some (state.put i ((state.calls i).abandon (listens i) extractionTimeout))
      | .cancelled =>
        some (state.put i ((state.calls i).abandon (listens i) (.cancelled false)))
      | .other => some (state.put i ((state.calls i).leave (.raised error)))
    | _, _ => none
  | .deliver i =>
    match (state.calls i).late, (state.calls i).worker with
    | true, .done outcome true =>
      some (state.put i { state.calls i with
        late := false, lateResults := (state.calls i).lateResults ++ [outcome] })
    | _, _ => none

end State

/-- Any interleaving of any number of calls over `n` permits. -/
def machine [DecidableEq I] (n : Nat) (listens : I → Bool) (kind : E → Kind) :
    Machine (State I V E) (Action I V E) :=
  .ofPartial (start n) fun state => state.exec listens kind

end InvestmentPlatform.Evidence.PdfExtraction
