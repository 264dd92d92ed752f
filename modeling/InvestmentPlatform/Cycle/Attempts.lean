/-
The attempts of one resumable cycle, over every sequence of worker runs.

A worker that takes the cycle over loads its progress rows into a `CycleCheckpoint` and works
through the candidates: the pools of `_acquire_baseline_requirements` and of
`run_full_etf_cycle`, and the schedule of the Stage 2 loop with its look-ahead.  Before a
candidate is worked on its attempt is started, and afterwards finished, both in the stored row
and in memory.  A worker may be lost between any two of these writes; what it held in memory
is lost with it, and the next one loads the rows as they are.  A worker whose ownership was
taken away is lost in the same sense: its writes are refused.

The phases keep rows of their own, so their steps are left to interleave.  The window of the
look-ahead is left open: any candidate of the pass that is still to come may be started ahead
of its turn.
-/
import InvestmentPlatform.Cycle.Checkpoint
import InvestmentPlatform.Lib.Machine

namespace InvestmentPlatform.Cycle

/-- A pair whose attempts are counted. -/
abbrev Pair := Phase × InstrumentId

inductive CycleKind
  | equity | etf
  deriving DecidableEq, Repr

/-- What a worker run goes through. -/
structure Plan where
  kind : CycleKind
  /-- The candidates of the phases that are worked off as a pool. -/
  pool : Phase → List InstrumentId
  deepCandidates : List InstrumentId
  repairPasses : Nat
  /-- Admission selects no candidate twice. -/
  distinct : deepCandidates.Nodup

/-- What the code finds in a stored payload. -/
structure PayloadReader where
  /-- `_restore_deep_candidate` can rebuild the outcome. -/
  deepRestores : Option String → Bool
  /-- The baseline payload has the key `ready`. -/
  hasReady : Option String → Bool

/-- A worker run. -/
structure Worker where
  plan : Plan
  checkpoint : CycleCheckpoint String
  /-- The candidates of each pool that have not been taken. -/
  waiting : Phase → List InstrumentId
  /-- The pool candidates that are being worked on. -/
  running : List Pair
  /-- `phase_items[phase_index + 1:]`. -/
  upcoming : List InstrumentId
  /-- The Stage 2 candidate that is being evaluated. -/
  current : Option InstrumentId
  /-- `started_attempts`: the candidates of the look-ahead. -/
  startedAttempts : List InstrumentId
  /-- Whether the pass is a repair pass. -/
  repair : Bool
  passesLeft : Nat

/-- The progress rows of the cycle, and the run that works on it. -/
structure Site where
  progress : Table ProgressKey ProgressRow
  worker : Option Worker

inductive Event
  | resume (plan : Plan)
  | lost
  | take (phase : Phase) (id : InstrumentId)
  | next
  | prefetch (id : InstrumentId)
  | finish (phase : Phase) (id : InstrumentId) (write : ProgressWrite)
  | nextPass

variable (cycleId : CycleId) (maxAttempts : Nat) (reader : PayloadReader)

/-- The attempts the stored row counts. -/
def Site.attempts (s : Site) (pair : Pair) : Nat :=
  ((s.progress (cycleId, pair.1, pair.2)).map ProgressRow.attempts).getD 0

/-- `CycleCheckpoint.load`. -/
def load (progress : Table ProgressKey ProgressRow) : CycleCheckpoint String where
  maxAttempts := maxAttempts
  progress := fun pair => (progress (cycleId, pair.1, pair.2)).map fun row =>
    { state := row.state, disposition := row.disposition, failureReason := row.failureReason
      attempts := row.attempts, payload := row.payload }

/-- A run with nothing done yet. -/
def Plan.begin (plan : Plan) (checkpoint : CycleCheckpoint String) : Worker where
  plan := plan
  checkpoint := checkpoint
  waiting := plan.pool
  running := []
  upcoming := plan.deepCandidates
  current := none
  startedAttempts := []
  repair := false
  passesLeft := plan.repairPasses

namespace Worker

/-- The code takes the outcome of a restorable row over. -/
def Restores (w : Worker) (phase : Phase) (row : CheckpointRow String) : Prop :=
  match phase with
  | .deep => reader.deepRestores row.payload
  | .baseline =>
      w.plan.kind = .etf ∨ reader.hasReady row.payload ∨ row.state ≠ .completed
  | .etfOnboard => True

instance (w : Worker) (phase : Phase) (row : CheckpointRow String) :
    Decidable (w.Restores reader phase row) :=
  match phase with
  | .deep => inferInstanceAs (Decidable (reader.deepRestores row.payload = true))
  | .baseline => inferInstanceAs (Decidable (_ ∨ _ = true ∨ _))
  | .etfOnboard => inferInstanceAs (Decidable True)

/-- A restorable row whose outcome is taken over: the candidate is not worked on. -/
def Held (w : Worker) (phase : Phase) (id : InstrumentId) : Prop :=
  ∃ row ∈ w.checkpoint.restorable phase id, w.Restores reader phase row

instance (w : Worker) (phase : Phase) (id : InstrumentId) : Decidable (w.Held reader phase id) :=
  inferInstanceAs (Decidable (∃ row ∈ w.checkpoint.restorable phase id, _))

/-- A repair pass takes up what failed technically and has an attempt left.  A row is in the
retryable state exactly when its diagnostic is retryable (`rowState_eq_retryableFailure`). -/
def Repairable (w : Worker) (id : InstrumentId) : Prop :=
  w.checkpoint.attempts .deep id < w.checkpoint.maxAttempts ∧
    ∃ row ∈ w.checkpoint.row .deep id, row.state = .retryableFailure

instance (w : Worker) (id : InstrumentId) : Decidable (w.Repairable id) :=
  inferInstanceAs (Decidable (_ ∧ ∃ row ∈ w.checkpoint.row .deep id, _))

end Worker

/-- `checkpoint.start` by a worker: the stored row and the copy in memory. -/
def Site.start (s : Site) (w : Worker) (phase : Phase) (id : InstrumentId) :
    Option Pair × Site :=
  (some (phase, id),
    { progress := upsertProgress (cycleId, phase, id) { state := .inProgress } true s.progress
      worker := some { w with checkpoint := w.checkpoint.start phase id } })

/-- A step that starts no attempt and writes no row. -/
def Site.goOn (s : Site) (w : Worker) : Option Pair × Site := (none, { s with worker := some w })

/-- `checkpoint.finish` by a worker. -/
def Site.finish (s : Site) (w : Worker) (phase : Phase) (id : InstrumentId)
    (write : ProgressWrite) : Option Pair × Site :=
  (none,
    { progress := upsertProgress (cycleId, phase, id) write false s.progress
      worker := some { w with
        checkpoint := w.checkpoint.finish phase id write.state write.disposition
          write.failureReason write.payload } })

/-- An outcome is final or a retryable failure. -/
def ProgressWrite.IsOutcome (write : ProgressWrite) : Prop :=
  write.state ∈ finalStates ∨ write.state = .retryableFailure

instance (write : ProgressWrite) : Decidable write.IsOutcome :=
  inferInstanceAs (Decidable (_ ∨ _))

/-- A pool candidate comes up: `_acquire_one`, or an item of the ETF loops. -/
def takeFromPool (s : Site) (w : Worker) (phase : Phase) (id : InstrumentId) :
    Option (Option Pair × Site) :=
  if phase ≠ .deep ∧ id ∈ w.waiting phase then
    let taken := { w with
      waiting := Function.update w.waiting phase ((w.waiting phase).erase id) }
    if w.Held reader phase id then
      some (s.goOn { taken with checkpoint := w.checkpoint.noteRestored phase })
    else
      some (s.start cycleId { taken with running := (phase, id) :: w.running } phase id)
  else none

/-- The Stage 2 loop comes to its next candidate. -/
def nextCandidate (s : Site) (w : Worker) : Option (Option Pair × Site) :=
  match w.current, w.upcoming with
  | none, id :: upcoming =>
      if w.repair = false ∧ w.Held reader .deep id then
        some (s.goOn { w with
          upcoming := upcoming, checkpoint := w.checkpoint.noteRestored .deep })
      else if id ∈ w.startedAttempts then
        some (s.goOn { w with
          upcoming := upcoming, current := some id
          startedAttempts := w.startedAttempts.erase id })
      else
        some (s.start cycleId { w with upcoming := upcoming, current := some id } .deep id)
  | _, _ => none

/-- The look-ahead of `_prefetch_ahead` starts a candidate that is still to come, while
another one is being evaluated. -/
def prefetchAhead (s : Site) (w : Worker) (id : InstrumentId) : Option (Option Pair × Site) :=
  if w.current.isSome ∧ id ∈ w.upcoming ∧ id ∉ w.startedAttempts ∧
      (w.repair = true ∨ w.checkpoint.restorable .deep id = none) then
    some (s.start cycleId { w with startedAttempts := id :: w.startedAttempts } .deep id)
  else none

/-- An outcome is recorded. -/
def recordOutcome (s : Site) (w : Worker) (phase : Phase) (id : InstrumentId)
    (write : ProgressWrite) : Option (Option Pair × Site) :=
  if write.IsOutcome then
    if phase = .deep then
      if w.current = some id then
        some (s.finish cycleId { w with current := none } phase id write)
      else none
    else if (phase, id) ∈ w.running then
      some (s.finish cycleId { w with running := w.running.erase (phase, id) } phase id write)
    else none
  else none

/-- A pass of the schedule is over. -/
def nextPass (s : Site) (w : Worker) : Option (Option Pair × Site) :=
  match w.current, w.upcoming, w.passesLeft with
  | none, [], passesLeft + 1 =>
      some (s.goOn { w with
        upcoming := w.plan.deepCandidates.filter fun id => w.Repairable id
        repair := true, passesLeft := passesLeft })
  | _, _, _ => none

/-- One step; the answer is the pair whose attempt it started. -/
def workStep (s : Site) : Event → Option (Option Pair × Site)
  | .resume plan =>
      match s.worker with
      | some _ => none
      | none => some (s.goOn (plan.begin (load cycleId maxAttempts s.progress)))
  | .lost => s.worker.map fun _ => (none, { s with worker := none })
  | .take phase id => s.worker.bind fun w => takeFromPool cycleId reader s w phase id
  | .next => s.worker.bind fun w => nextCandidate cycleId reader s w
  | .prefetch id => s.worker.bind fun w => prefetchAhead cycleId s w id
  | .finish phase id write => s.worker.bind fun w => recordOutcome cycleId s w phase id write
  | .nextPass => s.worker.bind fun w => nextPass s w

/-- A cycle nobody has worked on. -/
def freshSite : Site := ⟨Table.empty, none⟩

/-- The cycle under every sequence of worker runs. -/
def attemptsSystem : Machine Site (Event × Option Pair) :=
  Machine.ofStep freshSite (workStep cycleId maxAttempts reader)

end InvestmentPlatform.Cycle
