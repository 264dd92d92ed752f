/-
The resumable cycle store of `app/cycle_checkpoint.py`.

Three tables and the database clock.  `global_opportunity_cycle_run` has one row for
each cycle, `global_opportunity_cycle_active` one slot for each market, and
`global_opportunity_cycle_progress` one row for each (cycle, phase, instrument).
Every method of `CycleRunPersistenceMixin` that writes is a function of the store here,
with the statement's own guard and its own columns; SQL's `column = ?` and
`column > clock` are false on NULL, which is what the `Option` comparisons say.

Times are microseconds, the width `_iso` prints, so comparing stored texts is comparing
numbers.  The columns `created_at` and `updated_at` are written and never read by any
of these methods and are left out.
-/
import InvestmentPlatform.Lib.Table

namespace InvestmentPlatform.Cycle

abbrev CycleId := String
abbrev Market := String
abbrev OwnerId := String
abbrev InstrumentId := String

/-- A point of the database clock, in microseconds. -/
abbrev Instant := Int

/-- The `CHECK` of the status column. -/
inductive RunStatus
  | accepted | running | published | cancelRequested | completed | failed | cancelled
  deriving DecidableEq, Repr

/-- `ACTIVE_RUN_STATUSES`. -/
def activeRunStatuses : List RunStatus := [.accepted, .running, .published, .cancelRequested]

def RunStatus.Active (status : RunStatus) : Prop := status ∈ activeRunStatuses

instance (status : RunStatus) : Decidable status.Active :=
  inferInstanceAs (Decidable (status ∈ activeRunStatuses))

/-- The statuses on which `update_cycle_run` clears the owner and the active slot. -/
def RunStatus.Terminal (status : RunStatus) : Prop :=
  status ∈ ([.completed, .failed, .cancelled] : List RunStatus)

instance (status : RunStatus) : Decidable status.Terminal :=
  inferInstanceAs (Decidable (status ∈ ([.completed, .failed, .cancelled] : List RunStatus)))

/-- A row of `global_opportunity_cycle_run`; the cycle id is its key. -/
structure CycleRun where
  market : Market
  status : RunStatus
  parameters : String
  asOf : Option String
  selection : Option String
  ownerId : Option OwnerId
  leaseExpiresAt : Option Instant
  resumeCount : Nat
  errorCode : Option String
  deriving DecidableEq, Repr

/-- The phases the progress table admits. -/
inductive Phase
  | baseline | deep | etfOnboard
  deriving DecidableEq, Repr

inductive CandidateState
  | pending | inProgress | completed | retryableFailure | evidenceUnavailable | terminalOutcome
  deriving DecidableEq, Repr

/-- A row of `global_opportunity_cycle_progress`. -/
structure ProgressRow where
  state : CandidateState
  disposition : Option String
  failureReason : Option String
  attempts : Nat
  payload : Option String
  deriving DecidableEq, Repr

abbrev ProgressKey := CycleId × Phase × InstrumentId

structure Store where
  clock : Instant
  runs : Table CycleId CycleRun
  active : Table Market CycleId
  progress : Table ProgressKey ProgressRow

def Store.empty (clock : Instant) : Store := ⟨clock, Table.empty, Table.empty, Table.empty⟩

/-- What a method raises. -/
inductive StoreError
  | cycleOwnershipLost (cycleId : CycleId)
  | integrityError
  | databaseError
  deriving DecidableEq, Repr

/-- What a method returns or raises. -/
inductive Reply
  | run (cycleId : CycleId) (row : CycleRun) (created : Bool)
  | flag (value : Bool)
  | done
  | raised (error : StoreError)
  deriving DecidableEq, Repr

/-! ### The conditions the statements share -/

/-- `owner_id = ?`. -/
def CycleRun.OwnedBy (row : CycleRun) (ownerId : OwnerId) : Prop := row.ownerId = some ownerId

/-- The lease is set and its expiry compares as `p` says. -/
def CycleRun.LeaseWhere (row : CycleRun) (p : Instant → Prop) : Prop :=
  ∃ expiry, row.leaseExpiresAt = some expiry ∧ p expiry

/-- `lease_expires_at > clock`. -/
def CycleRun.LeaseLive (row : CycleRun) (clock : Instant) : Prop :=
  row.LeaseWhere fun expiry => clock < expiry

/-- `owner_id IS NULL OR lease_expires_at IS NULL OR lease_expires_at <= clock`. -/
def CycleRun.Unowned (row : CycleRun) (clock : Instant) : Prop :=
  row.ownerId = none ∨ row.leaseExpiresAt = none ∨ row.LeaseWhere fun expiry => expiry ≤ clock

instance (row : CycleRun) (ownerId : OwnerId) : Decidable (row.OwnedBy ownerId) :=
  inferInstanceAs (Decidable (row.ownerId = some ownerId))

instance (row : CycleRun) (p : Instant → Prop) [DecidablePred p] : Decidable (row.LeaseWhere p) :=
  inferInstanceAs (Decidable (∃ expiry, row.leaseExpiresAt = some expiry ∧ p expiry))

instance (row : CycleRun) (clock : Instant) : Decidable (row.LeaseLive clock) :=
  inferInstanceAs (Decidable (row.LeaseWhere fun expiry => clock < expiry))

instance (row : CycleRun) (clock : Instant) : Decidable (row.Unowned clock) :=
  inferInstanceAs (Decidable (_ ∨ _ ∨ row.LeaseWhere fun expiry => expiry ≤ clock))

/-- Replace the run table by the result of an update. -/
def Store.updateRun (s : Store) (cycleId : CycleId) (guard : CycleRun → Prop)
    [DecidablePred guard] (f : CycleRun → CycleRun) : Store × Nat :=
  ({ s with runs := (s.runs.updateWhere cycleId guard f).1 },
    (s.runs.updateWhere cycleId guard f).2)

/-- `DELETE FROM global_opportunity_cycle_active WHERE cycle_id = ?`. -/
def Store.dropSlot (s : Store) (cycleId : CycleId) : Store :=
  { s with active := s.active.deleteWhere fun named => named = cycleId }

/-! ### Creating, claiming and renewing -/

/-- The slot of a market joined with the run it names. -/
def activeCycleRun (market : Market) (s : Store) : Option (CycleId × CycleRun) :=
  (s.active market).bind fun cycleId => (s.runs cycleId).map fun row => (cycleId, row)

/-- The row `create_cycle_run` inserts. -/
def acceptedRun (market : Market) (parameters : String) : CycleRun :=
  { market, status := .accepted, parameters, asOf := none, selection := none, ownerId := none,
    leaseExpiresAt := none, resumeCount := 0, errorCode := none }

/-- The run row and the active slot, in one transaction: either insert fails on a taken key. -/
def insertRunAndSlot (cycleId : CycleId) (parameters : String) (market : Market) (s : Store) :
    Except StoreError Store :=
  match s.runs.insert cycleId (acceptedRun market parameters) with
  | none => .error .integrityError
  | some runs =>
      match s.active.insert market cycleId with
      | none => .error .integrityError
      | some active => .ok { s with runs, active }

def createCycleRun (cycleId : CycleId) (parameters : String) (market : Market) (s : Store) :
    Reply × Store :=
  match activeCycleRun market s with
  | some (existingId, existing) => (.run existingId existing false, s)
  | none =>
      match insertRunAndSlot cycleId parameters market s with
      | .ok s' => (.run cycleId (acceptedRun market parameters) true, s')
      | .error error =>
          -- A concurrent creator won the slot: read its row, else re-raise.
          match activeCycleRun market s with
          | some (existingId, existing) => (.run existingId existing false, s)
          | none => (.raised error, s)

/-- The guard of a claim: the lease is free, ours, or expired before `now`. -/
def CycleRun.Claimable (row : CycleRun) (ownerId : OwnerId) (now : Instant) : Prop :=
  row.status.Active ∧ (row.ownerId = none ∨ row.OwnedBy ownerId ∨
    row.leaseExpiresAt = none ∨ row.LeaseWhere fun expiry => expiry < now)

instance (row : CycleRun) (ownerId : OwnerId) (now : Instant) :
    Decidable (row.Claimable ownerId now) :=
  inferInstanceAs (Decidable (_ ∧ (_ ∨ _ ∨ _ ∨ row.LeaseWhere fun expiry => expiry < now)))

/-- The columns a claim sets. -/
def CycleRun.claim (ownerId : OwnerId) (leaseSeconds : Int) (now : Instant) (row : CycleRun) :
    CycleRun :=
  { row with
    resumeCount := row.resumeCount +
      (if row.status ≠ .accepted ∧ (row.ownerId = none ∨ ¬ row.OwnedBy ownerId) then 1 else 0)
    status := if row.status = .accepted then .running else row.status
    ownerId := some ownerId
    leaseExpiresAt := some (now + leaseSeconds * 1000000) }

/-- `now` is what `_lease_now` read from the clock before the update's own transaction. -/
def claimCycleRun (cycleId : CycleId) (ownerId : OwnerId) (leaseSeconds : Int) (now : Instant)
    (s : Store) : Reply × Store :=
  let updated := s.updateRun cycleId (fun row => row.Claimable ownerId now)
    (CycleRun.claim ownerId leaseSeconds now)
  (.flag (updated.2 == 1), updated.1)

def renewCycleLease (cycleId : CycleId) (ownerId : OwnerId) (leaseSeconds : Int) (now : Instant)
    (s : Store) : Reply × Store :=
  let updated := s.updateRun cycleId
    (fun row => row.OwnedBy ownerId ∧ row.status.Active ∧ row.LeaseLive s.clock)
    (fun row => { row with leaseExpiresAt := some (now + leaseSeconds * 1000000) })
  (.flag (updated.2 == 1), updated.1)

def releaseCycleRun (cycleId : CycleId) (ownerId : OwnerId) (s : Store) : Reply × Store :=
  let updated := s.updateRun cycleId
    (fun row => row.OwnedBy ownerId ∧ row.LeaseLive s.clock ∧ row.status.Active)
    (fun row => { row with ownerId := none, leaseExpiresAt := none })
  (.done, updated.1)

/-! ### The fenced update -/

/-- The keyword arguments of `update_cycle_run`; `none` is an argument not given. -/
structure RunFields where
  status : Option RunStatus := none
  asOf : Option (Option String) := none
  selection : Option String := none
  errorCode : Option (Option String) := none
  deriving DecidableEq, Repr

/-- The statuses from which the update is allowed. -/
def RunFields.states (fields : RunFields) : List RunStatus :=
  if fields.status = some .completed then [.running, .published]
  else if fields.status = some .cancelled then [.accepted, .running, .cancelRequested]
  else [.accepted, .running]

def RunFields.assign (fields : RunFields) (row : CycleRun) : CycleRun :=
  { row with
    status := fields.status.getD row.status
    asOf := fields.asOf.getD row.asOf
    selection := fields.selection.or row.selection
    errorCode := fields.errorCode.getD row.errorCode }

/-- `SET owner_id = NULL, lease_expires_at = NULL`. -/
def CycleRun.disown (row : CycleRun) : CycleRun :=
  { row with ownerId := none, leaseExpiresAt := none }

def updateCycleRun (cycleId : CycleId) (ownerId : OwnerId) (fields : RunFields) (s : Store) :
    Reply × Store :=
  let updated := s.updateRun cycleId
    (fun row => row.OwnedBy ownerId ∧ row.LeaseLive s.clock ∧ row.status ∈ fields.states)
    fields.assign
  if updated.2 ≠ 1 then (.raised (.cycleOwnershipLost cycleId), s)
  else if ∃ status, fields.status = some status ∧ status.Terminal then
    (.done, ((updated.1.updateRun cycleId (fun _ => True) CycleRun.disown).1).dropSlot cycleId)
  else (.done, updated.1)

/-! ### The terminal transitions and the cancellation request -/

/-- The three methods that set a terminal status in one statement and, when it touched a row,
drop the active slot: the owner and the lease go with the status. -/
def settle (cycleId : CycleId) (guard : CycleRun → Prop) [DecidablePred guard]
    (status : RunStatus) (errorCode : String) (s : Store) : Bool × Store :=
  let updated := s.updateRun cycleId guard
    (fun row => ({ row with status, errorCode := some errorCode } : CycleRun).disown)
  if updated.2 = 1 then (true, updated.1.dropSlot cycleId) else (false, updated.1)

def failUnownedCycleRun (cycleId : CycleId) (errorCode : String) (s : Store) : Reply × Store :=
  (.done, (settle cycleId
    (fun row => row.status ∈ ([.accepted, .running] : List RunStatus) ∧ row.Unowned s.clock)
    .failed errorCode s).2)

def requestCycleCancel (cycleId : CycleId) (errorCode : String) (s : Store) : Reply × Store :=
  let updated := s.updateRun cycleId
    (fun row => row.status ∈ ([.accepted, .running] : List RunStatus))
    (fun row => { row with status := .cancelRequested, errorCode := some errorCode })
  (.flag (updated.2 == 1), updated.1)

def cancelCycleRun (cycleId : CycleId) (ownerId : OwnerId) (errorCode : String) (s : Store) :
    Reply × Store :=
  let settled := settle cycleId
    (fun row => row.OwnedBy ownerId ∧
      row.status ∈ ([.cancelRequested, .running, .accepted] : List RunStatus) ∧
      row.LeaseLive s.clock)
    .cancelled errorCode s
  (.flag settled.1, settled.2)

/-- `reason or 'CYCLE_CANCELLED'`: an empty reason is no reason. -/
def cancelReason (reason : Option String) : String :=
  match reason with
  | some text => if text = "" then "CYCLE_CANCELLED" else text
  | none => "CYCLE_CANCELLED"

def cancelCycleRunUnowned (cycleId : CycleId) (reason : Option String) (s : Store) :
    Reply × Store :=
  let settled := settle cycleId
    (fun row => row.status = .cancelRequested ∧ row.Unowned s.clock)
    .cancelled (cancelReason reason) s
  (.flag settled.1, settled.2)

/-! ### The two publication fences -/

/-- `_fence_cycle_publication`: flip a running, owned, leased cycle to PUBLISHED. -/
def fenceCyclePublication (cycleId : CycleId) (ownerId : OwnerId) (s : Store) :
    Except StoreError Store :=
  if ∃ row, s.runs cycleId = some row ∧
      row.status ∈ ([.cancelRequested, .cancelled] : List RunStatus) then
    .error (.cycleOwnershipLost cycleId)
  else
    let updated := s.updateRun cycleId
      (fun row => row.OwnedBy ownerId ∧ row.status = .running ∧ row.LeaseLive s.clock)
      (fun row => { row with status := .published })
    if updated.2 = 1 then .ok updated.1 else .error (.cycleOwnershipLost cycleId)

/-- `_fence_published_owner`: it writes `updated_at` only, so it is a guard on the store. -/
def fencePublishedOwner (cycleId : CycleId) (ownerId : OwnerId) (s : Store) :
    Except StoreError Store :=
  let updated := s.updateRun cycleId
    (fun row => row.OwnedBy ownerId ∧ row.status = .published ∧ row.LeaseLive s.clock) id
  if updated.2 = 1 then .ok updated.1 else .error (.cycleOwnershipLost cycleId)

/-! ### Progress -/

/-- The state, disposition, reason and payload one progress write carries. -/
structure ProgressWrite where
  state : CandidateState
  disposition : Option String := none
  failureReason : Option String := none
  payload : Option String := none
  deriving DecidableEq, Repr

/-- The `WHERE` of the `INSERT ... SELECT`: a running cycle takes any write, a cancelling one
only the end of an attempt that has a row. -/
def admitsProgress (s : Store) (key : ProgressKey) (ownerId : OwnerId) (startAttempt : Bool)
    (row : CycleRun) : Prop :=
  row.OwnedBy ownerId ∧ row.LeaseLive s.clock ∧
    (row.status = .running ∨
      (row.status = .cancelRequested ∧ startAttempt = false ∧ (s.progress key).isSome))

instance (s : Store) (key : ProgressKey) (ownerId : OwnerId) (startAttempt : Bool)
    (row : CycleRun) : Decidable (admitsProgress s key ownerId startAttempt row) :=
  inferInstanceAs (Decidable (_ ∧ _ ∧ (_ ∨ (_ ∧ _ ∧ _))))

/-- `ON CONFLICT DO UPDATE`: every column is the write's, the attempts accumulate. -/
def upsertProgress (key : ProgressKey) (write : ProgressWrite) (startAttempt : Bool)
    (progress : Table ProgressKey ProgressRow) : Table ProgressKey ProgressRow :=
  let previous := match progress key with
    | some row => row.attempts
    | none => 0
  progress.put key
    { state := write.state, disposition := write.disposition,
      failureReason := write.failureReason,
      attempts := previous + (if startAttempt then 1 else 0), payload := write.payload }

def recordCycleProgress (cycleId : CycleId) (ownerId : OwnerId) (phase : Phase)
    (instrument : InstrumentId) (write : ProgressWrite) (startAttempt : Bool) (s : Store) :
    Reply × Store :=
  if ∃ row, s.runs cycleId = some row ∧
      admitsProgress s (cycleId, phase, instrument) ownerId startAttempt row then
    (.done, { s with
      progress := upsertProgress (cycleId, phase, instrument) write startAttempt s.progress })
  else (.raised (.cycleOwnershipLost cycleId), s)

end InvestmentPlatform.Cycle
