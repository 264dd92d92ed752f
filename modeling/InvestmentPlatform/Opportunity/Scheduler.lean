/-
The scheduler of the shared opportunity scan, `app/global_opportunity_scheduler.py`, over the
durable job history.

What the scheduler remembers of its submissions is in its process; a new process reads the job
history once and goes on polling.  A submission waits for the worker, which creates a cycle or joins
it to one that is there.  Other pods, other markets and the operator change the jobs meanwhile; the
calendar, the pause and the worker's own activity may change at any time.
-/
import InvestmentPlatform.Lib.Machine
import InvestmentPlatform.Market.Sessions

namespace InvestmentPlatform.Opportunity.Scheduler

open Market (Instant Date SessionStatus MarketTradingSchedule MarketCalendarException)

/-! ### The calendar -/

/-- What `market_session_status` and `_session_bounds` say. -/
structure Calendar where
  status : Instant → SessionStatus
  bounds : Date → Option (Instant × Instant)

theorem opening_nonneg : (0 : Int) ≤ 33300000000 := by decide

theorem opening_lt : (33300000000 : Int) < Market.dayLength := by decide

theorem closing_nonneg : (0 : Int) ≤ 55800000000 := by decide

theorem closing_lt : (55800000000 : Int) < Market.dayLength := by decide

/-- The rows that stand in where the database has none. -/
def fallbackSchedules (market : String) : List MarketTradingSchedule :=
  [0, 1, 2, 3, 4].map fun day =>
    { marketCode := market
      mic := some "XNSE"
      timezone := "Asia/Kolkata"
      tradingDay := day
      regularOpenTime := ⟨33300000000, opening_nonneg, opening_lt⟩
      regularCloseTime := ⟨55800000000, closing_nonneg, closing_lt⟩
      enabled := true }

/-- The calendar of a market, with `_load_schedules`. -/
def Calendar.ofRows (upper : String → String) (zoneInfo : String → Option Market.Zone)
    (market : String) (schedules : List MarketTradingSchedule)
    (exceptions : List MarketCalendarException) : Calendar :=
  let schedules := if schedules = [] then fallbackSchedules market else schedules
  { status := Market.marketSessionStatus upper zoneInfo market schedules exceptions
    bounds := Market.sessionBounds upper zoneInfo market schedules exceptions }

/-! ### Jobs -/

/-- The status of a cycle, as `opportunity_jobs` reports it: a published run is still running. -/
inductive JobStatus
  | accepted | running | completed | failed | cancelRequested | cancelled
  deriving DecidableEq, Repr

/-- A write to a cycle's row may find it in one status and leave it in the other. -/
def JobStatus.mayBecome : JobStatus → JobStatus → Bool
  | .accepted, .completed => false
  | .accepted, _ => true
  | .running, .accepted => false
  | .running, _ => true
  | .cancelRequested, status => status = .cancelRequested || status = .cancelled
  | _, _ => false

/-- The row is in the active slot of its market no more. -/
def JobStatus.terminal : JobStatus → Bool
  | .completed | .failed | .cancelled => true
  | _ => false

structure Job where
  status : JobStatus
  updatedAt : Instant
  deriving DecidableEq, Repr

/-- What `_recover_last_runs` makes of one job. -/
def recoverJob (last : Option Instant) (job : Job) : Option Instant :=
  if job.status = .completed ∨ job.status = .accepted ∨ job.status = .running then
    if last.all (· < job.updatedAt) then some job.updatedAt else last
  else last

/-- `_recover_last_runs`, of the market hours; nothing is recovered of the post-close runs. -/
def recoverLastRuns (jobs : List Job) : Option Instant := jobs.foldl recoverJob none

/-! ### The scheduler -/

inductive Phase
  | marketHours | postClose
  deriving DecidableEq, Repr

inductive Outcome
  | returned | raised
  /-- The process was stopped before the submission came back. -/
  | stopped
  deriving DecidableEq, Repr

/-- A call of `submit_async`. -/
structure Submission where
  phase : Phase
  /-- The time that the poll has read. -/
  madeAt : Instant
  /-- The close of the latest completed session at that time. -/
  session : Option Instant
  /-- The cycle that the worker has created for it, or joined it to. -/
  job : Option Nat := none
  deriving DecidableEq, Repr

structure Settings where
  hourlyInterval : Int := 3600000000
  postCloseWindow : Int := 7200000000

structure State where
  now : Instant
  calendar : Calendar
  /-- `research_opportunity_recovery_paused`. -/
  paused : Bool
  /-- `worker.active is not None`. -/
  active : Bool
  jobs : List Job
  /-- The market's row of `global_opportunity_cycle_active`. -/
  slot : Option Nat
  lastMarketHoursRun : Option Instant
  lastPostCloseRun : Option Instant
  /-- The submission that is waited for. -/
  inFlight : Option Submission
  /-- The submissions that were made before, and how they ended. -/
  past : List (Submission × Outcome)

namespace State

variable (settings : Settings) (state : State)

def jobStatus (job : Nat) : Option JobStatus := state.jobs[job]?.map Job.status

/-- `active_cycle_run`, of the market. -/
def activeCycleStatus : Option JobStatus := state.slot.bind state.jobStatus

def marketHoursDue : Bool :=
  state.lastMarketHoursRun.all fun last => settings.hourlyInterval ≤ state.now - last

/-- The close of the latest completed session. -/
def completedSession : Option Instant :=
  Market.latestCompletedSession state.calendar.bounds state.now

def postCloseDue : Bool :=
  match state.completedSession with
  | none => false
  | some completed =>
    state.lastPostCloseRun.all (· < completed) && state.now - completed ≤ settings.postCloseWindow

/-- `_submission_due`. -/
def submissionDue : Option Phase :=
  if state.paused then none
  else if state.active then none
  else if state.activeCycleStatus = some .cancelRequested ∨
      state.activeCycleStatus = some .cancelled then none
  else
    match state.calendar.status state.now with
    | .isOpen => if state.marketHoursDue settings then some .marketHours else none
    | .closed => if state.postCloseDue settings then some .postClose else none
    | _ => none

/-- The submission that is waited for is over. -/
def ended (submission : Submission) (outcome : Outcome) : State :=
  { state with inFlight := none, past := state.past ++ [(submission, outcome)] }

end State

inductive Action
  | clock (now : Instant)
  | setCalendar (calendar : Calendar)
  | setPaused (paused : Bool)
  | setActive (active : Bool)
  /-- A cycle of another market, or one that another pod starts in the market's slot. -/
  | foreignJob (slot : Bool)
  /-- A write to a cycle's row. -/
  | progress (job : Nat) (status : JobStatus)
  | poll
  /-- `create_cycle_run`: the slot's cycle, or a new one. -/
  | createCycleRun
  /-- The worker answers with the cycle that it has in hand. -/
  | coalesce (job : Nat)
  | returned
  | raised
  | restart

/-- One step; the loop polls again when the submission before has come back. -/
def State.exec (settings : Settings) (state : State) : Action → Option State
  | .clock now => if state.now ≤ now then some { state with now := now } else none
  | .setCalendar calendar => some { state with calendar := calendar }
  | .setPaused paused => some { state with paused := paused }
  | .setActive active => some { state with active := active }
  | .foreignJob slot =>
    if slot ∧ state.slot.isSome then none
    else
      some { state with
        jobs := state.jobs ++ [⟨.accepted, state.now⟩]
        slot := if slot then some state.jobs.length else state.slot }
  | .progress job status =>
    match state.jobs[job]? with
    | none => none
    | some old =>
      if old.status.mayBecome status then
        some { state with
          jobs := state.jobs.set job ⟨status, state.now⟩
          slot := if status.terminal ∧ state.slot = some job then none else state.slot }
      else none
  | .poll =>
    match state.inFlight, state.submissionDue settings with
    | some _, _ => none
    | none, none => some state
    | none, some phase =>
      some { state with
        inFlight := some
          { phase := phase, madeAt := state.now, session := state.completedSession } }
  | .createCycleRun =>
    match state.inFlight with
    | none => none
    | some submission =>
      if submission.job.isSome then none
      else
        match state.slot with
        | some job => some { state with inFlight := some { submission with job := some job } }
        | none =>
          some { state with
            jobs := state.jobs ++ [⟨.accepted, state.now⟩]
            slot := some state.jobs.length
            inFlight := some { submission with job := some state.jobs.length } }
  | .coalesce job =>
    match state.inFlight with
    | none => none
    | some submission =>
      if submission.job.isSome ∨ state.jobs.length ≤ job then none
      else some { state with inFlight := some { submission with job := some job } }
  | .returned =>
    state.inFlight.map fun submission =>
      match submission.phase with
      | .marketHours =>
        { state.ended submission .returned with lastMarketHoursRun := some submission.madeAt }
      | .postClose =>
        { state.ended submission .returned with lastPostCloseRun := some submission.madeAt }
  | .raised => state.inFlight.map fun submission => state.ended submission .raised
  | .restart =>
    some { state with
      lastMarketHoursRun := recoverLastRuns state.jobs
      lastPostCloseRun := none
      inFlight := none
      past := state.past ++ (state.inFlight.map fun submission => (submission, .stopped)).toList }

/-- Any run from the first start of the scheduler on. -/
def machine (settings : Settings) : Machine State Action where
  init state := state.inFlight = none ∧ state.past = [] ∧
    ∀ job, state.slot = some job → job < state.jobs.length
  step state action state' := state.exec settings action = some state'

end InvestmentPlatform.Opportunity.Scheduler
