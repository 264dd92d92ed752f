/-
`refresh`, `backfill` and `refresh_targeted_categories` of one instrument: the flight they share,
and the run rows of its tasks.

A task is known by the caller that created it, and goes from await to await.  Its writes to the
run row are committed when the dispatcher executes them, and the task goes on some time after.
Only callers are cancelled: a cancellation reaches a task when the owner of a targeted refresh
awaits it, and then it hits the task where the task awaits.
-/
import InvestmentPlatform.Lib.Machine

namespace InvestmentPlatform.Evidence.RefreshFlights

variable {K C : Type}

/-- Which categories a call asks for, or a task processes. -/
inductive Scope (K : Type)
  | only (categories : List K)
  /-- All but the categories that were resolved before. -/
  | allBut (categories : List K)

def Scope.Mem (scope : Scope K) (category : K) : Prop :=
  match scope with
  | .only categories => category ∈ categories
  | .allBut categories => category ∉ categories

/-- The task processes every category the call asks for. -/
def Scope.Covers (task call : Scope K) : Prop := ∀ category, call.Mem category → task.Mem category

inductive Kind
  | refresh
  | backfill
  | targeted
  deriving DecidableEq, Repr

inductive Status
  | running
  | completed
  | failed
  deriving DecidableEq, Repr

/-- How provider work ends. -/
inductive Outcome
  | returned
  | raised
  | cancelled
  deriving DecidableEq, Repr

/-- Where a task is. -/
inductive Stage
  | created
  /-- In the write of the run row, and whether it is committed. -/
  | starting (committed : Bool)
  /-- In `_refresh_live`, under a run. -/
  | providing
  /-- In `_refresh_live`, without a run. -/
  | repairing
  /-- In the write of `COMPLETED`. -/
  | completing (committed : Bool)
  /-- In the write of `FAILED`, on the way out with a cancellation or with an error. -/
  | failing (committed cancelled : Bool)
  | done (outcome : Outcome)
  deriving DecidableEq, Repr

structure Task (K : Type) where
  kind : Kind
  scope : Scope K
  stage : Stage := .created
  /-- The run row. -/
  row : Option Status := none
  /-- How often the row was given a terminal status. -/
  terminalWrites : Nat := 0
  /-- How the provider work under the run ended. -/
  worked : Option Outcome := none
  /-- A cancellation has hit the write that the task awaits. -/
  interrupted : Bool := false
  cancelRequested : Bool := false

namespace Task

variable (task : Task K)

def isDone : Bool :=
  match task.stage with
  | .done _ => true
  | _ => false

/-- The first stretch of the task; `due` is what the gate of a refresh says. -/
def begin (live due : Bool) : Option (Task K) :=
  match task.stage with
  | .created =>
    match task.kind with
    | .targeted => some { task with stage := .starting false }
    | .refresh =>
      if due then some { task with stage := .starting false }
      else some { task with stage := if live then .repairing else .done .returned }
    | .backfill => some { task with stage := if live then .repairing else .done .returned }
  | _ => none

/-- The dispatcher executes the write of the run row. -/
def commit : Option (Task K) :=
  match task.stage with
  | .starting false => some { task with stage := .starting true, row := some .running }
  | .completing false =>
    some { task with
      stage := .completing true, row := some .completed, terminalWrites := task.terminalWrites + 1 }
  | .failing false cancelled =>
    some { task with
      stage := .failing true cancelled, row := some .failed,
      terminalWrites := task.terminalWrites + 1 }
  | _ => none

/-- The task goes on after the write. -/
def resume (live : Bool) : Option (Task K) :=
  match task.stage with
  | .starting true =>
    if task.interrupted then
      some { task with stage := .failing false true, interrupted := false }
    else some { task with stage := if live then .providing else .completing false }
  | .completing true =>
    some { task with stage := .done (if task.interrupted then .cancelled else .returned) }
  | .failing true cancelled =>
    some { task with
      stage := .done (if cancelled ∨ task.interrupted then .cancelled else .raised) }
  | _ => none

/-- The provider work ends. -/
def provided (outcome : Outcome) : Option (Task K) :=
  match task.stage, outcome with
  | .providing, .returned =>
    some { task with stage := .completing false, worked := some .returned }
  | .providing, .raised =>
    some { task with stage := .failing false false, worked := some .raised }
  | .providing, .cancelled =>
    if task.cancelRequested then
      some { task with stage := .failing false true, worked := some .cancelled }
    else none
  | .repairing, .returned => some { task with stage := .done .returned }
  | .repairing, .raised => some { task with stage := .done .raised }
  | _, _ => none

/-- `task.cancel()`, where the task is not done. -/
def cancel : Task K :=
  match task.stage with
  | .created => { task with stage := .done .cancelled, cancelRequested := true }
  | .starting _ | .completing _ | .failing _ _ =>
    { task with interrupted := true, cancelRequested := true }
  | _ => { task with cancelRequested := true }

end Task

/-- How a call ends: with the result, the error or the cancellation of a task, or with a
cancellation of its own. -/
inductive Ending (C : Type)
  | returned (task : C)
  | raised (task : C)
  | cancelled
  deriving DecidableEq, Repr

inductive Phase (C : Type)
  | fresh
  /-- It awaits a task that it found. -/
  | joined (task : C)
  /-- It awaits the task that it created. -/
  | owning
  | ended (ending : Ending C)
  deriving DecidableEq, Repr

structure Caller (K C : Type) where
  phase : Phase C := .fresh
  kind : Kind := .refresh
  scope : Scope K := .only []
  /-- A cancellation has hit the caller. -/
  hit : Bool := false

structure State (K C : Type) where
  /-- `_instrument_refresh_flights.get(id)`. -/
  flight : Option C
  tasks : C → Option (Task K)
  callers : C → Caller K C

def start : State K C := ⟨none, fun _ => none, fun _ => {}⟩

inductive Action (K C : Type)
  /-- A call; a targeted refresh for no category returns at once, and is none. -/
  | call (caller : C) (kind : Kind) (scope : Scope K)
  | begin (task : C) (due : Bool)
  | commit (task : C)
  | resume (task : C)
  | provided (task : C) (outcome : Outcome)
  /-- The done callback. -/
  | cleanup (task : C)
  /-- The caller is told that its task is done. -/
  | wake (caller : C)
  | cancel (caller : C)

namespace State

variable [DecidableEq C] (state : State K C)

def put (caller : C) (record : Caller K C) : State K C :=
  { state with callers := Function.update state.callers caller record }

def setTask (id : C) (task : Task K) : State K C :=
  { state with tasks := Function.update state.tasks id (some task) }

/-- A stretch of a task. -/
def run (id : C) (step : Task K → Option (Task K)) : Option (State K C) :=
  ((state.tasks id).bind step).map fun task => state.setTask id task

/-- What the caller is told when the task is done. -/
def ending (id : C) : Option (Ending C) :=
  match (state.tasks id).map Task.stage with
  | some (.done .returned) => some (.returned id)
  | some (.done .raised) => some (.raised id)
  | some (.done .cancelled) => some .cancelled
  | _ => none

def exec (live : Bool) : Action K C → Option (State K C)
  | .call caller kind scope =>
    match (state.callers caller).phase with
    | .fresh =>
      match state.flight with
      | some task => some (state.put caller ⟨.joined task, kind, scope, false⟩)
      | none =>
        some { (state.setTask caller { kind := kind, scope := scope }).put caller
            ⟨.owning, kind, scope, false⟩ with
          flight := some caller }
    | _ => none
  | .begin task due => state.run task fun t => t.begin live due
  | .commit task => state.run task Task.commit
  | .resume task => state.run task fun t => t.resume live
  | .provided task outcome => state.run task fun t => t.provided outcome
  | .cleanup task =>
    if (state.tasks task).any Task.isDone then
      some { state with flight := if state.flight = some task then none else state.flight }
    else none
  | .wake caller =>
    match (state.callers caller).phase with
    | .joined task =>
      (state.ending task).map fun ending =>
        state.put caller { state.callers caller with phase := .ended ending }
    | .owning =>
      (state.ending caller).map fun ending =>
        state.put caller { state.callers caller with phase := .ended ending }
    | _ => none
  | .cancel caller =>
    let record := { state.callers caller with hit := true }
    match record.phase with
    | .fresh | .ended _ => none
    | .joined _ => some (state.put caller { record with phase := .ended .cancelled })
    | .owning =>
      if record.kind = .targeted ∧ (state.tasks caller).any fun task => !task.isDone then
        (state.tasks caller).map fun task => (state.setTask caller task.cancel).put caller record
      else some (state.put caller { record with phase := .ended .cancelled })

end State

/-- Any interleaving of any number of callers; `live` is `research_live_enabled`. -/
def machine [DecidableEq C] (live : Bool) : Machine (State K C) (Action K C) :=
  .ofPartial start fun state => state.exec live

end InvestmentPlatform.Evidence.RefreshFlights
