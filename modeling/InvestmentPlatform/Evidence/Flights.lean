/-
`ResearchReadinessRuntime.ensure` for one instrument: the flights it registers, and the callers
that join them.

A caller runs without interruption from one await to the next.  What it reads, how a plan ends
and where a cancellation hits is given with the step.  A flight is known by the caller that
registered it.  The reads and the record of the observations succeed.
-/
import InvestmentPlatform.Evidence.Overlays
import Mathlib.Data.List.Infix

namespace InvestmentPlatform.Evidence.Flights

open Overlays (Reason)

variable {K C : Type}

/-- How the task of a flight ended. -/
inductive Settlement (K : Type)
  | finished (failures : Dict K Reason)
  | raised
  | cancelled

/-- `_EnsureFlight`. -/
structure Flight (K : Type) where
  requirementIds : List K
  /-- How the task ended, once it has. -/
  settled : Option (Settlement K) := none
  /-- `task.cancel()` was called. -/
  cancelRequested : Bool := false
  /-- The done callback has run. -/
  cleaned : Bool := false

/-- How a call of `ensure` ends. -/
inductive Outcome (C : Type)
  | returned
  /-- With the error or the cancellation of the plan it registered. -/
  | own
  /-- With the cancellation that hit it. -/
  | cancelled
  /-- With the error or the cancellation of a flight it joined. -/
  | foreign (flight : C)
  deriving DecidableEq, Repr

inductive Phase (K C : Type)
  | fresh
  /-- In the first read, or in `financial_authority_upgrade_due`. -/
  | planning
  /-- In `asyncio.gather` over the flights it joined. -/
  | joining (flights : List C)
  /-- In the read after that. -/
  | replanning (attempted : List K) (failures : Dict K Reason)
  /-- In `asyncio.shield(task)`. -/
  | owning
  /-- It was cancelled and awaits the task it has cancelled. -/
  | draining
  /-- In the record of the observations, or in the last read. -/
  | recording
  | ended (outcome : Outcome C)

structure Caller (K C : Type) where
  phase : Phase K C := .fresh
  requested : Option (List K) := none
  waitForCompletion : Bool := false
  /-- A cancellation has hit the caller. -/
  hit : Bool := false

/-- `"ACQUISITION_TIMEOUT" in reason`. -/
def timedOut (reason : Reason) : Bool :=
  reason.any fun part => decide ("ACQUISITION_TIMEOUT".toList <:+: part.toList)

structure State (K C : Type) where
  /-- `_flights.get(id)`. -/
  registered : Option (List C)
  flights : C → Option (Flight K)
  callers : C → Caller K C

def start : State K C := ⟨none, fun _ => none, fun _ => {}⟩

inductive Action (K C : Type)
  | call (caller : C) (requested : Option (List K)) (waitForCompletion : Bool)
  /-- The planner's targets for what was read. -/
  | plan (caller : C) (targets : List K)
  /-- All joined flights have finished. -/
  | joined (caller : C)
  /-- A joined flight was cancelled or has raised. -/
  | joinFailed (caller flight : C)
  /-- The planner's targets for what was read after that. -/
  | replan (caller : C) (targets : List K)
  | settle (flight : C) (settlement : Settlement K)
  /-- The done callback of a flight. -/
  | cleanup (flight : C)
  /-- The owner is told that its task is done. -/
  | wake (caller : C)
  | finish (caller : C)
  | cancel (caller : C)

namespace State

variable (state : State K C)

/-- A flight whose task is not done. -/
def Active (flight : C) : Prop :=
  ∃ f, state.flights flight = some f ∧ f.settled = none

def isActive (flight : C) : Bool :=
  (state.flights flight).any fun f => f.settled.isNone

/-- The requirements of a flight. -/
def requirementIds (flight : C) : List K :=
  ((state.flights flight).map Flight.requirementIds).getD []

/-- `shared_execution.failures` of a flight. -/
def failures (flight : C) : Dict K Reason :=
  match (state.flights flight).bind Flight.settled with
  | some (.finished failures) => failures
  | _ => .empty

/-- The flight has finished. -/
def hasFinished (flight : C) : Bool :=
  match (state.flights flight).bind Flight.settled with
  | some (.finished _) => true
  | _ => false

/-- The flight was cancelled or has raised. -/
def hasFailed (flight : C) : Bool :=
  match (state.flights flight).bind Flight.settled with
  | some .raised | some .cancelled => true
  | _ => false

variable [DecidableEq K] [DecidableEq C]

/-- `shared_failures`: of the later flight where two report the same requirement. -/
def sharedFailures (flights : List C) : Dict K Reason :=
  flights.foldl (fun all flight =>
    (state.failures flight).items.foldl (fun all item => all.set item.1 item.2) all) .empty

def put (caller : C) (record : Caller K C) : State K C :=
  { state with callers := Function.update state.callers caller record }

def setPhase (caller : C) (phase : Phase K C) : State K C :=
  state.put caller { state.callers caller with phase := phase }

def setFlight (flight : C) (f : Flight K) : State K C :=
  { state with flights := Function.update state.flights flight (some f) }

/-- A task is created and its flight is registered. -/
def register (caller : C) (targets : List K) : State K C :=
  { (state.setFlight caller ⟨targets, none, false, false⟩).setPhase caller .owning with
    registered := some ((state.registered.getD []).filter state.isActive ++ [caller]) }

/-- The targets are among the requirements that were asked for. -/
def selects (caller : C) (targets : List K) : Bool :=
  (state.callers caller).requested.all fun requested => targets.all fun key => key ∈ requested

/-- `overlapping`. -/
def overlapping (targets : List K) : List C :=
  (state.registered.getD []).filter fun flight =>
    (state.requirementIds flight).any fun key => key ∈ targets

/-- `remaining_targets`. -/
def remaining (caller : C) (attempted : List K) (failures : Dict K Reason) (targets : List K) :
    List K :=
  targets.filter fun key => key ∉ attempted ∨
    (state.callers caller).waitForCompletion = true ∧ (failures.get? key).any timedOut

/-- `cleanup`. -/
def cleanup (flight : C) : Option (List C) :=
  match state.registered with
  | none => none
  | some flights =>
    if flight ∈ flights then
      if flights.erase flight = [] then none else some (flights.erase flight)
    else some flights

def exec : Action K C → Option (State K C)
  | .call caller requested waitForCompletion =>
    match (state.callers caller).phase with
    | .fresh => some (state.put caller ⟨.planning, requested, waitForCompletion, false⟩)
    | _ => none
  | .plan caller targets =>
    match (state.callers caller).phase with
    | .planning =>
      if state.selects caller targets = false then none
      else if targets = [] then some (state.setPhase caller (.ended .returned))
      else if state.overlapping targets = [] then some (state.register caller targets)
      else some (state.setPhase caller (.joining (state.overlapping targets)))
    | _ => none
  | .joined caller =>
    match (state.callers caller).phase with
    | .joining flights =>
      if flights.all state.hasFinished then
        some (state.setPhase caller (.replanning (flights.flatMap state.requirementIds)
          (state.sharedFailures flights)))
      else none
    | _ => none
  | .joinFailed caller flight =>
    match (state.callers caller).phase with
    | .joining flights =>
      if flight ∈ flights ∧ state.hasFailed flight then
        some (state.setPhase caller (.ended (.foreign flight)))
      else none
    | _ => none
  | .replan caller targets =>
    match (state.callers caller).phase with
    | .replanning attempted failures =>
      if state.selects caller targets = false then none
      else if state.remaining caller attempted failures targets = [] then
        some (state.setPhase caller (.ended .returned))
      else some (state.register caller (state.remaining caller attempted failures targets))
    | _ => none
  | .settle flight settlement =>
    match state.flights flight with
    | some f =>
      if f.settled.isNone then some (state.setFlight flight { f with settled := some settlement })
      else none
    | none => none
  | .cleanup flight =>
    match state.flights flight with
    | some f =>
      if f.settled.isSome ∧ f.cleaned = false then
        some { state.setFlight flight { f with cleaned := true } with
          registered := state.cleanup flight }
      else none
    | none => none
  | .wake caller =>
    match (state.callers caller).phase, (state.flights caller).bind Flight.settled with
    | .owning, some (.finished _) => some (state.setPhase caller .recording)
    | .owning, some _ => some (state.setPhase caller (.ended .own))
    | .draining, some _ => some (state.setPhase caller (.ended .cancelled))
    | _, _ => none
  | .finish caller =>
    match (state.callers caller).phase with
    | .recording => some (state.setPhase caller (.ended .returned))
    | _ => none
  | .cancel caller =>
    let record := { state.callers caller with hit := true }
    match (state.callers caller).phase with
    | .fresh | .ended _ => none
    | .owning =>
      if record.waitForCompletion then
        match state.flights caller with
        | some f =>
          some ((state.setFlight caller { f with cancelRequested := true }).put caller
            { record with phase := .draining })
        | none => none
      else some (state.put caller { record with phase := .ended .cancelled })
    | _ => some (state.put caller { record with phase := .ended .cancelled })

end State

/-- Any interleaving of any number of callers. -/
def machine [DecidableEq K] [DecidableEq C] : Machine (State K C) (Action K C) :=
  .ofPartial start fun state => state.exec

end InvestmentPlatform.Evidence.Flights
