/-
The overlays of one instrument in `RepositoryResearchReadinessAdapter`, and the refresh plans
that write them.

Beside the durable evidence the adapter keeps one set of requirements that are being refreshed
and one map of failure reasons.  A plan is a task that goes from await to await, and what happens
at an await is given with the step: a provider's answer, a status that was read, an exception, a
cancellation.  Several plans run at a time, for requirements that are disjoint.
-/
import InvestmentPlatform.Lib.Dict
import InvestmentPlatform.Lib.Machine

namespace InvestmentPlatform.Evidence.Overlays

/-- A failure reason: its parts between the bars. -/
abbrev Reason := List String

/-- `_combined_failure_reason`. -/
def combinedFailureReason (existing : Option Reason) (additional : Reason) : Reason :=
  (existing.getD [] ++ additional).foldl
    (fun values value => if value ∈ values then values else values ++ [value]) []

variable {K P : Type} [DecidableEq K]

/-- What a plan does to the overlays. -/
inductive Write (K : Type)
  | nothing
  /-- `mark_refreshing` with the requirements of the plan. -/
  | mark
  /-- `finish_refresh`. -/
  | finish (failures : Dict K Reason)

/-- Where a plan is. -/
inductive Phase
  | absent
  /-- The flight is registered, and `_execute_plan` has not begun. -/
  | registered
  /-- In `execute_primary`. -/
  | primary
  /-- In the read after the first `finish_refresh`. -/
  | reading
  /-- In `execute_approved_fallbacks`. -/
  | fallback
  /-- In the read after the fallbacks. -/
  | rereading
  /-- `_execute_plan` has ended, and whether by a cancellation. -/
  | settled (cancelled : Bool)
  /-- In the read of the handler of `TimeoutError`. -/
  | timedOut
  | ended
  deriving DecidableEq, Repr

structure Plan (K : Type) where
  /-- The requirements of its targets, in their normal form. -/
  requirements : List K
  phase : Phase
  /-- The failures `_execute_plan` has collected. -/
  failures : Dict K Reason

/-- What happens to a plan. -/
inductive Event (K : Type)
  | register (requirements : List K)
  | begin
  /-- The primary providers answered. -/
  | answered (failures : Dict K Reason)
  /-- A read found no requirement that a fallback may serve; `needed` are those whose status
  still requires acquisition. -/
  | resolved (needed : List K)
  /-- A read found requirements for the fallbacks. -/
  | unresolved
  | fellBack (failures : Dict K Reason)
  /-- The awaited call raised. -/
  | raised
  /-- `_execute_plan` is cancelled. -/
  | cancel
  /-- The evidence suffices, so the owner of the cancelled `_execute_plan` finishes for it. -/
  | retire
  /-- The interactive budget is over. -/
  | timeout
  /-- The read of the timeout's handler, and what the providers had reported by then. -/
  | timeoutRead (needed : List K) (progress : Dict K Reason)
  /-- The flight is over without a further write. -/
  | close

namespace Plan

variable (plan : Plan K)

def absent : Plan K := ⟨[], .absent, .empty⟩

/-- The plan has been registered and has not ended. -/
def Active : Prop :=
  match plan.phase with
  | .absent | .ended => False
  | _ => True

/-- Failures are reported for the targets of the plan. -/
def Reports (failures : Dict K Reason) : Prop := ∀ key ∈ failures.keys, key ∈ plan.requirements

instance (failures : Dict K Reason) : Decidable (plan.Reports failures) :=
  inferInstanceAs (Decidable (∀ key ∈ failures.keys, key ∈ plan.requirements))

/-- `failures[id] = _combined_failure_reason(failures.get(id), reason)` for each of them. -/
def collect (failures : Dict K Reason) : Plan K :=
  { plan with
    failures := failures.items.foldl (fun all item =>
      all.set item.1 (combinedFailureReason (all.get? item.1) item.2)) plan.failures }

/-- `unresolved_failures`. -/
def unresolvedFailures (needed : List K) : Dict K Reason :=
  ⟨plan.failures.items.filter fun item => item.1 ∈ needed,
    (List.filter_sublist.map Prod.fst).nodup plan.failures.nodup⟩

/-- The failures of the targets that a timeout leaves open. -/
def timeoutFailures (needed : List K) (progress : Dict K Reason) : Dict K Reason :=
  .ofList id (fun key => combinedFailureReason (progress.get? key) ["ACQUISITION_TIMEOUT"])
    (plan.requirements.filter fun key => key ∈ needed)

/-- One stretch of a plan, from an await to the next, and what it writes. -/
def turn : Event K → Option (Write K × Plan K)
  | .register requirements =>
    match plan.phase with
    | .absent =>
      if requirements = [] then none
      else some (.nothing, ⟨requirements, .registered, .empty⟩)
    | _ => none
  | .begin =>
    match plan.phase with
    | .registered => some (.mark, { plan with phase := .primary })
    | _ => none
  | .answered failures =>
    match plan.phase with
    | .primary =>
      if plan.Reports failures then
        some (.finish .empty, { plan.collect failures with phase := .reading })
      else none
    | _ => none
  | .resolved needed =>
    match plan.phase with
    | .reading | .rereading =>
      some (.finish (plan.unresolvedFailures needed), { plan with phase := .settled false })
    | _ => none
  | .unresolved =>
    match plan.phase with
    | .reading => some (.nothing, { plan with phase := .fallback })
    | _ => none
  | .fellBack failures =>
    match plan.phase with
    | .fallback =>
      if plan.Reports failures then
        some (.nothing, { plan.collect failures with phase := .rereading })
      else none
    | _ => none
  | .raised =>
    match plan.phase with
    | .primary => some (.finish .empty, { plan with phase := .settled false })
    | .reading | .fallback | .rereading =>
      some (.nothing, { plan with phase := .settled false })
    | .timedOut => some (.nothing, { plan with phase := .ended })
    | _ => none
  | .cancel =>
    match plan.phase with
    | .primary => some (.finish .empty, { plan with phase := .settled true })
    | .registered | .reading | .fallback | .rereading =>
      some (.nothing, { plan with phase := .settled true })
    | .timedOut => some (.nothing, { plan with phase := .ended })
    | _ => none
  | .retire =>
    match plan.phase with
    | .settled true => some (.finish .empty, { plan with phase := .ended })
    | _ => none
  | .timeout =>
    match plan.phase with
    | .settled _ => some (.finish .empty, { plan with phase := .timedOut })
    | _ => none
  | .timeoutRead needed progress =>
    match plan.phase with
    | .timedOut =>
      some (.finish (plan.timeoutFailures needed progress), { plan with phase := .ended })
    | _ => none
  | .close =>
    match plan.phase with
    | .settled _ => some (.nothing, { plan with phase := .ended })
    | _ => none

end Plan

/-! ### The overlays -/

/-- The entries of the instrument in `_refreshing` and `_failures`, and its plans. -/
structure State (K P : Type) where
  refreshing : Option (List K)
  failures : Option (Dict K Reason)
  plans : P → Plan K

def start : State K P := ⟨none, none, fun _ => .absent⟩

namespace State

variable (state : State K P)

def write (requirements : List K) : Write K → State K P
  | .nothing => state
  | .mark => { state with refreshing := some requirements }
  | .finish failures =>
    { state with refreshing := none, failures := if failures.items = [] then none else failures }

/-- `refreshing_requirement_ids` of the snapshot. -/
def refreshingRequirementIds : List K := state.refreshing.getD []

/-- The failure reason the overlay adds to the snapshot. -/
def failureReason (key : K) : Option Reason := state.failures.bind fun failures => failures.get? key

/-- A new flight is for requirements that no other plan serves. -/
def Admits (p : P) : Event K → Prop
  | .register requirements =>
    ∀ q, q ≠ p → (state.plans q).Active → List.Disjoint requirements (state.plans q).requirements
  | _ => True

variable [DecidableEq P]

def put (p : P) (plan : Plan K) : State K P :=
  { state with plans := Function.update state.plans p plan }

/-- The plan `p` goes on. -/
def exec (p : P) (event : Event K) : Option (State K P) :=
  ((state.plans p).turn event).map fun next =>
    (state.write next.2.requirements next.1).put p next.2

end State

/-- Any interleaving of plans whose requirements are disjoint while they run. -/
def machine [DecidableEq P] : Machine (State K P) (P × Event K) where
  init state := state = start
  step state l state' := state.Admits l.1 l.2 ∧ state.exec l.1 l.2 = some state'

end InvestmentPlatform.Evidence.Overlays
