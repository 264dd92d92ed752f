/-
What an investigation reports about its requirements.

A requirement goes its own way through the run: it is looked at once, and then left alone, skipped
for an earlier verdict, or passed to one call of `ensure` and looked at again.  Its events in the
log are exactly this way, and whether it stands among the failures was decided at the last of them.
Nothing looks at it after that, so a failure stays in the report where another group's acquisition
has satisfied the requirement meanwhile.
-/
import InvestmentPlatform.Evidence.Investigation
import Mathlib.Data.List.Count

namespace InvestmentPlatform.Evidence.Investigation

open List Dict

variable {W : Type}

/-! ### What is promised -/

/-- What is passed to `ensure`. -/
def Event.passed : Event → List RequirementId
  | .ensured ids _ => ids
  | _ => []

/-- What was passed, one call after the other. -/
def acquiredIds (log : List Event) : List RequirementId := log.flatMap Event.passed

namespace RequirementAcquisitionBudget

structure Bounded (budget : RequirementAcquisitionBudget) : Prop where
  documents : budget.documentsAttempted ≤ budget.maxDocuments
  queries : 0 ≤ budget.queriesReserved
  queriesLe : budget.queriesReserved ≤ budget.maxQueries

theorem Bounded.act {budget : RequirementAcquisitionBudget} (h : budget.Bounded)
    (action : BudgetAction) : (budget.act action).Bounded := by
  cases action with
  | allowDocument =>
    simp only [RequirementAcquisitionBudget.act, allowDocument]
    split
    · exact h
    · exact ⟨h.documents, h.queries, h.queriesLe⟩
  | sufficient answer =>
    simp only [RequirementAcquisitionBudget.act, answered]
    split
    · exact h
    · split
      · exact ⟨h.documents, h.queries, h.queriesLe⟩
      · split
        · exact ⟨h.documents, h.queries, h.queriesLe⟩
        · rename_i hroom
          exact ⟨Int.add_one_le_of_lt (Int.not_le.mp hroom), h.queries, h.queriesLe⟩
  | reserveQueries requested =>
    have hqueries := h.queries
    have hle := h.queriesLe
    refine ⟨h.documents, ?_, ?_⟩
    · simp only [RequirementAcquisitionBudget.act, reserveQueries]
      omega
    · simp only [RequirementAcquisitionBudget.act, reserveQueries]
      omega
  | abandoned => exact ⟨h.documents, h.queries, h.queriesLe⟩
  | failed reason => exact ⟨h.documents, h.queries, h.queriesLe⟩
  | requirementFailed id reason => exact ⟨h.documents, h.queries, h.queriesLe⟩
  | discovered category candidates => exact ⟨h.documents, h.queries, h.queriesLe⟩

theorem Bounded.run {budget : RequirementAcquisitionBudget} (h : budget.Bounded)
    (actions : List BudgetAction) : (budget.run actions).Bounded := by
  unfold RequirementAcquisitionBudget.run
  induction actions generalizing budget with
  | nil => exact h
  | cons action actions ih => exact ih (h.act action)

end RequirementAcquisitionBudget

/-- What the report says is true. -/
structure Truthful (jurisdiction : String) (result : Result) : Prop where
  matrix : ∀ id, ∃ row, result.matrix.get? id = some row ∧
    row.state = (result.readiness.row id).status
  once : (acquiredIds result.log).Nodup
  unsatisfied : ∀ id ∈ acquiredIds result.log, (∃ row, Event.visited id row ∈ result.log) ∧
    ∀ row, Event.visited id row ∈ result.log → satisfiedRow jurisdiction id row = false
  failed : ∀ id ∈ result.failures.keys,
    requirementSatisfiedFrom jurisdiction result.readiness id = false
  acquired : ∀ id ∈ acquiredIds result.log,
    requirementSatisfiedFrom jurisdiction result.readiness id = false → id ∈ result.failures.keys
  bounded : ∀ ids budget, Event.ensured ids budget ∈ result.log →
    ∀ actions, (budget.run actions).Bounded

/-- What is given up stays unsatisfied to the end, and no quarterly evidence is fresh from the NSE
under another tier than OFFICIAL. -/
structure Settled (jurisdiction : String) (result : Result) : Prop where
  finalized : ∀ id look, Event.finalized id look ∈ result.log →
    requirementSatisfiedFrom jurisdiction look id = false →
      requirementSatisfiedFrom jurisdiction result.readiness id = false
  skipped : ∀ id verdict, Event.skipped id verdict ∈ result.log →
    requirementSatisfiedFrom jurisdiction result.readiness id = false
  official : jurisdiction = "INDIA" → result.plan.selected .quarterlyFinancials = true →
    ∀ row, Event.visited .quarterlyFinancials row ∈ result.log → row.status = .readyFresh →
      row.source = some "NSE" → row.sourceTier = some .official

/-! ### The runtime -/

/-- A read would show the requirement satisfied. -/
def Shows (runtime : Runtime W) (jurisdiction : String) (world : W) (id : RequirementId) : Prop :=
  ∀ mode, requirementSatisfiedFrom jurisdiction (runtime.read mode world).1 id = true

/-- A satisfied requirement stays satisfied. -/
structure Stays (runtime : Runtime W) (jurisdiction : String) : Prop where
  read : ∀ mode world id,
    requirementSatisfiedFrom jurisdiction (runtime.read mode world).1 id = true →
      Shows runtime jurisdiction (runtime.read mode world).2 id
  ensure : ∀ ids budget world id, Shows runtime jurisdiction world id →
    Shows runtime jurisdiction (runtime.ensure ids budget world).2 id
  record : ∀ id reason world id', Shows runtime jurisdiction world id' →
    Shows runtime jurisdiction (runtime.recordAcquisitionObservation id reason world) id'

/-- Failures come back for what was asked for. -/
def FailsAsked (runtime : Runtime W) : Prop :=
  ∀ ids budget world result, (runtime.ensure ids budget world).1.result = .ok result →
    ∀ id ∈ result.failures.keys, id ∈ ids

/-! ### The way of one requirement -/

inductive Happened
  | visited (row : Row)
  | skipped (verdict : String)
  | ensured
  | finalized (look : Readiness)

/-- What an event is for the requirement. -/
def Event.about (id : RequirementId) : Event → List Happened
  | .visited id' row => if id' = id then [.visited row] else []
  | .skipped id' verdict => if id' = id then [.skipped verdict] else []
  | .ensured ids _ => (ids.filter (· = id)).map fun _ => .ensured
  | .finalized id' look => if id' = id then [.finalized look] else []

def history (id : RequirementId) (log : List Event) : List Happened := log.flatMap (Event.about id)

inductive Phase
  | unseen
  | looked (row : Row)
  | skipped (row : Row) (verdict : String)
  | asked (row : Row)
  | finished (row : Row) (look : Readiness)

namespace Phase

def history : Phase → List Happened
  | .unseen => []
  | .looked row => [.visited row]
  | .skipped row verdict => [.visited row, .skipped verdict]
  | .asked row => [.visited row, .ensured]
  | .finished row look => [.visited row, .ensured, .finalized look]

def row? : Phase → Option Row
  | .unseen => none
  | .looked row | .skipped row _ | .asked row | .finished row _ => some row

end Phase

variable (runtime : Runtime W) (jurisdiction : String) (plan : DeepInvestigationPlan)

/-- Whether the requirement stands among the failures, where that is decided. -/
def Decided (id : RequirementId) (failed : Prop) : Phase → Prop
  | .unseen | .looked _ => ¬ failed
  | .skipped _ _ => failed
  | .asked _ => True
  | .finished _ look => failed ↔ requirementSatisfiedFrom jurisdiction look id = false

/-- The requirement was due where it was skipped or passed on. -/
def Due (id : RequirementId) : Phase → Prop
  | .unseen | .looked _ => True
  | .skipped row _ | .asked row | .finished row _ =>
    restsAt jurisdiction id row = false ∧ plan.selected id = true

/-- What has been seen satisfied is still so. -/
def Seen (id : RequirementId) (world : W) (phase : Phase) : Prop :=
  (∀ row, phase.row? = some row → satisfiedRow jurisdiction id row = true →
    Shows runtime jurisdiction world id) ∧
  ∀ row look, phase = .finished row look → requirementSatisfiedFrom jurisdiction look id = true →
    Shows runtime jurisdiction world id

structure Fits (run : Run W) (id : RequirementId) (phase : Phase) : Prop where
  log : history id run.log = phase.history
  handled : id ∈ run.handled ↔ phase.row?.isSome = true
  matrix : id ∈ run.matrix.keys ↔ phase.row?.isSome = true
  decided : Decided jurisdiction id (id ∈ run.failures.keys) phase
  due : Due jurisdiction plan id phase
  seen : Seen runtime jurisdiction id run.world phase

/-! ### One step -/

section

variable {runtime : Runtime W} {jurisdiction : String} {plan : DeepInvestigationPlan}
  {run run' : Run W} {id other : RequirementId} {phase : Phase}
  {phases : RequirementId → Phase}

theorem history_append (id : RequirementId) (log log' : List Event) :
    history id (log ++ log') = history id log ++ history id log' := flatMap_append

theorem history_single (id : RequirementId) (event : Event) :
    history id [event] = event.about id := by
  rw [history, flatMap_cons, flatMap_nil, append_nil]

theorem Seen.later {world world' : W} (h : Seen runtime jurisdiction id world phase)
    (hworld : Shows runtime jurisdiction world id → Shows runtime jurisdiction world' id) :
    Seen runtime jurisdiction id world' phase :=
  ⟨fun row hrow hsat => hworld (h.1 row hrow hsat),
    fun row look hphase hsat => hworld (h.2 row look hphase hsat)⟩

/-- A step that is about other requirements. -/
theorem Fits.frame (h : Fits runtime jurisdiction plan run id phase)
    (hlog : history id run'.log = history id run.log)
    (hhandled : id ∈ run'.handled ↔ id ∈ run.handled)
    (hmatrix : id ∈ run'.matrix.keys ↔ id ∈ run.matrix.keys)
    (hfailures : id ∈ run'.failures.keys ↔ id ∈ run.failures.keys)
    (hworld : Shows runtime jurisdiction run.world id → Shows runtime jurisdiction run'.world id) :
    Fits runtime jurisdiction plan run' id phase :=
  ⟨hlog.trans h.log, hhandled.trans h.handled, hmatrix.trans h.matrix,
    propext hfailures ▸ h.decided, h.due, h.seen.later hworld⟩

theorem Stays.shows_read (hstays : Stays runtime jurisdiction) {mode : Bool} {world : W}
    (h : Shows runtime jurisdiction world id) :
    Shows runtime jurisdiction (runtime.read mode world).2 id := hstays.read mode world id (h mode)

/-- All requirements, each in its phase. -/
def Stands (runtime : Runtime W) (jurisdiction : String) (plan : DeepInvestigationPlan)
    (phases : RequirementId → Phase) (run : Run W) : Prop :=
  (∀ id, Fits runtime jurisdiction plan run id (phases id)) ∧
    ∀ ids budget, Event.ensured ids budget ∈ run.log → budget.Bounded

/-- A requirement goes on to another phase, and the others stay. -/
theorem Stands.update (h : Stands runtime jurisdiction plan phases run)
    (hfits : Fits runtime jurisdiction plan run' id phase)
    (hothers : ∀ other ≠ id, Fits runtime jurisdiction plan run' other (phases other))
    (hbudgets : ∀ ids budget, Event.ensured ids budget ∈ run'.log →
      Event.ensured ids budget ∈ run.log) :
    Stands runtime jurisdiction plan (Function.update phases id phase) run' := by
  refine ⟨fun other => ?_, fun ids budget hmem => h.2 ids budget (hbudgets ids budget hmem)⟩
  by_cases hother : other = id
  · subst hother
    rw [Function.update_self]
    exact hfits
  · rw [Function.update_of_ne hother]
    exact hothers other hother

variable {ids : List RequirementId} {budget : RequirementAcquisitionBudget} {log : List Event}
  {event : Event}

theorem ensured_of_snoc (hevent : Event.ensured ids budget ≠ event)
    (h : Event.ensured ids budget ∈ log ++ [event]) : Event.ensured ids budget ∈ log :=
  (mem_append.mp h).resolve_right fun hmem => hevent (mem_singleton.mp hmem)

/-- A requirement is looked at for the first time. -/
theorem Stands.looked (hstays : Stays runtime jurisdiction)
    (h : Stands runtime jurisdiction plan phases run) (hid : phases id = .unseen) :
    Stands runtime jurisdiction plan
      (Function.update phases id (.looked ((look runtime id run).1.row id)))
      (look runtime id run).2 := by
  have hfits := h.1 id
  rw [hid] at hfits
  have hread : (look runtime id run).1 = (runtime.read false run.world).1 := rfl
  refine h.update ⟨?_, ?_, ?_, ?_, trivial, ?_, fun row seen hphase => ?_⟩
    (fun other hne => (h.1 other).frame ?_ ?_ ?_ Iff.rfl hstays.shows_read)
    fun ids budget => ensured_of_snoc ?_
  · show history id (run.log ++ [Event.visited id _]) = [Happened.visited _]
    rw [history_append, hfits.log, history_single, Event.about, if_pos rfl]
    rfl
  · show id ∈ run.handled ++ [id] ↔ _
    exact iff_of_true (mem_append_right _ (mem_singleton.mpr rfl)) rfl
  · show id ∈ (run.matrix.set id _).keys ↔ _
    exact iff_of_true (mem_keys_set.mpr (Or.inr rfl)) rfl
  · exact hfits.decided
  · intro row hrow hsat
    cases hrow
    rw [hread] at hsat
    exact hstays.read false run.world id hsat
  · cases hphase
  · show history other (run.log ++ [Event.visited id _]) = _
    rw [history_append, history_single, Event.about, if_neg (Ne.symm hne), append_nil]
  · show other ∈ run.handled ++ [id] ↔ _
    rw [mem_append, mem_singleton]
    exact ⟨fun hor => hor.resolve_right hne, Or.inl⟩
  · show other ∈ (run.matrix.set id _).keys ↔ _
    rw [mem_keys_set]
    exact ⟨fun hor => hor.resolve_right hne, Or.inl⟩
  · intro heq
    cases heq

/-- The run after a requirement is left alone for an earlier verdict. -/
def Run.skip (run : Run W) (id : RequirementId) (verdict : String) : Run W :=
  { run with
    failures := run.failures.set id verdict
    log := run.log ++ [.skipped id verdict] }

/-- What `_requires_acquisition` comes to. -/
theorem requiresAcquisition_cases (id : RequirementId) (readiness : Readiness) (run : Run W) :
    (restsAt jurisdiction id (readiness.row id) = true ∨ plan.selected id = false) ∧
        requiresAcquisition runtime jurisdiction plan id readiness run = (false, run) ∨
      (restsAt jurisdiction id (readiness.row id) = false ∧ plan.selected id = true) ∧
        (requiresAcquisition runtime jurisdiction plan id readiness run = (true, run) ∨
          ∃ verdict, requiresAcquisition runtime jurisdiction plan id readiness run =
            (false, run.skip id verdict)) := by
  unfold requiresAcquisition
  dsimp only
  split
  · rename_i hrests
    exact Or.inl ⟨Or.inl hrests, rfl⟩
  · rename_i hrests
    rw [Bool.not_eq_true] at hrests
    split
    · rename_i hselected
      rw [Bool.not_eq_true] at hselected
      exact Or.inl ⟨Or.inr hselected, rfl⟩
    · rename_i hselected
      rw [not_not] at hselected
      refine Or.inr ⟨⟨hrests, hselected⟩, ?_⟩
      split
      · exact Or.inl rfl
      · split
        · exact Or.inr ⟨_, rfl⟩
        · exact Or.inl rfl

variable {row : Row}

/-- A requirement that was looked at is skipped. -/
theorem Stands.skipped (h : Stands runtime jurisdiction plan phases run)
    (hid : phases id = .looked row) (hrests : restsAt jurisdiction id row = false)
    (hselected : plan.selected id = true) (verdict : String) :
    Stands runtime jurisdiction plan (Function.update phases id (.skipped row verdict))
      (run.skip id verdict) := by
  have hfits := h.1 id
  rw [hid] at hfits
  refine h.update ⟨?_, ?_, ?_, ?_, ⟨hrests, hselected⟩, fun row' hrow => ?_,
    fun row' look hphase => ?_⟩
    (fun other hne => (h.1 other).frame ?_ Iff.rfl Iff.rfl ?_ fun hshows => hshows)
    fun ids budget => ensured_of_snoc ?_
  · show history id (run.log ++ [Event.skipped id verdict]) = _
    rw [history_append, hfits.log, history_single, Event.about, if_pos rfl]
    rfl
  · exact iff_of_true (hfits.handled.mpr rfl) rfl
  · exact iff_of_true (hfits.matrix.mpr rfl) rfl
  · show id ∈ (run.failures.set id verdict).keys
    exact mem_keys_set.mpr (Or.inr rfl)
  · cases hrow
    exact hfits.seen.1 row rfl
  · cases hphase
  · show history other (run.log ++ [Event.skipped id verdict]) = _
    rw [history_append, history_single, Event.about, if_neg (Ne.symm hne), append_nil]
  · show other ∈ (run.failures.set id verdict).keys ↔ _
    rw [mem_keys_set]
    exact ⟨fun hor => hor.resolve_right hne, Or.inl⟩
  · intro heq
    cases heq

/-- Only what was asked for is noted as failed when a call has ended. -/
theorem mem_noted {result : Except String TargetedEnsureResult}
    (hasked : ∀ answer, result = .ok answer → ∀ id ∈ answer.failures.keys, id ∈ ids)
    (hother : other ∉ ids) :
    other ∈ (run.noted ids result).failures.keys ↔ other ∈ run.failures.keys := by
  cases result with
  | ok answer =>
    refine mem_keys_foldl_set.trans ⟨fun hor => hor.resolve_right ?_, Or.inl⟩
    rintro ⟨item, hitem, rfl⟩
    exact hother (hasked answer rfl _ (mem_map_of_mem hitem))
  | error name =>
    refine mem_keys_foldl_set.trans ⟨fun hor => hor.resolve_right ?_, Or.inl⟩
    rintro ⟨id, hid, rfl⟩
    exact hother hid

/-- The phases after the requirements are passed to a call. -/
def askAll (phases : RequirementId → Phase) (ids : List RequirementId) (id : RequirementId) :
    Phase :=
  if id ∈ ids then
    match phases id with
    | .looked row => .asked row
    | phase => phase
  else phases id

/-- A requirement that may be passed on: it was looked at, and is due. -/
def Ready (jurisdiction : String) (plan : DeepInvestigationPlan) (id : RequirementId)
    (phase : Phase) : Prop :=
  ∃ row, phase = .looked row ∧ restsAt jurisdiction id row = false ∧ plan.selected id = true

/-- Nothing is to be done for the requirement. -/
def Calm (jurisdiction : String) (plan : DeepInvestigationPlan) (id : RequirementId)
    (phase : Phase) : Prop :=
  (∀ row, phase ≠ .asked row) ∧ ¬ Ready jurisdiction plan id phase

/-- The call of `ensure`, up to what is noted of it. -/
def Run.ensured (runtime : Runtime W) (run : Run W) (ids : List RequirementId)
    (budget : RequirementAcquisitionBudget) : Run W :=
  let (outcome, world) := runtime.ensure ids budget run.world
  { run with world := world, log := run.log ++ [Event.ensured ids budget] }.noted ids outcome.result

variable (runtime) in
theorem ensured_same (run : Run W) (ids : List RequirementId)
    (budget : RequirementAcquisitionBudget) :
    (run.ensured runtime ids budget).world = (runtime.ensure ids budget run.world).2 ∧
      (run.ensured runtime ids budget).handled = run.handled ∧
      (run.ensured runtime ids budget).matrix = run.matrix ∧
      (run.ensured runtime ids budget).log = run.log ++ [.ensured ids budget] := by
  unfold Run.ensured
  dsimp only
  cases (runtime.ensure ids budget run.world).1.result with
  | ok answer => exact ⟨rfl, rfl, rfl, rfl⟩
  | error name => exact ⟨rfl, rfl, rfl, rfl⟩

theorem acquireWith_eq (budget : RequirementAcquisitionBudget) (ids : List RequirementId)
    (run : Run W) : acquireWith runtime jurisdiction budget ids run =
      ids.foldl (finalize runtime jurisdiction
        (budget.run (runtime.ensure ids budget run.world).1.during)) (run.ensured runtime ids budget)
    := rfl

theorem about_ensured (hnodup : ids.Nodup) (hid : id ∈ ids)
    (budget : RequirementAcquisitionBudget) :
    (Event.ensured ids budget).about id = [.ensured] := by
  have hfilter : ids.filter (· = id) = [id] := by
    refine perm_singleton.mp ((perm_ext_iff_of_nodup (hnodup.filter _)
      (nodup_singleton id)).mpr fun other => ?_)
    rw [mem_filter, decide_eq_true_eq, mem_singleton]
    exact ⟨fun hand => hand.2, fun heq => ⟨heq ▸ hid, heq⟩⟩
  rw [Event.about, hfilter]
  rfl

theorem about_ensured_of_notMem (hid : id ∉ ids)
    (budget : RequirementAcquisitionBudget) : (Event.ensured ids budget).about id = [] := by
  rw [Event.about, map_eq_nil_iff, filter_eq_nil_iff]
  intro other hother heq
  rw [decide_eq_true_eq] at heq
  exact hid (heq ▸ hother)

/-- The requirements are passed to one call. -/
theorem Stands.ensured (hstays : Stays runtime jurisdiction) (hasked : FailsAsked runtime)
    (h : Stands runtime jurisdiction plan phases run) (hnodup : ids.Nodup)
    (hbudget : budget.Bounded) (hready : ∀ id ∈ ids, Ready jurisdiction plan id (phases id)) :
    Stands runtime jurisdiction plan (askAll phases ids) (run.ensured runtime ids budget) := by
  obtain ⟨hworld, hhandled, hmatrix, hlog⟩ := ensured_same runtime run ids budget
  have hlater : ∀ id, Shows runtime jurisdiction run.world id →
      Shows runtime jurisdiction (run.ensured runtime ids budget).world id := by
    intro id hshows
    rw [hworld]
    exact hstays.ensure ids budget run.world id hshows
  have hhistory : ∀ id, history id (run.ensured runtime ids budget).log =
      history id run.log ++ (Event.ensured ids budget).about id := by
    intro id
    rw [← history_single, ← history_append]
    exact congrArg (history id) hlog
  refine ⟨fun id => ?_, fun ids' budget' hmem => ?_⟩
  · by_cases hid : id ∈ ids
    · obtain ⟨row, hphase, hdue⟩ := hready id hid
      have hfits := h.1 id
      rw [hphase] at hfits
      have hnext : askAll phases ids id = .asked row := by
        unfold askAll
        rw [if_pos hid, hphase]
      rw [hnext]
      refine ⟨?_, ?_, ?_, trivial, hdue, fun row' hrow hsat => hlater id ?_,
        fun row' look hphase => ?_⟩
      · rw [hhistory, hfits.log, about_ensured hnodup hid]
        rfl
      · exact iff_of_true (hhandled.symm ▸ hfits.handled.mpr rfl) rfl
      · exact iff_of_true (hmatrix.symm ▸ hfits.matrix.mpr rfl) rfl
      · exact hfits.seen.1 row' hrow hsat
      · cases hphase
    · have hnext : askAll phases ids id = phases id := if_neg hid
      rw [hnext]
      refine (h.1 id).frame ?_ ?_ ?_ ?_ (hlater id)
      · rw [hhistory, about_ensured_of_notMem hid, append_nil]
      · exact iff_of_eq (congrArg (id ∈ ·) hhandled)
      · exact iff_of_eq (congrArg (fun matrix => id ∈ Dict.keys matrix) hmatrix)
      · exact mem_noted (fun answer hanswer => hasked ids budget run.world answer hanswer) hid
  · have hmem' : Event.ensured ids' budget' ∈ run.log ++ [Event.ensured ids budget] := hlog ▸ hmem
    rcases mem_append.mp hmem' with hold | hnew
    · exact h.2 ids' budget' hold
    · cases mem_singleton.mp hnew
      exact hbudget

variable (runtime jurisdiction) in
/-- What a look at a requirement after its acquisition comes to. -/
theorem finalize_cases (budget : RequirementAcquisitionBudget) (run : Run W) (id : RequirementId) :
    let look := (runtime.read true run.world).1
    let world := (runtime.read true run.world).2
    let log := run.log ++ [Event.finalized id look]
    requirementSatisfiedFrom jurisdiction look id = true ∧
        finalize runtime jurisdiction budget run id =
          { run with world := world, log := log, failures := run.failures.pop id } ∨
      requirementSatisfiedFrom jurisdiction look id = false ∧ ∃ reason,
        finalize runtime jurisdiction budget run id =
          { run with
            world := runtime.recordAcquisitionObservation id reason world
            log := log
            failures := run.failures.set id reason } := by
  intro look world log
  unfold finalize
  dsimp only
  split
  · rename_i hsat
    exact Or.inl ⟨hsat, rfl⟩
  · rename_i hsat
    exact Or.inr ⟨Bool.eq_false_iff.mpr hsat, _, rfl⟩

section

variable (hstays : Stays runtime jurisdiction)
include hstays

theorem Stands.finalized
    (h : Stands runtime jurisdiction plan phases run) (hid : phases id = .asked row)
    (budget : RequirementAcquisitionBudget) :
    Stands runtime jurisdiction plan
      (Function.update phases id (.finished row (runtime.read true run.world).1))
      (finalize runtime jurisdiction budget run id) := by
  have hfits := h.1 id
  rw [hid] at hfits
  have hown : history id (run.log ++ [Event.finalized id (runtime.read true run.world).1]) =
      [.visited row, .ensured, .finalized (runtime.read true run.world).1] := by
    rw [history_append, hfits.log, history_single, Event.about, if_pos rfl]
    rfl
  have hrest : ∀ other, other ≠ id →
      history other (run.log ++ [Event.finalized id (runtime.read true run.world).1]) =
        history other run.log := by
    intro other hne
    rw [history_append, history_single, Event.about, if_neg (Ne.symm hne), append_nil]
  have hbudgets : ∀ ids budget, Event.ensured ids budget ∈
      run.log ++ [Event.finalized id (runtime.read true run.world).1] →
        Event.ensured ids budget ∈ run.log :=
    fun ids budget => ensured_of_snoc (by intro heq; cases heq)
  rcases finalize_cases runtime jurisdiction budget run id with
    ⟨hsat, heq⟩ | ⟨hunsat, reason, heq⟩
  · rw [heq]
    refine h.update ⟨hown, iff_of_true (hfits.handled.mpr rfl) rfl,
      iff_of_true (hfits.matrix.mpr rfl) rfl, ?_, hfits.due, fun row' hrow hsat' => ?_,
      fun row' look hphase _ => ?_⟩ (fun other hne => (h.1 other).frame (hrest other hne) Iff.rfl
        Iff.rfl ?_ hstays.shows_read) hbudgets
    · show id ∈ (run.failures.pop id).keys ↔ _
      rw [keys_pop, mem_filter, decide_eq_true_eq, hsat]
      exact iff_of_false (fun hand => hand.2 rfl) Bool.noConfusion
    · cases hrow
      exact hstays.shows_read (hfits.seen.1 row rfl hsat')
    · exact hstays.read true run.world id hsat
    · show other ∈ (run.failures.pop id).keys ↔ _
      rw [keys_pop, mem_filter, decide_eq_true_eq]
      exact ⟨fun hand => hand.1, fun hmem => ⟨hmem, hne⟩⟩
  · rw [heq]
    have hlater : ∀ other, Shows runtime jurisdiction run.world other →
        Shows runtime jurisdiction (runtime.recordAcquisitionObservation id reason
          (runtime.read true run.world).2) other :=
      fun other hshows => hstays.record id reason _ other (hstays.shows_read hshows)
    refine h.update ⟨hown, iff_of_true (hfits.handled.mpr rfl) rfl,
      iff_of_true (hfits.matrix.mpr rfl) rfl, ?_, hfits.due, fun row' hrow hsat' => ?_,
      fun row' look hphase hsat => ?_⟩ (fun other hne => (h.1 other).frame (hrest other hne) Iff.rfl
        Iff.rfl ?_ (hlater other)) hbudgets
    · show id ∈ (run.failures.set id reason).keys ↔ _
      exact iff_of_true (mem_keys_set.mpr (Or.inr rfl)) hunsat
    · cases hrow
      exact hlater id (hfits.seen.1 row rfl hsat')
    · cases hphase
      cases hunsat.symm.trans hsat
    · show other ∈ (run.failures.set id reason).keys ↔ _
      rw [mem_keys_set]
      exact ⟨fun hor => hor.resolve_right hne, Or.inl⟩

/-- After its own call every requirement is looked at once. -/
theorem Stands.finalizeAll
    (budget : RequirementAcquisitionBudget) (hnodup : ids.Nodup)
    (h : Stands runtime jurisdiction plan phases run)
    (hasked : ∀ id ∈ ids, ∃ row, phases id = .asked row) :
    ∃ phases', Stands runtime jurisdiction plan phases'
        (ids.foldl (finalize runtime jurisdiction budget) run) ∧
      (∀ id ∈ ids, ∃ row look, phases' id = .finished row look) ∧
      ∀ id, id ∉ ids → phases' id = phases id := by
  induction ids generalizing phases run with
  | nil => exact ⟨phases, h, fun id hid => absurd hid not_mem_nil, fun id _ => rfl⟩
  | cons id ids ih =>
    obtain ⟨hfresh, hnodup⟩ := nodup_cons.mp hnodup
    obtain ⟨row, hrow⟩ := hasked id mem_cons_self
    have hrest : ∀ other ∈ ids, ∃ row', Function.update phases id
        (.finished row (runtime.read true run.world).1) other = .asked row' := by
      intro other hother
      have hne : other ≠ id := fun heq => hfresh (heq ▸ hother)
      rw [Function.update_of_ne hne]
      exact hasked other (mem_cons_of_mem id hother)
    obtain ⟨phases', hstands, hfinished, hkept⟩ := ih hnodup (h.finalized hstays hrow budget) hrest
    refine ⟨phases', hstands, fun other hother => ?_, fun other hother => ?_⟩
    · rcases mem_cons.mp hother with rfl | hmem
      · refine ⟨row, (runtime.read true run.world).1, ?_⟩
        rw [hkept other hfresh, Function.update_self]
      · exact hfinished other hmem
    · rw [mem_cons, not_or] at hother
      rw [hkept other hother.2, Function.update_of_ne hother.1]

/-- The requirements are acquired together. -/
theorem Stands.acquired (hasked : FailsAsked runtime)
    (h : Stands runtime jurisdiction plan phases run) (hnodup : ids.Nodup)
    (hbudget : budget.Bounded) (hready : ∀ id ∈ ids, Ready jurisdiction plan id (phases id)) :
    ∃ phases', Stands runtime jurisdiction plan phases'
        (acquireWith runtime jurisdiction budget ids run) ∧
      (∀ id ∈ ids, ∃ row look, phases' id = .finished row look) ∧
      ∀ id, id ∉ ids → phases' id = phases id := by
  rw [acquireWith_eq]
  obtain ⟨phases', hstands, hfinished, hkept⟩ :=
    (h.ensured hstays hasked hnodup hbudget hready).finalizeAll hstays
      (budget.run (runtime.ensure ids budget run.world).1.during) hnodup fun id hid => by
        obtain ⟨row, hphase, -⟩ := hready id hid
        refine ⟨row, ?_⟩
        rw [askAll, if_pos hid, hphase]
  exact ⟨phases', hstands, hfinished, fun id hid => (hkept id hid).trans (if_neg hid)⟩

end

/-! ### A turn of the loop -/

theorem Fits.unseen (h : Fits runtime jurisdiction plan run id phase) (hid : id ∉ run.handled) :
    phase = .unseen := by
  rw [h.handled] at hid
  cases phase with
  | unseen => rfl
  | looked row => exact absurd rfl hid
  | skipped row verdict => exact absurd rfl hid
  | asked row => exact absurd rfl hid
  | finished row look => exact absurd rfl hid

/-- A look at a requirement, and whether it is to be acquired. -/
theorem Stands.turn (hstays : Stays runtime jurisdiction)
    (h : Stands runtime jurisdiction plan phases run) (hid : phases id = .unseen) :
    ∃ phase, Stands runtime jurisdiction plan (Function.update phases id phase)
        (requiresAcquisition runtime jurisdiction plan id (look runtime id run).1
          (look runtime id run).2).2 ∧ phase ≠ .unseen ∧
      if (requiresAcquisition runtime jurisdiction plan id (look runtime id run).1
          (look runtime id run).2).1 = true then Ready jurisdiction plan id phase
      else Calm jurisdiction plan id phase := by
  have hlooked := h.looked hstays hid
  have hphase := Function.update_self id (Phase.looked ((look runtime id run).1.row id)) phases
  rcases requiresAcquisition_cases id (look runtime id run).1 (look runtime id run).2 with
    ⟨hleft, heq⟩ | ⟨⟨hrests, hselected⟩, heq | ⟨verdict, heq⟩⟩
  · rw [heq]
    refine ⟨.looked ((look runtime id run).1.row id), hlooked, (by intro h; cases h), ?_⟩
    refine ⟨fun row h => (by cases h), ?_⟩
    rintro ⟨row, hrow, hrests, hselected⟩
    cases hrow
    rcases hleft with hleft | hleft
    · cases hrests.symm.trans hleft
    · cases hselected.symm.trans hleft
  · rw [heq]
    exact ⟨.looked ((look runtime id run).1.row id), hlooked, (by intro h; cases h),
      _, rfl, hrests, hselected⟩
  · rw [heq]
    refine ⟨.skipped ((look runtime id run).1.row id) verdict, ?_, (by intro h; cases h), ?_⟩
    · have hskipped := hlooked.skipped hphase hrests hselected verdict
      rw [Function.update_idem] at hskipped
      exact hskipped
    · refine ⟨fun row h => (by cases h), ?_⟩
      rintro ⟨row, hrow, -⟩
      cases hrow

/-- The requirements of the list are to be acquired, and no others. -/
structure Waiting (jurisdiction : String) (plan : DeepInvestigationPlan)
    (phases : RequirementId → Phase) (ids : List RequirementId) : Prop where
  nodup : ids.Nodup
  ready : ∀ id ∈ ids, Ready jurisdiction plan id (phases id)
  calm : ∀ id, id ∉ ids → Calm jurisdiction plan id (phases id)

/-- One more requirement has been looked at. -/
theorem Waiting.turned (h : Waiting jurisdiction plan phases ids)
    (hid : phases id = .unseen) {needed : Bool}
    (hphase : if needed = true then Ready jurisdiction plan id phase
      else Calm jurisdiction plan id phase) :
    Waiting jurisdiction plan (Function.update phases id phase)
      (if needed then ids ++ [id] else ids) := by
  have hfresh : id ∉ ids := by
    intro hmem
    obtain ⟨row, hrow, -⟩ := h.ready id hmem
    cases hid.symm.trans hrow
  have hready : ∀ other ∈ ids,
      Ready jurisdiction plan other (Function.update phases id phase other) := by
    intro other hother
    have hne : other ≠ id := fun heq => hfresh (heq ▸ hother)
    rw [Function.update_of_ne hne]
    exact h.ready other hother
  cases needed with
  | true =>
    rw [if_pos rfl] at hphase ⊢
    refine ⟨nodup_append.mpr ⟨h.nodup, nodup_singleton id, ?_⟩, fun other hother => ?_,
      fun other hother => ?_⟩
    · intro a ha b hb heq
      exact hfresh (mem_singleton.mp hb ▸ heq ▸ ha)
    · rcases mem_append.mp hother with hmem | hmem
      · exact hready other hmem
      · rw [mem_singleton.mp hmem, Function.update_self]
        exact hphase
    · rw [mem_append, not_or, mem_singleton] at hother
      rw [Function.update_of_ne hother.2]
      exact h.calm other hother.1
  | false =>
    rw [if_neg Bool.false_ne_true] at hphase ⊢
    refine ⟨h.nodup, hready, fun other hother => ?_⟩
    by_cases heq : other = id
    · subst heq
      rw [Function.update_self]
      exact hphase
    · rw [Function.update_of_ne heq]
      exact h.calm other hother

/-- No requirement is unseen again. -/
def Advances (phases phases' : RequirementId → Phase) : Prop :=
  ∀ id, phases id ≠ .unseen → phases' id ≠ .unseen

theorem advances_update (hphase : phase ≠ .unseen) :
    Advances phases (Function.update phases id phase) := by
  intro other hother
  by_cases heq : other = id
  · subst heq
    rw [Function.update_self]
    exact hphase
  · rw [Function.update_of_ne heq]
    exact hother

/-- The members of a group that are needed join the requirement at whose turn they come up. -/
theorem Stands.lookAheadAll (hstays : Stays runtime jurisdiction) (group : List RequirementId)
    (members : List (RequirementId × Row)) (h : Stands runtime jurisdiction plan phases run)
    (hwaiting : Waiting jurisdiction plan phases (members.map Prod.fst)) :
    ∃ phases', Stands runtime jurisdiction plan phases'
        (group.foldl (lookAhead runtime jurisdiction plan) (members, run)).2 ∧
      Waiting jurisdiction plan phases'
        ((group.foldl (lookAhead runtime jurisdiction plan) (members, run)).1.map Prod.fst) ∧
      Advances phases phases' := by
  induction group generalizing phases members run with
  | nil => exact ⟨phases, h, hwaiting, fun id hid => hid⟩
  | cons other group ih =>
    rw [foldl_cons]
    by_cases hhandled : other ∈ run.handled
    · have hskip : lookAhead runtime jurisdiction plan (members, run) other = (members, run) :=
        if_pos hhandled
      rw [hskip]
      exact ih members h hwaiting
    · have hunseen := (h.1 other).unseen hhandled
      obtain ⟨phase, hturned, hseen, hneeded⟩ := h.turn hstays hunseen
      have hnext := hwaiting.turned hunseen hneeded
      have hstep : lookAhead runtime jurisdiction plan (members, run) other =
          (if (requiresAcquisition runtime jurisdiction plan other (look runtime other run).1
              (look runtime other run).2).1 then
              members ++ [(other, (look runtime other run).1.row other)] else members,
            (requiresAcquisition runtime jurisdiction plan other (look runtime other run).1
              (look runtime other run).2).2) := by
        unfold lookAhead
        rw [if_neg hhandled]
        dsimp only
        split
        · rfl
        · rfl
      rw [hstep]
      have hids : (if (requiresAcquisition runtime jurisdiction plan other
          (look runtime other run).1 (look runtime other run).2).1 = true then
            members ++ [(other, (look runtime other run).1.row other)] else members).map Prod.fst =
          if (requiresAcquisition runtime jurisdiction plan other (look runtime other run).1
            (look runtime other run).2).1 = true then members.map Prod.fst ++ [other]
          else members.map Prod.fst := by
        split
        · rw [map_append]
          rfl
        · rfl
      rw [← hids] at hnext
      obtain ⟨phases', hstands, hlast, hadvances⟩ := ih _ hturned hnext
      exact ⟨phases', hstands, hlast, fun id hid => hadvances id (advances_update hseen id hid)⟩

/-- Nothing is to be done for any requirement. -/
def Idle (jurisdiction : String) (plan : DeepInvestigationPlan)
    (phases : RequirementId → Phase) : Prop :=
  ∀ id, Calm jurisdiction plan id (phases id)

theorem Idle.waiting (h : Idle jurisdiction plan phases) :
    Waiting jurisdiction plan phases [] :=
  ⟨nodup_nil, fun _ hid => absurd hid not_mem_nil, fun id _ => h id⟩

/-- What was waited for has been acquired. -/
theorem Waiting.idle {phases' : RequirementId → Phase} (h : Waiting jurisdiction plan phases ids)
    (hfinished : ∀ id ∈ ids, ∃ row look, phases' id = .finished row look)
    (hkept : ∀ id, id ∉ ids → phases' id = phases id) :
    Idle jurisdiction plan phases' ∧ Advances phases phases' := by
  refine ⟨fun id => ?_, fun id hid => ?_⟩
  · by_cases hmem : id ∈ ids
    · obtain ⟨row, look, hphase⟩ := hfinished id hmem
      rw [hphase]
      refine ⟨fun row h => (by cases h), ?_⟩
      rintro ⟨row, hrow, -⟩
      cases hrow
    · rw [hkept id hmem]
      exact h.calm id hmem
  · by_cases hmem : id ∈ ids
    · obtain ⟨row, look, hphase⟩ := hfinished id hmem
      rw [hphase]
      intro heq
      cases heq
    · rw [hkept id hmem]
      exact hid

theorem zero_le_documents : 0 ≤ singletonMaxDocuments := by decide

theorem zero_le_queries : 0 ≤ singletonMaxQueries := by decide

theorem bounded_singleton (id : RequirementId) (row : Row) (readiness : Readiness) :
    RequirementAcquisitionBudget.Bounded
      { requirementId := id.text
        asOf := readiness.generatedAt
        maxDocuments := singletonMaxDocuments
        maxQueries := singletonMaxQueries
        lookback := lookbackFor id row } :=
  ⟨zero_le_documents, Int.le_refl 0, zero_le_queries⟩

theorem bounded_group (label : String) (asOf : Int) (lookback : Option Nat)
    (ids : List RequirementId) : RequirementAcquisitionBudget.Bounded
      { requirementId := label
        asOf := asOf
        maxDocuments := singletonMaxDocuments * ids.length
        maxQueries := singletonMaxQueries * ids.length
        lookback := lookback
        memberRequirementIds := ids } :=
  ⟨Int.mul_nonneg zero_le_documents (Int.natCast_nonneg _), Int.le_refl 0,
    Int.mul_nonneg zero_le_queries (Int.natCast_nonneg _)⟩

theorem Stands.visit (hstays : Stays runtime jurisdiction) (hasked : FailsAsked runtime)
    (h : Stands runtime jurisdiction plan phases run) (hidle : Idle jurisdiction plan phases)
    (id : RequirementId) :
    ∃ phases', Stands runtime jurisdiction plan phases' (visit runtime jurisdiction plan run id) ∧
      Idle jurisdiction plan phases' ∧ Advances phases phases' ∧ phases' id ≠ .unseen := by
  by_cases hhandled : id ∈ run.handled
  · have hskip : Investigation.visit runtime jurisdiction plan run id = run := if_pos hhandled
    rw [hskip]
    refine ⟨phases, h, hidle, fun id hid => hid, fun hunseen => ?_⟩
    have hseen := (h.1 id).handled.mp hhandled
    rw [hunseen] at hseen
    cases hseen
  · have hunseen := (h.1 id).unseen hhandled
    obtain ⟨phase, hturned, hseen, hneeded⟩ := h.turn hstays hunseen
    have hwaiting := hidle.waiting.turned hunseen hneeded
    have hadvances : Advances phases (Function.update phases id phase) := advances_update hseen
    have hown : Function.update phases id phase id ≠ .unseen := by
      rw [Function.update_self]
      exact hseen
    unfold Investigation.visit
    rw [if_neg hhandled]
    dsimp only
    split
    · rename_i hleft
      rw [Bool.not_eq_true] at hleft
      rw [hleft, if_neg Bool.false_ne_true] at hwaiting
      exact ⟨_, hturned, fun other => hwaiting.calm other not_mem_nil, hadvances, hown⟩
    · rename_i hdue
      rw [not_not] at hdue
      rw [hdue, if_pos rfl, nil_append] at hwaiting
      split
      · obtain ⟨phases', hstands, hfinished, hkept⟩ := hturned.acquired hstays hasked
          hwaiting.nodup (bounded_singleton id _ (look runtime id run).1) hwaiting.ready
        obtain ⟨hend, hlater⟩ := hwaiting.idle hfinished hkept
        exact ⟨phases', hstands, hend, fun other hother => hlater other (hadvances other hother),
          hlater id hown⟩
      · rename_i group _
        obtain ⟨mid, hmid, hwaiting', hahead⟩ := hturned.lookAheadAll hstays group
          [(id, (look runtime id run).1.row id)] hwaiting
        obtain ⟨phases', hstands, hfinished, hkept⟩ := hmid.acquired hstays hasked
          hwaiting'.nodup (bounded_group _ _ _ _) hwaiting'.ready
        obtain ⟨hend, hlater⟩ := hwaiting'.idle hfinished hkept
        exact ⟨phases', hstands, hend,
          fun other hother => hlater other (hahead other (hadvances other hother)),
          hlater id (hahead id hown)⟩

theorem Stands.visitAll (hstays : Stays runtime jurisdiction) (hasked : FailsAsked runtime)
    (ids : List RequirementId) (h : Stands runtime jurisdiction plan phases run)
    (hidle : Idle jurisdiction plan phases) :
    ∃ phases', Stands runtime jurisdiction plan phases'
        (ids.foldl (Investigation.visit runtime jurisdiction plan) run) ∧
      Idle jurisdiction plan phases' ∧ Advances phases phases' ∧
        ∀ id ∈ ids, phases' id ≠ .unseen := by
  induction ids generalizing phases run with
  | nil => exact ⟨phases, h, hidle, fun id hid => hid, fun id hid => absurd hid not_mem_nil⟩
  | cons id ids ih =>
    obtain ⟨mid, hmid, hmidIdle, hadvances, hown⟩ := h.visit hstays hasked hidle id
    obtain ⟨phases', hstands, hend, hlater, hall⟩ := ih hmid hmidIdle
    refine ⟨phases', hstands, hend, fun other hother => hlater other (hadvances other hother),
      fun other hother => ?_⟩
    rcases mem_cons.mp hother with rfl | hmem
    · exact hlater other hown
    · exact hall other hmem

/-! ### The log and the ways of the requirements -/

def Happened.isEnsured : Happened → Bool
  | .ensured => true
  | _ => false

variable {happened : Happened}

theorem mem_history :
    happened ∈ history id log ↔ ∃ event ∈ log, happened ∈ event.about id := mem_flatMap

/-- The event behind what happened to a requirement. -/
def Happened.Of (id : RequirementId) (event : Event) : Happened → Prop
  | .visited row => event = .visited id row
  | .skipped verdict => event = .skipped id verdict
  | .ensured => ∃ ids budget, event = .ensured ids budget
  | .finalized look => event = .finalized id look

theorem of_about (h : happened ∈ event.about id) :
    happened.Of id event := by
  cases event with
  | visited id' row =>
    rw [Event.about] at h
    split at h
    · rename_i heq
      cases mem_singleton.mp h
      exact heq ▸ rfl
    · cases h
  | skipped id' verdict =>
    rw [Event.about] at h
    split at h
    · rename_i heq
      cases mem_singleton.mp h
      exact heq ▸ rfl
    · cases h
  | ensured ids budget =>
    obtain ⟨_, _, rfl⟩ := mem_map.mp h
    exact ⟨ids, budget, rfl⟩
  | finalized id' look =>
    rw [Event.about] at h
    split at h
    · rename_i heq
      cases mem_singleton.mp h
      exact heq ▸ rfl
    · cases h

theorem mem_history_of
    (habout : event.about id = [happened]) (h : event ∈ log) : happened ∈ history id log :=
  mem_history.mpr ⟨event, h, habout ▸ mem_singleton.mpr rfl⟩

theorem visited_mem :
    Event.visited id row ∈ log ↔ Happened.visited row ∈ history id log := by
  refine ⟨mem_history_of (if_pos rfl), fun h => ?_⟩
  obtain ⟨event, hmem, habout⟩ := mem_history.mp h
  have heq : event = .visited id row := of_about habout
  exact heq ▸ hmem

theorem skipped_mem {verdict : String} :
    Event.skipped id verdict ∈ log ↔ Happened.skipped verdict ∈ history id log := by
  refine ⟨mem_history_of (if_pos rfl), fun h => ?_⟩
  obtain ⟨event, hmem, habout⟩ := mem_history.mp h
  have heq : event = .skipped id verdict := of_about habout
  exact heq ▸ hmem

theorem finalized_mem {look : Readiness} :
    Event.finalized id look ∈ log ↔ Happened.finalized look ∈ history id log := by
  refine ⟨mem_history_of (if_pos rfl), fun h => ?_⟩
  obtain ⟨event, hmem, habout⟩ := mem_history.mp h
  have heq : event = .finalized id look := of_about habout
  exact heq ▸ hmem

theorem count_passed (id : RequirementId) (event : Event) :
    event.passed.count id = (event.about id).countP Happened.isEnsured := by
  cases event with
  | visited id' row =>
    rw [Event.about]
    split
    · rfl
    · rfl
  | skipped id' verdict =>
    rw [Event.about]
    split
    · rfl
    · rfl
  | ensured ids budget =>
    have hall : ∀ l : List RequirementId,
        l.countP (Happened.isEnsured ∘ fun _ => Happened.ensured) = l.length :=
      fun l => countP_eq_length.mpr fun _ _ => rfl
    rw [Event.about, countP_map, hall, ← countP_eq_length_filter, Event.passed,
      List.count]
    exact countP_congr fun other _ => by rw [beq_iff_eq, decide_eq_true_eq]
  | finalized id' look =>
    rw [Event.about]
    split
    · rfl
    · rfl

theorem count_acquiredIds (id : RequirementId) (log : List Event) :
    (acquiredIds log).count id = (history id log).countP Happened.isEnsured := by
  induction log with
  | nil => rfl
  | cons event log ih =>
    rw [acquiredIds, flatMap_cons, count_append, history, flatMap_cons,
      countP_append, count_passed]
    exact congrArg (_ + ·) ih

theorem mem_acquiredIds (h : id ∈ acquiredIds log) :
    Happened.ensured ∈ history id log := by
  have hpos := count_pos_iff.mpr h
  rw [count_acquiredIds, countP_pos_iff] at hpos
  obtain ⟨happened, hmem, hensured⟩ := hpos
  cases happened with
  | ensured => exact hmem
  | visited row => cases hensured
  | skipped verdict => cases hensured
  | finalized look => cases hensured

/-! ### The report -/

theorem RequirementId.mem_all (id : RequirementId) : id ∈ RequirementId.all := by
  cases id <;> decide

theorem mem_plan (readiness : Readiness) (id : RequirementId) :
    id ∈ (buildPlan readiness).requiredEvidence ++ (buildPlan readiness).optionalEvidence := by
  rw [mem_append]
  by_cases hmandatory : (readiness.row id).mandatory = true
  · exact Or.inl (mem_filter.mpr ⟨id.mem_all, hmandatory⟩)
  · exact Or.inr (mem_filter.mpr ⟨id.mem_all, decide_eq_true hmandatory⟩)

variable (runtime jurisdiction) in
theorem stands_init (plan : DeepInvestigationPlan) (world : W) :
    Stands runtime jurisdiction plan (fun _ => .unseen) { world := world } := by
  refine ⟨fun id => ⟨rfl, iff_of_false not_mem_nil Bool.false_ne_true,
    iff_of_false not_mem_nil Bool.false_ne_true, not_mem_nil, trivial,
    fun row hrow => ?_, fun row look hphase => ?_⟩, fun ids budget hmem => ?_⟩
  · cases hrow
  · cases hphase
  · exact absurd hmem not_mem_nil

theorem idle_init : Idle jurisdiction plan fun _ => .unseen := by
  intro id
  refine ⟨fun row h => (by cases h), ?_⟩
  rintro ⟨row, hrow, -⟩
  cases hrow

/-- Every row of the matrix is brought to the last reading. -/
theorem closeRows (readiness : Readiness) (failures : Dict RequirementId String)
    (ids : List RequirementId) (matrix : Dict RequirementId MatrixRow)
    (hrows : ∀ id, id ∈ matrix.keys) :
    ∃ matrix', ids.foldlM (closeRow readiness failures) matrix = some matrix' ∧
      ∀ id, (∃ row, matrix'.get? id = some row ∧
        (id ∈ ids → row.state = (readiness.row id).status) ∧
        ∀ old, id ∉ ids → matrix.get? id = some old → row = old) := by
  induction ids generalizing matrix with
  | nil =>
    refine ⟨matrix, rfl, fun id => ?_⟩
    obtain ⟨row, hrow⟩ := Option.isSome_iff_exists.mp (isSome_get?.mpr (hrows id))
    exact ⟨row, hrow, fun hid => absurd hid not_mem_nil,
      fun old _ hold => Option.some.inj (hrow.symm.trans hold)⟩
  | cons id ids ih =>
    obtain ⟨old, hold⟩ := Option.isSome_iff_exists.mp (isSome_get?.mpr (hrows id))
    let closed : MatrixRow := { old with
      state := (readiness.row id).status
      missing := (readiness.row id).missingInputIds
      source := (readiness.row id).source
      failure := failures.get? id }
    have hclose : closeRow readiness failures matrix id = some (matrix.set id closed) := by
      unfold closeRow
      rw [hold]
      rfl
    obtain ⟨matrix', hfold, hall⟩ := ih (matrix.set id closed)
      fun other => mem_keys_set.mpr (Or.inl (hrows other))
    refine ⟨matrix', ?_, fun other => ?_⟩
    · rw [foldlM_cons, hclose]
      exact hfold
    · obtain ⟨row, hrow, hlater, hkept⟩ := hall other
      refine ⟨row, hrow, fun hmem => ?_, fun old' hnot hold' => ?_⟩
      · by_cases hids : other ∈ ids
        · exact hlater hids
        · have heq : other = id := (mem_cons.mp hmem).resolve_right hids
          subst heq
          rw [hkept closed hids (get?_set_self _ _ _)]
      · rw [mem_cons, not_or] at hnot
        refine hkept old' hnot.2 ?_
        rw [get?_set_ne _ _ hnot.1]
        exact hold'

/-- The run has ended with the report, each requirement in its last phase. -/
structure Ends (runtime : Runtime W) (jurisdiction : String) (phases : RequirementId → Phase)
    (run : Run W) (result : Result) : Prop where
  stands : Stands runtime jurisdiction result.plan phases run
  idle : Idle jurisdiction result.plan phases
  seen : ∀ id, phases id ≠ .unseen
  readiness : result.readiness = (runtime.read false run.world).1
  log : result.log = run.log
  failures : result.failures = run.failures
  matrix : ∀ id, ∃ row, result.matrix.get? id = some row ∧
    row.state = (result.readiness.row id).status

theorem investigate_ends (hstays : Stays runtime jurisdiction) (hasked : FailsAsked runtime)
    (world : W) : ∃ result phases run, investigate runtime jurisdiction world = some result ∧
      Ends runtime jurisdiction phases run result := by
  obtain ⟨phases, hstands, hidle, -, hseen⟩ := (stands_init runtime jurisdiction
    (buildPlan (runtime.read false world).1) (runtime.read false world).2).visitAll hstays hasked
    ((buildPlan (runtime.read false world).1).requiredEvidence ++
      (buildPlan (runtime.read false world).1).optionalEvidence) idle_init
  generalize hrun : (((buildPlan (runtime.read false world).1).requiredEvidence ++
    (buildPlan (runtime.read false world).1).optionalEvidence).foldl
      (Investigation.visit runtime jurisdiction (buildPlan (runtime.read false world).1))
      { world := (runtime.read false world).2 }) = run at hstands
  have hall : ∀ id, phases id ≠ .unseen := fun id => hseen id (mem_plan _ id)
  have hrows : ∀ id, id ∈ run.matrix.keys := by
    intro id
    refine (hstands.1 id).matrix.mpr ?_
    have hid := hall id
    cases hphase : phases id with
    | unseen => exact absurd hphase hid
    | looked row => rfl
    | skipped row verdict => rfl
    | asked row => rfl
    | finished row look => rfl
  obtain ⟨matrix, hclosed, hstates⟩ := closeRows (runtime.read false run.world).1 run.failures
    RequirementId.all run.matrix hrows
  refine ⟨{ readiness := (runtime.read false run.world).1
            attempted := run.attempted.eraseDups
            capabilities := run.capabilities.eraseDups
            failures := run.failures
            plan := buildPlan (runtime.read false world).1
            matrix := matrix
            log := run.log }, phases, run, ?_,
    hstands, hidle, hall, rfl, rfl, rfl, fun id => ?_⟩
  · unfold investigate
    dsimp only
    rw [hrun, hclosed]
    rfl
  · obtain ⟨row, hrow, hstate, -⟩ := hstates id
    exact ⟨row, hrow, hstate id.mem_all⟩

/-- A row that is satisfied and yet not left alone. -/
theorem official_of_due (hsat : satisfiedRow jurisdiction id row = true)
    (hdue : restsAt jurisdiction id row = false) :
    id = .quarterlyFinancials ∧ jurisdiction = "INDIA" ∧ row.status = .readyFresh ∧
      row.source = some "NSE" ∧ row.sourceTier ≠ some .official := by
  unfold satisfiedRow at hsat
  simp only [restsAt, Bool.or_eq_false_iff, Bool.and_eq_false_iff, decide_eq_false_iff_not,
    not_not] at hdue
  split at hsat
  · rename_i hna
    exact absurd hna hdue.1
  · split at hsat
    · cases hsat
    · rename_i hfresh
      rw [not_not] at hfresh
      obtain ⟨⟨hid, hindia⟩, hsource⟩ := hdue.2.resolve_left fun hne => hne hfresh
      rw [if_pos ⟨hid, hindia⟩, decide_eq_true_eq] at hsat
      exact ⟨hid, hindia, hfresh, hsat, hsource.resolve_left fun hne => hne hsat⟩

theorem not_rests (hindia : jurisdiction = "INDIA") (hfresh : row.status = .readyFresh)
    (htier : row.sourceTier ≠ some .official) :
    restsAt jurisdiction .quarterlyFinancials row = false := by
  simp [restsAt, hindia, hfresh, htier]

theorem satisfied_nse (hfresh : row.status = .readyFresh) (hsource : row.source = some "NSE") :
    satisfiedRow jurisdiction .quarterlyFinancials row = true := by
  simp [satisfiedRow, hfresh, hsource]

/-! ### Reading the report off the phases -/

variable {result : Result}

namespace Ends

variable (h : Ends runtime jurisdiction phases run result)

include h

theorem history_eq (id : RequirementId) : history id result.log = (phases id).history :=
  h.log ▸ (h.stands.1 id).log

/-- The way of a requirement has come to its end. -/
theorem phase_cases (id : RequirementId) :
    (∃ row, phases id = .looked row ∧
      (restsAt jurisdiction id row = true ∨ result.plan.selected id = false)) ∨
    (∃ row verdict, phases id = .skipped row verdict) ∨
    ∃ row look, phases id = .finished row look := by
  cases hphase : phases id with
  | unseen => exact absurd hphase (h.seen id)
  | looked row =>
    refine Or.inl ⟨row, rfl, ?_⟩
    by_contra hdue
    rw [not_or, Bool.not_eq_true, Bool.not_eq_false] at hdue
    exact (h.idle id).2 ⟨row, hphase, hdue⟩
  | skipped row verdict => exact Or.inr (Or.inl ⟨row, verdict, rfl⟩)
  | asked row => exact absurd hphase ((h.idle id).1 row)
  | finished row look => exact Or.inr (Or.inr ⟨row, look, rfl⟩)

/-- A requirement that was passed to a call has gone all its way. -/
theorem finished_of_mem {id : RequirementId} (hid : id ∈ acquiredIds result.log) :
    ∃ row look, phases id = .finished row look := by
  have hmem := mem_acquiredIds hid
  rw [h.history_eq] at hmem
  rcases h.phase_cases id with ⟨row, hphase, -⟩ | ⟨row, verdict, hphase⟩ | hfinished
  · simp [hphase, Phase.history] at hmem
  · simp [hphase, Phase.history] at hmem
  · exact hfinished

theorem mem_of_finished {id : RequirementId} {row : Row} {look : Readiness}
    (hphase : phases id = .finished row look) : id ∈ acquiredIds result.log := by
  rw [← count_pos_iff, count_acquiredIds, h.history_eq, hphase]
  exact Nat.one_pos

/-- The row that a requirement was visited with is the one of its phase. -/
theorem visited_iff {id : RequirementId} {row : Row} :
    Event.visited id row ∈ result.log ↔ (phases id).row? = some row := by
  rw [visited_mem, h.history_eq]
  cases phases id with
  | unseen => simp [Phase.history, Phase.row?]
  | looked row' => simp [Phase.history, Phase.row?, eq_comm]
  | skipped row' verdict => simp [Phase.history, Phase.row?, eq_comm]
  | asked row' => simp [Phase.history, Phase.row?, eq_comm]
  | finished row' look => simp [Phase.history, Phase.row?, eq_comm]

theorem once : (acquiredIds result.log).Nodup := by
  rw [nodup_iff_count_le_one]
  intro id
  rw [count_acquiredIds, h.history_eq]
  cases phases id with
  | unseen => exact Nat.zero_le 1
  | looked row => exact Nat.zero_le 1
  | skipped row verdict => exact Nat.zero_le 1
  | asked row => exact Nat.le_refl 1
  | finished row look => exact Nat.le_refl 1

/-- A reading that shows the requirement satisfied is confirmed by the last one. -/
theorem satisfied_of_shows {id : RequirementId} (hshows : Shows runtime jurisdiction run.world id) :
    requirementSatisfiedFrom jurisdiction result.readiness id = true := h.readiness ▸ hshows false

theorem truthful_of_settled (hsettled : Settled jurisdiction result) :
    Truthful jurisdiction result := by
  refine ⟨h.matrix, h.once, fun id hid => ?_, fun id hid => ?_, fun id hid hunsat => ?_,
    fun ids budget hmem actions => (h.stands.2 ids budget (h.log ▸ hmem)).run actions⟩
  · obtain ⟨row, look, hphase⟩ := h.finished_of_mem hid
    have hfits := h.stands.1 id
    rw [hphase] at hfits
    have hrow : (phases id).row? = some row := by rw [hphase]; rfl
    refine ⟨⟨row, h.visited_iff.mpr hrow⟩, fun row' hvisited => ?_⟩
    cases hrow.symm.trans (h.visited_iff.mp hvisited)
    by_contra hsat
    rw [Bool.not_eq_false] at hsat
    obtain ⟨rfl, hindia, hfresh, hsource, htier⟩ := official_of_due hsat hfits.due.1
    exact htier (hsettled.official hindia hfits.due.2 row hvisited hfresh hsource)
  · rw [h.failures] at hid
    have hfits := h.stands.1 id
    rcases h.phase_cases id with ⟨row, hphase, -⟩ | ⟨row, verdict, hphase⟩ | ⟨row, look, hphase⟩
    · rw [hphase] at hfits
      exact absurd hid hfits.decided
    · refine hsettled.skipped id verdict (skipped_mem.mpr ?_)
      rw [h.history_eq, hphase]
      exact mem_cons_of_mem _ (mem_singleton.mpr rfl)
    · rw [hphase] at hfits
      refine hsettled.finalized id look (finalized_mem.mpr ?_) (hfits.decided.mp hid)
      rw [h.history_eq, hphase]
      exact mem_cons_of_mem _ (mem_cons_of_mem _ (mem_singleton.mpr rfl))
  · obtain ⟨row, look, hphase⟩ := h.finished_of_mem hid
    have hfits := h.stands.1 id
    rw [hphase] at hfits
    rw [h.failures]
    by_contra hnot
    have hsat : requirementSatisfiedFrom jurisdiction look id = true := by
      rw [← Bool.not_eq_false]
      exact fun hfalse => hnot (hfits.decided.mpr hfalse)
    cases hunsat.symm.trans (h.satisfied_of_shows (hfits.seen.2 row look rfl hsat))

theorem settled_of_truthful (htruthful : Truthful jurisdiction result) :
    Settled jurisdiction result := by
  refine ⟨fun id look hmem hunsat => ?_, fun id verdict hmem => ?_,
    fun hindia hselected row hvisited hfresh hsource => ?_⟩
  · have hhistory := finalized_mem.mp hmem
    rw [h.history_eq] at hhistory
    have hfits := h.stands.1 id
    rcases h.phase_cases id with ⟨row, hphase, -⟩ | ⟨row, verdict, hphase⟩ | ⟨row, look', hphase⟩
    · simp [hphase, Phase.history] at hhistory
    · simp [hphase, Phase.history] at hhistory
    · have hlook : look = look' := by simpa [hphase, Phase.history] using hhistory
      rw [hphase] at hfits
      subst hlook
      exact htruthful.failed id (h.failures ▸ hfits.decided.mpr hunsat)
  · have hhistory := skipped_mem.mp hmem
    rw [h.history_eq] at hhistory
    have hfits := h.stands.1 id
    rcases h.phase_cases id with ⟨row, hphase, -⟩ | ⟨row, verdict', hphase⟩ | ⟨row, look, hphase⟩
    · simp [hphase, Phase.history] at hhistory
    · rw [hphase] at hfits
      exact htruthful.failed id (h.failures ▸ hfits.decided)
    · simp [hphase, Phase.history] at hhistory
  · by_contra htier
    have hdue := not_rests hindia hfresh htier
    have hsat : satisfiedRow jurisdiction .quarterlyFinancials row = true :=
      satisfied_nse hfresh hsource
    have hrow := h.visited_iff.mp hvisited
    have hfits := h.stands.1 .quarterlyFinancials
    rcases h.phase_cases .quarterlyFinancials with
      ⟨row', hphase, hleft⟩ | ⟨row', verdict, hphase⟩ | ⟨row', look, hphase⟩
    · rw [hphase] at hrow
      cases hrow
      rcases hleft with hrests | hnot
      · cases hdue.symm.trans hrests
      · cases hselected.symm.trans hnot
    · rw [hphase] at hrow hfits
      cases hrow
      have hend := h.satisfied_of_shows (hfits.seen.1 row rfl hsat)
      cases (htruthful.failed .quarterlyFinancials (h.failures ▸ hfits.decided)).symm.trans hend
    · cases hsat.symm.trans
        ((htruthful.unsatisfied _ (h.mem_of_finished hphase)).2 row hvisited)

end Ends

/-- **The report is true exactly if what was given up has stayed unsatisfied**, and the quarterly
evidence was not fresh from the NSE under a lesser tier. -/
theorem truthful_iff_settled (hstays : Stays runtime jurisdiction) (hasked : FailsAsked runtime)
    (world : W) : ∃ result, investigate runtime jurisdiction world = some result ∧
      (Truthful jurisdiction result ↔ Settled jurisdiction result) := by
  obtain ⟨result, phases, run, hresult, hends⟩ := investigate_ends hstays hasked world
  exact ⟨result, hresult, hends.settled_of_truthful, hends.truthful_of_settled⟩

end

/-! ### Two runs -/

/-- Two requirements wait for the evidence that one of them brings in. -/
def sampleRow (there : Bool) (id : RequirementId) : Row where
  mandatory := true
  status :=
    if id ∈ [RequirementId.valuationInputs, .quarterlyFinancials] ∧ ¬ there then .missing
    else .readyFresh
  source := some "NSE"
  sourceTier := some .official
  missingInputIds := []
  applicability := "APPLICABLE"
  applicabilityReason := none
  classification := none
  classificationSource := none
  notApplicableInputReasons := []
  maximumAge := none
  scoringWindow := none

def sampleRuntime (source : RequirementId) : Runtime Bool where
  read _ there := (⟨sampleRow there, 0⟩, there)
  ensure ids _ there :=
    (⟨[], .ok ⟨ids, [], .empty⟩⟩, there || ids.any (· = source))
  acquisitionObservationsFor _ := []
  recordAcquisitionObservation _ _ there := there
  financialAuthorityUpgradeDue _ _ _ := false

theorem satisfied_sample (there : Bool) (id : RequirementId)
    (h : satisfiedRow "INDIA" id (sampleRow there id) = true) (more : Bool) :
    satisfiedRow "INDIA" id (sampleRow (there || more) id) = true := by
  cases there with
  | true => exact h
  | false =>
    cases more with
    | false => exact h
    | true => cases id <;> rfl

theorem stays_sample (source : RequirementId) : Stays (sampleRuntime source) "INDIA" :=
  ⟨fun _ _ _ hsat _ => hsat,
    fun _ _ there id hshows mode => satisfied_sample there id (hshows mode) _,
    fun _ _ _ _ hshows => hshows⟩

theorem failsAsked_sample (source : RequirementId) : FailsAsked (sampleRuntime source) := by
  intro _ _ _ result hresult id hid
  cases hresult
  exact absurd hid not_mem_nil

theorem truthful_iff_settled_sample :
    ∃ result, investigate (sampleRuntime .valuationInputs) "INDIA" false = some result ∧
      (Truthful "INDIA" result ↔ Settled "INDIA" result) :=
  truthful_iff_settled (stays_sample .valuationInputs) (failsAsked_sample .valuationInputs) false

/-- **A failure stays in the report** of a requirement that the next group's call has satisfied. -/
theorem stale_failure :
    Stays (sampleRuntime .quarterlyFinancials) "INDIA" ∧
      FailsAsked (sampleRuntime .quarterlyFinancials) ∧
      ∃ result, investigate (sampleRuntime .quarterlyFinancials) "INDIA" false = some result ∧
        result.failures.keys = [.valuationInputs] ∧
        requirementSatisfiedFrom "INDIA" result.readiness .valuationInputs = true ∧
        ¬ Truthful "INDIA" result := by
  have hrun : ((investigate (sampleRuntime .quarterlyFinancials) "INDIA" false).map fun result =>
      (result.failures.keys,
        requirementSatisfiedFrom "INDIA" result.readiness .valuationInputs)) =
      some ([.valuationInputs], true) := by rfl
  obtain ⟨result, hresult, hpair⟩ := Option.map_eq_some_iff.mp hrun
  obtain ⟨hkeys, hsat⟩ := Prod.mk.inj hpair
  refine ⟨stays_sample _, failsAsked_sample _, result, hresult, hkeys, hsat, fun h => ?_⟩
  have hfailed := h.failed .valuationInputs (hkeys ▸ List.mem_singleton.mpr rfl)
  cases hsat.symm.trans hfailed

end InvestmentPlatform.Evidence.Investigation
