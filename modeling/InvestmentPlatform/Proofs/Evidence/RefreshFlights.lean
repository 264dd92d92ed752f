/-
What the refresh flights of an instrument keep.

One task is active at a time and every run row is closed once, whatever is cancelled.  The calls
that join a flight are served as long as the flight covers what they ask for and its owner is not
cancelled.
-/
import InvestmentPlatform.Evidence.RefreshFlights

namespace InvestmentPlatform.Evidence.RefreshFlights

open Option Function

variable {K C : Type}

/-! ### One task -/

namespace Task

variable {live : Bool} {task task' : Task K}

/-- What the run row of a task is at each of its stages. -/
def RowFits (live : Bool) (task : Task K) : Prop :=
  match task.stage with
  | .created | .starting false | .repairing => task.row = none ∧ task.terminalWrites = 0
  | .starting true | .providing | .failing false _ =>
    task.row = some .running ∧ task.terminalWrites = 0
  | .completing false =>
    (task.row = some .running ∧ task.terminalWrites = 0) ∧
      (live = true → task.worked = some .returned)
  | .completing true =>
    (task.row = some .completed ∧ task.terminalWrites = 1) ∧
      (live = true → task.worked = some .returned)
  | .failing true _ => task.row = some .failed ∧ task.terminalWrites = 1
  | .done _ =>
    (task.row = none ∧ task.terminalWrites = 0) ∨
      (task.row = some .failed ∧ task.terminalWrites = 1) ∨
      (task.row = some .completed ∧ task.terminalWrites = 1) ∧
        (live = true → task.worked = some .returned)

/-- A task that was not cancelled shows no trace of a cancellation. -/
def Uncancelled (task : Task K) : Prop :=
  task.cancelRequested = false → task.interrupted = false ∧
    (∀ committed, task.stage ≠ .failing committed true) ∧ task.stage ≠ .done .cancelled

structure Sound (live : Bool) (task : Task K) : Prop where
  row : task.RowFits live
  uncancelled : task.Uncancelled

theorem sound_new (kind : Kind) (scope : Scope K) :
    Sound live { kind := kind, scope := scope } :=
  ⟨⟨rfl, rfl⟩, fun _ => ⟨rfl, nofun, nofun⟩⟩

/-- A stretch of a task: it was not done, it keeps what it is for, and it is sound again. -/
structure Moves (live : Bool) (task task' : Task K) : Prop where
  active : task.isDone = false
  scope : task'.scope = task.scope
  kind : task'.kind = task.kind
  cancelRequested : task'.cancelRequested = task.cancelRequested
  sound : task.Sound live → task'.Sound live

theorem begin_moves {due : Bool} (h : task.begin live due = some task') :
    Moves live task task' := by
  unfold begin at h
  cases hstage : task.stage with
  | created =>
    have hactive : task.isDone = false := by rw [isDone, hstage]
    have hkept : ∀ stage, stage = .starting false ∨ stage = .repairing ∨ stage = .done .returned →
        Moves live task { task with stage := stage } := by
      intro stage hnext
      refine ⟨hactive, rfl, rfl, rfl, fun hsound => ⟨?_, fun hnot => ?_⟩⟩
      · have hrow := hsound.row
        rw [RowFits, hstage] at hrow
        rcases hnext with rfl | rfl | rfl
        · exact hrow
        · exact hrow
        · exact Or.inl hrow
      · have hinterrupted := (hsound.uncancelled hnot).1
        rcases hnext with rfl | rfl | rfl
        · exact ⟨hinterrupted, nofun, nofun⟩
        · exact ⟨hinterrupted, nofun, nofun⟩
        · exact ⟨hinterrupted, nofun, nofun⟩
    have hwork : (if live then Stage.repairing else .done .returned) = .repairing ∨
        (if live then Stage.repairing else .done .returned) = .done .returned := by
      cases live
      · exact Or.inr rfl
      · exact Or.inl rfl
    simp only [hstage] at h
    split at h
    · cases h
      exact hkept _ (Or.inl rfl)
    · split at h
      · cases h
        exact hkept _ (Or.inl rfl)
      · cases h
        exact hkept _ (Or.inr hwork)
    · cases h
      exact hkept _ (Or.inr hwork)
  | starting committed => simp [hstage] at h
  | providing => simp [hstage] at h
  | repairing => simp [hstage] at h
  | completing committed => simp [hstage] at h
  | failing committed cancelled => simp [hstage] at h
  | done outcome => simp [hstage] at h

theorem commit_moves (h : task.commit = some task') : Moves live task task' := by
  unfold commit at h
  cases hstage : task.stage with
  | starting committed =>
    cases committed <;> simp only [hstage, reduceCtorEq, some.injEq] at h
    subst h
    refine ⟨by rw [isDone, hstage], rfl, rfl, rfl, fun hsound => ⟨⟨rfl, ?_⟩, fun hnot => ?_⟩⟩
    · have hrow := hsound.row
      rw [RowFits, hstage] at hrow
      exact hrow.2
    · exact ⟨(hsound.uncancelled hnot).1, nofun, nofun⟩
  | completing committed =>
    cases committed <;> simp only [hstage, reduceCtorEq, some.injEq] at h
    subst h
    refine ⟨by rw [isDone, hstage], rfl, rfl, rfl,
      fun hsound => ⟨⟨⟨rfl, ?_⟩, ?_⟩, fun hnot => ?_⟩⟩
    all_goals have hrow := hsound.row
    all_goals rw [RowFits, hstage] at hrow
    · exact congrArg (· + 1) hrow.1.2
    · exact hrow.2
    · exact ⟨(hsound.uncancelled hnot).1, nofun, nofun⟩
  | failing committed cancelled =>
    cases committed <;> simp only [hstage, reduceCtorEq, some.injEq] at h
    subst h
    refine ⟨by rw [isDone, hstage], rfl, rfl, rfl, fun hsound => ⟨⟨rfl, ?_⟩, fun hnot => ?_⟩⟩
    · have hrow := hsound.row
      rw [RowFits, hstage] at hrow
      exact congrArg (· + 1) hrow.2
    · obtain ⟨hinterrupted, hfailing, -⟩ := hsound.uncancelled hnot
      refine ⟨hinterrupted, ?_, nofun⟩
      rintro committed ⟨⟩
      exact hfailing false hstage
  | created => simp [hstage] at h
  | providing => simp [hstage] at h
  | repairing => simp [hstage] at h
  | done outcome => simp [hstage] at h

theorem resume_moves (h : task.resume live = some task') : Moves live task task' := by
  unfold resume at h
  cases hstage : task.stage with
  | starting committed =>
    cases committed <;> simp only [hstage, reduceCtorEq] at h
    refine ⟨by rw [isDone, hstage], ?_, ?_, ?_, fun hsound => ?_⟩
    iterate 3
      split at h
      · cases h
        rfl
      · cases h
        rfl
    have hrow := hsound.row
    rw [RowFits, hstage] at hrow
    split at h
    · rename_i hinterrupted
      cases h
      refine ⟨hrow, fun hnot => ?_⟩
      rw [(hsound.uncancelled hnot).1] at hinterrupted
      cases hinterrupted
    · cases h
      cases live with
      | true => exact ⟨hrow, fun hnot => ⟨(hsound.uncancelled hnot).1, nofun, nofun⟩⟩
      | false => exact ⟨⟨hrow, nofun⟩, fun hnot => ⟨(hsound.uncancelled hnot).1, nofun, nofun⟩⟩
  | completing committed =>
    cases committed <;> simp only [hstage, reduceCtorEq, some.injEq] at h
    subst h
    refine ⟨by rw [isDone, hstage], rfl, rfl, rfl, fun hsound => ⟨?_, fun hnot => ?_⟩⟩
    · have hrow := hsound.row
      rw [RowFits, hstage] at hrow
      exact Or.inr (Or.inr hrow)
    · obtain ⟨hinterrupted, -, -⟩ := hsound.uncancelled hnot
      refine ⟨hinterrupted, nofun, ?_⟩
      dsimp only
      rw [hinterrupted]
      exact nofun
  | failing committed cancelled =>
    cases committed <;> simp only [hstage, reduceCtorEq, some.injEq] at h
    subst h
    refine ⟨by rw [isDone, hstage], rfl, rfl, rfl, fun hsound => ⟨?_, fun hnot => ?_⟩⟩
    · have hrow := hsound.row
      rw [RowFits, hstage] at hrow
      exact Or.inr (Or.inl hrow)
    · obtain ⟨hinterrupted, hfailing, -⟩ := hsound.uncancelled hnot
      refine ⟨hinterrupted, nofun, ?_⟩
      have hcancelled : cancelled = false := by
        cases cancelled with
        | false => rfl
        | true => exact absurd hstage (hfailing true)
      simp [hcancelled, hinterrupted]
  | created => simp [hstage] at h
  | providing => simp [hstage] at h
  | repairing => simp [hstage] at h
  | done outcome => simp [hstage] at h

theorem provided_moves {outcome : Outcome} (h : task.provided outcome = some task') :
    Moves live task task' := by
  unfold provided at h
  cases hstage : task.stage with
  | providing =>
    have hactive : task.isDone = false := by rw [isDone, hstage]
    cases outcome with
    | returned =>
      simp only [hstage, some.injEq] at h
      subst h
      refine ⟨hactive, rfl, rfl, rfl, fun hsound => ⟨?_, fun hnot => ?_⟩⟩
      · have hrow := hsound.row
        rw [RowFits, hstage] at hrow
        exact ⟨hrow, fun _ => rfl⟩
      · exact ⟨(hsound.uncancelled hnot).1, nofun, nofun⟩
    | raised =>
      simp only [hstage, some.injEq] at h
      subst h
      refine ⟨hactive, rfl, rfl, rfl, fun hsound => ⟨?_, fun hnot => ?_⟩⟩
      · have hrow := hsound.row
        rw [RowFits, hstage] at hrow
        exact hrow
      · exact ⟨(hsound.uncancelled hnot).1, nofun, nofun⟩
    | cancelled =>
      simp only [hstage] at h
      split at h
      · rename_i hrequested
        cases h
        refine ⟨hactive, rfl, rfl, rfl, fun hsound => ⟨?_, fun hnot => ?_⟩⟩
        · have hrow := hsound.row
          rw [RowFits, hstage] at hrow
          exact hrow
        · rw [hrequested] at hnot
          cases hnot
      · cases h
  | repairing =>
    have hactive : task.isDone = false := by rw [isDone, hstage]
    cases outcome <;> simp only [hstage, reduceCtorEq, some.injEq] at h
    all_goals
      subst h
      refine ⟨hactive, rfl, rfl, rfl, fun hsound => ⟨?_, fun hnot => ?_⟩⟩
    all_goals first
      | exact ⟨(hsound.uncancelled hnot).1, nofun, nofun⟩
      | (have hrow := hsound.row
         rw [RowFits, hstage] at hrow
         exact Or.inl hrow)
  | created => simp [hstage] at h
  | starting committed => simp [hstage] at h
  | completing committed => simp [hstage] at h
  | failing committed cancelled => simp [hstage] at h
  | done outcome => simp [hstage] at h

/-- A task that is not done stays sound when it is cancelled. -/
theorem cancel_sound (hsound : task.Sound live) : task.cancel.Sound live := by
  have hrow := hsound.row
  unfold cancel
  cases hstage : task.stage with
  | created =>
    rw [RowFits, hstage] at hrow
    exact ⟨Or.inl hrow, nofun⟩
  | starting committed =>
    refine ⟨?_, nofun⟩
    unfold RowFits at hrow ⊢
    rw [hstage] at hrow
    exact hrow
  | completing committed =>
    refine ⟨?_, nofun⟩
    unfold RowFits at hrow ⊢
    rw [hstage] at hrow
    exact hrow
  | failing committed cancelled =>
    refine ⟨?_, nofun⟩
    unfold RowFits at hrow ⊢
    rw [hstage] at hrow
    exact hrow
  | providing =>
    refine ⟨?_, nofun⟩
    unfold RowFits at hrow ⊢
    rw [hstage] at hrow
    exact hrow
  | repairing =>
    refine ⟨?_, nofun⟩
    unfold RowFits at hrow ⊢
    rw [hstage] at hrow
    exact hrow
  | done outcome =>
    refine ⟨?_, nofun⟩
    unfold RowFits at hrow ⊢
    rw [hstage] at hrow
    exact hrow

/-- No cancellation ends the task any more, unless one is still requested. -/
def Lives (task : Task K) : Prop :=
  task.cancelRequested = true → task.isDone = true ∧ task.stage ≠ .done .cancelled

theorem Moves.lives (h : Moves live task task') (hlives : task.Lives) : task'.Lives := by
  intro hrequested
  rw [h.cancelRequested] at hrequested
  have hdone := (hlives hrequested).1
  rw [h.active] at hdone
  cases hdone

theorem Lives.not_cancelled (hlives : task.Lives) (hsound : task.Sound live) :
    task.stage ≠ .done .cancelled := by
  cases hrequested : task.cancelRequested with
  | true => exact (hlives hrequested).2
  | false => exact (hsound.uncancelled hrequested).2.2

theorem cancel_scope : task.cancel.scope = task.scope := by
  unfold cancel
  split <;> rfl

/-- The run row is closed once the task is done, and it is closed once; and it says `COMPLETED`
only where the provider work returned. -/
structure Closed (live : Bool) (task : Task K) : Prop where
  once : task.terminalWrites ≤ 1
  closed : task.isDone = true → task.row ≠ none →
    task.terminalWrites = 1 ∧ task.row ≠ some .running
  completed : live = true → task.row = some .completed → task.worked = some .returned

/-- A row that is not closed yet. -/
theorem closed_of_open (hactive : task.isDone = false) (hrow : task.row ≠ some .completed)
    (hwrites : task.terminalWrites = 0) : task.Closed live := by
  refine ⟨by omega, fun hdone => ?_, fun _ hcompleted => absurd hcompleted hrow⟩
  rw [hactive] at hdone
  cases hdone

/-- A row that was closed. -/
theorem closed_of_status {status : Status} (hrow : task.row = some status)
    (hne : status ≠ .running) (hwrites : task.terminalWrites = 1)
    (hworked : status = .completed → live = true → task.worked = some .returned) :
    task.Closed live := by
  refine ⟨by omega, fun _ _ => ⟨hwrites, ?_⟩, fun hlive hcompleted => ?_⟩
  · rw [hrow]
    exact fun heq => hne (some.inj heq)
  · rw [hrow] at hcompleted
    exact hworked (some.inj hcompleted) hlive

theorem Sound.closed (hsound : task.Sound live) : task.Closed live := by
  have hrow := hsound.row
  have hopen : task.isDone = false → task.row = none ∧ task.terminalWrites = 0 →
      task.Closed live := by
    intro hactive hnone
    refine closed_of_open hactive ?_ hnone.2
    rw [hnone.1]
    exact nofun
  have hrunning : task.isDone = false → task.row = some .running ∧ task.terminalWrites = 0 →
      task.Closed live := by
    intro hactive hrunning
    refine closed_of_open hactive ?_ hrunning.2
    rw [hrunning.1]
    exact nofun
  have hfailed : task.row = some .failed ∧ task.terminalWrites = 1 → task.Closed live :=
    fun h => closed_of_status h.1 nofun h.2 nofun
  have hcompleted : (task.row = some .completed ∧ task.terminalWrites = 1) ∧
      (live = true → task.worked = some .returned) → task.Closed live :=
    fun h => closed_of_status h.1.1 nofun h.1.2 fun _ => h.2
  cases hstage : task.stage with
  | created =>
    rw [RowFits, hstage] at hrow
    exact hopen (by rw [isDone, hstage]) hrow
  | starting committed =>
    rw [RowFits, hstage] at hrow
    cases committed with
    | false => exact hopen (by rw [isDone, hstage]) hrow
    | true => exact hrunning (by rw [isDone, hstage]) hrow
  | providing =>
    rw [RowFits, hstage] at hrow
    exact hrunning (by rw [isDone, hstage]) hrow
  | repairing =>
    rw [RowFits, hstage] at hrow
    exact hopen (by rw [isDone, hstage]) hrow
  | completing committed =>
    rw [RowFits, hstage] at hrow
    cases committed with
    | false => exact hrunning (by rw [isDone, hstage]) hrow.1
    | true => exact hcompleted hrow
  | failing committed cancelled =>
    rw [RowFits, hstage] at hrow
    cases committed with
    | false => exact hrunning (by rw [isDone, hstage]) hrow
    | true => exact hfailed hrow
  | done outcome =>
    rw [RowFits, hstage] at hrow
    rcases hrow with ⟨hnone, hwrites⟩ | hrow | hrow
    · refine ⟨by omega, fun _ hsome => absurd hnone hsome, fun _ hrow => ?_⟩
      rw [hnone] at hrow
      cases hrow
    · exact hfailed hrow
    · exact hcompleted hrow

end Task

/-! ### What is asked for -/

/-- At most one task is active. -/
def Single (state : State K C) : Prop :=
  ∀ i j task task', state.tasks i = some task → state.tasks j = some task' →
    task.isDone = false → task'.isDone = false → i = j

/-- Who is given a result asked for nothing that its task does not process. -/
def Served (state : State K C) : Prop :=
  ∀ caller id, (state.callers caller).phase = .ended (.returned id) →
    ∃ task, state.tasks id = some task ∧ task.scope.Covers (state.callers caller).scope

/-- Who ends with a cancellation was hit by one. -/
def Isolated (state : State K C) : Prop :=
  ∀ caller, (state.callers caller).phase = .ended .cancelled → (state.callers caller).hit = true

def RunsClosed (live : Bool) (state : State K C) : Prop :=
  ∀ id task, state.tasks id = some task → task.Closed live

structure Promises (live : Bool) (state : State K C) : Prop where
  single : Single state
  served : Served state
  isolated : Isolated state
  closed : RunsClosed live state

/-- Who finds a flight asks for nothing that its task does not process, and no cancellation can
end it; and no cancellation goes on to a task while others wait for it. -/
def Spares (state : State K C) (action : Action K C) : Prop :=
  (∀ caller kind scope id task, action = .call caller kind scope → state.flight = some id →
    state.tasks id = some task → task.scope.Covers scope ∧ task.Lives) ∧
  ∀ caller task, action = .cancel caller → (state.callers caller).phase = .owning →
    (state.callers caller).kind = .targeted → state.tasks caller = some task →
    task.isDone = false → ∀ follower, (state.callers follower).phase ≠ .joined caller

/-! ### What every run keeps -/

section

variable [DecidableEq C] {live : Bool} {state state' : State K C} {caller id : C}
  {record : Caller K C} {task : Task K}

theorem put_self : (state.put caller record).callers caller = record := update_self _ _ _

variable {j : C}

theorem put_ne (h : j ≠ caller) :
    (state.put caller record).callers j = state.callers j := update_of_ne h _ _

theorem setTask_self : (state.setTask id task).tasks id = some task := update_self _ _ _

theorem setTask_ne (h : j ≠ id) : (state.setTask id task).tasks j = state.tasks j :=
  update_of_ne h _ _

/-- What holds of the other records and of a new one holds of all after it was put. -/
theorem forall_put {P : C → Caller K C → Prop} (h : ∀ j, j ≠ caller → P j (state.callers j))
    (hrecord : P caller record) (j : C) : P j ((state.put caller record).callers j) := by
  by_cases hj : j = caller
  · subst hj
    rw [put_self]
    exact hrecord
  · rw [put_ne hj]
    exact h j hj

/-- What holds of every task holds of them after one was set. -/
theorem forall_setTask {P : C → Task K → Prop} (h : ∀ j t, state.tasks j = some t → P j t)
    (htask : P id task) (j : C) (t : Task K) (ht : (state.setTask id task).tasks j = some t) :
    P j t := by
  by_cases hj : j = id
  · subst hj
    rw [setTask_self] at ht
    cases ht
    exact htask
  · rw [setTask_ne hj] at ht
    exact h j t ht

/-- A task that a caller can see is still there after one was set. -/
theorem exists_setTask {P Q : Task K → Prop} (h : ∃ t, state.tasks j = some t ∧ P t)
    (hkept : ∀ t, P t → Q t) (htask : ∀ t, state.tasks id = some t → P t → Q task) :
    ∃ t, (state.setTask id task).tasks j = some t ∧ Q t := by
  obtain ⟨t, ht, hP⟩ := h
  by_cases hj : j = id
  · subst hj
    exact ⟨task, setTask_self, htask t ht hP⟩
  · exact ⟨t, (setTask_ne hj).trans ht, hkept t hP⟩

/-- A caller and the task that it may have created. -/
def Caller.Fits (caller : Caller K C) (task : Option (Task K)) : Prop :=
  match caller.phase with
  | .fresh => task = none
  | .owning => ∃ t, task = some t ∧ t.scope = caller.scope
  | _ => True

omit [DecidableEq C] in
theorem Caller.Fits.change {task' : Task K} (h : record.Fits (some task))
    (hscope : task'.scope = task.scope) : record.Fits (some task') := by
  unfold Caller.Fits at h ⊢
  split at h
  · cases h
  · obtain ⟨t, ht, hsame⟩ := h
    cases ht
    exact ⟨task', rfl, hscope.trans hsame⟩
  · trivial

structure Inv (live : Bool) (state : State K C) : Prop where
  sound : ∀ id task, state.tasks id = some task → task.Sound live
  active : ∀ id task, state.tasks id = some task → task.isDone = false → state.flight = some id
  flown : ∀ id, state.flight = some id → ∃ task, state.tasks id = some task
  callers : ∀ caller, (state.callers caller).Fits (state.tasks caller)

/-- What a step may come to. -/
inductive Effect (live : Bool) (state : State K C) : Action K C → State K C → Prop
  | joins {caller id : C} {kind : Kind} {scope : Scope K}
    (hphase : (state.callers caller).phase = .fresh) (hflight : state.flight = some id) :
    Effect live state (.call caller kind scope)
      (state.put caller ⟨.joined id, kind, scope, false⟩)
  | owns {caller : C} {kind : Kind} {scope : Scope K}
    (hphase : (state.callers caller).phase = .fresh) (hflight : state.flight = none) :
    Effect live state (.call caller kind scope)
      { (state.setTask caller { kind := kind, scope := scope }).put caller
          ⟨.owning, kind, scope, false⟩ with
        flight := some caller }
  | moves {action : Action K C} {id : C} {task task' : Task K}
    (htask : state.tasks id = some task) (hmoves : task.Moves live task') :
    Effect live state action (state.setTask id task')
  | cleans {id : C} {task : Task K} (htask : state.tasks id = some task)
    (hdone : task.isDone = true) :
    Effect live state (.cleanup id)
      { state with flight := if state.flight = some id then none else state.flight }
  /-- A caller is told how the task ended that it awaits. -/
  | wakes {caller id : C} {ending : Ending C}
    (hphase : (state.callers caller).phase = .joined id ∨
      (state.callers caller).phase = .owning ∧ id = caller)
    (hending : state.ending id = some ending) :
    Effect live state (.wake caller)
      (state.put caller { state.callers caller with phase := .ended ending })
  /-- A caller is hit and ends. -/
  | drops {caller : C} :
    Effect live state (.cancel caller)
      (state.put caller { state.callers caller with hit := true, phase := .ended .cancelled })
  /-- The owner of a targeted refresh is hit, and with it its task. -/
  | passes {caller : C} {task : Task K} (hphase : (state.callers caller).phase = .owning)
    (hkind : (state.callers caller).kind = .targeted) (htask : state.tasks caller = some task)
    (hactive : task.isDone = false) :
    Effect live state (.cancel caller)
      ((state.setTask caller task.cancel).put caller { state.callers caller with hit := true })

variable {action : Action K C}

theorem run_effect {step : Task K → Option (Task K)}
    (hstep : ∀ task task', step task = some task' → task.Moves live task')
    (hrun : state.run id step = some state') : Effect live state action state' := by
  unfold State.run at hrun
  obtain ⟨task', hbind, rfl⟩ := map_eq_some_iff.mp hrun
  obtain ⟨task, htask, htask'⟩ := bind_eq_some_iff.mp hbind
  exact .moves htask (hstep task task' htask')

theorem effect (hexec : state.exec live action = some state') :
    Effect live state action state' := by
  cases action with
  | call caller kind scope =>
    simp only [State.exec] at hexec
    split at hexec
    · rename_i hphase
      split at hexec
      · rename_i id hflight
        rw [← some.inj hexec]
        exact .joins hphase hflight
      · rename_i hflight
        rw [← some.inj hexec]
        exact .owns hphase hflight
    · cases hexec
  | begin id due => exact run_effect (fun _ _ => Task.begin_moves) hexec
  | commit id => exact run_effect (fun _ _ => Task.commit_moves) hexec
  | resume id => exact run_effect (fun _ _ => Task.resume_moves) hexec
  | provided id outcome => exact run_effect (fun _ _ => Task.provided_moves) hexec
  | cleanup id =>
    simp only [State.exec] at hexec
    split at hexec
    · rename_i hany
      obtain ⟨task, htask, hdone⟩ := (Option.any_eq_true _ _).mp hany
      rw [← some.inj hexec]
      exact .cleans htask hdone
    · cases hexec
  | wake caller =>
    simp only [State.exec] at hexec
    split at hexec
    · rename_i id hphase
      obtain ⟨ending, hending, rfl⟩ := map_eq_some_iff.mp hexec
      exact .wakes (Or.inl hphase) hending
    · rename_i hphase
      obtain ⟨ending, hending, rfl⟩ := map_eq_some_iff.mp hexec
      exact .wakes (Or.inr ⟨hphase, rfl⟩) hending
    · cases hexec
  | cancel caller =>
    simp only [State.exec] at hexec
    split at hexec
    · cases hexec
    · cases hexec
    · rw [← some.inj hexec]
      exact .drops
    · rename_i hphase
      split at hexec
      · rename_i htargeted
        obtain ⟨task, htask, hactive⟩ := (Option.any_eq_true _ _).mp htargeted.2
        rw [htask] at hexec
        rw [← some.inj hexec]
        exact .passes hphase htargeted.1 htask (Bool.not_eq_true' _ |>.mp hactive)
      · rw [← some.inj hexec]
        exact .drops

theorem Inv.fits_setTask (h : Inv live state) {task' : Task K}
    (htask : state.tasks id = some task) (hscope : task'.scope = task.scope) (j : C) :
    (state.callers j).Fits ((state.setTask id task').tasks j) := by
  have hfits := h.callers j
  by_cases hj : j = id
  · subst hj
    rw [htask] at hfits
    rw [setTask_self]
    exact hfits.change hscope
  · rw [setTask_ne hj]
    exact hfits

/-- A stretch of a task keeps the invariant, and so does a cancellation of a task that is not
done. -/
theorem Inv.setTask (h : Inv live state) {task' : Task K} (htask : state.tasks id = some task)
    (hactive : task.isDone = false) (hscope : task'.scope = task.scope)
    (hsound : task'.Sound live) : Inv live (state.setTask id task') := by
  have hflight := h.active id task htask hactive
  refine ⟨forall_setTask h.sound hsound, ?_, fun j hj => ?_, h.fits_setTask htask hscope⟩
  · exact forall_setTask (P := fun j t => t.isDone = false → state.flight = some j) h.active
      fun _ => hflight
  · have hj' : state.flight = some j := hj
    rw [hflight] at hj'
    cases hj'
    exact ⟨task', setTask_self⟩

theorem Inv.put (h : Inv live state) (hfits : record.Fits (state.tasks caller)) :
    Inv live (state.put caller record) :=
  ⟨h.sound, h.active, h.flown,
    forall_put (P := fun j record => record.Fits (state.tasks j)) (fun j _ => h.callers j) hfits⟩

theorem Inv.step (h : Inv live state)
    (heffect : Effect live state action state') : Inv live state' := by
  cases heffect with
  | joins => exact h.put trivial
  | @owns caller kind scope hphase hflight =>
    have hnew : state.tasks caller = none := by
      have hfits := h.callers caller
      rw [Caller.Fits, hphase] at hfits
      exact hfits
    refine ⟨forall_setTask h.sound (Task.sound_new kind scope), ?_, fun j hj => ?_, fun j => ?_⟩
    · refine forall_setTask (P := fun j t => t.isDone = false → some caller = some j) ?_ ?_
      · intro j t ht hactive
        have hother := h.active j t ht hactive
        rw [hflight] at hother
        cases hother
      · exact fun _ => rfl
    · have hj' : some caller = some j := hj
      cases hj'
      exact ⟨_, setTask_self⟩
    · change (update state.callers caller ⟨.owning, kind, scope, false⟩ j).Fits
        (update state.tasks caller (some { kind := kind, scope := scope }) j)
      by_cases hj : j = caller
      · subst hj
        rw [update_self, update_self]
        exact ⟨_, rfl, rfl⟩
      · rw [update_of_ne hj, update_of_ne hj]
        exact h.callers j
  | moves htask hmoves =>
    exact h.setTask htask hmoves.active hmoves.scope (hmoves.sound (h.sound _ _ htask))
  | @cleans id task htask hdone =>
    refine ⟨h.sound, fun j t ht hactive => ?_, fun j hj => ?_, h.callers⟩
    · have hflight := h.active j t ht hactive
      have hne : j ≠ id := by
        rintro rfl
        rw [htask] at ht
        cases ht
        rw [hdone] at hactive
        cases hactive
      change (if state.flight = some id then none else state.flight) = some j
      rw [hflight, if_neg fun heq => hne (some.inj heq)]
    · change (if state.flight = some id then none else state.flight) = some j at hj
      split at hj
      · cases hj
      · exact h.flown j hj
  | wakes => exact h.put trivial
  | drops => exact h.put trivial
  | @passes caller task hphase hkind htask hactive =>
    have hset := h.setTask htask hactive Task.cancel_scope (Task.cancel_sound (h.sound _ _ htask))
    refine hset.put ?_
    exact hset.callers caller

/-! ### What a spared run keeps -/

/-- A caller will be served by the task that it awaits, and was served by the one that gave it its
result. -/
def Caller.Watches (caller : Caller K C) (id : C) (tasks : C → Option (Task K)) : Prop :=
  match caller.phase with
  | .fresh | .ended (.raised _) => True
  | .joined task => ∃ t, tasks task = some t ∧ t.scope.Covers caller.scope ∧ t.Lives
  | .owning => caller.hit = false → ∃ t, tasks id = some t ∧ t.Lives
  | .ended (.returned task) => ∃ t, tasks task = some t ∧ t.scope.Covers caller.scope
  | .ended .cancelled => caller.hit = true

/-- A caller goes on watching when a task changes, unless it counts on that task to live. -/
theorem Caller.Watches.setTask {task' : Task K} (h : record.Watches j state.tasks)
    (htask : state.tasks id = some task) (hscope : task'.scope = task.scope)
    (hlives : record.phase = .joined id ∨ record.phase = .owning ∧ record.hit = false ∧ j = id →
      task.Lives → task'.Lives) :
    record.Watches j (state.setTask id task').tasks := by
  unfold Caller.Watches at h ⊢
  split
  · trivial
  · trivial
  · rename_i other hphase
    simp only [hphase] at h
    by_cases hother : other = id
    · subst hother
      obtain ⟨t, ht, hcovers, htlives⟩ := h
      rw [htask] at ht
      cases ht
      refine ⟨task', setTask_self, ?_, hlives (Or.inl hphase) htlives⟩
      rw [hscope]
      exact hcovers
    · rw [setTask_ne hother]
      exact h
  · rename_i hphase
    simp only [hphase] at h
    intro hnot
    by_cases hj : j = id
    · subst hj
      obtain ⟨t, ht, htlives⟩ := h hnot
      rw [htask] at ht
      cases ht
      exact ⟨task', setTask_self, hlives (Or.inr ⟨hphase, hnot, rfl⟩) htlives⟩
    · rw [setTask_ne hj]
      exact h hnot
  · rename_i other hphase
    simp only [hphase] at h
    refine exists_setTask h (fun _ hcovers => hcovers) fun t ht hcovers => ?_
    rw [htask] at ht
    cases ht
    rw [hscope]
    exact hcovers
  · rename_i hphase
    simp only [hphase] at h
    exact h

/-- A caller that counts on no new task goes on watching. -/
theorem Caller.Watches.newTask (h : record.Watches j state.tasks)
    (hnew : state.tasks id = none) : record.Watches j (state.setTask id task).tasks := by
  have hsame : ∀ {k t}, state.tasks k = some t → (state.setTask id task).tasks k = some t := by
    intro k t ht
    refine (setTask_ne ?_).trans ht
    rintro rfl
    rw [hnew] at ht
    cases ht
  unfold Caller.Watches at h ⊢
  split
  · trivial
  · trivial
  · rename_i other hphase
    simp only [hphase] at h
    obtain ⟨t, ht, hwatched⟩ := h
    exact ⟨t, hsame ht, hwatched⟩
  · rename_i hphase
    simp only [hphase] at h
    intro hnot
    obtain ⟨t, ht, hlives⟩ := h hnot
    exact ⟨t, hsame ht, hlives⟩
  · rename_i other hphase
    simp only [hphase] at h
    obtain ⟨t, ht, hcovers⟩ := h
    exact ⟨t, hsame ht, hcovers⟩
  · rename_i hphase
    simp only [hphase] at h
    exact h

omit [DecidableEq C] in
/-- What a caller is told comes from the task. -/
theorem ending_cases {ending : Ending C} (hending : state.ending id = some ending) :
    ending = .returned id ∨ ending = .raised id ∨
      ending = .cancelled ∧ ∃ task, state.tasks id = some task ∧ task.stage = .done .cancelled := by
  unfold State.ending at hending
  split at hending
  · exact Or.inl (some.inj hending).symm
  · exact Or.inr (Or.inl (some.inj hending).symm)
  · rename_i hstage
    obtain ⟨task, htask, hdone⟩ := map_eq_some_iff.mp hstage
    exact Or.inr (Or.inr ⟨(some.inj hending).symm, task, htask, hdone⟩)
  · cases hending

theorem scope_covers_self (scope : Scope K) : scope.Covers scope := fun _ hmem => hmem

/-- Every caller watches. -/
def Watched (state : State K C) : Prop :=
  ∀ caller, (state.callers caller).Watches caller state.tasks

theorem Watched.put (h : Watched state) (hrecord : record.Watches caller state.tasks) :
    Watched (state.put caller record) :=
  forall_put (P := fun j record => record.Watches j state.tasks) (fun j _ => h j) hrecord

theorem Watched.step (h : Watched state) (hinv : Inv live state)
    (hspares : Spares state action) (heffect : Effect live state action state') :
    Watched state' := by
  cases heffect with
  | joins hphase hflight =>
    obtain ⟨task, htask⟩ := hinv.flown _ hflight
    obtain ⟨hcovers, hlives⟩ := hspares.1 _ _ _ _ task rfl hflight htask
    exact h.put ⟨task, htask, hcovers, hlives⟩
  | @owns caller kind scope hphase hflight =>
    have hnew : state.tasks caller = none := by
      have hfits := hinv.callers caller
      rw [Caller.Fits, hphase] at hfits
      exact hfits
    refine forall_put (P := fun j record => record.Watches j
      (state.setTask caller { kind := kind, scope := scope }).tasks) (fun j _ => ?_) fun _ => ?_
    · exact (h j).newTask hnew
    · exact ⟨_, setTask_self, nofun⟩
  | moves htask hmoves =>
    exact fun j => (h j).setTask htask hmoves.scope fun _ => hmoves.lives
  | cleans => exact h
  | @wakes caller id ending hphase hending =>
    refine h.put ?_
    have hwatches := h caller
    rcases hphase with hphase | ⟨hphase, rfl⟩
    · simp only [Caller.Watches, hphase] at hwatches
      obtain ⟨t, ht, hcovers, hlives⟩ := hwatches
      rcases ending_cases hending with rfl | rfl | ⟨rfl, task, htask, hdone⟩
      · exact ⟨t, ht, hcovers⟩
      · trivial
      · rw [ht] at htask
        cases htask
        exact absurd hdone (hlives.not_cancelled (hinv.sound _ _ ht))
    · simp only [Caller.Watches, hphase] at hwatches
      have hfits := hinv.callers id
      rw [Caller.Fits, hphase] at hfits
      obtain ⟨t, ht, hscope⟩ := hfits
      rcases ending_cases hending with rfl | rfl | ⟨rfl, task, htask, hdone⟩
      · refine ⟨t, ht, ?_⟩
        rw [hscope]
        exact scope_covers_self _
      · trivial
      · rw [ht] at htask
        cases htask
        cases hhit : (state.callers id).hit with
        | true => exact hhit
        | false =>
          obtain ⟨t', ht', hlives⟩ := hwatches hhit
          rw [ht] at ht'
          cases ht'
          exact absurd hdone (hlives.not_cancelled (hinv.sound _ _ ht))
  | drops => exact h.put rfl
  | @passes caller task hphase hkind htask hactive =>
    have hfollowers := hspares.2 caller task rfl hphase hkind htask hactive
    refine forall_put (P := fun j record => record.Watches j
      (state.setTask caller task.cancel).tasks) (fun j hj => ?_) ?_
    · refine (h j).setTask htask Task.cancel_scope ?_
      rintro (hjoined | ⟨-, -, hown⟩) -
      · exact absurd hjoined (hfollowers j)
      · exact absurd hown hj
    · unfold Caller.Watches
      simp only [hphase]
      exact nofun

theorem Inv.of_reachable (h : (machine live).Reachable state) : Inv live state := by
  refine h.invariant (I := Inv live) ?_ fun s action s' hs hstep => hs.step (effect hstep)
  rintro _ rfl
  have hnone : ∀ (id : C) (task : Task K), (start : State K C).tasks id ≠ some task :=
    fun _ _ htask => (some_ne_none _ htask.symm)
  exact ⟨fun id task htask => absurd htask (hnone id task),
    fun id task htask => absurd htask (hnone id task), nofun, fun _ => rfl⟩

/-- In every run one task is active at a time and every run row is closed once. -/
theorem single_and_closed (h : (machine live).Reachable state) :
    Single state ∧ RunsClosed live state := by
  have hinv := Inv.of_reachable h
  refine ⟨?_, fun id task htask => (hinv.sound id task htask).closed⟩
  intro i j task task' hi hj hactive hactive'
  have hfirst := hinv.active i task hi hactive
  rw [hinv.active j task' hj hactive'] at hfirst
  exact (some.inj hfirst).symm

omit [DecidableEq C] in
theorem Watched.served (h : Watched state) : Served state := by
  intro caller id hphase
  have hwatches := h caller
  simp only [Caller.Watches, hphase] at hwatches
  exact hwatches

omit [DecidableEq C] in
theorem Watched.isolated (h : Watched state) : Isolated state := by
  intro caller hphase
  have hwatches := h caller
  simp only [Caller.Watches, hphase] at hwatches
  exact hwatches

theorem reachable_of_spared (h : ((machine live).restrict Spares).Reachable state) :
    (machine live).Reachable state :=
  h.invariant (fun _ hinit => .init hinit) fun _ _ _ hs hstep => hs.step hstep.2

theorem Watched.of_spared (h : ((machine live).restrict Spares).Reachable state) :
    Watched state := by
  have hboth : Inv live state ∧ Watched state := by
    refine h.invariant (I := fun s => Inv live s ∧ Watched s) ?_ ?_
    · exact fun s hinit => ⟨Inv.of_reachable (.init hinit), fun _ => hinit ▸ trivial⟩
    · rintro s action s' ⟨hs, hwatched⟩ ⟨hspares, hstep⟩
      exact ⟨hs.step (effect hstep), hwatched.step hs hspares (effect hstep)⟩
  exact hboth.2

/-- **A run that spares its callers keeps what is asked of it.** -/
theorem promises_of_spared (h : ((machine live).restrict Spares).Reachable state) :
    Promises live state := by
  obtain ⟨hsingle, hclosed⟩ := single_and_closed (reachable_of_spared h)
  have hwatched := Watched.of_spared h
  exact ⟨hsingle, hwatched.served, hwatched.isolated, hclosed⟩

end

/-! ### Two callers -/

/-- The state after a list of steps, with live research. -/
def after (actions : List (Action String Nat))
    (h : (actions.foldlM (fun state => State.exec state true) start).isSome) : State String Nat :=
  (actions.foldlM (fun state => State.exec state true) start).get h

theorem after_reachable (actions : List (Action String Nat))
    (h : (actions.foldlM (fun state => State.exec state true) start).isSome) :
    (machine true).Reachable (after actions h) :=
  Machine.foldlM_reachable (some_get h).symm

theorem spared_get {state : State String Nat}
    (h : ((machine true).restrict Spares).Reachable state) (action : Action String Nat)
    (hspares : Spares state action) (hsome : (state.exec true action).isSome) :
    ((machine true).restrict Spares).Reachable ((state.exec true action).get hsome) :=
  h.step (l := action) ⟨hspares, (some_get hsome).symm⟩

/-- A step that is no call and no cancellation spares everyone. -/
theorem spares_quiet {state : State String Nat} {action : Action String Nat}
    (hcall : ∀ caller kind scope, action ≠ .call caller kind scope)
    (hcancel : ∀ caller, action ≠ .cancel caller) : Spares state action :=
  ⟨fun caller kind scope _ _ heq => absurd heq (hcall caller kind scope),
    fun caller _ heq => absurd heq (hcancel caller)⟩

/-- The law at work: the owner of a full refresh is cancelled and a follower gets its news. -/
theorem promises_of_spared_sample :
    ∃ state : State String Nat, (state.callers 0).phase = .ended .cancelled ∧
      (state.callers 1).phase = .ended (.returned 0) ∧ Promises true state := by
  have hstart : ((machine true).restrict Spares).Reachable (start : State String Nat) := .init rfl
  have howned := spared_get hstart (.call 0 .refresh (.allBut []))
    ⟨fun _ _ _ _ _ _ hflight => (nomatch hflight), fun _ _ heq => nomatch heq⟩ rfl
  have hjoined := spared_get howned (.call 1 .targeted (.only ["CURRENT_NEWS"])) (by
    refine ⟨?_, fun _ _ heq => nomatch heq⟩
    rintro _ _ _ id task ⟨⟩ hflight htask
    cases hflight
    cases htask
    exact ⟨fun _ _ => List.not_mem_nil, nofun⟩) rfl
  have hbegun := spared_get hjoined (.begin 0 false) (spares_quiet nofun nofun) rfl
  have hcancelled := spared_get hbegun (.cancel 0) (by
    refine ⟨fun _ _ _ _ _ heq => (nomatch heq), ?_⟩
    rintro _ task ⟨⟩ - hkind
    exact absurd hkind (by decide)) rfl
  have hprovided := spared_get hcancelled (.provided 0 .returned) (spares_quiet nofun nofun) rfl
  have hwoken := spared_get hprovided (.wake 1) (spares_quiet nofun nofun) rfl
  refine ⟨_, ?_, ?_, promises_of_spared hwoken⟩
  · rfl
  · rfl

/-- A call for the news joins a refresh of the shareholding. -/
def unserved : State String Nat :=
  after [.call 0 .targeted (.only ["SHAREHOLDING_PATTERN"]),
    .call 1 .targeted (.only ["CURRENT_NEWS"]), .begin 0 false, .commit 0, .resume 0,
    .provided 0 .returned, .commit 0, .resume 0, .wake 1] rfl

/-- The owner of a targeted refresh is cancelled, and with it ends who joined it. -/
def propagated : State String Nat :=
  after [.call 0 .targeted (.only ["CURRENT_NEWS"]), .call 1 .targeted (.only ["CURRENT_NEWS"]),
    .begin 0 false, .cancel 0, .commit 0, .resume 0, .commit 0, .resume 0, .wake 1] rfl

/-- **Refresh flights do not keep their promises**: a call returns although nothing of what it
asked for was processed, and another ends with a cancellation that did not hit it. -/
theorem unserved_and_cancelled :
    ((machine true).Reachable unserved ∧
      (unserved.callers 1).phase = .ended (.returned 0) ∧ ¬ Served unserved) ∧
    ((machine true).Reachable propagated ∧ (propagated.callers 1).hit = false ∧
      (propagated.callers 1).phase = .ended .cancelled ∧ ¬ Isolated propagated) := by
  refine ⟨⟨after_reachable _ _, rfl, fun hserved => ?_⟩,
    after_reachable _ _, rfl, rfl, fun hisolated => ?_⟩
  · obtain ⟨task, htask, hcovers⟩ := hserved 1 0 rfl
    cases htask
    have hmem : "CURRENT_NEWS" ∈ ["SHAREHOLDING_PATTERN"] :=
      hcovers "CURRENT_NEWS" (List.mem_singleton_self _)
    exact absurd (List.mem_singleton.mp hmem) (by decide)
  · exact absurd (hisolated 1 rfl) (by decide)

end InvestmentPlatform.Evidence.RefreshFlights
