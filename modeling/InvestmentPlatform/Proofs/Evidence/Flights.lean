/-
What `ensure` keeps for its flights and for those who join them.

The registry is sound after every step.  Two things are not: a caller that comes back from the
flights it joined registers its own without looking again, and it ends as they ended where one of
them did not finish.  A run that takes neither kind of step keeps everything that is asked for.
-/
import InvestmentPlatform.Evidence.Flights

namespace InvestmentPlatform.Evidence.Flights

open List Option Function

open Overlays (Reason)

variable {K C : Type}

/-! ### The registry -/

/-- The entry of the instrument lists flights that are not done or not cleaned up yet, among them
every active one, and it is not there without any. -/
structure Registry (registered : Option (List C)) (flights : C → Option (Flight K)) : Prop where
  nonempty : registered ≠ some []
  nodup : (registered.getD []).Nodup
  listed : ∀ flight ∈ registered.getD [], ∃ f, flights flight = some f ∧ f.cleaned = false
  active : ∀ flight f, flights flight = some f → f.settled = none → flight ∈ registered.getD []

namespace Registry

variable {registered : Option (List C)} {flights : C → Option (Flight K)}

theorem start : Registry (none : Option (List C)) (fun _ => (none : Option (Flight K))) :=
  ⟨nofun, nodup_nil, fun _ hmem => (nomatch hmem), fun _ _ hsome => nomatch hsome⟩

variable [DecidableEq C]

/-- A flight changes without being cleaned up or started again. -/
theorem setFlight (h : Registry registered flights) {flight : C} {f f' : Flight K}
    (hf : flights flight = some f) (hcleaned : f'.cleaned = f.cleaned)
    (hsettled : f'.settled = none → f.settled = none) :
    Registry registered (update flights flight (some f')) := by
  refine ⟨h.nonempty, h.nodup, fun j hj => ?_, fun j g hg hnone => ?_⟩
  · by_cases hjf : j = flight
    · subst hjf
      obtain ⟨g, hg, hnot⟩ := h.listed j hj
      rw [hf] at hg
      cases hg
      rw [update_self]
      exact ⟨f', rfl, hcleaned.trans hnot⟩
    · rw [update_of_ne hjf]
      exact h.listed j hj
  · by_cases hjf : j = flight
    · subst hjf
      rw [update_self] at hg
      cases hg
      exact h.active j f hf (hsettled hnone)
    · rw [update_of_ne hjf] at hg
      exact h.active j g hg hnone

/-- A new flight is registered, and those that are done are left out. -/
theorem register (h : Registry registered flights) {caller : C} (hnew : flights caller = none)
    (targets : List K) {isActive : C → Bool}
    (hactive : ∀ flight f, flights flight = some f → f.settled = none → isActive flight = true) :
    Registry (some ((registered.getD []).filter isActive ++ [caller]))
      (update flights caller (some ⟨targets, none, false, false⟩)) := by
  have hnot : caller ∉ registered.getD [] := by
    intro hmem
    obtain ⟨f, hf, -⟩ := h.listed caller hmem
    rw [hnew] at hf
    cases hf
  refine ⟨fun hempty => ?_, ?_, fun j hj => ?_, fun j g hg hnone => ?_⟩
  · exact append_ne_nil_of_right_ne_nil _ (cons_ne_nil _ _) (some.inj hempty)
  · rw [getD_some, nodup_append]
    refine ⟨h.nodup.filter _, nodup_singleton _, ?_⟩
    rintro a ha b hb rfl
    rw [mem_singleton.mp hb] at ha
    exact hnot (mem_filter.mp ha).1
  · by_cases hjc : j = caller
    · subst hjc
      rw [update_self]
      exact ⟨_, rfl, rfl⟩
    · rw [update_of_ne hjc]
      rcases mem_append.mp hj with hold | hnew'
      · exact h.listed j (mem_filter.mp hold).1
      · exact absurd (mem_singleton.mp hnew') hjc
  · by_cases hjc : j = caller
    · subst hjc
      exact mem_append_right _ (mem_singleton_self j)
    · rw [update_of_ne hjc] at hg
      refine mem_append_left _ (mem_filter.mpr ⟨h.active j g hg hnone, ?_⟩)
      exact hactive j g hg hnone

end Registry

section

variable [DecidableEq C] {state state' : State K C}

/-- The done callback takes its flight out of the entry, and an empty entry out of `_flights`. -/
theorem Registry.cleanup (h : Registry state.registered state.flights) {flight : C} {f : Flight K}
    (hf : state.flights flight = some f) (hdone : f.settled ≠ none) :
    Registry (state.cleanup flight)
      (update state.flights flight (some { f with cleaned := true })) := by
  have hactive : ∀ j g, update state.flights flight
      (some { f with cleaned := true }) j = some g → g.settled = none →
      j ≠ flight ∧ state.flights j = some g := by
    intro j g hg hnone
    by_cases hj : j = flight
    · subst hj
      rw [update_self] at hg
      cases hg
      exact absurd hnone hdone
    · rw [update_of_ne hj] at hg
      exact ⟨hj, hg⟩
  have hlist : (state.cleanup flight).getD [] = (state.registered.getD []).erase flight := by
    unfold State.cleanup
    split
    · rename_i hnone
      rw [hnone]
      rfl
    · rename_i flights hsome
      rw [hsome, getD_some]
      split
      · split
        · rename_i hempty
          rw [hempty]
          rfl
        · rfl
      · rename_i hnot
        rw [getD_some, erase_of_not_mem hnot]
  refine ⟨?_, ?_, fun j hj => ?_, fun j g hg hnone => ?_⟩
  · unfold State.cleanup
    split
    · exact nofun
    · rename_i flights hsome
      split
      · split
        · exact nofun
        · rename_i hrest
          exact fun hempty => hrest (some.inj hempty)
      · exact fun hempty => h.nonempty (hsome.trans hempty)
  · rw [hlist]
    exact h.nodup.erase flight
  · rw [hlist, h.nodup.mem_erase_iff] at hj
    rw [update_of_ne hj.1]
    exact h.listed j hj.2
  · obtain ⟨hne, hg'⟩ := hactive j g hg hnone
    rw [hlist, h.nodup.mem_erase_iff]
    exact ⟨hne, h.active j g hg' hnone⟩

/-! ### What is asked for -/

/-- No requirement is a target of two active flights. -/
def SingleFlight (state : State K C) : Prop :=
  ∀ i j, i ≠ j → state.Active i → state.Active j →
    List.Disjoint (state.requirementIds i) (state.requirementIds j)

/-- A caller that no cancellation has hit ends with a result or with what became of its own
plan. -/
def Isolated (state : State K C) : Prop :=
  ∀ caller outcome, (state.callers caller).hit = false →
    (state.callers caller).phase = .ended outcome → outcome = .returned ∨ outcome = .own

structure Promises (state : State K C) : Prop where
  single : SingleFlight state
  isolated : Isolated state
  registry : Registry state.registered state.flights

/-- Who comes back from the flights it joined registers nothing that is in the air; and nobody
is told that a flight it joined did not finish. -/
def Spares [DecidableEq K] (state : State K C) (action : Action K C) : Prop :=
  (∀ caller targets attempted failures flight, action = .replan caller targets →
    (state.callers caller).phase = .replanning attempted failures →
    state.selects caller targets = true → state.Active flight →
    List.Disjoint (state.remaining caller attempted failures targets)
      (state.requirementIds flight)) ∧
  ∀ caller flight flights, action = .joinFailed caller flight →
    (state.callers caller).phase = .joining flights →
    ¬ (flight ∈ flights ∧ state.hasFailed flight = true)

/-- A caller and the flight it may have registered. -/
def Caller.Fits (caller : Caller K C) (flight : Option (Flight K)) : Prop :=
  match caller.phase with
  | .fresh | .planning | .joining _ | .replanning _ _ => flight = none ∧ caller.hit = false
  | .owning | .recording => caller.hit = false
  | .draining => caller.hit = true
  | .ended _ => True

/-- What every run keeps. -/
structure Inv (state : State K C) : Prop where
  registry : Registry state.registered state.flights
  callers : ∀ caller, (state.callers caller).Fits (state.flights caller)

omit [DecidableEq C] in
theorem Caller.Fits.change {caller : Caller K C} {f f' : Flight K} (h : caller.Fits (some f)) :
    caller.Fits (some f') := by
  unfold Caller.Fits at h ⊢
  split at h
  · exact nomatch h.1
  · exact nomatch h.1
  · exact nomatch h.1
  · exact nomatch h.1
  · exact h
  · exact h
  · exact h
  · trivial

omit [DecidableEq C] in
theorem inv_start : Inv (start : State K C) := ⟨Registry.start, fun _ => ⟨rfl, rfl⟩⟩

variable {caller flight : C} {record : Caller K C} {f f' : Flight K}

theorem put_self : (state.put caller record).callers caller = record := update_self _ _ _

theorem put_ne {j : C} (h : j ≠ caller) :
    (state.put caller record).callers j = state.callers j := update_of_ne h _ _

theorem Inv.put (h : Inv state) (hfits : record.Fits (state.flights caller)) :
    Inv (state.put caller record) := by
  refine ⟨h.registry, fun j => ?_⟩
  by_cases hj : j = caller
  · subst hj
    rw [put_self]
    exact hfits
  · rw [put_ne hj]
    exact h.callers j

theorem Inv.setFlight_fits (h : Inv state) (hf : state.flights flight = some f) (j : C) :
    (state.callers j).Fits ((state.setFlight flight f').flights j) := by
  change (state.callers j).Fits (update state.flights flight (some f') j)
  by_cases hj : j = flight
  · subst hj
    have hfits := h.callers j
    rw [hf] at hfits
    rw [update_self]
    exact hfits.change
  · rw [update_of_ne hj]
    exact h.callers j

theorem Inv.setFlight (h : Inv state) (hf : state.flights flight = some f)
    (hcleaned : f'.cleaned = f.cleaned) (hsettled : f'.settled = none → f.settled = none) :
    Inv (state.setFlight flight f') := by
  exact ⟨h.registry.setFlight hf hcleaned hsettled, h.setFlight_fits hf⟩

omit [DecidableEq C] in
theorem isActive_iff : state.isActive flight = true ↔ state.Active flight := by
  unfold State.isActive State.Active
  cases state.flights flight with
  | none => simp
  | some f => simp

theorem Inv.register (h : Inv state) (hnew : state.flights caller = none)
    (hnot : (state.callers caller).hit = false) (targets : List K) :
    Inv (state.register caller targets) := by
  refine ⟨h.registry.register hnew targets fun j g hg hnone => ?_, fun j => ?_⟩
  · exact isActive_iff.mpr ⟨g, hg, hnone⟩
  · change (update state.callers caller { state.callers caller with phase := .owning } j).Fits
      (update state.flights caller (some ⟨targets, none, false, false⟩) j)
    by_cases hj : j = caller
    · subst hj
      rw [update_self, update_self]
      exact hnot
    · rw [update_of_ne hj, update_of_ne hj]
      exact h.callers j

/-! ### What a step keeps of the promises -/

theorem SingleFlight.setFlight (h : SingleFlight state) (hf : state.flights flight = some f)
    (hsettled : f'.settled = none → f.settled = none)
    (hids : f'.requirementIds = f.requirementIds) : SingleFlight (state.setFlight flight f') := by
  have hactive : ∀ j, (state.setFlight flight f').Active j → state.Active j := by
    rintro j ⟨g, hg, hnone⟩
    change update state.flights flight (some f') j = some g at hg
    by_cases hj : j = flight
    · subst hj
      rw [update_self] at hg
      cases hg
      exact ⟨f, hf, hsettled hnone⟩
    · rw [update_of_ne hj] at hg
      exact ⟨g, hg, hnone⟩
  have hkeeps : ∀ j, (state.setFlight flight f').requirementIds j = state.requirementIds j := by
    intro j
    unfold State.requirementIds
    change ((update state.flights flight (some f') j).map _).getD [] = _
    by_cases hj : j = flight
    · subst hj
      rw [update_self, hf]
      exact hids
    · rw [update_of_ne hj]
  intro i j hij hi hj
  rw [hkeeps, hkeeps]
  exact h i j hij (hactive i hi) (hactive j hj)

variable {targets : List K}

/-- A new flight keeps away from the active ones. -/
theorem SingleFlight.register (h : SingleFlight state) (hapart : ∀ flight, state.Active flight →
      List.Disjoint targets (state.requirementIds flight)) :
    SingleFlight (state.register caller targets) := by
  have hself : (state.register caller targets).flights caller =
      some ⟨targets, none, false, false⟩ := update_self _ _ _
  have hother : ∀ j, j ≠ caller → (state.register caller targets).flights j = state.flights j :=
    fun j hj => update_of_ne hj _ _
  have hids : ∀ j, j ≠ caller →
      (state.register caller targets).requirementIds j = state.requirementIds j := by
    intro j hj
    rw [State.requirementIds, hother j hj, State.requirementIds]
  have hactive : ∀ j, j ≠ caller → (state.register caller targets).Active j → state.Active j := by
    rintro j hj ⟨g, hg, hnone⟩
    rw [hother j hj] at hg
    exact ⟨g, hg, hnone⟩
  have hown : (state.register caller targets).requirementIds caller = targets := by
    rw [State.requirementIds, hself]
    rfl
  intro i j hij hi hj
  by_cases hic : i = caller
  · subst hic
    rw [hown, hids j hij.symm]
    exact hapart j (hactive j hij.symm hj)
  · by_cases hjc : j = caller
    · subst hjc
      rw [hown, hids i hic]
      exact disjoint_symm (hapart i (hactive i hic hi))
    · rw [hids i hic, hids j hjc]
      exact h i j hij (hactive i hic hi) (hactive j hjc hj)

theorem Isolated.put (h : Isolated state)
    (hcaller : ∀ outcome, record.hit = false → record.phase = .ended outcome →
      outcome = .returned ∨ outcome = .own) : Isolated (state.put caller record) := by
  intro j outcome
  by_cases hj : j = caller
  · subst hj
    rw [put_self]
    exact hcaller outcome
  · rw [put_ne hj]
    exact h j outcome

variable [DecidableEq K]

/-- What a step may come to: the callers and the flights that it changes, and how. -/
inductive Effect (state : State K C) : Action K C → State K C → Prop
  /-- One caller goes on; if it ends without a cancellation, then as it may. -/
  | goesOn {action : Action K C} {caller : C} {record : Caller K C}
    (hfits : record.Fits (state.flights caller))
    (hended : ∀ outcome, record.hit = false → record.phase = .ended outcome →
      outcome = .returned ∨ outcome = .own) : Effect state action (state.put caller record)
  /-- One caller ends as a flight it joined. -/
  | fails {caller flight : C} {flights : List C}
    (hphase : (state.callers caller).phase = .joining flights)
    (hfailed : flight ∈ flights ∧ state.hasFailed flight = true)
    (hnot : (state.callers caller).hit = false) :
    Effect state (.joinFailed caller flight)
      (state.setPhase caller (.ended (.foreign flight)))
  /-- One caller registers a flight that keeps away from the active ones. -/
  | registers {caller : C} {targets : List K} (hnew : state.flights caller = none)
    (hnot : (state.callers caller).hit = false)
    (hapart : ∀ flight, state.Active flight →
      List.Disjoint targets (state.requirementIds flight)) :
    Effect state (.plan caller targets) (state.register caller targets)
  /-- One caller registers what remains after the flights it joined. -/
  | again {caller : C} {targets attempted : List K} {failures : Dict K Reason}
    (hnew : state.flights caller = none) (hnot : (state.callers caller).hit = false)
    (hphase : (state.callers caller).phase = .replanning attempted failures)
    (hselects : state.selects caller targets = true) :
    Effect state (.replan caller targets)
      (state.register caller (state.remaining caller attempted failures targets))
  /-- The task of a flight ends. -/
  | settles {flight : C} {settlement : Settlement K} {f : Flight K}
    (hf : state.flights flight = some f) :
    Effect state (.settle flight settlement)
      (state.setFlight flight { f with settled := some settlement })
  | cleansUp {flight : C} {f : Flight K} (hf : state.flights flight = some f)
    (hdone : f.settled ≠ none) :
    Effect state (.cleanup flight) { state.setFlight flight { f with cleaned := true } with
      registered := state.cleanup flight }
  /-- An owner is cancelled and cancels its task. -/
  | cancels {caller : C} {f : Flight K} (hf : state.flights caller = some f)
    (hphase : (state.callers caller).phase = .owning) :
    Effect state (.cancel caller)
      ((state.setFlight caller { f with cancelRequested := true }).put caller
        { state.callers caller with hit := true, phase := .draining })

omit [DecidableEq C] in
theorem overlapping_apart (h : Registry state.registered state.flights)
    (hnone : state.overlapping targets = []) {flight : C} (hactive : state.Active flight) :
    List.Disjoint targets (state.requirementIds flight) := by
  obtain ⟨f, hf, hsettled⟩ := hactive
  have hmem := h.active flight f hf hsettled
  have hnot := filter_eq_nil_iff.mp hnone flight hmem
  rw [List.any_eq_true] at hnot
  intro key hkey hother
  exact hnot ⟨key, hother, decide_eq_true hkey⟩

variable {action : Action K C}

/-- **Every step is one of these.** -/
theorem effect (h : Inv state) (hexec : state.exec action = some state') :
    Effect state action state' := by
  cases action with
  | call caller requested wait =>
    simp only [State.exec] at hexec
    split at hexec
    · rename_i hphase
      have hfits := h.callers caller
      rw [Caller.Fits, hphase] at hfits
      rw [← some.inj hexec]
      exact .goesOn ⟨hfits.1, rfl⟩ nofun
    · cases hexec
  | plan caller targets =>
    simp only [State.exec] at hexec
    split at hexec
    · rename_i hphase
      have hfits := h.callers caller
      rw [Caller.Fits, hphase] at hfits
      split at hexec
      · cases hexec
      · split at hexec
        · rw [← some.inj hexec]
          exact .goesOn trivial fun outcome _ heq => Or.inl (Phase.ended.inj heq).symm
        · split at hexec
          · rename_i hnone
            rw [← some.inj hexec]
            exact .registers hfits.1 hfits.2 fun flight hactive =>
              overlapping_apart h.registry hnone hactive
          · rw [← some.inj hexec]
            exact .goesOn hfits nofun
    · cases hexec
  | joined caller =>
    simp only [State.exec] at hexec
    split at hexec
    · rename_i flights hphase
      have hfits := h.callers caller
      rw [Caller.Fits, hphase] at hfits
      split at hexec
      · rw [← some.inj hexec]
        exact .goesOn hfits nofun
      · cases hexec
    · cases hexec
  | joinFailed caller flight =>
    simp only [State.exec] at hexec
    split at hexec
    · rename_i flights hphase
      have hfits := h.callers caller
      rw [Caller.Fits, hphase] at hfits
      split at hexec
      · rename_i hfailed
        rw [← some.inj hexec]
        exact .fails hphase hfailed hfits.2
      · cases hexec
    · cases hexec
  | replan caller targets =>
    simp only [State.exec] at hexec
    split at hexec
    · rename_i attempted failures hphase
      have hfits := h.callers caller
      rw [Caller.Fits, hphase] at hfits
      split at hexec
      · cases hexec
      · rename_i hselects
        split at hexec
        · rw [← some.inj hexec]
          exact .goesOn trivial fun outcome _ heq => Or.inl (Phase.ended.inj heq).symm
        · rw [← some.inj hexec]
          exact .again hfits.1 hfits.2 hphase (Bool.of_not_eq_false hselects)
    · cases hexec
  | settle flight settlement =>
    simp only [State.exec] at hexec
    split at hexec
    · rename_i f hf
      split at hexec
      · rw [← some.inj hexec]
        exact .settles hf
      · cases hexec
    · cases hexec
  | cleanup flight =>
    simp only [State.exec] at hexec
    split at hexec
    · rename_i f hf
      split at hexec
      · rename_i hdone
        rw [← some.inj hexec]
        refine .cleansUp hf fun hnone => ?_
        rw [hnone] at hdone
        exact nomatch hdone.1
      · cases hexec
    · cases hexec
  | wake caller =>
    simp only [State.exec] at hexec
    have hfits := h.callers caller
    split at hexec
    · rename_i hphase _
      rw [Caller.Fits, hphase] at hfits
      rw [← some.inj hexec]
      exact .goesOn hfits nofun
    · rw [← some.inj hexec]
      exact .goesOn trivial fun outcome _ heq => Or.inr (Phase.ended.inj heq).symm
    · rename_i hphase _
      rw [Caller.Fits, hphase] at hfits
      rw [← some.inj hexec]
      refine .goesOn trivial fun outcome hnot _ => ?_
      rw [hfits] at hnot
      cases hnot
    · cases hexec
  | finish caller =>
    simp only [State.exec] at hexec
    split at hexec
    · rw [← some.inj hexec]
      exact .goesOn trivial fun outcome _ heq => Or.inl (Phase.ended.inj heq).symm
    · cases hexec
  | cancel caller =>
    simp only [State.exec] at hexec
    split at hexec
    · cases hexec
    · cases hexec
    · rename_i hphase
      split at hexec
      · split at hexec
        · rename_i f hf
          rw [← some.inj hexec]
          exact .cancels hf hphase
        · cases hexec
      · rw [← some.inj hexec]
        exact .goesOn trivial fun outcome hnot _ => nomatch hnot
    · rw [← some.inj hexec]
      exact .goesOn trivial fun outcome hnot _ => nomatch hnot

/-! ### Runs -/

theorem Inv.step (h : Inv state) (heffect : Effect state action state') : Inv state' := by
  cases heffect with
  | goesOn hfits _ => exact h.put hfits
  | fails => exact h.put trivial
  | registers hnew hnot _ => exact h.register hnew hnot _
  | again hnew hnot _ _ => exact h.register hnew hnot _
  | settles hf => exact h.setFlight hf rfl nofun
  | cleansUp hf hdone =>
    refine ⟨h.registry.cleanup hf hdone, fun j => ?_⟩
    exact (h.setFlight_fits hf j)
  | @cancels caller f hf _ =>
    have hset : Inv (state.setFlight caller { f with cancelRequested := true }) :=
      h.setFlight hf rfl id
    exact hset.put (show Caller.Fits _ _ from rfl)

theorem Promises.step (h : Promises state) (hinv : Inv state)
    (hspares : Spares state action) (heffect : Effect state action state') : Promises state' := by
  refine ⟨?_, ?_, (hinv.step heffect).registry⟩
  · cases heffect with
    | goesOn => exact h.single
    | fails => exact h.single
    | registers _ _ hapart => exact h.single.register hapart
    | again _ _ hphase hselects =>
      exact h.single.register fun flight hactive =>
        hspares.1 _ _ _ _ flight rfl hphase hselects hactive
    | settles hf => exact h.single.setFlight hf nofun rfl
    | cleansUp hf _ => exact h.single.setFlight hf id rfl
    | cancels hf _ => exact h.single.setFlight hf id rfl
  · cases heffect with
    | goesOn _ hended => exact h.isolated.put hended
    | fails hphase hfailed _ => exact absurd hfailed (hspares.2 _ _ _ rfl hphase)
    | registers => exact h.isolated.put nofun
    | again => exact h.isolated.put nofun
    | settles => exact h.isolated
    | cleansUp => exact h.isolated
    | cancels => exact h.isolated.put nofun

omit [DecidableEq K] in
/-- A new flight for a requirement that is in the air. -/
theorem not_single_of_register (hnew : state.flights caller = none) (hactive : state.Active flight)
    {key : K} (hkey : key ∈ targets) (hother : key ∈ state.requirementIds flight) :
    ¬ SingleFlight (state.register caller targets) := by
  intro hsingle
  obtain ⟨f, hf, hsettled⟩ := hactive
  have hne : caller ≠ flight := by
    rintro rfl
    rw [hnew] at hf
    cases hf
  have hself : (state.register caller targets).flights caller =
      some ⟨targets, none, false, false⟩ := update_self _ _ _
  have hsame : (state.register caller targets).flights flight = some f :=
    (update_of_ne hne.symm _ _).trans hf
  refine hsingle caller flight hne ⟨_, hself, rfl⟩ ⟨f, hsame, hsettled⟩ (a := key) ?_ ?_
  · rw [State.requirementIds, hself]
    exact hkey
  · rw [State.requirementIds, hsame]
    rw [State.requirementIds, hf] at hother
    exact hother

/-- A follower that is cancelled leaves every flight as it is. -/
theorem cancel_follower {flights : List C} (hphase : (state.callers caller).phase = .joining flights)
    (hexec : state.exec (.cancel caller) = some state') :
    state'.flights = state.flights ∧ state'.registered = state.registered := by
  simp only [State.exec, hphase, some.injEq] at hexec
  rw [← hexec]
  exact ⟨rfl, rfl⟩

/-- **What is asked of `ensure` holds after a step exactly when the step spares it.**  So it
holds in every run whose steps all do; and in every run a follower that is cancelled touches no
flight. -/
theorem promises_iff (h : (machine.restrict Spares).Reachable state) :
    Promises state ∧
      (∀ caller flights state', (state.callers caller).phase = .joining flights →
        machine.step state (.cancel caller) state' →
        state'.flights = state.flights ∧ state'.registered = state.registered) ∧
      ∀ action state', machine.step state action state' →
        (Promises state' ↔ Spares state action) := by
  have hboth : Inv state ∧ Promises state := by
    refine h.invariant (I := fun s => Inv s ∧ Promises s) ?_ ?_
    · rintro _ rfl
      refine ⟨inv_start, ?_, ?_, Registry.start⟩
      · rintro i j - ⟨f, hf, -⟩
        cases hf
      · exact nofun
    · rintro s action s' ⟨hinv, hs⟩ ⟨hspares, hstep⟩
      exact ⟨hinv.step (effect hinv hstep), hs.step hinv hspares (effect hinv hstep)⟩
  obtain ⟨hinv, hpromises⟩ := hboth
  refine ⟨hpromises, fun caller flights state' hphase hstep => cancel_follower hphase hstep,
    fun action state' hstep => ⟨fun hafter => ⟨?_, ?_⟩, fun hspares => ?_⟩⟩
  · rintro caller targets attempted failures flight rfl hphase hselects hactive key hkey hother
    have hfits := hinv.callers caller
    rw [Caller.Fits, hphase] at hfits
    have hexec : state.exec (.replan caller targets) = some state' := hstep
    simp only [State.exec, hphase, hselects, Bool.true_eq_false, if_false] at hexec
    split at hexec
    · rename_i hnone
      rw [hnone] at hkey
      cases hkey
    · rw [← Option.some.inj hexec] at hafter
      exact not_single_of_register hfits.1 hactive hkey hother hafter.single
  · rintro caller flight flights rfl hphase hfailed
    have hfits := hinv.callers caller
    rw [Caller.Fits, hphase] at hfits
    have hexec : state.exec (.joinFailed caller flight) = some state' := hstep
    simp only [State.exec, hphase, if_pos hfailed, Option.some.injEq] at hexec
    have hended := hafter.isolated caller (.foreign flight)
    rw [← hexec, State.setPhase, put_self] at hended
    rcases hended hfits.2 rfl with hreturned | hown
    · cases hreturned
    · cases hown
  · exact hpromises.step hinv hspares (effect hinv hstep)

end

/-! ### Three callers -/

/-- The state after a list of steps. -/
def after (actions : List (Action String Nat))
    (h : (actions.foldlM (fun state => State.exec state) start).isSome) : State String Nat :=
  (actions.foldlM (fun state => State.exec state) start).get h

theorem after_reachable (actions : List (Action String Nat))
    (h : (actions.foldlM (fun state => State.exec state) start).isSome) :
    machine.Reachable (after actions h) :=
  Machine.foldlM_reachable (some_get h).symm

/-- An owner that waits for completion registers a flight for the shareholding. -/
def owned : List (Action String Nat) := [.call 0 none true, .plan 0 ["SHAREHOLDING"]]

theorem step_get {state : State String Nat} (h : (machine.restrict Spares).Reachable state)
    (action : Action String Nat) (hreplan : ∀ caller targets, action ≠ .replan caller targets)
    (hjoin : ∀ caller flight, action ≠ .joinFailed caller flight)
    (hsome : (state.exec action).isSome) :
    (machine.restrict Spares).Reachable ((state.exec action).get hsome) := by
  refine h.step (l := action) ⟨⟨?_, ?_⟩, (some_get hsome).symm⟩
  · exact fun caller targets _ _ _ heq => absurd heq (hreplan caller targets)
  · exact fun caller flight _ heq => absurd heq (hjoin caller flight)

/-- The law at work: the plan of a flight raises while a follower waits for it. -/
theorem promises_iff_sample :
    ∃ state : State String Nat, (state.callers 1).phase = .joining [0] ∧ Promises state ∧
      ∀ state', machine.step state (.settle 0 .raised) state' → Promises state' := by
  have hstart : (machine.restrict Spares).Reachable (start : State String Nat) := .init rfl
  have hcalled := step_get hstart (.call 0 none true) nofun nofun rfl
  have howned := step_get hcalled (.plan 0 ["SHAREHOLDING"]) nofun nofun rfl
  have hsecond := step_get howned (.call 1 none false) nofun nofun rfl
  have hjoined := step_get hsecond (.plan 1 ["SHAREHOLDING"]) nofun nofun rfl
  have hlaw := promises_iff hjoined
  refine ⟨_, rfl, hlaw.1, fun state' hstep => (hlaw.2.2 _ state' hstep).mpr ⟨?_, ?_⟩⟩
  · exact fun _ _ _ _ _ heq => nomatch heq
  · exact fun _ _ _ heq => nomatch heq

/-- Two followers of one flight come back from it with the same requirement left. -/
def doubled : State String Nat :=
  after (owned ++ [.call 1 none false, .plan 1 ["SHAREHOLDING", "CURRENT_NEWS"],
    .call 2 none false, .plan 2 ["SHAREHOLDING", "CURRENT_NEWS"], .settle 0 (.finished .empty),
    .joined 1, .joined 2, .replan 1 ["CURRENT_NEWS"], .replan 2 ["CURRENT_NEWS"]]) rfl

/-- The owner of a flight is cancelled, and with it the follower ends. -/
def propagated : State String Nat :=
  after (owned ++ [.call 1 none false, .plan 1 ["SHAREHOLDING"], .cancel 0, .settle 0 .cancelled,
    .joinFailed 1 0]) rfl

/-- **Flights are neither single nor isolated**: two active flights acquire the news, and a
caller that nobody cancelled ends with the cancellation of another one's flight. -/
theorem neither_single_nor_isolated :
    (machine.Reachable doubled ∧ doubled.Active 1 ∧ doubled.Active 2 ∧
      doubled.requirementIds 1 = ["CURRENT_NEWS"] ∧
      doubled.requirementIds 2 = ["CURRENT_NEWS"]) ∧
    (machine.Reachable propagated ∧ (propagated.callers 1).hit = false ∧
      (propagated.callers 1).phase = .ended (.foreign 0) ∧
      ((propagated.flights 0).bind Flight.settled) = some .cancelled) :=
  ⟨⟨after_reachable _ _, ⟨_, rfl, rfl⟩, ⟨_, rfl, rfl⟩, rfl, rfl⟩, after_reachable _ _, rfl, rfl,
    rfl⟩

end InvestmentPlatform.Evidence.Flights
