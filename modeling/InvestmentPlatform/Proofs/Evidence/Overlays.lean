/-
When the overlays of an instrument say what its plans are doing.

A plan writes the overlays as a whole, so its write is right exactly when there is nothing of
another plan in them: no other plan is refreshing, and where it finishes, no failure of another
requirement is recorded.
-/
import InvestmentPlatform.Evidence.Overlays

namespace InvestmentPlatform.Evidence.Overlays

open List Option

variable {K P : Type}

/-! ### One stretch of a plan -/

namespace Plan

variable {plan plan' : Plan K} {write : Write K} {event : Event K}

/-- What holds of a plan by itself. -/
structure Sound (plan : Plan K) : Prop where
  targets : plan.Active → plan.requirements ≠ []
  reports : plan.Reports plan.failures

theorem sound_absent : (absent : Plan K).Sound :=
  ⟨fun hactive => hactive.elim, fun _ hkey => nomatch hkey⟩

/-- What a stretch of a plan can be: its registration, or a step of a plan that keeps its
requirements. -/
inductive Turns (plan plan' : Plan K) (event : Event K) : Write K → Prop
  | register {requirements : List K} (hevent : event = .register requirements)
    (hsome : requirements ≠ []) (hbefore : plan.phase = .absent)
    (hafter : plan' = ⟨requirements, .registered, .empty⟩) :
    Turns plan plan' event .nothing
  | nothing (hbefore : plan.phase ≠ .primary) (hafter : plan'.phase ≠ .primary)
    (hactive : plan.Active) (hkept : plan'.requirements = plan.requirements)
    (hreports : plan.Reports plan'.failures) : Turns plan plan' event .nothing
  | mark (hbefore : plan.phase = .registered)
    (hafter : plan' = { plan with phase := .primary }) : Turns plan plan' event .mark
  | finish {failures : Dict K Reason} (hafter : plan'.phase ≠ .primary) (hactive : plan.Active)
    (hkept : plan'.requirements = plan.requirements)
    (hreports : plan.Reports plan'.failures) (hfailures : plan.Reports failures) :
    Turns plan plan' event (.finish failures)

theorem active_of_phase {phase : Phase} (h : plan.phase = phase) (hne : phase ≠ .absent)
    (hne' : phase ≠ .ended) : plan.Active := by
  unfold Active
  rw [h]
  cases phase with
  | absent => exact hne rfl
  | ended => exact hne' rfl
  | _ => trivial

/-- A step that writes nothing, from one phase of a running plan to another. -/
theorem turns_nothing (hsound : plan.Sound) {phase phase' : Phase} (hphase : plan.phase = phase)
    (hbefore : phase ≠ .primary) (hne : phase ≠ .absent) (hne' : phase ≠ .ended)
    (hafter : phase' ≠ .primary) :
    Turns plan { plan with phase := phase' } event .nothing :=
  .nothing (hphase ▸ hbefore) hafter (active_of_phase hphase hne hne') rfl hsound.reports

/-- A step that finishes, from one phase of a running plan to another. -/
theorem turns_finish (hsound : plan.Sound) {phase phase' : Phase} (hphase : plan.phase = phase)
    (hne : phase ≠ .absent) (hne' : phase ≠ .ended) (hafter : phase' ≠ .primary)
    {failures : Dict K Reason} (hfailures : plan.Reports failures) :
    Turns plan { plan with phase := phase' } event (.finish failures) :=
  .finish hafter (active_of_phase hphase hne hne') rfl hsound.reports hfailures

theorem Turns.sound (h : Turns plan plan' event write) (hsound : plan.Sound) : plan'.Sound := by
  cases h with
  | register _ hsome _ hafter =>
    subst hafter
    exact ⟨fun _ => hsome, fun _ hkey => nomatch hkey⟩
  | nothing _ _ hactive hkept hreports =>
    refine ⟨fun _ => hkept ▸ hsound.targets hactive, ?_⟩
    unfold Reports
    rw [hkept]
    exact hreports
  | mark hbefore hafter =>
    subst hafter
    exact ⟨fun _ => hsound.targets (active_of_phase hbefore nofun nofun), hsound.reports⟩
  | finish _ hactive hkept hreports _ =>
    refine ⟨fun _ => hkept ▸ hsound.targets hactive, ?_⟩
    unfold Reports
    rw [hkept]
    exact hreports

variable [DecidableEq K]

theorem reports_collect (h : plan.Reports plan.failures) {failures : Dict K Reason}
    (hfailures : plan.Reports failures) : plan.Reports (plan.collect failures).failures := by
  have hfold : ∀ (items : List (K × Reason)) (all : Dict K Reason), plan.Reports all →
      (∀ item ∈ items, item.1 ∈ plan.requirements) →
      plan.Reports (items.foldl (fun all item =>
        all.set item.1 (combinedFailureReason (all.get? item.1) item.2)) all) := by
    intro items
    induction items with
    | nil => exact fun all hall _ => hall
    | cons item items ih =>
      intro all hall hitems
      refine ih _ (fun key hkey => ?_) fun other hother =>
        hitems other (mem_cons_of_mem item hother)
      rcases Dict.mem_keys_set.mp hkey with hold | rfl
      · exact hall key hold
      · exact hitems item mem_cons_self
  refine hfold failures.items plan.failures h fun item hitem => hfailures item.1 ?_
  exact mem_map_of_mem hitem

theorem reports_unresolved (h : plan.Reports plan.failures) (needed : List K) :
    plan.Reports (plan.unresolvedFailures needed) := by
  intro key hkey
  obtain ⟨item, hitem, rfl⟩ := mem_map.mp hkey
  exact h item.1 (mem_map_of_mem (mem_filter.mp hitem).1)

theorem reports_timeout (needed : List K) (progress : Dict K Reason) :
    plan.Reports (plan.timeoutFailures needed progress) := by
  have hfold : ∀ (targets : List K) (all : Dict K Reason), plan.Reports all →
      (∀ key ∈ targets, key ∈ plan.requirements) →
      plan.Reports (targets.foldl (fun all key =>
        all.set key (combinedFailureReason (progress.get? key) ["ACQUISITION_TIMEOUT"])) all) := by
    intro targets
    induction targets with
    | nil => exact fun all hall _ => hall
    | cons target targets ih =>
      intro all hall htargets
      refine ih _ (fun key hkey => ?_) fun other hother =>
        htargets other (mem_cons_of_mem target hother)
      rcases Dict.mem_keys_set.mp hkey with hold | rfl
      · exact hall key hold
      · exact htargets key mem_cons_self
  refine hfold _ _ (fun _ hkey => nomatch hkey) fun key hkey => ?_
  exact (mem_filter.mp hkey).1

theorem turns (hsound : plan.Sound) (h : plan.turn event = some (write, plan')) :
    Turns plan plan' event write := by
  have hempty : plan.Reports Dict.empty := fun _ hkey => nomatch hkey
  cases event with
  | register requirements =>
    cases hphase : plan.phase <;> simp only [turn, hphase, reduceCtorEq] at h
    split at h
    · cases h
    · rename_i hsome
      cases h
      exact .register rfl hsome hphase rfl
  | begin =>
    cases hphase : plan.phase <;> simp only [turn, hphase, reduceCtorEq] at h
    cases h
    exact .mark hphase rfl
  | answered failures =>
    cases hphase : plan.phase <;> simp only [turn, hphase, reduceCtorEq] at h
    split at h
    · rename_i hreports
      cases h
      exact .finish nofun (active_of_phase hphase nofun nofun) rfl
        (reports_collect hsound.reports hreports) hempty
    · cases h
  | resolved needed =>
    cases hphase : plan.phase <;> simp only [turn, hphase, reduceCtorEq] at h
    all_goals
      cases h
      refine turns_finish hsound hphase nofun nofun ?_ (reports_unresolved hsound.reports needed)
      exact nofun
  | unresolved =>
    cases hphase : plan.phase <;> simp only [turn, hphase, reduceCtorEq] at h
    cases h
    exact turns_nothing hsound hphase nofun nofun nofun nofun
  | fellBack failures =>
    cases hphase : plan.phase <;> simp only [turn, hphase, reduceCtorEq] at h
    split at h
    · rename_i hreports
      cases h
      exact .nothing (hphase ▸ nofun) nofun (active_of_phase hphase nofun nofun) rfl
        (reports_collect hsound.reports hreports)
    · cases h
  | raised =>
    cases hphase : plan.phase <;> simp only [turn, hphase, reduceCtorEq] at h
    case primary =>
      cases h
      refine turns_finish hsound hphase nofun nofun ?_ hempty
      exact nofun
    all_goals
      cases h
      exact turns_nothing hsound hphase nofun nofun nofun nofun
  | cancel =>
    cases hphase : plan.phase <;> simp only [turn, hphase, reduceCtorEq] at h
    case primary =>
      cases h
      refine turns_finish hsound hphase nofun nofun ?_ hempty
      exact nofun
    all_goals
      cases h
      exact turns_nothing hsound hphase nofun nofun nofun nofun
  | retire =>
    cases hphase : plan.phase with
    | settled cancelled =>
      cases cancelled <;> simp only [turn, hphase, reduceCtorEq] at h
      cases h
      refine turns_finish hsound hphase nofun nofun ?_ hempty
      exact nofun
    | _ => simp only [turn, hphase, reduceCtorEq] at h
  | timeout =>
    cases hphase : plan.phase <;> simp only [turn, hphase, reduceCtorEq] at h
    cases h
    refine turns_finish hsound hphase nofun nofun ?_ hempty
    exact nofun
  | timeoutRead needed progress =>
    cases hphase : plan.phase <;> simp only [turn, hphase, reduceCtorEq] at h
    cases h
    refine turns_finish hsound hphase nofun nofun ?_ (reports_timeout needed progress)
    exact nofun
  | close =>
    cases hphase : plan.phase <;> simp only [turn, hphase, reduceCtorEq] at h
    cases h
    exact turns_nothing hsound hphase nofun nofun nofun nofun

end Plan

/-! ### All plans -/

/-- The overlay of the refreshing requirements is what the plans between `mark_refreshing` and
their first `finish_refresh` are for. -/
def Exact (state : State K P) : Prop :=
  ∀ key, key ∈ state.refreshingRequirementIds ↔
    ∃ p, (state.plans p).phase = .primary ∧ key ∈ (state.plans p).requirements

/-- What every run keeps. -/
structure Inv (state : State K P) : Prop where
  sound : ∀ p, (state.plans p).Sound
  disjoint : ∀ p q, p ≠ q → (state.plans p).Active → (state.plans q).Active →
    List.Disjoint (state.plans p).requirements (state.plans q).requirements

variable {state state' : State K P} {p : P} {plan' : Plan K} {write : Write K} {event : Event K}

theorem write_plans (requirements : List K) (write : Write K) :
    (state.write requirements write).plans = state.plans := by
  cases write <;> rfl

theorem inv_start : Inv (start : State K P) :=
  ⟨fun _ => Plan.sound_absent, fun _ _ _ hactive => hactive.elim⟩

section

variable [DecidableEq P]

theorem put_self : (state.put p plan').plans p = plan' := Function.update_self _ _ _

theorem put_ne {q : P} (h : q ≠ p) : (state.put p plan').plans q = state.plans q :=
  Function.update_of_ne h _ _

theorem exec_self : ((state.write plan'.requirements write).put p plan').plans p = plan' :=
  put_self

theorem exec_ne {q : P} (h : q ≠ p) :
    ((state.write plan'.requirements write).put p plan').plans q = state.plans q := by
  rw [put_ne h, write_plans]

variable [DecidableEq K]

/-- The step changes failure reasons of the plan's own requirements only. -/
def KeepsOthers (state : State K P) (p : P) (state' : State K P) : Prop :=
  ∀ key, key ∉ (state.plans p).requirements →
    state'.failureReason key = state.failureReason key

/-- Where the step writes the overlays, no other plan is refreshing; and where it finishes, no
failure of a requirement of others is recorded. -/
def Spares (state : State K P) (l : P × Event K) : Prop :=
  ∀ write plan', (state.plans l.1).turn l.2 = some (write, plan') →
    (write ≠ .nothing → ∀ q, q ≠ l.1 → (state.plans q).phase ≠ .primary) ∧
    (∀ failures, write = .finish failures → ∀ key, key ∉ (state.plans l.1).requirements →
      state.failureReason key = none)

/-- A step is a stretch of one plan and its write. -/
theorem exec_cases (h : state.exec p event = some state') :
    ∃ write plan', (state.plans p).turn event = some (write, plan') ∧
      state' = (state.write plan'.requirements write).put p plan' := by
  obtain ⟨⟨write, plan'⟩, hturn, hstate⟩ := map_eq_some_iff.mp h
  exact ⟨write, plan', hturn, hstate.symm⟩

theorem Inv.step (h : Inv state) (hstep : machine.step state (p, event) state') : Inv state' := by
  obtain ⟨hadmits, hexec⟩ := hstep
  obtain ⟨write, plan', hturn, rfl⟩ := exec_cases hexec
  have hturns := Plan.turns (h.sound p) hturn
  -- The plan of the step keeps away from the requirements of the others.
  have hapart : ∀ q, q ≠ p → plan'.Active → (state.plans q).Active →
      List.Disjoint plan'.requirements (state.plans q).requirements := by
    intro q hq hactive' hactive
    cases hturns with
    | register hevent _ _ hafter =>
      subst hevent
      rw [hafter]
      exact hadmits q hq hactive
    | nothing _ _ hbefore hkept _ =>
      rw [hkept]
      exact h.disjoint p q hq.symm hbefore hactive
    | mark hbefore hafter =>
      rw [hafter]
      exact h.disjoint p q hq.symm (Plan.active_of_phase hbefore nofun nofun) hactive
    | finish _ hbefore hkept _ _ =>
      rw [hkept]
      exact h.disjoint p q hq.symm hbefore hactive
  refine ⟨fun q => ?_, fun q r hqr hq hr => ?_⟩
  · by_cases hqp : q = p
    · subst hqp
      rw [exec_self]
      exact hturns.sound (h.sound q)
    · rw [exec_ne hqp]
      exact h.sound q
  · by_cases hqp : q = p
    · subst hqp
      rw [exec_self] at hq ⊢
      rw [exec_ne hqr.symm] at hr ⊢
      exact hapart r hqr.symm hq hr
    · rw [exec_ne hqp] at hq ⊢
      by_cases hrp : r = p
      · subst hrp
        rw [exec_self] at hr ⊢
        exact disjoint_symm (hapart q hqr hr hq)
      · rw [exec_ne hrp] at hr ⊢
        exact h.disjoint q r hqr hq hr

/-- **After a step that spares the other plans the overlay is exact again.** -/
theorem Exact.step (h : Exact state) (hinv : Inv state) (hspares : Spares state (p, event))
    (hexec : state.exec p event = some state') : Exact state' := by
  obtain ⟨write, plan', hturn, rfl⟩ := exec_cases hexec
  obtain ⟨halone, -⟩ := hspares write plan' hturn
  intro key
  cases Plan.turns (hinv.sound p) hturn with
  | register _ _ hbefore hafter =>
    subst hafter
    refine (h key).trans (exists_congr fun q => ?_)
    by_cases hq : q = p
    · subst hq
      rw [exec_self, hbefore]
      exact ⟨fun hand => (nomatch hand.1), fun hand => nomatch hand.1⟩
    · rw [exec_ne hq]
  | nothing hbefore hafter _ _ _ =>
    refine (h key).trans (exists_congr fun q => ?_)
    by_cases hq : q = p
    · subst hq
      rw [exec_self]
      exact ⟨fun hand => absurd hand.1 hbefore, fun hand => absurd hand.1 hafter⟩
    · rw [exec_ne hq]
  | mark hbefore hafter =>
    subst hafter
    constructor
    · intro hkey
      refine ⟨p, ?_⟩
      rw [exec_self]
      exact ⟨rfl, hkey⟩
    · rintro ⟨q, hq, hkey⟩
      by_cases hqp : q = p
      · subst hqp
        rw [exec_self] at hkey
        exact hkey
      · rw [exec_ne hqp] at hq
        exact absurd hq (halone nofun q hqp)
  | finish hafter _ _ _ _ =>
    constructor
    · exact nofun
    · rintro ⟨q, hq, -⟩
      by_cases hqp : q = p
      · subst hqp
        rw [exec_self] at hq
        exact absurd hq hafter
      · rw [exec_ne hqp] at hq
        exact absurd hq (halone nofun q hqp)

/-- After a `finish_refresh` a requirement it reports no failure for has none. -/
theorem failureReason_finish {requirements : List K} {failures : Dict K Reason} {key : K}
    (h : key ∉ failures.keys) : ((state.write requirements (.finish failures)).put p
      plan').failureReason key = none := by
  change (if failures.items = [] then none else some failures).bind (fun all => all.get? key) = none
  split
  · rfl
  · exact Dict.get?_eq_none.mpr h

theorem keepsOthers (hinv : Inv state) (hspares : Spares state (p, event))
    (hexec : state.exec p event = some state') : KeepsOthers state p state' := by
  obtain ⟨write, plan', hturn, rfl⟩ := exec_cases hexec
  obtain ⟨-, hforeign⟩ := hspares write plan' hturn
  intro key hkey
  cases Plan.turns (hinv.sound p) hturn with
  | register => rfl
  | nothing => rfl
  | mark => rfl
  | finish _ _ _ _ hfailures =>
    rw [hforeign _ rfl key hkey]
    exact failureReason_finish fun hmem => hkey (hfailures key hmem)

/-- A write beside another plan that is refreshing makes the overlay wrong. -/
theorem not_exact (hinv : Inv state) (hexec : state.exec p event = some state')
    (hturn : (state.plans p).turn event = some (write, plan')) (hwrite : write ≠ .nothing) {q : P}
    (hq : q ≠ p) (hprimary : (state.plans q).phase = .primary) : ¬ Exact state' := by
  intro hexact
  have hstate : state' = (state.write plan'.requirements write).put p plan' := by
    rw [State.exec, hturn, map_some, some.injEq] at hexec
    exact hexec.symm
  have hactive := Plan.active_of_phase hprimary nofun nofun
  obtain ⟨key, hkey⟩ := exists_mem_of_ne_nil _ ((hinv.sound q).targets hactive)
  have hmem : key ∈ state'.refreshingRequirementIds := by
    refine (hexact key).mpr ⟨q, ?_⟩
    rw [hstate, exec_ne hq]
    exact ⟨hprimary, hkey⟩
  subst hstate
  cases Plan.turns (hinv.sound p) hturn with
  | register => exact hwrite rfl
  | nothing => exact hwrite rfl
  | mark hbefore hafter =>
    subst hafter
    have hactive' := Plan.active_of_phase hbefore nofun nofun
    exact hinv.disjoint p q hq.symm hactive' hactive hmem hkey
  | finish => exact nomatch hmem

/-- **The overlays are right after a step exactly when the step spares the other plans.**  So
they are right in every run whose steps all do, and the first step that does not makes the
refreshing requirements wrong or removes the failure of another requirement. -/
theorem overlays_iff (h : (machine.restrict Spares).Reachable state) :
    Exact state ∧ ∀ p event state', machine.step state (p, event) state' →
      (Exact state' ∧ KeepsOthers state p state' ↔ Spares state (p, event)) := by
  have hboth : Inv state ∧ Exact state := by
    refine h.invariant (I := fun s => Inv s ∧ Exact s) ?_ ?_
    · rintro _ rfl
      exact ⟨inv_start, fun key => ⟨fun hkey => (nomatch hkey), fun ⟨_, hp, _⟩ => nomatch hp⟩⟩
    · rintro s l s' ⟨hinv, hexact⟩ ⟨hspares, hstep⟩
      exact ⟨hinv.step hstep, hexact.step hinv hspares hstep.2⟩
  obtain ⟨hinv, hexact⟩ := hboth
  refine ⟨hexact, fun p event state' hstep => ⟨?_, fun hspares => ?_⟩⟩
  · rintro ⟨hexact', hkeeps⟩ write plan' hturn
    refine ⟨fun hwrite q hq hprimary => ?_, ?_⟩
    · exact not_exact hinv hstep.2 hturn hwrite hq hprimary hexact'
    · rintro failures rfl key hkey
      have hsame := hkeeps key hkey
      rw [← hsame]
      have hstate : state' = (state.write plan'.requirements (.finish failures)).put p plan' := by
        have hexec := hstep.2
        rw [State.exec, hturn, Option.map_some, Option.some.injEq] at hexec
        exact hexec.symm
      rw [hstate]
      refine failureReason_finish fun hmem => ?_
      cases Plan.turns (hinv.sound p) hturn with
      | finish _ _ _ _ hfailures => exact hkey (hfailures key hmem)
  · exact ⟨hexact.step hinv hspares hstep.2, keepsOthers hinv hspares hstep.2⟩

end

/-! ### Two plans -/

theorem reachable_get {state : State String Nat} (h : machine.Reachable state) (p : Nat)
    (event : Event String) (hadmits : state.Admits p event)
    (hsome : (state.exec p event).isSome) :
    machine.Reachable ((state.exec p event).get hsome) :=
  h.step (l := (p, event)) ⟨hadmits, (some_get hsome).symm⟩

/-- A flight for the shareholding is registered. -/
def registered : State String Nat := (start.exec 0 (.register ["SHAREHOLDING"])).get rfl

/-- It is refreshing. -/
def marked : State String Nat := (registered.exec 0 .begin).get rfl

/-- Beside it a flight for the news is registered. -/
def beside : State String Nat := (marked.exec 1 (.register ["CURRENT_NEWS"])).get rfl

/-- Both are refreshing. -/
def bothMarked : State String Nat := (beside.exec 1 .begin).get rfl

/-- The shareholding failed, and its failure is recorded. -/
def failed : State String Nat :=
  ((((marked.exec 0 (.answered (.ofList id (fun _ => ["UNAVAILABLE"]) ["SHAREHOLDING"]))).get
    rfl).exec 0 (.resolved ["SHAREHOLDING"])).get rfl)

/-- Later the news are acquired. -/
def newsMarked : State String Nat :=
  ((failed.exec 1 (.register ["CURRENT_NEWS"])).get rfl).exec 1 .begin |>.get rfl

/-- Their providers answered. -/
def newsAnswered : State String Nat := (newsMarked.exec 1 (.answered .empty)).get rfl

/-- Whoever runs beside a plan for the shareholding may serve the news. -/
theorem admits_news {state : State String Nat} (hzero : (state.plans 0).requirements =
      ["SHAREHOLDING"]) (hothers : ∀ q, q ≠ 0 → state.plans q = .absent) :
    state.Admits 1 (.register ["CURRENT_NEWS"]) := by
  intro q _ hactive
  by_cases hq : q = 0
  · rw [hq, hzero]
    simp
  · rw [hothers q hq] at hactive
    exact hactive.elim

theorem registered_reachable : machine.Reachable registered :=
  reachable_get (.init rfl) 0 (.register ["SHAREHOLDING"]) (fun _ _ hactive => hactive.elim) rfl

theorem marked_reachable : machine.Reachable marked :=
  reachable_get registered_reachable 0 .begin trivial rfl

theorem marked_others (q : Nat) (hq : q ≠ 0) : marked.plans q = .absent :=
  (exec_ne hq).trans (exec_ne hq)

theorem bothMarked_reachable : machine.Reachable bothMarked :=
  reachable_get (reachable_get marked_reachable 1 (.register ["CURRENT_NEWS"])
    (admits_news rfl marked_others) rfl) 1 .begin trivial rfl

theorem failed_reachable : machine.Reachable failed :=
  reachable_get (reachable_get marked_reachable 0
    (.answered (.ofList id (fun _ => ["UNAVAILABLE"]) ["SHAREHOLDING"])) trivial rfl) 0
    (.resolved ["SHAREHOLDING"]) trivial rfl

theorem failed_others (q : Nat) (hq : q ≠ 0) : failed.plans q = .absent :=
  (exec_ne hq).trans ((exec_ne hq).trans (marked_others q hq))

theorem newsMarked_reachable : machine.Reachable newsMarked :=
  reachable_get (reachable_get failed_reachable 1 (.register ["CURRENT_NEWS"])
    (admits_news rfl failed_others) rfl) 1 .begin trivial rfl

/-- A plan that is alone spares the others. -/
theorem spares_alone {state : State String Nat} {event : Event String}
    (hothers : ∀ q, q ≠ 0 → state.plans q = .absent) (hfailures : state.failures = none) :
    Spares state (0, event) := by
  intro write plan' _
  refine ⟨fun _ q hq hprimary => ?_, fun failures _ key _ => ?_⟩
  · rw [hothers q hq] at hprimary
    cases hprimary
  · rw [State.failureReason, hfailures]
    rfl

/-- The law at work: a plan that is alone reports a failure. -/
theorem overlays_iff_sample :
    Exact marked ∧ ∀ state', machine.step marked (0, .raised) state' →
      Exact state' ∧ KeepsOthers marked 0 state' := by
  have hreachable : (machine.restrict Spares).Reachable marked := by
    have hstart : (machine.restrict Spares).Reachable (start : State String Nat) := .init rfl
    have hregistered : (machine.restrict Spares).Reachable registered :=
      hstart.step (l := (0, .register ["SHAREHOLDING"]))
        ⟨spares_alone (fun _ _ => rfl) rfl, fun _ _ hactive => hactive.elim, rfl⟩
    exact hregistered.step (l := (0, .begin))
      ⟨spares_alone (fun _ hq => exec_ne hq) rfl, trivial, rfl⟩
  have hlaw := overlays_iff hreachable
  exact ⟨hlaw.1, fun state' hstep =>
    (hlaw.2 0 .raised state' hstep).mpr (spares_alone marked_others rfl)⟩

/-- **Two plans do disturb each other**: when both are refreshing the overlay names the second
one's requirement only; and when the providers of the second one answer, the failure that the
first one recorded is gone. -/
theorem overlays_disturbed :
    (machine.Reachable bothMarked ∧ (bothMarked.plans 0).phase = .primary ∧
      (bothMarked.plans 0).requirements = ["SHAREHOLDING"] ∧
      bothMarked.refreshingRequirementIds = ["CURRENT_NEWS"]) ∧
    (machine.Reachable newsMarked ∧ (newsMarked.plans 1).requirements = ["CURRENT_NEWS"] ∧
      newsMarked.failureReason "SHAREHOLDING" = some ["UNAVAILABLE"] ∧
      machine.step newsMarked (1, .answered .empty) newsAnswered ∧
      newsAnswered.failureReason "SHAREHOLDING" = none) :=
  ⟨⟨bothMarked_reachable, rfl, rfl, rfl⟩, newsMarked_reachable, rfl, rfl, ⟨trivial, rfl⟩, rfl⟩

end InvestmentPlatform.Evidence.Overlays
