/-
A comparison made twice.

Comparing the same recommendation with the same anchor at the same price a second time, now
with the state the first comparison left, gives the same two actions: a comparison depends
on the previous state only through what it closed, and what the first comparison closed it
closed with the actions the second is forced to.  The one comparison this does not cover is
an instrument's very first, which has no previous state at all.
-/
import InvestmentPlatform.Proofs.Opportunity.Lifecycle

namespace InvestmentPlatform.Opportunity

open List

variable {F : Type} [PyFloat F] {levels : Levels F} {reviewing reviewing' : Bool}
  {price : Option F}

/-! ### Zones -/

/-- Whether a comparison is a review decides only between HOLDING and NEW. -/
theorem zone_reviewing (invalidation low high target price : Option F) :
    zone true invalidation low high target price = zone false invalidation low high target price ∨
      (zone true invalidation low high target price = .holding ∧
        zone false invalidation low high target price = .new) := by
  unfold zone
  cases price with
  | none => exact Or.inr ⟨rfl, rfl⟩
  | some p =>
      simp only
      split_ifs <;> simp

theorem zone_eq_iff {invalidation low high target price : Option F} {state : PositionState}
    (hholding : state ≠ .holding) (hnew : state ≠ .new) (reviewing : Bool) :
    zone reviewing invalidation low high target price = state ↔
      zone true invalidation low high target price = state := by
  cases reviewing with
  | true => exact Iff.rfl
  | false =>
      rcases zone_reviewing invalidation low high target price with h | ⟨htrue, hfalse⟩
      · rw [h]
      · rw [htrue, hfalse]
        exact ⟨fun h => absurd h.symm hnew, fun h => absurd h.symm hholding⟩

theorem shortZone_eq_iff (levels : Levels F) (price : Option F) {state : PositionState}
    (hholding : state ≠ .holding) (hnew : state ≠ .new) (reviewing : Bool) :
    shortZone levels reviewing price = state ↔ shortZone levels true price = state :=
  zone_eq_iff hholding hnew reviewing

theorem longZone_eq_iff (levels : Levels F) (price : Option F) {state : PositionState}
    (hholding : state ≠ .holding) (hnew : state ≠ .new) (reviewing : Bool) :
    longZone levels reviewing price = state ↔ longZone levels true price = state :=
  zone_eq_iff hholding hnew reviewing

/-! ### The two passes of the loop -/

section
variable {anchorAction action : ShortAction}

theorem shortHorizon_invalidated (h : shortZone levels reviewing price = .invalidated) :
    (shortHorizon levels anchorAction action reviewing price).2.1 = .exit := by
  unfold shortHorizon
  rw [h]

/-- At the first target the short-term action is an exit, full or partial, whatever it was. -/
theorem shortHorizon_targetReached (anchorAction action : ShortAction)
    (h : shortZone levels reviewing price = .targetReached) :
    (shortHorizon levels anchorAction action reviewing price).2.1 = .exit ∨
      (shortHorizon levels anchorAction action reviewing price).2.1 = .partialExit := by
  unfold shortHorizon
  rw [h]
  simp only
  split
  · exact Or.inl rfl
  · split <;> exact Or.inr rfl

theorem shortHorizon_other (hinvalid : shortZone levels reviewing price ≠ .invalidated)
    (htarget : shortZone levels reviewing price ≠ .targetReached) :
    shortHorizon levels anchorAction action reviewing price = (shortZone levels reviewing price,
          if reviewing = true ∧ action = .wait ∧
            anchorAction ∈ [ShortAction.buy, .hold, .partialProfit, .partialExit] then .hold
          else action, []) := by
  unfold shortHorizon
  split
  · contradiction
  · contradiction
  · split <;> rfl

/-- An exit stays one but at the first target, where it may show as a partial profit. -/
theorem shortHorizon_exit (levels : Levels F) (anchorAction : ShortAction) (reviewing : Bool)
    (price : Option F) :
    (shortHorizon levels anchorAction .exit reviewing price).2.1 = .exit ∨
      (shortHorizon levels anchorAction .exit reviewing price).1
        ∉ [PositionState.invalidated, .targetReached] := by
  unfold shortHorizon
  split
  · exact Or.inl rfl
  · simp only
    split
    · exact Or.inl rfl
    · split <;> exact Or.inr (by decide)
  · exact Or.inl (by simp)

end

section
variable {anchorPrice : Option F} {action : LongAction}

theorem longHorizon_of_invalidated (h : longZone levels reviewing price = .invalidated) :
    longHorizon levels anchorPrice action reviewing price = (.invalidated, .exitReview) := by
  unfold longHorizon
  rw [h]

theorem longHorizon_other (h : longZone levels reviewing price ≠ .invalidated) :
    longHorizon levels anchorPrice action reviewing price = (longZone levels reviewing price,
          if longZone levels reviewing price ∈ [PositionState.targetReached, .targetApproaching] ∧
              action ∉ [LongAction.reduce, .exitReview] then .hold
          else if reviewing = true ∧ action = .accumulate ∧ Dipped anchorPrice price then .topUp
          else action) := by
  unfold longHorizon
  split
  · contradiction
  · split
    · rfl
    · split <;> rfl

end

/-! ### The actions of a comparison -/

section
variable {D D' : Type} {anchor : Evaluation F D} {recommendation : Evaluation F D'}
  {previous : Option (PreviousState F)}

/-- The short-term action, from the pass of the loop and what was closed before. -/
theorem lifecycle_shortAction : (lifecycle anchor recommendation price previous).currentShortAction
      = if (closedShort previous).isSome ∨ recommendation.shortTermAction = .exit then .exit
        else (shortHorizon anchor.levels anchor.shortTermAction recommendation.shortTermAction
          previous.isSome price).2.1 := by
  cases hclosed : closedShort previous with
  | some state => simp [lifecycle, hclosed]
  | none =>
      by_cases hexit : recommendation.shortTermAction = .exit
      · simp only [lifecycle, hclosed, hexit, Option.isSome_none, Bool.false_eq_true, false_or,
          true_and, if_true]
        rcases shortHorizon_exit anchor.levels anchor.shortTermAction previous.isSome price
          with h | h
        · split
          · rfl
          · exact h
        · rw [if_pos h]
      · simp [lifecycle, hclosed, hexit]

/-- The long-term action, likewise. -/
theorem lifecycle_longAction : (lifecycle anchor recommendation price previous).currentLongAction
      = if ClosedLong previous ∨ recommendation.longTermAction = .exitReview then .exitReview
        else if (shortHorizon anchor.levels anchor.shortTermAction
              recommendation.shortTermAction previous.isSome price).2.1 = .partialExit ∧
            (longHorizon anchor.levels anchor.priceAtRecommendation
              recommendation.longTermAction previous.isSome price).2 = .accumulate then .hold
        else (longHorizon anchor.levels anchor.priceAtRecommendation
              recommendation.longTermAction previous.isSome price).2 := by
  by_cases hclosed : ClosedLong previous
  · simp [lifecycle, hclosed]
  · by_cases hreview : recommendation.longTermAction = .exitReview
    · simp [lifecycle, hclosed, hreview]
    · by_cases hreduce : (longHorizon anchor.levels anchor.priceAtRecommendation
          recommendation.longTermAction previous.isSome price).2 = .reduce
      · simp [lifecycle, hclosed, hreview, hreduce]
      · simp [lifecycle, hclosed, hreview, hreduce]

/-- **Comparing once more with the state the comparison left repeats its actions.** -/
theorem lifecycle_again {old state : State F} (hstate : state.toLifecycle
      = lifecycle anchor recommendation price (some (.stored old))) :
    (lifecycle anchor recommendation price (some (.stored state))).currentShortAction
        = state.currentShortAction ∧
      (lifecycle anchor recommendation price (some (.stored state))).currentLongAction
        = state.currentLongAction := by
  have hshort : state.currentShortAction
      = (lifecycle anchor recommendation price (some (.stored old))).currentShortAction :=
    congrArg Lifecycle.currentShortAction hstate
  have hlong : state.currentLongAction
      = (lifecycle anchor recommendation price (some (.stored old))).currentLongAction :=
    congrArg Lifecycle.currentLongAction hstate
  have hlongState : state.longTermState
      = (lifecycle anchor recommendation price (some (.stored old))).longTermState :=
    congrArg Lifecycle.longTermState hstate
  constructor
  · by_cases hexit : state.currentShortAction = .exit
    · have hclosed : closedShort (some (PreviousState.stored state)) = some state.shortTermState :=
        if_pos hexit
      rw [(lifecycle_closedShort hclosed).1, hexit]
    · have hopen : closedShort (some (PreviousState.stored state)) = none := if_neg hexit
      rw [hshort, lifecycle_shortAction] at hexit ⊢
      rw [lifecycle_shortAction, hopen]
      split at hexit
      · exact absurd rfl hexit
      · rename_i hcond
        rw [not_or] at hcond
        rw [if_neg (by simp [hcond.2]), if_neg (by simp [hcond.1, hcond.2])]
        rfl
  · by_cases hinvalid : state.longTermState = .invalidated
    · rw [(lifecycle_closedLong (show ClosedLong (some (.stored state)) from hinvalid)).2, hlong]
      exact (lifecycle_invalidated (hlongState ▸ hinvalid)).symm
    · have hopen : ¬ ClosedLong (some (PreviousState.stored state)) := hinvalid
      have hold : ¬ ClosedLong (some (PreviousState.stored old)) := fun h =>
        hinvalid (hlongState.trans (lifecycle_closedLong h).1)
      rw [hlong, lifecycle_longAction, lifecycle_longAction]
      simp only [hopen, hold]
      rfl

end

/-! ### The first review of a recommendation -/

section
variable {D : Type} (digests : Digests F D)

/-- The first review leaves the actions of the policy's own verdict alone: the verdict is the
broken thesis's, or it neither reduces nor meets a level that forces an action. -/
def SettlesAtOnce (s : Snapshot F) : Prop :=
  ThesisBroken s ∨
    ((LongBuy s ∨ weakAreas s.evidence.rule = []) ∧
      shortZone (ranges s) true s.currentPrice ∉ [PositionState.invalidated, .targetReached] ∧
      longZone (ranges s) true s.currentPrice ≠ .invalidated ∧
      (LongBuy s →
        longZone (ranges s) true s.currentPrice
          ∉ [PositionState.targetReached, .targetApproaching] ∧
        ¬ Dipped s.currentPrice s.currentPrice))

instance (s : Snapshot F) : Decidable (SettlesAtOnce s) :=
  inferInstanceAs (Decidable (_ ∨ (_ ∨ _) ∧ _ ∧ _ ∧ (_ → _)))

variable {digests} {s : Snapshot F}

/-- The verdict on an unbroken thesis. -/
theorem verdict_unbroken (hthesis : ¬ ThesisBroken s) :
    shortTermAction s ∈ [ShortAction.buy, .wait] ∧
      longTermAction s ∈ [LongAction.accumulate, .reduce, .hold] ∧
      existingHolderAction s ∉ [HolderAction.exitReview, .reduce] ∧
      (longTermAction s = .accumulate ↔ LongBuy s) ∧
      (longTermAction s ≠ .reduce ↔ LongBuy s ∨ weakAreas s.evidence.rule = []) := by
  unfold shortTermAction longTermAction existingHolderAction
  simp only [if_neg hthesis]
  refine ⟨?_, ?_, ?_, ?_, ?_⟩ <;> split_ifs <;> simp_all

/-- Only a level the price has reached takes BUY and WAIT away, and a review of a held trade. -/
theorem shortHorizon_unchanged {anchorAction action : ShortAction}
    (haction : action ∈ [ShortAction.buy, .wait]) :
    (shortHorizon levels anchorAction action reviewing price).2.1 = action ↔
      shortZone levels true price ∉ [PositionState.invalidated, .targetReached] ∧
        (reviewing = true → action = .wait →
          anchorAction ∉ [ShortAction.buy, .hold, .partialProfit, .partialExit]) := by
  have hinvalid := shortZone_eq_iff levels price
    (show PositionState.invalidated ≠ .holding by decide) (by decide) reviewing
  have htarget := shortZone_eq_iff levels price
    (show PositionState.targetReached ≠ .holding by decide) (by decide) reviewing
  by_cases hi : shortZone levels reviewing price = .invalidated
  · rw [shortHorizon_invalidated hi, hinvalid.mp hi]
    constructor
    · rintro rfl
      simp at haction
    · simp
  · by_cases ht : shortZone levels reviewing price = .targetReached
    · rw [htarget.mp ht]
      constructor
      · intro h
        rcases shortHorizon_targetReached anchorAction action ht with h' | h' <;> rw [← h, h'] at haction <;> simp at haction
      · simp
    · rw [shortHorizon_other hi ht]
      rw [hinvalid] at hi
      rw [htarget] at ht
      simp only [mem_cons, hi, ht, not_mem_nil, or_self, not_false_eq_true, true_and]
      constructor
      · intro h hreview hwait hheld
        rw [if_pos ⟨hreview, hwait, by simpa using hheld⟩, hwait] at h
        cases h
      · intro h
        rw [if_neg]
        rintro ⟨hreview, hwait, hheld⟩
        exact h hreview hwait (by simpa using hheld)

theorem longHorizon_unchanged {anchorPrice : Option F} {action : LongAction}
    (haction : action ∈ [LongAction.accumulate, .reduce, .hold]) :
    (longHorizon levels anchorPrice action reviewing price).2 = action ↔
      longZone levels true price ≠ .invalidated ∧ (action = .accumulate →
          longZone levels true price ∉ [PositionState.targetReached, .targetApproaching] ∧
            (reviewing = true → ¬ Dipped anchorPrice price)) := by
  have hinvalid := longZone_eq_iff levels price
    (show PositionState.invalidated ≠ .holding by decide) (by decide) reviewing
  have htarget := longZone_eq_iff levels price
    (show PositionState.targetReached ≠ .holding by decide) (by decide) reviewing
  have hnear := longZone_eq_iff levels price
    (show PositionState.targetApproaching ≠ .holding by decide) (by decide) reviewing
  by_cases hi : longZone levels reviewing price = .invalidated
  · rw [longHorizon_of_invalidated hi, hinvalid.mp hi]
    constructor
    · rintro rfl
      simp at haction
    · simp
  · rw [longHorizon_other hi]
    simp only [mem_cons, not_mem_nil, or_false, htarget, hnear] at haction ⊢
    rw [hinvalid] at hi
    rcases haction with rfl | rfl | rfl
    · simp only [hi, reduceCtorEq, or_self, not_false_eq_true, and_true, true_and, ne_eq,
        forall_const]
      split_ifs <;> simp_all
    · simp [hi]
    · simp [hi]

section
variable {D' : Type} {anchor : Evaluation F D} {previous : Option (PreviousState F)}

/-- With both horizons open, the actions are kept when both passes of the loop keep them. -/
theorem lifecycle_unchanged (recommendation : Evaluation F D')
    (hshort : closedShort previous = none) (hlong : ¬ ClosedLong previous)
    (hshortAction : recommendation.shortTermAction ∈ [ShortAction.buy, .wait])
    (hlongAction : recommendation.longTermAction ∈ [LongAction.accumulate, .reduce, .hold]) :
    ((lifecycle anchor recommendation price previous).currentShortAction
          = recommendation.shortTermAction ∧
        (lifecycle anchor recommendation price previous).currentLongAction
          = recommendation.longTermAction) ↔
      (shortHorizon anchor.levels anchor.shortTermAction recommendation.shortTermAction
          previous.isSome price).2.1 = recommendation.shortTermAction ∧
        (longHorizon anchor.levels anchor.priceAtRecommendation
          recommendation.longTermAction previous.isSome price).2
            = recommendation.longTermAction := by
  have hexit : recommendation.shortTermAction ≠ .exit := by
    intro h
    simp [h] at hshortAction
  have hpartial : recommendation.shortTermAction ≠ .partialExit := by
    intro h
    simp [h] at hshortAction
  have hreview : recommendation.longTermAction ≠ .exitReview := by
    intro h
    simp [h] at hlongAction
  rw [lifecycle_shortAction, lifecycle_longAction, hshort, if_neg (by simp [hexit]),
    if_neg (by simp [hlong, hreview])]
  refine and_congr_right fun hkept => ?_
  rw [hkept, if_neg (fun h => hpartial h.1)]

end

/-- Under the condition, comparing the verdict with an anchor of the same levels, price and
short-term action leaves the verdict's actions, whatever open state comes before. -/
theorem SettlesAtOnce.lifecycle {D D' : Type} (anchor : Evaluation F D)
    (recommendation : Evaluation F D') (previous : Option (PreviousState F))
    (h : SettlesAtOnce s) (hlevels : anchor.levels = ranges s)
    (hprice : anchor.priceAtRecommendation = s.currentPrice)
    (hanchor : anchor.shortTermAction = shortTermAction s)
    (hshortAction : recommendation.shortTermAction = shortTermAction s)
    (hlongAction : recommendation.longTermAction = longTermAction s)
    (hopen : ¬ ThesisBroken s → closedShort previous = none ∧ ¬ ClosedLong previous) :
    (Opportunity.lifecycle anchor recommendation s.currentPrice previous).currentShortAction
        = shortTermAction s ∧
      (Opportunity.lifecycle anchor recommendation s.currentPrice previous).currentLongAction
        = longTermAction s := by
  by_cases hthesis : ThesisBroken s
  · have hexit : shortTermAction s = .exit := if_pos hthesis
    have hreview : longTermAction s = .exitReview := if_pos hthesis
    rw [lifecycle_shortAction, lifecycle_longAction, hshortAction, hlongAction,
      if_pos (Or.inr hexit), if_pos (Or.inr hreview)]
    exact ⟨hexit.symm, hreview.symm⟩
  · obtain ⟨hshortVerdict, hlongVerdict, -, haccumulate, -⟩ := verdict_unbroken hthesis
    obtain ⟨-, hshortZone, hlongZone, hrising⟩ := h.resolve_left hthesis
    rw [← hshortAction] at hshortVerdict hanchor ⊢
    rw [← hlongAction] at hlongVerdict haccumulate ⊢
    refine (lifecycle_unchanged recommendation (hopen hthesis).1 (hopen hthesis).2
      hshortVerdict hlongVerdict).mpr ⟨(shortHorizon_unchanged hshortVerdict).mpr ⟨?_, ?_⟩,
      (longHorizon_unchanged hlongVerdict).mpr ⟨?_, ?_⟩⟩
    · rw [hlevels]
      exact hshortZone
    · intro _ hwait
      rw [hanchor, hwait]
      decide
    · rw [hlevels]
      exact hlongZone
    · intro hlong
      rw [hlevels, hprice]
      obtain ⟨hzone, hdip⟩ := hrising (haccumulate.mp hlong)
      exact ⟨hzone, fun _ => hdip⟩

omit [PyFloat F] in
theorem compared_actions {D : Type} (e : Evaluation F D) (comparison : Lifecycle F) :
    (compared e comparison).shortTermAction = comparison.currentShortAction ∧
      (compared e comparison).longTermAction = comparison.currentLongAction ∧
      (comparison.currentLongAction = .exitReview →
        (compared e comparison).existingHolderAction = .exitReview ∧
        (compared e comparison).newInvestorAction = e.newInvestorAction) ∧
      (comparison.currentLongAction = .reduce →
        (compared e comparison).existingHolderAction = .reduce) ∧
      (comparison.currentShortAction ∈ [ShortAction.buy, .wait] →
        comparison.currentLongAction ∉ [LongAction.reduce, .exitReview] →
        (compared e comparison).existingHolderAction = e.existingHolderAction ∧
        (compared e comparison).newInvestorAction = e.newInvestorAction) := by
  unfold compared
  refine ⟨?_, ?_, ?_, ?_, fun hshort hlong => ?_⟩
  · split_ifs <;> rfl
  · split_ifs <;> rfl
  · intro hreview
    rw [if_pos hreview]
    exact ⟨rfl, rfl⟩
  · intro hreduce
    rw [if_neg (by simp [hreduce]), if_pos (Or.inl hreduce)]
  · simp only [mem_cons, not_mem_nil, or_false, not_or] at hshort hlong
    have hexit : comparison.currentShortAction ≠ .exit := by
      rcases hshort with h | h <;> simp [h]
    have hpartial : comparison.currentShortAction ≠ .partialExit := by
      rcases hshort with h | h <;> simp [h]
    rw [if_neg hlong.2, if_neg (not_or.mpr ⟨hlong.1, hexit⟩), if_neg hpartial]
    exact ⟨rfl, rfl⟩

/-- **The first review keeps the four actions of the verdict exactly under the condition.** -/
theorem reviewed_actions {D : Type} {first : Evaluation F D} (hlevels : first.levels = ranges s)
    (hprice : first.priceAtRecommendation = s.currentPrice)
    (hanchor : SettlesAtOnce s → first.shortTermAction = shortTermAction s) :
    (reviewed s (some first)).payload.actions = (verdict s).payload.actions ↔ SettlesAtOnce s := by
  obtain ⟨hshort, hlong, hreview, hreduce, hkept⟩ := compared_actions (verdict s)
    (lifecycle first (verdict s) s.currentPrice (some .review))
  have hactions : ∀ {D' : Type} (e : Evaluation F D'), e.payload.actions
      = (e.newInvestorAction, e.existingHolderAction, e.shortTermAction, e.longTermAction) :=
    fun _ => rfl
  rw [hactions, hactions, show reviewed s (some first) = compared (verdict s)
    (lifecycle first (verdict s) s.currentPrice (some .review)) from rfl, hshort, hlong]
  constructor
  · intro h
    simp only [Prod.mk.injEq] at h
    obtain ⟨-, hholder, hshortSame, hlongSame⟩ := h
    by_cases hthesis : ThesisBroken s
    · exact Or.inl hthesis
    · obtain ⟨hshortVerdict, hlongVerdict, hholderVerdict, haccumulate, hnoReduce⟩ :=
        verdict_unbroken hthesis
      obtain ⟨hshortPass, hlongPass⟩ := (lifecycle_unchanged (verdict s) rfl id hshortVerdict
        hlongVerdict).mp ⟨hshortSame, hlongSame⟩
      obtain ⟨hshortZone, -⟩ := (shortHorizon_unchanged hshortVerdict).mp hshortPass
      obtain ⟨hlongZone, hrising⟩ := (longHorizon_unchanged hlongVerdict).mp hlongPass
      rw [hlevels] at hshortZone hlongZone hrising
      rw [hprice] at hrising
      refine Or.inr ⟨hnoReduce.mp fun hred => ?_, hshortZone, hlongZone, fun hbuy => ?_⟩
      · -- A reduction shows in the holder's action, which the verdict never reduces.
        rw [hreduce (hlongSame.trans hred)] at hholder
        apply hholderVerdict
        rw [show existingHolderAction s = .reduce from hholder.symm]
        decide
      · obtain ⟨hzone, hdip⟩ := hrising (haccumulate.mpr hbuy)
        exact ⟨hzone, hdip rfl⟩
  · intro h
    obtain ⟨hshortSame, hlongSame⟩ := SettlesAtOnce.lifecycle first (verdict s) (some .review) h
      hlevels hprice (hanchor h) rfl rfl (fun _ => ⟨rfl, id⟩)
    rw [hshortSame, hlongSame] at hkept ⊢
    by_cases hthesis : ThesisBroken s
    · obtain ⟨hholder, hnew⟩ := hreview (by rw [hlongSame]; exact if_pos hthesis)
      rw [hholder, hnew]
      simp only [verdict, existingHolderAction, if_pos hthesis]
    · obtain ⟨hshortVerdict, hlongVerdict, -, -, hnoReduce⟩ := verdict_unbroken hthesis
      obtain ⟨hholder, hnew⟩ := hkept hshortVerdict (by
        have := hnoReduce.mpr (h.resolve_left hthesis).1
        simp only [mem_cons, not_mem_nil, or_false] at hlongVerdict ⊢
        rcases hlongVerdict with h' | h' | h' <;> simp_all)
      rw [hholder, hnew]
      rfl

end

end InvestmentPlatform.Opportunity
