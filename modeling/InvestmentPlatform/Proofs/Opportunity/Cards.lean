/-
Which horizon a public card belongs to.

`public_action` lets an exit of either horizon win, and `public_horizon` lets the short horizon
win whatever it wants.  The two agree unless the long horizon asks for more than the short one
does: an exit review beside a BUY or a PARTIAL_EXIT, or a reduction beside a BUY.

Which pairs come up is a fact about the reviews.  A review runs the comparison twice, once
inside the evaluation and once with the stored state, and the second pass finds the price at
the same levels: `review_short` and `review_long` say what both together leave.
-/
import InvestmentPlatform.Proofs.Opportunity.Horizons
import InvestmentPlatform.Proofs.Opportunity.Repeat
import InvestmentPlatform.Proofs.Suggestions.History

namespace InvestmentPlatform.Opportunity

open PyFloat Option
open Suggestions (PublicAction Horizon)

variable {F D D' : Type}

/-! ### The two cascades -/

/-- The cascades name an owner except for three pairs of actions. -/
theorem owns_makeCard (latest : Option (Recommendation F D)) (state : State F) :
    (makeCard latest state).Owns ↔ ¬ (state.currentLongAction = .exitReview ∧
          (state.currentShortAction = .buy ∨ state.currentShortAction = .partialExit) ∨
        state.currentLongAction = .reduce ∧ state.currentShortAction = .buy) := by
  unfold Card.Owns makeCard publicAction publicHorizon
  simp only [mem_def]
  cases hshort : state.currentShortAction <;> cases hlong : state.currentLongAction <;>
    by_cases hnew : (latest.map fun r => r.newInvestorAction) = some .strongBuyCandidate <;>
    simp [Asked, hshort, hlong, hnew]

variable [PyFloat F] {levels : Levels F} {reviewing : Bool} {price : Option F}

/-! ### One comparison -/

theorem shortZone_invalidated_iff :
    shortZone levels reviewing price = .invalidated ↔ AtOrBelow levels.shortInvalidation price := by
  unfold shortZone zone AtOrBelow
  cases price with
  | none => cases reviewing <;> simp
  | some p =>
    simp only [some.injEq, exists_eq_left']
    split_ifs <;> simp_all

theorem longZone_invalidated_iff :
    longZone levels reviewing price = .invalidated ↔ AtOrBelow levels.longInvalidation price := by
  unfold longZone zone AtOrBelow
  cases price with
  | none => cases reviewing <;> simp
  | some p =>
    simp only [some.injEq, exists_eq_left']
    split_ifs <;> simp_all

theorem shortZone_targetReached_iff : shortZone levels reviewing price = .targetReached ↔
      ¬ AtOrBelow levels.shortInvalidation price ∧ FirstTarget levels price := by
  unfold shortZone zone AtOrBelow FirstTarget
  cases price with
  | none => cases reviewing <;> simp
  | some p =>
    simp only [some.injEq, exists_eq_left']
    split_ifs <;> simp_all

/-- The short-term pass, by what the price has reached. -/
theorem shortHorizon_action (levels : Levels F) (anchorAction action : ShortAction)
    (reviewing : Bool) (price : Option F) :
    (shortHorizon levels anchorAction action reviewing price).2.1 =
      if AtOrBelow levels.shortInvalidation price then .exit
      else if FirstTarget levels price then
        if SecondTarget levels price true then .exit else .partialExit
      else if reviewing = true ∧ action = .wait ∧
          anchorAction ∈ [ShortAction.buy, .hold, .partialProfit, .partialExit] then .hold
      else action := by
  by_cases hinvalid : AtOrBelow levels.shortInvalidation price
  · rw [if_pos hinvalid]
    exact shortHorizon_invalidated (shortZone_invalidated_iff.mpr hinvalid)
  · rw [if_neg hinvalid]
    by_cases htarget : FirstTarget levels price
    · rw [if_pos htarget]
      have hzone : shortZone levels reviewing price = .targetReached :=
        shortZone_targetReached_iff.mpr ⟨hinvalid, htarget⟩
      unfold shortHorizon
      rw [hzone]
      simp only
      split
      · rfl
      · split <;> rfl
    · rw [if_neg htarget, shortHorizon_other]
      · exact fun h => hinvalid (shortZone_invalidated_iff.mp h)
      · exact fun h => htarget (shortZone_targetReached_iff.mp h).2

/-- The long-term actions that ask for nothing but to hold or to buy. -/
def Keeping (action : LongAction) : Prop := action ∈ [LongAction.accumulate, .hold, .topUp]

/-- Clear of the invalidation, the long-term pass neither starts nor ends a reduction. -/
theorem longHorizon_action (anchorPrice : Option F) (action : LongAction) (reviewing : Bool)
    (h : ¬ AtOrBelow levels.longInvalidation price) :
    (action = .reduce → (longHorizon levels anchorPrice action reviewing price).2 = .reduce) ∧
      (Keeping action → Keeping (longHorizon levels anchorPrice action reviewing price).2) := by
  rw [longHorizon_other fun hzone => h (longZone_invalidated_iff.mp hzone)]
  constructor
  · intro hreduce
    simp [hreduce]
  · intro hkeep
    unfold Keeping at hkeep ⊢
    simp only
    split_ifs <;> simp_all

/-! ### The review of a snapshot -/

omit [PyFloat F] in
theorem closedShort_stored {old : Option (State F)} :
    (closedShort (old.map PreviousState.stored)).isSome ↔
      ∃ state, old = some state ∧ state.currentShortAction = .exit := by
  cases old with
  | none => simp [closedShort]
  | some state => by_cases h : state.currentShortAction = .exit <;> simp [closedShort, h]

omit [PyFloat F] in
theorem closedLong_stored {old : Option (State F)} : ClosedLong (old.map PreviousState.stored) ↔
      ∃ state, old = some state ∧ state.longTermState = .invalidated := by
  cases old with
  | none => simp [ClosedLong]
  | some state => simp [ClosedLong]

/-- A short-term action that says no more than the verdict and the price do. -/
structure Follows (s : Snapshot F) (levels : Levels F) (action : ShortAction) : Prop where
  exits : action = .exit → AtOrBelow levels.shortInvalidation s.currentPrice ∨
    FirstTarget levels s.currentPrice ∧ SecondTarget levels s.currentPrice true
  runs : ¬ AtOrBelow levels.shortInvalidation s.currentPrice → ¬ FirstTarget levels s.currentPrice →
    action ∉ [ShortAction.exit, .partialExit] ∧ (action = .buy ↔ ShortBuy s)

section
variable {s : Snapshot F} {reference : Option (Evaluation F D)} {old : Option (State F)}

theorem follows_verdict (hthesis : ¬ ThesisBroken s) (levels : Levels F) :
    Follows s levels (shortTermAction s) := by
  unfold shortTermAction
  rw [if_neg hthesis]
  by_cases hbuy : ShortBuy s
  · rw [if_pos hbuy]
    exact ⟨by simp, fun _ _ => by simp [hbuy]⟩
  · rw [if_neg hbuy]
    exact ⟨by simp, fun _ _ => by simp [hbuy]⟩

/-- The pass of the loop keeps it so, however often it is made. -/
theorem Follows.shortHorizon {action : ShortAction} (h : Follows s levels action)
    (anchorAction : ShortAction) (reviewing : Bool) :
    Follows s levels (shortHorizon levels anchorAction action reviewing s.currentPrice).2.1 := by
  rw [shortHorizon_action]
  by_cases hinvalid : AtOrBelow levels.shortInvalidation s.currentPrice
  · exact ⟨fun _ => Or.inl hinvalid, fun hclear => absurd hinvalid hclear⟩
  · by_cases htarget : FirstTarget levels s.currentPrice
    · refine ⟨fun hexit => Or.inr ⟨htarget, ?_⟩, fun _ hclear => absurd htarget hclear⟩
      by_contra hsecond
      simp [hinvalid, htarget, hsecond] at hexit
    · obtain ⟨hnot, hbuy⟩ := h.runs hinvalid htarget
      rw [if_neg hinvalid, if_neg htarget]
      split
      · rename_i hwait
        have hnoBuy : ¬ ShortBuy s := by
          rw [← hbuy, hwait.2.1]
          simp
        exact ⟨by simp, fun _ _ => by simp [hnoBuy]⟩
      · exact h

theorem follows_evaluate (digests : Digests F D) (reference : Option (Evaluation F D))
    (hthesis : ¬ ThesisBroken s) :
    Follows s (anchorLevels s reference) (evaluate digests.hash s reference).shortTermAction := by
  cases reference with
  | none => exact follows_verdict hthesis _
  | some anchor =>
    have hcompared := (compared_actions (verdict s)
      (lifecycle anchor (verdict s) s.currentPrice (some .review))).1
    have hverdict : (verdict s).shortTermAction ≠ .exit := by
      show shortTermAction s ≠ .exit
      unfold shortTermAction
      rw [if_neg hthesis]
      split <;> simp
    have haction : (evaluate digests.hash s (some anchor)).shortTermAction =
        (Opportunity.shortHorizon anchor.levels anchor.shortTermAction (shortTermAction s) true
          s.currentPrice).2.1 := by
      refine hcompared.trans (lifecycle_shortAction.trans ?_)
      rw [if_neg (by simp [closedShort, hverdict])]
      rfl
    rw [haction]
    exact (follows_verdict hthesis _).shortHorizon _ _

theorem levels_getD_reference (digests : Digests F D) :
    (reference.getD (evaluate digests.hash s reference)).levels = anchorLevels s reference := by
  cases reference with
  | none =>
    have hrest := reviewed_rest s (none : Option (Evaluation F D))
    exact hrest.2.2.2.2.2.1
  | some anchor => rfl

/-- The short-term action a review leaves, when the thesis stands. -/
theorem review_short (digests : Digests F D) (reference : Option (Evaluation F D))
    (old : Option (State F)) (hthesis : ¬ ThesisBroken s) :
    (ShortBroken s (anchorLevels s reference) old →
      (reviewState digests s reference old).currentShortAction = .exit) ∧
    (¬ ShortBroken s (anchorLevels s reference) old →
      FirstTarget (anchorLevels s reference) s.currentPrice →
      (reviewState digests s reference old).currentShortAction =
        if SecondTarget (anchorLevels s reference) s.currentPrice true then .exit
        else .partialExit) ∧
    (¬ ShortBroken s (anchorLevels s reference) old →
      ¬ FirstTarget (anchorLevels s reference) s.currentPrice →
      (reviewState digests s reference old).currentShortAction ∉ [ShortAction.exit, .partialExit] ∧
      ((reviewState digests s reference old).currentShortAction = .buy ↔ ShortBuy s)) := by
  have hfollows := follows_evaluate digests reference hthesis
  have hagain := hfollows.shortHorizon
    (reference.getD (evaluate digests.hash s reference)).shortTermAction
    (old.map PreviousState.stored).isSome
  have hstate : (reviewState digests s reference old).currentShortAction = _ :=
    lifecycle_shortAction
  rw [levels_getD_reference] at hstate
  refine ⟨?_, ?_, ?_⟩
  · rintro (hinvalid | hclosed)
    · rw [hstate]
      split
      · rfl
      · rw [shortHorizon_action, if_pos hinvalid]
    · rw [hstate, if_pos (Or.inl (closedShort_stored.mpr hclosed))]
  · intro hopen htarget
    have hinvalid := fun h => hopen (Or.inl h)
    have hclosed := fun h => hopen (Or.inr (closedShort_stored.mp h))
    rw [hstate]
    split
    · rename_i hexit
      rcases hfollows.exits (hexit.resolve_left hclosed) with h | h
      · exact absurd h hinvalid
      · rw [if_pos h.2]
    · rw [shortHorizon_action, if_neg hinvalid, if_pos htarget]
  · intro hopen htarget
    have hinvalid := fun h => hopen (Or.inl h)
    have hclosed := fun h => hopen (Or.inr (closedShort_stored.mp h))
    have hrun := (hfollows.runs hinvalid htarget).1
    rw [hstate, if_neg]
    · exact hagain.runs hinvalid htarget
    · rintro (h | h)
      · exact hclosed h
      · simp [h] at hrun

/-- A long-term action that says no more than the verdict and the price do. -/
def Weighs (s : Snapshot F) (levels : Levels F) (action : LongAction) : Prop :=
  if AtOrBelow levels.longInvalidation s.currentPrice then True
  else if LongBuy s ∨ weakAreas s.evidence.rule = [] then Keeping action
  else action = .reduce

theorem weighs_verdict (hthesis : ¬ ThesisBroken s) (levels : Levels F) :
    Weighs s levels (longTermAction s) := by
  unfold Weighs longTermAction Keeping
  rw [if_neg hthesis]
  split_ifs <;> simp_all

theorem Weighs.longHorizon {action : LongAction} (h : Weighs s levels action)
    (anchorPrice : Option F) (reviewing : Bool) :
    Weighs s levels (longHorizon levels anchorPrice action reviewing s.currentPrice).2 := by
  unfold Weighs at h ⊢
  split
  · trivial
  · rename_i hclear
    obtain ⟨hreduce, hkeep⟩ := longHorizon_action anchorPrice action reviewing hclear
    rw [if_neg hclear] at h
    split
    · rename_i hcond
      rw [if_pos hcond] at h
      exact hkeep h
    · rename_i hcond
      rw [if_neg hcond] at h
      exact hreduce h

/-- The hold a partial exit makes of an accumulation. -/
theorem Weighs.hold {action : LongAction} (h : Weighs s levels action) {p : Prop} [Decidable p] :
    Weighs s levels (if p ∧ action = .accumulate then .hold else action) := by
  split
  · rename_i hcond
    rw [hcond.2] at h
    unfold Weighs Keeping at h ⊢
    split_ifs at h ⊢
    all_goals simp_all
  · exact h

section

variable (digests : Digests F D)

theorem evaluate_long (reference : Option (Evaluation F D)) (hthesis : ¬ ThesisBroken s) :
    Weighs s (anchorLevels s reference) (evaluate digests.hash s reference).longTermAction ∧
      ((evaluate digests.hash s reference).longTermAction = .exitReview →
        AtOrBelow (anchorLevels s reference).longInvalidation s.currentPrice) := by
  have hclear : ∀ action, Weighs s (anchorLevels s reference) action → action = .exitReview →
      AtOrBelow (anchorLevels s reference).longInvalidation s.currentPrice := by
    intro action hweighs hreview
    by_contra hnot
    unfold Weighs Keeping at hweighs
    rw [if_neg hnot, hreview] at hweighs
    split_ifs at hweighs
    simp at hweighs
  have hweighs : Weighs s (anchorLevels s reference)
      (evaluate digests.hash s reference).longTermAction := by
    cases reference with
    | none => exact weighs_verdict hthesis _
    | some anchor =>
      have hcompared := (compared_actions (verdict s)
        (lifecycle anchor (verdict s) s.currentPrice (some .review))).2.1
      have hverdict : (verdict s).longTermAction ≠ .exitReview := by
        show longTermAction s ≠ .exitReview
        unfold longTermAction
        rw [if_neg hthesis]
        split_ifs <;> simp
      show Weighs s anchor.levels (compared (verdict s) _).longTermAction
      rw [hcompared, lifecycle_longAction, if_neg (by simp [ClosedLong, hverdict])]
      exact ((weighs_verdict hthesis _).longHorizon _ _).hold
  exact ⟨hweighs, hclear _ hweighs⟩

/-- The long-term action a review leaves, when the thesis stands. -/
theorem review_long (reference : Option (Evaluation F D))
    (old : Option (State F)) (hthesis : ¬ ThesisBroken s) :
    ((reviewState digests s reference old).currentLongAction = .exitReview ↔
      LongBroken s (anchorLevels s reference) old) ∧
    (¬ LongBroken s (anchorLevels s reference) old →
      ((reviewState digests s reference old).currentLongAction = .reduce ↔
        ¬ LongBuy s ∧ weakAreas s.evidence.rule ≠ [])) := by
  obtain ⟨hweighs, hreview⟩ := evaluate_long digests reference hthesis
  have hagain := hweighs.longHorizon
    (reference.getD (evaluate digests.hash s reference)).priceAtRecommendation
    (old.map PreviousState.stored).isSome
  have hstate : (reviewState digests s reference old).currentLongAction = _ :=
    lifecycle_longAction
  rw [levels_getD_reference] at hstate
  have hbroken : LongBroken s (anchorLevels s reference) old →
      (reviewState digests s reference old).currentLongAction = .exitReview := by
    rintro (hinvalid | hclosed)
    · rw [hstate, longHorizon_of_invalidated (longZone_invalidated_iff.mpr hinvalid)]
      simp
    · rw [hstate, if_pos (Or.inl (closedLong_stored.mpr hclosed))]
  have hopen : ¬ LongBroken s (anchorLevels s reference) old →
      (if LongBuy s ∨ weakAreas s.evidence.rule = [] then
        Keeping (reviewState digests s reference old).currentLongAction
      else (reviewState digests s reference old).currentLongAction = .reduce) := by
    intro hnot
    have hkept : ¬ (ClosedLong (old.map PreviousState.stored) ∨
        (evaluate digests.hash s reference).longTermAction = .exitReview) := by
      rintro (h | h)
      · exact hnot (Or.inr (closedLong_stored.mp h))
      · exact hnot (Or.inl (hreview h))
    have hhold := hagain.hold (p := (Opportunity.shortHorizon (anchorLevels s reference)
        (reference.getD (evaluate digests.hash s reference)).shortTermAction
        (evaluate digests.hash s reference).shortTermAction
        (old.map PreviousState.stored).isSome s.currentPrice).2.1 = .partialExit)
    unfold Weighs at hhold
    rw [if_neg fun h => hnot (Or.inl h)] at hhold
    rw [hstate, if_neg hkept]
    exact hhold
  refine ⟨⟨?_, hbroken⟩, ?_⟩
  · intro h
    by_contra hnot
    have := hopen hnot
    rw [h] at this
    unfold Keeping at this
    split_ifs at this
    simp at this
  · intro hnot
    have := hopen hnot
    unfold Keeping at this
    split_ifs at this with hcond
    · constructor
      · intro hreduce
        simp [hreduce] at this
      · rintro ⟨hbuy, hweak⟩
        exact absurd hcond (not_or.mpr ⟨hbuy, hweak⟩)
    · exact ⟨fun _ => not_or.mp hcond, fun _ => this⟩

/-- A broken thesis closes the short horizon. -/
theorem review_thesisBroken (hthesis : ThesisBroken s) :
    (reviewState digests s reference old).currentShortAction = .exit := by
  have hverdict : (verdict s).shortTermAction = .exit := by
    show shortTermAction s = .exit
    unfold shortTermAction
    rw [if_pos hthesis]
  have hexit : (evaluate digests.hash s reference).shortTermAction = .exit := by
    cases reference with
    | none => exact hverdict
    | some anchor =>
      have hcompared := (compared_actions (verdict s)
        (lifecycle anchor (verdict s) s.currentPrice (some .review))).1
      exact hcompared.trans (lifecycle_shortAction.trans (if_pos (Or.inr hverdict)))
  exact lifecycle_shortAction.trans (if_pos (Or.inr hexit))

/-- **The horizons of a card cross exactly under the condition on its snapshot.** -/
theorem owns_review (latest : Option (Recommendation F D)) (state : State F)
    (hstate : state.toLifecycle = reviewState digests s reference old) :
    (makeCard latest state).Owns ↔ ¬ Crossed s (anchorLevels s reference) old := by
  have hshort : state.currentShortAction =
      (reviewState digests s reference old).currentShortAction :=
    congrArg Lifecycle.currentShortAction hstate
  have hlong : state.currentLongAction = (reviewState digests s reference old).currentLongAction :=
    congrArg Lifecycle.currentLongAction hstate
  rw [owns_makeCard, hshort, hlong, not_iff_not]
  by_cases hthesis : ThesisBroken s
  · rw [review_thesisBroken digests hthesis]
    simp [Crossed, hthesis]
  · obtain ⟨hbroken, htarget, hruns⟩ := review_short digests reference old hthesis
    obtain ⟨hreview, hreduce⟩ := review_long digests reference old hthesis
    unfold Crossed
    rw [hreview]
    by_cases hshortBroken : ShortBroken s (anchorLevels s reference) old
    · rw [hbroken hshortBroken]
      simp [hshortBroken]
    · by_cases hfirst : FirstTarget (anchorLevels s reference) s.currentPrice
      · rw [htarget hshortBroken hfirst, if_pos hfirst]
        by_cases hsecond : SecondTarget (anchorLevels s reference) s.currentPrice true
        · simp [hsecond]
        · simp [hsecond, hthesis, hshortBroken]
      · obtain ⟨hnot, hbuy⟩ := hruns hshortBroken hfirst
        rw [if_neg hfirst, hbuy]
        have hnoPartial : (reviewState digests s reference old).currentShortAction ≠ .partialExit :=
          fun h => by simp [h] at hnot
        by_cases hlongBroken : LongBroken s (anchorLevels s reference) old
        · have hnoReduce : (reviewState digests s reference old).currentLongAction ≠ .reduce := by
            rw [hreview.mpr hlongBroken]
            simp
          simp [hthesis, hshortBroken, hlongBroken, hnoPartial, hnoReduce]
        · rw [hreduce hlongBroken]
          simp only [hthesis, hshortBroken, hlongBroken, not_false_eq_true, true_and, false_and,
            false_or]
          tauto

end

end

/-! ### A cycle's cards -/

/-- Each card of a cycle is made for one of its snapshots, from the state its review left. -/
theorem owns_prepareCards [DecidableEq D] (digests : Digests F D)
    (uuid4 : Nat → RecommendationId) (db : Store F D) (cycle : ProductionCycle F) :
    (∀ card ∈ prepareCards digests uuid4 db cycle, card.Owns) ↔ ∀ s ∈ cycle.snapshots, ¬ Crossed s
        (anchorLevels s (db.reference (db.states s.globalInstrumentId)))
        (db.states s.globalInstrumentId) := by
  unfold prepareCards
  generalize db.drawn = drawn
  induction cycle.snapshots generalizing drawn with
  | nil => simp [prepareAll]
  | cons s rest ih =>
    rw [prepareAll]
    simp only [List.map_cons, List.forall_mem_cons]
    have hstate : (prepareSnapshot digests db cycle.now (uuid4 drawn) s).state.toLifecycle =
        reviewState digests s (db.reference (db.states s.globalInstrumentId))
          (db.states s.globalInstrumentId) := prepareSnapshot_lifecycle
    rw [ih, owns_review digests _ _ hstate]

omit [PyFloat F] in
/-- A card that owns its action hands it on: what is recorded is what its horizon asked for. -/
theorem recordsAsked_of_owns {cards : List (Card F)} (h : ∀ card ∈ cards, card.Owns) :
    RecordsAsked cards := by
  intro uuid4 scan published s hpublished
  have hasked : ∀ {card : Suggestions.Card} {action : PublicAction}, card ∈ published →
      card.publicAction = some action → ∃ owner ∈ cards,
        card.globalInstrumentId = owner.state.globalInstrumentId ∧
          Asked owner card.horizon action := by
    intro card action hcard haction
    obtain ⟨owner, howner, hid, hhorizon, hpublic⟩ := hpublished card hcard
    obtain ⟨horizon, hmem, hask⟩ := h owner howner action (hpublic ▸ haction)
    rw [hhorizon] at hmem
    exact ⟨owner, howner, hid, some.inj hmem ▸ hask⟩
  constructor
  · intro event hevent
    rcases Suggestions.mem_history_persist hevent with hold | ⟨card, hcard, haction, hid, hhorizon⟩
    · exact Or.inl hold
    · obtain ⟨owner, howner, howned, hask⟩ := hasked hcard haction
      exact Or.inr ⟨owner, howner, hid.trans howned, hhorizon ▸ hask⟩
  · intro id row hrow
    rcases Suggestions.suggestions_persist hrow with hold | ⟨card, hcard, haction, hid, hhorizon⟩
    · exact Or.inl hold
    · obtain ⟨owner, howner, howned, hask⟩ := hasked hcard haction
      exact Or.inr ⟨owner, howner, hid.trans howned, hhorizon ▸ hask⟩

/-- **The published horizon owns the published action exactly when no snapshot crosses its
horizons**, and what is then recorded is what its horizon asked for. -/
theorem publishedHorizon_iff [DecidableEq D] (digests : Digests F D)
    (uuid4 : Nat → RecommendationId) (db : Store F D) (cycle : ProductionCycle F) :
    ((∀ card ∈ prepareCards digests uuid4 db cycle, card.Owns) ∧
      RecordsAsked (prepareCards digests uuid4 db cycle)) ↔
    ∀ s ∈ cycle.snapshots, ¬ Crossed s
      (anchorLevels s (db.reference (db.states s.globalInstrumentId)))
      (db.states s.globalInstrumentId) := by
  rw [← owns_prepareCards digests uuid4 db cycle]
  exact ⟨fun h => h.1, fun h => ⟨h, recordsAsked_of_owns h⟩⟩

/-- A trending stock with a fair value of 200, invalid below 120. -/
def valuedSnapshot (snapshotId : String) (price : Rat) : Snapshot Rat :=
  let plain := plainSnapshot snapshotId 70 price
  { plain with
    evidence := { plain.evidence with
      valuation := { fairValue := some 200, bullTarget := none, invalidation := some 120 } } }

/-- The store after a first cycle at 150. -/
def valuedStore : Store Rat (List (Payload Rat ⊕ ShortAction × LongAction)) :=
  runCycle structuralDigests id Store.empty ⟨"2026-01-01", [valuedSnapshot "s1" 150]⟩

/-- At 110 the long horizon is broken and the trend is not: the radar shows a SELL on the short
horizon, whose own action is BUY. -/
theorem sell_on_buying_horizon :
    (system structuralDigests id).Reachable valuedStore ∧
    ((prepareCards structuralDigests id valuedStore
        ⟨"2026-01-02", [valuedSnapshot "s2" 110]⟩).map fun card =>
      (card.publicAction, card.horizon, card.state.currentShortAction,
        card.state.currentLongAction)) =
      [(some .sell, some .shortTerm, .buy, .exitReview)] ∧
    ¬ ∀ card ∈ prepareCards structuralDigests id valuedStore
        ⟨"2026-01-02", [valuedSnapshot "s2" 110]⟩, card.Owns := by
  refine ⟨?_, by decide +kernel, fun h => ?_⟩
  · have hexec : exec structuralDigests id Store.empty
        ⟨"2026-01-01", [valuedSnapshot "s1" 150]⟩ = some ((), valuedStore) := if_pos (by decide)
    exact Machine.Reachable.step (m := system structuralDigests id)
      (l := (⟨"2026-01-01", [valuedSnapshot "s1" 150]⟩, ())) (Machine.Reachable.init rfl) hexec
  · exact (owns_prepareCards _ _ _ _).mp h _ (List.mem_singleton_self _) (by decide +kernel)

end InvestmentPlatform.Opportunity
