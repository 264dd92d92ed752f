/-
Closed horizons stay closed, and the anchor stays where it was dropped.

The state of an instrument is only ever replaced by the comparison of a snapshot with the
old state, so both absorbing states are kept by every cycle.  The anchor is the instrument's
first recommendation because a state without an old one records its recommendation, and an
instrument without a state has none recorded.
-/
import InvestmentPlatform.Proofs.Opportunity.Lifecycle

namespace InvestmentPlatform.Opportunity

open Option List

variable {F D : Type} [PyFloat F] [DecidableEq D] {digests : Digests F D}
  {uuid4 : Nat → RecommendationId} {db db' : Store F D}

/-! ### The invariant -/

/-- What the state of an instrument says about its recorded recommendations. -/
structure Grounded (history : List (Recommendation F D)) (state : State F) : Prop where
  /-- The anchor is the first of them. -/
  anchor : ∃ first, history.head? = some first ∧
    state.anchorRecommendationId = some first.recommendationId
  /-- The latest is one of them. -/
  latest : ∃ r ∈ history, r.recommendationId = state.latestRecommendationId
  /-- Invalidated means under exit review. -/
  review : state.longTermState = .invalidated → state.currentLongAction = .exitReview

/-- Every state is grounded, and an instrument without one has no recommendation. -/
structure StoreLaw (db : Store F D) : Prop where
  grounded : ∀ key state, db.states key = some state →
    Grounded (ofInstrument key db.history) state
  unrecorded : ∀ key, db.states key = none → ofInstrument key db.history = []

omit [PyFloat F] [DecidableEq D] in
theorem StoreLaw.empty : StoreLaw (Store.empty : Store F D) :=
  ⟨fun _ _ h => by simp [Store.empty, Table.empty] at h, fun _ _ => rfl⟩

omit [PyFloat F] [DecidableEq D] in
theorem Store.previous_id {old : Option (State F)} {latest : Recommendation F D}
    (h : db.previous old = some latest) :
    ∃ state, old = some state ∧ latest.recommendationId = state.latestRecommendationId := by
  obtain ⟨state, hstate, hrecorded⟩ := bind_eq_some_iff.mp h
  exact ⟨state, hstate, (recorded_id hrecorded).2⟩

/-- The prepared state of a snapshot is grounded in the history it leaves. -/
theorem prepareSnapshot_grounded (hlaw : StoreLaw db) (now : String)
    (freshId : RecommendationId) (s : Snapshot F) :
    Grounded (ofInstrument s.globalInstrumentId db.history ++
        (prepareSnapshot digests db now freshId s).recommendation.toList)
      (prepareSnapshot digests db now freshId s).state := by
  have hreview : (prepareSnapshot digests db now freshId s).state.longTermState = .invalidated →
      (prepareSnapshot digests db now freshId s).state.currentLongAction = .exitReview :=
    fun h => lifecycle_invalidated h
  cases hold : db.states s.globalInstrumentId with
  | none =>
      -- The instrument's first recommendation: it is recorded and is its own anchor.
      have hprevious : db.previous (db.states s.globalInstrumentId) = none := by
        rw [hold]
        rfl
      rcases prepareSnapshot_cases digests db now freshId s with
        ⟨latest, hlatest, -⟩ | ⟨-, hrec, hlatest⟩
      · rw [hprevious] at hlatest
        cases hlatest
      · have hanchor : (prepareSnapshot digests db now freshId s).state.anchorRecommendationId
            = some (prepareSnapshot digests db now freshId s).state.latestRecommendationId := by
          simp only [prepareSnapshot, hold]
        rw [hrec, hlaw.unrecorded _ hold]
        refine ⟨⟨_, rfl, ?_⟩, ⟨_, mem_singleton_self _, hlatest.symm⟩, hreview⟩
        rw [hanchor, hlatest]
  | some state =>
      obtain ⟨⟨first, hfirst, hanchor⟩, ⟨r, hr, hrlatest⟩, -⟩ := hlaw.grounded _ state hold
      have hkept : (prepareSnapshot digests db now freshId s).state.anchorRecommendationId
          = some first.recommendationId := by
        simp only [prepareSnapshot, hold, hanchor, getD_some]
      refine ⟨⟨first, ?_, hkept⟩, ?_, hreview⟩
      · rw [head?_append, hfirst]
        rfl
      · rcases prepareSnapshot_cases digests db now freshId s with
          ⟨latest, hprevious, -, -, hlatest⟩ | ⟨-, hrec, hlatest⟩
        · obtain ⟨found, hfound, hid⟩ := Store.previous_id hprevious
          rw [hold, some.injEq] at hfound
          subst hfound
          exact ⟨r, mem_append_left _ hr, by rw [hlatest, hid, hrlatest]⟩
        · rw [hrec]
          exact ⟨_, mem_append_right _ (mem_singleton_self _), hlatest.symm⟩

/-- One cycle keeps the law. -/
theorem StoreLaw.runCycle (hlaw : StoreLaw db) {cycle : ProductionCycle F}
    (hdistinct : cycle.Distinct) : StoreLaw (runCycle digests uuid4 db cycle) := by
  constructor
  · intro key state hstate
    rcases runCycle_instrument digests uuid4 db hdistinct key with
      ⟨-, hstates, hhistory⟩ | ⟨s, -, rfl, n, -, hstates, hhistory⟩
    · rw [hstates] at hstate
      rw [hhistory]
      exact hlaw.grounded key state hstate
    · rw [hstates, some.injEq] at hstate
      subst hstate
      rw [hhistory]
      exact prepareSnapshot_grounded hlaw _ _ s
  · intro key hnone
    rcases runCycle_instrument digests uuid4 db hdistinct key with
      ⟨-, hstates, hhistory⟩ | ⟨s, -, rfl, n, -, hstates, -⟩
    · rw [hstates] at hnone
      rw [hhistory]
      exact hlaw.unrecorded key hnone
    · rw [hstates] at hnone
      cases hnone

theorem exec_eq_some {cycle : ProductionCycle F}
    (h : exec digests uuid4 db cycle = some ((), db')) :
    cycle.Distinct ∧ db' = runCycle digests uuid4 db cycle := by
  unfold exec at h
  split at h
  · rename_i hdistinct
    simp only [some.injEq, Prod.mk.injEq, true_and] at h
    exact ⟨hdistinct, h.symm⟩
  · cases h

theorem reachable_storeLaw (h : (system digests uuid4).Reachable db) : StoreLaw db := by
  refine h.invariant (I := StoreLaw) ?_ ?_
  · rintro _ rfl
    exact StoreLaw.empty
  · rintro before ⟨cycle, ⟨⟩⟩ after hlaw hstep
    obtain ⟨hdistinct, rfl⟩ := exec_eq_some hstep
    exact hlaw.runCycle hdistinct

/-! ### What a later state keeps of an earlier one -/

/-- The later state keeps the closed horizons and the anchor of the earlier one. -/
structure Keeps (earlier later : State F) : Prop where
  exited : earlier.currentShortAction = .exit →
    later.currentShortAction = .exit ∧ later.shortTermState = earlier.shortTermState
  invalidated : earlier.longTermState = .invalidated → later.longTermState = .invalidated
  anchor : later.anchorRecommendationId = earlier.anchorRecommendationId

omit [PyFloat F] in
theorem Keeps.refl (state : State F) : Keeps state state := ⟨fun h => ⟨h, rfl⟩, id, rfl⟩

omit [PyFloat F] in
theorem Keeps.trans {a b c : State F} (hab : Keeps a b) (hbc : Keeps b c) : Keeps a c := by
  refine ⟨fun h => ?_, fun h => hbc.invalidated (hab.invalidated h), hbc.anchor.trans hab.anchor⟩
  obtain ⟨hexit, hstate⟩ := hab.exited h
  obtain ⟨hexit', hstate'⟩ := hbc.exited hexit
  exact ⟨hexit', hstate'.trans hstate⟩

/-- The prepared state keeps the old one, whatever the snapshot. -/
theorem prepareSnapshot_keeps (hlaw : StoreLaw db) (now : String) (freshId : RecommendationId)
    {s : Snapshot F} {state : State F} (hold : db.states s.globalInstrumentId = some state) :
    Keeps state (prepareSnapshot digests db now freshId s).state := by
  have hprepared : (prepareSnapshot digests db now freshId s).state.toLifecycle
      = reviewState digests s (db.reference (some state)) (some state) := by
    rw [← hold]
    rfl
  refine ⟨fun hexit => ?_, fun hinvalid => ?_, ?_⟩
  · have hclosed : closedShort (some (PreviousState.stored state)) = some state.shortTermState :=
      if_pos hexit
    rw [hprepared]
    exact lifecycle_closedShort hclosed
  · have hclosed : ClosedLong (some (PreviousState.stored state)) := hinvalid
    rw [hprepared]
    exact (lifecycle_closedLong hclosed).1
  · obtain ⟨⟨first, -, hanchor⟩, -, -⟩ := hlaw.grounded _ state hold
    simp only [prepareSnapshot, hold, hanchor, getD_some]

/-- Every state is still there and keeps the earlier one. -/
def Preserves (db db' : Store F D) : Prop :=
  ∀ key state, db.states key = some state →
    ∃ later, db'.states key = some later ∧ Keeps state later

theorem runCycle_preserves (hlaw : StoreLaw db) {cycle : ProductionCycle F}
    (hdistinct : cycle.Distinct) : Preserves db (runCycle digests uuid4 db cycle) := by
  intro key state hstate
  rcases runCycle_instrument digests uuid4 db hdistinct key with
    ⟨-, hstates, -⟩ | ⟨s, -, rfl, n, -, hstates, -⟩
  · exact ⟨state, by rw [hstates, hstate], .refl state⟩
  · exact ⟨_, hstates, prepareSnapshot_keeps hlaw _ _ hstate⟩

theorem run_preserves {trace : List (ProductionCycle F × Unit)}
    (hreach : (system digests uuid4).Reachable db)
    (hrun : (system digests uuid4).Run db trace db') : Preserves db db' := by
  refine hrun.preorder (R := Preserves) (fun _ _ state h => ⟨state, h, .refl state⟩) ?_ ?_ hreach
  · intro a b c hab hbc key state hstate
    obtain ⟨mid, hmid, hkeeps⟩ := hab key state hstate
    obtain ⟨later, hlater, hkeeps'⟩ := hbc key mid hmid
    exact ⟨later, hlater, hkeeps.trans hkeeps'⟩
  · rintro before ⟨cycle, ⟨⟩⟩ after hbefore hstep
    obtain ⟨hdistinct, rfl⟩ := exec_eq_some hstep
    exact runCycle_preserves (reachable_storeLaw hbefore) hdistinct

/-! ### The law -/

/-- What holds of a stored state and of every state stored for its instrument later on. -/
structure HorizonLaw (digests : Digests F D) (uuid4 : Nat → RecommendationId)
    (db : Store F D) : Prop where
  /-- An exited short horizon stays exited in the state it was exited in; an invalidated long
  horizon stays invalidated, under exit review; the anchor does not move. -/
  later : ∀ trace db', (system digests uuid4).Run db trace db' →
    ∀ key state, db.states key = some state → ∃ later, db'.states key = some later ∧
      (state.currentShortAction = .exit →
        later.currentShortAction = .exit ∧ later.shortTermState = state.shortTermState) ∧
      (state.longTermState = .invalidated →
        later.longTermState = .invalidated ∧ later.currentLongAction = .exitReview) ∧
      later.anchorRecommendationId = state.anchorRecommendationId
  /-- The anchor is the first recommendation recorded for the instrument. -/
  anchor : ∀ key state, db.states key = some state →
    ∃ first, (ofInstrument key db.history).head? = some first ∧
      state.anchorRecommendationId = some first.recommendationId
  /-- The latest recommendation is a recorded one of the instrument. -/
  latest : ∀ key state, db.states key = some state →
    ∃ r ∈ db.history, r.globalInstrumentId = key ∧
      r.recommendationId = state.latestRecommendationId

/-- **Closed horizons never reopen and the anchor never moves, over any run of cycles.** -/
theorem horizonLaw_of_reachable (digests : Digests F D) (uuid4 : Nat → RecommendationId)
    (hreach : (system digests uuid4).Reachable db) : HorizonLaw digests uuid4 db := by
  have hlaw := reachable_storeLaw hreach
  constructor
  · intro trace db' hrun key state hstate
    obtain ⟨later, hlater, hkeeps⟩ := run_preserves hreach hrun key state hstate
    have hgrounded := (reachable_storeLaw (hrun.reachable hreach)).grounded key later hlater
    refine ⟨later, hlater, hkeeps.exited, fun hinvalid => ?_, hkeeps.anchor⟩
    exact ⟨hkeeps.invalidated hinvalid, hgrounded.review (hkeeps.invalidated hinvalid)⟩
  · intro key state hstate
    exact (hlaw.grounded key state hstate).anchor
  · intro key state hstate
    obtain ⟨r, hr, hlatest⟩ := (hlaw.grounded key state hstate).latest
    obtain ⟨hmem, hkey⟩ := mem_ofInstrument.mp hr
    exact ⟨r, hmem, hkey, hlatest⟩

/-! ### A run to look at -/

/-- Digests that keep what they digest. -/
def structuralDigests : Digests Rat (List (Payload Rat ⊕ ShortAction × LongAction)) where
  hash payload := [.inl payload]
  review base short long := .inr (short, long) :: base

/-- A snapshot with one price, one area score, and no levels to trade. -/
def plainSnapshot (snapshotId : String) (quality price : Rat) : Snapshot Rat where
  snapshotId
  globalInstrumentId := "i1"
  carried := { market := "NSE", symbol := some "ABC", companyName := none,
               generatedAt := "2026-01-01", ruleEngineVersion := none, rankerVersion := none,
               topPositiveReasons := [] }
  rankEligible := true
  opportunityScore := some 70
  opportunityConfidence := 70
  scoreCoverage := 70
  currentPrice := some price
  topNegativeReasons := []
  evidence :=
    { rule := { areaScores := [{ area := "FUNDAMENTAL_BUSINESS_QUALITY",
                                 rawScore := some quality, metrics := "[]" }],
                riskOverrides := [], evidenceReferences := [] }
      technical := { technicalState := some "UPTREND", supportLevel := none,
                     resistanceLevel := none, atr14 := none }
      valuation := { fairValue := none, bullTarget := none, invalidation := none }
      sectorState := none, missingInputs := [], staleInputs := [] }

/-- Two cycles with one snapshot each. -/
def twoCycles : List (ProductionCycle Rat) :=
  [{ now := "2026-01-01", snapshots := [plainSnapshot "s1" 70 100] },
    { now := "2026-01-02", snapshots := [plainSnapshot "s2" 10 90] }]

theorem horizonLaw_of_twoCycles :
    HorizonLaw structuralDigests id
      ((Machine.replay (exec structuralDigests id) Store.empty twoCycles).get (by decide)).2 :=
  horizonLaw_of_reachable structuralDigests id
    (Machine.replay_reachable (Option.some_get _).symm)

end InvestmentPlatform.Opportunity
