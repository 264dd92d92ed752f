/-
What the comparison keeps of a closed horizon.

The overrides at the end of `lifecycle` read two fields of the previous state.  Whatever the
price, the levels and the policy say, a closed short horizon comes out closed in the state
it was closed in, and an invalidated long horizon comes out invalidated and under review.
-/
import InvestmentPlatform.Opportunity.Cycle

namespace InvestmentPlatform.Opportunity

variable {F D D' : Type} [PyFloat F] {anchor : Evaluation F D} {recommendation : Evaluation F D'}
  {price : Option F} {previous : Option (PreviousState F)}

/-! ### Closed horizons -/

theorem lifecycle_closedShort {state : PositionState} (h : closedShort previous = some state) :
    (lifecycle anchor recommendation price previous).currentShortAction = .exit ∧
      (lifecycle anchor recommendation price previous).shortTermState = state := by
  simp only [lifecycle, h]
  exact ⟨trivial, trivial⟩

theorem lifecycle_closedLong (h : ClosedLong previous) :
    (lifecycle anchor recommendation price previous).longTermState = .invalidated ∧
      (lifecycle anchor recommendation price previous).currentLongAction = .exitReview := by
  simp only [lifecycle, h, if_true]
  exact ⟨trivial, trivial⟩

/-- The long-term pass invalidates only with an exit review. -/
theorem longHorizon_invalidated {levels : Levels F} {anchorPrice : Option F} {action : LongAction}
    {reviewing : Bool}
    (h : (longHorizon levels anchorPrice action reviewing price).1 = .invalidated) :
    (longHorizon levels anchorPrice action reviewing price).2 = .exitReview := by
  unfold longHorizon at h ⊢
  split at h
  · rfl
  · rename_i hzone
    exfalso
    split at h
    · exact hzone h
    · split at h <;> exact hzone h

/-- A comparison that ends invalidated ends under exit review. -/
theorem lifecycle_invalidated
    (h : (lifecycle anchor recommendation price previous).longTermState = .invalidated) :
    (lifecycle anchor recommendation price previous).currentLongAction = .exitReview := by
  by_cases hclosed : ClosedLong previous
  · exact (lifecycle_closedLong hclosed).2
  · simp only [lifecycle, if_neg hclosed] at h ⊢
    by_cases hreview : recommendation.longTermAction = .exitReview
    · simp [hreview] at h
    · simp only [if_neg hreview] at h ⊢
      by_cases hreduce : (longHorizon anchor.levels anchor.priceAtRecommendation
          recommendation.longTermAction previous.isSome price).2 = .reduce
      · simp [hreduce] at h
      · simp only [if_neg hreduce] at h ⊢
        rw [longHorizon_invalidated h]
        simp

/-! ### The evaluation's fixed parts -/

section
variable {s : Snapshot F} {reference : Option (Evaluation F D)}

omit [PyFloat F] in
/-- The comparison rewrites actions and reasons, and nothing else. -/
theorem compared_rest (e : Evaluation F D) (comparison : Lifecycle F) :
    (compared e comparison).globalInstrumentId = e.globalInstrumentId ∧
      (compared e comparison).opportunityScore = e.opportunityScore ∧
      (compared e comparison).confidence = e.confidence ∧
      (compared e comparison).coverage = e.coverage ∧
      (compared e comparison).priceAtRecommendation = e.priceAtRecommendation ∧
      (compared e comparison).levels = e.levels ∧
      (compared e comparison).evidenceSnapshot = e.evidenceSnapshot := by
  unfold compared
  split
  · exact ⟨rfl, rfl, rfl, rfl, rfl, rfl, rfl⟩
  · split
    · exact ⟨rfl, rfl, rfl, rfl, rfl, rfl, rfl⟩
    · split <;> exact ⟨rfl, rfl, rfl, rfl, rfl, rfl, rfl⟩

theorem reviewed_rest (s : Snapshot F) (reference : Option (Evaluation F D)) :
    (reviewed s reference).globalInstrumentId = s.globalInstrumentId ∧
      (reviewed s reference).opportunityScore = s.opportunityScore ∧
      (reviewed s reference).confidence = s.opportunityConfidence ∧
      (reviewed s reference).coverage = s.scoreCoverage ∧
      (reviewed s reference).priceAtRecommendation = s.currentPrice ∧
      (reviewed s reference).levels = ranges s ∧
      (reviewed s reference).evidenceSnapshot = s.evidence := by
  cases reference with
  | none => exact ⟨rfl, rfl, rfl, rfl, rfl, rfl, rfl⟩
  | some previous => exact compared_rest _ _

end

end InvestmentPlatform.Opportunity

/-!
One cycle, seen from one instrument.

A cycle prepares every snapshot against the store it started from, so what it does to an
instrument depends on that instrument's snapshot alone: its state row is replaced by the
prepared one, and its history grows by the prepared recommendation if there is one.  An
instrument without a snapshot keeps both.
-/

namespace InvestmentPlatform.Opportunity

variable {F D : Type}

/-- The recommendations of one instrument, in the order they were recorded. -/
def ofInstrument (key : InstrumentId) (history : List (Recommendation F D)) :
    List (Recommendation F D) :=
  history.filter fun r => r.globalInstrumentId = key

theorem mem_ofInstrument {key : InstrumentId} {history : List (Recommendation F D)}
    {r : Recommendation F D} :
    r ∈ ofInstrument key history ↔ r ∈ history ∧ r.globalInstrumentId = key := by
  simp [ofInstrument]

theorem recorded_id {db : Store F D} {id : RecommendationId} {r : Recommendation F D}
    (h : db.recorded id = some r) : r ∈ db.history ∧ r.recommendationId = id := by
  unfold Store.recorded at h
  exact ⟨List.mem_of_find?_eq_some h, by simpa using List.find?_some h⟩

section
variable [PyFloat F] [DecidableEq D] {digests : Digests F D} {uuid4 : Nat → RecommendationId}
  {db : Store F D} {now : String} {freshId : RecommendationId} {s : Snapshot F}

/-! ### One snapshot -/

theorem prepareSnapshot_instrument :
    (prepareSnapshot digests db now freshId s).state.globalInstrumentId = s.globalInstrumentId :=
  rfl

/-- The comparison stored for a snapshot is the one with the reference and the old state. -/
theorem prepareSnapshot_lifecycle : (prepareSnapshot digests db now freshId s).state.toLifecycle
      = reviewState digests s (db.reference (db.states s.globalInstrumentId))
          (db.states s.globalInstrumentId) :=
  rfl

/-- A cycle keeps the latest recommendation when its fingerprint is the recomputed one, and
records a fresh one otherwise. -/
theorem prepareSnapshot_cases (digests : Digests F D) (db : Store F D) (now : String)
    (freshId : RecommendationId) (s : Snapshot F) :
    (∃ latest, db.previous (db.states s.globalInstrumentId) = some latest ∧
      latest.fingerprint = (finalRecommendation digests s
        (db.reference (db.states s.globalInstrumentId))
        (db.states s.globalInstrumentId)).fingerprint ∧
      (prepareSnapshot digests db now freshId s).recommendation = none ∧
      (prepareSnapshot digests db now freshId s).state.latestRecommendationId
        = latest.recommendationId) ∨
    ((∀ latest, db.previous (db.states s.globalInstrumentId) = some latest →
        latest.fingerprint ≠ (finalRecommendation digests s
          (db.reference (db.states s.globalInstrumentId))
          (db.states s.globalInstrumentId)).fingerprint) ∧
      (prepareSnapshot digests db now freshId s).recommendation
        = some { finalRecommendation digests s (db.reference (db.states s.globalInstrumentId))
                  (db.states s.globalInstrumentId) with
                 recommendationId := freshId, snapshotId := s.snapshotId } ∧
      (prepareSnapshot digests db now freshId s).state.latestRecommendationId = freshId) := by
  unfold prepareSnapshot
  simp only
  cases hkept : (db.previous (db.states s.globalInstrumentId)).filter fun r =>
      r.fingerprint = (finalRecommendation digests s (db.reference (db.states s.globalInstrumentId))
        (db.states s.globalInstrumentId)).fingerprint with
  | some latest =>
      obtain ⟨hlatest, hsame⟩ := Option.filter_eq_some_iff.mp hkept
      exact Or.inl ⟨latest, hlatest, by simpa using hsame, rfl, rfl⟩
  | none =>
      refine Or.inr ⟨fun latest hlatest hsame => ?_, rfl, rfl⟩
      rw [hlatest, Option.filter_some, if_pos (by simpa using hsame)] at hkept
      cases hkept

omit [DecidableEq D] in
theorem finalRecommendation_instrument (reference : Option (Evaluation F D))
    (old : Option (State F)) :
    (finalRecommendation digests s reference old).globalInstrumentId = s.globalInstrumentId :=
  (reviewed_rest s reference).1

/-- What a snapshot adds to the history is a recommendation of its own instrument. -/
theorem prepareSnapshot_recommendation {r : Recommendation F D}
    (h : (prepareSnapshot digests db now freshId s).recommendation = some r) :
    r.globalInstrumentId = s.globalInstrumentId ∧ r.recommendationId = freshId := by
  rcases prepareSnapshot_cases digests db now freshId s with ⟨_, _, _, hnone, _⟩ | ⟨_, hsome, _⟩
  · rw [h] at hnone
    cases hnone
  · rw [h, Option.some.injEq] at hsome
    subst hsome
    exact ⟨finalRecommendation_instrument _ _, rfl⟩

/-! ### One cycle -/

/-- What the loop leaves for one instrument, over any states it is put on. -/
theorem prepareAll_instrument (digests : Digests F D) (uuid4 : Nat → RecommendationId)
    (db : Store F D) (now : String) (key : InstrumentId) (snapshots : List (Snapshot F))
    (hdistinct : (snapshots.map Snapshot.globalInstrumentId).Nodup) (drawn : Nat)
    (states : Table InstrumentId (State F)) :
    (key ∉ snapshots.map Snapshot.globalInstrumentId →
      (prepareAll digests uuid4 db now drawn snapshots).foldl
          (fun states p => states.put p.state.globalInstrumentId p.state) states key
        = states key ∧
      ofInstrument key ((prepareAll digests uuid4 db now drawn snapshots).filterMap
        Prepared.recommendation) = []) ∧
    (∀ s ∈ snapshots, s.globalInstrumentId = key → ∃ n, drawn ≤ n ∧
      (prepareAll digests uuid4 db now drawn snapshots).foldl
          (fun states p => states.put p.state.globalInstrumentId p.state) states key
        = some (prepareSnapshot digests db now (uuid4 n) s).state ∧
      ofInstrument key ((prepareAll digests uuid4 db now drawn snapshots).filterMap
          Prepared.recommendation)
        = (prepareSnapshot digests db now (uuid4 n) s).recommendation.toList) := by
  induction snapshots generalizing drawn states with
  | nil => exact ⟨fun _ => ⟨rfl, rfl⟩, by simp⟩
  | cons head rest ih =>
      obtain ⟨hhead, hrest⟩ := List.nodup_cons.mp hdistinct
      -- The recommendations of the whole list: the head's, then those of the rest.
      have hsplit : ∀ n, ofInstrument key ((prepareSnapshot digests db now (uuid4 drawn) head ::
            prepareAll digests uuid4 db now n rest).filterMap Prepared.recommendation)
          = ofInstrument key
              (prepareSnapshot digests db now (uuid4 drawn) head).recommendation.toList ++
            ofInstrument key ((prepareAll digests uuid4 db now n rest).filterMap
              Prepared.recommendation) := by
        intro n
        unfold ofInstrument
        rw [← List.filter_append]
        cases hrec : (prepareSnapshot digests db now (uuid4 drawn) head).recommendation <;>
          simp [hrec]
      have hown : ofInstrument key
          (prepareSnapshot digests db now (uuid4 drawn) head).recommendation.toList
          = if head.globalInstrumentId = key then
              (prepareSnapshot digests db now (uuid4 drawn) head).recommendation.toList
            else [] := by
        cases hrec : (prepareSnapshot digests db now (uuid4 drawn) head).recommendation with
        | none => simp [ofInstrument]
        | some r =>
            have := (prepareSnapshot_recommendation hrec).1
            by_cases hkey : head.globalInstrumentId = key <;> simp [ofInstrument, this, hkey]
      unfold prepareAll
      simp only [List.foldl_cons, prepareSnapshot_instrument]
      obtain ⟨hmiss, hhit⟩ := ih hrest
        (drawn + if (prepareSnapshot digests db now (uuid4 drawn) head).recommendation.isSome
          then 1 else 0)
        (states.put head.globalInstrumentId
          (prepareSnapshot digests db now (uuid4 drawn) head).state)
      constructor
      · intro hnot
        rw [List.map_cons, List.mem_cons, not_or] at hnot
        obtain ⟨hstates, hnone⟩ := hmiss hnot.2
        rw [hstates, Table.put_ne _ _ hnot.1, hsplit, hown, if_neg (Ne.symm hnot.1), hnone]
        exact ⟨rfl, rfl⟩
      · intro s hs hkey
        rcases List.mem_cons.mp hs with rfl | hs'
        · rw [hkey] at hhead
          obtain ⟨hstates, hnone⟩ := hmiss hhead
          refine ⟨drawn, le_refl _, ?_, ?_⟩
          · rw [hstates, hkey, Table.put_self]
          · rw [hsplit, hown, if_pos hkey, hnone, List.append_nil]
        · have hne : head.globalInstrumentId ≠ key := by
            rintro rfl
            exact hhead (List.mem_map.mpr ⟨s, hs', hkey⟩)
          obtain ⟨n, hn, hstates, hrecs⟩ := hhit s hs' hkey
          refine ⟨n, by omega, hstates, ?_⟩
          rw [hsplit, hown, if_neg hne, List.nil_append, hrecs]

/-- **A cycle does to an instrument what its snapshot is prepared to, or nothing.** -/
theorem runCycle_instrument (digests : Digests F D) (uuid4 : Nat → RecommendationId)
    (db : Store F D) {cycle : ProductionCycle F} (hdistinct : cycle.Distinct)
    (key : InstrumentId) :
    ((∀ s ∈ cycle.snapshots, s.globalInstrumentId ≠ key) ∧
      (runCycle digests uuid4 db cycle).states key = db.states key ∧
      ofInstrument key (runCycle digests uuid4 db cycle).history = ofInstrument key db.history) ∨
    (∃ s ∈ cycle.snapshots, s.globalInstrumentId = key ∧ ∃ n, db.drawn ≤ n ∧
      (runCycle digests uuid4 db cycle).states key
        = some (prepareSnapshot digests db cycle.now (uuid4 n) s).state ∧
      ofInstrument key (runCycle digests uuid4 db cycle).history = ofInstrument key db.history ++
          (prepareSnapshot digests db cycle.now (uuid4 n) s).recommendation.toList) := by
  obtain ⟨hmiss, hhit⟩ := prepareAll_instrument digests uuid4 db cycle.now key cycle.snapshots
    hdistinct db.drawn db.states
  have hhistory : ofInstrument key (runCycle digests uuid4 db cycle).history
      = ofInstrument key db.history ++ ofInstrument key
          ((prepareAll digests uuid4 db cycle.now db.drawn cycle.snapshots).filterMap
            Prepared.recommendation) := List.filter_append _ _
  by_cases hkey : key ∈ cycle.snapshots.map Snapshot.globalInstrumentId
  · obtain ⟨s, hs, hkey⟩ := List.mem_map.mp hkey
    obtain ⟨n, hn, hstates, hrecs⟩ := hhit s hs hkey
    exact Or.inr ⟨s, hs, hkey, n, hn, hstates, by rw [hhistory, hrecs]⟩
  · obtain ⟨hstates, hnone⟩ := hmiss hkey
    refine Or.inl ⟨fun s hs heq => hkey (List.mem_map.mpr ⟨s, hs, heq⟩), hstates, ?_⟩
    rw [hhistory, hnone, List.append_nil]

end

end InvestmentPlatform.Opportunity
