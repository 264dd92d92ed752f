/-
Cycles over unchanged evidence.

Once the latest recommendation of an instrument carries the fingerprint its snapshot would
get again, a cycle with the same evidence keeps that recommendation, and leaves the next
cycle in the same position.  A first cycle puts the instrument there whenever it had a state
before.  With no state before, the first cycle's recommendation is the verdict alone, and the
second cycle compares that verdict with itself: what this comparison changes is the condition.
-/
import InvestmentPlatform.Proofs.Opportunity.Horizons
import InvestmentPlatform.Proofs.Opportunity.Repeat

namespace InvestmentPlatform.Opportunity

open List Option

variable {F D : Type}

/-! ### The same evidence -/

/-- A later snapshot of the instrument with the same evidence, scores, eligibility and price. -/
structure SameEvidence (s later : Snapshot F) : Prop where
  instrument : later.globalInstrumentId = s.globalInstrumentId
  evidence : later.evidence = s.evidence
  score : later.opportunityScore = s.opportunityScore
  confidence : later.opportunityConfidence = s.opportunityConfidence
  coverage : later.scoreCoverage = s.scoreCoverage
  eligible : later.rankEligible = s.rankEligible
  price : later.currentPrice = s.currentPrice

section
variable [PyFloat F] {digests : Digests F D} {s later : Snapshot F}

/-- A comparison sees of an evaluation what is hashed of it. -/
theorem compared_payload {D' : Type} {e : Evaluation F D} {e' : Evaluation F D'}
    (comparison : Lifecycle F) (h : e.payload = e'.payload) :
    (compared e comparison).payload = (compared e' comparison).payload := by
  simp only [Evaluation.payload, Payload.mk.injEq, Prod.mk.injEq] at h
  obtain ⟨hkey, ⟨hnew, hholder, -, -⟩, hprice, hlevels, hevidence, hscores⟩ := h
  unfold compared
  split_ifs <;>
    simp only [Evaluation.payload, hkey, hnew, hholder, hprice, hlevels, hevidence, hscores]

/-- What the policy decides and hashes is the same. -/
theorem SameEvidence.payload (h : SameEvidence s later) (reference : Option (Evaluation F D)) :
    (reviewed later reference).payload = (reviewed s reference).payload := by
  cases s
  cases later
  obtain ⟨rfl, rfl, rfl, rfl, rfl, rfl, rfl⟩ := h
  cases reference with
  | none => rfl
  | some previous => exact compared_payload _ rfl

/-- So is the comparison stored, and the fingerprint. -/
theorem SameEvidence.reviewState (h : SameEvidence s later) (reference : Option (Evaluation F D))
    (old : Option (State F)) :
    Opportunity.reviewState digests later reference old
      = Opportunity.reviewState digests s reference old := by
  have hactions := congrArg Payload.actions (h.payload reference)
  simp only [Evaluation.payload, Prod.mk.injEq] at hactions
  obtain ⟨-, -, hshort, hlong⟩ := hactions
  have hlevels : (reviewed later reference).levels = (reviewed s reference).levels :=
    congrArg Payload.ranges (h.payload reference)
  have hprice : (reviewed later reference).priceAtRecommendation
      = (reviewed s reference).priceAtRecommendation := by
    rw [(reviewed_rest later reference).2.2.2.2.1, (reviewed_rest s reference).2.2.2.2.1, h.price]
  unfold Opportunity.reviewState lifecycle evaluate
  cases reference with
  | none => simp only [getD_none, hshort, hlong, hlevels, hprice, h.price]
  | some previous => simp only [getD_some, hshort, hlong, h.price]

theorem SameEvidence.fingerprint (h : SameEvidence s later)
    (reference : Option (Evaluation F D)) (old : Option (State F)) :
    (finalRecommendation digests later reference old).fingerprint
      = (finalRecommendation digests s reference old).fingerprint := by
  unfold finalRecommendation evaluate
  simp only [h.reviewState, h.payload]

/-- The fingerprint with the state a comparison left is the one the comparison was given. -/
theorem finalRecommendation_again {anchor : Evaluation F D} {old state : State F}
    (hstate : state.toLifecycle = reviewState digests s (some anchor) (some old)) :
    (finalRecommendation digests s (some anchor) (some state)).fingerprint
      = (finalRecommendation digests s (some anchor) (some old)).fingerprint := by
  obtain ⟨hshort, hlong⟩ := lifecycle_again hstate
  have hshort' := hshort.trans (congrArg Lifecycle.currentShortAction hstate)
  have hlong' := hlong.trans (congrArg Lifecycle.currentLongAction hstate)
  exact congrArg₂ (digests.review _) hshort' hlong'

end

/-! ### Looking recommendations up -/

/-- The identifiers of the history are those drawn, in order. -/
def Numbered (uuid4 : Nat → RecommendationId) (db : Store F D) : Prop :=
  db.history.map Recommendation.recommendationId = (range db.drawn).map uuid4

section
variable {db : Store F D} {uuid4 : Nat → RecommendationId}

/-- With distinct identifiers, every recorded recommendation is found under its own. -/
theorem Numbered.recorded (hnumbered : Numbered uuid4 db) (huuid : Function.Injective uuid4)
    {r : Recommendation F D} (hr : r ∈ db.history) :
    db.recorded r.recommendationId = some r := by
  have hnodup : (db.history.map Recommendation.recommendationId).Nodup := by
    rw [hnumbered]
    exact nodup_range.map huuid
  cases hfound : db.recorded r.recommendationId with
  | none =>
      rw [Store.recorded, find?_eq_none] at hfound
      exact absurd (decide_eq_true rfl) (hfound r hr)
  | some found =>
      obtain ⟨hmem, hid⟩ := recorded_id hfound
      rw [inj_on_of_nodup_map hnodup hmem hr hid]

end

section
variable [PyFloat F] [DecidableEq D] {digests : Digests F D} {uuid4 : Nat → RecommendationId}
  {db : Store F D} {cycle : ProductionCycle F}

/-- The loop draws identifiers one after the other. -/
theorem prepareAll_ids (db : Store F D) (now : String) (snapshots : List (Snapshot F))
    (drawn : Nat) :
    ((prepareAll digests uuid4 db now drawn snapshots).filterMap Prepared.recommendation).map
        Recommendation.recommendationId
      = (range' drawn ((prepareAll digests uuid4 db now drawn snapshots).filterMap
          Prepared.recommendation).length).map uuid4 := by
  induction snapshots generalizing drawn with
  | nil => rfl
  | cons s rest ih =>
      rw [prepareAll]
      cases hrec : (prepareSnapshot digests db now (uuid4 drawn) s).recommendation with
      | none =>
          rw [filterMap_cons_none hrec]
          exact ih _
      | some r =>
          rw [filterMap_cons_some hrec, map_cons, length_cons, range'_succ,
            map_cons, (prepareSnapshot_recommendation hrec).2]
          exact congrArg _ (ih _)

theorem Numbered.runCycle (hnumbered : Numbered uuid4 db) :
    Numbered uuid4 (runCycle digests uuid4 db cycle) := by
  unfold Numbered Opportunity.runCycle publish
  simp only [map_append, prepareAll_ids]
  rw [hnumbered, range_eq_range', range_eq_range', ← map_append]
  rw [← range'_append_1, Nat.zero_add]

theorem reachable_numbered (h : (system digests uuid4).Reachable db) : Numbered uuid4 db := by
  refine h.invariant (I := Numbered uuid4) ?_ ?_
  · rintro _ rfl
    rfl
  · rintro before ⟨cycle, ⟨⟩⟩ after hnumbered hstep
    obtain ⟨-, rfl⟩ := exec_eq_some hstep
    exact hnumbered.runCycle

/-- A cycle does not change what an identifier names. -/
theorem runCycle_recorded {id : RecommendationId} {r : Recommendation F D}
    (h : db.recorded id = some r) : (runCycle digests uuid4 db cycle).recorded id = some r := by
  unfold Store.recorded runCycle publish at *
  rw [find?_append, h]
  rfl

/-- The reference of an instrument with a state is its anchor, and a cycle keeps it. -/
theorem StoreLaw.reference (digests : Digests F D) (uuid4 : Nat → RecommendationId)
    (cycle : ProductionCycle F) (hlaw : StoreLaw db) {key : InstrumentId} {state : State F}
    (hstate : db.states key = some state) :
    ∃ anchor, db.reference (some state) = some anchor ∧
      ∀ later : State F, later.anchorRecommendationId = state.anchorRecommendationId →
        (Opportunity.runCycle digests uuid4 db cycle).reference (some later) = some anchor := by
  obtain ⟨⟨first, hfirst, hanchor⟩, -, -⟩ := hlaw.grounded key state hstate
  have hmem : first ∈ db.history :=
    (mem_ofInstrument.mp (mem_of_mem_head? (mem_def.mpr hfirst))).1
  cases hfound : db.recorded first.recommendationId with
  | none =>
      rw [Store.recorded, find?_eq_none] at hfound
      exact absurd (decide_eq_true rfl) (hfound first hmem)
  | some anchor =>
      refine ⟨anchor.toEvaluation, ?_, fun later hlater => ?_⟩
      · simp only [Store.reference, Store.anchor, bind_some, hanchor, hfound, some_or, map_some]
      · simp only [Store.reference, Store.anchor, bind_some, hlater, hanchor,
          runCycle_recorded hfound, some_or, map_some]

/-! ### Settled instruments -/

/-- The latest recommendation of the snapshot's instrument has the fingerprint that the
snapshot would get again. -/
def Settled (digests : Digests F D) (db : Store F D) (s : Snapshot F) : Prop :=
  ∃ state latest, db.states s.globalInstrumentId = some state ∧
    db.previous (some state) = some latest ∧
    latest.fingerprint
      = (finalRecommendation digests s (db.reference (some state)) (some state)).fingerprint

/-- Nothing is added to the instrument's history and its latest recommendation is the same. -/
def Untouched (key : InstrumentId) (db db' : Store F D) : Prop :=
  ofInstrument key db'.history = ofInstrument key db.history ∧
    (db'.states key).map State.latestRecommendationId
      = (db.states key).map State.latestRecommendationId

/-- Every snapshot of the instrument in the cycle has the evidence of `s`. -/
def Agrees (s : Snapshot F) (cycle : ProductionCycle F) : Prop :=
  ∀ later ∈ cycle.snapshots, later.globalInstrumentId = s.globalInstrumentId →
    SameEvidence s later

theorem Store.previous_runCycle {old later : State F} {latest : Recommendation F D}
    (h : db.previous (some old) = some latest)
    (hlater : later.latestRecommendationId = old.latestRecommendationId) :
    (runCycle digests uuid4 db cycle).previous (some later) = some latest := by
  rw [Store.previous, bind_some, hlater]
  exact runCycle_recorded h

/-- **A cycle with the same evidence leaves a settled instrument alone, and settled.** -/
theorem Settled.runCycle {s : Snapshot F} (hlaw : StoreLaw db) (hsettled : Settled digests db s)
    (hdistinct : cycle.Distinct) (hagrees : Agrees s cycle) :
    Settled digests (runCycle digests uuid4 db cycle) s ∧
      Untouched s.globalInstrumentId db (Opportunity.runCycle digests uuid4 db cycle) := by
  obtain ⟨old, latest, hold, hlatest, hsame⟩ := hsettled
  obtain ⟨anchor, hanchor, hkept⟩ := hlaw.reference digests uuid4 cycle hold
  rcases runCycle_instrument digests uuid4 db hdistinct s.globalInstrumentId with
    ⟨-, hstates, hhistory⟩ | ⟨later, hmem, hkey, n, -, hstates, hhistory⟩
  · refine ⟨⟨old, latest, by rw [hstates, hold], Store.previous_runCycle hlatest rfl, ?_⟩,
      hhistory, by rw [hstates]⟩
    rw [hkept old rfl, hsame, hanchor]
  · have hevidence := hagrees later hmem hkey
    rcases prepareSnapshot_cases digests db cycle.now (uuid4 n) later with
      ⟨found, hfound, -, hnone, hid⟩ | ⟨hdiffers, -, -⟩
    · rw [hkey, hold, hlatest, some.injEq] at hfound
      subst hfound
      have hlatestId :
          (prepareSnapshot digests db cycle.now (uuid4 n) later).state.latestRecommendationId
            = old.latestRecommendationId := by
        obtain ⟨state, hstate, hrecorded⟩ := Store.previous_id hlatest
        rw [some.injEq] at hstate
        rw [hid, hrecorded, hstate]
      have hcompared : (prepareSnapshot digests db cycle.now (uuid4 n) later).state.toLifecycle
          = reviewState digests s (some anchor) (some old) := by
        rw [prepareSnapshot_lifecycle, hkey, hold, hanchor, hevidence.reviewState]
      refine ⟨⟨_, latest, hstates, Store.previous_runCycle hlatest hlatestId, ?_⟩, ?_, ?_⟩
      · rw [hkept _ (prepareSnapshot_keeps hlaw _ _ (by rw [hkey, hold])).anchor,
          finalRecommendation_again hcompared, hsame, hanchor]
      · rw [hhistory, hnone]
        exact append_nil _
      · rw [hstates, hold, map_some, map_some, hlatestId]
    · refine absurd ?_ (hdiffers latest (by rw [hkey, hold, hlatest]))
      rw [hkey, hold, hevidence.fingerprint, hsame]

/-- After a cycle the instrument's latest recommendation is found, and carries the
fingerprint its snapshot was just given. -/
theorem runCycle_latest (digests : Digests F D) {s : Snapshot F} (hnumbered : Numbered uuid4 db)
    (huuid : Function.Injective uuid4) (hdistinct : cycle.Distinct) (hs : s ∈ cycle.snapshots) :
    ∃ n, ∃ latest : Recommendation F D,
      (runCycle digests uuid4 db cycle).states s.globalInstrumentId
        = some (prepareSnapshot digests db cycle.now (uuid4 n) s).state ∧
      (runCycle digests uuid4 db cycle).previous
        (some (prepareSnapshot digests db cycle.now (uuid4 n) s).state) = some latest ∧
      latest.fingerprint = (finalRecommendation digests s
        (db.reference (db.states s.globalInstrumentId))
        (db.states s.globalInstrumentId)).fingerprint ∧
      (db.states s.globalInstrumentId = none →
        latest.toEvaluation = finalRecommendation digests s none none) := by
  rcases runCycle_instrument digests uuid4 db hdistinct s.globalInstrumentId with
    ⟨hmissing, -⟩ | ⟨found, hmem, hkey, n, -, hstates, hhistory⟩
  · exact absurd rfl (hmissing s hs)
  · obtain rfl : found = s := inj_on_of_nodup_map hdistinct hmem hs hkey
    rcases prepareSnapshot_cases digests db cycle.now (uuid4 n) found with
      ⟨latest, hlatest, hsame, -, hid⟩ | ⟨-, hrec, hid⟩
    · obtain ⟨old, hold, hrecorded⟩ := Store.previous_id hlatest
      refine ⟨n, latest, hstates, ?_, hsame, fun hnone => ?_⟩
      · rw [hold] at hlatest
        exact Store.previous_runCycle hlatest (by rw [hid, hrecorded])
      · rw [hnone] at hold
        cases hold
    · obtain ⟨latest, hlatest, hfinal, hid'⟩ : ∃ r : Recommendation F D,
          (prepareSnapshot digests db cycle.now (uuid4 n) found).recommendation = some r ∧
          r.toEvaluation = finalRecommendation digests found
            (db.reference (db.states found.globalInstrumentId))
            (db.states found.globalInstrumentId) ∧ r.recommendationId = uuid4 n :=
        ⟨_, hrec, rfl, rfl⟩
      have hlatestMem : latest ∈ ofInstrument found.globalInstrumentId
          (runCycle digests uuid4 db cycle).history := by
        rw [hhistory, hlatest]
        exact mem_append_right _ (mem_singleton_self _)
      refine ⟨n, latest, hstates, ?_, by rw [hfinal], fun hnone => ?_⟩
      · rw [Store.previous, bind_some, hid, ← hid']
        exact Numbered.recorded hnumbered.runCycle huuid (mem_ofInstrument.mp hlatestMem).1
      · rw [hfinal, hnone]
        rfl

omit [DecidableEq D] in
/-- The first recommendation of an instrument meets its first review. -/
theorem finalRecommendation_first (hfaithful : digests.Faithful) {s : Snapshot F}
    {state : State F} (hstate : state.toLifecycle = reviewState digests s none none) :
    (finalRecommendation digests s none none).fingerprint
        = (finalRecommendation digests s (some (finalRecommendation digests s none none))
            (some state)).fingerprint ↔
      SettlesAtOnce s := by
  -- The actions the first cycle stores, under the condition.
  have hfirst : SettlesAtOnce s →
      (reviewState digests s none none).currentShortAction = shortTermAction s ∧
        (reviewState digests s none none).currentLongAction = longTermAction s := fun h =>
    SettlesAtOnce.lifecycle (evaluate digests.hash s none) (evaluate digests.hash s none) none h
      rfl rfl rfl rfl rfl (fun _ => ⟨rfl, id⟩)
  have hreviewed : (reviewed s (some (finalRecommendation digests s none none))).payload.actions
      = (verdict s).payload.actions ↔ SettlesAtOnce s :=
    reviewed_actions rfl rfl (fun h => (hfirst h).1)
  constructor
  · intro h
    obtain ⟨hbase, -, -⟩ := hfaithful.review _ _ _ _ _ _ h
    exact hreviewed.mp (hfaithful.hash _ _ hbase).symm
  · intro h
    have hactions := hreviewed.mpr h
    have hpayload : (reviewed s (some (finalRecommendation digests s none none))).payload
        = (verdict s).payload := by
      obtain ⟨hkey, hscore, hconfidence, hcoverage, hprice, hlevels, hevidence⟩ :=
        reviewed_rest s (some (finalRecommendation digests s none none))
      unfold Evaluation.payload at hactions ⊢
      simp only at hactions ⊢
      rw [hactions, hkey, hscore, hconfidence, hcoverage, hprice, hlevels, hevidence]
      rfl
    simp only [Evaluation.payload, Prod.mk.injEq] at hactions
    obtain ⟨-, -, hshort, hlong⟩ := hactions
    obtain ⟨hshortFirst, hlongFirst⟩ := hfirst h
    -- The actions of the second cycle: the same, since the stored state closed nothing.
    obtain ⟨hshortNext, hlongNext⟩ := SettlesAtOnce.lifecycle
      (finalRecommendation digests s none none)
      (evaluate digests.hash s (some (finalRecommendation digests s none none)))
      (some (.stored state)) h rfl rfl hshortFirst hshort hlong (by
        intro hthesis
        obtain ⟨hshortVerdict, hlongVerdict, -⟩ := verdict_unbroken hthesis
        constructor
        · refine if_neg fun hexit => ?_
          rw [hstate, hshortFirst] at hexit
          rw [hexit] at hshortVerdict
          simp at hshortVerdict
        · intro hinvalid
          rw [ClosedLong, hstate] at hinvalid
          have hreview : (reviewState digests s none none).currentLongAction = .exitReview :=
            lifecycle_invalidated hinvalid
          rw [hlongFirst] at hreview
          rw [hreview] at hlongVerdict
          simp at hlongVerdict)
    have hfirstPrint : (finalRecommendation digests s none none).fingerprint
        = digests.review (digests.hash (verdict s).payload) (shortTermAction s)
            (longTermAction s) :=
      congrArg₂ (digests.review _) hshortFirst hlongFirst
    have hnextPrint : (finalRecommendation digests s
          (some (finalRecommendation digests s none none)) (some state)).fingerprint
        = digests.review (digests.hash
            (reviewed s (some (finalRecommendation digests s none none))).payload)
            (shortTermAction s) (longTermAction s) :=
      congrArg₂ (digests.review _) hshortNext hlongNext
    rw [hfirstPrint, hnextPrint, hpayload]

/-- **A first cycle settles an instrument that had a state, and one without a state exactly
when the first review keeps the verdict.** -/
theorem runCycle_settled {s : Snapshot F} (hlaw : StoreLaw db) (hnumbered : Numbered uuid4 db)
    (huuid : Function.Injective uuid4) (hfaithful : digests.Faithful)
    (hdistinct : cycle.Distinct) (hs : s ∈ cycle.snapshots) :
    Settled digests (Opportunity.runCycle digests uuid4 db cycle) s ↔
      (db.states s.globalInstrumentId).isSome ∨ SettlesAtOnce s := by
  obtain ⟨n, latest, hstates, hlatest, hsame, hnew⟩ :=
    runCycle_latest digests hnumbered huuid hdistinct hs
  have hprepared : (prepareSnapshot digests db cycle.now (uuid4 n) s).state.toLifecycle
      = reviewState digests s (db.reference (db.states s.globalInstrumentId))
          (db.states s.globalInstrumentId) := prepareSnapshot_lifecycle
  have hsettled : Settled digests (Opportunity.runCycle digests uuid4 db cycle) s ↔
      latest.fingerprint = (finalRecommendation digests s
        ((Opportunity.runCycle digests uuid4 db cycle).reference
          (some (prepareSnapshot digests db cycle.now (uuid4 n) s).state))
        (some (prepareSnapshot digests db cycle.now (uuid4 n) s).state)).fingerprint := by
    constructor
    · rintro ⟨state, found, hstate, hfound, h⟩
      rw [hstates, some.injEq] at hstate
      subst hstate
      rw [hlatest, some.injEq] at hfound
      rw [hfound, h]
    · exact fun h => ⟨_, latest, hstates, hlatest, h⟩
  rw [hsettled]
  cases hold : db.states s.globalInstrumentId with
  | some old =>
      obtain ⟨anchor, hanchor, hkept⟩ := hlaw.reference digests uuid4 cycle hold
      rw [hkept _ (prepareSnapshot_keeps hlaw _ _ hold).anchor]
      rw [hold, hanchor] at hprepared hsame
      rw [finalRecommendation_again hprepared]
      simp [hsame]
  | none =>
      rw [hold] at hprepared
      have hreference : (Opportunity.runCycle digests uuid4 db cycle).reference
          (some (prepareSnapshot digests db cycle.now (uuid4 n) s).state)
            = some (finalRecommendation digests s none none) := by
        -- The state's anchor is its latest recommendation, the one just recorded.
        have hanchor : (Opportunity.runCycle digests uuid4 db cycle).anchor
            (some (prepareSnapshot digests db cycle.now (uuid4 n) s).state) = some latest := by
          rw [← hlatest]
          simp only [Store.anchor, Store.previous, bind_some, prepareSnapshot, hold]
        rw [Store.reference, hanchor, some_or, map_some, hnew hold]
      rw [hreference, hsame, hold, isSome_none]
      simp only [Bool.false_eq_true, false_or]
      exact finalRecommendation_first hfaithful hprepared

/-! ### Running on -/

/-- However long cycles with the evidence of `s` go on, they add nothing to its instrument's
history, and the fingerprint recomputed is that of the latest recommendation. -/
def Quiet (digests : Digests F D) (uuid4 : Nat → RecommendationId) (db : Store F D)
    (s : Snapshot F) : Prop :=
  ∀ trace db', (system digests uuid4).Run db trace db' → (∀ l ∈ trace, Agrees s l.1) →
    Untouched s.globalInstrumentId db db' ∧ Settled digests db' s

theorem Settled.quiet {s : Snapshot F} (hreach : (system digests uuid4).Reachable db)
    (hsettled : Settled digests db s) : Quiet digests uuid4 db s := by
  intro trace db' hrun hagrees
  induction hrun with
  | nil => exact ⟨⟨rfl, rfl⟩, hsettled⟩
  | @cons before mid after l trace hstep _ ih =>
      obtain ⟨cycle, ⟨⟩⟩ := l
      have hmid := hreach.step hstep
      obtain ⟨hdistinct, rfl⟩ := exec_eq_some hstep
      have hagree : Agrees s cycle := hagrees _ mem_cons_self
      obtain ⟨hsettled', hhistory, hlatest⟩ :=
        Settled.runCycle (reachable_storeLaw hreach) hsettled hdistinct hagree
      obtain ⟨⟨hhistory', hlatest'⟩, hend⟩ := ih hmid hsettled' fun l hl =>
        hagrees l (mem_cons_of_mem _ hl)
      exact ⟨⟨hhistory'.trans hhistory, hlatest'.trans hlatest⟩, hend⟩

/-- **After a first cycle, repeating the evidence adds no history exactly when the instrument
had a state before it, or the first review keeps the verdict.** -/
theorem quiet_iff (digests : Digests F D) (uuid4 : Nat → RecommendationId)
    (huuid : Function.Injective uuid4) (hfaithful : digests.Faithful)
    (hreach : (system digests uuid4).Reachable db) (hdistinct : cycle.Distinct)
    {s : Snapshot F} (hs : s ∈ cycle.snapshots) :
    Quiet digests uuid4 (Opportunity.runCycle digests uuid4 db cycle) s ↔
      (db.states s.globalInstrumentId).isSome ∨ SettlesAtOnce s := by
  rw [← runCycle_settled (reachable_storeLaw hreach) (reachable_numbered hreach) huuid hfaithful
    hdistinct hs]
  constructor
  · intro h
    exact (h [] _ (Machine.Run.nil _) (by simp)).2
  · intro h
    have hstep : (system digests uuid4).step db (cycle, ())
        (Opportunity.runCycle digests uuid4 db cycle) := if_pos hdistinct
    exact h.quiet (hreach.step hstep)

end

/-! ### Two snapshots to look at -/

theorem structuralDigests_faithful : structuralDigests.Faithful where
  hash payload payload' h := by
    simp only [structuralDigests, List.cons.injEq, Sum.inl.injEq, and_true] at h
    rw [h]
  review base base' short short' long long' h := by
    simp only [structuralDigests, List.cons.injEq, Sum.inr.injEq, Prod.mk.injEq] at h
    exact ⟨h.2, h.1.1, h.1.2⟩

/-- A good business at an unremarkable price settles at once. -/
theorem quiet_of_holding :
    Quiet structuralDigests id
      (runCycle structuralDigests id Store.empty ⟨"2026-01-01", [plainSnapshot "s1" 70 100]⟩)
      (plainSnapshot "s1" 70 100) :=
  (quiet_iff structuralDigests id Function.injective_id structuralDigests_faithful
    (Machine.Reachable.init rfl) (by decide) (List.mem_singleton_self _)).mpr
    (Or.inr (by decide))

/-- With one weak area the verdict reduces, and only the review tells the holder so: the
second cycle records the same evidence again. -/
theorem reduction_recorded_twice :
    ((runCycle structuralDigests id
          (runCycle structuralDigests id Store.empty
            ⟨"2026-01-01", [plainSnapshot "s1" 10 100]⟩)
          ⟨"2026-01-02", [plainSnapshot "s2" 10 100]⟩).history.map
        fun r => (r.recommendationId, r.existingHolderAction))
      = [(0, .hold), (1, .reduce)] ∧
    ¬ Quiet structuralDigests id
        (runCycle structuralDigests id Store.empty
          ⟨"2026-01-01", [plainSnapshot "s1" 10 100]⟩)
        (plainSnapshot "s1" 10 100) := by
  refine ⟨by decide, fun h => ?_⟩
  have hagrees : Agrees (plainSnapshot "s1" 10 100)
      ⟨"2026-01-02", [plainSnapshot "s2" 10 100]⟩ := by
    intro later hlater _
    rw [List.mem_singleton.mp hlater]
    exact ⟨rfl, rfl, rfl, rfl, rfl, rfl, rfl⟩
  obtain ⟨⟨hhistory, -⟩, -⟩ := h [(⟨"2026-01-02", [plainSnapshot "s2" 10 100]⟩, ())] _
    (Machine.Run.cons (if_pos (by decide)) (Machine.Run.nil _)) (by simpa using hagrees)
  exact absurd (congrArg (List.map Recommendation.recommendationId) hhistory) (by decide)

end InvestmentPlatform.Opportunity
