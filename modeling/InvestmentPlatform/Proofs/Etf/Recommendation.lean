/-
The gates, the recommendation, and when the two readings of the evidence agree.

A gate about drawdown, liquidity or tracking is raised on what its factor has been scored from.  The
gate about the premium compares a price with a net asset value whatever their currencies, where the
factor has refused to.
-/
import InvestmentPlatform.Lib.Selection
import InvestmentPlatform.Proofs.Etf.Better

namespace InvestmentPlatform.Etf

open Piecewise (piecewise)
open WeightedMean List Option

/-! ### The gates as conditions -/

/-- The conditions of the gates, in their order. -/
structure Conditions where
  technical : Bool
  missing : Bool
  history : Bool
  illiquid : Bool
  drawdown : Bool
  premium : Bool
  aum : Bool
  tracking : Bool
  incomplete : Bool

def conditionsOf (data : EtfRuleEngineInput) (completeness : ℚ) : Conditions where
  technical := 0 < data.readinessSummary.mandatoryTechnicalFailure
  missing := !data.readinessSummary.readyForAnalysis &&
    !decide (0 < data.readinessSummary.mandatoryTechnicalFailure)
  history := ((currentMetrics data).get .return1M).isNone
  illiquid := extremeIlliquidity data
  drawdown := excessiveDrawdown data
  premium := (quoted data).any fun values => 5 < |premium values.1 values.2|
  aum := veryLowAum data
  tracking := poorTracking data
  incomplete := completeness < 3 / 10

def Conditions.gates (c : Conditions) : List EtfRiskGate := [
    ⟨"MANDATORY_DATA_TECHNICAL_FAILURE", .technicalFailure, .blocking, c.technical,
      "One or more mandatory ETF-3 requirements (IDENTITY/MARKET_PRICE/TRADING_VOLUME) " ++
        "reported TECHNICAL_FAILURE."⟩,
    ⟨"MANDATORY_DATA_MISSING_OR_STALE", .insufficientData, .blocking, c.missing,
      "Mandatory ETF-3 requirements are not all READY_FRESH."⟩,
    ⟨"INSUFFICIENT_PRICE_HISTORY", .insufficientData, .warning, c.history,
      "Fewer than one month of usable daily closes; return-based scoring is degraded."⟩,
    ⟨"EXTREME_ILLIQUIDITY", .poorCharacteristics, .blocking, c.illiquid,
      "Fresh trading volume is below the 1,000 shares/session floor."⟩,
    ⟨"EXCESSIVE_DRAWDOWN", .poorCharacteristics, .warning, c.drawdown,
      "Trailing max drawdown is 50% or worse."⟩,
    ⟨"ABNORMAL_NAV_PREMIUM_DISCOUNT", .poorCharacteristics, .warning, c.premium,
      "Market price deviates more than 5% from NAV."⟩,
    ⟨"VERY_LOW_AUM", .poorCharacteristics, .warning, c.aum,
      "Fresh AUM evidence is below INR 10 crore."⟩,
    ⟨"POOR_TRACKING_QUALITY", .poorCharacteristics, .warning, c.tracking,
      "Fresh tracking error exceeds 2%."⟩,
    ⟨"INSUFFICIENT_COMPLETENESS", .insufficientData, .blocking, c.incomplete,
      "Fewer than 30% of factor weight had available evidence."⟩]

theorem abnormalPremium_eq (data : EtfRuleEngineInput) : abnormalPremium data =
      .ok ((quoted data).any fun values => 5 < |premium values.1 values.2|) := by
  unfold abnormalPremium quoted
  cases data.freshNav with
  | none => rfl
  | some nav =>
      cases data.freshPrice with
      | none => rfl
      | some price =>
          rw [bind_some, bind_some]
          dsimp only
          by_cases hquoted : nav.nav ≠ 0 ∧ some nav.navDate = price.asOfDate
          · rw [if_pos hquoted, if_pos hquoted, premiumPct_eq hquoted.1]
            rfl
          · rw [if_neg hquoted, if_neg hquoted]
            rfl

theorem evaluateEtfRiskGates_eq (data : EtfRuleEngineInput) (result : EtfRuleEngineResult) :
    evaluateEtfRiskGates data result = .ok (conditionsOf data result.dataCompleteness).gates := by
  unfold evaluateEtfRiskGates
  rw [abnormalPremium_eq]
  rfl

/-! ### The recommendation as a verdict -/

/-- The recommendation of a score under a number of warnings. -/
def verdict (warnings : Nat) (score : ℚ) : EtfRecommendation :=
  if 2 ≤ warnings then (if score < 50 then .avoid else .watch)
  else if 75 ≤ score then (if warnings = 0 then .strongOpportunity else .opportunity)
  else if 60 ≤ score then .opportunity
  else if 40 ≤ score then .watch
  else .avoid

/-- The warnings that are raised beside the blocking gates. -/
def Conditions.warnings (c : Conditions) : Nat :=
  c.drawdown.toNat + c.premium.toNat + c.aum.toNat + c.tracking.toNat

section
variable (c : Conditions)

theorem Conditions.any_technical : (c.gates.any fun gate =>
    gate.triggered && gate.category = .technicalFailure) = c.technical := by
  simp [Conditions.gates]

theorem Conditions.any_insufficient : (c.gates.any fun gate => gate.triggered &&
    gate.category = .insufficientData && gate.severity = .blocking) =
      (c.missing || c.incomplete) := by
  simp [Conditions.gates]

theorem Conditions.any_poor : (c.gates.any fun gate => gate.triggered &&
    gate.category = .poorCharacteristics && gate.severity = .blocking) = c.illiquid := by
  simp [Conditions.gates]

theorem Conditions.countP_poor : (c.gates.countP fun gate => gate.triggered &&
    gate.category = .poorCharacteristics) = c.illiquid.toNat + c.warnings := by
  obtain ⟨technical, missing, history, illiquid, drawdown, premium, aum, tracking, incomplete⟩ := c
  unfold Conditions.gates Conditions.warnings
  simp only [countP_cons, countP_nil, reduceCtorEq, decide_false, decide_true,
    Bool.and_false, Bool.and_true, Bool.false_eq_true, if_false, add_zero, zero_add]
  cases illiquid <;> cases drawdown <;> cases premium <;> cases aum <;> cases tracking <;> rfl

end

theorem deriveEtfRecommendation_eq {result : EtfRuleEngineResult} {score : ℚ} (c : Conditions)
    (h : result.overallScore = some score) :
    deriveEtfRecommendation result c.gates =
      if c.technical || c.missing || c.incomplete then .insufficientData
      else if c.illiquid then .avoid
      else verdict c.warnings score := by
  unfold deriveEtfRecommendation
  rw [h, c.any_technical, c.any_insufficient, c.any_poor, c.countP_poor]
  cases c.illiquid with
  | true => cases c.technical <;> cases c.missing <;> cases c.incomplete <;> rfl
  | false =>
      rw [Bool.toNat_false, zero_add]
      cases c.technical <;> cases c.missing <;> cases c.incomplete <;> rfl

/-- How good a recommendation is; without data there is none. -/
def EtfRecommendation.rank : EtfRecommendation → Option Nat
  | .strongOpportunity => some 3
  | .opportunity => some 2
  | .watch => some 1
  | .avoid => some 0
  | .insufficientData => none

/-- The rank of a verdict. -/
def level (warnings : Nat) (score : ℚ) : Nat :=
  if 2 ≤ warnings then (if score < 50 then 0 else 1)
  else if 75 ≤ score then (if warnings = 0 then 3 else 2)
  else if 60 ≤ score then 2
  else if 40 ≤ score then 1
  else 0

theorem verdict_rank (warnings : Nat) (score : ℚ) :
    (verdict warnings score).rank = some (level warnings score) := by
  unfold verdict level
  split_ifs <;> rfl

/-- Fewer warnings and a higher score are no worse. -/
theorem level_mono {warnings warnings' : Nat} {score score' : ℚ} (hwarnings : warnings' ≤ warnings)
    (hscore : score ≤ score') : level warnings score ≤ level warnings' score' := by
  unfold level
  split_ifs <;> first | omega | (exfalso; linarith)

/-! ### What a recommendation is held to -/

/-- The raised gate has read what a factor has been scored from. -/
def Supported (results : List EtfFactorScoreResult) (gates : List EtfRiskGate) (gateId : String)
    (factor : EtfRuleEngineFactor) (label : String) (poor : ℚ → Prop) : Prop :=
  ∀ gate ∈ gates, gate.gateId = gateId → gate.triggered = true →
    ∃ r ∈ results, r.factor = factor ∧ r.status = .scored ∧
      ∃ value, (label, some value) ∈ r.rawMetric ∧ poor value

/-- What the outcome of an input is held to. -/
structure Sound (data : EtfRuleEngineInput) (result : EtfRuleEngineResult)
    (gates : List EtfRiskGate) (recommendation : EtfRecommendation) : Prop where
  inRange : ∀ score ∈ result.overallScore, InRange score
  least : ∀ score ∈ result.overallScore, ∃ r ∈ result.factorResults, r.status = .scored ∧
    ∃ least ∈ r.normalizedScore, least ≤ score
  greatest : ∀ score ∈ result.overallScore, ∃ r ∈ result.factorResults, r.status = .scored ∧
    ∃ greatest ∈ r.normalizedScore, score ≤ greatest
  factors : result.factorResults.map EtfFactorScoreResult.factor = factors
  completeness : result.dataCompleteness =
    (scoredWeight result.factorResults : ℚ) / ((Etf.factors.map weight).sum : Nat)
  monotone : ∀ {data' result' gates' recommendation'}, NoWorse data data' →
    recommend data' = .ok (result', gates', recommendation') →
    Option.Rel (· ≤ ·) result.overallScore result'.overallScore ∧
      Option.Rel (· ≤ ·) recommendation.rank recommendation'.rank
  technical : (∃ gate ∈ gates, gate.triggered = true ∧ gate.category = .technicalFailure) →
    recommendation ≠ .avoid
  drawdown : Supported result.factorResults gates "EXCESSIVE_DRAWDOWN" .riskDrawdownVolatility
    "DRAWDOWN" (· ≤ -50)
  liquidity : Supported result.factorResults gates "EXTREME_ILLIQUIDITY" .liquidity "VOLUME"
    (· < 1000)
  tracking : Supported result.factorResults gates "POOR_TRACKING_QUALITY" .trackingQuality
    "TRACKING_ERROR" (2 < ·)
  premium : Supported result.factorResults gates "ABNORMAL_NAV_PREMIUM_DISCOUNT"
    .navPremiumDiscount "PREMIUM_DISCOUNT_PCT" (5 < |·|)

/-- There is an outcome, so that nothing has been divided by zero, and it is held to. -/
def EtfSound (data : EtfRuleEngineInput) : Prop :=
  ∃ result gates recommendation, recommend data = .ok (result, gates, recommendation) ∧
    Sound data result gates recommendation

/-- Fresh quotes of one date that are more than five per cent apart are in one currency. -/
def Comparable (data : EtfRuleEngineInput) : Prop :=
  ∀ values ∈ quoted data, 5 < |premium values.1 values.2| → sameCurrency values = true

/-! ### The outcome of an input -/

/-- The recommendation from the conditions and the score. -/
def recommendation (c : Conditions) (score : ℚ) : EtfRecommendation :=
  if c.technical || c.missing || c.incomplete then .insufficientData
  else if c.illiquid then .avoid
  else verdict c.warnings score

theorem recommend_ok (data : EtfRuleEngineInput) :
    ∃ result, ScoredAs data result ∧ recommend data = .ok (result,
      (conditionsOf data result.dataCompleteness).gates,
      recommendation (conditionsOf data result.dataCompleteness) (overall data)) := by
  obtain ⟨result, hresult, hscored⟩ := scoreEtf_ok data
  refine ⟨result, hscored, ?_⟩
  unfold recommend
  rw [hresult]
  show (do
    let gates ← evaluateEtfRiskGates data result
    return (result, gates, deriveEtfRecommendation result gates)) = _
  rw [evaluateEtfRiskGates_eq]
  show Except.ok _ = _
  rw [deriveEtfRecommendation_eq _ hscored.overallScore]
  rfl

section
variable {data data' : EtfRuleEngineInput}

theorem exists_result {results : List EtfFactorScoreResult}
    {scores : List (EtfRuleEngineFactor × Option ℚ)} (h : AsScored results scores)
    {p : Nat × ℚ} (hp : p ∈ counted scores) :
    ∃ r ∈ results, r.status = .scored ∧ r.normalizedScore = some p.2 := by
  obtain ⟨q, hq, hsome⟩ := mem_filterMap.mp hp
  obtain ⟨score, hscore, rfl⟩ := map_eq_some_iff.mp hsome
  obtain ⟨r, hr, hhas⟩ : ∃ r ∈ results, HasScore r q.1 q.2 := by
    clear hp hsome hscore
    induction h with
    | nil => cases hq
    | cons hhead _ ih =>
        rcases mem_cons.mp hq with rfl | hq
        · exact ⟨_, mem_cons_self, hhead⟩
        · obtain ⟨r, hr, hhas⟩ := ih hq
          exact ⟨r, mem_cons_of_mem _ hr, hhas⟩
  rw [hscore] at hhas
  exact ⟨r, hr, hhas.status, hhas.normalized⟩

theorem counted_ne_nil (data : EtfRuleEngineInput) : counted (allScores data) ≠ [] := by
  intro hnil
  have hpos := totalWeight_allScores_pos data
  rw [hnil] at hpos
  exact absurd hpos (lt_irrefl 0)

theorem counted_inRange {p : Nat × ℚ} (hp : p ∈ counted (allScores data)) : InRange p.2 := by
  obtain ⟨q, hq, hsome⟩ := mem_filterMap.mp hp
  obtain ⟨score, hscore, rfl⟩ := map_eq_some_iff.mp hsome
  exact allScores_inRange data q hq score hscore

theorem overall_inRange (data : EtfRuleEngineInput) : InRange (overall data) :=
  mean_mem (totalWeight_allScores_pos data) (fun _ hp => (counted_inRange hp).1)
    fun _ hp => (counted_inRange hp).2

/-- Some score is not above the overall score, and some is not below it. -/
theorem exists_scores (data : EtfRuleEngineInput) :
    (∃ p ∈ counted (allScores data), p.2 ≤ overall data) ∧
      ∃ p ∈ counted (allScores data), overall data ≤ p.2 := by
  have hpos := totalWeight_allScores_pos data
  have hsome : Selection.firstMin Prod.snd (counted (allScores data)) ≠ none :=
    mt Selection.firstMin_eq_none.mp (counted_ne_nil data)
  have hsome' : Selection.firstMax Prod.snd (counted (allScores data)) ≠ none :=
    mt Selection.firstMax_eq_none.mp (counted_ne_nil data)
  obtain ⟨least, hleast⟩ := ne_none_iff_exists'.mp hsome
  obtain ⟨greatest, hgreatest⟩ := ne_none_iff_exists'.mp hsome'
  obtain ⟨hmem, hle⟩ := Selection.firstMin_mem hleast
  obtain ⟨hmem', hle'⟩ := Selection.firstMax_mem hgreatest
  have hmean := mean_mem hpos hle hle'
  exact ⟨⟨least, hmem, hmean.1⟩, ⟨greatest, hmem', hmean.2⟩⟩

/-! ### No worse evidence, no worse recommendation -/

theorem any_of_rel {α β : Type} {r : α → β → Prop} {p : α → Bool} {q : β → Bool} {a : Option α}
    {b : Option β} (h : Option.Rel r a b) (hpq : ∀ x y, r x y → q y = true → p x = true) :
    b.any q ≤ a.any p := by
  cases h with
  | none => exact le_refl _
  | @some x y h =>
      rw [any_some, any_some, Bool.le_iff_imp]
      exact hpq x y h

/-- A gate is not raised where it was not. -/
theorem NoWorse.conditions (h : NoWorse data data') (completeness : ℚ) :
    (conditionsOf data' completeness).technical = (conditionsOf data completeness).technical ∧
      (conditionsOf data' completeness).missing = (conditionsOf data completeness).missing ∧
      (conditionsOf data' completeness).illiquid ≤ (conditionsOf data completeness).illiquid ∧
      (conditionsOf data' completeness).warnings ≤ (conditionsOf data completeness).warnings := by
  have hilliquid : extremeIlliquidity data' ≤ extremeIlliquidity data := by
    unfold extremeIlliquidity
    rw [h.now]
    refine any_of_rel (freshFact_rel h.tradingVolume _ _) fun fact fact' hsame hlow => ?_
    exact decide_eq_true (lt_of_le_of_lt hsame.2.2 (of_decide_eq_true hlow))
  have hdrawdown : excessiveDrawdown data' ≤ excessiveDrawdown data := by
    refine any_of_rel (h.higher (by decide)) fun value value' hle hlow => ?_
    exact decide_eq_true (hle.trans (of_decide_eq_true hlow))
  have hpremium : (Etf.quoted data').any (fun values => 5 < |Etf.premium values.1 values.2|) ≤
      (Etf.quoted data).any fun values => 5 < |Etf.premium values.1 values.2| := by
    refine any_of_rel h.quoted fun values values' hle hhigh => ?_
    exact decide_eq_true (lt_of_lt_of_le (of_decide_eq_true hhigh) hle.1)
  have haum : veryLowAum data' ≤ veryLowAum data := by
    unfold veryLowAum
    rw [h.now]
    refine any_of_rel (freshFact_rel h.aum _ _) fun fact fact' hsame hlow => ?_
    obtain ⟨hunit, hlow⟩ := of_decide_eq_true hlow
    exact decide_eq_true ⟨hsame.2.1 ▸ hunit, lt_of_le_of_lt hsame.2.2 hlow⟩
  have htracking : poorTracking data' ≤ poorTracking data := by
    unfold poorTracking
    rw [h.now]
    refine any_of_rel (freshFact_rel h.trackingError _ _) fun fact fact' hsame hhigh => ?_
    exact decide_eq_true (lt_of_lt_of_le (of_decide_eq_true hhigh) hsame.2.2)
  refine ⟨?_, ?_, hilliquid, ?_⟩
  · show decide _ = decide _
    rw [h.readinessSummary]
  · show (!data'.readinessSummary.readyForAnalysis && _) = _
    rw [h.readinessSummary]
    rfl
  · exact Nat.add_le_add (Nat.add_le_add (Nat.add_le_add (Bool.toNat_le_toNat hdrawdown)
      (Bool.toNat_le_toNat hpremium)) (Bool.toNat_le_toNat haum)) (Bool.toNat_le_toNat htracking)

theorem recommendation_mono {c c' : Conditions} {score score' : ℚ}
    (htechnical : c'.technical = c.technical) (hmissing : c'.missing = c.missing)
    (hincomplete : c'.incomplete = c.incomplete) (hilliquid : c'.illiquid ≤ c.illiquid)
    (hwarnings : c'.warnings ≤ c.warnings) (hscore : score ≤ score') :
    Option.Rel (· ≤ ·) (recommendation c score).rank (recommendation c' score').rank := by
  unfold recommendation
  rw [htechnical, hmissing, hincomplete]
  split
  · exact Option.Rel.none
  · cases hold : c.illiquid with
    | true =>
        rw [if_pos rfl]
        split
        · exact Option.Rel.some (le_refl 0)
        · rw [verdict_rank]
          exact Option.Rel.some (Nat.zero_le _)
    | false =>
        rw [hold] at hilliquid
        rw [if_neg Bool.false_ne_true, le_bot_iff.mp hilliquid, verdict_rank]
        show Option.Rel _ _ (verdict c'.warnings score').rank
        rw [verdict_rank]
        exact Option.Rel.some (level_mono hwarnings hscore)

/-! ### Gates and factors -/

/-- A gate of the list is the one of its identifier. -/
theorem triggered_of_mem {c : Conditions} {gate : EtfRiskGate} (hgate : gate ∈ c.gates)
    (htriggered : gate.triggered = true) :
    (gate.gateId = "EXCESSIVE_DRAWDOWN" → c.drawdown = true) ∧
      (gate.gateId = "EXTREME_ILLIQUIDITY" → c.illiquid = true) ∧
      (gate.gateId = "POOR_TRACKING_QUALITY" → c.tracking = true) ∧
      (gate.gateId = "ABNORMAL_NAV_PREMIUM_DISCOUNT" → c.premium = true) ∧
      (gate.category = .technicalFailure → c.technical = true) := by
  unfold Conditions.gates at hgate
  simp only [mem_cons, not_mem_nil, or_false] at hgate
  rcases hgate with rfl | rfl | rfl | rfl | rfl | rfl | rfl | rfl | rfl <;> simp_all

theorem average_isSome {l : List ℚ} (h : l ≠ []) : (average l).isSome = true := by
  unfold average
  rw [if_neg h]
  rfl

/-- A factor that has a score lists its raw metric. -/
theorem Lists.scored {results : List EtfFactorScoreResult} {factor : EtfRuleEngineFactor}
    {score : Option ℚ} {rawMetric : List (String × Option ℚ)}
    (h : Lists results factor score rawMetric) (hsome : score.isSome = true) :
    ∃ r ∈ results, r.factor = factor ∧ r.status = .scored ∧ r.rawMetric = rawMetric := by
  obtain ⟨r, hr, hhas, hraw⟩ := h
  have hstatus := hhas.status
  rw [if_pos hsome] at hstatus
  exact ⟨r, hr, hhas.of, hstatus, hraw hstatus⟩

variable {result : EtfRuleEngineResult}

section

variable (h : ScoredAs data result)
include h

theorem drawdown_supported (completeness : ℚ) :
    Supported result.factorResults (conditionsOf data completeness).gates "EXCESSIVE_DRAWDOWN"
      .riskDrawdownVolatility "DRAWDOWN" (· ≤ -50) := by
  intro gate hgate hid htriggered
  obtain ⟨value, hvalue, hpoor⟩ := (Option.any_eq_true _ _).mp
    ((triggered_of_mem hgate htriggered).1 hid)
  have hsome : (riskScore (currentMetrics data)).isSome = true :=
    average_isSome fun hnil => by
      rw [components_eq_nil, hvalue] at hnil
      cases hnil.1
  obtain ⟨r, hr, hfactor, hstatus, hraw⟩ := h.results.risk.scored hsome
  refine ⟨r, hr, hfactor, hstatus, value, ?_, of_decide_eq_true hpoor⟩
  rw [hraw, hvalue]
  exact mem_cons_self

theorem liquidity_supported (completeness : ℚ) :
    Supported result.factorResults (conditionsOf data completeness).gates "EXTREME_ILLIQUIDITY"
      .liquidity "VOLUME" (· < 1000) := by
  intro gate hgate hid htriggered
  obtain ⟨fact, hfact, hpoor⟩ := (Option.any_eq_true _ _).mp
    ((triggered_of_mem hgate htriggered).2.1 hid)
  have hsome : (liquidityScore data).isSome = true :=
    average_isSome fun hnil => by
      rw [components_eq_nil, hfact] at hnil
      cases hnil.1
  obtain ⟨r, hr, hfactor, hstatus, hraw⟩ := h.results.liquidity.scored hsome
  refine ⟨r, hr, hfactor, hstatus, fact.value, ?_, of_decide_eq_true hpoor⟩
  rw [hraw, hfact]
  exact mem_cons_self

theorem tracking_supported (completeness : ℚ) :
    Supported result.factorResults (conditionsOf data completeness).gates "POOR_TRACKING_QUALITY"
      .trackingQuality "TRACKING_ERROR" (2 < ·) := by
  intro gate hgate hid htriggered
  obtain ⟨fact, hfact, hpoor⟩ := (Option.any_eq_true _ _).mp
    ((triggered_of_mem hgate htriggered).2.2.1 hid)
  have hsome : (trackingScore data).isSome = true :=
    average_isSome fun hnil => by
      rw [components_eq_nil, hfact] at hnil
      cases hnil.1
  obtain ⟨r, hr, hfactor, hstatus, hraw⟩ := h.results.tracking.scored hsome
  refine ⟨r, hr, hfactor, hstatus, fact.value, ?_, of_decide_eq_true hpoor⟩
  rw [hraw, hfact]
  exact mem_cons_self

/-- The premium factor of the results is scored from the premium. -/
theorem premiumScore_isSome {r : EtfFactorScoreResult}
    (hr : r ∈ result.factorResults) (hfactor : r.factor = .navPremiumDiscount)
    (hstatus : r.status = .scored) : (premiumScore data).isSome = true := by
  obtain ⟨p, hp, hhas⟩ : ∃ p ∈ allScores data, HasScore r p.1 p.2 := by
    have hscores := h.results.scores
    unfold AsScored at hscores
    generalize allScores data = scores at hscores
    generalize result.factorResults = results at hscores hr
    induction hscores with
    | nil => cases hr
    | cons hhead _ ih =>
        rcases mem_cons.mp hr with rfl | hr
        · exact ⟨_, mem_cons_self, hhead⟩
        · obtain ⟨p, hp, hhas⟩ := ih hr
          exact ⟨p, mem_cons_of_mem _ hp, hhas⟩
  have hp' : p = (.navPremiumDiscount, premiumScore data) := by
    have hof : p.1 = .navPremiumDiscount := hhas.of.symm.trans hfactor
    unfold allScores evidenceScores at hp
    simp only [cons_append, nil_append, mem_cons, not_mem_nil, or_false] at hp
    rcases hp with rfl | rfl | rfl | rfl | rfl | rfl | rfl | rfl
    case inr.inr.inr.inr.inr.inl => rfl
    all_goals cases hof
  have hscored := hhas.status
  rw [hp', hstatus] at hscored
  by_contra hnone
  rw [if_neg hnone] at hscored
  cases hscored

/-- The premium's gate is supported exactly where the quotes may be compared. -/
theorem premium_supported_iff (completeness : ℚ) :
    Supported result.factorResults (conditionsOf data completeness).gates
      "ABNORMAL_NAV_PREMIUM_DISCOUNT" .navPremiumDiscount "PREMIUM_DISCOUNT_PCT" (5 < |·|) ↔
        Comparable data := by
  constructor
  · intro hsupported values hquoted hpremium
    have hraised : (conditionsOf data completeness).premium = true :=
      (Option.any_eq_true _ _).mpr ⟨values, hquoted, decide_eq_true hpremium⟩
    obtain ⟨r, hr, hfactor, hstatus, -⟩ := hsupported
      ⟨"ABNORMAL_NAV_PREMIUM_DISCOUNT", .poorCharacteristics, .warning,
        (conditionsOf data completeness).premium, "Market price deviates more than 5% from NAV."⟩
      (by simp [Conditions.gates]) rfl hraised
    have hsome := premiumScore_isSome h hr hfactor hstatus
    unfold premiumScore at hsome
    rw [hquoted, filter_some, isSome_map] at hsome
    by_contra hdiffer
    rw [if_neg hdiffer] at hsome
    cases hsome
  · intro hcomparable gate hgate hid htriggered
    obtain ⟨values, hquoted, hpoor⟩ := (Option.any_eq_true _ _).mp
      ((triggered_of_mem hgate htriggered).2.2.2.1 hid)
    have hpremium : 5 < |premium values.1 values.2| := of_decide_eq_true hpoor
    have hsame := hcomparable values hquoted hpremium
    have hsome : (premiumScore data).isSome = true := by
      unfold premiumScore
      rw [hquoted, filter_some, if_pos hsame]
      rfl
    obtain ⟨r, hr, hfactor, hstatus, hraw⟩ := h.results.premium.scored hsome
    refine ⟨r, hr, hfactor, hstatus, premium values.1 values.2, ?_, hpremium⟩
    rw [hraw, hquoted]
    exact mem_cons_self

theorem factors_eq : result.factorResults.map EtfFactorScoreResult.factor = factors := by
  have hscores := h.results.scores
  have hfactors : (allScores data).map Prod.fst = factors := rfl
  rw [← hfactors]
  clear hfactors
  unfold AsScored at hscores
  generalize result.factorResults = results at hscores
  generalize allScores data = scores at hscores
  induction hscores with
  | nil => rfl
  | cons hhead _ ih => rw [map_cons, map_cons, hhead.of, ih]

end

end

theorem comparable_of_sound {data : EtfRuleEngineInput} (h : EtfSound data) : Comparable data := by
  obtain ⟨result, hscored, hrecommend⟩ := recommend_ok data
  obtain ⟨other, gates, recommended, hother, hsound⟩ := h
  rw [hrecommend] at hother
  cases hother
  exact (premium_supported_iff hscored _).mp hsound.premium

/-- **An outcome is bounded, monotone and gated by what it was scored from**, exactly where quotes
that lie far apart are in one currency. -/
theorem etf_sound_iff (data : EtfRuleEngineInput) : EtfSound data ↔ Comparable data := by
  constructor
  · exact comparable_of_sound
  · intro hcomparable
    obtain ⟨result, hscored, hrecommend⟩ := recommend_ok data
    obtain ⟨⟨least, hleast, hle⟩, greatest, hgreatest, hge⟩ := exists_scores data
    obtain ⟨r, hr, hstatus, hscore⟩ := exists_result hscored.results.scores hleast
    obtain ⟨r', hr', hstatus', hscore'⟩ := exists_result hscored.results.scores hgreatest
    refine ⟨result, _, _, hrecommend, ?_⟩
    exact {
      inRange := by
        rw [hscored.overallScore]
        rintro score ⟨⟩
        exact overall_inRange data
      least := by
        rw [hscored.overallScore]
        rintro score ⟨⟩
        exact ⟨r, hr, hstatus, least.2, hscore, hle⟩
      greatest := by
        rw [hscored.overallScore]
        rintro score ⟨⟩
        exact ⟨r', hr', hstatus', greatest.2, hscore', hge⟩
      factors := factors_eq hscored
      completeness := by
        rw [hscored.completeness, scoredWeight_eq hscored.results.scores]
        rfl
      monotone := by
        intro data' result' gates' recommended' hbetter hrecommend'
        obtain ⟨other, hother, hok⟩ := recommend_ok data'
        rw [hok] at hrecommend'
        cases hrecommend'
        have hcomplete : result'.dataCompleteness = result.dataCompleteness := by
          rw [hother.completeness, hscored.completeness, hbetter.totalWeight]
        rw [hscored.overallScore, hother.overallScore, hcomplete]
        obtain ⟨htechnical, hmissing, hilliquid, hwarnings⟩ :=
          hbetter.conditions result.dataCompleteness
        exact ⟨Option.Rel.some hbetter.overall_le, recommendation_mono htechnical hmissing rfl
          hilliquid hwarnings hbetter.overall_le⟩
      technical := by
        rintro ⟨gate, hgate, htriggered, hcategory⟩
        unfold recommendation
        rw [(triggered_of_mem hgate htriggered).2.2.2.2 hcategory]
        exact fun hc => by cases hc
      drawdown := drawdown_supported hscored _
      liquidity := liquidity_supported hscored _
      tracking := tracking_supported hscored _
      premium := (premium_supported_iff hscored _).mpr hcomparable }

/-! ### A price in dollars -/

/-- A fund at 100 rupees, quoted at 120 dollars on the same day. -/
def dollarQuote : EtfRuleEngineInput where
  readinessSummary := ⟨0, true⟩
  metrics := ⟨none, fun _ => none⟩
  nav := some ⟨100, "INR", 0⟩
  marketPriceFact := some ⟨120, some "USD", some 0, "NSE"⟩
  tradingVolumeFact := none
  bidAskSpreadFact := none
  trackingErrorFact := none
  trackingDifferenceFact := none
  expenseRatioFact := none
  aumFact := none
  holdings := none
  now := 0

/-- The gate is raised on quotes in two currencies, from which nothing has been scored. -/
theorem dollar_premium_raised :
    ((recommend dollarQuote).toOption.map fun outcome =>
      (outcome.2.1.any fun gate =>
          gate.gateId = "ABNORMAL_NAV_PREMIUM_DISCOUNT" && gate.triggered,
        (outcome.1.factorResults.find? (·.factor = .navPremiumDiscount)).bind
          EtfFactorScoreResult.reason)) =
      some (true, some "NAV_AND_MARKET_PRICE_CURRENCY_MISMATCH") ∧ ¬ EtfSound dollarQuote := by
  refine ⟨by decide +kernel, fun hsound => ?_⟩
  have hfar : 5 < |premium ⟨100, "INR", 0⟩ ⟨120, some "USD", some 0, "NSE"⟩| := by
    unfold premium
    norm_num
  exact absurd (comparable_of_sound hsound (⟨100, "INR", 0⟩, ⟨120, some "USD", some 0, "NSE"⟩)
    rfl hfar) (by decide)

end InvestmentPlatform.Etf
