/-
What the factors score, without what can be raised.

Every factor has an optional score, a number from 0 to 100 where the evidence is there.  The
functions of the source never divide by zero, so a factor is as its optional score says, and the
overall score is the weighted mean of the scores there are.
-/
import InvestmentPlatform.Etf.RuleEngine
import InvestmentPlatform.Lib.PyFloat
import InvestmentPlatform.Lib.WeightedMean
import Mathlib.Algebra.Order.BigOperators.Group.List

namespace InvestmentPlatform.Etf

open Piecewise (piecewise Rising Falling)
open Fallible List

/-! ### Averages -/

/-- The average of some numbers, none of none. -/
def average (l : List ℚ) : Option ℚ :=
  if l = [] then none else some (l.foldl (· + ·) 0 / l.length)

variable {l : List ℚ}

theorem mean_eq_average (hne : l ≠ []) : ∃ score, mean l = .ok score ∧ average l = some score := by
  have hlength : (l.length : ℚ) ≠ 0 := Nat.cast_ne_zero.mpr (length_pos_iff.mpr hne).ne'
  refine ⟨_, ?_, if_neg hne⟩
  unfold mean divide
  rw [if_neg hlength]

theorem foldl_add_eq_sum (l : List ℚ) : l.foldl (· + ·) 0 = l.sum := by
  rw [sum_eq_foldl]

/-- A number from 0 to 100. -/
def InRange (score : ℚ) : Prop := 0 ≤ score ∧ score ≤ 100

theorem sum_mem (h : ∀ score ∈ l, InRange score) : 0 ≤ l.sum ∧ l.sum ≤ 100 * l.length := by
  induction l with
  | nil => exact ⟨le_refl _, le_of_eq (by simp)⟩
  | cons score l ih =>
      obtain ⟨hlow, hhigh⟩ := h score mem_cons_self
      obtain ⟨ihlow, ihhigh⟩ := ih fun other hother => h other (mem_cons_of_mem score hother)
      rw [sum_cons, length_cons]
      push_cast
      constructor <;> linarith

theorem average_inRange (h : ∀ score ∈ l, InRange score) : ∀ score ∈ average l, InRange score := by
  intro score hscore
  unfold average at hscore
  split at hscore
  · cases hscore
  · rename_i hne
    cases hscore
    obtain ⟨hlow, hhigh⟩ := sum_mem h
    have hpos : (0 : ℚ) < l.length := Nat.cast_pos.mpr (length_pos_iff.mpr hne)
    rw [foldl_add_eq_sum]
    exact ⟨div_nonneg hlow hpos.le, (div_le_iff₀ hpos).mpr hhigh⟩

/-- An average grows with each of its numbers. -/
theorem average_rel {l' : List ℚ} (h : Forall₂ (· ≤ ·) l l') :
    Option.Rel (· ≤ ·) (average l) (average l') := by
  cases h with
  | nil => exact Option.Rel.none
  | @cons a b l l' hhead htail =>
      have hsum := Forall₂.sum_le_sum (Forall₂.cons hhead htail)
      have hlength := (Forall₂.cons hhead htail).length_eq
      unfold average
      rw [if_neg (cons_ne_nil a l), if_neg (cons_ne_nil b l'), foldl_add_eq_sum,
        foldl_add_eq_sum, hlength]
      exact Option.Rel.some (div_le_div_of_nonneg_right hsum (Nat.cast_nonneg _))

/-! ### A factor and its score -/

/-- The factor is as its optional score says. -/
structure HasScore (r : EtfFactorScoreResult) (factor : EtfRuleEngineFactor) (score : Option ℚ) :
    Prop where
  of : r.factor = factor
  weighs : r.weight = weight factor
  status : r.status = if score.isSome then .scored else .unavailable
  normalized : r.normalizedScore = score
  contributes : r.weightedContribution = score.map fun value : ℚ => value * weight factor / 100

theorem hasScore_unavailable (factor : EtfRuleEngineFactor) (sourceProvenance : Option String)
    (reason : String) : HasScore (unavailable factor sourceProvenance reason) factor none :=
  ⟨rfl, rfl, rfl, rfl, rfl⟩

theorem hasScore_scored (factor : EtfRuleEngineFactor) (rawMetric : List (String × Option ℚ))
    (score : ℚ) (freshness : Option Date) (sourceProvenance : String) (confidence : ℚ) :
    HasScore (scored factor rawMetric score freshness sourceProvenance confidence) factor
      (some score) :=
  ⟨rfl, rfl, rfl, rfl, rfl⟩

/-- A factor that is returned, with the score and the raw metric it has where it has one. -/
def Returns (x : Except EtfError EtfFactorScoreResult) (factor : EtfRuleEngineFactor)
    (score : Option ℚ) (rawMetric : List (String × Option ℚ)) : Prop :=
  ∃ r, x = .ok r ∧ HasScore r factor score ∧ (r.status = .scored → r.rawMetric = rawMetric)

variable {factor : EtfRuleEngineFactor}

theorem returns_scored {x : Except EtfError EtfFactorScoreResult}
    {rawMetric : List (String × Option ℚ)} {score confidence : ℚ} {freshness : Option Date}
    {sourceProvenance : String}
    (h : x = .ok (scored factor rawMetric score freshness sourceProvenance confidence)) :
    Returns x factor (some score) rawMetric :=
  ⟨_, h, hasScore_scored _ _ _ _ _ _, fun _ => rfl⟩

theorem returns_unavailable {x : Except EtfError EtfFactorScoreResult}
    {rawMetric : List (String × Option ℚ)} {sourceProvenance : Option String} {reason : String}
    (h : x = .ok (unavailable factor sourceProvenance reason)) : Returns x factor none rawMetric :=
  ⟨_, h, hasScore_unavailable _ _ _, nofun⟩

/-- The components of a factor of two. -/
def components (values : Option ℚ × Option ℚ) (score₁ score₂ : ℚ → ℚ) : List ℚ :=
  (values.1.map score₁).toList ++ (values.2.map score₂).toList

theorem components_eq_nil (values : Option ℚ × Option ℚ) (score₁ score₂ : ℚ → ℚ) :
    components values score₁ score₂ = [] ↔ values.1 = none ∧ values.2 = none := by
  obtain ⟨value₁, value₂⟩ := values
  cases value₁ <;> cases value₂ <;> simp [components]

theorem scorePair_returns {labels : String × String}
    {values : Option ℚ × Option ℚ} {score₁ score₂ : ℚ → ℚ} {freshness : Option Date}
    {sourceProvenance : String} (hsome : ¬ (values.1 = none ∧ values.2 = none)) :
    Returns (scorePair factor labels values score₁ score₂ freshness sourceProvenance) factor
      (average (components values score₁ score₂)) [(labels.1, values.1), (labels.2, values.2)] := by
  obtain ⟨score, hmean, haverage⟩ := mean_eq_average
    (mt (components_eq_nil values score₁ score₂).mp hsome)
  rw [haverage]
  apply returns_scored
  unfold scorePair
  dsimp only
  rw [show mean ((values.1.map score₁).toList ++ (values.2.map score₂).toList) = _ from hmean]
  rfl

theorem scoreFacts_returns {labels : String × String}
    {facts : Option EtfFact × Option EtfFact} {score₁ score₂ : ℚ → ℚ} {reason : String} :
    Returns (scoreFacts factor labels facts score₁ score₂ reason) factor
      (average (components (facts.1.map EtfFact.value, facts.2.map EtfFact.value) score₁ score₂))
      [(labels.1, facts.1.map EtfFact.value), (labels.2, facts.2.map EtfFact.value)] := by
  obtain ⟨fact₁, fact₂⟩ := facts
  unfold scoreFacts
  cases fact₁ with
  | some fact₁ => exact scorePair_returns fun hnone => by cases hnone.1
  | none =>
      cases fact₂ with
      | some fact₂ => exact scorePair_returns fun hnone => by cases hnone.2
      | none => exact returns_unavailable rfl

/-! ### The scores of an input -/

/-- The returns that have a value, in their order. -/
def returnsOf (metrics : EtfDeterministicMetrics) : List ℚ :=
  [EtfMetricId.return1M, .return3M, .return6M, .return1Y].filterMap metrics.get

def momentumScore (metrics : EtfDeterministicMetrics) : Option ℚ :=
  average ((returnsOf metrics).map (fun value => piecewise value returnPoints) ++
    ((metrics.get .momentum50200).map fun value => piecewise value momentumPoints).toList)

def riskScore (metrics : EtfDeterministicMetrics) : Option ℚ :=
  average (components (metrics.get .maxDrawdown, metrics.get .annualizedVolatility)
    (fun value => piecewise value drawdownPoints) fun value => piecewise value volatilityPoints)

def liquidityScore (data : EtfRuleEngineInput) : Option ℚ :=
  average (components
    ((freshFact data.tradingVolumeFact .tradingVolume data.now).map EtfFact.value,
      (freshFact data.bidAskSpreadFact .bidAskSpread data.now).map EtfFact.value)
    (fun value => piecewise value volumePoints) fun value => piecewise value spreadPoints)

def trackingScore (data : EtfRuleEngineInput) : Option ℚ :=
  average (components
    ((freshFact data.trackingErrorFact .trackingError data.now).map EtfFact.value,
      (freshFact data.trackingDifferenceFact .trackingDifference data.now).map EtfFact.value)
    (fun value => piecewise value trackingPoints) fun value => piecewise |value| trackingPoints)

def costScore (data : EtfRuleEngineInput) : Option ℚ :=
  (freshFact data.expenseRatioFact .expenseRatio data.now).map fun fact =>
    piecewise fact.value costPoints

/-- The premium of a price, in per cent of the net asset value. -/
def premium (nav : EtfNavObservation) (price : EtfFact) : ℚ :=
  (price.value - nav.nav) / nav.nav * 100

/-- The fresh values of one date, as the gate reads them. -/
def quoted (data : EtfRuleEngineInput) : Option (EtfNavObservation × EtfFact) :=
  data.freshNav.bind fun nav => data.freshPrice.bind fun price =>
    if nav.nav ≠ 0 ∧ some nav.navDate = price.asOfDate then some (nav, price) else none

/-- They are in one currency. -/
def sameCurrency (values : EtfNavObservation × EtfFact) : Bool :=
  some values.1.currency = values.2.unit

def premiumScore (data : EtfRuleEngineInput) : Option ℚ :=
  ((quoted data).filter sameCurrency).map fun values =>
    piecewise |premium values.1 values.2| premiumPoints

theorem scorePerformanceMomentum_returns (metrics : EtfDeterministicMetrics) :
    ∃ rawMetric, Returns (scorePerformanceMomentum metrics) .performanceMomentum
      (momentumScore metrics) rawMetric := by
  unfold scorePerformanceMomentum momentumScore
  dsimp only
  have hvalues : ([EtfMetricId.return1M, .return3M, .return6M, .return1Y].filterMap fun metric =>
      (metrics.get metric).map fun value => (metric, value)).map Prod.snd = returnsOf metrics := by
    unfold returnsOf
    rw [map_filterMap]
    congr 1
    funext metric
    cases metrics.get metric <;> rfl
  generalize ([EtfMetricId.return1M, .return3M, .return6M, .return1Y].filterMap fun metric =>
    (metrics.get metric).map fun value => (metric, value)) = available at hvalues ⊢
  generalize metrics.get .momentum50200 = momentum
  rw [← hvalues, map_map]
  by_cases hnone : available = [] ∧ momentum = none
  · obtain ⟨rfl, rfl⟩ := hnone
    exact ⟨[], returns_unavailable rfl⟩
  · rw [if_neg hnone]
    have hne : available.map (fun metric => piecewise metric.2 returnPoints) ++
        (momentum.map fun value => piecewise value momentumPoints).toList ≠ [] := by
      intro hnil
      obtain ⟨hleft, hright⟩ := append_eq_nil_iff.mp hnil
      refine hnone ⟨map_eq_nil_iff.mp hleft, ?_⟩
      cases momentum with
      | none => rfl
      | some value => cases hright
    obtain ⟨score, hmean, haverage⟩ := mean_eq_average hne
    have hscore : average (available.map ((fun value => piecewise value returnPoints) ∘ Prod.snd) ++
        (momentum.map fun value => piecewise value momentumPoints).toList) = some score := haverage
    rw [hscore, hmean]
    exact ⟨_, returns_scored rfl⟩

theorem scoreRisk_returns (metrics : EtfDeterministicMetrics) :
    Returns (scoreRisk metrics) .riskDrawdownVolatility (riskScore metrics)
      [("DRAWDOWN", metrics.get .maxDrawdown),
        ("VOLATILITY", metrics.get .annualizedVolatility)] := by
  unfold scoreRisk riskScore
  dsimp only
  by_cases hnone : metrics.get .maxDrawdown = none ∧ metrics.get .annualizedVolatility = none
  · rw [if_pos hnone, hnone.1, hnone.2]
    exact returns_unavailable rfl
  · rw [if_neg hnone]
    exact scorePair_returns hnone

theorem scoreCost_returns (data : EtfRuleEngineInput) :
    HasScore (scoreCost data) .cost (costScore data) := by
  unfold scoreCost costScore
  cases freshFact data.expenseRatioFact .expenseRatio data.now with
  | none => exact hasScore_unavailable _ _ _
  | some fact => exact hasScore_scored _ _ _ _ _ _

theorem premiumPct_eq {nav : EtfNavObservation} {price : EtfFact} (h : nav.nav ≠ 0) :
    premiumPct nav price = .ok (premium nav price) := by
  unfold premiumPct divide
  rw [if_neg h]
  rfl

theorem scoreNavPremiumDiscount_returns (data : EtfRuleEngineInput) :
    Returns (scoreNavPremiumDiscount data) .navPremiumDiscount (premiumScore data)
      [("PREMIUM_DISCOUNT_PCT", (quoted data).map fun values => premium values.1 values.2)] := by
  unfold scoreNavPremiumDiscount premiumScore quoted
  dsimp only
  cases data.freshNav with
  | none => exact returns_unavailable rfl
  | some nav =>
      cases data.freshPrice with
      | none => exact returns_unavailable rfl
      | some price =>
          rw [Option.bind_some, Option.bind_some]
          dsimp only
          by_cases hzero : nav.nav = 0
          · rw [if_pos hzero, if_neg fun h : nav.nav ≠ 0 ∧ some nav.navDate = price.asOfDate =>
              h.1 hzero]
            exact returns_unavailable rfl
          · rw [if_neg hzero]
            by_cases hdate : some nav.navDate = price.asOfDate
            · rw [if_neg (not_not_intro hdate), if_pos (show nav.nav ≠ 0 ∧
                some nav.navDate = price.asOfDate from ⟨hzero, hdate⟩)]
              by_cases hcurrency : some nav.currency = price.unit
              · rw [if_neg (not_not_intro hcurrency), premiumPct_eq hzero, Option.filter_some,
                  if_pos (show sameCurrency (nav, price) = true from decide_eq_true hcurrency)]
                exact returns_scored rfl
              · rw [if_pos hcurrency, Option.filter_some,
                  if_neg (show ¬ sameCurrency (nav, price) = true from fun hsame =>
                    hcurrency (of_decide_eq_true hsame))]
                exact returns_unavailable rfl
            · rw [if_pos hdate, if_neg fun h : nav.nav ≠ 0 ∧ some nav.navDate = price.asOfDate =>
                hdate h.2]
              exact returns_unavailable rfl

end InvestmentPlatform.Etf

/-!
The overall score as the weighted mean of the factors' scores.

All scores of an input, with the coverage of the evidence among them, are listed once; the results
of the source are as this list says, so that what holds of the weighted mean of any list holds of
the overall score.
-/

namespace InvestmentPlatform.Etf

open Piecewise (piecewise Rising Falling)
open Fallible WeightedMean

/-! ### All scores of an input -/

def diversificationScore (data : EtfRuleEngineInput) : Option ℚ :=
  (scoreDiversification data).normalizedScore

/-- The scores of the factors before the coverage. -/
def evidenceScores (data : EtfRuleEngineInput) : List (EtfRuleEngineFactor × Option ℚ) :=
  [(.performanceMomentum, momentumScore (currentMetrics data)),
    (.riskDrawdownVolatility, riskScore (currentMetrics data)), (.liquidity, liquidityScore data),
    (.trackingQuality, trackingScore data), (.cost, costScore data),
    (.navPremiumDiscount, premiumScore data), (.diversification, diversificationScore data)]

/-- The scores there are, with their weights. -/
def counted (scores : List (EtfRuleEngineFactor × Option ℚ)) : List (Nat × ℚ) :=
  scores.filterMap fun p => p.2.map fun score => (weight p.1, score)

/-- The share of the evidence that is there, in per cent. -/
def coverage (data : EtfRuleEngineInput) : ℚ :=
  100 * (totalWeight (counted (evidenceScores data)) : ℚ) / 95

def allScores (data : EtfRuleEngineInput) : List (EtfRuleEngineFactor × Option ℚ) :=
  evidenceScores data ++ [(.dataCompleteness, some (coverage data))]

/-- The results are as the scores say. -/
def AsScored (results : List EtfFactorScoreResult)
    (scores : List (EtfRuleEngineFactor × Option ℚ)) : Prop :=
  List.Forall₂ (fun r p => HasScore r p.1 p.2) results scores

theorem hasScore_diversification (data : EtfRuleEngineInput) :
    HasScore (scoreDiversification data) .diversification (diversificationScore data) := by
  unfold diversificationScore scoreDiversification
  split
  · exact hasScore_unavailable _ _ _
  · dsimp only
    split
    · exact hasScore_unavailable _ _ _
    · exact hasScore_scored _ _ _ _ _ _

theorem foldl_add_nat (l : List Nat) : l.foldl (· + ·) 0 = l.sum := by
  rw [List.sum_eq_foldl]

variable {results : List EtfFactorScoreResult} {scores : List (EtfRuleEngineFactor × Option ℚ)}

theorem scoredWeight_eq (h : AsScored results scores) :
    scoredWeight results = totalWeight (counted scores) := by
  unfold scoredWeight
  rw [foldl_add_nat]
  induction h with
  | nil => rfl
  | @cons r p results scores hhead _ ih =>
      obtain ⟨factor, score⟩ := p
      cases score with
      | none =>
          have hstatus : r.status = .unavailable := hhead.status
          have hnot : ¬ decide (r.status = .scored) = true := by
            rw [hstatus]
            decide
          rw [List.filter_cons, if_neg hnot, ih]
          rfl
      | some score =>
          have hscored : decide (r.status = .scored) = true := decide_eq_true hhead.status
          rw [List.filter_cons, if_pos hscored, List.map_cons, List.sum_cons, ih, hhead.weighs]
          exact (totalWeight_cons (weight factor, score) (counted scores)).symm

theorem contributions_eq (h : AsScored results scores) :
    ((results.filter fun r => r.status = .scored).filterMap
      EtfFactorScoreResult.weightedContribution).sum * 100 = weightedSum (counted scores) := by
  induction h with
  | nil => exact zero_mul _
  | @cons r p results scores hhead _ ih =>
      obtain ⟨factor, score⟩ := p
      cases score with
      | none =>
          have hstatus : r.status = .unavailable := hhead.status
          have hnot : ¬ decide (r.status = .scored) = true := by
            rw [hstatus]
            decide
          rw [List.filter_cons, if_neg hnot, ih]
          rfl
      | some score =>
          have hscored : decide (r.status = .scored) = true := decide_eq_true hhead.status
          have hcounted : counted ((factor, some score) :: scores) =
              (weight factor, score) :: counted scores := rfl
          rw [List.filter_cons, if_pos hscored, List.filterMap_cons_some hhead.contributes,
            List.sum_cons, add_mul, ih, hcounted, weightedSum_cons]
          ring

/-- The weighted mean of the scores there are. -/
def weightedMean (scores : List (EtfRuleEngineFactor × Option ℚ)) : ℚ :=
  weightedSum (counted scores) / totalWeight (counted scores)

theorem overallScore_eq (h : AsScored results scores) (hpos : 0 < totalWeight (counted scores)) :
    overallScore results = .ok (some (weightedMean scores)) := by
  have hweight : (totalWeight (counted scores) : ℚ) ≠ 0 := Nat.cast_ne_zero.mpr hpos.ne'
  unfold overallScore divide
  dsimp only
  rw [foldl_add_eq_sum, contributions_eq h, scoredWeight_eq h, if_pos hpos.ne', if_neg hweight]
  rfl

theorem scoreDataCompleteness_returns {data : EtfRuleEngineInput}
    (h : AsScored results (evidenceScores data)) :
    ∃ r, scoreDataCompleteness results = .ok r ∧
      HasScore r .dataCompleteness (some (coverage data)) := by
  have hother : (((factors.filter (· ≠ .dataCompleteness)).map weight).foldl (· + ·) 0 : Nat) =
    95 := by decide
  unfold scoreDataCompleteness divide
  dsimp only
  rw [hother, scoredWeight_eq h]
  rw [if_pos (by decide), if_neg (by norm_num)]
  exact ⟨_, rfl, hasScore_scored _ _ _ _ _ _⟩

/-! ### The results of an input -/

/-- A factor of the results, with its raw metric where it has a score. -/
def Lists (results : List EtfFactorScoreResult) (factor : EtfRuleEngineFactor) (score : Option ℚ)
    (rawMetric : List (String × Option ℚ)) : Prop :=
  ∃ r ∈ results, HasScore r factor score ∧ (r.status = .scored → r.rawMetric = rawMetric)

/-- What the results of an input are. -/
structure ResultsOf (data : EtfRuleEngineInput) (results : List EtfFactorScoreResult) : Prop where
  scores : AsScored results (allScores data)
  risk : Lists results .riskDrawdownVolatility (riskScore (currentMetrics data))
    [("DRAWDOWN", (currentMetrics data).get .maxDrawdown),
      ("VOLATILITY", (currentMetrics data).get .annualizedVolatility)]
  liquidity : Lists results .liquidity (liquidityScore data)
    [("VOLUME", (freshFact data.tradingVolumeFact .tradingVolume data.now).map EtfFact.value),
      ("SPREAD", (freshFact data.bidAskSpreadFact .bidAskSpread data.now).map EtfFact.value)]
  tracking : Lists results .trackingQuality (trackingScore data)
    [("TRACKING_ERROR",
        (freshFact data.trackingErrorFact .trackingError data.now).map EtfFact.value),
      ("TRACKING_DIFFERENCE",
        (freshFact data.trackingDifferenceFact .trackingDifference data.now).map EtfFact.value)]
  premium : Lists results .navPremiumDiscount (premiumScore data)
    [("PREMIUM_DISCOUNT_PCT", (quoted data).map fun values => premium values.1 values.2)]

theorem factorResults_ok (data : EtfRuleEngineInput) :
    ∃ results, factorResults data = .ok results ∧ ResultsOf data results := by
  obtain ⟨-, momentum, hmomentum, hmomentum', -⟩ :=
    scorePerformanceMomentum_returns (currentMetrics data)
  obtain ⟨risk, hrisk, hrisk'⟩ := scoreRisk_returns (currentMetrics data)
  obtain ⟨liquidity, hliquidity, hliquidity'⟩ : Returns (scoreLiquidity data) _ _ _ :=
    scoreFacts_returns
  obtain ⟨tracking, htracking, htracking'⟩ : Returns (scoreTrackingQuality data) _ _ _ :=
    scoreFacts_returns
  obtain ⟨premium, hpremium, hpremium'⟩ := scoreNavPremiumDiscount_returns data
  have hevidence : AsScored [momentum, risk, liquidity, tracking, scoreCost data, premium,
      scoreDiversification data] (evidenceScores data) :=
    .cons hmomentum' (.cons hrisk'.1 (.cons hliquidity'.1 (.cons htracking'.1
      (.cons (scoreCost_returns data) (.cons hpremium'.1
        (.cons (hasScore_diversification data) .nil))))))
  obtain ⟨completeness, hcompleteness, hcompleteness'⟩ := scoreDataCompleteness_returns hevidence
  refine ⟨[momentum, risk, liquidity, tracking, scoreCost data, premium,
      scoreDiversification data] ++ [completeness], ?_, ?_⟩
  · unfold factorResults
    dsimp only
    rw [hmomentum, hrisk, hliquidity, htracking, hpremium]
    show (do return _ ++ [← scoreDataCompleteness _]) = _
    rw [show scoreDataCompleteness _ = _ from hcompleteness]
    rfl
  · exact {
      scores := List.rel_append hevidence (.cons hcompleteness' .nil)
      risk := ⟨risk, by simp, hrisk'⟩
      liquidity := ⟨liquidity, by simp, hliquidity'⟩
      tracking := ⟨tracking, by simp, htracking'⟩
      premium := ⟨premium, by simp, hpremium'⟩ }

theorem totalWeight_allScores_pos (data : EtfRuleEngineInput) :
    0 < totalWeight (counted (allScores data)) := by
  unfold counted allScores
  rw [List.filterMap_append]
  show 0 < totalWeight (_ ++ [(weight .dataCompleteness, coverage data)])
  unfold totalWeight
  rw [List.map_append, List.sum_append]
  exact Nat.lt_of_lt_of_le (Nat.succ_pos 4) (Nat.le_add_left _ _)

/-- The score of an input, which is never missing. -/
def overall (data : EtfRuleEngineInput) : ℚ := weightedMean (allScores data)

/-- What the scoring of an input returns. -/
structure ScoredAs (data : EtfRuleEngineInput) (result : EtfRuleEngineResult) : Prop where
  results : ResultsOf data result.factorResults
  overallScore : result.overallScore = some (overall data)
  completeness : result.dataCompleteness = (totalWeight (counted (allScores data)) : ℚ) / 100

theorem scoreEtf_ok (data : EtfRuleEngineInput) :
    ∃ result, scoreEtf data = .ok result ∧ ScoredAs data result := by
  obtain ⟨results, hresults, hof⟩ := factorResults_ok data
  unfold scoreEtf
  rw [hresults]
  show ∃ result, (do
    let score ← Etf.overallScore results
    pure _) = Except.ok result ∧ _
  rw [overallScore_eq hof.scores (totalWeight_allScores_pos data)]
  refine ⟨_, rfl, hof, rfl, ?_⟩
  rw [← scoredWeight_eq hof.scores]

end InvestmentPlatform.Etf
