/-
The deterministic scoring of funds, `app/etf_rule_engine.py`.

Every factor is scored from the evidence that is fresh, or is unavailable; the scores are averaged
by weight over the factors that have one; the gates read the evidence again, and the recommendation
follows from the score and the gates.

A float is the rational it stands for: the rounding of the operations is left out, and so are the
version, the instrument and the time that a result only carries along.  Of `now` the date is read.
A raw metric is kept as its labelled numbers, not as their text.
-/
import InvestmentPlatform.Lib.Fallible
import InvestmentPlatform.Lib.Piecewise
import Mathlib.Data.List.Sort

namespace InvestmentPlatform.Etf

open Piecewise (piecewise)

abbrev Date := Int

/-! ### The evidence -/

inductive EtfMetricId
  | return1M | return3M | return6M | return1Y
  | annualizedVolatility | maxDrawdown | momentum50200
  deriving DecidableEq, Repr

def EtfMetricId.name : EtfMetricId → String
  | .return1M => "RETURN_1M"
  | .return3M => "RETURN_3M"
  | .return6M => "RETURN_6M"
  | .return1Y => "RETURN_1Y"
  | .annualizedVolatility => "ANNUALIZED_VOLATILITY"
  | .maxDrawdown => "MAX_DRAWDOWN"
  | .momentum50200 => "MOMENTUM_50_200"

/-- A metric has a value, or its history is insufficient. -/
structure EtfMetricValue where
  value : Option ℚ
  deriving DecidableEq, Repr

structure EtfDeterministicMetrics where
  asOfDate : Option Date
  values : EtfMetricId → Option EtfMetricValue

/-- The value of a metric that is there, and not of insufficient history. -/
def EtfDeterministicMetrics.get (metrics : EtfDeterministicMetrics) (metric : EtfMetricId) :
    Option ℚ :=
  (metrics.values metric).bind EtfMetricValue.value

inductive EtfMetric
  | nav | marketPrice | tradingVolume | bidAskSpread | aum | expenseRatio | trackingError
  | trackingDifference | underlyingHoldings
  deriving DecidableEq, Repr

/-- `ETF_MAX_AGE`, in days. -/
def etfMaxAge : EtfMetric → Int
  | .nav | .marketPrice | .tradingVolume | .bidAskSpread => 1
  | .aum | .underlyingHoldings | .trackingError | .trackingDifference => 35
  | .expenseRatio => 90

/-- `etf_freshness` of evidence with that effective date. -/
def etfFreshness (asOf : Option Date) (metric : EtfMetric) (now : Date) : String :=
  match asOf with
  | none => "UNKNOWN_AS_OF"
  | some asOf =>
      if now - asOf < 0 then "FUTURE_DATED"
      else if now - asOf ≤ etfMaxAge metric then "FRESH" else "STALE"

structure EtfFact where
  value : ℚ
  unit : Option String
  asOfDate : Option Date
  provider : String
  deriving DecidableEq, Repr

structure EtfNavObservation where
  nav : ℚ
  currency : String
  navDate : Date
  deriving DecidableEq, Repr

/-- The weights of the holdings, which is all that is read of them. -/
structure EtfHoldingsSnapshot where
  asOfDate : Date
  provider : String
  holdings : List (Option ℚ)
  deriving DecidableEq, Repr

structure EtfReadinessSummary where
  mandatoryTechnicalFailure : Nat
  readyForAnalysis : Bool
  deriving DecidableEq, Repr

structure EtfRuleEngineInput where
  readinessSummary : EtfReadinessSummary
  metrics : EtfDeterministicMetrics
  nav : Option EtfNavObservation
  marketPriceFact : Option EtfFact
  tradingVolumeFact : Option EtfFact
  bidAskSpreadFact : Option EtfFact
  trackingErrorFact : Option EtfFact
  trackingDifferenceFact : Option EtfFact
  expenseRatioFact : Option EtfFact
  aumFact : Option EtfFact
  holdings : Option EtfHoldingsSnapshot
  now : Date

/-! ### Results -/

inductive EtfRuleEngineFactor
  | performanceMomentum | riskDrawdownVolatility | liquidity | trackingQuality | cost
  | navPremiumDiscount | diversification | dataCompleteness
  deriving DecidableEq, Repr

open EtfRuleEngineFactor in
def factors : List EtfRuleEngineFactor :=
  [performanceMomentum, riskDrawdownVolatility, liquidity, trackingQuality, cost,
    navPremiumDiscount, diversification, dataCompleteness]

/-- `ETF_RULE_ENGINE_FACTOR_WEIGHTS` -/
def weight : EtfRuleEngineFactor → Nat
  | .performanceMomentum => 25
  | .riskDrawdownVolatility => 20
  | .liquidity => 15
  | .trackingQuality => 15
  | .cost => 10
  | .navPremiumDiscount => 5
  | .diversification => 5
  | .dataCompleteness => 5

inductive EtfFactorStatus
  | scored | unavailable
  deriving DecidableEq, Repr

structure EtfFactorScoreResult where
  factor : EtfRuleEngineFactor
  weight : Nat
  status : EtfFactorStatus
  rawMetric : List (String × Option ℚ)
  normalizedScore : Option ℚ
  weightedContribution : Option ℚ
  freshness : Option Date
  sourceProvenance : Option String
  confidence : Option ℚ
  reason : Option String
  deriving DecidableEq, Repr

/-- A factor without a score. -/
def unavailable (factor : EtfRuleEngineFactor) (sourceProvenance : Option String)
    (reason : String) : EtfFactorScoreResult :=
  ⟨factor, weight factor, .unavailable, [], none, none, none, sourceProvenance, none, some reason⟩

/-- A factor with a score. -/
def scored (factor : EtfRuleEngineFactor) (rawMetric : List (String × Option ℚ)) (score : ℚ)
    (freshness : Option Date) (sourceProvenance : String) (confidence : ℚ) :
    EtfFactorScoreResult :=
  ⟨factor, weight factor, .scored, rawMetric, some score, some (score * weight factor / 100),
    freshness, some sourceProvenance, some confidence, none⟩

inductive EtfError
  | zeroDivision
  deriving DecidableEq, Repr

def divide (a b : ℚ) : Except EtfError ℚ := if b = 0 then .error .zeroDivision else .ok (a / b)

/-- `sum(l) / len(l)` -/
def mean (l : List ℚ) : Except EtfError ℚ := divide (l.foldl (· + ·) 0) l.length

/-! ### The factors -/

def returnPoints : List (ℚ × ℚ) := [(-50, 0), (0, 50), (25, 100)]

def momentumPoints : List (ℚ × ℚ) := [(-20, 0), (0, 50), (20, 100)]

def scorePerformanceMomentum (metrics : EtfDeterministicMetrics) :
    Except EtfError EtfFactorScoreResult := do
  let available := [EtfMetricId.return1M, .return3M, .return6M, .return1Y].filterMap fun metric =>
    (metrics.get metric).map fun value => (metric, value)
  let momentum := metrics.get .momentum50200
  if available = [] ∧ momentum = none then
    return unavailable .performanceMomentum (some "DAILY_MARKET_BARS") "INSUFFICIENT_PRICE_HISTORY"
  else
    let subScores := (available.map fun metric => piecewise metric.2 returnPoints) ++
      (momentum.map fun value => piecewise value momentumPoints).toList
    let score ← mean subScores
    return scored .performanceMomentum
      ((available.map fun metric => (metric.1.name, some metric.2)) ++
        (momentum.map fun value => ("MOMENTUM", some value)).toList)
      score metrics.asOfDate "DAILY_MARKET_BARS" (min 1 ((subScores.length : ℚ) / 5))

def drawdownPoints : List (ℚ × ℚ) := [(-60, 0), (-10, 70), (0, 100)]

def volatilityPoints : List (ℚ × ℚ) := [(0, 100), (25, 60), (60, 0)]

/-- A factor of at most two components, each from its optional value. -/
def scorePair (factor : EtfRuleEngineFactor) (labels : String × String) (values : Option ℚ × Option ℚ)
    (score₁ score₂ : ℚ → ℚ) (freshness : Option Date) (sourceProvenance : String) :
    Except EtfError EtfFactorScoreResult := do
  let components := (values.1.map score₁).toList ++ (values.2.map score₂).toList
  let score ← mean components
  return scored factor [(labels.1, values.1), (labels.2, values.2)] score freshness
    sourceProvenance ((components.length : ℚ) / 2)

def scoreRisk (metrics : EtfDeterministicMetrics) : Except EtfError EtfFactorScoreResult :=
  let drawdown := metrics.get .maxDrawdown
  let volatility := metrics.get .annualizedVolatility
  if drawdown = none ∧ volatility = none then
    .ok (unavailable .riskDrawdownVolatility (some "DAILY_MARKET_BARS")
      "INSUFFICIENT_PRICE_HISTORY")
  else
    scorePair .riskDrawdownVolatility ("DRAWDOWN", "VOLATILITY") (drawdown, volatility)
      (fun value => piecewise value drawdownPoints)
      (fun value => piecewise value volatilityPoints) metrics.asOfDate "DAILY_MARKET_BARS"

/-- `_fresh_fact` -/
def freshFact (fact : Option EtfFact) (metric : EtfMetric) (now : Date) : Option EtfFact :=
  fact.filter fun fact => etfFreshness fact.asOfDate metric now = "FRESH"

/-- A factor of two facts, of which the first is the primary one. -/
def scoreFacts (factor : EtfRuleEngineFactor) (labels : String × String)
    (facts : Option EtfFact × Option EtfFact) (score₁ score₂ : ℚ → ℚ) (reason : String) :
    Except EtfError EtfFactorScoreResult :=
  match facts.1.or facts.2 with
  | none => .ok (unavailable factor none reason)
  | some primary =>
      scorePair factor labels (facts.1.map EtfFact.value, facts.2.map EtfFact.value) score₁ score₂
        primary.asOfDate primary.provider

def volumePoints : List (ℚ × ℚ) := [(0, 0), (10000, 60), (500000, 100)]

def spreadPoints : List (ℚ × ℚ) := [(0, 100), (1, 60), (5, 0)]

def scoreLiquidity (data : EtfRuleEngineInput) : Except EtfError EtfFactorScoreResult :=
  scoreFacts .liquidity ("VOLUME", "SPREAD")
    (freshFact data.tradingVolumeFact .tradingVolume data.now,
      freshFact data.bidAskSpreadFact .bidAskSpread data.now)
    (fun value => piecewise value volumePoints) (fun value => piecewise value spreadPoints)
    "NO_FRESH_LIQUIDITY_EVIDENCE"

def trackingPoints : List (ℚ × ℚ) := [(0, 100), (1, 60), (3, 0)]

def scoreTrackingQuality (data : EtfRuleEngineInput) : Except EtfError EtfFactorScoreResult :=
  scoreFacts .trackingQuality ("TRACKING_ERROR", "TRACKING_DIFFERENCE")
    (freshFact data.trackingErrorFact .trackingError data.now,
      freshFact data.trackingDifferenceFact .trackingDifference data.now)
    (fun value => piecewise value trackingPoints) (fun value => piecewise |value| trackingPoints)
    "NO_FRESH_TRACKING_EVIDENCE"

def costPoints : List (ℚ × ℚ) := [(0, 100), (1 / 2, 70), (3 / 2, 20), (3, 0)]

def scoreCost (data : EtfRuleEngineInput) : EtfFactorScoreResult :=
  match freshFact data.expenseRatioFact .expenseRatio data.now with
  | none => unavailable .cost none "NO_FRESH_EXPENSE_RATIO_EVIDENCE"
  | some fact => scored .cost [("EXPENSE_RATIO", some fact.value)] (piecewise fact.value costPoints)
      fact.asOfDate fact.provider 1

def EtfRuleEngineInput.freshNav (data : EtfRuleEngineInput) : Option EtfNavObservation :=
  data.nav.filter fun nav => etfFreshness (some nav.navDate) .nav data.now = "FRESH"

def EtfRuleEngineInput.freshPrice (data : EtfRuleEngineInput) : Option EtfFact :=
  freshFact data.marketPriceFact .marketPrice data.now

/-- `(price.value - nav.nav) / nav.nav * 100` -/
def premiumPct (nav : EtfNavObservation) (price : EtfFact) : Except EtfError ℚ := do
  return (← divide (price.value - nav.nav) nav.nav) * 100

def premiumPoints : List (ℚ × ℚ) := [(0, 100), (1, 70), (5, 0)]

def scoreNavPremiumDiscount (data : EtfRuleEngineInput) : Except EtfError EtfFactorScoreResult :=
  let missing := fun reason => .ok (unavailable .navPremiumDiscount none reason)
  match data.freshNav, data.freshPrice with
  | none, _ => missing "NO_FRESH_NAV_EVIDENCE"
  | some _, none => missing "NO_FRESH_MARKET_PRICE_EVIDENCE"
  | some nav, some price =>
      if nav.nav = 0 then missing "NAV_VALUE_ZERO"
      else if some nav.navDate ≠ price.asOfDate then
        missing "NAV_AND_MARKET_PRICE_AS_OF_DATE_MISMATCH"
      else if some nav.currency ≠ price.unit then
        missing "NAV_AND_MARKET_PRICE_CURRENCY_MISMATCH"
      else do
        let premium ← premiumPct nav price
        return scored .navPremiumDiscount [("PREMIUM_DISCOUNT_PCT", some premium)]
          (piecewise |premium| premiumPoints) price.asOfDate price.provider 1

def concentrationPoints : List (ℚ × ℚ) := [(0, 100), (40, 70), (70, 30), (100, 0)]

def scoreDiversification (data : EtfRuleEngineInput) : EtfFactorScoreResult :=
  match data.holdings.filter fun snapshot => snapshot.holdings ≠ [] ∧
      etfFreshness (some snapshot.asOfDate) .underlyingHoldings data.now = "FRESH" with
  | none => unavailable .diversification none "NO_HOLDINGS_SNAPSHOT"
  | some snapshot =>
      let weighted := snapshot.holdings.filterMap id
      if weighted = [] then unavailable .diversification none "HOLDINGS_LACK_WEIGHTS"
      else
        let top10 := ((weighted.insertionSort (· ≥ ·)).take 10).foldl (· + ·) 0
        scored .diversification [("TOP10_CONCENTRATION_PCT", some top10)]
          (piecewise top10 concentrationPoints) (some snapshot.asOfDate) snapshot.provider 1

/-- The weight of the factors that have a score. -/
def scoredWeight (results : List EtfFactorScoreResult) : Nat :=
  ((results.filter fun r => r.status = .scored).map EtfFactorScoreResult.weight).foldl (· + ·) 0

def scoreDataCompleteness (scoredSoFar : List EtfFactorScoreResult) :
    Except EtfError EtfFactorScoreResult := do
  let otherWeight : Nat := ((factors.filter (· ≠ .dataCompleteness)).map weight).foldl (· + ·) 0
  let coverage ← if otherWeight ≠ 0 then divide (100 * (scoredWeight scoredSoFar : ℚ)) otherWeight
    else .ok 0
  return scored .dataCompleteness [("OTHER_FACTOR_WEIGHT_COVERAGE_PCT", some coverage)] coverage
    none "ETF_RULE_ENGINE_V1_SELF_REPORT" 1

/-! ### The score -/

inductive EtfConfidenceLevel
  | high | medium | low
  deriving DecidableEq, Repr

structure EtfRuleEngineResult where
  factorResults : List EtfFactorScoreResult
  overallScore : Option ℚ
  dataCompleteness : ℚ
  confidence : EtfConfidenceLevel
  deriving DecidableEq, Repr

def derivedMetricMaxAgeDays : Int := 5

/-- `_current_metrics` -/
def currentMetrics (data : EtfRuleEngineInput) : EtfDeterministicMetrics :=
  match data.metrics.asOfDate with
  | none => ⟨none, fun _ => none⟩
  | some stamp =>
      if 0 ≤ data.now - stamp ∧ data.now - stamp ≤ derivedMetricMaxAgeDays then data.metrics
      else ⟨some stamp, fun _ => none⟩

/-- The weighted average over the factors that have a score. -/
def overallScore (results : List EtfFactorScoreResult) : Except EtfError (Option ℚ) :=
  let contributions := (results.filter fun r => r.status = .scored).filterMap
    EtfFactorScoreResult.weightedContribution
  if scoredWeight results ≠ 0 then
    (divide (contributions.foldl (· + ·) 0 * 100) (scoredWeight results : ℚ)).map some
  else .ok none

def factorResults (data : EtfRuleEngineInput) : Except EtfError (List EtfFactorScoreResult) := do
  let metrics := currentMetrics data
  let results := [← scorePerformanceMomentum metrics, ← scoreRisk metrics, ← scoreLiquidity data,
    ← scoreTrackingQuality data, scoreCost data, ← scoreNavPremiumDiscount data,
    scoreDiversification data]
  return results ++ [← scoreDataCompleteness results]

def scoreEtf (data : EtfRuleEngineInput) : Except EtfError EtfRuleEngineResult := do
  let results ← factorResults data
  let score ← overallScore results
  let completeness : ℚ := (scoredWeight results : ℚ) / 100
  return {
    factorResults := results
    overallScore := score
    dataCompleteness := completeness
    confidence := if 8 / 10 ≤ completeness then .high
      else if 1 / 2 ≤ completeness then .medium else .low }

/-! ### The gates -/

inductive EtfRiskGateCategory
  | technicalFailure | insufficientData | poorCharacteristics
  deriving DecidableEq, Repr

inductive EtfRiskGateSeverity
  | blocking | warning
  deriving DecidableEq, Repr

structure EtfRiskGate where
  gateId : String
  category : EtfRiskGateCategory
  severity : EtfRiskGateSeverity
  triggered : Bool
  reason : String
  deriving DecidableEq, Repr

/-- Volume below the floor. -/
def extremeIlliquidity (data : EtfRuleEngineInput) : Bool :=
  (freshFact data.tradingVolumeFact .tradingVolume data.now).any fun fact => fact.value < 1000

def excessiveDrawdown (data : EtfRuleEngineInput) : Bool :=
  ((currentMetrics data).get .maxDrawdown).any fun value => value ≤ -50

def abnormalPremium (data : EtfRuleEngineInput) : Except EtfError Bool :=
  match data.freshNav, data.freshPrice with
  | some nav, some price =>
      if nav.nav ≠ 0 ∧ some nav.navDate = price.asOfDate then
        (premiumPct nav price).map fun premium => 5 < |premium|
      else .ok false
  | _, _ => .ok false

def veryLowAum (data : EtfRuleEngineInput) : Bool :=
  (freshFact data.aumFact .aum data.now).any fun fact =>
    fact.unit = some "INR" ∧ fact.value < 100000000

def poorTracking (data : EtfRuleEngineInput) : Bool :=
  (freshFact data.trackingErrorFact .trackingError data.now).any fun fact => 2 < fact.value

def evaluateEtfRiskGates (data : EtfRuleEngineInput) (result : EtfRuleEngineResult) :
    Except EtfError (List EtfRiskGate) := do
  let technical : Bool := 0 < data.readinessSummary.mandatoryTechnicalFailure
  let premium ← abnormalPremium data
  return [
    ⟨"MANDATORY_DATA_TECHNICAL_FAILURE", .technicalFailure, .blocking, technical,
      "One or more mandatory ETF-3 requirements (IDENTITY/MARKET_PRICE/TRADING_VOLUME) " ++
        "reported TECHNICAL_FAILURE."⟩,
    ⟨"MANDATORY_DATA_MISSING_OR_STALE", .insufficientData, .blocking,
      !data.readinessSummary.readyForAnalysis && !technical,
      "Mandatory ETF-3 requirements are not all READY_FRESH."⟩,
    ⟨"INSUFFICIENT_PRICE_HISTORY", .insufficientData, .warning,
      ((currentMetrics data).get .return1M).isNone,
      "Fewer than one month of usable daily closes; return-based scoring is degraded."⟩,
    ⟨"EXTREME_ILLIQUIDITY", .poorCharacteristics, .blocking, extremeIlliquidity data,
      "Fresh trading volume is below the 1,000 shares/session floor."⟩,
    ⟨"EXCESSIVE_DRAWDOWN", .poorCharacteristics, .warning, excessiveDrawdown data,
      "Trailing max drawdown is 50% or worse."⟩,
    ⟨"ABNORMAL_NAV_PREMIUM_DISCOUNT", .poorCharacteristics, .warning, premium,
      "Market price deviates more than 5% from NAV."⟩,
    ⟨"VERY_LOW_AUM", .poorCharacteristics, .warning, veryLowAum data,
      "Fresh AUM evidence is below INR 10 crore."⟩,
    ⟨"POOR_TRACKING_QUALITY", .poorCharacteristics, .warning, poorTracking data,
      "Fresh tracking error exceeds 2%."⟩,
    ⟨"INSUFFICIENT_COMPLETENESS", .insufficientData, .blocking, result.dataCompleteness < 3 / 10,
      "Fewer than 30% of factor weight had available evidence."⟩]

/-! ### The recommendation -/

inductive EtfRecommendation
  | strongOpportunity | opportunity | watch | avoid | insufficientData
  deriving DecidableEq, Repr

def deriveEtfRecommendation (result : EtfRuleEngineResult) (gates : List EtfRiskGate) :
    EtfRecommendation :=
  if gates.any fun gate => gate.triggered && gate.category = .technicalFailure then
    .insufficientData
  else if gates.any fun gate => gate.triggered && gate.category = .insufficientData &&
      gate.severity = .blocking then .insufficientData
  else
    match result.overallScore with
    | none => .insufficientData
    | some score =>
        if gates.any fun gate => gate.triggered && gate.category = .poorCharacteristics &&
            gate.severity = .blocking then .avoid
        else
          let poorWarnings := gates.countP fun gate =>
            gate.triggered && gate.category = .poorCharacteristics
          if 2 ≤ poorWarnings then (if score < 50 then .avoid else .watch)
          else if 75 ≤ score then (if poorWarnings = 0 then .strongOpportunity else .opportunity)
          else if 60 ≤ score then .opportunity
          else if 40 ≤ score then .watch
          else .avoid

/-- The score, the gates and the recommendation of an input. -/
def recommend (data : EtfRuleEngineInput) :
    Except EtfError (EtfRuleEngineResult × List EtfRiskGate × EtfRecommendation) := do
  let result ← scoreEtf data
  let gates ← evaluateEtfRiskGates data result
  return (result, gates, deriveEtfRecommendation result gates)

end InvestmentPlatform.Etf
