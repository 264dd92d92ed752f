/-
`GlobalOpportunityRanker`, from `app/global_opportunity_ranker.py`: one candidate of the
second stage and its rule engine result make one opportunity result, and the results are
sorted.

The evidence is collected first, area by area in the order of the weights, as the source
collects it: the values it may use with their confidence, the weight that is applicable, and
the reason codes.  A `ValueError` and a division by zero are the errors of the model; a float
is the rational it stands for, rounded where the source rounds.
-/
import InvestmentPlatform.Lib.Fallible
import InvestmentPlatform.Lib.WeightedMean
import InvestmentPlatform.Rules.Engine

namespace InvestmentPlatform.Ranker

open Rules Selection WeightedMean Fallible

/-! ### What is ranked -/

/-- The part of a technical snapshot the ranker reads. -/
structure TechnicalFeatureSnapshot where
  globalInstrumentId : String
  technicalScore : Option ℚ
  technicalState : String
  confidence : ℚ
  staleInputs : List String
  featureStates : List (String × String)
  deriving DecidableEq, Repr

/-- The part of a sector snapshot the ranker reads. -/
structure SectorRelativeStrengthSnapshot where
  globalInstrumentId : String
  relativeStrengthScore : Option ℚ
  sectorState : String
  confidence : ℚ
  staleInputs : List String
  missingInputs : List String
  deriving DecidableEq, Repr

structure StageBCandidate where
  globalInstrumentId : String
  featureVersion : String := "GLOBAL_STAGE_B_V1"
  technicalFeatureSnapshot : TechnicalFeatureSnapshot
  sectorRelativeStrengthSnapshot : SectorRelativeStrengthSnapshot
  technicalScore : Option ℚ
  sectorScore : Option ℚ
  deriving DecidableEq, Repr

/-- A rule engine result with the version it is labelled with. -/
structure RuleResult extends StockRuleEngineResult where
  ruleEngineVersion : String := "STOCK_RULE_ENGINE_V1"
  deriving DecidableEq, Repr

structure GlobalOpportunityResult where
  globalInstrumentId : String
  opportunityScore : Option ℚ
  opportunityConfidence : ℚ
  scoreCoverage : ℚ
  rankEligible : Bool
  ruleEngineScore : Option ℚ
  technicalScore : Option ℚ
  technicalState : String
  sectorScore : Option ℚ
  sectorState : String
  riskScore : Option ℚ
  topPositiveReasons : List String
  topNegativeReasons : List String
  eligibilityReasons : List String
  deriving DecidableEq, Repr

/-- What the ranker raises. -/
inductive RankerError
  | identityMismatch | unsupportedRuleEngineVersion | unsupportedStageBVersion
  | duplicateRuleArea | invalidRankerScore | stageBScoreMismatch | duplicateRankerInstrument
  | zeroDivision
  deriving DecidableEq, Repr

/-! ### Dimensions and weights -/

/-- The keys of `WEIGHTS`. -/
inductive Dimension
  | valuation | fundamentalBusinessQuality | growth | balanceSheet | quarterlyEarningsTrend
  | orderBookCapacityCatalysts | newsGeopoliticalEvents | shareholding | managementGovernance
  | technical | sector
  deriving DecidableEq, Repr

namespace Dimension

def text : Dimension → String
  | valuation => "VALUATION"
  | fundamentalBusinessQuality => "FUNDAMENTAL_BUSINESS_QUALITY"
  | growth => "GROWTH"
  | balanceSheet => "BALANCE_SHEET"
  | quarterlyEarningsTrend => "QUARTERLY_EARNINGS_TREND"
  | orderBookCapacityCatalysts => "ORDER_BOOK_CAPACITY_CATALYSTS"
  | newsGeopoliticalEvents => "NEWS_GEOPOLITICAL_EVENTS"
  | shareholding => "SHAREHOLDING"
  | managementGovernance => "MANAGEMENT_GOVERNANCE"
  | technical => "TECHNICAL"
  | sector => "SECTOR"

/-- `WEIGHTS`. -/
def weight : Dimension → Nat
  | valuation => 18
  | fundamentalBusinessQuality => 16
  | growth => 14
  | balanceSheet => 9
  | quarterlyEarningsTrend => 9
  | orderBookCapacityCatalysts => 8
  | newsGeopoliticalEvents => 7
  | shareholding => 4
  | managementGovernance => 5
  | technical => 7
  | sector => 3

/-- The rule engine's area of that name. -/
def ruleArea : Dimension → Option RuleEngineArea
  | valuation => some .valuation
  | fundamentalBusinessQuality => some .fundamentalBusinessQuality
  | growth => some .growth
  | balanceSheet => some .balanceSheet
  | quarterlyEarningsTrend => some .quarterlyEarningsTrend
  | orderBookCapacityCatalysts => some .orderBookCapacityCatalysts
  | newsGeopoliticalEvents => some .newsGeopoliticalEvents
  | shareholding => some .shareholding
  | managementGovernance => some .managementGovernance
  | technical => none
  | sector => none

end Dimension

/-- The dimensions that the rule engine's areas give, in the order of `WEIGHTS`. -/
def ruleDimensions : List Dimension :=
  [.valuation, .fundamentalBusinessQuality, .growth, .balanceSheet, .quarterlyEarningsTrend,
    .orderBookCapacityCatalysts, .newsGeopoliticalEvents, .shareholding, .managementGovernance]

/-- The keys of `WEIGHTS`, in their order. -/
def dimensions : List Dimension := ruleDimensions ++ [.technical, .sector]

/-- `CRITICAL_AREAS`. -/
def criticalAreas : List Dimension :=
  [.valuation, .fundamentalBusinessQuality, .balanceSheet, .quarterlyEarningsTrend,
    .managementGovernance]

/-- `OPTIONAL_AREAS`. -/
def optionalAreas : List Dimension := [.newsGeopoliticalEvents]

/-! ### Evidence -/

/-- One entry of `values`: a dimension with its score and the confidence of the source. -/
structure Usable where
  dimension : Dimension
  value : ℚ
  confidence : ℚ
  deriving DecidableEq, Repr

/-- The local variables of `score`. -/
structure Evidence where
  negatives : List String := []
  gates : List String := []
  applicableWeight : Int := (dimensions.map Dimension.weight).sum
  values : List Usable := []
  deriving DecidableEq, Repr

/-- `_score` of a number. -/
def checkedScore (value : ℚ) : Except RankerError ℚ :=
  if 0 ≤ value ∧ value ≤ 100 then .ok value else .error .invalidRankerScore

/-- `_score`. -/
def optionalScore : Option ℚ → Except RankerError (Option ℚ)
  | none => .ok none
  | some value => (checkedScore value).map some

/-- `areas.get(name)`. -/
def areaOf (rule : RuleResult) (name : Dimension) : Option AreaScoreResult :=
  rule.areaScores.find? fun area => name.ruleArea = some area.area

def blocking (override : RiskOverrideResult) : Bool :=
  override.effect = "BLOCK_BUY" ∨ override.severity = .critical

/-- The gates that the rule engine result sets by itself. -/
def ruleGates : Option RuleResult → List String
  | none => ["V1_RESULT_MISSING"]
  | some rule =>
      (if rule.isPartial ∨ rule.eligibility.fullAnalysisAllowed = false ∨ rule.overallScore = none
        then ["V1_ANALYSIS_NOT_ELIGIBLE"] else []) ++
      (rule.riskOverrides.filter fun override => blocking override).map fun override =>
        "V1_RISK_OVERRIDE:" ++ override.code

/-- Adds a value that may be used. -/
def Evidence.use (evidence : Evidence) (name : Dimension) (value confidence : ℚ) :
    Except RankerError Evidence := do
  let value ← checkedScore value
  let confidence ← checkedScore confidence
  return { evidence with values := evidence.values ++ [⟨name, value, confidence⟩] }

/-- An area without a score: an optional one is unavailable, another is missing. -/
def Evidence.lack (evidence : Evidence) (name : Dimension) : Evidence :=
  { evidence with negatives := evidence.negatives ++
      [(if name ∈ optionalAreas then "UNAVAILABLE:" else "MISSING:") ++ name.text] }

def disputeCode (area : AreaScoreResult) (name : Dimension) : String :=
  (if area.status = .readyStale then "STALE:" else "CONFLICTING:") ++ name.text

/-- A stale or conflicting area, which gates when it is critical. -/
def Evidence.dispute (evidence : Evidence) (name : Dimension) (code : String) : Evidence :=
  { evidence with
    negatives := evidence.negatives ++ [code]
    gates := if name ∈ criticalAreas then evidence.gates ++ ["CRITICAL_" ++ code]
      else evidence.gates }

/-- The body of the loop over `WEIGHTS`, for an area that the result has. -/
def Evidence.read (evidence : Evidence) (confidence : ℚ) (name : Dimension)
    (area : AreaScoreResult) : Except RankerError Evidence :=
  if area.applicable = false ∨ area.status = .notApplicable then
    .ok { evidence with applicableWeight := evidence.applicableWeight - name.weight }
  else if area.status = .readyStale ∨ area.status = .conflicting then
    .ok (evidence.dispute name (disputeCode area name))
  else if area.status = .readyFresh ∨ area.status = .partialCoverage then
    match area.rawScore with
    | some raw => evidence.use name raw confidence
    -- checked, and nothing to score: neither a value nor a reason
    | none => .ok evidence
  else .ok (evidence.lack name)

/-- The body of the loop over `WEIGHTS`. -/
def readArea (rule : Option RuleResult) (evidence : Evidence) (name : Dimension) :
    Except RankerError Evidence :=
  match rule with
  | none => .ok (evidence.lack name)
  | some rule =>
      match areaOf rule name with
      | none => .ok (evidence.lack name)
      | some area => evidence.read rule.confidenceScore name area

def stalePrice (candidate : StageBCandidate) : Bool :=
  "PRICE_HISTORY" ∈ candidate.technicalFeatureSnapshot.staleInputs ∨
    "STOCK_HISTORY" ∈ candidate.sectorRelativeStrengthSnapshot.staleInputs

def conflictingPrice (candidate : StageBCandidate) : Bool :=
  "CONFLICTING" ∈ candidate.technicalFeatureSnapshot.featureStates.map Prod.snd ∨
    "CONFLICTING_STOCK_PRICE" ∈ candidate.sectorRelativeStrengthSnapshot.missingInputs

def priceGates (candidate : StageBCandidate) : List String :=
  (if stalePrice candidate then ["CRITICAL_STALE_PRICE"] else []) ++
    if conflictingPrice candidate then ["CRITICAL_CONFLICTING_PRICE"] else []

/-- A dimension of the second stage: used when it is usable and has a score. -/
def Evidence.stageB (evidence : Evidence) (name : Dimension) (value : Option ℚ)
    (confidence : ℚ) (usable : Bool) : Except RankerError Evidence :=
  match value with
  | some value =>
      if usable then evidence.use name value confidence
      else .ok { evidence with negatives := evidence.negatives ++ ["UNAVAILABLE:" ++ name.text] }
  | none =>
      .ok { evidence with negatives := evidence.negatives ++ ["UNAVAILABLE:" ++ name.text] }

/-- `score`, down to the last entry of `values`. -/
def collect (candidate : StageBCandidate) (rule : Option RuleResult) :
    Except RankerError Evidence := do
  let technical := candidate.technicalFeatureSnapshot
  let sector := candidate.sectorRelativeStrengthSnapshot
  let key := candidate.globalInstrumentId
  raiseIf (technical.globalInstrumentId ≠ key ∨ sector.globalInstrumentId ≠ key ∨
    rule.any fun rule => rule.globalInstrumentId ≠ key) .identityMismatch
  raiseIf (rule.any fun rule => rule.ruleEngineVersion ≠ "STOCK_RULE_ENGINE_V1")
    .unsupportedRuleEngineVersion
  raiseIf (candidate.featureVersion ≠ "GLOBAL_STAGE_B_V1") .unsupportedStageBVersion
  raiseIf (rule.any fun rule => ¬ (rule.areaScores.map AreaScoreResult.area).Nodup)
    .duplicateRuleArea
  let evidence ← ruleDimensions.foldlM (readArea rule) { gates := ruleGates rule }
  let evidence := { evidence with gates := evidence.gates ++ priceGates candidate }
  raiseIf (candidate.technicalScore ≠ technical.technicalScore ∨
    candidate.sectorScore ≠ sector.relativeStrengthScore) .stageBScoreMismatch
  let sound := !(stalePrice candidate || conflictingPrice candidate)
  let evidence ← evidence.stageB .technical candidate.technicalScore technical.confidence sound
  evidence.stageB .sector candidate.sectorScore sector.confidence
    (sector.sectorState ≠ "INSUFFICIENT_DATA" && sound)

/-! ### The result -/

def Evidence.scores (evidence : Evidence) : List (Nat × ℚ) :=
  evidence.values.map fun used => (used.dimension.weight, used.value)

def Evidence.confidences (evidence : Evidence) : List (Nat × ℚ) :=
  evidence.values.map fun used => (used.dimension.weight, used.confidence)

/-- `available_weight`. -/
def Evidence.availableWeight (evidence : Evidence) : Nat := totalWeight evidence.scores

/-- `a / b`. -/
def divide (a b : ℚ) : Except RankerError ℚ :=
  if b = 0 then .error .zeroDivision else .ok (a / b)

/-- `round(value, 8)`. -/
def round8 (value : ℚ) : ℚ := PyFloat.roundTo value 8

def Evidence.allGates (evidence : Evidence) : List String :=
  if evidence.availableWeight = 0 then evidence.gates ++ ["NO_SCORABLE_EVIDENCE"]
  else evidence.gates

def Evidence.positives (evidence : Evidence) : List String :=
  (evidence.values.filter fun used => 65 ≤ used.value).map fun used =>
    "SUPPORT:" ++ used.dimension.text

def Evidence.allNegatives (evidence : Evidence) : List String :=
  evidence.negatives ++
    (evidence.values.filter fun used => used.value ≤ 40).map fun used =>
      "WEAK:" ++ used.dimension.text

/-- The opportunity of the values; none where there are none. -/
def Evidence.opportunity (evidence : Evidence) : Except RankerError (Option ℚ) :=
  if evidence.availableWeight = 0 then .ok none
  else (divide (weightedSum evidence.scores) evidence.availableWeight).map some

/-- `score`, from the evidence on. -/
def conclude (candidate : StageBCandidate) (rule : Option RuleResult) (evidence : Evidence) :
    Except RankerError GlobalOpportunityResult := do
  let opportunity ← evidence.opportunity
  let confidence ← divide (weightedSum evidence.confidences) evidence.applicableWeight
  let coverage ← divide (100 * evidence.availableWeight) evidence.applicableWeight
  let ruleEngineScore ← optionalScore (rule.bind fun rule => rule.overallScore)
  let technicalScore ← optionalScore candidate.technicalScore
  let sectorScore ← optionalScore candidate.sectorScore
  let riskScore ← optionalScore (rule.bind fun rule => rule.riskScore)
  let gates := evidence.allGates
  return {
    globalInstrumentId := candidate.globalInstrumentId
    opportunityScore := opportunity.map round8
    opportunityConfidence := round8 confidence
    scoreCoverage := round8 coverage
    rankEligible := gates.isEmpty
    ruleEngineScore
    technicalScore
    technicalState := candidate.technicalFeatureSnapshot.technicalState
    sectorScore
    sectorState := candidate.sectorRelativeStrengthSnapshot.sectorState
    riskScore
    topPositiveReasons := (sortedSet evidence.positives).take 6
    topNegativeReasons := (sortedSet gates ++
      sortedSet (evidence.allNegatives.filter fun code => code ∉ gates)).take 6
    eligibilityReasons := sortedSet gates }

/-- `GlobalOpportunityRanker.score`. -/
def score (candidate : StageBCandidate) (rule : Option RuleResult) :
    Except RankerError GlobalOpportunityResult := do
  conclude candidate rule (← collect candidate rule)

/-! ### The order -/

/-- `descending`: greater scores first, and none last. -/
def descending : Option ℚ → WithTop ℚ
  | some value => ((-value : ℚ) : WithTop ℚ)
  | none => ⊤

abbrev RankKey := WithTop ℚ ×ₗ ℚ ×ₗ ℚ ×ₗ WithTop ℚ ×ₗ String

def rankKey (result : GlobalOpportunityResult) : RankKey :=
  toLex (descending result.opportunityScore,
    toLex (-result.opportunityConfidence,
      toLex (-result.scoreCoverage,
        toLex (descending result.ruleEngineScore, result.globalInstrumentId))))

/-- The loop of `rank`, with the instruments seen. -/
def rankLoop (rules : String → Option RuleResult) (seen : List String) :
    List StageBCandidate → Except RankerError (List GlobalOpportunityResult)
  | [] => .ok []
  | candidate :: rest => do
      let key := candidate.globalInstrumentId
      raiseIf (key ∈ seen) .duplicateRankerInstrument
      let result ← score candidate (rules key)
      return result :: (← rankLoop rules (key :: seen) rest)

/-- `GlobalOpportunityRanker.rank`. -/
def rank (candidates : List StageBCandidate) (rules : String → Option RuleResult) :
    Except RankerError (List GlobalOpportunityResult) := do
  return sortOn rankKey (← rankLoop rules [] candidates)

end InvestmentPlatform.Ranker
