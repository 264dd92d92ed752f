/-
`StockRuleEngineV1.evaluate`: the eligibility gate, the headline scores, the confidence, the
risk overrides and the decision signal over the eleven areas.

The engine raises in one way only, where it looks a requirement up that readiness does not
have; such an evaluation is `none`.
-/
import InvestmentPlatform.Rules.Fundamentals
import InvestmentPlatform.Rules.Signals

namespace InvestmentPlatform.Rules

open Selection PyLibrary

/-! ### What an evaluation returns -/

inductive DecisionSignal
  | strongBuy | buy | accumulate | hold | reduce | avoid | exitReview | insufficientData
  deriving DecidableEq, Repr

inductive ConfidenceLevel
  | high | medium | low
  deriving DecidableEq, Repr

inductive RiskOverrideSeverity
  | high | critical
  deriving DecidableEq, Repr

structure RiskOverrideResult where
  code : String
  severity : RiskOverrideSeverity
  effect : String
  evidenceIds : List String
  deriving DecidableEq, Repr

structure AnalysisEligibility where
  fullAnalysisAllowed : Bool
  partialAnalysisAllowed : Bool
  blockingRequirements : List String
  reason : String
  deriving DecidableEq, Repr

structure StockRuleEngineResult where
  calculatedAt : Instant
  globalInstrumentId : String
  inputAsOf : Option Instant
  overallScore : Option ℚ
  qualityScore : Option ℚ
  opportunityScore : Option ℚ
  riskScore : Option ℚ
  confidenceScore : ℚ
  confidence : ConfidenceLevel
  decisionSignal : DecisionSignal
  isPartial : Bool
  eligibility : AnalysisEligibility
  areaScores : List AreaScoreResult
  riskOverrides : List RiskOverrideResult
  missingInputs : List String
  evidenceReferences : List String
  deriving DecidableEq, Repr

/-! ### Eligibility -/

def criticalRequirements : List String :=
  ["VALUATION_INPUTS", "BUSINESS_QUALITY_FACTS", "BALANCE_SHEET_FACTS", "QUARTERLY_FINANCIALS",
    "LATEST_PRICE"]

def exemptStatuses : List ResearchRequirementStatus := [.notApplicable, .unsupported]

def usableStatuses : List ResearchRequirementStatus := [.readyFresh, .readyStale, .partialCoverage]

/-- `by_id.get(key)`: the last requirement of that id. -/
def requirementById (readiness : ResearchReadinessResult) (key : String) :
    Option ResearchRequirementReadiness :=
  readiness.requirements.reverse.find? fun item => item.requirementId = key

def mandatoryBlocking (readiness : ResearchReadinessResult) : List String :=
  (readiness.requirements.filter fun item => item.mandatory ∧ item.status ∉ fullStatuses ∧
    item.status ∉ exemptStatuses ∧ item.requirementId ≠ "CURRENT_NEWS").map
      ResearchRequirementReadiness.requirementId

def criticalBlocking (readiness : ResearchReadinessResult) : List String :=
  criticalRequirements.filter fun key =>
    ∀ item ∈ requirementById readiness key,
      item.status ∉ fullStatuses ∧ item.status ≠ .notApplicable

/-- `StockRuleEngineEligibilityPolicy.evaluate`. -/
def eligibility (readiness : ResearchReadinessResult) : AnalysisEligibility :=
  let critical := criticalRequirements.filterMap (requirementById readiness)
  let blockers := mandatoryBlocking readiness ++ criticalBlocking readiness
  let full : Bool := 80 ≤ readiness.criticalCompletenessPct ∧ blockers = []
  let isPartial : Bool := full = false ∧ 50 ≤ readiness.criticalCompletenessPct ∧
    3 ≤ (critical.filter fun item => item.status ∈ usableStatuses).length ∧
    (∃ latest ∈ requirementById readiness "LATEST_PRICE", latest.status ∈ usableStatuses) ∧
    ∀ item ∈ critical, item.status ≠ .conflicting
  { fullAnalysisAllowed := full
    partialAnalysisAllowed := isPartial
    blockingRequirements := sortedSet blockers
    reason := if full then "FULL_CRITICAL_AND_MANDATORY_INPUTS_AVAILABLE"
      else if isPartial then "MINIMUM_SAFE_PARTIAL_GATE_AVAILABLE"
      else "MINIMUM_SAFE_CRITICAL_INPUTS_UNAVAILABLE" }

def RuleEngineArea.text : RuleEngineArea → String
  | valuation => "VALUATION"
  | fundamentalBusinessQuality => "FUNDAMENTAL_BUSINESS_QUALITY"
  | growth => "GROWTH"
  | balanceSheet => "BALANCE_SHEET"
  | quarterlyEarningsTrend => "QUARTERLY_EARNINGS_TREND"
  | orderBookCapacityCatalysts => "ORDER_BOOK_CAPACITY_CATALYSTS"
  | priceTechnical => "PRICE_TECHNICAL"
  | newsGeopoliticalEvents => "NEWS_GEOPOLITICAL_EVENTS"
  | shareholding => "SHAREHOLDING"
  | managementGovernance => "MANAGEMENT_GOVERNANCE"
  | sectorMacro => "SECTOR_MACRO"

/-- The areas a full result must have been able to score, and has not. -/
def unscorableAreas (areas : List AreaScoreResult) : List RuleEngineArea :=
  (areas.filter fun item => item.applicable ∧ item.status = .unscorable ∧
    item.area ≠ .newsGeopoliticalEvents).map AreaScoreResult.area

/-- `_require_scorable_areas`. -/
def requireScorableAreas (allowed : AnalysisEligibility) (readiness : ResearchReadinessResult)
    (areas : List AreaScoreResult) : AnalysisEligibility :=
  let unscorable := unscorableAreas areas
  if allowed.fullAnalysisAllowed = false ∨ unscorable = [] then allowed
  else
    let named := (readiness.requirements.filter fun item =>
      item.ruleEngineArea ∈ unscorable).map ResearchRequirementReadiness.requirementId
    let blocked := if named = [] then unscorable.map RuleEngineArea.text else named
    { fullAnalysisAllowed := false
      partialAnalysisAllowed := true
      blockingRequirements := sortedSet (allowed.blockingRequirements ++ blocked)
      reason := "APPLICABLE_RULE_ENGINE_AREA_UNSCORABLE" }

/-! ### Headline scores -/

/-- A mean of raw scores with given weights, `_area_weighted_score` and
`_custom_area_score`. -/
def weightedScore (areas : List AreaScoreResult) (weight : RuleEngineArea → Nat) : Option ℚ :=
  let included := areas.filterMap fun item => item.rawScore.bind fun raw =>
    if item.applicable ∧ weight item.area ≠ 0 then some (raw, weight item.area) else none
  let total := (included.map Prod.snd).sum
  if total = 0 then none
  else some (roundScore ((included.map fun m => m.1 * (m.2 : ℚ)).sum / total))

def qualityAreas : List RuleEngineArea :=
  [.fundamentalBusinessQuality, .growth, .balanceSheet, .quarterlyEarningsTrend,
    .managementGovernance]

def opportunityAreas : List RuleEngineArea :=
  [.valuation, .orderBookCapacityCatalysts, .priceTechnical, .newsGeopoliticalEvents, .sectorMacro]

def weightWithin (areas : List RuleEngineArea) (area : RuleEngineArea) : Nat :=
  if area ∈ areas then areaWeight area else 0

def resilienceWeight : RuleEngineArea → Nat
  | .balanceSheet => 30
  | .managementGovernance => 30
  | .quarterlyEarningsTrend => 15
  | .newsGeopoliticalEvents => 15
  | .fundamentalBusinessQuality => 10
  | _ => 0

/-! ### Confidence -/

def authorityPoints : ResearchSourceTier → ℚ
  | .official => 100
  | .regulatory => 100
  | .trustedMarketData => 90
  | .licensedStructured => 80
  | .approvedSecondary => 65
  | .approvedExternalTool => 50
  | .userUpload => 40
  | .unverified => 20

def freshnessPoints : ResearchRequirementStatus → ℚ
  | .readyFresh => 100
  | .readyStale => 55
  | .partialCoverage => 40
  | .conflicting => 20
  | .refreshing => 20
  | _ => 0

/-- The mean of some numbers, 0 of none. -/
def mean (values : List ℚ) : ℚ := if values = [] then 0 else values.sum / values.length

def confidenceScore (readiness : ResearchReadinessResult) : ℚ :=
  let supported := readiness.requirements.filter fun item => item.status ∉ exemptStatuses
  let conflicts := (supported.filter fun item => item.status = .conflicting).length
  roundScore (clamp (readiness.criticalCompletenessPct * 0.4 +
    readiness.overallCompletenessPct * 0.2 +
    mean ((supported.filterMap ResearchRequirementReadiness.sourceTier).map authorityPoints) * 0.2 +
    mean (supported.map fun item => freshnessPoints item.status) * 0.2 -
    (min 30 (conflicts * 15) : Nat)))

def confidenceLevel (score : ℚ) : ConfidenceLevel :=
  if 80 ≤ score then .high else if 55 ≤ score then .medium else .low

/-! ### Risk overrides -/

variable [PyLibrary]

def blockBuy (code : String) (severity : RiskOverrideSeverity) (evidenceIds : List String) :
    RiskOverrideResult :=
  { code, severity, effect := "BLOCK_BUY", evidenceIds }

def governanceEvidenceId (event : ResearchEvent) : String :=
  ":".intercalate ["event", event.eventId, "GOVERNANCE_HISTORY"]

/-- The override of one authoritative unresolved event. -/
def eventOverride (event : ResearchEvent) : Option RiskOverrideResult :=
  let mentions := fun terms : List String => terms.any fun term => occursIn term (eventText event)
  let evidence := [governanceEvidenceId event]
  if event.impact ≠ .strongNegative then none
  else if mentions fraudTerms then
    some (blockBuy "CONFIRMED_FRAUD_OR_ACCOUNTING_CRISIS" .critical evidence)
  else if event.eventType = .regulatoryEvent ∧ mentions criticalRegulatoryTerms then
    some (blockBuy "CRITICAL_REGULATORY_ACTION" .critical evidence)
  else if event.eventType = .managementChange ∧ mentions severeGovernanceTerms then
    some (blockBuy "SEVERE_UNRESOLVED_GOVERNANCE" .high evidence)
  else none

/-- `_extreme_balance_sheet_evidence`. -/
def extremeBalanceSheetEvidence (v : StockRuleEngineInput) : List String :=
  match debtEquityDatum v (structuredData v), latestFact v ["ebitda"] (some "ANNUAL"),
      latestFact v ["finance_cost", "interest_expense"] (some "ANNUAL") with
  | some de, some ebitda, some financeCost =>
      if 300 < de.value ∧ 0 < financeCost.value ∧ compatibleFinancialData ebitda financeCost ∧
          ebitda.value / financeCost.value < 1 ∧
          ∀ d ∈ [de, ebitda, financeCost], factSourceAuthority .officialNse ≤ d.authority then
        sortedSet ([de, ebitda, financeCost].flatMap fun d =>
          (d.evidenceId.toList.splitOn '|').map String.ofList)
      else []
  | _, _, _ => []

def authoritativeEvents (v : StockRuleEngineInput) : List ResearchEvent :=
  v.events.filter fun event => authoritativeUnresolvedEvent event

def negativeGuidance (v : StockRuleEngineInput) : List ResearchEvent :=
  (authoritativeEvents v).filter fun event =>
    event.eventType ∈ [ResearchEventType.guidanceCut, .orderCancelled, .projectDelay]

def riskOverrides (v : StockRuleEngineInput) : List RiskOverrideResult :=
  let severe := (latestKnownFeatures v.newsFeatures v.evaluatedAt).filter fun feature =>
    feature.severeValidated ∧ impactAt feature v.evaluatedAt ≠ none
  let extreme := if isFinancial v then [] else extremeBalanceSheetEvidence v
  let guidance := negativeGuidance v
  let sources := (guidance.map fun event =>
    (nonEmpty event.independenceKey).getD event.sourceUrl).dedup
  keepFirst RiskOverrideResult.code (
    severe.map (fun feature =>
      blockBuy ("VALIDATED_" ++ feature.eventType) .critical [feature.featureId]) ++
    (authoritativeEvents v).filterMap eventOverride ++
    (if extreme = [] then [] else
      [blockBuy "EXTREME_BALANCE_SHEET_STRESS" .critical extreme]) ++
    (if 2 ≤ sources.length then
      [blockBuy "BROKEN_INVESTMENT_THESIS" .high
        ((guidance.map governanceEvidenceId).insertionSort (· ≤ ·))]
    else []))

/-! ### Decision -/

def scoreBand (score : ℚ) : DecisionSignal :=
  if 85 ≤ score then .strongBuy
  else if 75 ≤ score then .buy
  else if 65 ≤ score then .accumulate
  else if 50 ≤ score then .hold
  else if 35 ≤ score then .reduce
  else if 20 ≤ score then .avoid
  else .exitReview

/-- `all` over the critical requirements, which stops at the first that is not fresh; nothing
where it comes to one that readiness does not have. -/
def criticalFresh (readiness : ResearchReadinessResult) : List String → Option Bool
  | [] => some true
  | key :: rest => (forRequirement readiness key).bind fun item =>
      if item.status = .readyFresh then criticalFresh readiness rest else some false

/-- `_decision`. -/
def decision (score : Option ℚ) (readiness : ResearchReadinessResult)
    (confidence : ConfidenceLevel) (isPartial : Bool) (overrides : List RiskOverrideResult) :
    Option DecisionSignal :=
  match score with
  | none => some .insufficientData
  | some score =>
      if ∃ item ∈ overrides, item.effect = "BLOCK_BUY" then
        if ∃ item ∈ overrides, item.severity = .critical then some .exitReview else some .avoid
      else (criticalFresh readiness criticalRequirements).map fun fresh =>
        let banded := scoreBand score
        let confident := if banded = .strongBuy ∧ (readiness.criticalCompletenessPct < 100 ∨
          confidence ≠ .high ∨ fresh = false) then .buy else banded
        let agreed := if (∃ item ∈ readiness.requirements, item.status = .conflicting ∧
            item.mandatory) ∧ confident ∈ [DecisionSignal.strongBuy, .buy] then .hold
          else confident
        if isPartial ∧ agreed ∈ [DecisionSignal.strongBuy, .buy, .accumulate] then .hold
        else agreed

/-! ### The evaluation -/

/-- `_input_as_of`. -/
def inputAsOf (v : StockRuleEngineInput) : Option Instant :=
  ((usablePrices v.marketPrices).map MarketPriceObservation.observedAt ++
    v.financialFacts.filterMap (fun fact => fact.asOfDate.or (periodDatetime fact.periodEnd)) ++
    v.structuredSnapshots.filterMap StructuredMarketSnapshotRecord.marketAsOf ++
    v.events.filterMap (fun event => event.eventDate.or event.publishedAt) ++
    v.shareholding.map ShareholdingSnapshot.periodEnd).max?

/-- The areas, in the engine's order. -/
def areaResults (v : StockRuleEngineInput) : Option (List AreaScoreResult) :=
  (balanceSheet v).map fun balance =>
    [valuation v, quality v, growth v, balance, quarterly v, catalysts v, technical v, news v,
      shareholdingArea v, governance v, sectorMacro v]

/-- The result, given the areas. -/
def assemble (v : StockRuleEngineInput) (allowPartial : Bool) (areas : List AreaScoreResult) :
    Option StockRuleEngineResult :=
  let allowed := requireScorableAreas (eligibility v.readiness) v.readiness areas
  let rawOverall := weightedScore areas areaWeight
  let confidence := confidenceScore v.readiness
  let overrides := riskOverrides v
  let permitted := allowed.fullAnalysisAllowed || (allowPartial && allowed.partialAnalysisAllowed)
  let isPartial := !allowed.fullAnalysisAllowed
  let whenPermitted := fun score : Option ℚ => if permitted then score else none
  let signal := if permitted then
      decision rawOverall v.readiness (confidenceLevel confidence) isPartial overrides
    else some .insufficientData
  signal.map fun signal =>
    { calculatedAt := v.evaluatedAt
      globalInstrumentId := v.profile.instrumentId
      inputAsOf := inputAsOf v
      overallScore := whenPermitted rawOverall
      qualityScore := whenPermitted (weightedScore areas (weightWithin qualityAreas))
      opportunityScore := whenPermitted (weightedScore areas (weightWithin opportunityAreas))
      riskScore := whenPermitted
        ((weightedScore areas resilienceWeight).map fun resilience => roundScore (100 - resilience))
      confidenceScore := confidence
      confidence := confidenceLevel confidence
      decisionSignal := signal
      isPartial
      eligibility := allowed
      areaScores := areas
      riskOverrides := overrides
      missingInputs := sortedSet (allowed.blockingRequirements ++
        areas.flatMap AreaScoreResult.missingInputs)
      evidenceReferences := sortedSet (areas.flatMap AreaScoreResult.evidenceReferences ++
        overrides.flatMap RiskOverrideResult.evidenceIds) }

/-- `StockRuleEngineV1.evaluate`, without the fingerprint it is labelled with. -/
def evaluate (v : StockRuleEngineInput) (allowPartial : Bool) : Option StockRuleEngineResult :=
  (areaResults v).bind (assemble v allowPartial)

end InvestmentPlatform.Rules
