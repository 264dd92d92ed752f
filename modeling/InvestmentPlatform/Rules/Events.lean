/-
Events and news in the stock rule engine: which event counts for what, how much it scores,
and the impact of persisted news features, from `app/stock_rule_engine.py`,
`app/research_applicability.py` and `app/news_intelligence.py`.
-/
import InvestmentPlatform.Rules.Readings

namespace InvestmentPlatform.Rules

open Selection PyLibrary

variable [PyLibrary]

/-! ### Texts of the enumerations -/

def ResearchEventType.text : ResearchEventType → String
  | orderWin => "ORDER_WIN"
  | newContract => "NEW_CONTRACT"
  | clientWin => "CLIENT_WIN"
  | newPlant => "NEW_PLANT"
  | creditRating => "CREDIT_RATING"
  | borrowingChange => "BORROWING_CHANGE"
  | managementGuidance => "MANAGEMENT_GUIDANCE"
  | majorCorporateAnnouncement => "MAJOR_CORPORATE_ANNOUNCEMENT"
  | newOrder => "NEW_ORDER"
  | orderBacklogChange => "ORDER_BACKLOG_CHANGE"
  | newCustomer => "NEW_CUSTOMER"
  | customerExpansion => "CUSTOMER_EXPANSION"
  | majorCustomer => "MAJOR_CUSTOMER"
  | customerLoss => "CUSTOMER_LOSS"
  | majorContract => "MAJOR_CONTRACT"
  | governmentContract => "GOVERNMENT_CONTRACT"
  | capex => "CAPEX"
  | factoryExpansion => "FACTORY_EXPANSION"
  | capacityExpansion => "CAPACITY_EXPANSION"
  | newFacility => "NEW_FACILITY"
  | geographicExpansion => "GEOGRAPHIC_EXPANSION"
  | acquisition => "ACQUISITION"
  | partnership => "PARTNERSHIP"
  | productLaunch => "PRODUCT_LAUNCH"
  | guidanceRaised => "GUIDANCE_RAISED"
  | guidanceLowered => "GUIDANCE_LOWERED"
  | guidanceMaintained => "GUIDANCE_MAINTAINED"
  | guidanceCut => "GUIDANCE_CUT"
  | revenueGuidance => "REVENUE_GUIDANCE"
  | marginGuidance => "MARGIN_GUIDANCE"
  | investment => "INVESTMENT"
  | orderCancelled => "ORDER_CANCELLED"
  | projectDelay => "PROJECT_DELAY"
  | debtChange => "DEBT_CHANGE"
  | funding => "FUNDING"
  | managementChange => "MANAGEMENT_CHANGE"
  | regulatoryEvent => "REGULATORY_EVENT"
  | earningsRelease => "EARNINGS_RELEASE"
  | annualReport => "ANNUAL_REPORT"
  | other => "OTHER"

def SourceClassification.text : SourceClassification → String
  | officialCompany => "OFFICIAL_COMPANY"
  | regulatory => "REGULATORY"
  | exchange => "EXCHANGE"
  | customer => "CUSTOMER"
  | partner => "PARTNER"
  | supplier => "SUPPLIER"
  | reputableNews => "REPUTABLE_NEWS"
  | investmentResearch => "INVESTMENT_RESEARCH"
  | other => "OTHER"

/-! ### Terms -/

def macroTerms : List String :=
  ["war", "sanction", "tariff", "interest rate", "central bank", "commodity", "oil", "crude",
    "currency", "supply chain", "geopolitical"]

def fraudTerms : List String :=
  ["confirmed fraud", "accounting fraud", "accounting crisis", "financial misstatement"]

def criticalRegulatoryTerms : List String :=
  ["license revoked", "trading ban", "insolvency", "criminal enforcement", "operations suspended"]

def severeGovernanceTerms : List String := ["auditor", "resignation", "qualification"]

def resolutionTerms : List String :=
  ["resolved", "remediated", "cleared", "settled and closed", "no wrongdoing"]

def macroExposures : List (String × List String) :=
  [("energy", ["oil", "crude", "gas", "commodity"]),
    ("airline", ["oil", "fuel", "jet fuel"]),
    ("aviation", ["oil", "fuel", "jet fuel"]),
    ("financial", ["interest rate", "central bank", "credit"]),
    ("bank", ["interest rate", "central bank", "credit"]),
    ("materials", ["commodity", "tariff", "supply chain"]),
    ("industrial", ["tariff", "supply chain", "commodity"]),
    ("technology", ["sanction", "tariff", "supply chain", "currency"]),
    ("consumer", ["currency", "commodity", "interest rate"]),
    ("automobile", ["commodity", "tariff", "supply chain"])]

/-! ### Which events count -/

def eventText (event : ResearchEvent) : String :=
  casefold (" ".intercalate [event.title, event.summary])

def isAuthoritative (classification : SourceClassification) : Bool :=
  classification ∈ [SourceClassification.officialCompany, .regulatory, .exchange]

def isMacroEvent (event : ResearchEvent) : Bool :=
  macroTerms.any fun term => containsTerm (eventText event) term

/-- The sector is sensitive to something, and the event's evidence names it. -/
def provenMacroExposure (event : ResearchEvent) (sector : Option String) : Bool :=
  let text := casefold (" ".intercalate
    [event.title, event.summary, event.location.getD "", event.counterparty.getD ""])
  let label := casefold (sector.getD "")
  macroExposures.any fun exposure =>
    occursIn exposure.1 label && exposure.2.any fun term => containsTerm text term

def issuerOrProvenExposure (event : ResearchEvent) (sector : Option String) : Bool :=
  if event.sourceMode ≠ .real ∨ event.confidence < 0.5 then false
  else if isMacroEvent event then provenMacroExposure event sector
  else true

def catalystTypes : List ResearchEventType :=
  [.orderWin, .newContract, .clientWin, .newPlant, .majorCorporateAnnouncement, .newOrder,
    .orderBacklogChange, .newCustomer, .customerExpansion, .majorCustomer, .customerLoss,
    .majorContract, .governmentContract, .capex, .factoryExpansion, .capacityExpansion,
    .newFacility, .geographicExpansion, .acquisition, .partnership, .productLaunch,
    .guidanceRaised, .guidanceLowered, .guidanceMaintained, .guidanceCut, .orderCancelled,
    .projectDelay]

def materialCatalyst (event : ResearchEvent) : Bool :=
  event.sourceMode = .real ∧ event.status = .validated ∧ 0.6 ≤ event.confidence ∧
    event.reliability ∈ [ReliabilityLevel.levelA, .levelB] ∧ event.eventType ∈ catalystTypes ∧
    (event.monetaryValue.isSome ∨ event.capacityValue.isSome ∨ event.percentageValue.isSome ∨
      nonEmpty event.customer ≠ none ∨ nonEmpty event.counterparty ≠ none ∨
      isAuthoritative event.sourceClassification)

def governanceEvent (event : ResearchEvent) : Bool :=
  event.eventType ∈ [ResearchEventType.managementChange, .regulatoryEvent, .creditRating] ||
    governanceDisclosure (eventText event)

def isResolved (event : ResearchEvent) : Bool :=
  resolutionTerms.any fun term => containsTerm (eventText event) term

def authoritativeUnresolvedEvent (event : ResearchEvent) : Bool :=
  event.sourceMode = .real ∧ event.status = .validated ∧ event.reliability = .levelA ∧
    isAuthoritative event.sourceClassification ∧ 0.75 ≤ event.confidence ∧ isResolved event = false

def conceptInputs : List (String × String) :=
  [("ORDER_BOOK", "ORDER_BOOK_OR_MAJOR_CONTRACT"),
    ("CAPEX", "CAPACITY_OR_CAPEX_OR_COMMISSIONING"), ("GUIDANCE", "MANAGEMENT_GUIDANCE")]

def eventConcept (eventType : ResearchEventType) : Option String :=
  if eventType ∈ [.newOrder, .orderBacklogChange, .majorContract, .governmentContract,
      .orderCancelled] then some "ORDER_BOOK"
  else if eventType ∈ [.capex, .factoryExpansion, .capacityExpansion, .newFacility,
      .projectDelay] then some "CAPEX"
  else if eventType ∈ [.guidanceRaised, .guidanceLowered, .guidanceMaintained, .guidanceCut] then
    some "GUIDANCE"
  else none

/-! ### What an event scores -/

def eventAuthority (event : ResearchEvent) : Nat :=
  match event.sourceClassification with
  | .regulatory | .exchange => 5
  | .officialCompany => 4
  | .reputableNews => 2
  | _ => 1

def impactDirection : EventImpact → ℚ
  | .strongPositive => 1
  | .positive => 0.6
  | .neutral => 0
  | .uncertain => 0
  | .negative => -0.6
  | .strongNegative => -1

def reliabilityFactor : ReliabilityLevel → ℚ
  | .levelA => 1
  | .levelB => 0.85
  | .levelC => 0.65
  | .levelD => 0.4
  | .levelE => 0.2

def durationFactor : TimeHorizon → ℚ
  | .immediate => 0.75
  | .shortTerm => 0.85
  | .mediumTerm => 1
  | .longTerm => 1
  | .unknown => 0.6

def eventSeverity (event : ResearchEvent) : ℚ :=
  let severity : ℚ := if event.eventType ∈ [.majorContract, .governmentContract,
    .orderCancelled, .projectDelay, .guidanceRaised, .guidanceCut, .regulatoryEvent,
    .managementChange] then 1 else 0.75
  if event.monetaryValue.isSome ∨ event.capacityValue.isSome ∨ event.percentageValue.isSome then
    min 1 (severity + 0.1)
  else severity

def eventMetricScore (event : ResearchEvent) : ℚ :=
  roundScore (clamp (50 + impactDirection event.impact * 50 * eventSeverity event *
    (event.confidence * reliabilityFactor event.reliability) * durationFactor event.timeHorizon))

def eventDatum (event : ResearchEvent) : Datum where
  value := eventMetricScore event
  source := event.sourceClassification.text
  sourceUrl := some event.sourceUrl
  asOf := some ((event.eventDate.or event.publishedAt).getD event.detectedAt)
  evidenceId := ":".intercalate ["event", event.eventId]
  unit := some "EVENT"
  authority := eventAuthority event

/-! ### News features -/

inductive SearchState
  | readyWithEvents | readyNoEvents | partialSearch | failedSearch | staleSearch
  deriving DecidableEq, Repr

def searchState (run : Option SearchRun) (now : Instant) : SearchState :=
  match run with
  | none => .failedSearch
  | some run =>
      if now < run.completedAt ∨ day < now - run.completedAt then .staleSearch
      else match run.outcome with
        | .completeWithEvents => .readyWithEvents
        | .completeNoEvents => .readyNoEvents
        | .partialSearch => .partialSearch
        | .failedSearch => .failedSearch

/-- The feature was computed, discovered and public by then. -/
def EventImpactFeature.Known (feature : EventImpactFeature) (now : Instant) : Prop :=
  feature.publicAvailableAt ≤ now ∧ feature.discoveredAt ≤ now ∧ feature.computedAt ≤ now

instance (feature : EventImpactFeature) (now : Instant) : Decidable (feature.Known now) :=
  inferInstanceAs (Decidable (_ ∧ _ ∧ _))

def impactAt (feature : EventImpactFeature) (now : Instant) : Option ℚ :=
  if ¬ feature.Known now then none
  else match feature.validUntil with
    | none => some feature.impactScore
    | some validUntil =>
        if validUntil ≤ now then none
        else
          let start := feature.publicationTime.getD feature.discoveredAt
          let decay : ℚ := max 0 (min 1 ((validUntil - now : Int) / (validUntil - start : Int)))
          some (PyFloat.roundTo (feature.impactScore * decay) 8)

abbrev FeatureRank := Instant ×ₗ String

def featureRank (feature : EventImpactFeature) : FeatureRank :=
  toLex (feature.computedAt, feature.featureId)

/-- The latest known revision of each event, by event key. -/
def latestKnownFeatures (features : List EventImpactFeature) (now : Instant) :
    List EventImpactFeature :=
  sortOn EventImpactFeature.eventKey
    (keepBest EventImpactFeature.eventKey featureRank
      (features.filter fun feature => feature.Known now))

def aggregateImpact (features : List EventImpactFeature) (now : Instant) : Option ℚ :=
  match (latestKnownFeatures features now).filterMap fun feature => impactAt feature now with
  | [] => none
  | values => some (PyFloat.roundTo (values.sum / values.length) 8)

end InvestmentPlatform.Rules

/-!
What the area evaluators of `StockRuleEngineV1` have in common.

An evaluator collects metrics with their sub-rule weights and leaves the rest to `_finish`,
which weighs them, and says from the readiness of the area's requirements how far the score
can be trusted.
-/

namespace InvestmentPlatform.Rules

open Selection PyLibrary

/-! ### What an area returns -/

inductive MetricValue
  | number (value : ℚ)
  | text (value : String)
  | event (direction : EventImpact) (confidence : ℚ)
  deriving DecidableEq, Repr

structure RuleMetricResult where
  metric : String
  value : MetricValue
  unit : String
  score : ℚ
  rule : String
  configuredSubruleWeight : Nat
  appliedWeightPct : ℚ
  source : String
  sourceUrl : Option String
  asOf : Option Instant
  evidenceReferences : List String
  deriving DecidableEq, Repr

structure RuleSourceReference where
  sourceProvider : Option String
  sourceTier : Option ResearchSourceTier
  sourceUrl : String
  asOf : Option Instant
  retrievedAt : Option Instant
  evidenceReferences : List String
  deriving DecidableEq, Repr

inductive AreaScoreStatus
  | readyFresh | readyStale | partialCoverage | conflicting | unscorable | unsupported
  | notApplicable
  deriving DecidableEq, Repr

structure AreaScoreResult where
  area : RuleEngineArea
  weight : Nat
  rawScore : Option ℚ := none
  weightedContribution : ℚ := 0
  status : AreaScoreStatus
  applicable : Bool
  metrics : List RuleMetricResult := []
  positiveFactors : List String := []
  negativeFactors : List String := []
  evidenceReferences : List String := []
  sourceReferences : List RuleSourceReference := []
  missingInputs : List String := []
  deriving DecidableEq, Repr

/-- `STOCK_RULE_ENGINE_AREA_WEIGHTS`. -/
def areaWeight : RuleEngineArea → Nat
  | .valuation => 18
  | .fundamentalBusinessQuality => 16
  | .growth => 14
  | .balanceSheet => 9
  | .quarterlyEarningsTrend => 9
  | .orderBookCapacityCatalysts => 8
  | .priceTechnical => 7
  | .newsGeopoliticalEvents => 7
  | .shareholding => 4
  | .managementGovernance => 5
  | .sectorMacro => 3

variable [PyLibrary]

/-! ### Metrics -/

/-- A metric and its sub-rule weight. -/
abbrev Weighted := RuleMetricResult × Nat

/-- `_metric_result` with its sub-rule weight, before the weights are applied. -/
def metricOf (name : String) (value : MetricValue) (datum : Datum) (score : ℚ) (rule unit : String)
    (weight : Nat) : Weighted :=
  ({ metric := name
     value
     unit
     score := roundScore score
     rule
     configuredSubruleWeight := 1
     appliedWeightPct := 100
     source := datum.source
     sourceUrl := datum.sourceUrl
     asOf := datum.asOf
     evidenceReferences :=
       sortedSet ((datum.evidenceId.toList.splitOn '|').map String.ofList) }, weight)

def metricResult (name : String) (datum : Datum) (score : ℚ) (rule unit : String) (weight : Nat) :
    Weighted :=
  metricOf name (.number datum.value) datum score rule unit weight

/-- A metric of a datum that is there. -/
def metricsOf (datum : Option Datum) (metrics : Datum → List Weighted) : List Weighted :=
  datum.elim [] metrics

/-- A metric of a datum that is there and positive. -/
def positiveMetrics (datum : Option Datum) (metrics : Datum → List Weighted) : List Weighted :=
  metricsOf (datum.filter fun d => 0 < d.value) metrics

/-- The last `n` elements, `l[-n:]`. -/
def lastN {α : Type} (n : Nat) (l : List α) : List α := l.drop (l.length - n)

/-! ### Finishing an area -/

def areaReadiness (v : StockRuleEngineInput) (area : RuleEngineArea) :
    List ResearchRequirementReadiness :=
  v.readiness.requirements.filter fun item => item.ruleEngineArea = area

abbrev SourceKey :=
  Option String × Option ResearchSourceTier × String × Option Instant × Option Instant

def sourceKey (item : ResearchRequirementReadiness) : SourceKey :=
  (item.source, item.sourceTier, item.sourceUrl.getD "", item.asOf, item.retrievedAt)

/-- `_readiness_source_references`. -/
def readinessSourceReferences (readiness : List ResearchRequirementReadiness) :
    List RuleSourceReference :=
  let groups := groupOn sourceKey (readiness.filter fun item => nonEmpty item.sourceUrl ≠ none)
  let references := groups.filterMap fun items => items.head?.map fun item =>
    { sourceProvider := item.source
      sourceTier := item.sourceTier
      sourceUrl := item.sourceUrl.getD ""
      asOf := item.asOf
      retrievedAt := item.retrievedAt
      evidenceReferences :=
        sortedSet (items.flatMap ResearchRequirementReadiness.evidenceIds) }
  sortOn (fun r : RuleSourceReference => toLex (r.sourceProvider.getD "",
    toLex (r.sourceUrl, toLex ((r.asOf.map isoformat).getD "",
      (r.retrievedAt.map isoformat).getD "")))) references

/-- The inputs readiness misses, those of an unready concept included. -/
def readinessMissing (readiness : List ResearchRequirementReadiness) : List String :=
  readiness.flatMap ResearchRequirementReadiness.missingInputIds ++
    readiness.flatMap fun item => item.conceptEvidenceStates.filterMap fun state =>
      if state.2 ∈ ["READY_FRESH", "READY_STALE", "NOT_APPLICABLE"] then none
      else conceptInputs.lookup state.1

/-- How far a scored area can be trusted. -/
def scoredStatus (readiness : List ResearchRequirementReadiness) (missingInputs : List String) :
    AreaScoreStatus :=
  if ∃ item ∈ readiness, item.status = .conflicting then .conflicting
  else if (∃ item ∈ readiness, item.status ∈
      [ResearchRequirementStatus.missing, .partialCoverage, .failed, .refreshing]) ∨
      missingInputs ≠ [] then .partialCoverage
  else if (∃ item ∈ readiness, item.status = .readyStale) ∨
      (∃ item ∈ readiness, ∃ state ∈ item.conceptEvidenceStates, state.2 = "READY_STALE") then
    .readyStale
  else .readyFresh

def rawAreaScore (weighted : List Weighted) : ℚ :=
  roundScore ((weighted.map fun m => m.1.score * (m.2 : ℚ)).sum / ((weighted.map Prod.snd).sum : Nat))

/-- The metrics with their share of the area's weight. -/
def appliedMetrics (weighted : List Weighted) : List RuleMetricResult :=
  weighted.map fun m => { m.1 with
    configuredSubruleWeight := m.2
    appliedWeightPct := roundScore ((m.2 : ℚ) * 100 / ((weighted.map Prod.snd).sum : Nat)) }

/-- `f"{metric}: {score:.2f}/100"` of the metrics some test accepts. -/
def factors (metrics : List RuleMetricResult) (test : ℚ → Bool) : List String :=
  (metrics.filter fun m => test m.score).map fun m =>
    "".intercalate [m.metric, ": ", fixed2 m.score, "/100"]

/-- `_finish`. -/
def finish (v : StockRuleEngineInput) (area : RuleEngineArea) (weighted : List Weighted)
    (missing : List String) (applicable : Bool) : AreaScoreResult :=
  let readiness := areaReadiness v area
  let sourceReferences := readinessSourceReferences readiness
  let readinessEvidence := readiness.flatMap ResearchRequirementReadiness.evidenceIds
  let missingInputs := sortedSet (missing ++ readinessMissing readiness)
  if readiness ≠ [] ∧ ∀ item ∈ readiness, item.status = .notApplicable then
    { area, weight := areaWeight area, status := .notApplicable, applicable := false }
  else if applicable = false ∨
      (readiness ≠ [] ∧ ∀ item ∈ readiness, item.status = .unsupported) then
    { area, weight := areaWeight area, status := .unsupported, applicable := false
      evidenceReferences := sortedSet readinessEvidence, sourceReferences }
  else if weighted = [] then
    { area, weight := areaWeight area, status := .unscorable, applicable := true
      evidenceReferences := sortedSet readinessEvidence, sourceReferences, missingInputs }
  else
    let metrics := appliedMetrics weighted
    let raw := rawAreaScore weighted
    { area, weight := areaWeight area
      rawScore := some raw
      weightedContribution := roundScore (raw * areaWeight area / 100)
      status := scoredStatus readiness missingInputs
      applicable := true
      metrics
      positiveFactors := factors metrics fun score => 65 ≤ score
      negativeFactors := factors metrics fun score => score ≤ 40
      evidenceReferences := sortedSet (readinessEvidence ++
        metrics.flatMap RuleMetricResult.evidenceReferences)
      sourceReferences
      missingInputs }

/-- `[] if metrics else [...]`. -/
def missingWithout (metrics : List Weighted) (missing : String) : List String :=
  if metrics = [] then [missing] else []

def fullStatuses : List ResearchRequirementStatus := [.readyFresh, .readyStale]

/-- An area without a score, ready because its requirements are. -/
def readyWithoutScore (base : AreaScoreResult) (readiness : List ResearchRequirementReadiness)
    (references : List String) : AreaScoreResult :=
  { base with
    status := if ∃ item ∈ readiness, item.status = .readyStale then .readyStale else .readyFresh
    missingInputs := []
    evidenceReferences := sortedSet (base.evidenceReferences ++ references) }

end InvestmentPlatform.Rules
