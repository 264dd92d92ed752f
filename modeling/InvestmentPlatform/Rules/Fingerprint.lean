/-
The payload of `StockRuleEngineV1.input_fingerprint`, and the cache it is the key of.

The digest is a hash of the payload's canonical JSON, so two inputs share a cache key when
their payloads are equal.  Date-times are encoded in UTC, decimals as their text; both are
kept as values here.
-/
import InvestmentPlatform.Rules.Readings

namespace InvestmentPlatform.Rules

open Selection PyLibrary

/-! ### The entries of the payload -/

structure ReadinessEntry where
  id : String
  status : ResearchRequirementStatus
  coverage : Int
  criticalCoverage : Int
  source : Option String
  sourceTier : Option ResearchSourceTier
  sourceUrl : Option String
  asOf : Option Instant
  evidence : List String
  missing : List String
  conflict : Option String
  deriving DecidableEq, Repr

structure FactEntry where
  metric : String
  periodEnd : Option String
  periodType : String
  basis : Option String
  value : String
  unit : Option String
  source : String
  sourceIdentity : String
  sourceTier : FactSourceTier
  sourceUrl : String
  asOf : Option Instant
  deriving DecidableEq, Repr

structure StructuredFactEntry where
  key : String
  value : String
  asOf : Option Instant
  source : String
  url : String
  deriving DecidableEq, Repr

structure StructuredEntry where
  provider : String
  providerId : Option String
  marketAsOf : Option Instant
  facts : List StructuredFactEntry
  deriving DecidableEq, Repr

structure PriceEntry where
  observedAt : Instant
  price : ℚ
  provider : String
  deriving DecidableEq, Repr

structure EventEntry where
  id : String
  type : ResearchEventType
  date : Option Instant
  title : String
  summary : String
  impact : EventImpact
  horizon : TimeHorizon
  confidence : ℚ
  status : ResearchLifecycleStatus
  classification : SourceClassification
  reliability : ReliabilityLevel
  sourceUrl : String
  monetary : Option ℚ
  percentage : Option ℚ
  capacity : Option ℚ
  counterparty : Option String
  customer : Option String
  location : Option String
  deriving DecidableEq, Repr

structure ShareholdingEntry where
  id : String
  periodEnd : Instant
  provider : String
  url : String
  values : List (String × ℚ × Option String)
  deriving DecidableEq, Repr

structure FingerprintPayload where
  newsFeatures : List EventImpactFeature
  newsSearch : Option SearchRun
  newsEvaluationDate : Option Instant
  partialAllowed : Bool
  evaluationDate : Int
  globalInstrumentId : String
  profile : String × String × String × String × Option String
  readiness : List ReadinessEntry
  financialFacts : List FactEntry
  structured : List StructuredEntry
  prices : List PriceEntry
  events : List EventEntry
  shareholding : List ShareholdingEntry
  deriving DecidableEq, Repr

/-! ### How the input is encoded -/

def ShareholdingCategory.text : ShareholdingCategory → String
  | promoter => "PROMOTER"
  | promoterPledge => "PROMOTER_PLEDGE"
  | fiiFpi => "FII_FPI"
  | dii => "DII"
  | mutualFunds => "MUTUAL_FUNDS"
  | insurance => "INSURANCE"
  | government => "GOVERNMENT"
  | publicRetail => "PUBLIC_RETAIL"
  | others => "OTHERS"

def readinessEntry (item : ResearchRequirementReadiness) : ReadinessEntry where
  id := item.requirementId
  status := item.status
  coverage := item.coveragePct
  criticalCoverage := item.criticalCoveragePct
  source := item.source
  sourceTier := item.sourceTier
  sourceUrl := item.sourceUrl
  asOf := item.asOf
  evidence := item.evidenceIds.insertionSort (· ≤ ·)
  missing := item.missingInputIds.insertionSort (· ≤ ·)
  conflict := item.conflictReason

def structuredFactEntry (entry : String × ProvenancedValue) : Option StructuredFactEntry :=
  entry.2.value.map fun value =>
    { key := entry.1
      value := value.str
      asOf := entry.2.asOfDate
      source := entry.2.sourceName
      url := entry.2.sourceUrl }

def structuredEntry (record : StructuredMarketSnapshotRecord) : StructuredEntry where
  provider := record.provider
  providerId := record.providerInstrumentId
  marketAsOf := record.marketAsOf
  facts := (sortOn Prod.fst record.facts).filterMap structuredFactEntry

def priceEntry (p : MarketPriceObservation) : PriceEntry where
  observedAt := p.observedAt
  price := p.price
  provider := p.provider

def eventEntry (event : ResearchEvent) : EventEntry where
  id := event.eventId
  type := event.eventType
  date := event.eventDate.or event.publishedAt
  title := event.title
  summary := event.summary
  impact := event.impact
  horizon := event.timeHorizon
  confidence := event.confidence
  status := event.status
  classification := event.sourceClassification
  reliability := event.reliability
  sourceUrl := event.sourceUrl
  monetary := event.monetaryValue
  percentage := event.percentageValue
  capacity := event.capacityValue
  counterparty := event.counterparty
  customer := event.customer
  location := event.location

/-- One holding, as the text of its category with its percentage and basis. -/
def holdingEntry (entry : ShareholdingSnapshotValue) : String × ℚ × Option String :=
  (entry.category.text, entry.percentage, entry.metricBasis)

def shareholdingEntry (snapshot : ShareholdingSnapshot) : ShareholdingEntry where
  id := snapshot.id
  periodEnd := snapshot.periodEnd
  provider := snapshot.sourceProvider
  url := snapshot.sourceUrl
  values := sortOn (fun h : String × ℚ × Option String =>
      (toLex (h.1, toLex (h.2.1, shown h.2.2)) : String ×ₗ ℚ ×ₗ String))
    (snapshot.values.map holdingEntry)

variable [PyLibrary]

def factEntry (fact : FinancialFact) : FactEntry where
  metric := fact.metric
  periodEnd := fact.periodEnd
  periodType := fact.periodType
  basis := fact.reportingBasis
  value := shown (fact.value.map Scalar.str)
  unit := fact.unit
  source := fact.sourceProvider
  sourceIdentity := fact.sourceIdentity
  sourceTier := fact.sourceTier
  sourceUrl := fact.sourceUrl
  asOf := fact.asOfDate.or (periodDatetime fact.periodEnd)

abbrev FactOrder := String ×ₗ String ×ₗ String ×ₗ String

def factOrder (fact : FinancialFact) : FactOrder :=
  toLex (metricKey fact.metric,
    toLex (fact.periodType, toLex (fact.periodEnd.getD "", fact.reportingBasis.getD "")))

/-- The payload of `input_fingerprint`. -/
def fingerprintPayload (v : StockRuleEngineInput) (allowPartial : Bool) :
    FingerprintPayload where
  newsFeatures := sortOn EventImpactFeature.featureId v.newsFeatures
  newsSearch := v.newsSearchRun
  newsEvaluationDate :=
    if v.newsFeatures ≠ [] ∨ v.newsSearchRun ≠ none then some v.evaluatedAt else none
  partialAllowed := allowPartial
  evaluationDate := v.evaluatedAt / day
  globalInstrumentId := v.profile.instrumentId
  profile := (v.profile.country, v.profile.exchange, v.profile.mic, v.profile.ticker, sector v)
  readiness :=
    (sortOn ResearchRequirementReadiness.requirementId v.readiness.requirements).map readinessEntry
  financialFacts := ((sortOn factOrder v.financialFacts).filter fun fact =>
    fact.sourceMode = .real).map factEntry
  structured :=
    (sortOn StructuredMarketSnapshotRecord.provider v.structuredSnapshots).map structuredEntry
  prices := (usablePrices v.marketPrices).map priceEntry
  events := (sortOn ResearchEvent.eventId v.events).map eventEntry
  shareholding := (sortOn ShareholdingSnapshot.periodEnd v.shareholding).map shareholdingEntry

end InvestmentPlatform.Rules
