/-
What the stock rule engine reads, `StockRuleEngineInput` of `app/stock_rule_engine.py`.

Records keep the fields the engine reads or fingerprints.  Decimals and floats are exact
rationals; date-times are aware and in UTC, counted in microseconds.  A value of unknown
JSON type is kept as the two things the engine asks of it, its `str` and its truth value.

What the standard library does to texts, dates and irrational powers, and the text test of
`app/extraction.py`, come from a `PyLibrary`: nothing is assumed of them.
-/
import Mathlib.Data.Rat.Floor

namespace InvestmentPlatform.Rules

/-- Microseconds, UTC. -/
abbrev Instant := Int

/-- The library functions the engine calls on texts, dates and floats. -/
class PyLibrary where
  casefold : String → String
  upper : String → String
  strip : String → String
  /-- Whether a character is one of the pattern's white space. -/
  isSpace : Char → Bool
  isoformat : Instant → String
  /-- `datetime.fromisoformat` and `strptime` of a period end, as `_period_datetime` tries them. -/
  parseDatetime : String → Option Instant
  /-- `Decimal(text)`, when it is a finite number. -/
  decimal : String → Option ℚ
  /-- `f"{score:.2f}"`. -/
  fixed2 : ℚ → String
  /-- `statistics.pstdev`. -/
  pstdev : List ℚ → ℚ
  /-- `math.pow`. -/
  pow : ℚ → ℚ → ℚ
  /-- `governance_disclosure`. -/
  governanceDisclosure : String → Bool

/-! ### Enumerations -/

inductive RuleEngineArea
  | valuation | fundamentalBusinessQuality | growth | balanceSheet | quarterlyEarningsTrend
  | orderBookCapacityCatalysts | priceTechnical | newsGeopoliticalEvents | shareholding
  | managementGovernance | sectorMacro
  deriving DecidableEq, Repr

inductive ResearchRequirementStatus
  | readyFresh | readyStale | partialCoverage | missing | conflicting | unsupported
  | notApplicable | refreshing | failed
  deriving DecidableEq, Repr

inductive ResearchSourceTier
  | official | regulatory | trustedMarketData | licensedStructured | approvedSecondary
  | approvedExternalTool | userUpload | unverified
  deriving DecidableEq, Repr

inductive FactSourceTier
  | userUpload | search | yahoo | officialNse | structuredFundamentals | officialRegulatory
  deriving DecidableEq, Repr

inductive SourceMode
  | demo | real
  deriving DecidableEq, Repr

inductive SourceClassification
  | officialCompany | regulatory | exchange | customer | partner | supplier | reputableNews
  | investmentResearch | other
  deriving DecidableEq, Repr

inductive ReliabilityLevel
  | levelA | levelB | levelC | levelD | levelE
  deriving DecidableEq, Repr

inductive ResearchLifecycleStatus
  | detected | validated | rejected
  deriving DecidableEq, Repr

inductive EventImpact
  | strongPositive | positive | neutral | negative | strongNegative | uncertain
  deriving DecidableEq, Repr

inductive TimeHorizon
  | immediate | shortTerm | mediumTerm | longTerm | unknown
  deriving DecidableEq, Repr

inductive ShareholdingCategory
  | promoter | promoterPledge | fiiFpi | dii | mutualFunds | insurance | government
  | publicRetail | others
  deriving DecidableEq, Repr

inductive ResearchEventType
  | orderWin | newContract | clientWin | newPlant | creditRating | borrowingChange
  | managementGuidance | majorCorporateAnnouncement | newOrder | orderBacklogChange
  | newCustomer | customerExpansion | majorCustomer | customerLoss | majorContract
  | governmentContract | capex | factoryExpansion | capacityExpansion | newFacility
  | geographicExpansion | acquisition | partnership | productLaunch | guidanceRaised
  | guidanceLowered | guidanceMaintained | guidanceCut | revenueGuidance | marginGuidance
  | investment | orderCancelled | projectDelay | debtChange | funding | managementChange
  | regulatoryEvent | earningsRelease | annualReport | other
  deriving DecidableEq, Repr

inductive SearchOutcome
  | completeWithEvents | completeNoEvents | partialSearch | failedSearch
  deriving DecidableEq, Repr

/-! ### Readiness -/

structure ResearchRequirementReadiness where
  requirementId : String
  ruleEngineArea : RuleEngineArea
  mandatory : Bool
  status : ResearchRequirementStatus
  source : Option String
  sourceTier : Option ResearchSourceTier
  asOf : Option Instant
  retrievedAt : Option Instant
  evidenceIds : List String
  conflictReason : Option String
  sourceUrl : Option String
  missingInputIds : List String
  coveragePct : Int
  criticalCoveragePct : Int
  applicabilityReason : Option String
  /-- The keys of `not_applicable_input_reasons`. -/
  notApplicableInputs : List String
  conceptEvidenceStates : List (String × String)
  deriving DecidableEq, Repr

structure ResearchReadinessResult where
  requirements : List ResearchRequirementReadiness
  overallCompletenessPct : Int
  criticalCompletenessPct : Int
  deriving DecidableEq, Repr

/-! ### Durable records -/

/-- A JSON value: its `str` and whether it is truthy. -/
structure Scalar where
  str : String
  truthy : Bool
  deriving DecidableEq, Repr

structure FinancialFact where
  metric : String
  periodEnd : Option String
  periodType : String
  reportingBasis : Option String
  value : Option Scalar
  unit : Option String
  asOfDate : Option Instant
  sourceUrl : String
  sourceTier : FactSourceTier
  sourceProvider : String
  sourceIdentity : String
  sourceMode : SourceMode
  deriving DecidableEq, Repr

structure ProvenancedValue where
  value : Option Scalar
  unit : Option String
  asOfDate : Option Instant
  period : Option String
  sourceUrl : String
  sourceName : String
  publishedAt : Option Instant
  retrievedAt : Instant
  deriving DecidableEq, Repr

structure StructuredMarketSnapshotRecord where
  instrumentId : String
  provider : String
  providerInstrumentId : Option String
  currency : Option String
  sourceUrl : Option String
  sourceName : Option String
  sourceType : Option String
  marketAsOf : Option Instant
  retrievedAt : Instant
  /-- `snapshot.facts`. -/
  facts : List (String × ProvenancedValue)
  deriving DecidableEq, Repr

structure MarketPriceObservation where
  instrumentId : String
  observedAt : Instant
  price : ℚ
  currency : Option String
  provider : String
  sourceUrl : String
  retrievedAt : Instant
  deriving DecidableEq, Repr

structure ResearchEvent where
  eventId : String
  eventType : ResearchEventType
  eventDate : Option Instant
  publishedAt : Option Instant
  detectedAt : Instant
  title : String
  summary : String
  sourceUrl : String
  sourceClassification : SourceClassification
  reliability : ReliabilityLevel
  sourceMode : SourceMode
  confidence : ℚ
  impact : EventImpact
  timeHorizon : TimeHorizon
  monetaryValue : Option ℚ
  percentageValue : Option ℚ
  capacityValue : Option ℚ
  customer : Option String
  counterparty : Option String
  location : Option String
  status : ResearchLifecycleStatus
  independenceKey : Option String
  deriving DecidableEq, Repr

structure ShareholdingSnapshotValue where
  category : ShareholdingCategory
  percentage : ℚ
  metricBasis : Option String
  deriving DecidableEq, Repr

structure ShareholdingSnapshot where
  id : String
  periodEnd : Instant
  sourceProvider : String
  sourceUrl : String
  values : List ShareholdingSnapshotValue
  deriving DecidableEq, Repr

structure EventImpactFeature where
  featureId : String
  eventKey : String
  eventType : String
  impactScore : ℚ
  publicationTime : Option Instant
  publicAvailableAt : Instant
  discoveredAt : Instant
  computedAt : Instant
  validUntil : Option Instant
  severeValidated : Bool
  deriving DecidableEq, Repr

structure SearchRun where
  runId : String
  completedAt : Instant
  outcome : SearchOutcome
  deriving DecidableEq, Repr

structure CompanyResearchProfile where
  instrumentId : String
  country : String
  exchange : String
  mic : String
  ticker : String
  deriving DecidableEq, Repr

/-- The keys of `canonical_metadata` the engine looks up. -/
structure CanonicalMetadata where
  canonicalSector : Option String
  sector : Option String
  industrySector : Option String
  officialIndustry : Option String
  industry : Option String
  deriving DecidableEq, Repr

structure StockRuleEngineInput where
  profile : CompanyResearchProfile
  readiness : ResearchReadinessResult
  financialFacts : List FinancialFact
  structuredSnapshots : List StructuredMarketSnapshotRecord
  marketPrices : List MarketPriceObservation
  events : List ResearchEvent
  shareholding : List ShareholdingSnapshot
  canonicalMetadata : CanonicalMetadata
  evaluatedAt : Instant
  newsFeatures : List EventImpactFeature
  newsSearchRun : Option SearchRun
  deriving DecidableEq, Repr

end InvestmentPlatform.Rules
