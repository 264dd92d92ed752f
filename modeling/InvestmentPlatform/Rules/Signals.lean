/-
The evaluators that read prices, events and ownership: catalysts, technical, news,
shareholding, governance and sector.

Three of them can be ready without a score, where readiness shows a completed check.
-/
import InvestmentPlatform.Rules.Events

namespace InvestmentPlatform.Rules

open Selection PyLibrary

variable [PyLibrary]

/-- `_event_metric`. -/
def eventMetric (event : ResearchEvent) (rule : String) (weight : Nat) : Weighted :=
  metricOf event.eventType.text (.event event.impact event.confidence) (eventDatum event)
    (eventMetricScore event) rule "EVENT" weight

/-! ### Catalysts -/

def catalystCheckPrefix : String := "catalyst-check:"

/-- `_completed_check_area`. -/
def completedCheckArea (v : StockRuleEngineInput) (area : RuleEngineArea) (checkPrefix : String) :
    Option AreaScoreResult :=
  let readiness := areaReadiness v area
  let checks := (readiness.flatMap ResearchRequirementReadiness.evidenceIds).filter fun reference =>
    checkPrefix.toList.isPrefixOf reference.toList
  if checks = [] ∨ ∃ item ∈ readiness, item.status ∉ fullStatuses then none
  else
    let base := finish v area [] [] true
    if base.status ≠ .unscorable then some base
    else some (readyWithoutScore base readiness checks)

def excludedCatalystInputs (v : StockRuleEngineInput) : List String :=
  (v.readiness.requirements.filter fun row =>
    row.requirementId = "ORDER_BOOK_CAPEX_GUIDANCE").flatMap
      ResearchRequirementReadiness.notApplicableInputs

def relevantCatalysts (v : StockRuleEngineInput) : List ResearchEvent :=
  v.events.filter fun event => materialCatalyst event ∧
    ∀ input ∈ (eventConcept event.eventType).bind fun concept => conceptInputs.lookup concept,
      input ∉ excludedCatalystInputs v

def catalysts (v : StockRuleEngineInput) : AreaScoreResult :=
  let metrics := (relevantCatalysts v).map fun event =>
    eventMetric event "MATERIAL_CATALYST_EVENT_V1" 1
  let scored := finish v .orderBookCapacityCatalysts metrics
    (missingWithout metrics "MATERIAL_ISSUER_RELEVANT_CATALYST_EVIDENCE") true
  if metrics = [] then
    (completedCheckArea v .orderBookCapacityCatalysts catalystCheckPrefix).getD scored
  else scored

/-! ### Price and technical -/

/-- The latest price against the median of a window, in percent. -/
def priceVsMedian (latest : MarketPriceObservation) (window : List MarketPriceObservation)
    (name rule evidenceId : String) : List Weighted :=
  let basis := median (window.map (·.price))
  let relative := (latest.price / basis - 1) * 100
  [metricResult name (derivedDatum relative "PERCENT" (priceDatum latest) evidenceId [])
    (trendScore relative) rule "PERCENT" 35]

def technicalMetrics (prices : List MarketPriceObservation) : List Weighted :=
  let long := 150 ≤ prices.length
  let window := if long then lastN 150 prices else lastN 50 prices
  match prices.getLast?, window.head? with
  | some latest, some first =>
      let peak := ((window.map (·.price)).max?).getD 0
      let drawdown := (latest.price / peak - 1) * 100
      let trend := (latest.price / first.price - 1) * 100
      priceVsMedian latest (lastN 50 prices) "PRICE_VS_50_OBSERVATION_MEDIAN"
        "PRICE_VS_50_OBSERVATION_MEDIAN_V1" "derived:price-vs-median-50" ++
      (if long then
        priceVsMedian latest (lastN 150 prices) "PRICE_VS_150_OBSERVATION_MEDIAN"
          "PRICE_VS_150_OBSERVATION_MEDIAN_V1" "derived:price-vs-median-150"
      else []) ++
      [metricResult "DRAWDOWN_FROM_OBSERVATION_PEAK"
          (derivedDatum drawdown "PERCENT" (priceDatum latest) "derived:drawdown" [])
          (piecewise drawdown [(-50, 5), (-30, 25), (-15, 52), (-5, 75), (0, 90)])
          "PRICE_DRAWDOWN_V1" "PERCENT" 20,
        metricResult "OBSERVATION_WINDOW_TREND"
          (derivedDatum trend "PERCENT" (priceDatum latest) "derived:price-trend"
            [priceDatum first])
          (trendScore trend) "DURABLE_PRICE_TREND_V1" "PERCENT" 10]
  | _, _ => []

def technical (v : StockRuleEngineInput) : AreaScoreResult :=
  let prices := usablePrices v.marketPrices
  if prices.length < 50 then
    finish v .priceTechnical [] ["FIFTY_OBSERVATION_TECHNICAL_BASIS"] true
  else finish v .priceTechnical (technicalMetrics prices) [] true

/-! ### News -/

def newsWindow : Instant := 30 * day

/-- The event is dated within the thirty days up to `now`. -/
def InNewsWindow (event : ResearchEvent) (now : Instant) : Prop :=
  ∃ eventAt ∈ event.eventDate.or event.publishedAt,
    0 ≤ now - eventAt ∧ now - eventAt ≤ newsWindow

instance (event : ResearchEvent) (now : Instant) : Decidable (InNewsWindow event now) :=
  inferInstanceAs (Decidable (∃ eventAt ∈ event.eventDate.or event.publishedAt, _ ∧ _))

/-- What two reports of one event have in common. -/
def newsKey (event : ResearchEvent) : String × String × Instant :=
  (casefold event.sourceUrl, casefold (strip event.title),
    ((event.eventDate.or event.publishedAt).getD 0) / day)

def currentEvents (v : StockRuleEngineInput) : List ResearchEvent :=
  keepFirst newsKey (v.events.filter fun event =>
    event.status ≠ .rejected ∧ InNewsWindow event v.evaluatedAt ∧
      issuerOrProvenExposure event (sector v))

def isSearchReady (state : SearchState) : Bool :=
  state ∈ [SearchState.readyWithEvents, .readyNoEvents]

/-- The news area without a persisted impact. -/
def newsFromEvents (v : StockRuleEngineInput) : AreaScoreResult :=
  let metrics := (currentEvents v).map fun event =>
    eventMetric event "CURRENT_EVENT_IMPACT_V1" 1
  let scored := finish v .newsGeopoliticalEvents metrics
    (missingWithout metrics "RELEVANT_CURRENT_EVENT_WITHIN_30_DAYS") true
  match v.newsSearchRun with
  | some run =>
      if metrics = [] ∧ isSearchReady (searchState (some run) v.evaluatedAt) then
        let base := finish v .newsGeopoliticalEvents [] [] true
        let readiness := areaReadiness v .newsGeopoliticalEvents
        if base.status ≠ .unscorable ∨ readiness = [] ∨
            ∃ item ∈ readiness, item.status ∉ fullStatuses then base
        else readyWithoutScore base readiness ["search-run:" ++ run.runId]
      else scored
  | none => scored

def news (v : StockRuleEngineInput) : AreaScoreResult :=
  match aggregateImpact v.newsFeatures v.evaluatedAt with
  | some impact =>
      let metric : RuleMetricResult :=
        { metric := "COMPANY_NEWS_IMPACT"
          value := .number impact
          unit := "IMPACT_MINUS100_PLUS100"
          score := 50 + impact / 2
          rule := "COMPANY_EXPOSURE_IMPACT_V2"
          configuredSubruleWeight := 1
          appliedWeightPct := 100
          source := "PERSISTED_NEWS_INTELLIGENCE"
          sourceUrl := none
          asOf := none
          evidenceReferences := (v.newsFeatures.map (·.featureId)).insertionSort (· ≤ ·) }
      let result := finish v .newsGeopoliticalEvents [(metric, 1)] [] true
      -- A stale discovery does not expire the event, it only lowers the coverage.
      if isSearchReady (searchState v.newsSearchRun v.evaluatedAt) then result
      else { result with status := .partialCoverage }
  | none => newsFromEvents v

/-! ### Shareholding -/

/-- The entry a dict by category keeps: the last of the snapshot. -/
def latestEntry (snapshot : ShareholdingSnapshot) (category : ShareholdingCategory) :
    Option ShareholdingSnapshotValue :=
  snapshot.values.reverse.find? fun entry => entry.category = category

def shareholdingDatum (snapshot : ShareholdingSnapshot) (number : ℚ)
    (extra : Option ShareholdingSnapshot) : Datum where
  value := number
  source := snapshot.sourceProvider
  sourceUrl := some snapshot.sourceUrl
  asOf := some snapshot.periodEnd
  evidenceId := "|".intercalate
    ((snapshot.id :: (extra.map ShareholdingSnapshot.id).toList).map ("shareholding:" ++ ·))
  unit := some "PERCENT"
  authority := if upper snapshot.sourceProvider = "NSE" then 5 else 3

/-- The change of one category since the snapshot before. -/
def holdingTrend (latest previous : ShareholdingSnapshot) (category : ShareholdingCategory)
    (name rule : String) (weight : Nat) : List Weighted :=
  match latestEntry latest category, latestEntry previous category with
  | some current, some before =>
      let change := current.percentage - before.percentage
      [metricResult name (shareholdingDatum latest change (some previous))
        (piecewise change [(-5, 15), (-2, 35), (0, 55), (2, 75), (5, 92)])
        rule "PERCENTAGE_POINTS" weight]
  | _, _ => []

/-- The metrics of the newest snapshot and the one before. -/
def shareholdingMetrics (latest : ShareholdingSnapshot) (previous : Option ShareholdingSnapshot) :
    List Weighted :=
  (latestEntry latest .promoter).elim [] (fun entry =>
    [metricResult "PROMOTER_HOLDING" (shareholdingDatum latest entry.percentage none)
      (piecewise entry.percentage [(0, 25), (20, 45), (40, 65), (55, 78), (70, 82)])
      "PROMOTER_HOLDING_LEVEL_V1" "PERCENT" 25]) ++
  (latestEntry latest .promoterPledge).elim [] (fun entry =>
    [metricResult "PROMOTER_PLEDGE" (shareholdingDatum latest entry.percentage none)
      (piecewise entry.percentage [(0, 95), (5, 75), (15, 48), (30, 20), (50, 5)])
      "PROMOTER_PLEDGE_V1" "PERCENT" 35]) ++
  previous.elim [] fun previous =>
    holdingTrend latest previous .promoter "PROMOTER_TREND" "PROMOTER_TREND_QUARTERLY_V1" 20 ++
    holdingTrend latest previous .fiiFpi "FII_FPI_TREND" "FII_FPI_TREND_QUARTERLY_V1" 10 ++
    holdingTrend latest previous .dii "DII_TREND" "DII_TREND_QUARTERLY_V1" 10

def shareholdingArea (v : StockRuleEngineInput) : AreaScoreResult :=
  if ¬ isIndia v.profile then finish v .shareholding [] [] false
  else
    let snapshots := sortOn ShareholdingSnapshot.periodEnd v.shareholding
    match snapshots.getLast? with
    | none => finish v .shareholding [] ["LATEST_VALID_SHAREHOLDING_PERIOD"] true
    | some latest =>
        let metrics := shareholdingMetrics latest snapshots.dropLast.getLast?
        finish v .shareholding metrics
          (missingWithout metrics "PROMOTER_INSTITUTIONAL_PUBLIC_CATEGORIES") true

/-! ### Governance -/

def governanceMetric (event : ResearchEvent) : Weighted :=
  if isResolved event ∨ event.status = .rejected then
    metricResult "GOVERNANCE_EVIDENCE" (eventDatum event)
      (if event.status = .rejected then 65 else 60)
      "RESOLVED_GOVERNANCE_EVIDENCE_V1" "EVENT" 1
  else
    metricResult "GOVERNANCE_EVIDENCE" (eventDatum event) (eventMetricScore event)
      "UNRESOLVED_GOVERNANCE_HISTORY_V1" "EVENT" 1

/-- The pledge of the snapshot that stands last in the list. -/
def pledgeMetrics (snapshots : List ShareholdingSnapshot) : List Weighted :=
  snapshots.getLast?.elim [] fun latest =>
    (latest.values.find? fun entry => entry.category = .promoterPledge).elim [] fun pledge =>
      [metricResult "PROMOTER_PLEDGE_GOVERNANCE" (shareholdingDatum latest pledge.percentage none)
        (piecewise pledge.percentage [(0, 95), (5, 75), (15, 45), (30, 18), (50, 5)])
        "PROMOTER_PLEDGE_GOVERNANCE_V1" "PERCENT" 1]

def governance (v : StockRuleEngineInput) : AreaScoreResult :=
  let metrics := (v.events.filter fun event => governanceEvent event).map governanceMetric ++
    pledgeMetrics v.shareholding
  let readiness := areaReadiness v .managementGovernance
  let base := finish v .managementGovernance [] [] true
  -- A completed check of governance history is coverage without a score.
  if metrics = [] ∧ base.status = .unscorable ∧ readiness ≠ [] ∧
      ∀ item ∈ readiness, item.status ∈ fullStatuses then
    readyWithoutScore base readiness
      (readiness.flatMap ResearchRequirementReadiness.evidenceIds)
  else
    finish v .managementGovernance metrics
      (missingWithout metrics "STRUCTURED_GOVERNANCE_EVIDENCE") true

/-! ### Sector and macro -/

def sectorBasis (v : StockRuleEngineInput) : List Weighted :=
  (nonEmpty (sector v)).elim [] fun label =>
    [metricOf "CANONICAL_SECTOR_BASIS" (.text label)
      { value := 50
        source := "CANONICAL_IDENTITY"
        sourceUrl := none
        asOf := some v.evaluatedAt
        evidenceId := ":".intercalate
          ["canonical-sector", v.profile.instrumentId, casefold label]
        unit := some "CATEGORY"
        authority := 4 }
      50 "CANONICAL_SECTOR_NEUTRAL_BASIS_V1" "CATEGORY" 20]

def exposedMacroEvents (v : StockRuleEngineInput) : List ResearchEvent :=
  v.events.filter fun event => isMacroEvent event && provenMacroExposure event (sector v)

def sectorPerformance (v : StockRuleEngineInput) : List Weighted :=
  metricsOf (pick (structuredData v) ["sectorperformance", "sectorreturn"]) fun performance =>
    let normalized := asPercent performance.value
    [metricResult "SECTOR_PERFORMANCE"
      (derivedDatum normalized "PERCENT" performance "normalized:sector-performance" [])
      (trendScore normalized) "DURABLE_SECTOR_PERFORMANCE_V1" "PERCENT" 45]

def sectorMacro (v : StockRuleEngineInput) : AreaScoreResult :=
  let metrics := sectorBasis v ++ sectorPerformance v ++
    (exposedMacroEvents v).map fun event =>
      eventMetric event "PROVEN_MACRO_EXPOSURE_IMPACT_V1" 35
  finish v .sectorMacro metrics
    (missingWithout metrics "CANONICAL_SECTOR_OR_DURABLE_MACRO_EXPOSURE") true

end InvestmentPlatform.Rules
