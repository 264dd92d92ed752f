/-
The exact-input cache of the rule engine, whose key is the payload.

`leftOut` is what the payload leaves out of an input.  The two together determine everything
that `evaluate` reads, so two inputs that share a payload and agree on what is left out
evaluate alike.  The payload alone is no safe key: every input that evaluates shares its
payload with one that evaluates differently.
-/
import InvestmentPlatform.Proofs.Rules.Order
import Mathlib.Algebra.Order.BigOperators.Group.List

namespace InvestmentPlatform.Rules

open Selection PyLibrary List EventImpactFeature

/-! ### What the payload leaves out -/

def ResearchRequirementReadiness.leftOut (item : ResearchRequirementReadiness) :
    ResearchRequirementReadiness :=
  { item with
    status := .missing
    source := none
    sourceTier := none
    asOf := none
    conflictReason := none
    sourceUrl := none
    coveragePct := 0
    criticalCoveragePct := 0 }

/-- A demo fact is left out as a whole. -/
def FinancialFact.leftOut (fact : FinancialFact) : FinancialFact :=
  if fact.sourceMode = .real then
    { fact with
      value := fact.value.map fun value => { value with str := "" }
      unit := none
      asOfDate := fact.asOfDate.map fun _ => 0
      sourceUrl := ""
      sourceTier := .userUpload
      sourceProvider := ""
      sourceIdentity := "" }
  else fact

/-- A figure without a value is left out as a whole. -/
def ProvenancedValue.leftOut (fact : ProvenancedValue) : ProvenancedValue :=
  if fact.value.isSome then
    { fact with
      value := fact.value.map fun value => { value with str := "" }
      asOfDate := none
      sourceUrl := ""
      sourceName := "" }
  else fact

def StructuredMarketSnapshotRecord.leftOut (record : StructuredMarketSnapshotRecord) :
    StructuredMarketSnapshotRecord :=
  { record with
    providerInstrumentId := none
    marketAsOf := none
    facts := record.facts.map fun entry => (entry.1, entry.2.leftOut) }

def MarketPriceObservation.leftOut (p : MarketPriceObservation) : MarketPriceObservation :=
  { p with price := 0, provider := "" }

def ResearchEvent.leftOut (event : ResearchEvent) : ResearchEvent :=
  { event with
    eventType := .other
    eventDate := event.eventDate.map fun _ => 0
    publishedAt := event.eventDate.bind fun _ => event.publishedAt
    title := ""
    summary := ""
    sourceUrl := ""
    sourceClassification := .other
    reliability := .levelA
    confidence := 0
    impact := .neutral
    timeHorizon := .unknown
    monetaryValue := none
    percentageValue := none
    capacityValue := none
    customer := none
    counterparty := none
    location := none
    status := .detected }

/-- Holdings are left out as to their order only. -/
def ShareholdingSnapshot.leftOut (snapshot : ShareholdingSnapshot) : ShareholdingSnapshot :=
  { snapshot with id := "", sourceProvider := "", sourceUrl := "" }

structure LeftOut where
  evaluatedAt : Instant
  overallCompletenessPct : Int
  criticalCompletenessPct : Int
  officialIndustry : Option String
  industry : Option String
  requirements : List ResearchRequirementReadiness
  financialFacts : List FinancialFact
  structuredSnapshots : List StructuredMarketSnapshotRecord
  /-- The positive prices. -/
  marketPrices : List MarketPriceObservation
  events : List ResearchEvent
  shareholding : List ShareholdingSnapshot
  /-- The order of the features. -/
  newsFeatures : List String
  deriving DecidableEq, Repr

/-- What the payload leaves out, row by row in the order listed. -/
def leftOut (v : StockRuleEngineInput) : LeftOut where
  evaluatedAt := v.evaluatedAt
  overallCompletenessPct := v.readiness.overallCompletenessPct
  criticalCompletenessPct := v.readiness.criticalCompletenessPct
  officialIndustry := v.canonicalMetadata.officialIndustry
  industry := v.canonicalMetadata.industry
  requirements := v.readiness.requirements.map ResearchRequirementReadiness.leftOut
  financialFacts := v.financialFacts.map FinancialFact.leftOut
  structuredSnapshots := v.structuredSnapshots.map StructuredMarketSnapshotRecord.leftOut
  marketPrices := (v.marketPrices.filter fun p => 0 < p.price).map MarketPriceObservation.leftOut
  events := v.events.map ResearchEvent.leftOut
  shareholding := v.shareholding.map ShareholdingSnapshot.leftOut
  newsFeatures := v.newsFeatures.map EventImpactFeature.featureId

/-! ### Rows from their two halves -/

theorem requirement_eq {a b : ResearchRequirementReadiness}
    (hentry : readinessEntry a = readinessEntry b) (hrest : a.leftOut = b.leftOut) : a = b := by
  cases a
  cases b
  simp_all [readinessEntry, ResearchRequirementReadiness.leftOut]

theorem price_eq {a b : MarketPriceObservation} (hentry : priceEntry a = priceEntry b)
    (hrest : a.leftOut = b.leftOut) : a = b := by
  cases a
  cases b
  simp_all [priceEntry, MarketPriceObservation.leftOut]

theorem event_eq {a b : ResearchEvent} (hentry : eventEntry a = eventEntry b)
    (hrest : a.leftOut = b.leftOut) : a = b := by
  obtain ⟨_, _, eventDate, publishedAt, _⟩ := a
  obtain ⟨_, _, eventDate', publishedAt', _⟩ := b
  cases eventDate <;> cases eventDate' <;> simp_all [eventEntry, ResearchEvent.leftOut]

theorem shareholding_eq {a b : ShareholdingSnapshot} (hentry : shareholdingEntry a = shareholdingEntry b)
    (hrest : a.leftOut = b.leftOut) : a = b := by
  cases a
  cases b
  simp_all [shareholdingEntry, ShareholdingSnapshot.leftOut]

theorem figure_eq {a b : String × ProvenancedValue}
    (hentry : structuredFactEntry a = structuredFactEntry b)
    (hrest : (a.1, a.2.leftOut) = (b.1, b.2.leftOut)) : a = b := by
  obtain ⟨key, value, unit, asOf, period, url, name, published, retrieved⟩ := a
  obtain ⟨key', value', unit', asOf', period', url', name', published', retrieved'⟩ := b
  obtain ⟨rfl, hrest⟩ := Prod.mk.inj hrest
  cases value with
  | none =>
      cases value' with
      | none => simpa [ProvenancedValue.leftOut] using hrest
      | some y => simp [structuredFactEntry] at hentry
  | some x =>
      cases value' with
      | none => simp [structuredFactEntry] at hentry
      | some y =>
          cases x
          cases y
          simp_all [structuredFactEntry, ProvenancedValue.leftOut]

theorem record_eq {a b : StructuredMarketSnapshotRecord}
    (hentry : structuredEntry a = structuredEntry b) (hrest : a.leftOut = b.leftOut) : a = b := by
  have hleft : a.facts.map (fun entry => (entry.1, entry.2.leftOut))
      = b.facts.map fun entry => (entry.1, entry.2.leftOut) :=
    congrArg StructuredMarketSnapshotRecord.facts hrest
  have hshown : a.facts.map structuredFactEntry = b.facts.map structuredFactEntry := by
    refine map_eq_of_sortOn_filterMap StructuredFactEntry.key (fun entry shown hshown => ?_)
      (congrArg StructuredEntry.facts hentry) ?_
    · obtain ⟨value, -, rfl⟩ := Option.map_eq_some_iff.mp hshown
      rfl
    · have hkeys := congrArg (List.map fun entry : String × ProvenancedValue =>
        (entry.1, entry.2.value.isSome)) hleft
      have hsome : ∀ fact : ProvenancedValue, fact.leftOut.value.isSome = fact.value.isSome := by
        intro fact
        rw [ProvenancedValue.leftOut]
        split
        · simp
        · rfl
      simpa [map_map, Function.comp_def, structuredFactEntry, hsome] using hkeys
  have hfacts : a.facts = b.facts :=
    eq_of_map_eq hshown hleft fun _ _ _ _ => figure_eq
  cases a
  cases b
  simp_all [structuredEntry, StructuredMarketSnapshotRecord.leftOut]

section
variable [PyLibrary]

/-- What the payload shows of a fact. -/
def shownFact (fact : FinancialFact) : Option FactEntry :=
  if fact.sourceMode = .real then some (factEntry fact) else none

theorem fact_eq {a b : FinancialFact} (hentry : shownFact a = shownFact b)
    (hrest : a.leftOut = b.leftOut) : a = b := by
  by_cases ha : a.sourceMode = .real
  · by_cases hb : b.sourceMode = .real
    · rw [shownFact, shownFact, if_pos ha, if_pos hb, Option.some.injEq] at hentry
      rw [FinancialFact.leftOut, FinancialFact.leftOut, if_pos ha, if_pos hb] at hrest
      obtain ⟨_, periodEnd, _, _, value, _, asOf, _⟩ := a
      obtain ⟨_, periodEnd', _, _, value', _, asOf', _⟩ := b
      obtain rfl : value = value' := by
        rcases value with - | ⟨x, t⟩ <;> rcases value' with - | ⟨y, u⟩ <;>
          simp_all [factEntry, shown]
      obtain rfl : asOf = asOf' := by
        cases asOf <;> cases asOf' <;> simp_all [factEntry]
      simp_all [factEntry]
    · rw [shownFact, shownFact, if_pos ha, if_neg hb] at hentry
      cases hentry
  · by_cases hb : b.sourceMode = .real
    · rw [shownFact, shownFact, if_neg ha, if_pos hb] at hentry
      cases hentry
    · rwa [FinancialFact.leftOut, FinancialFact.leftOut, if_neg ha, if_neg hb] at hrest

theorem leftOut_order (fact : FinancialFact) : factOrder fact.leftOut = factOrder fact := by
  rw [FinancialFact.leftOut]
  split <;> rfl

omit [PyLibrary] in
theorem leftOut_mode (fact : FinancialFact) : fact.leftOut.sourceMode = fact.sourceMode := by
  rw [FinancialFact.leftOut]
  split <;> rfl

/-! ### The input from its two halves -/

/-- Two inputs that give `evaluate` the same to read. -/
structure SameRows (v w : StockRuleEngineInput) : Prop where
  profile : v.profile = w.profile
  readiness : v.readiness = w.readiness
  financialFacts : v.financialFacts = w.financialFacts
  structuredSnapshots : v.structuredSnapshots = w.structuredSnapshots
  marketPrices : v.marketPrices.filter (fun p => 0 < p.price)
    = w.marketPrices.filter fun p => 0 < p.price
  events : v.events = w.events
  shareholding : v.shareholding = w.shareholding
  officialIndustry : v.canonicalMetadata.officialIndustry = w.canonicalMetadata.officialIndustry
  industry : v.canonicalMetadata.industry = w.canonicalMetadata.industry
  sector : sector v = sector w
  evaluatedAt : v.evaluatedAt = w.evaluatedAt
  newsFeatures : v.newsFeatures = w.newsFeatures
  newsSearchRun : v.newsSearchRun = w.newsSearchRun

variable {v w : StockRuleEngineInput} {allowPartial : Bool}

section

variable (hpayload : fingerprintPayload v allowPartial = fingerprintPayload w allowPartial)
include hpayload

theorem facts_eq (hrest : leftOut v = leftOut w) : v.financialFacts = w.financialFacts := by
  have hleft : v.financialFacts.map FinancialFact.leftOut
      = w.financialFacts.map FinancialFact.leftOut := congrArg LeftOut.financialFacts hrest
  have hlisted := congrArg FingerprintPayload.financialFacts hpayload
  have hfilterMap : ∀ l : List FinancialFact, l.filterMap shownFact
      = (l.filter fun fact => fact.sourceMode = .real).map factEntry := by
    intro l
    rw [← filterMap_eq_map, filterMap_filter]
    refine filterMap_congr fun fact _ => ?_
    simp [shownFact]
  have hkeys : v.financialFacts.map (fun fact => (factOrder fact, (shownFact fact).isSome))
      = w.financialFacts.map fun fact => (factOrder fact, (shownFact fact).isSome) := by
    have hkeys := congrArg (List.map fun fact =>
      (factOrder fact, decide (fact.sourceMode = .real))) hleft
    simpa [map_map, Function.comp_def, shownFact, leftOut_order, leftOut_mode,
      apply_ite Option.isSome] using hkeys
  have hshown : v.financialFacts.map shownFact = w.financialFacts.map shownFact := by
    refine map_eq_of_sortOn_filterMap FactEntry.order (fun fact entry hentry => ?_) ?_ hkeys
    · rw [Option.mem_def, shownFact] at hentry
      split at hentry
      · rw [← Option.some.inj hentry, factEntry_order]
      · cases hentry
    · rw [hfilterMap, hfilterMap]
      exact hlisted
  exact eq_of_map_eq hshown hleft fun _ _ _ _ => fact_eq

theorem sameRows_of_payload (hrest : leftOut v = leftOut w) : SameRows v w where
  profile := by
    have hprofile := congrArg FingerprintPayload.profile hpayload
    have hid := congrArg FingerprintPayload.globalInstrumentId hpayload
    obtain ⟨⟨_, _, _, _, _⟩, _⟩ := v
    obtain ⟨⟨_, _, _, _, _⟩, _⟩ := w
    simp_all [fingerprintPayload]
  readiness := by
    have hoverall := congrArg LeftOut.overallCompletenessPct hrest
    have hcritical := congrArg LeftOut.criticalCompletenessPct hrest
    have hleft : v.readiness.requirements.map ResearchRequirementReadiness.leftOut
        = w.readiness.requirements.map ResearchRequirementReadiness.leftOut :=
      congrArg LeftOut.requirements hrest
    have hkeys := congrArg (List.map ResearchRequirementReadiness.requirementId) hleft
    rw [map_map, map_map] at hkeys
    have hlisted := map_eq_of_sortOn_map ReadinessEntry.id (fun _ => rfl)
      (congrArg FingerprintPayload.readiness hpayload) hkeys
    have hrequirements := eq_of_map_eq hlisted hleft fun _ _ _ _ => requirement_eq
    obtain ⟨_, ⟨_, _, _⟩, _⟩ := v
    obtain ⟨_, ⟨_, _, _⟩, _⟩ := w
    simp_all [leftOut]
  financialFacts := facts_eq hpayload hrest
  structuredSnapshots := by
    have hleft : v.structuredSnapshots.map StructuredMarketSnapshotRecord.leftOut
        = w.structuredSnapshots.map StructuredMarketSnapshotRecord.leftOut :=
      congrArg LeftOut.structuredSnapshots hrest
    have hkeys := congrArg (List.map StructuredMarketSnapshotRecord.provider) hleft
    rw [map_map, map_map] at hkeys
    have hlisted := map_eq_of_sortOn_map StructuredEntry.provider (fun _ => rfl)
      (congrArg FingerprintPayload.structured hpayload) hkeys
    exact eq_of_map_eq hlisted hleft fun _ _ _ _ => record_eq
  marketPrices := by
    have hleft : (v.marketPrices.filter fun p => 0 < p.price).map MarketPriceObservation.leftOut
        = (w.marketPrices.filter fun p => 0 < p.price).map MarketPriceObservation.leftOut :=
      congrArg LeftOut.marketPrices hrest
    have hkeys := congrArg (List.map MarketPriceObservation.observedAt) hleft
    rw [map_map, map_map] at hkeys
    have hlisted := map_eq_of_sortOn_map PriceEntry.observedAt (fun _ => rfl)
      (congrArg FingerprintPayload.prices hpayload) hkeys
    exact eq_of_map_eq hlisted hleft fun _ _ _ _ => price_eq
  events := by
    have hleft : v.events.map ResearchEvent.leftOut = w.events.map ResearchEvent.leftOut :=
      congrArg LeftOut.events hrest
    have hkeys := congrArg (List.map ResearchEvent.eventId) hleft
    rw [map_map, map_map] at hkeys
    have hlisted := map_eq_of_sortOn_map EventEntry.id (fun _ => rfl)
      (congrArg FingerprintPayload.events hpayload) hkeys
    exact eq_of_map_eq hlisted hleft fun _ _ _ _ => event_eq
  shareholding := by
    have hleft : v.shareholding.map ShareholdingSnapshot.leftOut
        = w.shareholding.map ShareholdingSnapshot.leftOut := congrArg LeftOut.shareholding hrest
    have hkeys := congrArg (List.map ShareholdingSnapshot.periodEnd) hleft
    rw [map_map, map_map] at hkeys
    have hlisted := map_eq_of_sortOn_map ShareholdingEntry.periodEnd (fun _ => rfl)
      (congrArg FingerprintPayload.shareholding hpayload) hkeys
    exact eq_of_map_eq hlisted hleft fun _ _ _ _ => shareholding_eq
  officialIndustry := congrArg LeftOut.officialIndustry hrest
  industry := congrArg LeftOut.industry hrest
  sector := congrArg (fun payload : FingerprintPayload => payload.profile.2.2.2.2) hpayload
  evaluatedAt := congrArg LeftOut.evaluatedAt hrest
  newsFeatures := by
    have hkeys : v.newsFeatures.map featureId
        = w.newsFeatures.map featureId := congrArg LeftOut.newsFeatures hrest
    have hlisted : (sortOn featureId v.newsFeatures).map id
        = (sortOn featureId w.newsFeatures).map id := by
      rw [map_id, map_id]
      exact congrArg FingerprintPayload.newsFeatures hpayload
    simpa using map_eq_of_sortOn_map featureId (fun _ => rfl) hlisted hkeys
  newsSearchRun := congrArg FingerprintPayload.newsSearch hpayload

end

/-! ### The evaluation reads no more -/

omit [PyLibrary] in
theorem usablePrices_positive (prices : List MarketPriceObservation) :
    usablePrices (prices.filter fun p => 0 < p.price) = usablePrices prices := by
  simp [usablePrices]

omit [PyLibrary] in
theorem usable_positive (prices : List MarketPriceObservation) (now : Instant) :
    (prices.filter fun p => 0 < p.price).filter (fun p => p.observedAt ≤ now ∧
        p.retrievedAt ≤ now ∧ 0 < p.price ∧ nonEmpty p.currency ≠ none ∧ p.sourceUrl ≠ "")
      = prices.filter fun p => p.observedAt ≤ now ∧ p.retrievedAt ≤ now ∧ 0 < p.price ∧
        nonEmpty p.currency ≠ none ∧ p.sourceUrl ≠ "" := by
  rw [filter_filter]
  refine filter_congr fun p _ => ?_
  by_cases h : 0 < p.price <;> simp [h]

theorem materializeValuation_positive (records : List StructuredMarketSnapshotRecord)
    (prices : List MarketPriceObservation) (now : Instant) :
    materializeValuation records (prices.filter fun p => 0 < p.price) now
      = materializeValuation records prices now := by
  rw [materializeValuation, materializeValuation, usable_positive]

namespace SameRows

variable (h : SameRows v w)
include h

theorem prices : usablePrices v.marketPrices = usablePrices w.marketPrices := by
  rw [← usablePrices_positive, h.marketPrices, usablePrices_positive]

theorem readings : SameReadings v w where
  series metrics period _ := by
    rw [factSeries, factSeries, selectedFacts, selectedFacts, h.financialFacts]
  figures key _ := by
    rw [structuredData, structuredData, structuredEntries, structuredEntries, h.structuredSnapshots]
  materialized := by
    rw [← materializeValuation_positive, h.marketPrices, materializeValuation_positive,
      h.structuredSnapshots, h.evaluatedAt]
  prices := h.prices
  sector := h.sector

theorem financial : isFinancial v = isFinancial w := by
  rw [isFinancial, isFinancial, h.sector, h.industry]

theorem areaReadiness_eq : areaReadiness v = areaReadiness w := by
  funext area
  rw [areaReadiness, areaReadiness, h.readiness]

theorem finish_eq : finish v = finish w := by
  funext area weighted missing applicable
  rw [finish, finish, h.areaReadiness_eq]

theorem balanceSheet_eq : balanceSheet v = balanceSheet w := by
  have hexcluded : excludedBalanceSheetInputs v = excludedBalanceSheetInputs w := by
    funext item
    rw [excludedBalanceSheetInputs, excludedBalanceSheetInputs, h.officialIndustry, h.industry,
      h.sector]
  rw [balanceSheet, balanceSheet, h.readiness, hexcluded, lenderMetrics_same h.readings,
    corporateMetrics_same h.readings, h.finish_eq]

theorem catalysts_eq : catalysts v = catalysts w := by
  rw [catalysts, catalysts, relevantCatalysts, relevantCatalysts, excludedCatalystInputs,
    excludedCatalystInputs, completedCheckArea, completedCheckArea, h.events, h.readiness,
    h.areaReadiness_eq, h.finish_eq]

theorem technical_eq : technical v = technical w := by
  rw [technical, technical, h.prices, h.finish_eq]

theorem news_eq : news v = news w := by
  rw [news, news, newsFromEvents, newsFromEvents, currentEvents, currentEvents, h.newsFeatures,
    h.newsSearchRun, h.evaluatedAt, h.events, h.sector, h.areaReadiness_eq, h.finish_eq]

theorem shareholding_eq : shareholdingArea v = shareholdingArea w := by
  rw [shareholdingArea, shareholdingArea, h.profile, h.shareholding, h.finish_eq]

theorem governance_eq : governance v = governance w := by
  rw [governance, governance, h.events, h.shareholding, h.areaReadiness_eq, h.finish_eq]

theorem sectorMacro_eq : sectorMacro v = sectorMacro w := by
  have hperformance : sectorPerformance v = sectorPerformance w := by
    rw [sectorPerformance, sectorPerformance, structuredData, structuredData, structuredEntries,
      structuredEntries, h.structuredSnapshots]
  rw [sectorMacro, sectorMacro, sectorBasis, sectorBasis, exposedMacroEvents, exposedMacroEvents,
    hperformance, h.sector, h.evaluatedAt, h.profile, h.events, h.finish_eq]

theorem areaResults_eq : areaResults v = areaResults w := by
  rw [areaResults, areaResults, valuation, valuation, quality, quality, growth, growth, quarterly,
    quarterly, h.balanceSheet_eq, h.catalysts_eq, h.technical_eq, h.news_eq, h.shareholding_eq,
    h.governance_eq, h.sectorMacro_eq, valuationMetrics_same h.readings h.financial,
    qualityMetrics_same h.readings h.financial, growthMetrics_same h.readings,
    quarterlyMetrics_same h.readings, h.finish_eq]

theorem riskOverrides_eq : riskOverrides v = riskOverrides w := by
  rw [riskOverrides, riskOverrides, negativeGuidance, negativeGuidance, authoritativeEvents,
    authoritativeEvents, extremeBalanceSheetEvidence_same h.readings, h.newsFeatures,
    h.evaluatedAt, h.events, h.financial]

theorem inputAsOf_eq : inputAsOf v = inputAsOf w := by
  rw [inputAsOf, inputAsOf, h.prices, h.financialFacts, h.structuredSnapshots, h.events,
    h.shareholding]

theorem evaluate_eq : evaluate v allowPartial = evaluate w allowPartial := by
  have hassemble : assemble v allowPartial = assemble w allowPartial := by
    funext areas
    rw [assemble, assemble, h.readiness, h.riskOverrides_eq, h.inputAsOf_eq, h.evaluatedAt,
      h.profile]
  rw [evaluate, evaluate, h.areaResults_eq, hassemble]

end SameRows

/-! ### The payload alone -/

omit [PyLibrary] in
theorem halfEven_near (q : ℚ) : |(PyFloat.halfEven q : ℚ) - q| ≤ 1 / 2 := by
  have hfloor : (q.floor : ℚ) ≤ q := Rat.floor_le q
  have hnext : q < q.floor + 1 := by exact_mod_cast Rat.lt_floor_add_one q
  rw [abs_le, PyFloat.halfEven]
  split
  · constructor <;> linarith
  · split
    · push_cast
      constructor <;> linarith
    · have hhalf : q - q.floor = 1 / 2 := by linarith
      split
      · constructor <;> linarith
      · push_cast
        constructor <;> linarith

omit [PyLibrary] in
theorem roundScore_near (q : ℚ) : |roundScore q - q| ≤ 1 / 200 := by
  have hnear := halfEven_near (q * 10 ^ 2)
  have hround : roundScore q = PyFloat.halfEven (q * 10 ^ 2) / 10 ^ 2 := rfl
  rw [hround]
  rw [abs_le] at hnear ⊢
  constructor <;> linarith

omit [PyLibrary] in
theorem mean_bounds {values : List ℚ} (h : ∀ x ∈ values, 0 ≤ x ∧ x ≤ 100) :
    0 ≤ mean values ∧ mean values ≤ 100 := by
  rw [mean]
  split
  · norm_num
  · rename_i hne
    have hlength : (0 : ℚ) < values.length := by
      exact_mod_cast length_pos_iff.mpr hne
    have hlower : 0 ≤ values.sum := sum_nonneg fun x hx => (h x hx).1
    have hupper : values.sum ≤ values.length * 100 := by
      have hle := sum_le_card_nsmul values 100 fun x hx => (h x hx).2
      simpa [nsmul_eq_mul] using hle
    exact ⟨div_nonneg hlower hlength.le, by rw [div_le_iff₀ hlength]; linarith⟩

/-- `v` with both completeness percentages set. -/
def atCompleteness (v : StockRuleEngineInput) (pct : Int) : StockRuleEngineInput :=
  { v with readiness := { v.readiness with
      overallCompletenessPct := pct
      criticalCompletenessPct := pct } }

theorem atCompleteness_payload (v : StockRuleEngineInput) (pct : Int) (allowPartial : Bool) :
    fingerprintPayload (atCompleteness v pct) allowPartial
      = fingerprintPayload v allowPartial := rfl

omit [PyLibrary] in
/-- None and all of the completeness are told apart by the confidence score. -/
theorem confidence_differs (v : StockRuleEngineInput) :
    confidenceScore (atCompleteness v 0).readiness
      ≠ confidenceScore (atCompleteness v 100).readiness := by
  intro hequal
  let supported := v.readiness.requirements.filter fun item => item.status ∉ exemptStatuses
  let authority := mean ((supported.filterMap
    ResearchRequirementReadiness.sourceTier).map authorityPoints)
  let freshness := mean (supported.map fun item => freshnessPoints item.status)
  let penalty : ℚ :=
    (min 30 ((supported.filter fun item => item.status = .conflicting).length * 15) : Nat)
  have hauthority : 0 ≤ authority ∧ authority ≤ 100 := by
    refine mean_bounds fun x hx => ?_
    obtain ⟨tier, -, rfl⟩ := mem_map.mp hx
    cases tier <;> norm_num [authorityPoints]
  have hfreshness : 0 ≤ freshness ∧ freshness ≤ 100 := by
    refine mean_bounds fun x hx => ?_
    obtain ⟨item, -, rfl⟩ := mem_map.mp hx
    cases item.status <;> norm_num [freshnessPoints]
  have hpenalty : 0 ≤ penalty ∧ penalty ≤ 30 :=
    ⟨Nat.cast_nonneg _, (Nat.cast_le.mpr (min_le_left _ _)).trans (by norm_num)⟩
  have hnone : confidenceScore (atCompleteness v 0).readiness
      = roundScore (clamp (((0 : Int) : ℚ) * 0.4 + ((0 : Int) : ℚ) * 0.2 + authority * 0.2
        + freshness * 0.2 - penalty)) := rfl
  have hall : confidenceScore (atCompleteness v 100).readiness
      = roundScore (clamp (((100 : Int) : ℚ) * 0.4 + ((100 : Int) : ℚ) * 0.2 + authority * 0.2
        + freshness * 0.2 - penalty)) := rfl
  rw [hnone, hall] at hequal
  have hnear := abs_le.mp (roundScore_near (clamp (((0 : Int) : ℚ) * 0.4 + ((0 : Int) : ℚ) * 0.2
    + authority * 0.2 + freshness * 0.2 - penalty)))
  have hnear' := abs_le.mp (roundScore_near (clamp (((100 : Int) : ℚ) * 0.4
    + ((100 : Int) : ℚ) * 0.2 + authority * 0.2 + freshness * 0.2 - penalty)))
  have hlow : clamp (((0 : Int) : ℚ) * 0.4 + ((0 : Int) : ℚ) * 0.2 + authority * 0.2
      + freshness * 0.2 - penalty) ≤ max 0 (authority * 0.2 + freshness * 0.2 - penalty) := by
    rw [clamp]
    refine max_le_max le_rfl ((min_le_right _ _).trans (le_of_eq ?_))
    push_cast
    ring
  have hhigh : 60 + (authority * 0.2 + freshness * 0.2 - penalty)
      ≤ clamp (((100 : Int) : ℚ) * 0.4 + ((100 : Int) : ℚ) * 0.2 + authority * 0.2
        + freshness * 0.2 - penalty) := by
    rw [clamp]
    refine le_max_of_le_right (le_min ?_ (le_of_eq ?_))
    · linarith [hauthority.2, hfreshness.2, hpenalty.1]
    · push_cast
      ring
  rcases max_cases 0 (authority * 0.2 + freshness * 0.2 - penalty) with ⟨hmax, -⟩ | ⟨hmax, -⟩
  · linarith [hauthority.1, hfreshness.1, hpenalty.2]
  · linarith

/-- A result up to the time it was calculated at. -/
def StockRuleEngineResult.undated (r : StockRuleEngineResult) : StockRuleEngineResult :=
  { r with calculatedAt := 0 }

theorem confidence_of_evaluate {r : StockRuleEngineResult}
    (h : evaluate v allowPartial = some r) : r.confidenceScore = confidenceScore v.readiness := by
  rw [evaluate] at h
  obtain ⟨areas, -, h⟩ := Option.bind_eq_some_iff.mp h
  obtain ⟨signal, -, rfl⟩ := Option.map_eq_some_iff.mp h
  rfl

theorem payload_unsafe (hv : (evaluate v allowPartial).isSome) :
    ∃ w, fingerprintPayload w allowPartial = fingerprintPayload v allowPartial ∧
      (evaluate w allowPartial).map StockRuleEngineResult.undated
        ≠ (evaluate v allowPartial).map StockRuleEngineResult.undated := by
  obtain ⟨r, hr⟩ := Option.isSome_iff_exists.mp hv
  have hconfidence : ∀ w, (evaluate w allowPartial).map StockRuleEngineResult.undated
      = (evaluate v allowPartial).map StockRuleEngineResult.undated →
      confidenceScore w.readiness = r.confidenceScore := by
    intro w hsame
    rw [hr] at hsame
    cases hw : evaluate w allowPartial with
    | none =>
        rw [hw] at hsame
        cases hsame
    | some s =>
        rw [hw] at hsame
        have hscore := congrArg StockRuleEngineResult.confidenceScore (Option.some.inj hsame)
        exact (confidence_of_evaluate hw).symm.trans hscore
  by_contra hunsafe
  have hsafe : ∀ w, fingerprintPayload w allowPartial = fingerprintPayload v allowPartial →
      (evaluate w allowPartial).map StockRuleEngineResult.undated
        = (evaluate v allowPartial).map StockRuleEngineResult.undated :=
    fun w hw => by_contra fun hne => hunsafe ⟨w, hw, hne⟩
  have hnone := hconfidence _ (hsafe _ (atCompleteness_payload v 0 allowPartial))
  have hall := hconfidence _ (hsafe _ (atCompleteness_payload v 100 allowPartial))
  exact confidence_differs v (hnone.trans hall.symm)

end

/-! ### Two evaluations on one day -/

section
attribute [local instance] asciiLibrary

/-- One order dated thirty days before the day of the evaluation. -/
def thirtyDaysOn (evaluatedAt : Instant) : StockRuleEngineInput where
  profile := ⟨"1", "IN", "NSE", "XNSE", "ABC"⟩
  readiness := ⟨[requirement "BALANCE_SHEET_FACTS" .balanceSheet .missing], 0, 0⟩
  financialFacts := []
  structuredSnapshots := []
  marketPrices := []
  events := [orderBook "e1" "first order"]
  shareholding := []
  canonicalMetadata := ⟨none, none, none, none, none⟩
  evaluatedAt
  newsFeatures := []
  newsSearchRun := none

end

end InvestmentPlatform.Rules
