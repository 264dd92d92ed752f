/-
Reading the rows of a rule engine input in another order.

Every reading picks among rows by a rank, and where two rows tie at the top it takes the one
listed first.  What is proved here is that this is the only place where the order counts:
where no such tie is between rows that differ, a series of facts, a summary figure, the
prices and the materialized ratios come out the same.
-/
import InvestmentPlatform.Rules.Engine

namespace InvestmentPlatform.Rules

open Selection PyLibrary List Option Datum

/-- `w` is `v` with its rows listed in another order. -/
structure Permuted (v w : StockRuleEngineInput) : Prop where
  profile : v.profile = w.profile
  canonicalMetadata : v.canonicalMetadata = w.canonicalMetadata
  evaluatedAt : v.evaluatedAt = w.evaluatedAt
  newsSearchRun : v.newsSearchRun = w.newsSearchRun
  overallCompleteness :
    v.readiness.overallCompletenessPct = w.readiness.overallCompletenessPct
  criticalCompleteness :
    v.readiness.criticalCompletenessPct = w.readiness.criticalCompletenessPct
  requirements : v.readiness.requirements.Perm w.readiness.requirements
  financialFacts : v.financialFacts.Perm w.financialFacts
  structuredSnapshots : v.structuredSnapshots.Perm w.structuredSnapshots
  marketPrices : v.marketPrices.Perm w.marketPrices
  events : v.events.Perm w.events
  shareholding : v.shareholding.Perm w.shareholding
  newsFeatures : v.newsFeatures.Perm w.newsFeatures

variable [PyLibrary] {v w : StockRuleEngineInput}

/-! ### A series of facts -/

/-- No tie decides what a series is: not between two observations of a period, nor between
two groups of basis, unit and period type. -/
structure SeriesUndisputed (data : List Datum) : Prop where
  observation : ∀ k, Undisputed Datum.authority id (data.filter (·.periodKey = k))
  group : Undisputed groupRank (fun rows => rows.head?.map Datum.groupKey)
    (groupOn Datum.groupKey (keepBest Datum.periodKey Datum.authority data))

omit [PyLibrary] in
theorem newest_perm {rows rows' : List Datum} (h : rows.Perm rows') :
    newest rows = newest rows' := by
  rw [newest, newest, max?_perm (h.filterMap _)]

omit [PyLibrary] in
/-- The rank of a group looks only at its members: they share basis, unit and period type. -/
theorem groupRank_perm {k : Option String × Option String × Option String}
    {rows rows' : List Datum} (h : rows.Perm rows') (hkey : ∀ d ∈ rows, d.groupKey = k) :
    groupRank rows = groupRank rows' := by
  have hhead : rows.head?.map groupKey = rows'.head?.map groupKey := by
    cases rows with
    | nil => rw [nil_perm.mp h]
    | cons a rows =>
        cases rows' with
        | nil => exact absurd (perm_nil.mp h) (by simp)
        | cons b rows' =>
            rw [head?_cons, head?_cons, map_some, map_some,
              hkey a mem_cons_self, hkey b (h.mem_iff.mpr mem_cons_self)]
  have hbasis : rows.head?.map reportingBasis = rows'.head?.map reportingBasis := by
    simpa [Option.map_map, Function.comp_def, groupKey] using
      congrArg (Option.map fun key => key.2.1) hhead
  have hperiod : rows.head?.map periodType = rows'.head?.map periodType := by
    simpa [Option.map_map, Function.comp_def, groupKey] using
      congrArg (Option.map fun key => key.1) hhead
  have hunit : rows.head?.map unit = rows'.head?.map unit := by
    simpa [Option.map_map, Function.comp_def, groupKey] using
      congrArg (Option.map fun key => key.2.2) hhead
  have hconsolidated : (rows.head?.any fun d => d.reportingBasis = some "CONSOLIDATED")
      = rows'.head?.any fun d => d.reportingBasis = some "CONSOLIDATED" := by
    have hany : ∀ rows : List Datum,
        (rows.head?.any fun d => d.reportingBasis = some "CONSOLIDATED")
          = (rows.head?.map reportingBasis).any (· = some "CONSOLIDATED") := fun rows => by
      rw [Option.any_map]
    rw [hany, hany, hbasis]
  have hjoin : ∀ (rows : List Datum) (f : Datum → Option String),
      rows.head?.bind f = (rows.head?.map f).join := fun rows f => by
    cases rows.head? <;> rfl
  rw [groupRank, groupRank, newest_perm h, hconsolidated, max?_perm (h.map _), hjoin, hjoin rows,
    hjoin rows', hjoin rows', hperiod, hunit]

theorem seriesOf_perm {data data' : List Datum} (hperm : data.Perm data')
    (hdated : ∀ d ∈ data, d.asOf.isSome) (hdata : SeriesUndisputed data) :
    seriesOf data = seriesOf data' := by
  have hkept : (keepBest periodKey authority data).Perm
      (keepBest periodKey authority data') := by
    simpa using keepBest_map_perm hperm hdata.observation
  rw [seriesOf, seriesOf]
  rcases firstMax_groupOn_perm hkept (fun _ _ _ h hkey => groupRank_perm h hkey) hdata.group with
    ⟨hnone, hnone'⟩ | ⟨k, hsome, hsome'⟩
  · rw [hnone, hnone']
  · rw [hsome, hsome']
    simp only
    -- Within a group the date alone tells the observations apart.
    have hties : ∀ a ∈ (keepBest periodKey authority data).filter (·.groupKey = k),
        ∀ b ∈ (keepBest periodKey authority data).filter (·.groupKey = k),
        a.asOf.getD 0 = b.asOf.getD 0 → id a = id b := by
      intro a ha b hb hat
      obtain ⟨ha, hka⟩ := mem_filter.mp ha
      obtain ⟨hb, hkb⟩ := mem_filter.mp hb
      obtain ⟨s, hs⟩ := isSome_iff_exists.mp (hdated a (mem_of_mem_keepBest ha))
      obtain ⟨t, ht⟩ := isSome_iff_exists.mp (hdated b (mem_of_mem_keepBest hb))
      have hgroup : a.groupKey = b.groupKey :=
        (of_decide_eq_true hka).trans (of_decide_eq_true hkb).symm
      rw [groupKey, groupKey, Prod.mk.injEq, Prod.mk.injEq] at hgroup
      obtain ⟨hperiod, hbasis, hunit⟩ := hgroup
      rw [hs, ht, getD_some, getD_some] at hat
      have hkey : a.periodKey = b.periodKey := by
        rw [periodKey, periodKey, hs, ht, hat, hperiod, hbasis, hunit]
      exact inj_on_of_nodup_map (keepBest_keys_nodup data) ha hb hkey
    simpa using sortOn_map_perm id (hkept.filter _) hties

theorem factDatum_dated {fact : FinancialFact} {d : Datum} (h : factDatum fact = some d) :
    d.asOf.isSome := by
  rw [factDatum] at h
  obtain ⟨number, -, h⟩ := bind_eq_some_iff.mp h
  obtain ⟨asOf, -, rfl⟩ := map_eq_some_iff.mp h
  rfl

theorem factSeries_perm (h : Permuted v w) {metrics : List String} {period : Option String}
    (hread : SeriesUndisputed ((selectedFacts v metrics period).filterMap factDatum)) :
    factSeries v metrics period = factSeries w metrics period := by
  refine seriesOf_perm ((h.financialFacts.filter _).filterMap _) (fun d hd => ?_) hread
  obtain ⟨fact, -, hfact⟩ := mem_filterMap.mp hd
  exact factDatum_dated hfact

/-! ### Prices -/

omit [PyLibrary] in
theorem usablePrices_perm (h : v.marketPrices.Perm w.marketPrices)
    (hdistinct : (v.marketPrices.map MarketPriceObservation.observedAt).Nodup) :
    usablePrices v.marketPrices = usablePrices w.marketPrices :=
  sortOn_eq_of_perm (h.filter _) (hdistinct.sublist (filter_sublist.map _))

/-! ### Materialized ratios -/

theorem valuationRatio_perm {records records' : List StructuredMarketSnapshotRecord}
    (h : records.Perm records') (price : MarketPriceObservation) (now : Instant) (name : String) :
    valuationRatio records price now name = valuationRatio records' price now name := by
  have hbases : (valuationBases records price now name).Perm
      (valuationBases records' price now name) := h.filterMap _
  rw [valuationRatio, valuationRatio, ← max?_perm (hbases.map Prod.fst)]
  have hnumbers := ((hbases.filter fun b => decide (some b.1
    = ((valuationBases records price now name).map Prod.fst).max?)).map fun b => b.2.2).dedup
  rcases perm_short hnumbers with hsame | ⟨hlong, hlong'⟩
  · simp only [hsame]
  · split
    · rename_i hone
      rw [hone] at hlong
      simp at hlong
    · split
      · rename_i hone
        rw [hone] at hlong'
        simp at hlong'
      · rfl

omit [PyLibrary] in
/-- Observations at distinct times have at most one latest. -/
theorem latest_perm {l l' : List MarketPriceObservation} (h : l.Perm l')
    (hdistinct : (l.map MarketPriceObservation.observedAt).Nodup) :
    l.filter (fun p => some p.observedAt = (l.map (·.observedAt)).max?)
      = l'.filter fun p => some p.observedAt = (l'.map (·.observedAt)).max? := by
  rw [← max?_perm (h.map (·.observedAt))]
  have hperm := h.filter fun p => decide (some p.observedAt = (l.map (·.observedAt)).max?)
  have hnodup : ((l.filter fun p => some p.observedAt = (l.map (·.observedAt)).max?).map
      MarketPriceObservation.observedAt).Nodup := hdistinct.sublist (filter_sublist.map _)
  have hlast : ∀ p ∈ l.filter fun p => some p.observedAt = (l.map (·.observedAt)).max?,
      some p.observedAt = (l.map (·.observedAt)).max? := fun p hp =>
    of_decide_eq_true (mem_filter.mp hp).2
  rcases perm_short hperm with hsame | ⟨hlong, -⟩
  · exact hsame
  · generalize (l.filter fun p => some p.observedAt = (l.map (·.observedAt)).max?) = latest at *
    rcases latest with - | ⟨a, - | ⟨b, rest⟩⟩
    · simp at hlong
    · simp at hlong
    · have hat : some a.observedAt = some b.observedAt :=
        (hlast a (by simp)).trans (hlast b (by simp)).symm
      simp [some.inj hat] at hnodup

theorem materializeValuation_perm (h : Permuted v w)
    (hdistinct : (v.marketPrices.map MarketPriceObservation.observedAt).Nodup) (now : Instant) :
    materializeValuation v.structuredSnapshots v.marketPrices now
      = materializeValuation w.structuredSnapshots w.marketPrices now := by
  rw [materializeValuation, materializeValuation]
  simp only
  rw [latest_perm (h.marketPrices.filter _) (hdistinct.sublist (filter_sublist.map _))]
  simp only [valuationRatio_perm h.structuredSnapshots]

/-! ### Summary figures -/

/-- The structured figures the evaluators look up. -/
def summaryKeys : List String :=
  ["marketcap", "freecashflow", "trailingpe", "pe", "pricetoearnings", "forwardpe", "pricetobook",
    "pb", "evtoebitda", "enterprisevaluetoebitda", "pegratio", "peg", "roe", "returnonequity",
    "roce", "returnoncapitalemployed", "operatingmargin", "profitmargin", "netmargin",
    "debttoequity", "sectorperformance", "sectorreturn"]

/-- Two tables hold the same figure under each key that is looked up. -/
def SameFigures (values values' : List (String × Datum)) : Prop :=
  ∀ key ∈ summaryKeys, (values.find? (·.1 = metricKey key)).map Prod.snd
    = (values'.find? (·.1 = metricKey key)).map Prod.snd

theorem pick_congr {values values' : List (String × Datum)} (h : SameFigures values values')
    {keys : List String} (hkeys : ∀ key ∈ keys, key ∈ summaryKeys) :
    pick values keys = pick values' keys := by
  rw [pick, pick]
  induction keys with
  | nil => rfl
  | cons key keys ih =>
      rw [findSome?_cons, findSome?_cons, h key (hkeys key mem_cons_self),
        ih fun k hk => hkeys k (mem_cons_of_mem _ hk)]

theorem structuredData_perm (h : v.structuredSnapshots.Perm w.structuredSnapshots)
    (hties : ∀ key ∈ summaryKeys, Undisputed structuredRank Prod.snd
      ((structuredEntries v).filter (·.1 = metricKey key))) :
    SameFigures (structuredData v) (structuredData w) := by
  intro key hkey
  have hentries : (structuredEntries v).Perm (structuredEntries w) := h.flatMap_right _
  rw [structuredData, structuredData, keepBest_find, keepBest_find]
  exact firstMax_perm (hentries.filter _) (hties key hkey)

end InvestmentPlatform.Rules

/-!
What each area evaluator makes of the order of the rows.

`SameReadings` says that two inputs read the same through the helpers of `Rules/Readings`.
The evaluators of statements, ratios and prices then return the very same metrics; those of
events return the same scores in some order, and `finish` is blind to that order.
-/

namespace InvestmentPlatform.Rules

open Selection PyLibrary

/-- Two area results with the same score and status, and the same scores inside. -/
structure SameArea (a b : AreaScoreResult) : Prop where
  area : a.area = b.area
  rawScore : a.rawScore = b.rawScore
  weightedContribution : a.weightedContribution = b.weightedContribution
  status : a.status = b.status
  applicable : a.applicable = b.applicable
  scores : (a.metrics.map fun m => (m.score, m.configuredSubruleWeight)).Perm
    (b.metrics.map fun m => (m.score, m.configuredSubruleWeight))

theorem SameArea.refl (a : AreaScoreResult) : SameArea a a := ⟨rfl, rfl, rfl, rfl, rfl, .rfl⟩

theorem SameArea.withStatus {a b : AreaScoreResult} (h : SameArea a b) (status : AreaScoreStatus) :
    SameArea { a with status } { b with status } :=
  ⟨h.area, h.rawScore, h.weightedContribution, rfl, h.applicable, h.scores⟩

variable {v w : StockRuleEngineInput}

/-! ### The readiness of an area -/

theorem areaReadiness_perm (h : Permuted v w) (area : RuleEngineArea) :
    (areaReadiness v area).Perm (areaReadiness w area) := h.requirements.filter _

theorem readinessMissing_perm {items items' : List ResearchRequirementReadiness}
    (h : items.Perm items') : (readinessMissing items).Perm (readinessMissing items') :=
  (h.flatMap_right _).append (h.flatMap_right _)

theorem scoredStatus_perm {items items' : List ResearchRequirementReadiness} (h : items.Perm items')
    {missing missing' : List String} (hmissing : missing = [] ↔ missing' = []) :
    scoredStatus items missing = scoredStatus items' missing' := by
  simp only [scoredStatus, h.mem_iff, ne_eq, hmissing]

/-! ### Finishing an area -/

/-- What weighing reads of the metrics. -/
def scoresOf (weighted : List Weighted) : List (ℚ × Nat) := weighted.map fun m => (m.1.score, m.2)

variable {l l' : List Weighted}

theorem scores_nil_iff (h : (scoresOf l).Perm (scoresOf l')) : l = [] ↔ l' = [] := by
  simpa [scoresOf] using eq_nil_iff_of_perm h

theorem rawAreaScore_perm (h : (scoresOf l).Perm (scoresOf l')) :
    rawAreaScore l = rawAreaScore l' := by
  have hproducts : ∀ l : List Weighted, (l.map fun m => m.1.score * (m.2 : ℚ))
      = (scoresOf l).map fun m => m.1 * (m.2 : ℚ) := fun l => by
    rw [scoresOf, List.map_map]
    rfl
  have hweights : ∀ l : List Weighted, l.map Prod.snd = (scoresOf l).map Prod.snd := fun l => by
    rw [scoresOf, List.map_map]
    rfl
  rw [rawAreaScore, rawAreaScore, hproducts, hproducts, hweights, hweights, (h.map _).sum_eq,
    (h.map Prod.snd).sum_eq]

theorem appliedMetrics_scores (l : List Weighted) :
    ((appliedMetrics l).map fun m => (m.score, m.configuredSubruleWeight)) = scoresOf l := by
  rw [appliedMetrics, scoresOf, List.map_map]
  rfl

theorem missingWithout_perm (h : (scoresOf l).Perm (scoresOf l'))
    (missing : String) : missingWithout l missing = [] ↔ missingWithout l' missing = [] := by
  simp only [missingWithout, scores_nil_iff h]

variable [PyLibrary]

/-- **An area is finished the same**, whatever the order of its requirements and metrics. -/
theorem finish_perm (h : Permuted v w) {missing missing' : List String}
    (hscores : (scoresOf l).Perm (scoresOf l')) (hmissing : missing = [] ↔ missing' = [])
    (area : RuleEngineArea) (applicable : Bool) :
    SameArea (finish v area l missing applicable) (finish w area l' missing' applicable) := by
  have hitems := areaReadiness_perm h area
  have hstatus : ∀ s, (areaReadiness v area ≠ [] ∧ ∀ item ∈ areaReadiness v area, item.status = s)
      ↔ areaReadiness w area ≠ [] ∧ ∀ item ∈ areaReadiness w area, item.status = s := by
    intro s
    simp only [ne_eq, eq_nil_iff_of_perm hitems, hitems.mem_iff]
  have hnil : l = [] ↔ l' = [] := scores_nil_iff hscores
  have hmissingAll : sortedSet (missing ++ readinessMissing (areaReadiness v area)) = [] ↔
      sortedSet (missing' ++ readinessMissing (areaReadiness w area)) = [] := by
    simp only [sortedSet_eq_nil, List.append_eq_nil_iff, hmissing,
      eq_nil_iff_of_perm (readinessMissing_perm hitems)]
  unfold finish
  simp only
  by_cases hnone : areaReadiness v area ≠ [] ∧
      ∀ item ∈ areaReadiness v area, item.status = .notApplicable
  · rw [if_pos hnone, if_pos ((hstatus _).mp hnone)]
    exact .refl _
  · rw [if_neg hnone, if_neg (mt (hstatus _).mpr hnone)]
    by_cases hunsupported : applicable = false ∨ (areaReadiness v area ≠ [] ∧
        ∀ item ∈ areaReadiness v area, item.status = .unsupported)
    · rw [if_pos hunsupported, if_pos (hunsupported.imp_right (hstatus _).mp)]
      exact ⟨rfl, rfl, rfl, rfl, rfl, .rfl⟩
    · rw [if_neg hunsupported, if_neg (mt (Or.imp_right (hstatus _).mpr) hunsupported)]
      by_cases hempty : l = []
      · rw [if_pos hempty, if_pos (hnil.mp hempty)]
        exact ⟨rfl, rfl, rfl, rfl, rfl, .rfl⟩
      · rw [if_neg hempty, if_neg (mt hnil.mpr hempty)]
        have hraw := rawAreaScore_perm hscores
        refine ⟨rfl, congrArg some hraw, ?_, scoredStatus_perm hitems hmissingAll, rfl, ?_⟩
        · simp only [hraw]
        · simpa only [appliedMetrics_scores] using hscores

/-! ### The same readings -/

/-- The series of facts the evaluators read: metrics and a period type, or any. -/
def seriesReads : List (List String × Option String) :=
  [(["free_cash_flow"], some "ANNUAL"), (["free_cash_flow"], some "TTM"),
    (["roe", "return_on_equity"], none), (["roce", "return_on_capital_employed"], none),
    (["operating_margin"], none), (["profit_margin", "net_margin"], none),
    (profitMetrics, some "ANNUAL"), (profitMetrics, some "QUARTERLY"),
    (revenueMetrics, some "ANNUAL"), (revenueMetrics, some "QUARTERLY"),
    (["eps"], some "ANNUAL"), (["eps"], some "QUARTERLY"),
    (["operating_cash_flow", "cash_flow_from_operating_activities"], some "ANNUAL"),
    (["operating_income", "operating_profit"], some "QUARTERLY"),
    (["capital_adequacy", "capital_adequacy_ratio"], none),
    (["gross_npa", "gross_npa_ratio"], none), (["net_npa", "net_npa_ratio"], none),
    (debtMetrics, some "ANNUAL"), (["equity", "total_equity"], some "ANNUAL"),
    (["cash_and_cash_equivalents", "cash_and_equivalents"], some "ANNUAL"),
    (["ebitda"], some "ANNUAL"), (["finance_cost", "interest_expense"], some "ANNUAL"),
    (["current_assets"], some "ANNUAL"), (["current_liabilities"], some "ANNUAL")]

/-- Two inputs read the same, but for their requirements, events, features and holdings. -/
structure SameReadings (v w : StockRuleEngineInput) : Prop where
  series : ∀ metrics period, (metrics, period) ∈ seriesReads →
    factSeries v metrics period = factSeries w metrics period
  figures : SameFigures (structuredData v) (structuredData w)
  materialized : materializeValuation v.structuredSnapshots v.marketPrices v.evaluatedAt
    = materializeValuation w.structuredSnapshots w.marketPrices w.evaluatedAt
  prices : usablePrices v.marketPrices = usablePrices w.marketPrices
  sector : sector v = sector w

namespace SameReadings

variable (hsame : SameReadings v w)
include hsame

theorem latest {metrics : List String} {period : Option String}
    (hread : (metrics, period) ∈ seriesReads) :
    latestFact v metrics period = latestFact w metrics period := by
  rw [latestFact, latestFact, hsame.series _ _ hread]

theorem summary {keys : List String} (hkeys : ∀ key ∈ keys, key ∈ summaryKeys) :
    pick (structuredData v) keys = pick (structuredData w) keys :=
  pick_congr hsame.figures hkeys

theorem valuationFigures : SameFigures (valuationStructured v) (valuationStructured w) := by
  intro key hkey
  have hfigure := hsame.figures key hkey
  rw [valuationStructured, valuationStructured, hsame.materialized, List.find?_append,
    List.find?_append, Option.map_or, Option.map_or, hfigure]

theorem best {values values' : List (String × Datum)} (hvalues : SameFigures values values')
    {keys metrics : List String} {periods : List (Option String)}
    (hkeys : ∀ key ∈ keys, key ∈ summaryKeys)
    (hreads : ∀ period ∈ periods, (metrics, period) ∈ seriesReads) :
    financialOrStructured v values keys metrics periods
      = financialOrStructured w values' keys metrics periods := by
  have hfacts : periods.filterMap (latestFact v metrics) = periods.filterMap (latestFact w metrics) :=
    List.filterMap_congr fun period hperiod => hsame.latest (hreads period hperiod)
  rw [financialOrStructured, financialOrStructured, hfacts, pick_congr hvalues hkeys]

theorem financial (h : Permuted v w) : isFinancial v = isFinancial w := by
  rw [isFinancial, isFinancial, hsame.sector, h.canonicalMetadata]

theorem basis (h : Permuted v w) : sectorBasis v = sectorBasis w := by
  rw [sectorBasis, sectorBasis, hsame.sector, h.evaluatedAt, h.profile]

theorem debtEquity : debtEquityDatum v (structuredData v)
    = debtEquityDatum w (structuredData w) := by
  rw [debtEquityDatum, debtEquityDatum, hsame.summary (by decide),
    hsame.latest (by decide), hsame.latest (by decide)]

end SameReadings

/-! ### The evaluators of statements, ratios and prices -/

/-- An evaluator whose metrics are the same finishes the same. -/
theorem finish_same (h : Permuted v w) (hmetrics : l = l')
    (area : RuleEngineArea) (missing : String) :
    SameArea (finish v area l (missingWithout l missing) true)
      (finish w area l' (missingWithout l' missing) true) := by
  subst hmetrics
  exact finish_perm h .rfl Iff.rfl area true

section

variable (hsame : SameReadings v w)
include hsame

theorem valuationMetrics_same (hfinancial : isFinancial v = isFinancial w) :
    valuationMetrics v = valuationMetrics w := by
  have hpick : ∀ keys, (∀ key ∈ keys, key ∈ summaryKeys) →
      pick (valuationStructured v) keys = pick (valuationStructured w) keys :=
    fun keys hkeys => pick_congr hsame.valuationFigures hkeys
  have hfcf : financialOrStructured v (valuationStructured v) ["freecashflow"] ["free_cash_flow"]
      [some "ANNUAL", some "TTM"] = financialOrStructured w (valuationStructured w)
        ["freecashflow"] ["free_cash_flow"] [some "ANNUAL", some "TTM"] :=
    hsame.best hsame.valuationFigures (by decide) (by decide)
  simp (disch := decide) only [valuationMetrics, hfinancial, hfcf, hpick]

theorem qualityMetrics_same (hfinancial : isFinancial v = isFinancial w) :
    qualityMetrics v = qualityMetrics w := by
  have hbest : ∀ keys metrics periods, (∀ key ∈ keys, key ∈ summaryKeys) →
      (∀ period ∈ periods, (metrics, period) ∈ seriesReads) →
      financialOrStructured v (structuredData v) keys metrics periods
        = financialOrStructured w (structuredData w) keys metrics periods :=
    fun keys metrics periods hkeys hreads => hsame.best hsame.figures hkeys hreads
  have hseries := hsame.series
  have hlatest : ∀ metrics period, (metrics, period) ∈ seriesReads →
      latestFact v metrics period = latestFact w metrics period :=
    fun metrics period hread => hsame.latest hread
  simp (disch := decide) only [qualityMetrics, hfinancial, hbest, hseries, hlatest]

theorem growthMetrics_same : growthMetrics v = growthMetrics w := by
  have hseries := hsame.series
  simp (disch := decide) only [growthMetrics, earningsSeries, hseries]

theorem lenderMetrics_same : lenderMetrics v = lenderMetrics w := by
  have hlatest : ∀ metrics period, (metrics, period) ∈ seriesReads →
      latestFact v metrics period = latestFact w metrics period :=
    fun metrics period hread => hsame.latest hread
  simp (disch := decide) only [lenderMetrics, hlatest]

theorem corporateMetrics_same : corporateMetrics v = corporateMetrics w := by
  have hseries := hsame.series
  have hlatest : ∀ metrics period, (metrics, period) ∈ seriesReads →
      latestFact v metrics period = latestFact w metrics period :=
    fun metrics period hread => hsame.latest hread
  simp (disch := decide) only [corporateMetrics, hsame.debtEquity, hseries, hlatest]

theorem quarterlyMetrics_same : quarterlyMetrics v = quarterlyMetrics w := by
  have hseries := hsame.series
  simp (disch := decide) only [quarterlyMetrics, hseries]

end

section

variable (h : Permuted v w)
include h

section

variable (hsame : SameReadings v w)
include hsame

theorem valuation_perm : SameArea (valuation v) (valuation w) :=
  finish_same h (valuationMetrics_same hsame (hsame.financial h)) _ _

theorem quality_perm : SameArea (quality v) (quality w) :=
  finish_same h (qualityMetrics_same hsame (hsame.financial h)) _ _

theorem growth_perm : SameArea (growth v) (growth w) := finish_same h (growthMetrics_same hsame) _ _

theorem quarterly_perm :
    SameArea (quarterly v) (quarterly w) := finish_same h (quarterlyMetrics_same hsame) _ _

theorem technical_perm : SameArea (technical v) (technical w) := by
  rw [technical, technical]
  simp only [hsame.prices]
  split
  · exact finish_perm h .rfl Iff.rfl _ _
  · exact finish_perm h .rfl Iff.rfl _ _

end

end

end InvestmentPlatform.Rules
