/-
The growth metrics of `_growth` and `_quarterly`.

Each metric is the reading of a change, a rate or a share of one series, as far as readiness lets
the area be scored; what it promises is then a matter of the series.  The promise is kept exactly on
the inputs without an amount between an earlier loss and its mirror image, and without a gap just
before the newest observation.
-/
import InvestmentPlatform.Proofs.Rules.GrowthChanges

namespace InvestmentPlatform.Rules

open Selection PyLibrary List

/-! ### What the results show -/

/-- Value and score of the metrics of some names. -/
def readings (names : List String) (metrics : List RuleMetricResult) : List (MetricValue × ℚ) :=
  (metrics.filter fun m => names.contains m.metric).map fun m => (m.value, m.score)

/-- A change or a growth rate as a metric shows it. -/
def changeReading (change : ℚ) : MetricValue × ℚ :=
  (.number change, roundScore (growthScore change))

/-- A share as a metric shows it. -/
def shareReading (share : ℚ) : MetricValue × ℚ := (.number share, roundScore share)

def yoyNames : List String := ["REVENUE_YOY", "EARNINGS_YOY", "PAT_YOY", "EPS_YOY"]

def qoqNames : List String := ["RECENT_REVENUE_QOQ", "REVENUE_QOQ", "PAT_QOQ"]

def cagrNames : List String := ["REVENUE_CAGR", "EARNINGS_CAGR"]

def consistencyNames : List String := ["MULTI_YEAR_GROWTH_CONSISTENCY", "EARNINGS_CONSISTENCY"]

def trendNames : List String := ["OPERATING_MARGIN_TREND"]

theorem readings_append (names : List String) (metrics metrics' : List RuleMetricResult) :
    readings names (metrics ++ metrics') = readings names metrics ++ readings names metrics' := by
  unfold readings
  rw [filter_append, map_append]

section

variable [PyLibrary] (v : StockRuleEngineInput)

/-- Readiness does not take the area out of scoring. -/
def Scored (area : RuleEngineArea) : Prop :=
  ¬ (areaReadiness v area ≠ [] ∧ ∀ item ∈ areaReadiness v area, item.status = .notApplicable) ∧
    ¬ (areaReadiness v area ≠ [] ∧ ∀ item ∈ areaReadiness v area, item.status = .unsupported)

instance (area : RuleEngineArea) : Decidable (Scored v area) :=
  inferInstanceAs (Decidable (¬ _ ∧ ¬ _))

theorem finish_metrics (area : RuleEngineArea) (weighted : List Weighted) (missing : List String) :
    (finish v area weighted missing true).metrics =
      if Scored v area then appliedMetrics weighted else [] := by
  unfold finish
  dsimp only
  by_cases hnot : areaReadiness v area ≠ [] ∧
      ∀ item ∈ areaReadiness v area, item.status = .notApplicable
  · rw [if_pos hnot, if_neg fun h : Scored v area => h.1 hnot]
  · rw [if_neg hnot]
    by_cases hunsupported : areaReadiness v area ≠ [] ∧
        ∀ item ∈ areaReadiness v area, item.status = .unsupported
    · rw [if_pos (Or.inr hunsupported), if_neg fun h : Scored v area => h.2 hunsupported]
    · have hscored : Scored v area := ⟨hnot, hunsupported⟩
      rw [if_neg (fun h => h.elim nofun hunsupported), if_pos hscored]
      by_cases hempty : weighted = []
      · rw [if_pos hempty, hempty]
        rfl
      · rw [if_neg hempty]

/-- The readings of weighted metrics. -/
def weightedReadings (names : List String) (weighted : List Weighted) : List (MetricValue × ℚ) :=
  readings names (weighted.map Prod.fst)

omit [PyLibrary] in
theorem readings_applied (names : List String) (weighted : List Weighted) :
    readings names (appliedMetrics weighted) = weightedReadings names weighted := by
  unfold weightedReadings readings appliedMetrics
  rw [filter_map, filter_map, map_map, map_map]
  rfl

omit [PyLibrary] in
theorem weightedReadings_append (names : List String) (w w' : List Weighted) :
    weightedReadings names (w ++ w') = weightedReadings names w ++ weightedReadings names w' := by
  unfold weightedReadings
  rw [map_append, readings_append]

omit [PyLibrary] in
theorem weightedReadings_single (names : List String) (name : String) (datum : Datum) (score : ℚ)
    (rule unit : String) (weight : Nat) :
    weightedReadings names [metricResult name datum score rule unit weight] =
      if names.contains name then [(.number datum.value, roundScore score)] else [] := by
  unfold weightedReadings readings
  rw [map_singleton, filter_singleton]
  show List.map _ (bif names.contains name then _ else _) = _
  by_cases h : names.contains name
  · rw [h, cond_true, if_pos rfl]
    rfl
  · rw [Bool.not_eq_true] at h
    rw [h, cond_false, if_neg Bool.false_ne_true]
    rfl

omit [PyLibrary] in
theorem weightedReadings_change (names : List String) (change : Option Change)
    (name evidenceId rule : String) (weight : Nat) :
    weightedReadings names (changeMetrics change name evidenceId rule weight) =
      if names.contains name then (change.map fun c => changeReading c.1).toList else [] := by
  cases change with
  | none => exact (ite_self _).symm
  | some c => exact weightedReadings_single names name _ _ rule "PERCENT" weight

theorem weightedReadings_cagr (names : List String) (series : List Datum)
    (name evidenceId rule : String) :
    weightedReadings names (cagrMetrics series name evidenceId rule) =
      if names.contains name then ((seriesCagr series).map changeReading).toList else [] := by
  unfold cagrMetrics
  cases hcagr : seriesCagr series with
  | none => exact (ite_self _).symm
  | some cagr =>
      obtain ⟨-, -, -, last, hlast, -⟩ := seriesCagr_eq_some.mp hcagr
      rw [Option.elim_some, derivedFromMany, hlast]
      exact weightedReadings_single names name _ _ rule "PERCENT" 27

/-- The series of the metrics of an area that is scored. -/
def ofArea {α : Type} (area : RuleEngineArea) (series : List α) : List α :=
  if Scored v area then series else []

def quarterlySeries (metrics : List String) : List Datum := factSeries v metrics (some "QUARTERLY")

/-- The series a year-on-year metric is about, in the order of the results. -/
def yoySeries : List (List Datum) :=
  ofArea v .growth [quarterlySeries v revenueMetrics, earningsSeries v "QUARTERLY"] ++
    ofArea v .quarterlyEarningsTrend [quarterlySeries v revenueMetrics,
      quarterlySeries v profitMetrics, quarterlySeries v ["eps"]]

/-- The series a quarter-on-quarter metric is about. -/
def qoqSeries : List (List Datum) :=
  ofArea v .growth [quarterlySeries v revenueMetrics] ++
    ofArea v .quarterlyEarningsTrend [quarterlySeries v revenueMetrics,
      quarterlySeries v profitMetrics]

/-- The series of a growth rate. -/
def cagrSeries : List (List Datum) :=
  ofArea v .growth [factSeries v revenueMetrics (some "ANNUAL"), earningsSeries v "ANNUAL"]

/-- Both results. -/
def growthResults : List RuleMetricResult := (growth v).metrics ++ (quarterly v).metrics

theorem growth_readings (names : List String) : readings names (growth v).metrics =
      if Scored v .growth then weightedReadings names (growthMetrics v) else [] := by
  unfold growth
  rw [finish_metrics]
  by_cases h : Scored v .growth
  · rw [if_pos h, if_pos h, readings_applied]
  · rw [if_neg h, if_neg h]
    rfl

theorem quarterly_readings (names : List String) : readings names (quarterly v).metrics =
      if Scored v .quarterlyEarningsTrend then weightedReadings names (quarterlyMetrics v)
      else [] := by
  unfold quarterly
  rw [finish_metrics]
  by_cases h : Scored v .quarterlyEarningsTrend
  · rw [if_pos h, if_pos h, readings_applied]
  · rw [if_neg h, if_neg h]
    rfl

/-! ### The metrics of both results -/

/-- `margins[-1] - margins[-2]`. -/
def marginTrend (margins : List ℚ) : Option ℚ :=
  margins.getLast?.bind fun latest => margins.dropLast.getLast?.map fun prior => latest - prior

def trendReading (change : ℚ) : MetricValue × ℚ :=
  (.number change,
    roundScore (piecewise change [(-8, 8), (-3, 30), (0, 55), (2, 75), (5, 92)]))

/-- The aligned ratios, each with its numerator. -/
def alignedPairs (numerators denominators : List Datum) : List (Datum × ℚ) :=
  numerators.filterMap fun numerator =>
    ((denominators.reverse.find? fun d => d.value ≠ 0 ∧ d.asOf.isSome ∧
        (d.asOf.map (· / day)) = numerator.asOf.map (· / day)).bind fun denominator =>
      if compatibleFinancialData numerator denominator then
        some (numerator.value / denominator.value * 100)
      else none).map fun ratio => (numerator, ratio)

omit [PyLibrary] in
theorem alignedRatios_eq (numerators denominators : List Datum) :
    alignedRatios numerators denominators =
      (alignedPairs numerators denominators).map Prod.snd := by
  unfold alignedRatios alignedPairs
  rw [map_filterMap]
  refine filterMap_congr fun numerator _ => ?_
  rw [Option.map_map]
  exact Option.map_id'.symm

/-- The numerators with a denominator of their date to be divided by. -/
def withMargin (numerators denominators : List Datum) : List Datum :=
  numerators.filter fun numerator =>
    (denominators.reverse.find? fun d => d.value ≠ 0 ∧ d.asOf.isSome ∧
        (d.asOf.map (· / day)) = numerator.asOf.map (· / day)).any
      (compatibleFinancialData numerator)

/-- The margins the trend compares. -/
def operatingMargins : List (Datum × ℚ) :=
  alignedPairs (quarterlySeries v ["operating_income", "operating_profit"])
    (quarterlySeries v revenueMetrics)

omit [PyLibrary] in
theorem weightedReadings_many (names : List String) (name rule unit : String) (value score : ℚ)
    {inputs : List Datum} (hne : inputs ≠ []) (evidenceId : String) (weight : Nat) :
    weightedReadings names (metricsOf (derivedFromMany value unit inputs evidenceId) fun d =>
        [metricResult name d score rule unit weight]) =
      if names.contains name then [(.number value, roundScore score)] else [] := by
  obtain ⟨earlier, last, rfl⟩ := eq_nil_or_concat' inputs |>.resolve_left hne
  rw [derivedFromMany, getLast?_concat]
  exact weightedReadings_single names name _ _ rule unit weight

omit [PyLibrary] in
theorem weightedReadings_consistency (names : List String) (series : List (List Datum)) :
    weightedReadings names ((growthConsistency series).elim [] fun (score, sourceData) =>
        metricsOf (derivedFromMany score "PERCENT" sourceData "derived:growth-consistency")
          fun d => [metricResult "MULTI_YEAR_GROWTH_CONSISTENCY" d score
            "POSITIVE_ANNUAL_CHANGE_SHARE_V1" "PERCENT" 10]) =
      if names.contains "MULTI_YEAR_GROWTH_CONSISTENCY" then
        ((growthConsistency series).map fun c => shareReading c.1).toList else [] := by
  cases hconsistency : growthConsistency series with
  | none => exact (ite_self _).symm
  | some c =>
      exact weightedReadings_many names _ _ _ _ _ (growthConsistency_eq_some hconsistency).2.2 _ _

theorem growthMetrics_readings (names : List String) : weightedReadings names (growthMetrics v) =
      (if names.contains "REVENUE_CAGR" then ((seriesCagr
        (factSeries v revenueMetrics (some "ANNUAL"))).map changeReading).toList else []) ++
      (if names.contains "EARNINGS_CAGR" then
        ((seriesCagr (earningsSeries v "ANNUAL")).map changeReading).toList else []) ++
      (if names.contains "REVENUE_YOY" then ((comparableYoy
        (quarterlySeries v revenueMetrics)).map fun c => changeReading c.1).toList else []) ++
      (if names.contains "EARNINGS_YOY" then ((comparableYoy
        (earningsSeries v "QUARTERLY")).map fun c => changeReading c.1).toList else []) ++
      (if names.contains "RECENT_REVENUE_QOQ" then ((sequentialChange
        (quarterlySeries v revenueMetrics)).map fun c => changeReading c.1).toList else []) ++
      (if names.contains "MULTI_YEAR_GROWTH_CONSISTENCY" then ((growthConsistency
        [factSeries v revenueMetrics (some "ANNUAL"), earningsSeries v "ANNUAL"]).map
          fun c => shareReading c.1).toList else []) := by
  unfold growthMetrics quarterlySeries
  simp only [weightedReadings_append, weightedReadings_cagr, weightedReadings_change,
    weightedReadings_consistency]

omit [PyLibrary] in
theorem weightedReadings_trend (names : List String) (margins : List ℚ) {inputs : List Datum}
    (hne : margins ≠ [] → inputs ≠ []) :
    weightedReadings names (match margins.getLast?, margins.dropLast.getLast? with
      | some latest, some prior =>
          metricsOf (derivedFromMany (latest - prior) "PERCENTAGE_POINTS" inputs
              "derived:quarterly-margin-trend") fun d =>
            [metricResult "OPERATING_MARGIN_TREND" d
              (piecewise (latest - prior) [(-8, 8), (-3, 30), (0, 55), (2, 75), (5, 92)])
              "QUARTERLY_MARGIN_TREND_V1" "PERCENTAGE_POINTS" 15]
      | _, _ => []) =
    if names.contains "OPERATING_MARGIN_TREND" then
      ((marginTrend margins).map trendReading).toList else [] := by
  unfold marginTrend
  cases hlast : margins.getLast? with
  | none => exact (ite_self _).symm
  | some latest =>
      cases margins.dropLast.getLast? with
      | none => exact (ite_self _).symm
      | some prior =>
          have hinputs : inputs ≠ [] := hne fun hnil => by
            rw [hnil] at hlast
            cases hlast
          exact weightedReadings_many names _ _ _ _ _ hinputs _ _

omit [PyLibrary] in
theorem lastN_ne_nil {α : Type} (n : Nat) {l : List α} (h : l ≠ []) : lastN (n + 1) l ≠ [] := by
  obtain ⟨earlier, last, rfl⟩ := eq_nil_or_concat' l |>.resolve_left h
  rw [lastN_snoc]
  exact append_ne_nil_of_right_ne_nil _ (cons_ne_nil _ _)

omit [PyLibrary] in
theorem weightedReadings_share (names : List String) (earnings : List Datum) :
    weightedReadings names (if 3 ≤ earnings.length then
        let consistency := positiveShare (lastN 4 earnings)
        metricsOf (derivedFromMany consistency "PERCENT" (lastN 4 earnings)
            "derived:quarterly-consistency") fun d =>
          [metricResult "EARNINGS_CONSISTENCY" d consistency "POSITIVE_QUARTER_SHARE_V1"
            "PERCENT" 10]
      else []) =
    if names.contains "EARNINGS_CONSISTENCY" ∧ 3 ≤ earnings.length then
      [shareReading (positiveShare (lastN 4 earnings))] else [] := by
  by_cases hlong : 3 ≤ earnings.length
  · have hne : earnings ≠ [] := by
      rintro rfl
      exact absurd hlong (by decide)
    rw [if_pos hlong]
    dsimp only
    rw [weightedReadings_many names _ _ _ _ _ (lastN_ne_nil 3 hne)]
    simp only [hlong, and_true]
    rfl
  · rw [if_neg hlong, if_neg fun h => hlong h.2]
    rfl

theorem quarterlyMetrics_readings (names : List String) :
    weightedReadings names (quarterlyMetrics v) =
      (if names.contains "REVENUE_YOY" then ((comparableYoy
        (quarterlySeries v revenueMetrics)).map fun c => changeReading c.1).toList else []) ++
      (if names.contains "PAT_YOY" then ((comparableYoy
        (quarterlySeries v profitMetrics)).map fun c => changeReading c.1).toList else []) ++
      (if names.contains "EPS_YOY" then ((comparableYoy
        (quarterlySeries v ["eps"])).map fun c => changeReading c.1).toList else []) ++
      (if names.contains "REVENUE_QOQ" then ((sequentialChange
        (quarterlySeries v revenueMetrics)).map fun c => changeReading c.1).toList else []) ++
      (if names.contains "PAT_QOQ" then ((sequentialChange
        (quarterlySeries v profitMetrics)).map fun c => changeReading c.1).toList else []) ++
      (if names.contains "OPERATING_MARGIN_TREND" then
        ((marginTrend ((operatingMargins v).map Prod.snd)).map trendReading).toList else []) ++
      (if names.contains "EARNINGS_CONSISTENCY" ∧ 3 ≤ (quarterlySeries v profitMetrics).length then
        [shareReading (positiveShare (lastN 4 (quarterlySeries v profitMetrics)))] else []) := by
  have hinputs : alignedRatios (quarterlySeries v ["operating_income", "operating_profit"])
      (quarterlySeries v revenueMetrics) ≠ [] →
      lastN 2 (quarterlySeries v ["operating_income", "operating_profit"]) ++
        lastN 2 (quarterlySeries v revenueMetrics) ≠ [] := by
    intro hmargins
    refine append_ne_nil_of_left_ne_nil (lastN_ne_nil 1 fun hnil => hmargins ?_) _
    rw [hnil]
    rfl
  have htrend := weightedReadings_trend names _ hinputs
  have hmargins : (operatingMargins v).map Prod.snd =
      alignedRatios (quarterlySeries v ["operating_income", "operating_profit"])
        (quarterlySeries v revenueMetrics) := (alignedRatios_eq _ _).symm
  rw [hmargins, ← htrend, ← weightedReadings_share]
  unfold quarterlyMetrics quarterlySeries
  iterate 6 rewrite [weightedReadings_append]
  iterate 5 rewrite [weightedReadings_change]
  rfl

/-- The year-on-year metrics show the changes of their series. -/
theorem yoy_shown : readings yoyNames (growthResults v) =
    (yoySeries v).filterMap fun series => (comparableYoy series).map fun c => changeReading c.1 := by
  unfold growthResults yoySeries ofArea
  rw [readings_append, growth_readings, quarterly_readings, filterMap_append,
    growthMetrics_readings, quarterlyMetrics_readings]
  by_cases h : Scored v .growth <;> by_cases h' : Scored v .quarterlyEarningsTrend <;>
    simp [h, h', yoyNames, filterMap_eq_flatMap_toList]

/-- So do the quarter-on-quarter metrics. -/
theorem qoq_shown : readings qoqNames (growthResults v) = (qoqSeries v).filterMap fun series =>
      (sequentialChange series).map fun c => changeReading c.1 := by
  unfold growthResults qoqSeries ofArea
  rw [readings_append, growth_readings, quarterly_readings, filterMap_append,
    growthMetrics_readings, quarterlyMetrics_readings]
  by_cases h : Scored v .growth <;> by_cases h' : Scored v .quarterlyEarningsTrend <;>
    simp [h, h', qoqNames, filterMap_eq_flatMap_toList]

/-- The growth rates are those of their series. -/
theorem cagr_shown : readings cagrNames (growthResults v) =
    (cagrSeries v).filterMap fun series => (seriesCagr series).map changeReading := by
  unfold growthResults cagrSeries ofArea
  rw [readings_append, growth_readings, quarterly_readings, growthMetrics_readings,
    quarterlyMetrics_readings]
  by_cases h : Scored v .growth <;> by_cases h' : Scored v .quarterlyEarningsTrend <;>
    simp [h, h', cagrNames, filterMap_eq_flatMap_toList]

/-- The consistency scores are shares of the series. -/
theorem consistency_shown : readings consistencyNames (growthResults v) =
    (ofArea v .growth [[factSeries v revenueMetrics (some "ANNUAL"), earningsSeries v "ANNUAL"]]
      ).filterMap (fun series => (growthConsistency series).map fun c => shareReading c.1) ++
    (ofArea v .quarterlyEarningsTrend [quarterlySeries v profitMetrics]).filterMap fun series =>
      if 3 ≤ series.length then some (shareReading (positiveShare (lastN 4 series))) else none := by
  unfold growthResults ofArea
  rw [readings_append, growth_readings, quarterly_readings, growthMetrics_readings,
    quarterlyMetrics_readings]
  by_cases h : Scored v .growth <;> by_cases h' : Scored v .quarterlyEarningsTrend <;>
    by_cases hlong : 3 ≤ (quarterlySeries v profitMetrics).length <;>
    simp [h, h', hlong, consistencyNames, filterMap_eq_flatMap_toList]

/-- The margin trend is the difference of the last two margins. -/
theorem trend_shown : readings trendNames (growthResults v) =
    (ofArea v .quarterlyEarningsTrend [operatingMargins v]).filterMap fun margins =>
      (marginTrend (margins.map Prod.snd)).map trendReading := by
  unfold growthResults ofArea
  rw [readings_append, growth_readings, quarterly_readings, growthMetrics_readings,
    quarterlyMetrics_readings]
  by_cases h : Scored v .growth <;> by_cases h' : Scored v .quarterlyEarningsTrend <;>
    simp [h, h', trendNames, filterMap_eq_flatMap_toList]

/-! ### The promise and its condition -/

/-- Every metric is the reading of a series of the input. -/
structure Shown : Prop where
  yoy : readings yoyNames (growthResults v) = (yoySeries v).filterMap fun series =>
    (comparableYoy series).map fun c => changeReading c.1
  qoq : readings qoqNames (growthResults v) = (qoqSeries v).filterMap fun series =>
    (sequentialChange series).map fun c => changeReading c.1
  cagr : readings cagrNames (growthResults v) = (cagrSeries v).filterMap fun series =>
    (seriesCagr series).map changeReading
  consistency : readings consistencyNames (growthResults v) =
    (ofArea v .growth [[factSeries v revenueMetrics (some "ANNUAL"), earningsSeries v "ANNUAL"]]
      ).filterMap (fun series => (growthConsistency series).map fun c => shareReading c.1) ++
    (ofArea v .quarterlyEarningsTrend [quarterlySeries v profitMetrics]).filterMap fun series =>
      if 3 ≤ series.length then some (shareReading (positiveShare (lastN 4 series))) else none
  trend : readings trendNames (growthResults v) =
    (ofArea v .quarterlyEarningsTrend [operatingMargins v]).filterMap fun margins =>
      (marginTrend (margins.map Prod.snd)).map trendReading

/-- What a year-on-year change compares: the newest of its series with one of the same basis, unit,
period type and calendar quarter of the year before. -/
def YearOnYear (series : List Datum) (change : Change) : Prop :=
  series.getLast? = some change.2.1 ∧
    (∀ d ∈ series, d.asOf.getD 0 ≤ change.2.1.asOf.getD 0) ∧ change.2.2 ∈ series ∧
    SameQuarterLastYear change.2.1 change.2.2 ∧ OneSeries change.2.1 change.2.2

/-- Another scale: which observations make a series stays, and no change or rate moves. -/
structure ScaleFree : Prop where
  series : ∀ (data : List Datum) (f : Datum → ℚ), seriesOf (data.map fun d => d.worth (f d)) =
    (seriesOf data).map fun d => d.worth (f d)
  yoy : ∀ (series : List Datum) (k : ℚ), 0 < k →
    (comparableYoy (scaledSeries k series)).map Prod.fst = (comparableYoy series).map Prod.fst
  qoq : ∀ (series : List Datum) (k : ℚ), 0 < k →
    (sequentialChange (scaledSeries k series)).map Prod.fst =
      (sequentialChange series).map Prod.fst
  cagr : ∀ (series : List Datum) (k : ℚ), 0 < k →
    seriesCagr (scaledSeries k series) = seriesCagr series

/-- A larger newest amount lowers neither a change, a rate or a share, nor its score. -/
structure Rewarding : Prop where
  yoy : ∀ (earlier : List Datum) (newest : Datum) (x : ℚ), newest.value ≤ x →
    ∀ change ∈ comparableYoy (earlier ++ [newest]),
      ∀ change' ∈ comparableYoy (earlier ++ [newest.worth x]), change.1 ≤ change'.1
  qoq : ∀ (earlier : List Datum) (newest : Datum) (x : ℚ), newest.value ≤ x →
    ∀ change ∈ sequentialChange (earlier ++ [newest]),
      ∀ change' ∈ sequentialChange (earlier ++ [newest.worth x]), change.1 ≤ change'.1
  cagr : PowRises → ∀ (earlier : List Datum) (newest : Datum) (x : ℚ), newest.value ≤ x →
    ∀ cagr ∈ seriesCagr (earlier ++ [newest]),
      ∀ cagr' ∈ seriesCagr (earlier ++ [newest.worth x]), cagr ≤ cagr'
  consistency : ∀ (before after : List (List Datum)) (earlier : List Datum) (newest : Datum)
    (x : ℚ), newest.value ≤ x →
    ∀ c ∈ growthConsistency (before ++ (earlier ++ [newest]) :: after),
      ∀ c' ∈ growthConsistency (before ++ (earlier ++ [newest.worth x]) :: after), c.1 ≤ c'.1
  positive : ∀ (earlier : List Datum) (newest : Datum) (x : ℚ), newest.value ≤ x →
    positiveShare (lastN 4 (earlier ++ [newest])) ≤
      positiveShare (lastN 4 (earlier ++ [newest.worth x]))
  score : ∀ c c' : ℚ, c ≤ c' → (changeReading c).2 ≤ (changeReading c').2 ∧
    (shareReading c).2 ≤ (shareReading c').2

/-- What the growth metrics promise. -/
structure LikeWithLike : Prop where
  shown : Shown v
  yoy : ∀ series ∈ yoySeries v, ∀ change ∈ comparableYoy series, YearOnYear series change
  qoq : ∀ series ∈ qoqSeries v, ∀ change ∈ sequentialChange series,
    QuarterApart change.2.1 change.2.2
  trend : ∀ margins ∈ ofArea v .quarterlyEarningsTrend [operatingMargins v],
    ∀ latest ∈ margins.getLast?, ∀ prior ∈ margins.dropLast.getLast?, QuarterApart latest.1 prior.1
  signedYoy : ∀ series ∈ yoySeries v, ∀ change ∈ comparableYoy series, Signed change
  signedQoq : ∀ series ∈ qoqSeries v, ∀ change ∈ sequentialChange series, Signed change
  divisible : Nonzero (growthDenominators v ++ quarterlyDenominators v)
  root : ∀ series ∈ cagrSeries v, ∀ cagr ∈ seriesCagr series, ∃ first ∈ series.head?,
    ∃ last ∈ series.getLast?, 0 < last.value / first.value
  scaleFree : ScaleFree
  rewarding : Rewarding

/-- The condition on the input: no amount between an earlier loss and its mirror image where the two
are compared, and no gap just before the newest observation. -/
structure Regular : Prop where
  yoy : ∀ series ∈ yoySeries v, ∀ newest ∈ series.getLast?,
    ∀ prior ∈ yearBefore series.dropLast newest, prior.value ≠ 0 → Readable newest prior
  qoq : ∀ series ∈ qoqSeries v, ∀ newest ∈ series.getLast?,
    ∀ previous ∈ series.dropLast.getLast?, previous.value ≠ 0 →
      Readable newest previous ∧ QuarterApart newest previous
  trend : ∀ series ∈ ofArea v .quarterlyEarningsTrend
      [withMargin (quarterlySeries v ["operating_income", "operating_profit"])
        (quarterlySeries v revenueMetrics)],
    ∀ latest ∈ series.getLast?, ∀ prior ∈ series.dropLast.getLast?, QuarterApart latest prior

theorem sorted_quarterly (metrics : List String) :
    (quarterlySeries v metrics).Pairwise fun a b => a.asOf.getD 0 ≤ b.asOf.getD 0 := by
  unfold quarterlySeries factSeries seriesOf
  cases firstMax groupRank (groupOn Datum.groupKey (keepBest Datum.periodKey Datum.authority
      ((selectedFacts v metrics (some "QUARTERLY")).filterMap factDatum))) with
  | none => exact .nil
  | some rows => exact sortOn_pairwise _ rows

omit [PyLibrary] in
theorem mem_ofArea {α : Type} {area : RuleEngineArea} {series : List α} {a : α}
    (h : a ∈ ofArea v area series) : a ∈ series := by
  unfold ofArea at h
  by_cases hscored : Scored v area
  · rwa [if_pos hscored] at h
  · rw [if_neg hscored] at h
    cases h

variable {series : List Datum}

theorem yoySeries_sorted (h : series ∈ yoySeries v) :
    series.Pairwise fun a b => a.asOf.getD 0 ≤ b.asOf.getD 0 := by
  have hearnings : (earningsSeries v "QUARTERLY").Pairwise
      fun a b => a.asOf.getD 0 ≤ b.asOf.getD 0 := by
    unfold earningsSeries
    split
    · exact sorted_quarterly v ["eps"]
    · exact sorted_quarterly v profitMetrics
  rcases mem_append.mp h with h | h
  · rcases mem_pair.mp (mem_ofArea v h) with rfl | rfl
    · exact sorted_quarterly v revenueMetrics
    · exact hearnings
  · have hmem := mem_ofArea v h
    simp only [mem_cons, not_mem_nil, or_false] at hmem
    rcases hmem with rfl | rfl | rfl
    · exact sorted_quarterly v revenueMetrics
    · exact sorted_quarterly v profitMetrics
    · exact sorted_quarterly v ["eps"]

variable {change : Change}

omit [PyLibrary] in
/-- A year-on-year change compares the newest with the observation of the year before. -/
theorem comparableYoy_eq_some (h : comparableYoy series = some change) :
    series.getLast? = some change.2.1 ∧ yearBefore series.dropLast change.2.1 = some change.2.2 ∧
      changeOf change.2.1 change.2.2 = some change := by
  rcases eq_nil_or_concat' series with rfl | ⟨earlier, latest, rfl⟩
  · cases h
  · rw [comparableYoy_snoc] at h
    obtain ⟨prior, hprior, hchange⟩ := Option.bind_eq_some_iff.mp h
    obtain ⟨-, rfl⟩ := changeOf_eq_some hchange
    exact ⟨getLast?_concat, by rwa [dropLast_concat], hchange⟩

omit [PyLibrary] in
theorem sequentialChange_eq_some (h : sequentialChange series = some change) :
    series.getLast? = some change.2.1 ∧ series.dropLast.getLast? = some change.2.2 ∧
      changeOf change.2.1 change.2.2 = some change := by
  rcases eq_nil_or_concat' series with rfl | ⟨earlier, latest, rfl⟩
  · cases h
  · rw [sequentialChange_snoc] at h
    obtain ⟨prior, hprior, hchange⟩ := Option.bind_eq_some_iff.mp h
    obtain ⟨-, rfl⟩ := changeOf_eq_some hchange
    exact ⟨getLast?_concat, by rwa [dropLast_concat], hchange⟩

theorem yoy_comparable (hseries : series ∈ yoySeries v)
    (h : comparableYoy series = some change) : YearOnYear series change := by
  obtain ⟨hlast, hprior, -⟩ := comparableYoy_eq_some h
  obtain ⟨hmem, hquarter, hone⟩ := yearBefore_spec hprior
  refine ⟨hlast, fun d hd => ?_, mem_of_mem_dropLast hmem, hquarter, hone⟩
  obtain ⟨earlier, heq⟩ := getLast?_eq_some_iff.mp hlast
  have hsorted := yoySeries_sorted v hseries
  rw [heq, pairwise_append] at hsorted
  rw [heq] at hd
  rcases mem_append.mp hd with hd | hd
  · exact hsorted.2.2 d hd _ (mem_singleton_self _)
  · rw [mem_singleton.mp hd]

omit [PyLibrary] in
theorem alignedPairs_fst (numerators denominators : List Datum) :
    (alignedPairs numerators denominators).map Prod.fst = withMargin numerators denominators := by
  unfold alignedPairs withMargin
  induction numerators with
  | nil => rfl
  | cons numerator rest ih =>
      rw [filterMap_cons, filter_cons, ← ih]
      cases denominators.reverse.find? fun d => d.value ≠ 0 ∧ d.asOf.isSome ∧
          (d.asOf.map (· / day)) = numerator.asOf.map (· / day) with
      | none => rfl
      | some denominator =>
          rw [Option.bind_some, Option.any_some]
          by_cases hcompatible : compatibleFinancialData numerator denominator = true
          · rw [if_pos hcompatible, if_pos hcompatible]
            rfl
          · rw [if_neg hcompatible, if_neg hcompatible]
            rfl

/-- The trend is about the last two numerators that have a margin. -/
theorem trend_iff : (∀ margins ∈ ofArea v .quarterlyEarningsTrend [operatingMargins v],
      ∀ latest ∈ margins.getLast?, ∀ prior ∈ margins.dropLast.getLast?,
        QuarterApart latest.1 prior.1) ↔
    ∀ series ∈ ofArea v .quarterlyEarningsTrend
        [withMargin (quarterlySeries v ["operating_income", "operating_profit"])
          (quarterlySeries v revenueMetrics)],
      ∀ latest ∈ series.getLast?, ∀ prior ∈ series.dropLast.getLast?, QuarterApart latest prior := by
  have hfst : withMargin (quarterlySeries v ["operating_income", "operating_profit"])
      (quarterlySeries v revenueMetrics) = (operatingMargins v).map Prod.fst :=
    (alignedPairs_fst _ _).symm
  unfold ofArea
  by_cases hscored : Scored v .quarterlyEarningsTrend
  · rw [if_pos hscored, if_pos hscored, forall_mem_singleton, forall_mem_singleton, hfst,
      ← map_dropLast, getLast?_map, getLast?_map]
    cases (operatingMargins v).getLast? with
    | none => simp
    | some latest =>
        cases (operatingMargins v).dropLast.getLast? with
        | none => simp
        | some prior => simp
  · rw [if_neg hscored, if_neg hscored]
    exact iff_of_true (fun _ h => absurd h not_mem_nil) fun _ h => absurd h not_mem_nil

theorem scaleFree : ScaleFree where
  series := seriesOf_worth
  yoy series _ hk := comparableYoy_scaled hk series
  qoq series _ hk := sequentialChange_scaled hk series
  cagr series _ hk := seriesCagr_scaled hk series

theorem rewarding : Rewarding where
  yoy _ _ _ hx _ h _ h' := comparableYoy_raised hx h h'
  qoq _ _ _ hx _ h _ h' := sequentialChange_raised hx h h'
  cagr hpow _ _ _ hx _ h _ h' := seriesCagr_raised hpow hx h h'
  consistency before after _ _ _ hx _ h _ h' := growthConsistency_raised before after hx h h'
  positive earlier _ _ hx := positiveShare_raised 3 earlier hx
  score _ _ h := ⟨PyFloat.roundTo_mono 2 (growthScore_mono h), PyFloat.roundTo_mono 2 h⟩

theorem divisible : Nonzero (growthDenominators v ++ quarterlyDenominators v) := by
  refine .append ?_ ?_
  · exact .append (.append (.append (.append cagrDenominators_ne cagrDenominators_ne)
      changeDenominators_ne) changeDenominators_ne) consistencyDenominators_ne
  · exact .append (.append (.append (.append changeDenominators_ne changeDenominators_ne)
      changeDenominators_ne) nonzeroValues_ne) (shareLength_ne (by omega))

theorem root_pos {cagr : ℚ} (h : seriesCagr series = some cagr) :
    ∃ first ∈ series.head?, ∃ last ∈ series.getLast?, 0 < last.value / first.value := by
  obtain ⟨-, first, hfirst, last, hlast, -, -, -, -, hpos, hlastPos, -⟩ := seriesCagr_eq_some.mp h
  exact ⟨first, hfirst, last, hlast, div_pos hlastPos hpos⟩

end

/-! ### A loss that narrows -/

section

/-- The whole number a text of digits with a sign denotes. -/
def wholeNumber (text : String) : Option ℚ :=
  let digits := fun cs : List Char =>
    cs.foldl (fun (n : ℚ) c => n * 10 + ((c.toNat - '0'.toNat : Nat) : ℚ)) 0
  match text.toList with
  | [] => none
  | '-' :: cs => if cs ≠ [] ∧ cs.all Char.isDigit then some (-digits cs) else none
  | c :: cs => if (c :: cs).all Char.isDigit then some (digits (c :: cs)) else none

@[reducible] def wholeLibrary : PyLibrary := { asciiLibrary with decimal := wholeNumber }

attribute [local instance] wholeLibrary

/-- A quarterly profit in whole crores. -/
def quarterlyProfit (asOf : Instant) (amount : String) : FinancialFact where
  metric := "pat"
  periodEnd := none
  periodType := "QUARTERLY"
  reportingBasis := some "CONSOLIDATED"
  value := some ⟨amount, true⟩
  unit := some "INR"
  asOfDate := some asOf
  sourceUrl := "https://nseindia.com/a"
  sourceTier := .officialNse
  sourceProvider := "NSE"
  sourceIdentity := "i1"
  sourceMode := .real

/-- A loss of 100 at the end of June 2024 and one of 50 a year later. -/
def narrowedLoss : StockRuleEngineInput where
  profile := ⟨"1", "IN", "NSE", "XNSE", "ABC"⟩
  readiness := ⟨[], 0, 0⟩
  financialFacts := [quarterlyProfit 1719705600000000 "-100",
    quarterlyProfit 1751241600000000 "-50"]
  structuredSnapshots := []
  marketPrices := []
  events := []
  shareholding := []
  canonicalMetadata := ⟨none, none, none, none, none⟩
  evaluatedAt := 1751500800000000
  newsFeatures := []
  newsSearchRun := none

end

end InvestmentPlatform.Rules
