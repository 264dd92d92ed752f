/-
The evaluators that read statements and ratios: valuation, business quality, growth, balance
sheet and quarterly trend.  Breakpoints, weights and names are the source's.
-/
import InvestmentPlatform.Rules.Events

namespace InvestmentPlatform.Rules

open Selection PyLibrary

variable [PyLibrary]

/-! ### Valuation -/

def valuationStructured (v : StockRuleEngineInput) : List (String × Datum) :=
  let materialized := (materializeValuation v.structuredSnapshots v.marketPrices
    v.evaluatedAt).map fun (name, price, ratio) =>
      (metricKey name,
        { value := ratio
          source := if name = "trailingPE" then "Persisted price / valid trailingEps"
            else "Persisted price / valid bookValue"
          sourceUrl := some price.sourceUrl
          asOf := some price.observedAt
          evidenceId := "derived:" ++ name
          unit := some "RATIO" })
  -- Later writes to the dict win.
  materialized ++ structuredData v

def valuationMetrics (v : StockRuleEngineInput) : List Weighted :=
  let structured := valuationStructured v
  let financial := isFinancial v
  let marketCap := pick structured ["marketcap"]
  let fcf := financialOrStructured v structured ["freecashflow"] ["free_cash_flow"]
    [some "ANNUAL", some "TTM"]
  positiveMetrics (pick structured ["trailingpe", "pe", "pricetoearnings"]) (fun pe =>
    let earningsYield := derivedDatum (100 / pe.value) "PERCENT" pe "derived:earnings-yield" []
    [metricResult "TRAILING_PE" pe
        (piecewise pe.value [(8, 92), (15, 78), (25, 58), (40, 32), (60, 12)])
        "TRAILING_PE_V1" "RATIO" 25,
      metricResult "EARNINGS_YIELD" earningsYield
        (piecewise earningsYield.value [(1.5, 10), (2.5, 30), (4, 55), (6.5, 78), (10, 92)])
        "EARNINGS_YIELD_V1" "PERCENT" 10]) ++
  positiveMetrics (pick structured ["forwardpe"]) (fun pe =>
    [metricResult "FORWARD_PE" pe
      (piecewise pe.value [(8, 94), (15, 80), (25, 58), (40, 30), (60, 10)])
      "FORWARD_PE_V1" "RATIO" 15]) ++
  positiveMetrics (pick structured ["pricetobook", "pb"]) (fun pb =>
    [if financial then
        metricResult "PRICE_TO_BOOK" pb
          (piecewise pb.value [(0.8, 94), (1.5, 82), (3, 60), (5, 38), (8, 15)])
          "PRICE_TO_BOOK_FINANCIAL_V1" "RATIO" 18
      else
        metricResult "PRICE_TO_BOOK" pb
          (piecewise pb.value [(1, 88), (2, 76), (4, 56), (8, 30), (12, 12)])
          "PRICE_TO_BOOK_GENERAL_V1" "RATIO" 8]) ++
  (if financial then [] else
    positiveMetrics (pick structured ["evtoebitda", "enterprisevaluetoebitda"]) fun ev =>
      [metricResult "EV_EBITDA" ev
        (piecewise ev.value [(5, 94), (8, 80), (12, 62), (20, 35), (30, 12)])
        "EV_EBITDA_NON_FINANCIAL_V1" "RATIO" 15]) ++
  positiveMetrics (pick structured ["pegratio", "peg"]) (fun peg =>
    [metricResult "PEG" peg
      (piecewise peg.value [(0.5, 90), (1, 82), (1.5, 65), (2.5, 38), (4, 15)])
      "PEG_V1" "RATIO" 10]) ++
  metricsOf fcf (fun fcf => positiveMetrics marketCap fun cap =>
    if nonEmpty fcf.unit ≠ none ∧ fcf.unit = cap.unit ∧
        fcf.periodType ∈ [none, some "ANNUAL", some "TTM"] then
      let yield := derivedDatum (fcf.value / cap.value * 100) "PERCENT" fcf "derived:fcf-yield"
        [cap]
      [metricResult "FCF_YIELD" yield
        (piecewise yield.value [(-5, 5), (0, 25), (2, 48), (5, 72), (8, 90)])
        "FCF_YIELD_V1" "PERCENT" 15]
    else [])

def valuation (v : StockRuleEngineInput) : AreaScoreResult :=
  let metrics := valuationMetrics v
  finish v .valuation metrics (missingWithout metrics "VALUATION_BASIS") true

/-! ### Business quality -/

def profitMetrics : List String := ["pat", "net_income", "net_profit"]

def revenueMetrics : List String := ["revenue", "total_revenue"]

/-- `_aligned_ratios`: each numerator over the last denominator of its date, in percent. -/
def alignedRatios (numerators denominators : List Datum) : List ℚ :=
  numerators.filterMap fun numerator =>
    (denominators.reverse.find? fun d => d.value ≠ 0 ∧ d.asOf.isSome ∧
        (d.asOf.map (· / day)) = numerator.asOf.map (· / day)).bind fun denominator =>
      if compatibleFinancialData numerator denominator then
        some (numerator.value / denominator.value * 100)
      else none

/-- The share of positive values, in percent. -/
def positiveShare (data : List Datum) : ℚ :=
  ((data.filter fun d => 0 < d.value).length : ℚ) / data.length * 100

/-- A ratio scaled to percent, as a metric. -/
def percentMetric (name : String) (datum : Option Datum) (rule : String) (weight : Nat)
    (points : List (ℚ × ℚ)) (evidenceId : String) : List Weighted :=
  metricsOf datum fun d =>
    let normalized := asPercent d.value
    [metricResult name (derivedDatum normalized "PERCENT" d evidenceId [])
      (piecewise normalized points) rule "PERCENT" weight]

def qualityMetrics (v : StockRuleEngineInput) : List Weighted :=
  let structured := structuredData v
  let points : List (ℚ × ℚ) := [(0, 15), (5, 38), (10, 58), (18, 78), (28, 94)]
  let roe := financialOrStructured v structured ["roe", "returnonequity"]
    ["roe", "return_on_equity"] [none]
  let roce := financialOrStructured v structured ["roce", "returnoncapitalemployed"]
    ["roce", "return_on_capital_employed"] [none]
  let operatingMargin := financialOrStructured v structured ["operatingmargin"]
    ["operating_margin"] [none]
  let netMargin := financialOrStructured v structured ["profitmargin", "netmargin"]
    ["profit_margin", "net_margin"] [none]
  let annualPat := factSeries v profitMetrics (some "ANNUAL")
  let annualRevenue := factSeries v revenueMetrics (some "ANNUAL")
  let margins := alignedRatios annualPat annualRevenue
  let ocf := latestFact v ["operating_cash_flow", "cash_flow_from_operating_activities"]
    (some "ANNUAL")
  let pat := annualPat.getLast?.or (latestFact v profitMetrics (some "ANNUAL"))
  let fcf := financialOrStructured v structured ["freecashflow"] ["free_cash_flow"]
    [some "ANNUAL"]
  -- A cash flow over the absolute profit of the same period.
  let overProfit := fun (flow : Option Datum) (name rule evidenceId : String) (weight : Nat)
      (points : List (ℚ × ℚ)) =>
    metricsOf flow fun flow => metricsOf pat fun pat =>
      if pat.value ≠ 0 ∧ compatibleFinancialData flow pat then
        let ratio := flow.value / |pat.value|
        [metricResult name (derivedDatum ratio "RATIO" flow evidenceId [pat])
          (piecewise ratio points) rule "RATIO" weight]
      else []
  percentMetric "ROE" roe "ROE_V1" 20 points "normalized:roe" ++
  percentMetric "ROCE" (if isFinancial v then none else roce) "ROCE_NON_FINANCIAL_V1" 20 points
    "normalized:roce" ++
  percentMetric "OPERATING_MARGIN" operatingMargin "OPERATING_MARGIN_V1" 12 points
    "normalized:operating_margin" ++
  percentMetric "NET_MARGIN" netMargin "NET_MARGIN_V1" 10 points "normalized:net_margin" ++
  (if 3 ≤ margins.length then
    let stability := pstdev (lastN 5 margins)
    metricsOf (derivedFromMany (100 - stability) "INDEX"
        (lastN 5 annualPat ++ lastN 5 annualRevenue) "derived:margin-stability") fun d =>
      [metricOf "MARGIN_STABILITY" (.number stability) d
        (piecewise stability [(2, 92), (5, 78), (10, 55), (20, 25), (35, 8)])
        "MARGIN_STABILITY_STDDEV_V1" "PERCENT_STDDEV" 12]
  else []) ++
  overProfit ocf "CASH_CONVERSION" "OPERATING_CASH_TO_PAT_V1" "derived:cash-conversion" 16
    [(0, 8), (0.5, 40), (0.8, 65), (1, 82), (1.3, 94)] ++
  overProfit fcf "FCF_QUALITY" "FCF_TO_PAT_V1" "derived:fcf-quality" 10
    [(-0.5, 5), (0, 25), (0.5, 55), (0.8, 75), (1.1, 90)] ++
  (if 3 ≤ annualPat.length then
    let consistency := positiveShare (lastN 5 annualPat)
    metricsOf (derivedFromMany consistency "PERCENT" (lastN 5 annualPat)
        "derived:profitability-consistency") fun d =>
      [metricResult "PROFITABILITY_CONSISTENCY" d consistency "POSITIVE_PAT_PERIOD_SHARE_V1"
        "PERCENT" 16]
  else [])

def quality (v : StockRuleEngineInput) : AreaScoreResult :=
  let metrics := qualityMetrics v
  finish v .fundamentalBusinessQuality metrics (missingWithout metrics "QUALITY_FACTS") true

/-! ### Changes within a series -/

/-- Year and month of an instant in the proleptic Gregorian calendar. -/
def civilMonth (t : Instant) : Int × Int :=
  let z := t / day + 719468
  let era := z / 146097
  let dayOfEra := z - era * 146097
  let yearOfEra :=
    (dayOfEra - dayOfEra / 1460 + dayOfEra / 36524 - dayOfEra / 146096) / 365
  let dayOfYear := dayOfEra - (365 * yearOfEra + yearOfEra / 4 - yearOfEra / 100)
  let shifted := (5 * dayOfYear + 2) / 153
  let month := if shifted < 10 then shifted + 3 else shifted - 9
  (yearOfEra + era * 400 + (if month ≤ 2 then 1 else 0), month)

/-- A change in percent, with the newer and the older datum. -/
abbrev Change := ℚ × Datum × Datum

def changeOf (newer older : Datum) : Option Change :=
  if older.value = 0 then none
  else some ((newer.value / |older.value| - 1) * 100, newer, older)

/-- The datum lies in the same calendar quarter of the year before. -/
def SameQuarterLastYear (latest item : Datum) : Prop :=
  ∃ a ∈ latest.asOf, ∃ b ∈ item.asOf, (civilMonth b).1 = (civilMonth a).1 - 1 ∧
    ((civilMonth b).2 - 1) / 3 = ((civilMonth a).2 - 1) / 3

instance (latest item : Datum) : Decidable (SameQuarterLastYear latest item) :=
  inferInstanceAs (Decidable (∃ a ∈ latest.asOf, ∃ b ∈ item.asOf, _ ∧ _))

def comparableYoy (series : List Datum) : Option Change :=
  if series.length < 2 then none
  else series.getLast?.bind fun latest =>
    let candidates := series.dropLast.filter fun item =>
      SameQuarterLastYear latest item ∧ item.reportingBasis = latest.reportingBasis ∧
        item.periodType = latest.periodType ∧ item.unit = latest.unit
    let distance := fun item : Datum =>
      |(latest.asOf.getD 0 - item.asOf.getD 0) / day - 365|
    -- `min` keeps the first of the closest.
    (firstMax (fun item => -distance item) candidates).bind fun prior => changeOf latest prior

def sequentialChange (series : List Datum) : Option Change :=
  series.getLast?.bind fun latest => series.dropLast.getLast?.bind fun prior =>
    changeOf latest prior

def seriesCagr (series : List Datum) : Option ℚ :=
  if series.length < 3 then none
  else match series.head?, series.getLast? with
    | some first, some last =>
        match first.asOf, last.asOf with
        | some start, some stop =>
            let years : ℚ := ((stop - start) / day : Int) / 365.25
            if first.value ≤ 0 ∨ last.value ≤ 0 ∨ years ≤ 1 then none
            else some ((pow (last.value / first.value) (1 / years) - 1) * 100)
        | _, _ => none
    | _, _ => none

/-- The pairs `_growth_consistency` compares, `zip(series[-5:-1], series[-4:])`. -/
def consecutivePairs (series : List Datum) : List (Datum × Datum) :=
  (lastN 5 series).dropLast.zip (lastN 4 series)

def growthConsistency (series : List (List Datum)) : Option (ℚ × List Datum) :=
  match series.flatMap consecutivePairs with
  | [] => none
  | pairs =>
      some (((pairs.filter fun pair => pair.1.value ≤ pair.2.value).length : ℚ) /
          pairs.length * 100,
        pairs.flatMap fun pair => [pair.1, pair.2])

/-- A change as a growth metric. -/
def changeMetrics (change : Option Change) (name evidenceId rule : String) (weight : Nat) :
    List Weighted :=
  change.elim [] fun (change, newer, older) =>
    [metricResult name (derivedDatum change "PERCENT" newer evidenceId [older])
      (growthScore change) rule "PERCENT" weight]

/-! ### Growth -/

/-- Profit, or earnings per share where there is none. -/
def earningsSeries (v : StockRuleEngineInput) (periodType : String) : List Datum :=
  match factSeries v profitMetrics (some periodType) with
  | [] => factSeries v ["eps"] (some periodType)
  | series => series

def cagrMetrics (series : List Datum) (name evidenceId rule : String) : List Weighted :=
  (seriesCagr series).elim [] fun cagr =>
    metricsOf (derivedFromMany cagr "PERCENT" series evidenceId) fun d =>
      [metricResult name d (growthScore cagr) rule "PERCENT" 27]

def growthMetrics (v : StockRuleEngineInput) : List Weighted :=
  let annualRevenue := factSeries v revenueMetrics (some "ANNUAL")
  let annualEarnings := earningsSeries v "ANNUAL"
  let quarterlyRevenue := factSeries v revenueMetrics (some "QUARTERLY")
  let quarterlyEarnings := earningsSeries v "QUARTERLY"
  cagrMetrics annualRevenue "REVENUE_CAGR" "derived:revenue_cagr" "REVENUE_CAGR_MULTI_YEAR_V1" ++
  cagrMetrics annualEarnings "EARNINGS_CAGR" "derived:earnings_cagr"
    "EARNINGS_CAGR_MULTI_YEAR_V1" ++
  changeMetrics (comparableYoy quarterlyRevenue) "REVENUE_YOY" "derived:revenue_yoy"
    "REVENUE_YOY_COMPARABLE_QUARTER_V1" 15 ++
  changeMetrics (comparableYoy quarterlyEarnings) "EARNINGS_YOY" "derived:earnings_yoy"
    "EARNINGS_YOY_COMPARABLE_QUARTER_V1" 15 ++
  changeMetrics (sequentialChange quarterlyRevenue) "RECENT_REVENUE_QOQ" "derived:revenue-qoq"
    "RECENT_QOQ_LIMITED_WEIGHT_V1" 6 ++
  (growthConsistency [annualRevenue, annualEarnings]).elim [] fun (score, sourceData) =>
    metricsOf (derivedFromMany score "PERCENT" sourceData "derived:growth-consistency") fun d =>
      [metricResult "MULTI_YEAR_GROWTH_CONSISTENCY" d score "POSITIVE_ANNUAL_CHANGE_SHARE_V1"
        "PERCENT" 10]

def growth (v : StockRuleEngineInput) : AreaScoreResult :=
  let metrics := growthMetrics v
  finish v .growth metrics (missingWithout metrics "MULTI_PERIOD_GROWTH_HISTORY") true

/-! ### Balance sheet -/

/-- `readiness.for_requirement(key)`, which raises where there is none. -/
def forRequirement (readiness : ResearchReadinessResult) (key : String) :
    Option ResearchRequirementReadiness :=
  readiness.requirements.find? fun item => item.requirementId = key

def debtMetrics : List String := ["debt_or_borrowings", "total_debt"]

def lenderMetrics (v : StockRuleEngineInput) : List Weighted :=
  let npaPoints : List (ℚ × ℚ) := [(1, 92), (2, 78), (4, 52), (7, 25), (12, 8)]
  percentMetric "CAPITAL_ADEQUACY"
    (latestFact v ["capital_adequacy", "capital_adequacy_ratio"] none)
    "FINANCIAL_CAPITAL_ADEQUACY_V1" 50 [(9, 20), (12, 50), (15, 72), (18, 90)]
    "normalized:capital-adequacy" ++
  percentMetric "GROSS_NPA" (latestFact v ["gross_npa", "gross_npa_ratio"] none)
    "GROSS_NPA_FINANCIAL_V1" 25 npaPoints "normalized:gross_npa" ++
  percentMetric "NET_NPA" (latestFact v ["net_npa", "net_npa_ratio"] none)
    "NET_NPA_FINANCIAL_V1" 25 npaPoints "normalized:net_npa"

/-- A ratio of two facts of one statement, where the denominator is positive. -/
def statementRatio (numerator denominator : Option Datum) (name rule evidenceId : String)
    (weight : Nat) (points : List (ℚ × ℚ)) : List Weighted :=
  metricsOf numerator fun n => positiveMetrics denominator fun d =>
    if compatibleFinancialData n d then
      let ratio := n.value / d.value
      [metricResult name (derivedDatum ratio "RATIO" n evidenceId [d]) (piecewise ratio points)
        rule "RATIO" weight]
    else []

def corporateMetrics (v : StockRuleEngineInput) : List Weighted :=
  let annual := fun metrics => latestFact v metrics (some "ANNUAL")
  let debt := annual debtMetrics
  let equity := annual ["equity", "total_equity"]
  let cash := annual ["cash_and_cash_equivalents", "cash_and_equivalents"]
  let debtSeries := factSeries v debtMetrics (some "ANNUAL")
  metricsOf (debtEquityDatum v (structuredData v)) (fun d =>
    [metricResult "DEBT_TO_EQUITY" d
      (piecewise d.value [(0, 95), (30, 85), (60, 68), (100, 45), (200, 18)])
      "INDUSTRIAL_DEBT_TO_EQUITY_V1" "PERCENT" 28]) ++
  metricsOf debt (fun debt => metricsOf cash fun cash => positiveMetrics equity fun equity =>
    if compatibleFinancialData debt equity ∧ compatibleFinancialData cash equity then
      let ratio := (debt.value - cash.value) / equity.value * 100
      [metricResult "NET_DEBT_TO_EQUITY"
        (derivedDatum ratio "PERCENT" debt "derived:net-debt-equity" [cash, equity])
        (piecewise ratio [(-20, 98), (0, 90), (30, 75), (80, 48), (150, 18)])
        "NET_DEBT_TO_EQUITY_V1" "PERCENT" 18]
    else []) ++
  statementRatio (annual ["ebitda"]) (annual ["finance_cost", "interest_expense"])
    "INTEREST_COVERAGE" "EBITDA_INTEREST_COVERAGE_V1" "derived:interest-coverage" 24
    [(0.5, 5), (1, 18), (2, 45), (4, 70), (8, 92)] ++
  statementRatio (annual ["current_assets"]) (annual ["current_liabilities"])
    "CURRENT_RATIO" "CURRENT_RATIO_NON_FINANCIAL_V1" "derived:current-ratio" 15
    [(0.5, 8), (0.9, 35), (1.2, 65), (1.8, 88), (3, 82)] ++
  metricsOf debtSeries.getLast? (fun latest => positiveMetrics debtSeries.dropLast.getLast?
    fun prior =>
      let trend := (latest.value / prior.value - 1) * 100
      [metricResult "DEBT_TREND"
        (derivedDatum trend "PERCENT" latest "derived:debt-trend" [prior])
        (piecewise trend [(-20, 95), (0, 78), (10, 58), (30, 30), (60, 8)])
        "ANNUAL_DEBT_TREND_V1" "PERCENT" 15])

/-- The inputs the balance-sheet area leaves out: readiness's, or the issuer's own. -/
def excludedBalanceSheetInputs (v : StockRuleEngineInput)
    (readiness : ResearchRequirementReadiness) : List String :=
  if readiness.applicabilityReason = some "BALANCE_SHEET_SUBTYPE_INPUTS" then
    readiness.notApplicableInputs
  else balanceSheetExcludedInputs
    ((nonEmpty v.canonicalMetadata.officialIndustry).or v.canonicalMetadata.industry) (sector v)

/-- Nothing where readiness has no `BALANCE_SHEET_FACTS`: the look-up raises. -/
def balanceSheet (v : StockRuleEngineInput) : Option AreaScoreResult :=
  (forRequirement v.readiness "BALANCE_SHEET_FACTS").map fun readiness =>
    if lenderBalanceSheetInput ∉ excludedBalanceSheetInputs v readiness then
      let metrics := lenderMetrics v
      finish v .balanceSheet metrics (missingWithout metrics lenderBalanceSheetInput) true
    else
      let metrics := corporateMetrics v
      finish v .balanceSheet metrics
        (missingWithout metrics "BALANCE_SHEET_LEVERAGE_OR_LIQUIDITY") true

/-! ### Quarterly trend -/

def quarterlyMetrics (v : StockRuleEngineInput) : List Weighted :=
  let quarterly := fun metrics => factSeries v metrics (some "QUARTERLY")
  let revenue := quarterly revenueMetrics
  let earnings := quarterly profitMetrics
  let operatingProfit := quarterly ["operating_income", "operating_profit"]
  let margins := alignedRatios operatingProfit revenue
  changeMetrics (comparableYoy revenue) "REVENUE_YOY" "derived:quarterly-revenue_yoy"
    "COMPARABLE_QUARTER_REVENUE_YOY_V1" 25 ++
  changeMetrics (comparableYoy earnings) "PAT_YOY" "derived:quarterly-pat_yoy"
    "COMPARABLE_QUARTER_PAT_YOY_V1" 25 ++
  changeMetrics (comparableYoy (quarterly ["eps"])) "EPS_YOY" "derived:quarterly-eps_yoy"
    "COMPARABLE_QUARTER_EPS_YOY_V1" 15 ++
  changeMetrics (sequentialChange revenue) "REVENUE_QOQ" "derived:quarterly-revenue_qoq"
    "SEQUENTIAL_REVENUE_QOQ_LIMITED_WEIGHT_V1" 5 ++
  changeMetrics (sequentialChange earnings) "PAT_QOQ" "derived:quarterly-pat_qoq"
    "SEQUENTIAL_PAT_QOQ_LIMITED_WEIGHT_V1" 5 ++
  (match margins.getLast?, margins.dropLast.getLast? with
    | some latest, some prior =>
        metricsOf (derivedFromMany (latest - prior) "PERCENTAGE_POINTS"
            (lastN 2 operatingProfit ++ lastN 2 revenue) "derived:quarterly-margin-trend") fun d =>
          [metricResult "OPERATING_MARGIN_TREND" d
            (piecewise (latest - prior) [(-8, 8), (-3, 30), (0, 55), (2, 75), (5, 92)])
            "QUARTERLY_MARGIN_TREND_V1" "PERCENTAGE_POINTS" 15]
    | _, _ => []) ++
  (if 3 ≤ earnings.length then
    let consistency := positiveShare (lastN 4 earnings)
    metricsOf (derivedFromMany consistency "PERCENT" (lastN 4 earnings)
        "derived:quarterly-consistency") fun d =>
      [metricResult "EARNINGS_CONSISTENCY" d consistency "POSITIVE_QUARTER_SHARE_V1" "PERCENT" 10]
  else [])

def quarterly (v : StockRuleEngineInput) : AreaScoreResult :=
  let metrics := quarterlyMetrics v
  finish v .quarterlyEarningsTrend metrics
    (missingWithout metrics "COMPARABLE_QUARTERLY_RESULTS") true

end InvestmentPlatform.Rules
