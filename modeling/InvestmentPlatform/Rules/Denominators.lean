/-
What `StockRuleEngineV1.evaluate` divides by.

Division of rationals is total, so the engine's model never fails on a zero denominator where
the source raises.  Each list here has the denominators one function of the source divides by,
under the guards the source puts before the division.  The total weight of an area's metrics,
which `_finish` divides by, is read off its result; the means of the confidence guard
themselves.
-/
import InvestmentPlatform.Rules.Engine

namespace InvestmentPlatform.Rules

variable [PyLibrary]

/-! ### Breakpoints -/

/-- The widths `_piecewise` divides by. -/
def segmentWidths (points : List (ℚ × ℚ)) : List ℚ :=
  (points.zip points.tail).map fun segment => segment.2.1 - segment.1.1

omit [PyLibrary] in
/-- Every table the evaluators score with. -/
def scoreTables : List (List (ℚ × ℚ)) :=
  [ -- valuation
    [(8, 92), (15, 78), (25, 58), (40, 32), (60, 12)],
    [(1.5, 10), (2.5, 30), (4, 55), (6.5, 78), (10, 92)],
    [(8, 94), (15, 80), (25, 58), (40, 30), (60, 10)],
    [(0.8, 94), (1.5, 82), (3, 60), (5, 38), (8, 15)],
    [(1, 88), (2, 76), (4, 56), (8, 30), (12, 12)],
    [(5, 94), (8, 80), (12, 62), (20, 35), (30, 12)],
    [(0.5, 90), (1, 82), (1.5, 65), (2.5, 38), (4, 15)],
    [(-5, 5), (0, 25), (2, 48), (5, 72), (8, 90)],
    -- quality
    [(0, 15), (5, 38), (10, 58), (18, 78), (28, 94)],
    [(2, 92), (5, 78), (10, 55), (20, 25), (35, 8)],
    [(0, 8), (0.5, 40), (0.8, 65), (1, 82), (1.3, 94)],
    [(-0.5, 5), (0, 25), (0.5, 55), (0.8, 75), (1.1, 90)],
    -- balance sheet
    [(9, 20), (12, 50), (15, 72), (18, 90)],
    [(1, 92), (2, 78), (4, 52), (7, 25), (12, 8)],
    [(0, 95), (30, 85), (60, 68), (100, 45), (200, 18)],
    [(-20, 98), (0, 90), (30, 75), (80, 48), (150, 18)],
    [(0.5, 5), (1, 18), (2, 45), (4, 70), (8, 92)],
    [(0.5, 8), (0.9, 35), (1.2, 65), (1.8, 88), (3, 82)],
    [(-20, 95), (0, 78), (10, 58), (30, 30), (60, 8)],
    -- quarterly trend
    [(-8, 8), (-3, 30), (0, 55), (2, 75), (5, 92)],
    -- price and ownership
    [(-50, 5), (-30, 25), (-15, 52), (-5, 75), (0, 90)],
    [(0, 25), (20, 45), (40, 65), (55, 78), (70, 82)],
    [(0, 95), (5, 75), (15, 48), (30, 20), (50, 5)],
    [(0, 95), (5, 75), (15, 45), (30, 18), (50, 5)],
    [(-5, 15), (-2, 35), (0, 55), (2, 75), (5, 92)],
    -- growth and trend
    [(-30, 5), (-10, 25), (0, 45), (10, 65), (20, 80), (40, 95)],
    [(-40, 8), (-20, 25), (-5, 45), (0, 55), (10, 72), (30, 88), (60, 78)]]

/-! ### Readings -/

/-- The value of a datum that is there and positive. -/
def positiveValue (datum : Option Datum) : List ℚ :=
  ((datum.filter fun d => 0 < d.value).map Datum.value).toList

/-- The values a series can be divided by, where zero is left out. -/
def nonzeroValues (series : List Datum) : List ℚ :=
  (series.filter fun d => d.value ≠ 0).map Datum.value

/-- The length of the last `n`, where there are three. -/
def shareLength (n : Nat) (series : List Datum) : List ℚ :=
  if 3 ≤ series.length then [((lastN n series).length : ℚ)] else []

/-- `_comparable_yoy`, `_sequential_change`. -/
def changeDenominators (series : List Datum) : List ℚ := (nonzeroValues series).map fun x => |x|

/-- `_series_cagr`: the first value and the years. -/
def cagrDenominators (series : List Datum) : List ℚ :=
  if series.length < 3 then []
  else match series.head?, series.getLast? with
    | some first, some last =>
        match first.asOf, last.asOf with
        | some start, some stop =>
            let years : ℚ := ((stop - start) / day : Int) / 365.25
            if first.value ≤ 0 ∨ last.value ≤ 0 ∨ years ≤ 1 then [] else [first.value, years]
        | _, _ => []
    | _, _ => []

/-- `_growth_consistency`. -/
def consistencyDenominators (series : List (List Datum)) : List ℚ :=
  match series.flatMap consecutivePairs with
  | [] => []
  | pairs => [(pairs.length : ℚ)]

/-- The per-share bases of `materialize_valuation`. -/
def basisDenominators (v : StockRuleEngineInput) : List ℚ :=
  v.marketPrices.flatMap fun price => ["trailingEps", "bookValue"].flatMap fun name =>
    (valuationBases v.structuredSnapshots price v.evaluatedAt name).map fun basis => basis.2.2

/-! ### Areas -/

def valuationDenominators (v : StockRuleEngineInput) : List ℚ :=
  let structured := valuationStructured v
  basisDenominators v ++
    positiveValue (pick structured ["trailingpe", "pe", "pricetoearnings"]) ++
    positiveValue (pick structured ["marketcap"])

def qualityDenominators (v : StockRuleEngineInput) : List ℚ :=
  let annualPat := factSeries v profitMetrics (some "ANNUAL")
  nonzeroValues (factSeries v revenueMetrics (some "ANNUAL")) ++ changeDenominators annualPat ++
    shareLength 5 annualPat

def growthDenominators (v : StockRuleEngineInput) : List ℚ :=
  let annualRevenue := factSeries v revenueMetrics (some "ANNUAL")
  let annualEarnings := earningsSeries v "ANNUAL"
  cagrDenominators annualRevenue ++ cagrDenominators annualEarnings ++
    changeDenominators (factSeries v revenueMetrics (some "QUARTERLY")) ++
    changeDenominators (earningsSeries v "QUARTERLY") ++
    consistencyDenominators [annualRevenue, annualEarnings]

def balanceSheetDenominators (v : StockRuleEngineInput) : List ℚ :=
  let annual := fun metrics => latestFact v metrics (some "ANNUAL")
  positiveValue (annual ["equity", "total_equity"]) ++
    positiveValue (annual ["finance_cost", "interest_expense"]) ++
    positiveValue (annual ["current_liabilities"]) ++
    positiveValue (factSeries v debtMetrics (some "ANNUAL")).dropLast.getLast?

def quarterlyDenominators (v : StockRuleEngineInput) : List ℚ :=
  let quarterly := fun metrics => factSeries v metrics (some "QUARTERLY")
  changeDenominators (quarterly revenueMetrics) ++ changeDenominators (quarterly profitMetrics) ++
    changeDenominators (quarterly ["eps"]) ++ nonzeroValues (quarterly revenueMetrics) ++
    shareLength 4 (quarterly profitMetrics)

def technicalDenominators (v : StockRuleEngineInput) : List ℚ :=
  let prices := usablePrices v.marketPrices
  if prices.length < 50 then []
  else
    let long := 150 ≤ prices.length
    let window := if long then lastN 150 prices else lastN 50 prices
    [median ((lastN 50 prices).map (·.price))] ++
      (if long then [median ((lastN 150 prices).map (·.price))] else []) ++
      ((window.map (·.price)).max?).toList ++ (window.head?.map (·.price)).toList

/-- The lifetime of a feature `impact_at` lets decay. -/
def decayDenominators (feature : EventImpactFeature) (now : Instant) : List ℚ :=
  if ¬ feature.Known now then []
  else match feature.validUntil with
    | none => []
    | some validUntil =>
        if validUntil ≤ now then []
        else [((validUntil - feature.publicationTime.getD feature.discoveredAt : Int) : ℚ)]

def newsDenominators (v : StockRuleEngineInput) : List ℚ :=
  let values := (latestKnownFeatures v.newsFeatures v.evaluatedAt).filterMap fun feature =>
    impactAt feature v.evaluatedAt
  v.newsFeatures.flatMap (fun feature => decayDenominators feature v.evaluatedAt) ++
    if values = [] then [] else [(values.length : ℚ)]

/-- The total weight of the areas that have a raw score and a weight. -/
def headlineDenominators (areas : List AreaScoreResult) (weight : RuleEngineArea → Nat) : List ℚ :=
  let total := ((areas.filter fun item => item.applicable ∧ item.rawScore.isSome ∧
    weight item.area ≠ 0).map fun item => weight item.area).sum
  if total = 0 then [] else [(total : ℚ)]

/-- What one evaluation divides by. -/
def denominators (v : StockRuleEngineInput) : List ℚ :=
  scoreTables.flatMap segmentWidths ++ valuationDenominators v ++ qualityDenominators v ++
    growthDenominators v ++ balanceSheetDenominators v ++ quarterlyDenominators v ++
    technicalDenominators v ++ newsDenominators v ++
    ((areaResults v).elim [] fun areas => [areaWeight, weightWithin qualityAreas,
      weightWithin opportunityAreas, resilienceWeight].flatMap (headlineDenominators areas))

end InvestmentPlatform.Rules
