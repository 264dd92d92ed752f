/-
How the stock rule engine reads its input: the module-level helpers of
`app/stock_rule_engine.py` that turn durable records into data with a value, a date, a unit
and an authority, with `normalize_financial_amount`, `materialize_valuation` and the
classification helpers they call.

The area evaluators look at facts, structured snapshots and prices through these only.
-/
import InvestmentPlatform.Lib.PyFloat
import InvestmentPlatform.Lib.Selection
import InvestmentPlatform.Rules.Input
import Mathlib.Data.List.Infix
import Mathlib.Data.Prod.Lex
import Mathlib.Data.String.Basic

namespace InvestmentPlatform.Rules

open Selection PyLibrary

variable [PyLibrary]

/-! ### Texts -/

/-- An optional text that is truthy. -/
def nonEmpty (text : Option String) : Option String := text.filter (· ≠ "")

/-- How a format string shows an optional text. -/
def shown (text : Option String) : String := text.getD "None"

def isWordChar (c : Char) : Bool := ('a' ≤ c && c ≤ 'z') || ('0' ≤ c && c ≤ '9')

def metricKey (value : String) : String :=
  String.ofList ((casefold value).toList.filter isWordChar)

/-- `needle in text`. -/
def occursIn (needle text : String) : Bool := decide (needle.toList <:+: text.toList)

/-- A term at some position, not inside a longer word; `before` is the character before. -/
def containsTermFrom (term : List Char) : Option Char → List Char → Bool
  | before, [] => term.isEmpty && !before.any isWordChar
  | before, c :: rest =>
      (term.isPrefixOf (c :: rest) && !before.any isWordChar &&
        !((c :: rest).drop term.length).head?.any isWordChar) ||
      containsTermFrom term (some c) rest

def containsTerm (text term : String) : Bool :=
  containsTermFrom (casefold term).toList none text.toList

/-- `re.sub(r"[^a-z0-9\s]+", " ", text)`; `inRun` says that the last character was replaced. -/
def spaceSymbols (inRun : Bool) : List Char → List Char
  | [] => []
  | c :: rest =>
      if isWordChar c || isSpace c then c :: spaceSymbols false rest
      else if inRun then spaceSymbols true rest
      else ' ' :: spaceSymbols true rest

def plainWords (text : String) : String := String.ofList (spaceSymbols false text.toList)

/-! ### Numbers -/

/-- `_round_score`: two decimals, half to even. -/
def roundScore (value : ℚ) : ℚ := PyFloat.roundTo value 2

def clamp (value : ℚ) : ℚ := max 0 (min 100 value)

def asPercent (value : ℚ) : ℚ := if |value| ≤ 2 then value * 100 else value

/-- `_piecewise`, with its points in ascending order; the source never passes it none. -/
def piecewise (value : ℚ) (points : List (ℚ × ℚ)) : ℚ :=
  match points.head?, points.getLast? with
  | some first, some last =>
      if value ≤ first.1 then roundScore first.2
      else if last.1 ≤ value then roundScore last.2
      else ((points.zip points.tail).findSome? fun segment =>
        if segment.1.1 ≤ value ∧ value ≤ segment.2.1 then
          some (roundScore (segment.1.2 +
            (value - segment.1.1) / (segment.2.1 - segment.1.1) * (segment.2.2 - segment.1.2)))
        else none).getD 50
  | _, _ => 50

def growthScore (value : ℚ) : ℚ :=
  piecewise value [(-30, 5), (-10, 25), (0, 45), (10, 65), (20, 80), (40, 95)]

def trendScore (value : ℚ) : ℚ :=
  piecewise value [(-40, 8), (-20, 25), (-5, 45), (0, 55), (10, 72), (30, 88), (60, 78)]

/-! ### Data -/

structure Datum where
  value : ℚ
  source : String
  sourceUrl : Option String
  asOf : Option Instant
  evidenceId : String
  unit : Option String := none
  authority : Nat := 0
  reportingBasis : Option String := none
  periodType : Option String := none
  deriving DecidableEq, Repr

def derivedDatum (value : ℚ) (unit : String) (primary : Datum) (evidenceId : String)
    (others : List Datum) : Datum where
  value
  source := primary.source
  sourceUrl := (nonEmpty primary.sourceUrl).or (others.findSome? fun d => nonEmpty d.sourceUrl)
  asOf := ((primary :: others).filterMap Datum.asOf).max?
  evidenceId := "|".intercalate (evidenceId :: (primary :: others).map Datum.evidenceId)
  unit := some unit
  authority := (others.map Datum.authority).foldl min primary.authority

/-- The source's list of inputs is never empty. -/
def derivedFromMany (value : ℚ) (unit : String) (inputs : List Datum) (evidenceId : String) :
    Option Datum :=
  inputs.getLast?.map fun primary => derivedDatum value unit primary evidenceId inputs.dropLast

def compatibleFinancialData (left right : Datum) : Bool :=
  left.asOf = right.asOf ∧ left.reportingBasis = right.reportingBasis ∧
    left.periodType = right.periodType ∧ left.unit = right.unit

/-! ### Financial facts -/

def factSourceAuthority : FactSourceTier → Nat
  | .userUpload => 0
  | .search => 1
  | .yahoo => 2
  | .structuredFundamentals => 3
  | .officialNse => 4
  | .officialRegulatory => 5

def amountScales : List (String × ℚ) :=
  [("thousand", 1000), ("thousands", 1000), ("lakh", 100000), ("lakhs", 100000),
    ("million", 1000000), ("millions", 1000000), ("crore", 10000000), ("crores", 10000000),
    ("billion", 1000000000), ("billions", 1000000000)]

/-- A unit that names a currency and a scale, such as `INR crore`. -/
def scaledCurrency (unit : String) : Option (String × ℚ) :=
  match (strip unit).toList with
  | a :: b :: c :: rest =>
      let word := rest.dropWhile fun d => d = ' ' || d = '_'
      if a.isAlpha && b.isAlpha && c.isAlpha && word.length < rest.length then
        (amountScales.lookup (casefold (String.ofList word))).map fun scale =>
          (upper (String.ofList [a, b, c]), scale)
      else none
  | _ => none

def normalizeFinancialAmount (value : ℚ) (unit : Option String) : ℚ × Option String :=
  match (nonEmpty unit).bind scaledCurrency with
  | some (currency, scale) => (value * scale, some currency)
  | none => (value, unit)

/-- `_decimal` of a JSON value; the text of `None` is no number. -/
def decimalOf (value : Option Scalar) : Option ℚ :=
  let text := shown (value.map Scalar.str)
  if text = "None" then none else decimal text

def periodDatetime (value : Option String) : Option Instant :=
  (nonEmpty value).bind parseDatetime

/-- The datum of a fact, where it has a number and a date. -/
def factDatum (fact : FinancialFact) : Option Datum :=
  (decimalOf fact.value).bind fun number =>
    ((periodDatetime fact.periodEnd).or fact.asOfDate).map fun asOf =>
      let amount := normalizeFinancialAmount number fact.unit
      { value := amount.1
        source := fact.sourceProvider
        sourceUrl := some fact.sourceUrl
        asOf := some asOf
        evidenceId := ":".intercalate ["financial", fact.sourceIdentity, fact.metric,
          shown fact.periodEnd, fact.periodType]
        unit := amount.2
        authority := factSourceAuthority fact.sourceTier
        reportingBasis := fact.reportingBasis
        periodType := some fact.periodType }

/-- The real facts of some metrics and one period type (or any). -/
def selectedFacts (v : StockRuleEngineInput) (metrics : List String)
    (periodType : Option String) : List FinancialFact :=
  v.financialFacts.filter fun fact =>
    fact.sourceMode = .real ∧ metricKey fact.metric ∈ metrics.map metricKey ∧
      ∀ period ∈ periodType, upper fact.periodType = upper period

def Datum.periodKey (d : Datum) : String :=
  ":".intercalate [shown (d.asOf.map isoformat), shown d.periodType, d.reportingBasis.getD "",
    shown d.unit]

def Datum.groupKey (d : Datum) : Option String × Option String × Option String :=
  (d.periodType, d.reportingBasis, d.unit)

def newest (rows : List Datum) : Instant := (rows.filterMap Datum.asOf).max?.getD 0

abbrev GroupRank := Instant ×ₗ Bool ×ₗ Nat ×ₗ String ×ₗ String

/-- What the series to use is the greatest of. -/
def groupRank (rows : List Datum) : GroupRank :=
  toLex (newest rows,
    toLex (rows.head?.any fun d => d.reportingBasis = some "CONSOLIDATED",
      toLex ((rows.map Datum.authority).max?.getD 0,
        toLex (shown (rows.head?.bind Datum.periodType), shown (rows.head?.bind Datum.unit)))))

/-- One observation for each period, and of these the series of one basis and unit. -/
def seriesOf (data : List Datum) : List Datum :=
  match firstMax groupRank
      (groupOn Datum.groupKey (keepBest Datum.periodKey Datum.authority data)) with
  | some rows => sortOn (fun d => d.asOf.getD 0) rows
  | none => []

def factSeries (v : StockRuleEngineInput) (metrics : List String) (periodType : Option String) :
    List Datum :=
  seriesOf ((selectedFacts v metrics periodType).filterMap factDatum)

def latestFact (v : StockRuleEngineInput) (metrics : List String) (periodType : Option String) :
    Option Datum :=
  (factSeries v metrics periodType).getLast?

/-! ### Structured snapshots -/

def providerAuthority (provider sourceType sourceName : Option String) : Nat :=
  let text := upper (" ".intercalate [provider.getD "", sourceType.getD "", sourceName.getD ""])
  if occursIn "SEC" text || occursIn "REGULATORY" text then 5
  else if occursIn "NSE" text || occursIn "EXCHANGE" text || occursIn "COMPANY FILING" text then 4
  else if occursIn "EODHD" text || occursIn "LICENSED" text then 3
  else if occursIn "YAHOO" text then 2
  else 1

/-- `datetime.min`. -/
def datetimeMin : Instant := -62135596800000000

/-- The entries `_structured_data` looks at, each under its metric key. -/
def recordEntries (record : StructuredMarketSnapshotRecord) : List (String × Datum) :=
  record.facts.filterMap fun (rawKey, fact) =>
    (decimalOf fact.value).bind fun number =>
      if rawKey = "latestPrice" ∧ number ≤ 0 then none
      else some (metricKey rawKey,
        { value := number
          source := ((nonEmpty (some fact.sourceName)).or (nonEmpty record.sourceName)).getD
            record.provider
          sourceUrl := (nonEmpty (some fact.sourceUrl)).or record.sourceUrl
          asOf := fact.asOfDate.or record.marketAsOf
          evidenceId := ":".intercalate ["structured", record.provider, rawKey,
            isoformat record.retrievedAt]
          unit := fact.unit
          authority := providerAuthority (some record.provider) record.sourceType
            record.sourceName })

def structuredEntries (v : StockRuleEngineInput) : List (String × Datum) :=
  v.structuredSnapshots.flatMap recordEntries

abbrev StructuredRank := Nat ×ₗ Instant ×ₗ String

def structuredRank (entry : String × Datum) : StructuredRank :=
  toLex (entry.2.authority,
    toLex (entry.2.asOf.getD datetimeMin, entry.2.evidenceId))

def structuredData (v : StockRuleEngineInput) : List (String × Datum) :=
  keepBest Prod.fst structuredRank (structuredEntries v)

def pick (values : List (String × Datum)) (keys : List String) : Option Datum :=
  keys.findSome? fun key => (values.find? (·.1 = metricKey key)).map Prod.snd

/-- A fact where its authority is at least the summary's, else the summary. -/
def financialOrStructured (v : StockRuleEngineInput) (structured : List (String × Datum))
    (structuredKeys metrics : List String) (periods : List (Option String)) : Option Datum :=
  let fact := firstMax (fun d : Datum => toLex (d.asOf.getD 0, d.authority))
    (periods.filterMap (latestFact v metrics))
  let summary := pick structured structuredKeys
  match fact with
  | some fact => if ∀ s ∈ summary, s.authority ≤ fact.authority then some fact else summary
  | none => summary

def debtEquityDatum (v : StockRuleEngineInput) (structured : List (String × Datum)) :
    Option Datum :=
  let summary := (pick structured ["debttoequity"]).map fun s =>
    derivedDatum (if 5 < |s.value| then s.value else s.value * 100) "PERCENT" s
      "normalized:debt-equity" []
  let debt := latestFact v ["debt_or_borrowings", "total_debt"] (some "ANNUAL")
  let equity := latestFact v ["equity", "total_equity"] (some "ANNUAL")
  match debt, equity with
  | some debt, some equity =>
      if 0 < equity.value ∧ compatibleFinancialData debt equity then
        let derived := derivedDatum (debt.value / equity.value * 100) "PERCENT" debt
          "derived:debt-equity" [equity]
        if ∀ s ∈ summary, s.authority ≤ derived.authority then some derived else summary
      else summary
  | _, _ => summary

/-! ### Prices -/

def usablePrices (prices : List MarketPriceObservation) : List MarketPriceObservation :=
  sortOn MarketPriceObservation.observedAt (prices.filter fun p => 0 < p.price)

def priceDatum (p : MarketPriceObservation) : Datum where
  value := p.price
  source := p.provider
  sourceUrl := some p.sourceUrl
  asOf := some p.observedAt
  evidenceId := ":".intercalate ["price", p.provider, isoformat p.observedAt]
  unit := p.currency
  authority := providerAuthority (some p.provider) none none

/-- `statistics.median`. -/
def median (values : List ℚ) : ℚ :=
  let sorted := values.insertionSort (· ≤ ·)
  if sorted.length % 2 = 1 then sorted.getD (sorted.length / 2) 0
  else (sorted.getD (sorted.length / 2 - 1) 0 + sorted.getD (sorted.length / 2) 0) / 2

def day : Instant := 86400000000

/-- The per-share bases of `materialize_valuation`, with anchor date and address. -/
def valuationBases (records : List StructuredMarketSnapshotRecord)
    (price : MarketPriceObservation) (now : Instant) (sourceName : String) :
    List (Instant × String × ℚ) :=
  records.filterMap fun record =>
    if record.instrumentId = price.instrumentId ∧ nonEmpty record.currency ≠ none ∧
        record.currency = price.currency then
      (record.facts.lookup sourceName).bind fun value =>
        let currency := upper (record.currency.getD "")
        let anchor := (value.asOfDate.or value.publishedAt).getD value.retrievedAt
        if (∀ unit ∈ nonEmpty value.unit, upper unit ∈ [currency, currency ++ "/SHARE",
              currency ++ " PER SHARE", "CURRENCY/SHARE"]) ∧
            (sourceName = "trailingEps" → ∀ period ∈ nonEmpty value.period,
              upper period ∈ ["TTM", "TRAILING_TWELVE_MONTHS"]) ∧
            value.retrievedAt ≤ now ∧ anchor ≤ now ∧ now - anchor ≤ 120 * day then
          ((decimalOf value.value).filter (0 < ·)).map fun number =>
            (anchor, value.sourceUrl, number)
        else none
    else none

/-- A price ratio, where the newest bases agree on the number. -/
def valuationRatio (records : List StructuredMarketSnapshotRecord)
    (price : MarketPriceObservation) (now : Instant) (sourceName : String) : Option ℚ :=
  let bases := valuationBases records price now sourceName
  let current := bases.filter fun b => some b.1 = (bases.map Prod.fst).max?
  match (current.map fun b => b.2.2).dedup with
  | [number] => some (price.price / number)
  | _ => none

/-- `materialize_valuation`: the ratio of a trustworthy latest price to each basis. -/
def materializeValuation (records : List StructuredMarketSnapshotRecord)
    (prices : List MarketPriceObservation) (now : Instant) :
    List (String × MarketPriceObservation × ℚ) :=
  let usable := prices.filter fun p => p.observedAt ≤ now ∧ p.retrievedAt ≤ now ∧ 0 < p.price ∧
    nonEmpty p.currency ≠ none ∧ p.sourceUrl ≠ ""
  let latest := usable.filter fun p => some p.observedAt = (usable.map (·.observedAt)).max?
  if (latest.map (·.price)).max? = (latest.map (·.price)).min? then
    match sortOn (fun p => toLex (p.provider, p.sourceUrl)) latest with
    | price :: _ =>
        [("trailingEps", "trailingPE"), ("bookValue", "priceToBook")].filterMap fun (name, target) =>
          (valuationRatio records price now name).map fun ratio => (target, price, ratio)
    | [] => []
  else []

/-! ### What the issuer is -/

def sector (v : StockRuleEngineInput) : Option String :=
  match ((nonEmpty v.canonicalMetadata.canonicalSector).or
      (nonEmpty v.canonicalMetadata.sector)).or (nonEmpty v.canonicalMetadata.industrySector) with
  | some raw => some (strip raw)
  | none =>
      ["sector", "industry"].findSome? fun key =>
        v.structuredSnapshots.findSome? fun record =>
          record.facts.findSome? fun (rawKey, fact) =>
            if metricKey rawKey = key then
              (fact.value.filter fun value => value.truthy).map fun value => strip value.str
            else none

def financialClassificationTerms : List String :=
  ["stock exchanges", "financial exchanges", "financial data", "financial", "banks", "banking",
    "insurance", "asset management", "capital markets", "investment banking",
    "financial market infrastructure", "credit service", "credit services", "lending",
    "non-bank financial", "nbfc", "leasing", "housing finance", "mortgage", "mortgages",
    "finance company", "finance companies", "microfinance"]

def isFinancial (v : StockRuleEngineInput) : Bool :=
  let text := casefold (" ".intercalate
    [(sector v).getD "", v.canonicalMetadata.industry.getD ""])
  financialClassificationTerms.any fun token => occursIn token text

def financialSectorSubtypeTerms : List String :=
  ["banks", "banking", "non-bank", "nbfc", "housing finance", "mortgage finance", "microfinance",
    "credit service", "credit services", "lending", "finance company", "micro finance", "nbf",
    "cooperative bank", "urban financial"]

def assetManagementTerms : List String := ["asset management", "investment management"]

inductive FinancialSubtype
  | assetManagement | financialSector | corporate
  deriving DecidableEq, Repr

def classifyFinancialSubtype (industry sector : Option String) : FinancialSubtype :=
  let text := strip (plainWords (casefold (casefold (sector.getD "") ++ " " ++ industry.getD "")))
  if assetManagementTerms.any fun term => occursIn (strip (plainWords term)) text then
    .assetManagement
  else if (financialSectorSubtypeTerms.any fun term => occursIn (strip (plainWords term)) text) ||
      containsTermFrom "hfc".toList none text.toList then .financialSector
  else .corporate

def lenderBalanceSheetInput : String := "FINANCIAL_SECTOR_CAPITAL_OR_ASSET_QUALITY"

def corporateBalanceSheetInputs : List String :=
  ["DEBT", "EQUITY", "CASH", "INTEREST_COVERAGE_INPUTS", "LIQUIDITY_CURRENT_RATIO_INPUTS"]

/-- The excluded inputs of `balance_sheet_applicability`. -/
def balanceSheetExcludedInputs (industry sector : Option String) : List String :=
  if classifyFinancialSubtype industry sector = .financialSector then corporateBalanceSheetInputs
  else [lenderBalanceSheetInput]

def isIndia (profile : CompanyResearchProfile) : Bool :=
  upper (strip profile.country) ∈ ["IN", "IND", "INDIA"] ||
    upper (strip profile.exchange) ∈ ["NSE", "XNSE", "BSE", "XBOM"]

end InvestmentPlatform.Rules
