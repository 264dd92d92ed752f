/-
The histories that are shown of the financial facts of an instrument,
`financial_result_history_from_facts` and `financial_statement_history_from_facts` of
`app/structured_research.py`.

Both fill nested dicts: under the type, the period and the basis of a fact there is one fact for
each metric.  Here the facts that these dicts hold are one list, in the order their keys came up,
and an inner dict is the part of that list under one key.
-/
import InvestmentPlatform.Evidence.IncomeHistory

namespace InvestmentPlatform.Evidence.StatementHistory

open Selection

/-! ### Periods -/

section

-- `\d`: the decimal digits of Unicode.
variable (isDigit : Char → Bool)

/-- `re.fullmatch(r"\d{4}-\d{2}-\d{2}", text)`. -/
def isDateText : List Char → Bool
  | [y₁, y₂, y₃, y₄, '-', m₁, m₂, '-', d₁, d₂] => [y₁, y₂, y₃, y₄, m₁, m₂, d₁, d₂].all isDigit
  | _ => false

/-- `_semantic_period_key`. -/
def semanticPeriodKey (periodEnd : String) : String :=
  if periodEnd = "" then periodEnd
  else
    let candidate := Stage2.strip periodEnd.toList
    let datePart := candidate.take 10
    if isDateText isDigit datePart then String.ofList datePart else String.ofList candidate

end

/-! ### The dicts -/

def authority (fact : FinancialFact) : Nat := factSourceAuthority fact.sourceTier

/-- `max(fact_source_authority(fact.source_tier) for fact in values)`. -/
def maxAuthority (values : List FinancialFact) : Nat := (values.map authority).foldr max 0

/-- The keys of the outer dicts. -/
structure GroupKey where
  periodType : String
  period : String
  reportingBasis : Option String
  deriving DecidableEq, Repr

/-- A row of `FinancialResultPeriod`. -/
structure FinancialResultPeriod where
  period : String
  periodType : String
  reportingBasis : Option String
  revenue : Option ProvenancedValue
  operatingIncome : Option ProvenancedValue
  ebit : Option ProvenancedValue
  ebitda : Option ProvenancedValue
  pat : Option ProvenancedValue
  eps : Option ProvenancedValue
  sourceName : String
  sourceUrl : String
  sourceType : String
  publishedAt : Option Timestamp
  retrievedAt : Timestamp
  confidence : Rat
  deriving DecidableEq

/-- A row of `FinancialStatementPeriod`. -/
structure FinancialStatementPeriod where
  period : String
  periodType : String
  reportingBasis : Option String
  metrics : List (String × ProvenancedValue)
  deriving DecidableEq

def resultMetrics : List String := ["revenue", "operating_income", "ebit", "ebitda", "pat", "eps"]

section

variable (isDigit : Char → Bool)

def groupKey (fact : FinancialFact) : GroupKey :=
  ⟨fact.key.periodType, semanticPeriodKey isDigit (fact.key.periodEnd.getD ""),
    fact.key.reportingBasis⟩

def factKey (fact : FinancialFact) : GroupKey × String := (groupKey isDigit fact, fact.key.metric)

/-- The fact is real, of a supported tier, and of a period. -/
def supported (fact : FinancialFact) : Bool :=
  fact.sourceMode = .real && fact.sourceTier ∈ supportedFinancialSourceTiers &&
    fact.key.periodEnd.getD "" ≠ ""

def usable (periodTypes metrics : List String) (fact : FinancialFact) : Bool :=
  supported fact && fact.key.periodType ∈ periodTypes && fact.key.metric ∈ metrics

/-- The facts that the dicts hold when all are filled. -/
def heldFacts (periodTypes metrics : List String) (facts : List FinancialFact) :
    List FinancialFact :=
  keepBest (factKey isDigit) authority (facts.filter (usable periodTypes metrics))

/-- The keys of the outer dicts, in the order they came up. -/
def groupKeys (held : List FinancialFact) : List GroupKey :=
  (keepFirst (groupKey isDigit) held).map (groupKey isDigit)

/-- An inner dict. -/
def valuesOf (held : List FinancialFact) (key : GroupKey) : List FinancialFact :=
  held.filter (groupKey isDigit · = key)

/-- `values.get(metric)`, and the value of that fact. -/
def valueOf (held : List FinancialFact) (key : GroupKey) (metric : String) :
    Option ProvenancedValue :=
  ((valuesOf isDigit held key).find? (·.key.metric = metric)).map FinancialFact.value

/-- `basis_rank`. -/
def basisRank (held : List FinancialFact) (key : GroupKey) : Nat ×ₗ Bool ×ₗ Bool :=
  toLex (maxAuthority (valuesOf isDigit held key),
    toLex (!([none, some "", some "UNKNOWN"].contains key.reportingBasis),
      decide (key.reportingBasis = some "CONSOLIDATED")))

/-! ### Results -/

/-- The row of a group, `none` where the primary fact does not name the type of its source, which
the row requires. -/
def resultPeriod (held : List FinancialFact) (key : GroupKey) : Option FinancialResultPeriod :=
  (firstMax authority (valuesOf isDigit held key)).bind fun primary =>
    primary.value.sourceType.map fun sourceType =>
      { period := key.period
        periodType := key.periodType
        reportingBasis := key.reportingBasis
        revenue := valueOf isDigit held key "revenue"
        operatingIncome := valueOf isDigit held key "operating_income"
        ebit := valueOf isDigit held key "ebit"
        ebitda := valueOf isDigit held key "ebitda"
        pat := valueOf isDigit held key "pat"
        eps := valueOf isDigit held key "eps"
        sourceName := primary.value.sourceName
        sourceUrl := primary.value.sourceUrl
        sourceType := sourceType
        publishedAt := primary.value.asOfDate
        retrievedAt := primary.value.retrievedAt
        confidence := (primary.value.confidence.filter (· ≠ 0)).getD (82 / 100) }

/-- The groups whose rows are shown of a type. -/
def seriesKeys (held : List FinancialFact) (kind : String) : List GroupKey :=
  let keys := (groupKeys isDigit held).filter (·.periodType = kind)
  match firstMax GroupKey.period keys with
  | none => []
  | some newest =>
    match firstMax (basisRank isDigit held) (keys.filter (·.period = newest.period)) with
    | none => []
    | some best =>
      let ordered := sortOn
        (fun key => OrderDual.toDual (toLex (key.period, key.reportingBasis.getD ""))) keys
      (ordered.filter (·.reportingBasis = best.reportingBasis)).take 4

/-- The period types that are asked for. -/
def allowedTypes (periodType : Option String) : List String :=
  match periodType.filter (· ≠ "") with
  | some kind => [kind]
  | none => ["QUARTERLY", "ANNUAL"]

def financialResultHistoryFromFacts (facts : List FinancialFact) (periodType : Option String) :
    Option (List FinancialResultPeriod) :=
  let held := heldFacts isDigit (allowedTypes periodType) resultMetrics facts
  let kinds := (keepFirst (·.key.periodType) held).map (·.key.periodType)
  (kinds.mapM fun kind => (seriesKeys isDigit held kind).mapM (resultPeriod isDigit held)).map
    fun series =>
      if (periodType.filter (· ≠ "")).isSome then
        sortOn (fun row => OrderDual.toDual (toLex (row.periodType, row.period))) series.flatten
      else series.flatten

/-! ### Statements -/

/-- The loop over the periods, with how many were selected of each type. -/
def selectPeriods (limit : ℤ) (selected : String → Nat) :
    List (String × String) → List (String × String)
  | [] => []
  | (period, kind) :: rest =>
    if limit ≤ selected kind then selectPeriods limit selected rest
    else
      (period, kind) ::
        selectPeriods limit (Function.update selected kind (selected kind + 1)) rest

/-- The pairs of a period and a type. -/
def periodKeys (held : List FinancialFact) : List (String × String) :=
  (keepFirst (fun key => (key.period, key.periodType)) (groupKeys isDigit held)).map
    fun key => (key.period, key.periodType)

/-- The group with the basis that is selected for a period. -/
def selectedGroup (held : List FinancialFact) (pair : String × String) : Option GroupKey :=
  firstMax (basisRank isDigit held)
    ((groupKeys isDigit held).filter fun key => (key.period, key.periodType) = pair)

def financialStatementHistoryFromFacts (facts : List FinancialFact)
    (periodTypes metrics : List String) (limit : ℤ) : List FinancialStatementPeriod :=
  let held := heldFacts isDigit periodTypes metrics facts
  let ordered := sortOn (fun pair => OrderDual.toDual (toLex pair)) (periodKeys isDigit held)
  (selectPeriods limit (fun _ => 0) ordered).filterMap fun pair =>
    (selectedGroup isDigit held pair).map fun key =>
      { period := pair.1
        periodType := pair.2
        reportingBasis := key.reportingBasis
        metrics := (valuesOf isDigit held key).map fun fact => (fact.key.metric, fact.value) }

end

end InvestmentPlatform.Evidence.StatementHistory
