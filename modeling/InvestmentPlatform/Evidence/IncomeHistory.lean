/-
The gaps in an income history, `app/financial_authority.py`, and the period ends of the evidence
plan, `shift_months` of `app/financial_evidence_plan.py`.

The two histories are one computation over different groups and period ends.  A date that leaves
the calendar raises, and so does the whole call.
-/
import InvestmentPlatform.Evidence.FinancialFacts
import InvestmentPlatform.Lib.PyDate
import InvestmentPlatform.Rules.Readings

namespace InvestmentPlatform.Evidence

open PyDate Selection
open Rules (PyLibrary normalizeFinancialAmount)

def annualCagrMinPeriods : Nat := 3

def quarterlyMinPeriods : Nat := 4

/-- What is read of a financial fact. -/
structure ReportedFact where
  key : FinancialFactKey
  /-- The value is not `None`. -/
  valued : Bool
  unit : Option String
  sourceTier : FactSourceTier
  sourceMode : SourceMode
  deriving DecidableEq, Repr

def supportedFinancialSourceTiers : List FactSourceTier :=
  [.yahoo, .structuredFundamentals, .officialNse, .officialRegulatory]

def aliases (metric : String) : String :=
  if metric = "total_revenue" then "revenue"
  else if metric = "net_income" ∨ metric = "net_profit" then "pat"
  else metric

/-- What a supported fact says: the metric under its canonical name, and the period as a date. -/
structure IncomePoint where
  instrumentId : String
  reportingBasis : String
  unit : String
  metric : String
  period : Date
  deriving DecidableEq, Repr

section
variable [PyLibrary]

/-- `normalize_financial_amount(Decimal(0), unit)[1]`, where it is a currency. -/
def currencyOf (unit : Option String) : Option String :=
  (normalizeFinancialAmount 0 unit).2.filter fun currency => currency.length = 3

/-- The body of the loop over the facts. -/
def incomePoint (kind : String) (fact : ReportedFact) : Option IncomePoint :=
  let metric := aliases fact.key.metric
  if fact.sourceMode ≠ .real ∨ fact.sourceTier ∉ supportedFinancialSourceTiers ∨
      fact.key.periodType ≠ kind ∨ metric ∉ ["revenue", "pat"] ∨ fact.valued = false then none
  else
    (fact.key.reportingBasis.filter (· ∈ ["STANDALONE", "CONSOLIDATED"])).bind fun basis =>
      (fromIsoformat (fact.key.periodEnd.getD "")).bind fun period =>
        (currencyOf fact.unit).map fun unit =>
          ⟨fact.key.instrumentId, basis, unit, metric, period⟩

/-- One of the two histories. -/
structure IncomeHistory (K : Type) where
  kind : String
  group : IncomePoint → K
  /-- The period ends it requires, from the latest; none where a date leaves the calendar. -/
  required : Date → Option (List Date)

variable {K : Type} [DecidableEq K]

def IncomeHistory.points (history : IncomeHistory K) (facts : List ReportedFact) :
    List IncomePoint :=
  facts.filterMap (incomePoint history.kind)

/-- `max(period for _, period in group)` -/
def latestOf (group : List IncomePoint) : Option Date := firstMax id (group.map IncomePoint.period)

/-- The rank of a group: its latest period, whether it is consolidated, how many pairs of a metric
and a period it has. -/
def groupRank (group : List IncomePoint) : Nat ×ₗ Bool ×ₗ Nat :=
  toLex ((latestOf group).elim 0 Date.number,
    toLex (group.head?.any fun point => point.reportingBasis = "CONSOLIDATED",
      (group.map fun point => (point.metric, point.period)).dedup.length))

/-- The group the gaps are looked for in. -/
def IncomeHistory.selected (history : IncomeHistory K) (facts : List ReportedFact) :
    Option (List IncomePoint) :=
  firstMax groupRank (groupOn history.group (history.points facts))

/-- The key of a fact that would fill a gap. -/
def gapKey (kind : String) (point : IncomePoint) (metric : String) (period : Date) :
    FinancialFactKey :=
  { instrumentId := point.instrumentId
    metric := metric
    periodEnd := some period.isoformat
    periodType := kind
    reportingBasis := some point.reportingBasis }

/-- The pairs that a group lacks, as keys. -/
def missingKeys (kind : String) (group : List IncomePoint) (ends : List Date) :
    List FinancialFactKey :=
  match group with
  | [] => []
  | first :: rest =>
      ends.flatMap fun period => ["revenue", "pat"].filterMap fun metric =>
        if (first :: rest).any fun point => point.metric = metric ∧ point.period = period
        then none
        else some (gapKey kind first metric period)

/-- The set of gaps, as a list; none where the call raises. -/
def IncomeHistory.gaps (history : IncomeHistory K) (facts : List ReportedFact) :
    Option (List FinancialFactKey) :=
  match history.selected facts with
  | none => some []
  | some group => (latestOf group).elim (some []) fun latest =>
      (history.required latest).map (missingKeys history.kind group)

/-! ### The annual history -/

/-- The end of the fiscal year that many years before. -/
def fiscalEnd (latest : Date) (offset : Nat) : Option Date :=
  (latest.yearsBefore offset).or (ofYmd (latest.year - offset) latest.month 28)

def annualHistory : IncomeHistory (String × String × String × Nat × Nat) where
  kind := "ANNUAL"
  group point := (point.instrumentId, point.reportingBasis, point.unit, point.period.month,
    point.period.day)
  required latest := (List.range annualCagrMinPeriods).mapM (fiscalEnd latest)

def annualIncomeHistoryGaps (facts : List ReportedFact) : Option (List FinancialFactKey) :=
  annualHistory.gaps facts

/-! ### The quarterly history -/

/-- The last day of the month that many quarters before. -/
def quarterEnd (periodEnd : Date) (offset : Nat) : Option Date :=
  let monthsBack := offset * 3
  let (year, month) :=
    if periodEnd.month ≤ monthsBack then (periodEnd.year - 1, periodEnd.month + 12 - monthsBack)
    else (periodEnd.year, periodEnd.month - monthsBack)
  ofYmd year month (daysInMonth year month)

/-- `_quarter_starts_from` -/
def quarterStartsFrom (periodEnd : Date) : Option (List Date) :=
  (List.range quarterlyMinPeriods).mapM (quarterEnd periodEnd)

def quarterlyHistory : IncomeHistory (String × String × String) where
  kind := "QUARTERLY"
  group point := (point.instrumentId, point.reportingBasis, point.unit)
  required := quarterStartsFrom

def quarterlyIncomeHistoryGaps (facts : List ReportedFact) : Option (List FinancialFactKey) :=
  quarterlyHistory.gaps facts

end

/-! ### The evidence plan -/

def shiftMonths (periodEnd : Date) (months : Int) : Option Date :=
  let (year, month) := monthsOn periodEnd.year periodEnd.month months
  let last := daysInMonth year.toNat month.toNat
  ofYmd year.toNat month.toNat (if periodEnd.IsMonthEnd then last else min periodEnd.day last)

/-- The first period ends of the plan, that many months apart. -/
def plannedPeriods (latest : Date) (step : Int) (count : Nat) : Option (List Date) :=
  (List.range count).mapM fun offset : Nat => shiftMonths latest (-step * offset)

end InvestmentPlatform.Evidence
