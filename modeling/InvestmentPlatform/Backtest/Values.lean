/-
What `app/recommendation_backtesting.py` reads of a persisted recommendation.

A recommendation is a dict of JSON values and date-times.  Reading one may raise, and what it
raises decides whether a sample or the whole run is lost, so every function here says which
exceptions leave it.  Texts, numbers and date-times are read by a `PyLibrary`, of which
nothing is assumed.
-/
import InvestmentPlatform.Lib.Dict
import InvestmentPlatform.Lib.PyFloat
import InvestmentPlatform.Lib.Selection
import Mathlib.Data.Prod.Lex
import Mathlib.Data.String.Basic

namespace InvestmentPlatform.Backtest

/-- The exceptions the handlers of the module tell apart. -/
inductive Raised
  | valueError | typeError | attributeError | keyError | overflowError | arithmeticError
  deriving DecidableEq, Repr

/-! ### Date-times -/

/-- Microseconds since 1970, UTC. -/
abbrev Instant := Int

/-- A `datetime`: the wall clock, in microseconds, and its UTC offset unless it is naive. -/
structure DateTime where
  wall : Int
  offset : Option Int
  deriving DecidableEq, Repr

/-- The instant a date-time names, a naive one read as UTC. -/
def DateTime.instant (t : DateTime) : Instant := t.wall - t.offset.getD 0

/-- The instants from `datetime.min` to `datetime.max`. -/
def Representable (i : Instant) : Prop :=
  -62135596800000000 ≤ i ∧ i ≤ 253402300799999999

instance (i : Instant) : Decidable (Representable i) :=
  inferInstanceAs (Decidable (_ ∧ _))

/-- An instant as a `datetime` in UTC. -/
def represent (i : Instant) : Except Raised Instant :=
  if Representable i then .ok i else .error .overflowError

/-- `value.astimezone(timezone.utc)` of an aware date-time, `ValueError` of a naive one. -/
def aware (t : DateTime) : Except Raised Instant :=
  match t.offset with
  | none => .error .valueError
  | some _ => represent t.instant

def day : Int := 86400000000

/-- `instant + timedelta(days=days)`. -/
def addDays (i : Instant) (days : Nat) : Except Raised Instant := represent (i + days * day)

/-! ### Values and the library -/

/-- A value of a persisted record. -/
inductive PyValue (F : Type)
  | none
  | bool (b : Bool)
  | int (n : Int)
  | float (x : F)
  | str (text : String)
  | datetime (t : DateTime)
  | list (values : List (PyValue F))
  | dict (items : List (String × PyValue F))

/-- The fields of an `EventImpactFeature` that `latest_known_features` compares. -/
structure EventImpactFeature where
  featureId : String
  eventKey : String
  publicAvailableAt : Instant
  discoveredAt : Instant
  computedAt : Instant
  deriving DecidableEq, Repr

class PyLibrary (F : Type) where
  /-- `str(value)`. -/
  str : PyValue F → String
  strip : String → String
  upper : String → String
  lower : String → String
  /-- `datetime.fromisoformat`. -/
  fromisoformat : String → Except Raised DateTime
  /-- `UUID(value)`. -/
  uuid : PyValue F → Except Raised String
  /-- `float(value)`. -/
  float : PyValue F → Except Raised F
  /-- `EventImpactFeature.model_validate(value)`. -/
  eventImpactFeature : PyValue F → Except Raised EventImpactFeature
  /-- `float(a / b)` of two decimals. -/
  quotient : ℚ → ℚ → Except Raised F

variable {F : Type} [PyDouble F]

namespace PyValue

def truthy : PyValue F → Bool
  | none => false
  | bool b => b
  | int n => n ≠ 0
  | float x => !PyDouble.isZero x
  | str text => text ≠ ""
  | datetime _ => true
  | list values => !values.isEmpty
  | dict items => !items.isEmpty

/-- `a or b`. -/
def or (a b : PyValue F) : PyValue F := if a.truthy then a else b

/-- `value == text`. -/
def isText (value : PyValue F) (text : String) : Bool :=
  match value with
  | str s => s = text
  | _ => false

def isNone : PyValue F → Bool
  | none => true
  | _ => false

/-- The values `for item in value` runs over. -/
def iter : PyValue F → Except Raised (List (PyValue F))
  | list values => .ok values
  | dict items => .ok (items.map fun item => str item.1)
  | str text => .ok (text.toList.map fun c => str (String.singleton c))
  | _ => .error .typeError

end PyValue

variable [PyLibrary F]

/-- `utc`. -/
def utc : PyValue F → Except Raised Instant
  | .str text => do
    let replaced := text.toList.flatMap fun c => if c = 'Z' then "+00:00".toList else [c]
    aware (← PyLibrary.fromisoformat F (String.ofList replaced))
  | .datetime t => aware t
  | _ => .error .attributeError

/-! ### Evidence -/

/-- `latest_known_features`. -/
def latestKnownFeatures (features : List EventImpactFeature) (now : Instant) :
    List EventImpactFeature :=
  let latest := features.foldl (fun (latest : Dict String EventImpactFeature) f =>
    if now < Max.max f.computedAt (Max.max f.discoveredAt f.publicAvailableAt) then latest
    else match latest.get? f.eventKey with
      | none => latest.set f.eventKey f
      | some old =>
        if old.computedAt < f.computedAt ∨
            old.computedAt = f.computedAt ∧ old.featureId < f.featureId then
          latest.set f.eventKey f
        else latest) Dict.empty
  Selection.sortOn EventImpactFeature.eventKey latest.values

/-- Catches what `except (ValueError, TypeError)` does. -/
def unlessInvalid (r : Except Raised Bool) : Except Raised Bool :=
  match r with
  | .error .valueError | .error .typeError => .ok false
  | r => r

/-- The test under `'news_features' in value`. -/
def newsAvailable (value : PyValue F) (at' : Instant) : Except Raised Bool :=
  unlessInvalid do
    let features ← (← value.iter).mapM PyLibrary.eventImpactFeature
    return (latestKnownFeatures features at').length = features.length

def availabilityKeys : List String :=
  ["publishedat", "publicationtime", "publicavailabilityat", "publicavailableat", "discoveredat",
    "computedat", "calculatedat", "retrievedat", "asof", "inputasof"]

/-- `utc(item) > at` is false, or an exception says that there is no telling. -/
def stampKnown (item : PyValue F) (at' : Instant) : Except Raised Bool :=
  match (utc item : Except Raised Instant) with
  | .ok stamp => .ok (stamp ≤ at')
  | .error .attributeError => .ok false
  | .error e => unlessInvalid (.error e)

mutual

/-- `evidence_available`. -/
def evidenceAvailable (at' : Instant) : PyValue F → Except Raised Bool
  | .dict items => do
    match items.find? fun item => item.1 = "news_features" with
    | some (_, value) =>
      if ← newsAvailable value at' then itemsAvailable at' items else return false
    | none => itemsAvailable at' items
  | .list values => allAvailable at' values
  | _ => return true

/-- The loop over `value.items()`. -/
def itemsAvailable (at' : Instant) : List (String × PyValue F) → Except Raised Bool
  | [] => return true
  | (key, item) :: rest => do
    let normalized := PyLibrary.lower F (String.ofList (key.toList.filter (· ≠ '_')))
    let known ← if normalized ∈ availabilityKeys ∧ item.truthy then stampKnown item at'
      else pure true
    if !known then return false
    if ← evidenceAvailable at' item then itemsAvailable at' rest else return false

def allAvailable (at' : Instant) : List (PyValue F) → Except Raised Bool
  | [] => return true
  | item :: rest => do
    if ← evidenceAvailable at' item then allAvailable at' rest else return false

end

end InvestmentPlatform.Backtest

/-!
`normalize_price_history` of `app/technical_features.py`, the branch without a market.

The back-test passes neither a market nor trusted providers, so the session rules and the
provider filter never run here.  Rows are filtered, grouped by the UTC day of their
observation, reduced to one row a day and cleared of isolated spikes.  Prices are finite
decimals: the model of a row takes no others.
-/

namespace InvestmentPlatform.Backtest

structure MarketPriceObservation where
  instrumentId : String
  observedAt : DateTime
  price : ℚ
  currency : Option String
  provider : String
  sourceUrl : String
  retrievedAt : DateTime
  deriving DecidableEq, Repr

namespace MarketPriceObservation

def observed (row : MarketPriceObservation) : Instant := row.observedAt.instant

def retrieved (row : MarketPriceObservation) : Instant := row.retrievedAt.instant

/-- `utc(row.observed_at).date()`, in days since 1970. -/
def observedDay (row : MarketPriceObservation) : Int := row.observed / day

end MarketPriceObservation

structure PriceHistory where
  observations : List MarketPriceObservation
  conflictingDates : List Int
  currentConflict : Bool
  rejectedCount : Nat
  duplicateCount : Nat
  currency : Option String
  quarantinedDates : List Int
  deriving DecidableEq, Repr

/-- `utc` of this module: a naive date-time is in UTC. -/
def asUtc (t : DateTime) : Except Raised Instant :=
  match t.offset with
  | none => .ok t.instant
  | some _ => represent t.instant

/-- `[row for row in rows if test(row)]`, where the test may raise. -/
def selectRows (test : MarketPriceObservation → Except Raised Bool) :
    List MarketPriceObservation → Except Raised (List MarketPriceObservation)
  | [] => return []
  | row :: rows => do
    if ← test row then return row :: (← selectRows test rows) else selectRows test rows

variable (F : Type) [PyDouble F]

/-- `finite_number` of a decimal. -/
def finiteNumber (price : ℚ) : Option ℚ :=
  if PyDouble.isFinite (PyDouble.ofRat price : F) then some price else none

/-- The row passes the filter.  The tests run in order, and the first that fails decides. -/
def accepts (instrumentId : String) (asOf : Instant) (currency : Option String)
    (row : MarketPriceObservation) : Except Raised Bool := do
  let price := finiteNumber F row.price
  if row.instrumentId ≠ instrumentId then return false
  if asOf < (← asUtc row.observedAt) then return false
  if asOf < (← asUtc row.retrievedAt) then return false
  return price.any (0 < ·) && currency.all (fun c => row.currency = some c)

/-- `_IMPLAUSIBLE_SINGLE_DAY_RATIO`. -/
def implausibleSingleDayRatio : F := PyDouble.ofRat 2

/-- `_REVERSION_TOLERANCE`. -/
def reversionTolerance : F := PyDouble.ofRat (115 / 100)

variable {F}

/-- The value jumps away from the one before it, and the next is back where that one was. -/
def spike (prior current following : F) : Bool :=
  let one : F := PyDouble.ofRat 1
  let zero : F := PyDouble.ofRat 0
  let deviation := current / prior
  let reversion := following / prior
  if PyDouble.le prior zero || PyDouble.le current zero || PyDouble.le following zero then false
  else if !(PyDouble.lt (implausibleSingleDayRatio F) deviation ||
      PyDouble.lt deviation (one / implausibleSingleDayRatio F)) then false
  else PyDouble.lt (one / reversionTolerance F) reversion &&
    PyDouble.lt reversion (reversionTolerance F)

/-- `_quarantine_implausible_indices`. -/
def quarantineImplausibleIndices (values : List F) : List Nat :=
  let value i := values.getD i (PyDouble.ofRat 0)
  (List.range values.length).filter fun i =>
    1 ≤ i && i + 1 < values.length && spike (value (i - 1)) (value i) (value (i + 1))

/-- The key of ties at one price. -/
def provenance (row : MarketPriceObservation) : Lex (String × Lex (String × Instant)) :=
  toLex (row.provider, toLex (row.sourceUrl, row.retrieved))

/-- The row that stands for a day, `none` when the day's latest rows disagree on the price. -/
def representative (rows : List MarketPriceObservation) : Option MarketPriceObservation :=
  let latest := (rows.map MarketPriceObservation.observed).max?
  let current := rows.filter fun row => some row.observed = latest
  if (current.map MarketPriceObservation.price).dedup.length ≠ 1 then none
  else Selection.firstMax (fun row => OrderDual.toDual (provenance row)) current

variable (F)

/-- What is left of the accepted rows: groups by day, conflicts, representatives, spikes. -/
def reduceHistory (accepted : List MarketPriceObservation) (rejected : Nat)
    (currency : Option String) : PriceHistory :=
  let currencies := (accepted.map MarketPriceObservation.currency).dedup
  let days := Selection.sortedSet (accepted.map MarketPriceObservation.observedDay)
  let grouped := days.map fun d => (d, accepted.filter fun row => row.observedDay = d)
  if 1 < currencies.length then ⟨[], days, true, rejected, 0, currency, []⟩
  else
    let duplicates := (grouped.map fun group => group.2.length - 1).sum
    let conflicts := (grouped.filter fun group => (representative group.2).isNone).map Prod.fst
    let output := grouped.filterMap fun group => representative group.2
    let quarantined :=
      quarantineImplausibleIndices (output.map fun row => (PyDouble.ofRat row.price : F))
    { observations := (output.zipIdx.filter fun row => row.2 ∉ quarantined).map Prod.fst
      conflictingDates := conflicts
      currentConflict := match days.getLast? with
        | none => false
        | some last => last ∈ conflicts
      rejectedCount := rejected
      duplicateCount := duplicates
      currency := (currency.filter (· ≠ "")).or (currencies.head?.join)
      quarantinedDates := ((output.zipIdx.filter fun row => row.2 ∈ quarantined).map
        fun row => row.1.observedDay) }

/-- `normalize_price_history`. -/
def normalizePriceHistory (instrumentId : String) (observations : List MarketPriceObservation)
    (asOf : Instant) (currency : Option String) : Except Raised PriceHistory := do
  let accepted ← selectRows (accepts F instrumentId asOf currency) observations
  return reduceHistory F accepted (observations.length - accepted.length) currency

end InvestmentPlatform.Backtest
