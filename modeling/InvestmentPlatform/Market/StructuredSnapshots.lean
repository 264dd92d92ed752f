/-
The durable structured-market snapshots of `app/portfolio_orchestration.py`:
`_persist_structured_snapshot` puts a collection on top of the previous record, and
`_requested_structured_due_classes` and `_structured_due_classes` read from a record which classes
of data are to be acquired again.

A `datetime` may carry a UTC offset or none.  One with and one without can be neither compared nor
subtracted, and dates past the ends of the calendar cannot be computed; both raise, so the due tests
are computations that may raise, evaluated in the source's order.  `decimal` is `Decimal(str(value))`
where that is a finite number.
-/
import InvestmentPlatform.Lib.Dict
import InvestmentPlatform.Lib.Fallible
import InvestmentPlatform.Market.Sessions
import Mathlib.Data.Rat.Defs

namespace InvestmentPlatform.Market.StructuredSnapshots

open Fallible

/-! ### Dates that may not compare -/

/-- `TypeError` of a comparison, `OverflowError` of a date computation. -/
inductive Raised
  | typeError | overflowError
  deriving DecidableEq, Repr

/-- A `datetime`: its instant, a naive one read as UTC, and its offset from UTC where it has one. -/
structure DateTime where
  instant : Instant
  offset : Option Zone
  deriving DecidableEq, Repr

def DateTime.Aware (d : DateTime) : Prop := d.offset.isSome

/-- `a < b`. -/
def DateTime.before (a b : DateTime) : Except Raised Bool :=
  if a.offset.isSome = b.offset.isSome then .ok (decide (a.instant < b.instant))
  else .error .typeError

/-- `a - b`, in microseconds. -/
def DateTime.minus (a b : DateTime) : Except Raised Int :=
  if a.offset.isSome = b.offset.isSome then .ok (a.instant - b.instant) else .error .typeError

/-- `0001-01-01` and `9999-12-31`. -/
def firstDate : Date := -719162

def lastDate : Date := 2932896

/-- An instant the calendar reaches. -/
def InCalendar (t : Instant) : Prop := firstDate ≤ t / dayLength ∧ t / dayLength ≤ lastDate

instance (t : Instant) : Decidable (InCalendar t) := inferInstanceAs (Decidable (_ ∧ _))

/-- What the clock face shows. -/
def DateTime.face (d : DateTime) : Instant := d.instant + d.offset.getD 0

/-- `a or b` and `a and b`: the second is not evaluated where the first decides. -/
def orElse (a b : Except Raised Bool) : Except Raised Bool :=
  a.bind fun x => if x then .ok true else b

def andThen (a b : Except Raised Bool) : Except Raised Bool :=
  a.bind fun x => if x then b else .ok false

/-! ### Records -/

/-- A fact of a snapshot.  Its value is the text of the value, `none` for `None`. -/
structure ProvenancedValue where
  value : Option String
  unit : Option String
  asOfDate : Option DateTime
  sourceUrl : String
  sourceName : String
  publishedAt : Option DateTime
  retrievedAt : DateTime
  deriving DecidableEq, Repr

abbrev Facts := Dict String ProvenancedValue

/-- `StructuredMarketSnapshot`; `S` and `N` are the types of a statement fact and a news item. -/
structure StructuredMarketSnapshot (S N : Type) where
  provider : String
  providerTicker : String
  sourceUrl : String
  retrievedAt : DateTime
  marketAsOf : Option DateTime
  facts : Facts
  statementFacts : List S
  news : List N

structure StructuredMarketSnapshotRecord (S N : Type) where
  provider : String
  providerInstrumentId : String
  sourceUrl : String
  marketAsOf : Option DateTime
  retrievedAt : DateTime
  persistedAt : DateTime
  lastPriceAt : Option DateTime
  lastValuationAt : Option DateTime
  lastFundamentalsAt : Option DateTime
  lastAnalystAt : Option DateTime
  lastSuccessAt : Option DateTime
  snapshot : StructuredMarketSnapshot S N

variable {S N : Type}

/-! ### Persisting a collection -/

def valuationKeys : List String := ["trailingPE", "forwardPE", "priceToBook"]

def fundamentalsKeys : List String :=
  ["trailingEPS", "trailingEps", "roe", "roa", "roce", "sector", "industry"]

def isAnalystKey (key : String) : Bool := "publicAnalyst".toList.isPrefixOf key.toList

section

variable (decimal : String → Option ℚ)

/-- `_positive_decimal_fact`. -/
def positiveDecimalFact (fact : Option ProvenancedValue) : Option ℚ :=
  ((fact.bind ProvenancedValue.value).bind decimal).filter (0 < ·)

/-- A retained fact with its own date. -/
def ProvenancedValue.redated (marketAsOf : Option DateTime) (fact : ProvenancedValue) :
    ProvenancedValue :=
  { fact with
    asOfDate := ((fact.asOfDate.or marketAsOf).or fact.publishedAt).or (some fact.retrievedAt) }

/-- The facts of the record before that the collection leaves out. -/
def retained (previous : StructuredMarketSnapshotRecord S N) (facts : Facts) : Facts :=
  Dict.ofList Prod.fst (fun item => item.2.redated previous.marketAsOf)
    (previous.snapshot.facts.items.filter fun item => !facts.keys.contains item.1)

/-- `{**a, **b}`. -/
def merged (a b : Facts) : Facts := b.items.foldl (fun d item => d.set item.1 item.2) a

/-- `a or b` of two lists. -/
def firstNonEmpty {α : Type} (a b : List α) : List α := if a.isEmpty then b else a

/-- The record of a collection alone. -/
def fresh (snapshot : StructuredMarketSnapshot S N) (now : DateTime) :
    StructuredMarketSnapshotRecord S N where
  provider := snapshot.provider
  providerInstrumentId := snapshot.providerTicker
  sourceUrl := snapshot.sourceUrl
  marketAsOf := snapshot.marketAsOf
  retrievedAt := snapshot.retrievedAt
  persistedAt := now
  lastPriceAt := if (positiveDecimalFact decimal (snapshot.facts.get? "latestPrice")).isSome then
    snapshot.marketAsOf else none
  lastValuationAt := if valuationKeys.any fun key => snapshot.facts.keys.contains key then
    some snapshot.retrievedAt else none
  lastFundamentalsAt := if fundamentalsKeys.any fun key => snapshot.facts.keys.contains key then
    some snapshot.retrievedAt else none
  lastAnalystAt := if snapshot.facts.keys.any isAnalystKey then some snapshot.retrievedAt else none
  lastSuccessAt := some now
  snapshot

/-- `_persist_structured_snapshot`: the record that is stored. -/
def persistStructuredSnapshot (previous : Option (StructuredMarketSnapshotRecord S N))
    (snapshot : StructuredMarketSnapshot S N) (now : DateTime) :
    StructuredMarketSnapshotRecord S N :=
  let record := fresh decimal snapshot now
  match previous with
  | none => record
  | some previous =>
      { record with
        lastPriceAt := record.lastPriceAt.or previous.lastPriceAt
        lastValuationAt := record.lastValuationAt.or previous.lastValuationAt
        lastFundamentalsAt := record.lastFundamentalsAt.or previous.lastFundamentalsAt
        lastAnalystAt := record.lastAnalystAt.or previous.lastAnalystAt
        snapshot := { snapshot with
          facts := merged (retained previous snapshot.facts) snapshot.facts
          statementFacts := firstNonEmpty snapshot.statementFacts previous.snapshot.statementFacts
          news := firstNonEmpty snapshot.news previous.snapshot.news } }

end

/-! ### The market calendar -/

/-- An exchange: its calendar rows and how texts and zone names are read.  An offset from UTC is
less than a day. -/
structure Exchange where
  upper : String → String
  zoneInfo : String → Option Zone
  zone_lt : ∀ name zone, zoneInfo name = some zone → |zone| < dayLength
  market : String
  schedules : List MarketTradingSchedule
  exceptions : List MarketCalendarException

/-- `_session_bounds`, which raises where a bound leaves the calendar. -/
def Exchange.bounds (e : Exchange) (day : Date) : Except Raised (Option (Instant × Instant)) :=
  match sessionBounds e.upper e.zoneInfo e.market e.schedules e.exceptions day with
  | none => .ok none
  | some (opening, closing) =>
      if InCalendar opening ∧ InCalendar closing then .ok (some (opening, closing))
      else .error .overflowError

/-- A date, where there is one. -/
def dateOrRaise (day : Date) : Except Raised Date :=
  if firstDate ≤ day ∧ day ≤ lastDate then .ok day else .error .overflowError

/-- `for offset in ..: .. return`. -/
def firstFound {α : Type} (step : Nat → Except Raised (Option α)) :
    List Nat → Except Raised (Option α)
  | [] => .ok none
  | offset :: rest => (step offset).bind fun found =>
      match found with
      | some a => .ok (some a)
      | none => firstFound step rest

/-- `latest_completed_session`. -/
def Exchange.latestCompletedSession (e : Exchange) (at' : DateTime) :
    Except Raised (Option Instant) :=
  firstFound (fun offset =>
    (dateOrRaise (at'.face / dayLength - (offset : Nat))).bind fun day =>
      (e.bounds day).bind fun found =>
        match found with
        | none => .ok none
        | some (_, closing) =>
            (DateTime.before at' ⟨closing, some 0⟩).map fun later =>
              if later then none else some closing) (List.range 15)

/-- `next_session_open`. -/
def Exchange.nextSessionOpen (e : Exchange) (after : Instant) : Except Raised (Option Instant) :=
  firstFound (fun offset =>
    (dateOrRaise (after / dayLength + (offset : Nat))).bind fun day =>
      (e.bounds day).map fun found =>
        found.bind fun (opening, _) => if after < opening then some opening else none)
    (List.range 15)

/-- A quarter of an hour. -/
def quarterHour : Int := 900000000

/-- `price_session_valid_until`. -/
def Exchange.priceSessionValidUntil (e : Exchange) (observed : DateTime) :
    Except Raised (Option Instant) :=
  if ¬ InCalendar (observed.face + quarterHour) then .error .overflowError
  else
    (e.latestCompletedSession { observed with instant := observed.instant + quarterHour }).bind
      fun session =>
        match session with
        | none => .ok none
        | some session =>
            (DateTime.minus ⟨session, some 0⟩ observed).bind fun distance =>
              if quarterHour < |distance| then .ok none else e.nextSessionOpen session

/-! ### What is due -/

inductive DataClass
  | price | valuation | fundamentals | analyst
  deriving DecidableEq, Repr

/-- The freshness settings, in seconds. -/
structure Settings where
  structuredMarketPriceFreshnessSeconds : Int
  structuredValuationFreshnessSeconds : Int
  structuredFundamentalsFreshnessSeconds : Int
  structuredAnalystFreshnessSeconds : Int
  deriving DecidableEq, Repr

/-- `class_due`. -/
def classDue (lastAt : Option DateTime) (ttlSeconds : Int) (now : DateTime) :
    Except Raised Bool :=
  match lastAt with
  | none => .ok true
  | some lastAt => (now.minus lastAt).map fun age => decide (ttlSeconds * 1000000 ≤ age)

/-- `min` of a list, and `none` of the empty one. -/
def earliest : List DateTime → Except Raised (Option DateTime)
  | [] => .ok none
  | first :: rest =>
      (rest.foldlM (fun (best d : DateTime) =>
        (d.before best).map fun less => if less then d else best) first).map some

/-- A date in the future or too old. -/
def dated (stamp : DateTime) (ttl : Int) (now : DateTime) : Except Raised Bool :=
  orElse (now.before stamp) (classDue (some stamp) ttl now)

/-- `value.as_of_date or value.retrieved_at`. -/
def ProvenancedValue.effective (fact : ProvenancedValue) : DateTime :=
  fact.asOfDate.getD fact.retrievedAt

/-- `any` of a test that may raise. -/
def anyDue (ttl : Int) (now : DateTime) : List ProvenancedValue → Except Raised Bool
  | [] => .ok false
  | fact :: rest => orElse (dated fact.effective ttl now) (anyDue ttl now rest)

/-- The keys of a class among the facts. -/
def classKeys (facts : Facts) : DataClass → List String
  | .price => ["latestPrice"]
  | .valuation => valuationKeys
  | .fundamentals => fundamentalsKeys
  | .analyst => facts.keys.filter isAnalystKey

/-- The facts of a class that have a value. -/
def classValues (facts : Facts) (c : DataClass) : List ProvenancedValue :=
  ((classKeys facts c).filterMap facts.get?).filter fun fact => fact.value.isSome

section

variable (decimal : String → Option ℚ) (settings : Settings) (exchange : Exchange)

def priceDue (record : StructuredMarketSnapshotRecord S N) (now : DateTime) :
    Except Raised Bool :=
  let price := record.snapshot.facts.get? "latestPrice"
  (earliest (record.lastPriceAt.toList ++ (price.bind ProvenancedValue.asOfDate).toList ++
      record.snapshot.marketAsOf.toList)).bind fun stamp =>
    match stamp with
    | none => .ok true
    | some stamp =>
        (exchange.priceSessionValidUntil stamp).bind fun validUntil =>
          if (positiveDecimalFact decimal price).isNone then .ok true
          else
            let usable : Except Raised Bool := match validUntil with
              | none => .ok false
              | some limit => andThen ((now.before stamp).map not) (now.before ⟨limit, some 0⟩)
            orElse (now.before stamp) (andThen (usable.map not)
              (classDue (some stamp) settings.structuredMarketPriceFreshnessSeconds now))

/-- The test of the three other classes, one turn of the loop. -/
def factsDue (record : StructuredMarketSnapshotRecord S N) (c : DataClass)
    (stamp : Option DateTime) (ttl : Int) (now : DateTime) : Except Raised Bool :=
  let values := classValues record.snapshot.facts c
  if values.isEmpty then .ok true
  else
    match stamp with
    | none => .ok true
    | some stamp => orElse (dated stamp ttl now) (anyDue ttl now values)

/-- The stamp and the lifetime of a class. -/
def StructuredMarketSnapshotRecord.stampOf (record : StructuredMarketSnapshotRecord S N) :
    DataClass → Option DateTime
  | .price => record.lastPriceAt
  | .valuation => record.lastValuationAt
  | .fundamentals => record.lastFundamentalsAt
  | .analyst => record.lastAnalystAt

def Settings.ttl (settings : Settings) : DataClass → Int
  | .price => settings.structuredMarketPriceFreshnessSeconds
  | .valuation => settings.structuredValuationFreshnessSeconds
  | .fundamentals => settings.structuredFundamentalsFreshnessSeconds
  | .analyst => settings.structuredAnalystFreshnessSeconds

/-- One class of `_requested_structured_due_classes`. -/
def requestedDue (record : StructuredMarketSnapshotRecord S N) (now : DateTime) (c : DataClass) :
    Except Raised Bool :=
  match c with
  | .price => priceDue decimal settings exchange record now
  | c => factsDue record c (record.stampOf c) (settings.ttl c) now

/-- The loop over the classes: the requested ones that are due. -/
def collectDue (test : DataClass → Except Raised Bool) (requested : List DataClass) :
    List DataClass → Except Raised (List DataClass)
  | [] => .ok []
  | c :: rest =>
      if requested.contains c then
        (test c).bind fun due => (collectDue test requested rest).map fun later =>
          if due then c :: later else later
      else collectDue test requested rest

def dataClasses : List DataClass := [.price, .valuation, .fundamentals, .analyst]

/-- `_requested_structured_due_classes`. -/
def requestedStructuredDueClasses (record : Option (StructuredMarketSnapshotRecord S N))
    (requested : List DataClass) (now : DateTime) (baselineOnly : Bool) :
    Except Raised (List DataClass) :=
  match record.filter fun r => r.lastSuccessAt.isSome with
  | none => .ok requested
  | some record =>
      (collectDue (requestedDue decimal settings exchange record now) requested dataClasses).map
        fun due =>
          if requested.contains .fundamentals && !baselineOnly &&
              record.snapshot.statementFacts.isEmpty then
            due.insert .fundamentals
          else due

/-- One class of `_structured_due_classes`; without a date of its own the last success counts. -/
def automaticDue (marketOpen : Bool) (record : StructuredMarketSnapshotRecord S N)
    (now : DateTime) (c : DataClass) : Except Raised Bool :=
  match c with
  | .price => if marketOpen then classDue record.lastPriceAt (settings.ttl .price) now
      else .ok false
  | c => classDue ((record.stampOf c).or record.lastSuccessAt) (settings.ttl c) now

/-- `_structured_due_classes`. -/
def structuredDueClasses (record : Option (StructuredMarketSnapshotRecord S N))
    (marketOpen : Bool) (now : DateTime) : Except Raised (List DataClass) :=
  match record.filter fun r => r.lastSuccessAt.isSome with
  | none => .ok dataClasses
  | some record => collectDue (automaticDue settings marketOpen record now) dataClasses dataClasses

end

end InvestmentPlatform.Market.StructuredSnapshots
