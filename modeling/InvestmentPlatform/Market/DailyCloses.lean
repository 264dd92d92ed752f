/-
The validated daily closes of `app/session_history.py`.

A row is dated, by the UTC midnight or the local midnight it is stamped with; the rows of a date
come down to one close, if the providers agree; and the dates are held against the sessions of the
calendar.

An aware time is its instant and a naive one is none; years have no bound here.  A price is its
value, none where it is not finite.
-/
import InvestmentPlatform.Lib.Selection
import InvestmentPlatform.Lib.UrlText
import InvestmentPlatform.Market.History
import Mathlib.Data.Prod.Lex
import Mathlib.Data.String.Basic

namespace InvestmentPlatform.Market

open UrlText (Text urlparse parseQs)

/-- The library functions on texts. -/
structure TextLibrary where
  unicode : UrlText.Unicode
  unquote : Text → Text
  /-- `str.upper` and `str.lower` -/
  upper : String → String
  lower : String → String

/-! ### The calendar, in zones whose offset changes -/

/-- `ZoneInfo`: the wall clock at an instant, in microseconds, and the instant of a wall time. -/
structure ZoneInfo where
  wall : Instant → Int
  combine : Date → TimeOfDay → Instant

/-- What the calendar functions read, and the libraries they use. -/
structure Calendar where
  library : TextLibrary
  /-- `ZoneInfo(name)`, none where it raises. -/
  zoneInfo : String → Option ZoneInfo
  market : String
  schedules : List MarketTradingSchedule
  exceptions : List MarketCalendarException

namespace Calendar

variable (calendar : Calendar)

/-- The enabled rows of the market. -/
def rows : List MarketTradingSchedule :=
  applicable calendar.library.upper calendar.market calendar.schedules

/-- The zone of the first of them. -/
def zone : Option ZoneInfo :=
  calendar.rows.head?.bind fun first => calendar.zoneInfo first.timezone

/-- `session_bounds` -/
def sessionBounds (day : Date) : Option (Instant × Instant) :=
  match calendar.rows with
  | [] => none
  | first :: rest =>
      let exception := exceptionOn calendar.library.upper first calendar.exceptions day
      if OfType exception .closed then none
      else if ∃ e, exception = some e ∧ e.exceptionType = .specialSession ∧
          (e.openTime = none ∨ e.closeTime = none) then none
      else
        let schedule := scheduleOn (first :: rest) day
        if schedule = none ∧ ¬ OfType exception .specialSession then none
        else
          match boundHours schedule exception with
          | (some opening, some closing) =>
              (calendar.zoneInfo first.timezone).map fun zone =>
                (zone.combine day opening, zone.combine day closing)
          | _ => none

/-- `unresolved_session_dates` -/
def unresolvedSessionDates (start : Date) (asOf : Instant) : List Date :=
  match calendar.rows, calendar.zone with
  | first :: _, some zone =>
      ((calendar.exceptions.filter fun e =>
        calendar.library.upper e.marketCode = calendar.library.upper first.marketCode ∧
          e.exceptionType = .specialSession ∧ (e.openTime = none ∨ e.closeTime = none) ∧
          start ≤ e.tradingDate ∧ e.tradingDate ≤ zone.wall asOf / dayLength).map
        MarketCalendarException.tradingDate).insertionSort (· ≤ ·)
  | _, _ => []

end Calendar

/-! ### One row -/

structure MarketPriceObservation where
  instrumentId : Nat
  observedAt : Option Instant
  price : Option ℚ
  currency : Option String
  provider : String
  sourceUrl : String
  retrievedAt : Option Instant
  deriving DecidableEq, Repr

/-- The values of a flag in the fragment, or else in the query. -/
def flagValues (library : TextLibrary) (url : UrlText.Url) (key : String) : List Text :=
  let values := fun qs =>
    ((parseQs library.unquote qs).filter fun field => field.1 = key.toList).map Prod.snd
  if values url.fragment = [] then values url.query else values url.fragment

/-- `history_symbol`: `none` where it raises, `some none` where it returns `None`. -/
def historySymbol (library : TextLibrary) (row : MarketPriceObservation) : Option (Option Text) :=
  (urlparse library.unicode row.sourceUrl.toList).map fun parsed =>
    match ((parsed.path.splitOn '/').filter (· ≠ [])).map library.unquote with
    | [quote, symbol, history] =>
        if ¬ (row.provider = "YAHOO_FINANCE" ∨ row.provider = "YAHOO_FINANCE_MCP") ∨
            parsed.scheme ≠ "https".toList ∨
            parsed.hostname library.unicode ≠ some "finance.yahoo.com".toList ∨
            quote ≠ "quote".toList ∨ history ≠ "history".toList then none
        else if ["auto_adjust", "adjusted", "adjustment"].any fun key =>
            (flagValues library parsed key).any fun value => library.lower (String.ofList value) ∉
              ["false", "0", "unadjusted"] then none
        else if flagValues library parsed "interval" ≠ [] ∧
            flagValues library parsed "interval" ≠ ["1d".toList] then none
        else some (library.upper (String.ofList symbol)).toList
    | _ => none

/-- The arguments beside the rows, the calendar and `as_of`. -/
structure ClosesRequest where
  instrumentId : Nat
  currency : Option String
  providerSymbol : Option String
  trustedProviders : Option (List String)

variable (calendar : Calendar) (request : ClosesRequest)

/-- The first check of a row: none where it is rejected, else when it was observed and
retrieved. -/
def admitted (asOf : Instant) (symbol : Option Text) (row : MarketPriceObservation) :
    Option (Instant × Instant) :=
  match symbol, request.currency, row.observedAt, row.retrievedAt, row.price with
  | some symbol, some currency, some observed, some retrieved, some price =>
      if row.instrumentId ≠ request.instrumentId ∨ symbol = [] ∨ currency = "" ∨
          row.currency ≠ some currency ∨
          request.trustedProviders.any (fun trusted => row.provider ∉ trusted) ∨
          request.providerSymbol.any (fun wanted =>
            wanted ≠ "" ∧ symbol ≠ (calendar.library.upper wanted).toList) ∨
          (calendar.library.upper calendar.market ∈ ["NSE", "XNSE"] ∧ ¬ ".NS".toList <:+ symbol) ∨
          row.provider ∉ ["YAHOO_FINANCE", "NSE", "YAHOO_FINANCE_MCP"] ∨
          asOf < observed ∨ asOf < retrieved ∨ price ≤ 0 then none
      else some (observed, retrieved)
  | _, _, _, _, _ => none

/-- Midnight. -/
def isMidnight (wall : Int) : Prop := wall % dayLength = 0

instance (wall : Int) : Decidable (isMidnight wall) := inferInstanceAs (Decidable (_ = _))

/-- The date that an admitted row is of, and none where it is not a close of its session. -/
def sessionDay (zone : ZoneInfo) (asOf observed retrieved : Instant) : Option Date :=
  let wall := zone.wall observed
  let day := if isMidnight observed then observed / dayLength else wall / dayLength
  match calendar.sessionBounds day with
  | none => none
  | some (_, closing) =>
      if asOf < closing ∨ retrieved < closing ∨
          (¬ (isMidnight observed ∨ isMidnight wall) ∧ 60000000 < |observed - closing|) then none
      else some day

/-- One turn of the first loop: `none` where it raises, else the row with its date, if it is not
rejected. -/
def sift (zone : ZoneInfo) (asOf : Instant) (row : MarketPriceObservation) :
    Option (MarketPriceObservation × Option Date) :=
  (historySymbol calendar.library row).map fun symbol =>
    (row, (admitted calendar request asOf symbol row).bind fun times =>
      sessionDay calendar zone asOf times.1 times.2)

/-! ### The rows of a date -/

/-- The newest retrievals of each provider. -/
def currentRows (rows : List MarketPriceObservation) : List MarketPriceObservation :=
  (Selection.groupOn MarketPriceObservation.provider rows).flatMap fun values =>
    values.filter fun row =>
      row.retrievedAt = (values.filterMap MarketPriceObservation.retrievedAt).max?

/-- What the rows of a date come down to, none where the providers disagree. -/
def chosenRow (rows : List MarketPriceObservation) : Option MarketPriceObservation :=
  let current := currentRows rows
  if (current.map MarketPriceObservation.price).dedup.length = 1 then
    Selection.firstMin (fun row => toLex (row.provider, row.sourceUrl)) current
  else none

/-! ### The history -/

structure SessionHistory where
  observations : List MarketPriceObservation
  conflictingDates : List Date
  currentConflict : Bool
  rejectedCount : Nat
  duplicateCount : Nat
  sessionDates : List Date
  missingDates : List Date
  validUntil : Option Instant
  deriving DecidableEq, Repr

/-- `SessionHistory(rejected_count=n)` -/
def SessionHistory.rejecting (n : Nat) : SessionHistory := ⟨[], [], false, n, 0, [], [], none⟩

/-- The rows of a date, in the order of the loop. -/
def rowsOn (grouped : List (Date × MarketPriceObservation)) (day : Date) :
    List MarketPriceObservation :=
  (grouped.filter fun entry => entry.1 = day).map Prod.snd

/-- The close of a date, as it is put out. -/
def closeOn (grouped : List (Date × MarketPriceObservation)) (day : Date) :
    Option MarketPriceObservation :=
  (chosenRow (rowsOn grouped day)).bind fun chosen =>
    (calendar.sessionBounds day).map fun bounds => { chosen with observedAt := some bounds.2 }

/-- What follows the first loop. -/
def historyOf (asOf : Instant) (grouped : List (Date × MarketPriceObservation)) (rejected : Nat) :
    SessionHistory :=
  let days := Selection.sortedSet (grouped.map Prod.fst)
  let conflicts := days.filter fun day => chosenRow (rowsOn grouped day) = none
  let dates := days.filter fun day => chosenRow (rowsOn grouped day) ≠ none
  let output := days.filterMap (closeOn calendar grouped)
  { observations := output
    conflictingDates := conflicts
    currentConflict := days.getLast?.any fun last => last ∈ conflicts
    rejectedCount := rejected
    duplicateCount := days.foldl (fun n day => n + ((rowsOn grouped day).length - 1)) 0
    sessionDates := dates
    missingDates :=
      match days.head?, days.getLast? with
      | some first, some last =>
          let expected := completedSessions calendar.sessionBounds first last asOf
          Selection.sortedSet ((expected.map Prod.fst).filter (· ∉ dates) ++
            calendar.unresolvedSessionDates first asOf)
      | _, _ => []
    validUntil := (output.getLast?.bind MarketPriceObservation.observedAt).bind
      (nextSessionClose calendar.sessionBounds) }

/-- `validate_daily_closes`; `none` where it raises. -/
def validateDailyCloses (asOf : Option Instant) (observations : List MarketPriceObservation) :
    Option SessionHistory :=
  match asOf, calendar.zone with
  | some asOf, some zone => do
      let sifted ← observations.mapM (sift calendar request zone asOf)
      let grouped := sifted.filterMap fun entry => entry.2.map fun day => (day, entry.1)
      return historyOf calendar asOf grouped (sifted.countP fun entry => entry.2 = none)
  | _, _ => some (.rejecting observations.length)

end InvestmentPlatform.Market
