/-
The two readings of the market calendar in `app/market_sessions.py`.

`market_session_status` answers whether a market is open now; `_session_bounds` gives the
opening and the closing instant of a date, from which the freshness rules derive the last
completed and the next expected session.  Both start from the same schedule rows and the
same exception row of the date.

An instant is a number of microseconds since the epoch, a date a number of days since it, a
zone a fixed offset in microseconds.  `upper` is `str.upper` and `zoneInfo` the time zone
database, which knows some names and raises on the others.
-/
import Mathlib.Algebra.Order.Ring.Int

namespace InvestmentPlatform.Market

abbrev Instant := Int
abbrev Date := Int

/-- A day, in microseconds. -/
def dayLength : Int := 86400000000

/-- A `time`: microseconds since midnight. -/
structure TimeOfDay where
  micros : Int
  nonneg : 0 ≤ micros := by decide
  lt_day : micros < dayLength := by decide
  deriving DecidableEq, Repr

/-- `date.weekday`: the epoch was a Thursday, and Monday is 0. -/
def weekday (day : Date) : Int := (day + 3) % 7

/-- `MarketTradingSchedule`, without the country code, which nothing here reads. -/
structure MarketTradingSchedule where
  marketCode : String
  mic : Option String
  timezone : String
  tradingDay : Int
  regularOpenTime : TimeOfDay
  regularCloseTime : TimeOfDay
  enabled : Bool
  deriving DecidableEq, Repr

/-- The exception types the code names, and any other text. -/
inductive ExceptionType
  | closed | lateOpen | earlyClose | specialSession
  | other (text : String)
  deriving DecidableEq, Repr

/-- `MarketCalendarException`, without the reason text. -/
structure MarketCalendarException where
  marketCode : String
  tradingDate : Date
  exceptionType : ExceptionType
  openTime : Option TimeOfDay
  closeTime : Option TimeOfDay
  deriving DecidableEq, Repr

/-- There is an exception row, and it has the type. -/
def OfType (exception : Option MarketCalendarException) (type : ExceptionType) : Prop :=
  ∃ e, exception = some e ∧ e.exceptionType = type

instance (exception : Option MarketCalendarException) (type : ExceptionType) :
    Decidable (OfType exception type) :=
  inferInstanceAs (Decidable (∃ e, exception = some e ∧ e.exceptionType = type))

/-- What `market_session_status` answers. -/
inductive SessionStatus
  | unknown | holiday | closed | isOpen
  deriving DecidableEq, Repr

/-- A fixed-offset zone, by its offset. -/
abbrev Zone := Int

/-- The date and the time of day of an instant in a zone. -/
def localDate (zone : Zone) (now : Instant) : Date := (now + zone) / dayLength

def localTime (zone : Zone) (now : Instant) : TimeOfDay where
  micros := (now + zone) % dayLength
  nonneg := Int.emod_nonneg _ (by decide)
  lt_day := Int.emod_lt_of_pos _ (by decide)

/-- `datetime.combine(day, t, zone).astimezone(timezone.utc)`. -/
def combine (day : Date) (time : TimeOfDay) (zone : Zone) : Instant :=
  day * dayLength + time.micros - zone

section
variable (upper : String → String) (zoneInfo : String → Option Zone)

/-- The enabled schedule rows of a market, by its code or its MIC. -/
def applicable (market : String) (schedules : List MarketTradingSchedule) :
    List MarketTradingSchedule :=
  schedules.filter fun s => s.enabled ∧
    (upper s.marketCode = upper market ∨ upper (s.mic.getD "") = upper market)

/-- The first exception row of the market on the date. -/
def exceptionOn (first : MarketTradingSchedule) (exceptions : List MarketCalendarException)
    (day : Date) : Option MarketCalendarException :=
  exceptions.find? fun e => upper e.marketCode = upper first.marketCode ∧ e.tradingDate = day

/-- The first schedule row of the date's weekday. -/
def scheduleOn (matching : List MarketTradingSchedule) (day : Date) :
    Option MarketTradingSchedule :=
  matching.find? fun s => s.tradingDay = weekday day

/-- The opening and closing times `market_session_status` uses: the exception's own for the
bounds its type overrides, missing ones included, and the schedule's for the others. -/
def statusHours (schedule : Option MarketTradingSchedule)
    (exception : Option MarketCalendarException) : Option TimeOfDay × Option TimeOfDay :=
  let openTime := schedule.map MarketTradingSchedule.regularOpenTime
  let closeTime := schedule.map MarketTradingSchedule.regularCloseTime
  match exception with
  | none => (openTime, closeTime)
  | some e =>
      (if e.exceptionType = .lateOpen ∨ e.exceptionType = .specialSession then e.openTime
        else openTime,
       if e.exceptionType = .earlyClose ∨ e.exceptionType = .specialSession then e.closeTime
        else closeTime)

def marketSessionStatus (market : String) (schedules : List MarketTradingSchedule)
    (exceptions : List MarketCalendarException) (now : Instant) : SessionStatus :=
  match applicable upper market schedules with
  | [] => .unknown
  | first :: rest =>
      match zoneInfo first.timezone with
      | none => .unknown
      | some zone =>
          let day := localDate zone now
          let exception := exceptionOn upper first exceptions day
          let schedule := scheduleOn (first :: rest) day
          if OfType exception .closed then .holiday
          else if schedule = none ∧ ¬ OfType exception .specialSession then .closed
          else
            match statusHours schedule exception with
            | (some openTime, some closeTime) =>
                if openTime.micros ≤ (localTime zone now).micros ∧
                    (localTime zone now).micros < closeTime.micros then .isOpen
                else .closed
            | _ => .unknown

/-- The opening and closing times `_session_bounds` uses: any time the exception carries, else
the schedule's. -/
def boundHours (schedule : Option MarketTradingSchedule)
    (exception : Option MarketCalendarException) : Option TimeOfDay × Option TimeOfDay :=
  ((exception.bind MarketCalendarException.openTime).or
      (schedule.map MarketTradingSchedule.regularOpenTime),
    (exception.bind MarketCalendarException.closeTime).or
      (schedule.map MarketTradingSchedule.regularCloseTime))

def sessionBounds (market : String) (schedules : List MarketTradingSchedule)
    (exceptions : List MarketCalendarException) (day : Date) : Option (Instant × Instant) :=
  match applicable upper market schedules with
  | [] => none
  | first :: rest =>
      let exception := exceptionOn upper first exceptions day
      if OfType exception .closed then none
      else if ∃ e, exception = some e ∧ e.exceptionType = .specialSession ∧
          (e.openTime = none ∨ e.closeTime = none) then none
      else
        let schedule := scheduleOn (first :: rest) day
        if schedule = none ∧ ¬ OfType exception .specialSession then none
        else
          match boundHours schedule exception with
          | (some opening, some closing) =>
              match zoneInfo first.timezone with
              | none => none
              | some zone => some (combine day opening zone, combine day closing zone)
          | _ => none

end

/-- `latest_completed_session`, over the bounds of each date: the close of the latest of the last
fifteen dates that has closed. -/
def latestCompletedSession (bounds : Date → Option (Instant × Instant)) (at' : Instant) :
    Option Instant :=
  (List.range 15).findSome? fun offset =>
    match bounds (at' / dayLength - (offset : Nat)) with
    | some (_, closing) => if closing ≤ at' then some closing else none
    | none => none

/-- `next_session_open`: the earliest of fifteen dates whose session opens later. -/
def nextSessionOpen (bounds : Date → Option (Instant × Instant)) (after : Instant) :
    Option Instant :=
  (List.range 15).findSome? fun offset =>
    match bounds (after / dayLength + (offset : Nat)) with
    | some (opening, _) => if after < opening then some opening else none
    | none => none

/-- `next_session_close`. -/
def nextSessionClose (bounds : Date → Option (Instant × Instant)) (after : Instant) :
    Option Instant :=
  (List.range 16).findSome? fun offset =>
    match bounds (after / dayLength + (offset : Nat)) with
    | some (_, closing) => if after < closing then some closing else none
    | none => none

theorem le_of_latestCompletedSession {bounds : Date → Option (Instant × Instant)}
    {at' closing : Instant} (h : latestCompletedSession bounds at' = some closing) :
    closing ≤ at' := by
  obtain ⟨offset, -, hoffset⟩ := List.exists_of_findSome?_eq_some h
  split at hoffset
  · split at hoffset
    · rename_i hle
      cases hoffset
      exact hle
    · cases hoffset
  · cases hoffset

end InvestmentPlatform.Market
