/-
The top-up of the daily history of ETFs, `_ensure_etf_historical_coverage` of
`app/etf_opportunity_cycle.py`, with `usable_close_series` of `app/etf_metrics.py`.

A date is the number of its day.  What the exchange offers, what becomes of a request, and whether
a read of the store answers, are given with the row that is visited; what is stored, asked for and
reported is the code's.
-/
import InvestmentPlatform.Lib.Dict
import InvestmentPlatform.Lib.Selection
import Mathlib.Algebra.Order.Ring.Rat
import Mathlib.Data.Prod.Lex
import Mathlib.Data.String.Basic

namespace InvestmentPlatform.Etf.HistoricalCoverage

open Selection

def etfHistoryRequiredSessions : ℕ := 200

def etfHistoryMaxWindowsPerCycle : ℕ := 3

def etfHistoryMaxStaleDays : ℤ := 5

/-! ### The store -/

/-- The closes of the bars of an instrument, by date and provider. -/
abbrev Stored := Dict (ℤ ×ₗ String) (Option ℚ)

structure Bar where
  tradingDate : ℤ
  close : Option ℚ

/-- The rows in the order of their dates and providers. -/
def loadDailyMarketBars (stored : Stored) : List Bar :=
  (sortOn Prod.fst stored.items).map fun item => ⟨(ofLex item.1).1, item.2⟩

/-- A bar that the exchange offers; its close was checked when it was parsed. -/
structure Offer where
  tradingDate : ℤ
  close : ℚ
  close_pos : 0 < close

def upsertDailyMarketBars (stored : Stored) (bars : List Offer) : Stored :=
  bars.foldl (fun stored bar => stored.set (toLex (bar.tradingDate, "NSE")) (some bar.close)) stored

def usableCloseSeries (bars : List Bar) : List (ℤ × ℚ) :=
  let usable := bars.filterMap fun bar =>
    (bar.close.filter (0 < ·)).map fun close => (bar.tradingDate, close)
  sortOn Prod.fst (Dict.ofList Prod.fst Prod.snd usable).items

/-- `is_covered` -/
def isCovered (usable : List (ℤ × ℚ)) (today : ℤ) : Bool :=
  decide (etfHistoryRequiredSessions ≤ usable.length) &&
    usable.getLast?.any fun newest => today - newest.1 ≤ etfHistoryMaxStaleDays

/-! ### A visit -/

/-- What becomes of a request. -/
inductive Reply
  /-- The bars that are offered in the window are stored. -/
  | offered
  /-- Another failure of the result. -/
  | failed (reason : String)
  /-- An exception or the timeout, before or after the bars are stored. -/
  | raised (exception : String) (persisted : Bool)
  | timeout (persisted : Bool)

/-- What becomes of a read after a request. -/
inductive Read
  | ok
  | raised (exception : String)
  | timeout

/-- A turn of the loop: what is offered by then, and what becomes of the turn. -/
structure Turn where
  offers : List Offer
  reply : Reply
  read : Read

/-- The visit of a row.  A read that fails has the name of its exception. -/
structure Visit where
  today : ℤ
  firstRead : Option String
  turns : ℕ → Turn
  lastRead : Option String

/-- A request, and what is stored when it is made. -/
structure Request where
  first : ℤ
  last : ℤ
  held : Stored

inductive Ending
  | finished
  | timedOut
  | raised (exception : String)
  deriving DecidableEq

/-- What the loop leaves. -/
structure Pass where
  stored : Stored
  requests : List Request
  technicalFailure : Option String
  ending : Ending

/-- `day + timedelta(days=n)`, which raises where there is no such date. -/
def addDays (day n : ℤ) : Option ℤ := if 1 ≤ day + n ∧ day + n ≤ 3652059 then some (day + n) else none

/-- The window that is asked for next: after the newest usable bar once there are enough of them,
and before the oldest until then. -/
def nextWindow (windowDays : ℕ) (today : ℤ) (usable : List (ℤ × ℚ)) : Option (ℤ × ℤ) :=
  if etfHistoryRequiredSessions ≤ usable.length then
    usable.getLast?.bind fun newest => (addDays newest.1 1).bind fun first =>
      (addDays first (windowDays - 1)).map fun last => (first, min today last)
  else
    let last := match usable.head? with
      | some oldest => addDays oldest.1 (-1)
      | none => some today
    last.bind fun last => (addDays last (-(windowDays - 1))).map fun first => (first, last)

/-- The bars of a window. -/
def offersIn (offers : List Offer) (first last : ℤ) : List Offer :=
  offers.filter fun bar => first ≤ bar.tradingDate ∧ bar.tradingDate ≤ last

/-- `run_windows`, with so many windows left. -/
def runWindows (windowDays : ℕ) (today : ℤ) (turns : ℕ → Turn) :
    ℕ → ℕ → Stored → List (ℤ × ℚ) → Pass
  | 0, _, stored, _ => ⟨stored, [], none, .finished⟩
  | left + 1, used, stored, usable =>
    match nextWindow windowDays today usable with
    | none => ⟨stored, [], none, .raised "OverflowError"⟩
    | some (first, last) =>
      if last < first then ⟨stored, [], none, .finished⟩
      else
        let request : Request := ⟨first, last, stored⟩
        let answer := offersIn (turns used).offers first last
        let persisted := upsertDailyMarketBars stored answer
        match (turns used).reply with
        | .raised exception kept =>
          ⟨if kept then persisted else stored, [request], none, .raised exception⟩
        | .timeout kept => ⟨if kept then persisted else stored, [request], none, .timedOut⟩
        | .failed reason => ⟨stored, [request], some reason, .finished⟩
        | .offered =>
          if answer.isEmpty then ⟨stored, [request], some "NO_VALID_HISTORY", .finished⟩
          else
            match (turns used).read with
            | .raised exception => ⟨persisted, [request], none, .raised exception⟩
            | .timeout => ⟨persisted, [request], none, .timedOut⟩
            | .ok =>
              let usable := usableCloseSeries (loadDailyMarketBars persisted)
              if isCovered usable today then ⟨persisted, [request], none, .finished⟩
              else
                let rest := runWindows windowDays today turns left (used + 1) persisted usable
                { rest with requests := request :: rest.requests }

/-- What a visit leaves: the bars, the requests and the failure that is reported. -/
structure Outcome where
  stored : Stored
  requests : List Request
  failure : Option String

def unavailable (exception : String) : String := "COVERAGE_ENSURE_UNAVAILABLE:" ++ exception

/-- The body of the loop over the rows. -/
def visitInstrument (windowDays : ℕ) (visit : Visit) (stored : Stored) : Outcome :=
  match visit.firstRead with
  | some exception => ⟨stored, [], some (unavailable exception)⟩
  | none =>
    let usable := usableCloseSeries (loadDailyMarketBars stored)
    if isCovered usable visit.today then ⟨stored, [], none⟩
    else
      let pass := runWindows windowDays visit.today visit.turns etfHistoryMaxWindowsPerCycle 0
        stored usable
      match pass.ending, visit.lastRead with
      | .raised exception, _ => ⟨pass.stored, pass.requests, some (unavailable exception)⟩
      | _, some exception => ⟨pass.stored, pass.requests, some (unavailable exception)⟩
      | ending, none =>
        let technicalFailure :=
          if ending = .timedOut then some "HISTORICAL_ACQUISITION_TIMEOUT"
          else pass.technicalFailure
        let usable := usableCloseSeries (loadDailyMarketBars pass.stored)
        ⟨pass.stored, pass.requests,
          if isCovered usable visit.today then none
          else technicalFailure.filter fun failure => failure ≠ "" ∧ failure ≠ "NO_VALID_HISTORY"⟩

/-! ### The rows -/

variable {K : Type} [DecidableEq K]

/-- A row with its visit; the key is missing where it is no UUID. -/
structure Row (K : Type) where
  assetType : Option String
  globalInstrumentId : Option K
  visit : Visit

structure Coverage (K : Type) where
  stored : K → Stored
  requests : List (K × Request)
  failures : Dict K String

/-- The instrument whose history a row asks for. -/
def Row.instrument (row : Row K) : Option K :=
  if row.assetType = some "ETF" then row.globalInstrumentId else none

def visitRow (windowDays : ℕ) (s : Coverage K) (row : Row K) : Coverage K :=
  match row.instrument with
  | none => s
  | some key =>
    let outcome := visitInstrument windowDays row.visit (s.stored key)
    { stored := Function.update s.stored key outcome.stored
      requests := s.requests ++ outcome.requests.map fun request => (key, request)
      failures := match outcome.failure with
        | none => s.failures
        | some failure => s.failures.set key failure }

/-- `_ensure_etf_historical_coverage` -/
def ensureEtfHistoricalCoverage (windowDays : ℕ) (rows : List (Row K)) (stored : K → Stored) :
    Coverage K :=
  rows.foldl (visitRow windowDays) ⟨stored, [], Dict.empty⟩

end InvestmentPlatform.Etf.HistoricalCoverage
