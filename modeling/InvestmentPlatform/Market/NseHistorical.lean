/-
The official daily history of the NSE.

`NseHistoricalDailyProvider.fetch` never raises: whatever goes wrong becomes the reason of a result
without bars.  What the exchange answers is given, down to the cells of the table; the checks of a
row and the treatment of a date that comes twice are the code's.
-/
import InvestmentPlatform.Market.DailyBackfill

namespace InvestmentPlatform.Backfill

/-- A row of the table that is not blank, its texts in upper case; a cell that cannot be read has
no value. -/
structure CsvRow where
  wellFormed : Bool
  symbol : String
  series : String
  day : Option ℤ
  prices : Option (ℚ × ℚ × ℚ × ℚ)

/-- What makes a document unusable. -/
inductive Fault where
  | emptyResponse | nonCsvResponse | missingOrDuplicateHeaders | malformedCsv

def Fault.text : Fault → String
  | .emptyResponse => "EMPTY_RESPONSE"
  | .nonCsvResponse => "NON_CSV_RESPONSE"
  | .missingOrDuplicateHeaders => "MISSING_OR_DUPLICATE_HEADERS"
  | .malformedCsv => "MALFORMED_CSV"

/-- What becomes of the requests for a window, with the last status there was. -/
inductive Answer where
  | httpError (stage : String) (status : Nat)
  | timeout (stage : String) (status : Option Nat)
  | connectionFailure (stage : String) (status : Option Nat)
  | unavailable (stage : String) (status : Option Nat)
  /-- The rows before the fault were counted. -/
  | unusable (fault : Fault) (status rowsParsed rowsRejected : Nat)
  | table (status : Nat) (retrievedAt : ℤ) (rows : List CsvRow)

variable {K : Type}

/-- The instrument and the window that a table is read for. -/
structure Reading (K : Type) where
  key : K
  symbol : String
  currency : String
  series : String
  window : Window
  retrievedAt : ℤ

/-- The bar of a row that passes the checks. -/
def Reading.bar (r : Reading K) (row : CsvRow) : Option (DailyMarketBar K) :=
  if !row.wellFormed || row.symbol ≠ r.symbol || row.series ≠ r.series then none
  else
    match row.day with
    | none => none
    | some day =>
        if day < r.window.first ∨ r.window.last < day then none
        else
          row.prices.map fun (openPrice, high, low, close) =>
            ⟨r.key, day, some openPrice, some high, some low, some close, r.currency, "NSE",
              some r.symbol, .real, r.retrievedAt⟩

/-- The bars of the dates that come up once, in the order of the dates. -/
def Reading.bars (r : Reading K) (rows : List CsvRow) : List (DailyMarketBar K) :=
  let read := rows.filterMap r.bar
  (Selection.sortedSet (read.map DailyMarketBar.tradingDate)).filterMap fun day =>
    match read.filter fun b => b.tradingDate = day with
    | [bar] => some bar
    | _ => none

def withoutBars (reason : String) (httpStatus : Option Nat) (rowsParsed rowsRejected : Nat) :
    NseHistoricalResult K :=
  ⟨httpStatus, false, some reason, rowsParsed, rowsRejected, [], 0⟩

/-- `fetch`, for the instruments' trading series and what the exchange answers. -/
def nseFetch (identity : K → Except Raised (String × String)) (settings : Settings)
    (series : K → String) (answer : K → Window → Answer) (key : K) (w : Window) :
    NseHistoricalResult K :=
  if w.last - w.first + 1 > settings.requestWindowDays then
    withoutBars "REQUEST_WINDOW_EXCEEDED" none 0 0
  else
    match identity key with
    | .error exc =>
        withoutBars (if exc.isValueError then exc.text else "IDENTITY_UNAVAILABLE") none 0 0
    | .ok (symbol, currency) =>
        match answer key w with
        | .httpError stage status =>
            withoutBars (stage ++ "_HTTP_" ++ toString status) (some status) 0 0
        | .timeout stage status => withoutBars (stage ++ "_TIMEOUT") status 0 0
        | .connectionFailure stage status =>
            withoutBars (stage ++ "_CONNECTION_FAILURE") status 0 0
        | .unavailable stage status => withoutBars (stage ++ "_UNAVAILABLE") status 0 0
        | .unusable fault status rowsParsed rowsRejected =>
            withoutBars fault.text (some status) rowsParsed rowsRejected
        | .table status retrievedAt rows =>
            let bars := (Reading.mk key symbol currency (series key) w retrievedAt).bars rows
            if bars.isEmpty then
              withoutBars "NO_VALID_HISTORY" (some status) rows.length rows.length
            else
              ⟨some status, true, none, rows.length, rows.length - bars.length, bars, 0⟩

/-- The world in which the provider is that of the NSE. -/
def World.withNse (world : World K) (settings : Settings) (series : K → String)
    (answer : K → Window → Answer) : World K :=
  { world with fetch := fun key w => .ok (nseFetch world.identity settings series answer key w) }

end InvestmentPlatform.Backfill
