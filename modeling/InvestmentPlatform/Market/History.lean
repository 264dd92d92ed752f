/-
The dates of a price history that are still to be fetched, `app/session_history.py`.

The completed sessions of a market are gone through in the order of their dates; a run of missing
ones goes on over the days between them and ends where a session is there.
-/
import InvestmentPlatform.Lib.PyFloat
import InvestmentPlatform.Market.Sessions

namespace InvestmentPlatform.Market

/-- `completed_sessions`, with `session_bounds` of the market; `last` is inclusive. -/
def completedSessions (bounds : Date → Option (Instant × Instant)) (start last : Date)
    (asOf : Instant) : List (Date × Instant) :=
  (List.range (last + 1 - start).toNat).filterMap fun offset =>
    match bounds (start + (offset : Nat)) with
    | some (_, closing) => if closing ≤ asOf then some (start + (offset : Nat), closing) else none
    | none => none

/-- The ranges so far, and the first and the last date of the run that is not flushed yet. -/
structure Runs where
  ranges : List (Date × Date)
  run : Option (Date × Date)
  deriving DecidableEq, Repr

/-- One session of the loop. -/
def Runs.visit (existing : List Date) (runs : Runs) (day : Date) : Runs :=
  if day ∈ existing then
    match runs.run with
    | some (first, last) => ⟨runs.ranges ++ [(first, last + 1)], none⟩
    | none => runs
  else
    match runs.run with
    | some (first, _) => ⟨runs.ranges, some (first, day)⟩
    | none => ⟨runs.ranges, some (day, day)⟩

/-- The flush after the loop. -/
def Runs.flush (runs : Runs) : List (Date × Date) :=
  match runs.run with
  | some (first, last) => runs.ranges ++ [(first, last + 1)]
  | none => runs.ranges

/-- `start`, not before the listing. -/
def historyStart (start : Date) (listingDate : Option Date) : Date :=
  match listingDate with
  | some listed => max start listed
  | none => start

/-- `missing_history_ranges`; `bounds` is `session_bounds` of the market, `utcoffset` that of
`as_of`. -/
def missingHistoryRanges (existingDates : List Date)
    (bounds : Date → Option (Instant × Instant)) (start : Date) (asOf : Instant) (utcoffset : Zone)
    (listingDate : Option Date) : List (Date × Date) :=
  let sessions :=
    completedSessions bounds (historyStart start listingDate) (localDate utcoffset asOf) asOf
  ((sessions.map Prod.fst).foldl (Runs.visit existingDates) ⟨[], none⟩).flush

end InvestmentPlatform.Market

/-!
The screen for single implausible prices of `app/technical_features.py`.

A price is a float, and so is the ratio of two.  The exponent of a float is unbounded here: a
ratio that overflows or underflows is on the same side of every bound as the exact one.
-/

namespace InvestmentPlatform.Market

/-- `a / b` of two positive floats. -/
def ratio (a b : ℚ) : ℚ := nearestDouble (a / b)

def implausibleSingleDayRatio : ℚ := 2

def reversionTolerance : ℚ := nearestDouble (115 / 100)

/-- The price deviates from the one before by more than an ordinary day can. -/
def deviates (prior current : ℚ) : Bool :=
  implausibleSingleDayRatio < ratio current prior ||
    ratio current prior < ratio 1 implausibleSingleDayRatio

/-- The next price is back near the one before the anomaly. -/
def reverted (prior following : ℚ) : Bool :=
  ratio 1 reversionTolerance < ratio following prior &&
    ratio following prior < reversionTolerance

/-- One turn of the loop. -/
def implausible (prior current following : ℚ) : Bool :=
  if prior ≤ 0 ∨ current ≤ 0 ∨ following ≤ 0 then false
  else deviates prior current && reverted prior following

/-- `_quarantine_implausible_indices`, the set in ascending order. -/
def quarantineImplausibleIndices (values : List ℚ) : List Nat :=
  (List.range' 1 (values.length - 2)).filter fun i =>
    implausible (values.getD (i - 1) 0) (values.getD i 0) (values.getD (i + 1) 0)

/-- What `normalize_price_history` keeps. -/
def screened (values : List ℚ) : List ℚ :=
  (values.zipIdx.filter fun row => row.2 ∉ quarantineImplausibleIndices values).map Prod.fst

end InvestmentPlatform.Market
