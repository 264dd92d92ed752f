/-
The library functions on the texts of a small input: ASCII letters, whole numbers, no period
ends given as text, and too few periods for a deviation or a growth rate.
-/
import InvestmentPlatform.Rules.Fundamentals

namespace InvestmentPlatform.Rules

/-- A number with leading zeros. -/
def padded (width : Nat) (n : Nat) : String :=
  let digits := toString n
  String.ofList (List.replicate (width - digits.length) '0') ++ digits

/-- Day of the month in the proleptic Gregorian calendar. -/
def civilDay (t : Instant) : Int :=
  let z := t / day + 719468
  let dayOfEra := z - z / 146097 * 146097
  let yearOfEra :=
    (dayOfEra - dayOfEra / 1460 + dayOfEra / 36524 - dayOfEra / 146096) / 365
  let dayOfYear := dayOfEra - (365 * yearOfEra + yearOfEra / 4 - yearOfEra / 100)
  dayOfYear - (153 * ((5 * dayOfYear + 2) / 153) + 2) / 5 + 1

/-- `datetime.isoformat` of a whole second in UTC. -/
def isoSeconds (t : Instant) : String :=
  let seconds := (t % day / 1000000).toNat
  let date := "-".intercalate [padded 4 (civilMonth t).1.toNat, padded 2 (civilMonth t).2.toNat,
    padded 2 (civilDay t).toNat]
  let time := ":".intercalate [padded 2 (seconds / 3600), padded 2 (seconds / 60 % 60),
    padded 2 (seconds % 60)]
  "".intercalate [date, "T", time, "+00:00"]

/-- Two decimals of a score. -/
def scoreText (score : ℚ) : String :=
  let cents := (PyFloat.halfEven (score * 100)).toNat
  "".intercalate [toString (cents / 100), ".", padded 2 (cents % 100)]

@[reducible] def asciiLibrary : PyLibrary where
  casefold text := String.ofList (text.toList.map Char.toLower)
  upper text := String.ofList (text.toList.map Char.toUpper)
  strip text := String.ofList
    ((text.toList.dropWhile Char.isWhitespace).reverse.dropWhile Char.isWhitespace).reverse
  isSpace := Char.isWhitespace
  isoformat := isoSeconds
  parseDatetime _ := none
  decimal text := text.toInt?.map fun n => (n : ℚ)
  fixed2 := scoreText
  pstdev _ := 0
  pow base _ := base
  governanceDisclosure _ := false

end InvestmentPlatform.Rules
