/-
Calendar dates, as Python's `datetime.date` has them.

The proleptic Gregorian calendar from year 1 to 9999, the texts of ISO 8601 a date is written in
and read from, and the arithmetic of months that a fiscal calendar needs.  A date carries that it
is one; what may leave the calendar returns none.
-/
import Mathlib.Tactic.IntervalCases
import Mathlib.Tactic.Linarith

namespace InvestmentPlatform.PyDate

open Nat List

/-! ### Dates -/

def isLeap (year : Nat) : Bool := year % 4 = 0 ∧ (year % 100 ≠ 0 ∨ year % 400 = 0)

def daysInMonth (year month : Nat) : Nat :=
  if month = 2 then (if isLeap year then 29 else 28)
  else if month = 4 ∨ month = 6 ∨ month = 9 ∨ month = 11 then 30
  else 31

@[ext] structure Date where
  year : Nat
  month : Nat
  day : Nat
  valid : (1 ≤ year ∧ year ≤ 9999) ∧ (1 ≤ month ∧ month ≤ 12) ∧ 1 ≤ day ∧
    day ≤ daysInMonth year month
  deriving DecidableEq, Repr

/-- `date(year, month, day)`, which raises for what is no date. -/
def ofYmd (year month day : Nat) : Option Date :=
  if h : (1 ≤ year ∧ year ≤ 9999) ∧ (1 ≤ month ∧ month ≤ 12) ∧ 1 ≤ day ∧
      day ≤ daysInMonth year month then some ⟨year, month, day, h⟩
  else none

theorem daysInMonth_bounds (year month : Nat) :
    28 ≤ daysInMonth year month ∧ daysInMonth year month ≤ 31 := by
  unfold daysInMonth
  split
  · split <;> omega
  · split <;> omega

theorem Date.day_le (date : Date) : date.day ≤ 31 :=
  date.valid.2.2.2.trans (daysInMonth_bounds ..).2

theorem ofYmd_self (date : Date) : ofYmd date.year date.month date.day = some date :=
  dif_pos date.valid

theorem ofYmd_eq_some {year month day : Nat} {date : Date} : ofYmd year month day = some date ↔
      date.year = year ∧ date.month = month ∧ date.day = day := by
  constructor
  · intro h
    unfold ofYmd at h
    split at h
    · cases h
      exact ⟨rfl, rfl, rfl⟩
    · cases h
  · rintro ⟨rfl, rfl, rfl⟩
    exact ofYmd_self date

theorem exists_ofYmd {year month day : Nat} (hyear : 1 ≤ year ∧ year ≤ 9999)
    (hmonth : 1 ≤ month ∧ month ≤ 12) (hday : 1 ≤ day ∧ day ≤ daysInMonth year month) :
    ∃ date : Date, ofYmd year month day = some date ∧
      date.year = year ∧ date.month = month ∧ date.day = day :=
  ⟨⟨year, month, day, hyear, hmonth, hday⟩, ofYmd_eq_some.mpr ⟨rfl, rfl, rfl⟩, rfl, rfl, rfl⟩

/-- The order of dates is that of their digits. -/
def Date.number (date : Date) : Nat := (date.year * 100 + date.month) * 100 + date.day

theorem number_injective : Function.Injective Date.number := by
  intro a b h
  unfold Date.number at h
  have ha := a.day_le
  have hb := b.day_le
  have hma := a.valid.2.1.2
  have hmb := b.valid.2.1.2
  ext <;> omega

instance : LinearOrder Date := LinearOrder.lift' Date.number number_injective

variable {a b : Date}

theorem le_iff_number : a ≤ b ↔ a.number ≤ b.number := Iff.rfl

theorem lt_iff_number : a < b ↔ a.number < b.number := Iff.rfl

/-- The last day of a month. -/
def Date.IsMonthEnd (date : Date) : Prop := date.day = daysInMonth date.year date.month

instance (date : Date) : Decidable date.IsMonthEnd := inferInstanceAs (Decidable (_ = _))

/-- `date.replace(year=date.year - years)`. -/
def Date.yearsBefore (date : Date) (years : Nat) : Option Date :=
  ofYmd (date.year - years) date.month date.day

/-- The month that many months on, as year and month, for a count that may be negative. -/
def monthsOn (year month : Nat) (months : Int) : Int × Int :=
  let count := (year : Int) * 12 + month - 1 + months
  (count / 12, count % 12 + 1)

/-! ### Texts -/

def digitChar (n : Nat) : Char := Char.ofNat (48 + n)

/-- `date.isoformat()` -/
def Date.isoformat (date : Date) : String :=
  String.ofList [digitChar (date.year / 1000 % 10), digitChar (date.year / 100 % 10),
    digitChar (date.year / 10 % 10), digitChar (date.year % 10), '-',
    digitChar (date.month / 10 % 10), digitChar (date.month % 10), '-',
    digitChar (date.day / 10 % 10), digitChar (date.day % 10)]

def digitValue (c : Char) : Option Nat :=
  if 48 ≤ c.toNat ∧ c.toNat ≤ 57 then some (c.toNat - 48) else none

/-- A number written in ASCII digits. -/
def number (text : List Char) : Option Nat :=
  text.foldlM (fun value c => (digitValue c).map fun digit => value * 10 + digit) 0

/-- `YYYY-MM-DD` -/
def dashed : List Char → Option Date
  | [a, b, c, d, '-', e, f, '-', g, h] =>
      (number [a, b, c, d]).bind fun year => (number [e, f]).bind fun month =>
        (number [g, h]).bind fun day => ofYmd year month day
  | _ => none

/-- `YYYYMMDD` -/
def compact : List Char → Option Date
  | [a, b, c, d, e, f, g, h] => dashed [a, b, c, d, '-', e, f, '-', g, h]
  | _ => none

def yearLength (year : Nat) : Nat := if isLeap year then 366 else 365

/-- The day of a year, counted from 0, by the months that are left. -/
def dayInMonths (year : Nat) : List Nat → Nat → Option Date
  | [], _ => none
  | month :: months, n =>
      if n < daysInMonth year month then ofYmd year month (n + 1)
      else dayInMonths year months (n - daysInMonth year month)

def dayOfYear (year n : Nat) : Option Date := dayInMonths year (range' 1 12) n

/-- The weekday of 1 January, with 0 for Monday. -/
def firstWeekday (year : Nat) : Nat :=
  ((year - 1) * 365 + (year - 1) / 4 - (year - 1) / 100 + (year - 1) / 400) % 7

/-- The date of a day of an ISO week. -/
def ofIsoWeek (year week day : Nat) : Option Date :=
  let first := firstWeekday year
  let long := first = 3 ∨ first = 2 ∧ isLeap year = true
  if year = 0 ∨ week = 0 ∨ 53 < week ∨ (week = 53 ∧ ¬ long) ∨ day = 0 ∨ 7 < day then none
  else
    -- the Monday of the first week, counted from 1 January
    let monday : Int := if 3 < first then 7 - first else -first
    let n := monday + (week - 1) * 7 + (day - 1)
    if n < 0 then dayOfYear (year - 1) ((yearLength (year - 1) : Int) + n).toNat
    else if yearLength year ≤ n then dayOfYear (year + 1) (n - yearLength year).toNat
    else dayOfYear year n.toNat

/-- `YYYY-Www-D`, `YYYYWwwD` and both without the day. -/
def weekly (text : List Char) : Option Date :=
  let read (year week day : List Char) : Option Date :=
    (number year).bind fun year => (number week).bind fun week => (number day).bind fun day =>
      ofIsoWeek year week day
  match text with
  | [a, b, c, d, '-', 'W', e, f, '-', g] => read [a, b, c, d] [e, f] [g]
  | [a, b, c, d, '-', 'W', e, f] => read [a, b, c, d] [e, f] ['1']
  | [a, b, c, d, 'W', e, f, g] => read [a, b, c, d] [e, f] [g]
  | [a, b, c, d, 'W', e, f] => read [a, b, c, d] [e, f] ['1']
  | _ => none

/-- `date.fromisoformat(text)`, which raises for any other text. -/
def fromIsoformat (text : String) : Option Date :=
  ((dashed text.toList).or (compact text.toList)).or (weekly text.toList)

/-! ### A date is read back -/

theorem dashed_eq (a b c d e f g h : Char) : dashed [a, b, c, d, '-', e, f, '-', g, h] =
    (number [a, b, c, d]).bind fun year => (number [e, f]).bind fun month =>
      (number [g, h]).bind fun day => ofYmd year month day :=
  rfl

variable {n m : Nat}

theorem digitValue_digitChar (h : n < 10) : digitValue (digitChar n) = some n := by
  interval_cases n <;> rfl

theorem number_cons {value : Nat} (h : n < 10) (rest : List Char) : (digitChar n :: rest).foldlM
        (fun value c => (digitValue c).map fun digit => value * 10 + digit) value =
      rest.foldlM (fun value c => (digitValue c).map fun digit => value * 10 + digit)
        (value * 10 + n) := by
  rw [foldlM_cons, digitValue_digitChar h]
  rfl

theorem number_two (h : n ≤ 99) :
    number [digitChar (n / 10 % 10), digitChar (n % 10)] = some n := by
  unfold number
  rw [number_cons (mod_lt _ (by decide)), number_cons (mod_lt _ (by decide)),
    foldlM_nil]
  exact congrArg some (by omega)

theorem number_four (h : n ≤ 9999) :
    number [digitChar (n / 1000 % 10), digitChar (n / 100 % 10), digitChar (n / 10 % 10),
      digitChar (n % 10)] = some n := by
  unfold number
  rw [number_cons (mod_lt _ (by decide)), number_cons (mod_lt _ (by decide)),
    number_cons (mod_lt _ (by decide)), number_cons (mod_lt _ (by decide)),
    foldlM_nil]
  exact congrArg some (by omega)

@[simp] theorem fromIsoformat_isoformat (date : Date) :
    fromIsoformat date.isoformat = some date := by
  have hdashed : dashed date.isoformat.toList = some date := by
    unfold Date.isoformat
    rw [String.toList_ofList]
    rw [dashed_eq, number_four date.valid.1.2, number_two (date.valid.2.1.2.trans (by decide)),
      number_two (date.day_le.trans (by decide))]
    exact ofYmd_self date
  unfold fromIsoformat
  rw [hdashed]
  rfl

theorem isoformat_injective : Function.Injective Date.isoformat := by
  intro a b h
  have hread := congrArg fromIsoformat h
  rw [fromIsoformat_isoformat, fromIsoformat_isoformat] at hread
  exact Option.some.inj hread

/-! ### The order of the texts -/

theorem digitChar_lt (hm : m < 10) (hn : n < 10) : digitChar m < digitChar n ↔ m < n := by
  interval_cases m <;> interval_cases n <;> decide

theorem digitChar_eq (hm : m < 10) (hn : n < 10) : digitChar m = digitChar n ↔ m = n := by
  refine ⟨fun h => ?_, congrArg digitChar⟩
  have hvalue := congrArg digitValue h
  rw [digitValue_digitChar hm, digitValue_digitChar hn] at hvalue
  exact Option.some.inj hvalue

/-- Texts that begin with a digit each are compared by the digits, and by what follows where the
digits are equal. -/
theorem digitChar_cons_lt {k l : List Char} (hm : m < 10) (hn : n < 10) :
    digitChar m :: k < digitChar n :: l ↔ m < n ∨ m = n ∧ k < l := by
  rw [cons_lt_cons_iff, digitChar_lt hm hn, digitChar_eq hm hn]

theorem dash_cons_lt {k l : List Char} : '-' :: k < '-' :: l ↔ k < l := by
  rw [cons_lt_cons_iff]
  exact ⟨fun h => (h.resolve_left (by decide)).2, fun h => Or.inr ⟨rfl, h⟩⟩

/-- Numbers of two digits are compared digit by digit. -/
theorem two_digits_lt {p : Prop} (hm : m ≤ 99) (hn : n ≤ 99) :
    (m / 10 % 10 < n / 10 % 10 ∨ m / 10 % 10 = n / 10 % 10 ∧
      (m % 10 < n % 10 ∨ m % 10 = n % 10 ∧ p)) ↔ m < n ∨ m = n ∧ p := by
  by_cases hp : p
  · simp only [hp, and_true]
    omega
  · simp only [hp, and_false, or_false]
    omega

/-- Numbers of four digits are compared by their first two digits and by the others. -/
theorem four_digits_lt {p : Prop} (hm : m ≤ 9999) (hn : n ≤ 9999) :
    (m / 1000 % 10 < n / 1000 % 10 ∨ m / 1000 % 10 = n / 1000 % 10 ∧
      (m / 100 % 10 < n / 100 % 10 ∨ m / 100 % 10 = n / 100 % 10 ∧
        (m / 10 % 10 < n / 10 % 10 ∨ m / 10 % 10 = n / 10 % 10 ∧
          (m % 10 < n % 10 ∨ m % 10 = n % 10 ∧ p)))) ↔ m < n ∨ m = n ∧ p := by
  have hm' : m / 1000 % 10 = m / 100 / 10 % 10 := by rw [Nat.div_div_eq_div_mul]
  have hn' : n / 1000 % 10 = n / 100 / 10 % 10 := by rw [Nat.div_div_eq_div_mul]
  have hmt : m / 10 % 10 = m % 100 / 10 % 10 := by omega
  have hnt : n / 10 % 10 = n % 100 / 10 % 10 := by omega
  have hmu : m % 10 = m % 100 % 10 := by omega
  have hnu : n % 10 = n % 100 % 10 := by omega
  rw [hmt, hnt, hmu, hnu, two_digits_lt (by omega) (by omega), hm', hn',
    two_digits_lt (by omega) (by omega)]
  by_cases hp : p
  · simp only [hp, and_true]
    omega
  · simp only [hp, and_false, or_false]
    omega

/-- The texts of dates are in the order of the dates. -/
theorem isoformat_lt : a.isoformat < b.isoformat ↔ a < b := by
  have hten : ∀ n : Nat, n % 10 < 10 := fun n => mod_lt n (by decide)
  have hda := a.day_le
  have hdb := b.day_le
  have hma := a.valid.2.1.2
  have hmb := b.valid.2.1.2
  rw [lt_iff_number, String.lt_iff, Date.isoformat, Date.isoformat, String.toList_ofList,
    String.toList_ofList, digitChar_cons_lt (hten _) (hten _), digitChar_cons_lt (hten _) (hten _),
    digitChar_cons_lt (hten _) (hten _), digitChar_cons_lt (hten _) (hten _), dash_cons_lt,
    digitChar_cons_lt (hten _) (hten _), digitChar_cons_lt (hten _) (hten _), dash_cons_lt,
    digitChar_cons_lt (hten _) (hten _), digitChar_cons_lt (hten _) (hten _),
    four_digits_lt a.valid.1.2 b.valid.1.2, two_digits_lt (by omega) (by omega),
    two_digits_lt (by omega) (by omega), Date.number, Date.number]
  simp only [not_lt_nil, and_false, or_false]
  omega

example : fromIsoformat "2024-W13-7" = ofYmd 2024 3 31 ∧ fromIsoformat "20240331" = ofYmd 2024 3 31 ∧
    fromIsoformat "2024-03-32" = none := by decide

end InvestmentPlatform.PyDate
