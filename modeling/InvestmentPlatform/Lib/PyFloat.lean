/-
Finite Python floats, as an interface.

A program that compares, scales and rounds floats depends on their order and on what the
operations return, not on how they are represented.  `PyFloat` names the operations a
program may use; nothing is assumed of them, so what is proved over it holds for IEEE
doubles, with all their rounding, as for exact rationals.  The rationals are the instance
to compute with.
-/
import Mathlib.Data.Int.Log
import Mathlib.Data.List.Sort
import Mathlib.Data.Rat.Floor

namespace InvestmentPlatform

/-- Finite floats: a total order, the four operations, literals, and `round`. -/
class PyFloat (F : Type) extends LinearOrder F, Add F, Sub F, Mul F, Div F, Zero F where
  /-- A literal of the source. -/
  lit : Rat → F
  /-- `round(v, ndigits)`. -/
  roundTo : F → Int → F
  /-- `round(v)`. -/
  roundInt : F → Int

namespace PyFloat

/-- The nearest integer, the even one of two. -/
def halfEven (q : Rat) : Int :=
  if q - q.floor < 1 / 2 then q.floor
  else if 1 / 2 < q - q.floor then q.floor + 1
  else if q.floor % 2 = 0 then q.floor
  else q.floor + 1

instance : PyFloat Rat where
  lit := id
  roundTo v digits := halfEven (v * 10 ^ digits) / 10 ^ digits
  roundInt := halfEven

theorem halfEven_mem (q : Rat) : halfEven q = q.floor ∨ halfEven q = q.floor + 1 := by
  rw [halfEven]
  split
  · exact Or.inl rfl
  · split
    · exact Or.inr rfl
    · split
      · exact Or.inl rfl
      · exact Or.inr rfl

/-- Rounding keeps the order. -/
theorem halfEven_mono {a b : Rat} (h : a ≤ b) : halfEven a ≤ halfEven b := by
  have hfloor : a.floor ≤ b.floor := Rat.floor_monotone h
  rcases hfloor.lt_or_eq with hlt | heq
  · rcases halfEven_mem a with ha | ha <;> rcases halfEven_mem b with hb | hb <;>
      rw [ha, hb] <;> omega
  · -- in one unit interval the fractions are ordered as the numbers are
    have hfrac : a - a.floor ≤ b - b.floor := by
      rw [heq]
      linarith
    rw [halfEven, halfEven, heq]
    rw [heq] at hfrac
    split_ifs <;> linarith

@[simp] theorem halfEven_intCast (n : Int) : halfEven (n : Rat) = n := by
  have hfloor : (n : Rat).floor = n := Rat.floor_intCast n
  rw [halfEven, hfloor]
  norm_num

/-- The nearest integer is at most one half away. -/
theorem abs_halfEven_sub_le (q : Rat) : |(halfEven q : Rat) - q| ≤ 1 / 2 := by
  have hfloor : (q.floor : Rat) ≤ q := Rat.floor_le q
  have hnext : q - 1 < q.floor := Rat.lt_floor
  rw [halfEven, abs_le]
  split_ifs <;> push_cast <;> constructor <;> linarith

theorem abs_roundTo_sub_le (q : Rat) (digits : Nat) :
    |roundTo q digits - q| ≤ 1 / (2 * 10 ^ digits) := by
  have hscale : (0 : Rat) < 10 ^ digits := pow_pos (by norm_num) digits
  have hnear := abs_halfEven_sub_le (q * 10 ^ digits)
  have hdiff : roundTo q digits - q
      = ((halfEven (q * 10 ^ digits) : Rat) - q * 10 ^ digits) / 10 ^ digits := by
    rw [sub_div, mul_div_cancel_right₀ q hscale.ne']
    show (halfEven (q * 10 ^ (digits : Int)) : Rat) / 10 ^ (digits : Int) - q = _
    rw [zpow_natCast]
  rw [hdiff, abs_div, abs_of_pos hscale, div_le_div_iff₀ hscale (by positivity)]
  have hgrow := mul_le_mul_of_nonneg_right hnear (by positivity : (0 : Rat) ≤ 2 * 10 ^ digits)
  linarith

theorem roundTo_mono {a b : Rat} (digits : Int) (h : a ≤ b) :
    roundTo a digits ≤ roundTo b digits := by
  have hscale : (0 : Rat) < 10 ^ digits := zpow_pos (by norm_num) digits
  have hle : a * 10 ^ digits ≤ b * 10 ^ digits := by gcongr
  have hround : (halfEven (a * 10 ^ digits) : Rat) ≤ halfEven (b * 10 ^ digits) :=
    Int.cast_le.mpr (halfEven_mono hle)
  show (halfEven (a * 10 ^ digits) : Rat) / 10 ^ digits ≤ halfEven (b * 10 ^ digits) / 10 ^ digits
  gcongr

/-- One half rounds to zero, and what is above it does not. -/
theorem halfEven_pos_iff {q : Rat} : 0 < halfEven q ↔ 1 / 2 < q := by
  constructor
  · intro h
    by_contra hle
    have hmono := halfEven_mono (not_lt.mp hle)
    have hhalf : halfEven (1 / 2) = 0 := by decide +kernel
    omega
  · intro h
    have hfloor : 0 ≤ q.floor := Rat.le_floor_iff.mpr (by push_cast; linarith)
    rcases hfloor.lt_or_eq with hpos | hzero
    · rcases halfEven_mem q with hround | hround <;> omega
    · have hlarge : 1 / 2 < q - q.floor := by
        rw [← hzero]
        push_cast
        linarith
      rw [halfEven, if_neg (not_lt.mpr hlarge.le), if_pos hlarge]
      omega

theorem roundTo_pos_iff {q : Rat} (digits : Nat) :
    0 < roundTo q digits ↔ 1 / (2 * 10 ^ digits) < q := by
  have hscale : (0 : Rat) < 10 ^ digits := pow_pos (by norm_num) digits
  show 0 < (halfEven (q * 10 ^ (digits : Int)) : Rat) / 10 ^ (digits : Int) ↔ _
  rw [zpow_natCast, div_pos_iff_of_pos_right hscale, Int.cast_pos, halfEven_pos_iff,
    div_lt_iff₀ (by norm_num), div_lt_iff₀ (by positivity)]
  constructor <;> intro h <;> linarith

/-- Whole numbers are not rounded to some digits after the point. -/
theorem roundTo_intCast (n : Int) (digits : Nat) : roundTo (n : Rat) digits = n := by
  have hscale : (10 : Rat) ^ (digits : Int) ≠ 0 := zpow_ne_zero _ (by norm_num)
  have hwhole : (n : Rat) * 10 ^ (digits : Int) = ((n * 10 ^ digits : Int) : Rat) := by
    push_cast
    rw [zpow_natCast]
  show (halfEven ((n : Rat) * 10 ^ (digits : Int)) : Rat) / 10 ^ (digits : Int) = n
  rw [hwhole, halfEven_intCast, ← hwhole]
  field_simp

variable {F : Type} [PyFloat F]

/-- The value of an optional number that is truthy: given, and not zero. -/
def truthy (v : Option F) : Option F := v.filter fun x => x ≠ 0

theorem truthy_eq_some {v : Option F} {x : F} : truthy v = some x ↔ v = some x ∧ x ≠ 0 := by
  simp [truthy, Option.filter_eq_some_iff]

/-- The optional number is truthy and `p` holds of it. -/
def Truthy (v : Option F) (p : F → Prop) : Prop := ∃ x, truthy v = some x ∧ p x

instance (v : Option F) (p : F → Prop) [DecidablePred p] : Decidable (Truthy v p) :=
  inferInstanceAs (Decidable (∃ x, truthy v = some x ∧ p x))

end PyFloat

end InvestmentPlatform

/-!
Python floats with the infinities and NaN, as an interface.

`PyFloat` is a total order, so it speaks of finite floats only.  A program that takes a price
as it comes may be handed an infinity or NaN, and here a comparison is a test that nothing is
assumed of: it may fail both ways.  The two laws are the ones a product with one and with
minus one keeps at every float.  The rationals are the instance to compute with.
-/

namespace InvestmentPlatform

class PyDouble (F : Type) extends Sub F, Mul F, Div F, Neg F where
  /-- The float nearest to a number. -/
  ofRat : ℚ → F
  lt : F → F → Bool
  le : F → F → Bool
  /-- `x == 0.0`. -/
  isZero : F → Bool
  /-- `math.isfinite`. -/
  isFinite : F → Bool
  /-- `statistics.mean`. -/
  mean : List F → F
  /-- `statistics.median`. -/
  median : List F → F
  one_mul : ∀ x : F, ofRat 1 * x = x
  neg_one_mul : ∀ x : F, ofRat (-1) * x = -x

namespace PyDouble

/-- The middle of a sorted list, or half way between the two middles. -/
def middle (sorted : List ℚ) : ℚ :=
  if sorted.length % 2 = 1 then sorted.getD (sorted.length / 2) 0
  else (sorted.getD (sorted.length / 2 - 1) 0 + sorted.getD (sorted.length / 2) 0) / 2

instance : PyDouble ℚ where
  ofRat := id
  lt x y := decide (x < y)
  le x y := decide (x ≤ y)
  isZero x := decide (x = 0)
  isFinite _ := true
  mean l := l.sum / l.length
  median l := middle (l.insertionSort (· ≤ ·))
  one_mul := Rat.one_mul
  neg_one_mul x := by
    rw [id_eq, Rat.neg_mul, Rat.one_mul]

variable {F : Type} [PyDouble F]

/-- `max(l)`: the first of several greatest. -/
def max (l : List F) : Option F :=
  match l with
  | [] => none
  | x :: l => some (l.foldl (fun best y => if lt best y then y else best) x)

/-- `min(l)`: the first of several least. -/
def min (l : List F) : Option F :=
  match l with
  | [] => none
  | x :: l => some (l.foldl (fun best y => if lt y best then y else best) x)

end PyDouble

end InvestmentPlatform

/-!
The quotient of two integers as a double.

Python divides integers exactly and rounds once, to the nearest double, the even one of two.  The
exponent is unbounded here: below the normal doubles nothing changes for a program that rounds the
quotient to an integer, and above them Python raises.
-/

namespace InvestmentPlatform

/-- The double nearest to a number that is not negative. -/
def nearestDouble (q : Rat) : Rat :=
  if q = 0 then 0
  else PyFloat.halfEven (q / 2 ^ (Int.log 2 q - 52)) * 2 ^ (Int.log 2 q - 52)

namespace PyFloat

/-- A number rounds up to an even one from half a unit below on. -/
theorem le_halfEven_iff {m : Int} (hm : m % 2 = 0) (q : Rat) :
    m ≤ halfEven q ↔ (m : Rat) - 1 / 2 ≤ q := by
  have hfloor : (q.floor : Rat) ≤ q := Rat.floor_le q
  have hceil : q - 1 < q.floor := Rat.lt_floor
  rcases lt_trichotomy (q.floor + 1) m with hlt | heq | hgt
  · have hcast : ((q.floor + 1 : Int) : Rat) + 1 ≤ m := by exact_mod_cast hlt
    push_cast at hcast
    constructor
    · intro h
      rcases halfEven_mem q with hround | hround
      · omega
      · omega
    · intro h
      linarith
  · have hcast : ((q.floor + 1 : Int) : Rat) = m := by exact_mod_cast heq
    push_cast at hcast
    have hodd : ¬ q.floor % 2 = 0 := by omega
    rw [halfEven]
    split
    · constructor
      · intro h
        omega
      · intro h
        linarith
    · split
      · constructor
        · intro h
          linarith
        · intro h
          omega
      · constructor
        · intro h
          linarith
        · intro h
          omega
  · have hcast : (m : Rat) ≤ q.floor := by exact_mod_cast Int.lt_add_one_iff.mp hgt
    constructor
    · intro h
      linarith
    · intro h
      rcases halfEven_mem q with hround | hround
      · omega
      · omega

end PyFloat

open PyFloat

theorem nearestDouble_of_log {q : Rat} {e : Int} (hlow : (2 : Rat) ^ e ≤ q)
    (hhigh : q < 2 ^ (e + 1)) : nearestDouble q = halfEven (q / 2 ^ (e - 52)) * 2 ^ (e - 52) := by
  have hpos : 0 < q := lt_of_lt_of_le (zpow_pos (by norm_num) e) hlow
  have hlog : Int.log 2 q = e := by
    refine le_antisymm ?_ ?_
    · exact Int.lt_add_one_iff.mp ((Int.lt_zpow_iff_log_lt (by norm_num) hpos).mp hhigh)
    · exact (Int.zpow_le_iff_le_log (by norm_num) hpos).mp hlow
  rw [nearestDouble, if_neg (ne_of_gt hpos), hlog]

/-- No double passes the power of two above. -/
theorem nearestDouble_le_zpow {q : Rat} {e : Int} (hnonneg : 0 ≤ q) (hhigh : q < 2 ^ e) :
    nearestDouble q ≤ 2 ^ e := by
  by_cases hzero : q = 0
  · rw [nearestDouble, if_pos hzero]
    exact zpow_nonneg (by norm_num) e
  · have hpos : 0 < q := lt_of_le_of_ne hnonneg (Ne.symm hzero)
    have hlt : Int.log 2 q < e := (Int.lt_zpow_iff_log_lt (by norm_num) hpos).mp hhigh
    have hself : q < 2 ^ (Int.log 2 q + 1) := Int.lt_zpow_succ_log_self (by norm_num) q
    have hulp : (0 : Rat) < 2 ^ (Int.log 2 q - 52) := zpow_pos (by norm_num) _
    have hsplit : (2 : Rat) ^ (Int.log 2 q + 1) = ((2 ^ 53 : Int) : Rat) * 2 ^ (Int.log 2 q - 52) := by
      rw [show Int.log 2 q + 1 = 53 + (Int.log 2 q - 52) by omega, zpow_add₀ (by norm_num)]
      norm_num
    have hscaled : q / 2 ^ (Int.log 2 q - 52) ≤ ((2 ^ 53 : Int) : Rat) := by
      rw [div_le_iff₀ hulp, ← hsplit]
      exact le_of_lt hself
    have hround : halfEven (q / 2 ^ (Int.log 2 q - 52)) ≤ 2 ^ 53 := by
      have hmono := halfEven_mono hscaled
      rwa [halfEven_intCast] at hmono
    rw [nearestDouble, if_neg hzero]
    calc (halfEven (q / 2 ^ (Int.log 2 q - 52)) : Rat) * 2 ^ (Int.log 2 q - 52)
        ≤ ((2 ^ 53 : Int) : Rat) * 2 ^ (Int.log 2 q - 52) :=
          mul_le_mul_of_nonneg_right (Int.cast_le.mpr hround) (le_of_lt hulp)
      _ = 2 ^ (Int.log 2 q + 1) := hsplit.symm
      _ ≤ 2 ^ e := zpow_le_zpow_right₀ (by norm_num) (Int.add_one_le_iff.mpr hlt)

/-! ### Order -/

theorem zpow_scaled (e : Int) : (2 : Rat) ^ e / 2 ^ (e - 52) = ((2 ^ 52 : Int) : Rat) := by
  rw [← zpow_sub₀ (by norm_num), show e - (e - 52) = 52 by omega]
  norm_num

/-- No double falls below the power of two below. -/
theorem zpow_le_nearestDouble {q : Rat} {e : Int} (hlow : (2 : Rat) ^ e ≤ q) :
    2 ^ e ≤ nearestDouble q := by
  have hpos : 0 < q := lt_of_lt_of_le (zpow_pos (by norm_num) e) hlow
  have hlog : e ≤ Int.log 2 q := (Int.zpow_le_iff_le_log (by norm_num) hpos).mp hlow
  have hself : (2 : Rat) ^ Int.log 2 q ≤ q := Int.zpow_log_le_self (by norm_num) hpos
  have hulp : (0 : Rat) < 2 ^ (Int.log 2 q - 52) := zpow_pos (by norm_num) _
  have hscaled : ((2 ^ 52 : Int) : Rat) ≤ q / 2 ^ (Int.log 2 q - 52) := by
    rw [← zpow_scaled (Int.log 2 q)]
    exact div_le_div_of_nonneg_right hself hulp.le
  have hround : 2 ^ 52 ≤ halfEven (q / 2 ^ (Int.log 2 q - 52)) := by
    have hmono := halfEven_mono hscaled
    rwa [halfEven_intCast] at hmono
  rw [nearestDouble, if_neg hpos.ne']
  calc (2 : Rat) ^ e ≤ 2 ^ Int.log 2 q := zpow_le_zpow_right₀ (by norm_num) hlog
    _ = ((2 ^ 52 : Int) : Rat) * 2 ^ (Int.log 2 q - 52) := by
        rw [← zpow_scaled (Int.log 2 q), div_mul_cancel₀ _ hulp.ne']
    _ ≤ (halfEven (q / 2 ^ (Int.log 2 q - 52)) : Rat) * 2 ^ (Int.log 2 q - 52) :=
        mul_le_mul_of_nonneg_right (Int.cast_le.mpr hround) hulp.le

theorem nearestDouble_zero : nearestDouble 0 = 0 := if_pos rfl

theorem nearestDouble_pos {q : Rat} (h : 0 < q) : 0 < nearestDouble q :=
  lt_of_lt_of_le (zpow_pos (by norm_num) _)
    (zpow_le_nearestDouble (Int.zpow_log_le_self (by norm_num) h))

/-- **Rounding to doubles keeps the order.** -/
theorem nearestDouble_mono {a b : Rat} (ha : 0 ≤ a) (h : a ≤ b) :
    nearestDouble a ≤ nearestDouble b := by
  rcases ha.lt_or_eq with hpos | hzero
  · have hposb : 0 < b := lt_of_lt_of_le hpos h
    rcases (Int.log_mono_right hpos h (b := 2)).lt_or_eq with hlt | heq
    · -- a power of two is between them
      have hbelow : nearestDouble a ≤ 2 ^ (Int.log 2 a + 1) :=
        nearestDouble_le_zpow ha (Int.lt_zpow_succ_log_self (by norm_num) a)
      have habove : (2 : Rat) ^ Int.log 2 b ≤ nearestDouble b :=
        zpow_le_nearestDouble (Int.zpow_log_le_self (by norm_num) hposb)
      exact hbelow.trans ((zpow_le_zpow_right₀ (by norm_num) (by omega)).trans habove)
    · have hulp : (0 : Rat) < 2 ^ (Int.log 2 b - 52) := zpow_pos (by norm_num) _
      rw [nearestDouble, nearestDouble, if_neg hpos.ne', if_neg hposb.ne', heq]
      exact mul_le_mul_of_nonneg_right (Int.cast_le.mpr (halfEven_mono
        (div_le_div_of_nonneg_right h hulp.le))) hulp.le
  · rw [← hzero, nearestDouble_zero]
    by_cases hb : b = 0
    · rw [hb, nearestDouble_zero]
    · exact (nearestDouble_pos (lt_of_le_of_ne (hzero ▸ h) (Ne.symm hb))).le

/-- A number of 53 bits is a double. -/
theorem nearestDouble_bits {m : Int} (hlow : 2 ^ 52 ≤ m) (hhigh : m < 2 ^ 53) (e : Int) :
    nearestDouble (m * 2 ^ (e - 52)) = m * 2 ^ (e - 52) := by
  have hulp : (0 : Rat) < 2 ^ (e - 52) := zpow_pos (by norm_num) _
  have hnext : (2 : Rat) ^ (e + 1) = ((2 ^ 53 : Int) : Rat) * 2 ^ (e - 52) := by
    rw [show e + 1 = 53 + (e - 52) by omega, zpow_add₀ (by norm_num)]
    norm_num
  have hfloor : (2 : Rat) ^ e ≤ m * 2 ^ (e - 52) := by
    rw [← div_le_iff₀ hulp, zpow_scaled]
    exact_mod_cast hlow
  have hceil : (m : Rat) * 2 ^ (e - 52) < 2 ^ (e + 1) := by
    rw [hnext]
    exact mul_lt_mul_of_pos_right (by exact_mod_cast hhigh) hulp
  rw [nearestDouble_of_log hfloor hceil, mul_div_cancel_right₀ _ hulp.ne', halfEven_intCast]

/-- **A percentage reads 100 from half a percent below on**, where the last bit of the quotient may
round up as well. -/
theorem round_percentage_iff {q : Rat} (hnonneg : 0 ≤ q) (hle : q ≤ 100) :
    100 ≤ halfEven (nearestDouble q) ↔ ((199 * 2 ^ 46 - 1 : Int) : Rat) / 2 ^ 47 ≤ q := by
  rw [le_halfEven_iff (by norm_num)]
  by_cases hsmall : q < 2 ^ (6 : Int)
  · have hdouble := nearestDouble_le_zpow hnonneg hsmall
    norm_num at hsmall hdouble ⊢
    constructor
    · intro h
      linarith
    · intro h
      linarith
  · have hform := nearestDouble_of_log (not_lt.mp hsmall) (lt_of_le_of_lt hle (by norm_num))
    have hulp : (0 : Rat) < 2 ^ (46 : Nat) := by norm_num
    have hdiv : q / 2 ^ ((6 : Int) - 52) = q * 2 ^ (46 : Nat) := by
      rw [show (6 : Int) - 52 = -((46 : Nat) : Int) by norm_num, zpow_neg, zpow_natCast,
        div_inv_eq_mul]
    have hmul : (2 : Rat) ^ ((6 : Int) - 52) = 1 / 2 ^ (46 : Nat) := by
      rw [show (6 : Int) - 52 = -((46 : Nat) : Int) by norm_num, zpow_neg, zpow_natCast, one_div]
    have hround := le_halfEven_iff (m := 199 * 2 ^ 45) (by norm_num) (q * 2 ^ (46 : Nat))
    rw [hform, hdiv, hmul, mul_one_div, le_div_iff₀ hulp]
    have hleft : (((100 : Int) : Rat) - 1 / 2) * 2 ^ (46 : Nat) ≤
          (halfEven (q * 2 ^ (46 : Nat)) : Rat) ↔
        199 * 2 ^ 45 ≤ halfEven (q * 2 ^ (46 : Nat)) := by
      rw [← Int.cast_le (R := Rat)]
      norm_num
    rw [hleft, hround, div_le_iff₀ (by norm_num)]
    norm_num
    constructor
    · intro h
      linarith
    · intro h
      linarith

end InvestmentPlatform
