/-
Decimal numbers of a fixed scale, and the rounding that goes to the further neighbour on a tie.

The numbers of a scale are a group, so sums of them need no rounding.  Rounding to a scale is exact
on its numbers and is never further off than half of its last place.
-/
import Mathlib.Data.Rat.Floor

namespace InvestmentPlatform.HalfUp

/-- The number has no more than `scale` decimals. -/
def OnScale (scale : Nat) (x : ℚ) : Prop := ∃ n : ℤ, x * 10 ^ scale = n

/-- The nearest integer to a number that is not negative, the upper one on a tie. -/
def nearest (x : ℚ) : ℤ := ⌊x + 1 / 2⌋

/-- `x.setScale(scale, RoundingMode.HALF_UP)`. -/
def setScale (scale : Nat) (x : ℚ) : ℚ :=
  if 0 ≤ x then nearest (x * 10 ^ scale) / 10 ^ scale
  else -(nearest (-x * 10 ^ scale) / 10 ^ scale)

variable {scale : Nat} {x y : ℚ}

/-! ### The numbers of a scale -/

theorem pow_pos (scale : Nat) : (0 : ℚ) < 10 ^ scale := by positivity

theorem OnScale.zero : OnScale scale 0 := ⟨0, by simp⟩

theorem OnScale.add (hx : OnScale scale x) (hy : OnScale scale y) : OnScale scale (x + y) := by
  obtain ⟨m, hm⟩ := hx
  obtain ⟨n, hn⟩ := hy
  refine ⟨m + n, ?_⟩
  rw [add_mul, hm, hn]
  push_cast
  rfl

theorem OnScale.neg (hx : OnScale scale x) : OnScale scale (-x) := by
  obtain ⟨m, hm⟩ := hx
  refine ⟨-m, ?_⟩
  rw [neg_mul, hm]
  push_cast
  rfl

theorem OnScale.sub (hx : OnScale scale x) (hy : OnScale scale y) : OnScale scale (x - y) := by
  rw [sub_eq_add_neg]
  exact hx.add hy.neg

theorem OnScale.of_div (n : ℤ) : OnScale scale (n / 10 ^ scale) :=
  ⟨n, div_mul_cancel₀ _ (pow_pos scale).ne'⟩

/-! ### Rounding -/

theorem nearest_intCast (n : ℤ) : nearest n = n := by
  unfold nearest
  rw [Int.floor_eq_iff]
  constructor <;> linarith

theorem abs_nearest_sub_le (x : ℚ) : |(nearest x : ℚ) - x| ≤ 1 / 2 := by
  unfold nearest
  have hle := Int.floor_le (x + 1 / 2)
  have hlt := Int.lt_floor_add_one (x + 1 / 2)
  rw [abs_le]
  constructor <;> linarith

theorem abs_nearest_div_sub_le (scale : Nat) (x : ℚ) :
    |(nearest (x * 10 ^ scale) : ℚ) / 10 ^ scale - x| ≤ 1 / 2 / 10 ^ scale := by
  have hpos := pow_pos scale
  have hsplit : (nearest (x * 10 ^ scale) : ℚ) / 10 ^ scale - x =
      ((nearest (x * 10 ^ scale) : ℚ) - x * 10 ^ scale) / 10 ^ scale := by
    field_simp
  rw [hsplit, abs_div, abs_of_pos hpos]
  exact div_le_div_of_nonneg_right (abs_nearest_sub_le _) hpos.le

theorem onScale_setScale (scale : Nat) (x : ℚ) : OnScale scale (setScale scale x) := by
  unfold setScale
  split
  · exact OnScale.of_div _
  · exact (OnScale.of_div _).neg

/-- Rounding changes nothing where no decimals are lost. -/
theorem setScale_of_onScale (h : OnScale scale x) : setScale scale x = x := by
  obtain ⟨n, hn⟩ := h
  have hx : x = n / 10 ^ scale := eq_div_of_mul_eq (pow_pos scale).ne' hn
  unfold setScale
  split
  · rw [hn, nearest_intCast, ← hx]
  · have hneg : -x * 10 ^ scale = ((-n : ℤ) : ℚ) := by
      rw [neg_mul, hn]
      push_cast
      rfl
    rw [hneg, nearest_intCast, hx]
    push_cast
    ring

/-- Rounding is off by half of the last place at most. -/
theorem abs_setScale_sub_le (scale : Nat) (x : ℚ) :
    |setScale scale x - x| ≤ 1 / 2 / 10 ^ scale := by
  unfold setScale
  split
  · exact abs_nearest_div_sub_le scale x
  · have hneg := abs_nearest_div_sub_le scale (-x)
    have hflip : -((nearest (-x * 10 ^ scale) : ℚ) / 10 ^ scale) - x =
        -((nearest (-x * 10 ^ scale) : ℚ) / 10 ^ scale - -x) := by
      ring
    rwa [hflip, abs_neg]

end InvestmentPlatform.HalfUp
