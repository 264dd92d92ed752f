/-
Weighted means.

A list of weights and values has a total weight and a weighted sum; the mean is their
quotient.  What is proved holds of every list: the sum lies between the total weight times a
lower and an upper bound of the values, and it grows with each of them.
-/
import Mathlib.Algebra.BigOperators.Group.List.Basic
import Mathlib.Algebra.Order.Field.Basic
import Mathlib.Data.List.MinMax
import Mathlib.Tactic.Ring

namespace InvestmentPlatform.WeightedMean

open Nat List

variable {K : Type} [Field K]

/-- The weights of a list of weighted values, together. -/
def totalWeight (l : List (Nat × K)) : Nat := (l.map Prod.fst).sum

/-- Each value as often as it weighs, together. -/
def weightedSum (l : List (Nat × K)) : K := (l.map fun p => (p.1 : K) * p.2).sum

omit [Field K] in
@[simp] theorem totalWeight_nil : totalWeight ([] : List (Nat × K)) = 0 := rfl

omit [Field K] in
@[simp] theorem totalWeight_cons (p : Nat × K) (l : List (Nat × K)) :
    totalWeight (p :: l) = p.1 + totalWeight l := by
  simp [totalWeight]

@[simp] theorem weightedSum_nil : weightedSum ([] : List (Nat × K)) = 0 := rfl

@[simp] theorem weightedSum_cons (p : Nat × K) (l : List (Nat × K)) :
    weightedSum (p :: l) = p.1 * p.2 + weightedSum l := by
  simp [weightedSum]

variable [LinearOrder K] [IsStrictOrderedRing K]

variable {l l' : List (Nat × K)}

theorem weightedSum_le {bound : K} (h : ∀ p ∈ l, p.2 ≤ bound) :
    weightedSum l ≤ totalWeight l * bound := by
  induction l with
  | nil => simp
  | cons p l ih =>
      have hhead : p.2 ≤ bound := h p mem_cons_self
      have htail := ih fun q hq => h q (mem_cons_of_mem p hq)
      have hweight : (0 : K) ≤ p.1 := cast_nonneg p.1
      rw [weightedSum_cons, totalWeight_cons]
      push_cast
      rw [add_mul]
      gcongr

theorem le_weightedSum {bound : K} (h : ∀ p ∈ l, bound ≤ p.2) :
    totalWeight l * bound ≤ weightedSum l := by
  induction l with
  | nil => simp
  | cons p l ih =>
      have hhead : bound ≤ p.2 := h p mem_cons_self
      have htail := ih fun q hq => h q (mem_cons_of_mem p hq)
      have hweight : (0 : K) ≤ p.1 := cast_nonneg p.1
      rw [weightedSum_cons, totalWeight_cons]
      push_cast
      rw [add_mul]
      gcongr

/-- One list weighs as another does, and each of its values is at most the other's. -/
def Below : List (Nat × K) → List (Nat × K) → Prop :=
  List.Forall₂ fun p q => p.1 = q.1 ∧ p.2 ≤ q.2

omit [Field K] [IsStrictOrderedRing K] in
theorem Below.totalWeight_eq (h : Below l l') : totalWeight l = totalWeight l' := by
  induction h with
  | nil => rfl
  | cons hhead _ ih => rw [totalWeight_cons, totalWeight_cons, hhead.1, ih]

theorem Below.weightedSum_le (h : Below l l') : weightedSum l ≤ weightedSum l' := by
  induction h with
  | nil => exact le_refl _
  | @cons p q _ _ hhead _ ih =>
      have hweight : (0 : K) ≤ q.1 := cast_nonneg q.1
      have hvalue : p.2 ≤ q.2 := hhead.2
      rw [weightedSum_cons, weightedSum_cons, hhead.1]
      gcongr

/-- **The mean lies between any two bounds of the values.** -/
theorem mean_mem {lo hi : K} (hpos : 0 < totalWeight l)
    (hlo : ∀ p ∈ l, lo ≤ p.2) (hhi : ∀ p ∈ l, p.2 ≤ hi) :
    lo ≤ weightedSum l / totalWeight l ∧ weightedSum l / totalWeight l ≤ hi := by
  have hweight : (0 : K) < totalWeight l := cast_pos.mpr hpos
  rw [le_div_iff₀ hweight, div_le_iff₀ hweight, mul_comm lo, mul_comm hi]
  exact ⟨le_weightedSum hlo, weightedSum_le hhi⟩

/-- **The mean grows with each of the values.** -/
theorem Below.mean_le (h : Below l l') :
    weightedSum l / totalWeight l ≤ weightedSum l' / totalWeight l' := by
  rw [h.totalWeight_eq]
  exact div_le_div_of_nonneg_right h.weightedSum_le (cast_nonneg _)

end InvestmentPlatform.WeightedMean
