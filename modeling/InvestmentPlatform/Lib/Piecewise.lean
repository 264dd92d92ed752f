/-
Piecewise-linear interpolation.

A list of points with ascending inputs gives a function that is constant before the first and after
the last of them and a line between two neighbours.  It stays between any two bounds of the
outputs, and it rises or falls with them.
-/
import Mathlib.Algebra.Order.Field.Basic
import Mathlib.Data.List.Pairwise
import Mathlib.Tactic.Linarith
import Mathlib.Tactic.Ring

namespace InvestmentPlatform.Piecewise

open List

variable {K : Type} [Field K] [LinearOrder K]

/-- The value on the line through two points. -/
def line (p q : K × K) (v : K) : K := p.2 + (q.2 - p.2) * (v - p.1) / (q.1 - p.1)

/-- The value between the first two neighbours that enclose the input, else the last output. -/
def within (v : K) : List (K × K) → K
  | p :: q :: rest =>
      if p.1 ≤ v ∧ v ≤ q.1 then (if q.1 = p.1 then p.2 else line p q v) else within v (q :: rest)
  | [p] => p.2
  | [] => 0

/-- The interpolation; of no points it is nought. -/
def piecewise (v : K) (points : List (K × K)) : K :=
  match points.head?, points.getLast? with
  | some first, some last =>
      if v ≤ first.1 then first.2 else if last.1 ≤ v then last.2 else within v points
  | _, _ => 0

/-! ### Turned upside down -/

/-- The point with the opposite output. -/
def flip (p : K × K) : K × K := (p.1, -p.2)

omit [LinearOrder K] in
theorem line_flip (p q : K × K) (v : K) : line (flip p) (flip q) v = -line p q v := by
  unfold line flip
  ring

theorem within_flip (points : List (K × K)) (v : K) :
    within v (points.map flip) = -within v points := by
  induction points with
  | nil => exact neg_zero.symm
  | cons p rest ih =>
      cases rest with
      | nil => rfl
      | cons q rest =>
          rw [map_cons, map_cons, within, within, ← map_cons, ih, line_flip,
            apply_ite Neg.neg, apply_ite Neg.neg]
          rfl

theorem piecewise_flip (points : List (K × K)) (v : K) :
    piecewise v (points.map flip) = -piecewise v points := by
  unfold piecewise
  rw [head?_map, getLast?_map]
  cases points.head? with
  | none => exact neg_zero.symm
  | some first =>
      cases points.getLast? with
      | none => exact neg_zero.symm
      | some last =>
          rw [Option.map_some, Option.map_some]
          dsimp only
          rw [within_flip, apply_ite Neg.neg, apply_ite Neg.neg]
          rfl

variable [IsStrictOrderedRing K]

/-! ### Bounds -/

variable {p q : K × K} {v lo w : K}

theorem le_line (hlow : p.1 ≤ v) (hhigh : v ≤ q.1) (hlt : p.1 < q.1)
    (hp : lo ≤ p.2) (hq : lo ≤ q.2) : lo ≤ line p q v := by
  -- the value is a mean of the two outputs
  have hwidth : 0 < q.1 - p.1 := sub_pos.mpr hlt
  have hmean : line p q v = (p.2 * (q.1 - v) + q.2 * (v - p.1)) / (q.1 - p.1) := by
    unfold line
    rw [eq_div_iff hwidth.ne', add_mul, div_mul_cancel₀ _ hwidth.ne']
    ring
  rw [hmean, le_div_iff₀ hwidth]
  have hleft := mul_le_mul_of_nonneg_right hp (sub_nonneg.mpr hhigh)
  have hright := mul_le_mul_of_nonneg_right hq (sub_nonneg.mpr hlow)
  linarith

variable {points : List (K × K)}

theorem le_within (hne : points ≠ [])
    (hlo : ∀ p ∈ points, lo ≤ p.2) (v : K) : lo ≤ within v points := by
  induction points with
  | nil => exact absurd rfl hne
  | cons p rest ih =>
      have hp : lo ≤ p.2 := hlo p mem_cons_self
      cases rest with
      | nil => exact hp
      | cons q rest =>
          have hq : lo ≤ q.2 := hlo q (mem_cons_of_mem p mem_cons_self)
          rw [within]
          split
          · rename_i hinside
            split
            · exact hp
            · rename_i hwide
              exact le_line hinside.1 hinside.2
                (lt_of_le_of_ne (hinside.1.trans hinside.2) (Ne.symm hwide)) hp hq
          · exact ih (cons_ne_nil q rest) fun r hr => hlo r (mem_cons_of_mem p hr)

/-- **The interpolation stays above a lower bound of the outputs.** -/
theorem le_piecewise (hne : points ≠ [])
    (hlo : ∀ p ∈ points, lo ≤ p.2) (v : K) : lo ≤ piecewise v points := by
  unfold piecewise
  rw [head?_eq_some_head hne, getLast?_eq_some_getLast hne]
  dsimp only
  split
  · exact hlo _ (head_mem hne)
  · split
    · exact hlo _ (getLast_mem hne)
    · exact le_within hne hlo v

/-- **And below an upper bound.** -/
theorem piecewise_le (hne : points ≠ []) {hi : K}
    (hhi : ∀ p ∈ points, p.2 ≤ hi) (v : K) : piecewise v points ≤ hi := by
  have hflip : -hi ≤ piecewise v (points.map flip) := by
    refine le_piecewise (map_eq_nil_iff.not.mpr hne) (fun p hp => ?_) v
    obtain ⟨q, hq, rfl⟩ := mem_map.mp hp
    exact neg_le_neg (hhi q hq)
  rw [piecewise_flip] at hflip
  exact neg_le_neg_iff.mp hflip

/-! ### Rising and falling -/

omit [IsStrictOrderedRing K] [Field K] in
/-- Ascending inputs. -/
def Ascending (points : List (K × K)) : Prop :=
  points ≠ [] ∧ points.Pairwise fun p q => p.1 < q.1

instance (points : List (K × K)) : Decidable (Ascending points) :=
  inferInstanceAs (Decidable (_ ∧ _))

omit [IsStrictOrderedRing K] [Field K] in
/-- Ascending inputs with outputs that do not descend. -/
def Rising (points : List (K × K)) : Prop :=
  points ≠ [] ∧ points.Pairwise fun p q => p.1 < q.1 ∧ p.2 ≤ q.2

omit [IsStrictOrderedRing K] [Field K] in
/-- Ascending inputs with outputs that do not ascend. -/
def Falling (points : List (K × K)) : Prop :=
  points ≠ [] ∧ points.Pairwise fun p q => p.1 < q.1 ∧ q.2 ≤ p.2

instance (points : List (K × K)) : Decidable (Rising points) :=
  inferInstanceAs (Decidable (_ ∧ _))

instance (points : List (K × K)) : Decidable (Falling points) :=
  inferInstanceAs (Decidable (_ ∧ _))

omit [IsStrictOrderedRing K] [Field K] in
theorem Rising.ascending (h : Rising points) : Ascending points :=
  ⟨h.1, h.2.imp And.left⟩

omit [IsStrictOrderedRing K] [Field K] in
theorem Falling.ascending (h : Falling points) : Ascending points :=
  ⟨h.1, h.2.imp And.left⟩

theorem line_mono (hlt : p.1 < q.1) (hrise : p.2 ≤ q.2) (h : v ≤ w) : line p q v ≤ line p q w := by
  have hwidth : 0 ≤ q.1 - p.1 := (sub_pos.mpr hlt).le
  have hstep : (q.2 - p.2) * (v - p.1) ≤ (q.2 - p.2) * (w - p.1) :=
    mul_le_mul_of_nonneg_left (sub_le_sub_right h _) (sub_nonneg.mpr hrise)
  exact add_le_add_right (div_le_div_of_nonneg_right hstep hwidth) _

theorem line_right (hlt : p.1 < q.1) : line p q q.1 = q.2 := by
  unfold line
  rw [mul_div_cancel_right₀ _ (sub_pos.mpr hlt).ne', add_sub_cancel]

omit [LinearOrder K] [IsStrictOrderedRing K] in
theorem line_left (p q : K × K) : line p q p.1 = p.2 := by
  rw [line, sub_self, mul_zero, zero_div, add_zero]

/-- Between neighbours the value at a point is its output. -/
theorem within_of_mem {first : K × K} {rest : List (K × K)}
    (h : (first :: rest).Pairwise fun p q => p.1 < q.1) (hp : p ∈ first :: rest) :
    within p.1 (first :: rest) = p.2 := by
  induction rest generalizing first with
  | nil =>
      obtain rfl := mem_singleton.mp hp
      rfl
  | cons q rest ih =>
      obtain ⟨hhead, htail⟩ := pairwise_cons.mp h
      have hlt := hhead q mem_cons_self
      rw [within, if_neg hlt.ne']
      rcases mem_cons.mp hp with rfl | hp
      · rw [if_pos ⟨le_refl _, hlt.le⟩, line_left]
      · by_cases hto : p.1 ≤ q.1
        · -- of the later points only `q` is not beyond `q`
          rcases mem_cons.mp hp with rfl | hrest
          · rw [if_pos ⟨hlt.le, le_refl _⟩, line_right hlt]
          · exact absurd hto (not_le.mpr ((pairwise_cons.mp htail).1 p hrest))
        · rw [if_neg fun hc => hto hc.2]
          exact ih htail hp

/-- **At each of its points the interpolation has its output.** -/
theorem Ascending.piecewise_of_mem (h : Ascending points)
    (hp : p ∈ points) : piecewise p.1 points = p.2 := by
  obtain ⟨hne, hpoints⟩ := h
  obtain ⟨first, rest, rfl⟩ := exists_cons_of_ne_nil hne
  unfold piecewise
  rw [head?_cons, getLast?_eq_some_getLast hne]
  dsimp only
  by_cases hfirst : p.1 ≤ first.1
  · rw [if_pos hfirst]
    rcases mem_cons.mp hp with rfl | hrest
    · rfl
    · exact absurd hfirst (not_le.mpr ((pairwise_cons.mp hpoints).1 p hrest))
  · rw [if_neg hfirst]
    by_cases hlast : ((first :: rest).getLast hne).1 ≤ p.1
    · rw [if_pos hlast]
      have hor : (first :: rest).Pairwise fun p q => p = q ∨ p.1 < q.1 := hpoints.imp Or.inr
      rcases hor.rel_getLast_of_rel_getLast_getLast hp (Or.inl rfl) with heq | hlt
      · rw [← heq]
      · exact absurd hlast (not_le.mpr hlt)
    · rw [if_neg hlast]
      exact within_of_mem hpoints hp

theorem within_mono {rest : List (K × K)}
    (h : (p :: rest).Pairwise fun p q => p.1 < q.1 ∧ p.2 ≤ q.2) (hfrom : p.1 ≤ v)
    (hle : v ≤ w) : within v (p :: rest) ≤ within w (p :: rest) := by
  induction rest generalizing p v with
  | nil => exact le_refl _
  | cons q rest ih =>
      obtain ⟨hhead, htail⟩ := pairwise_cons.mp h
      obtain ⟨hlt, hrise⟩ := hhead q mem_cons_self
      rw [within, within, if_neg hlt.ne', if_neg hlt.ne']
      by_cases hw : w ≤ q.1
      · -- both on the first line
        rw [if_pos ⟨hfrom, hle.trans hw⟩, if_pos ⟨hfrom.trans hle, hw⟩]
        exact line_mono hlt hrise hle
      · rw [if_neg (fun hc : p.1 ≤ w ∧ w ≤ q.1 => hw hc.2)]
        by_cases hv : v ≤ q.1
        · -- the first line ends at the output of `q`, and nothing after `q` is below it
          rw [if_pos ⟨hfrom, hv⟩]
          calc line p q v ≤ line p q q.1 := line_mono hlt hrise hv
            _ = q.2 := line_right hlt
            _ ≤ within w (q :: rest) := by
                refine le_within (cons_ne_nil q rest) (fun r hr => ?_) w
                rcases mem_cons.mp hr with rfl | hr
                · exact le_refl _
                · exact ((pairwise_cons.mp htail).1 r hr).2
        · rw [if_neg (fun hc : p.1 ≤ v ∧ v ≤ q.1 => hv hc.2)]
          exact ih htail (not_le.mp hv).le hle

/-- **Between rising points the interpolation rises.** -/
theorem Rising.piecewise_mono (h : Rising points) (hle : v ≤ w) :
    piecewise v points ≤ piecewise w points := by
  obtain ⟨hne, hpoints⟩ := h
  obtain ⟨first, rest, rfl⟩ := exists_cons_of_ne_nil hne
  have hfirst : ∀ p ∈ first :: rest, first.2 ≤ p.2 := by
    intro p hp
    rcases mem_cons.mp hp with rfl | hp
    · exact le_refl _
    · exact ((pairwise_cons.mp hpoints).1 p hp).2
  have hlast : ∀ p ∈ first :: rest, p.2 ≤ ((first :: rest).getLast hne).2 := by
    intro p hp
    have hrises : (first :: rest).Pairwise fun p q => p.2 ≤ q.2 := hpoints.imp And.right
    exact hrises.rel_getLast_of_rel_getLast_getLast hp (le_refl _)
  by_cases hv : v ≤ first.1
  · have hstart : piecewise v (first :: rest) = first.2 := by
      unfold piecewise
      rw [head?_cons, getLast?_eq_some_getLast hne]
      exact if_pos hv
    rw [hstart]
    exact le_piecewise hne hfirst w
  · by_cases hw : ((first :: rest).getLast hne).1 ≤ w
    · have hend : piecewise w (first :: rest) = ((first :: rest).getLast hne).2 := by
        unfold piecewise
        rw [head?_cons, getLast?_eq_some_getLast hne]
        dsimp only
        rw [if_neg (not_le.mpr ((not_le.mp hv).trans_le hle)), if_pos hw]
      rw [hend]
      exact piecewise_le hne hlast v
    · unfold piecewise
      rw [head?_cons, getLast?_eq_some_getLast hne]
      dsimp only
      rw [if_neg hv, if_neg (not_le.mpr ((not_le.mp hv).trans_le hle)), if_neg hw,
        if_neg (fun hc => hw (hc.trans hle))]
      exact within_mono hpoints (not_le.mp hv).le hle

/-- **Between falling points it falls.** -/
theorem Falling.piecewise_anti (h : Falling points) (hle : v ≤ w) :
    piecewise w points ≤ piecewise v points := by
  have hflip : Rising (points.map flip) := by
    refine ⟨map_eq_nil_iff.not.mpr h.1, ?_⟩
    rw [pairwise_map]
    exact h.2.imp fun hpq => ⟨hpq.1, neg_le_neg hpq.2⟩
  have hmono := hflip.piecewise_mono hle
  rw [piecewise_flip, piecewise_flip] at hmono
  exact neg_le_neg_iff.mp hmono

end InvestmentPlatform.Piecewise
