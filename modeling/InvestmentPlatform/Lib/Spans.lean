/-
Ranges of whole numbers with both ends in them.

A list of spans is tidy when none is empty and each ends before the next begins.  Cutting each span
of a tidy list into parts of itself keeps the list tidy, and that is all there is to taking one range
out of a list and to splitting ranges into windows.
-/
import Mathlib.Data.Int.Order.Basic
import Mathlib.Data.List.Pairwise

namespace InvestmentPlatform.Spans

open List

/-- The first and the last number. -/
abbrev Span := ℤ × ℤ

/-- The number is in one of the spans. -/
def Covers (spans : List Span) (n : ℤ) : Prop := ∃ s ∈ spans, s.1 ≤ n ∧ n ≤ s.2

structure Tidy (spans : List Span) : Prop where
  nonempty : ∀ s ∈ spans, s.1 ≤ s.2
  ascending : spans.Pairwise fun s t => s.2 < t.1

theorem Tidy.nil : Tidy [] := ⟨fun _ hs => (not_mem_nil hs).elim, List.Pairwise.nil⟩

variable {s : Span}

theorem Tidy.single (h : s.1 ≤ s.2) : Tidy [s] := by
  refine ⟨fun t ht => ?_, pairwise_singleton _ _⟩
  rw [mem_singleton.mp ht]
  exact h

theorem covers_nil (n : ℤ) : ¬ Covers [] n := fun ⟨_, hs, _⟩ => not_mem_nil hs

variable {spans : List Span} {n : ℤ}

theorem covers_cons : Covers (s :: spans) n ↔ s.1 ≤ n ∧ n ≤ s.2 ∨ Covers spans n := by
  unfold Covers
  simp

theorem covers_append {spans' : List Span} :
    Covers (spans ++ spans') n ↔ Covers spans n ∨ Covers spans' n := by
  unfold Covers
  simp only [mem_append, or_and_right, exists_or]

theorem covers_flatMap {f : Span → List Span} :
    Covers (spans.flatMap f) n ↔ ∃ s ∈ spans, Covers (f s) n := by
  unfold Covers
  constructor
  · rintro ⟨part, hpart, hn⟩
    obtain ⟨s, hs, hmem⟩ := mem_flatMap.mp hpart
    exact ⟨s, hs, part, hmem, hn⟩
  · rintro ⟨s, hs, part, hmem, hn⟩
    exact ⟨part, mem_flatMap.mpr ⟨s, hs, hmem⟩, hn⟩

/-- Two tidy lists, the one before the other. -/
theorem Tidy.append {spans' : List Span} (h : Tidy spans) (h' : Tidy spans')
    (hlt : ∀ s ∈ spans, ∀ t ∈ spans', s.2 < t.1) : Tidy (spans ++ spans') := by
  refine ⟨fun s hs => ?_, pairwise_append.mpr ⟨h.ascending, h'.ascending, hlt⟩⟩
  rcases mem_append.mp hs with hs | hs
  · exact h.nonempty s hs
  · exact h'.nonempty s hs

/-! ### Parts -/

/-- The parts are a tidy list inside the span. -/
structure PartsOf (s : Span) (parts : List Span) : Prop where
  tidy : Tidy parts
  inside : ∀ part ∈ parts, s.1 ≤ part.1 ∧ part.2 ≤ s.2

theorem PartsOf.nil (s : Span) : PartsOf s [] := ⟨Tidy.nil, fun _ h => (not_mem_nil h).elim⟩

theorem PartsOf.single {part : Span} (h : part.1 ≤ part.2) (hlow : s.1 ≤ part.1)
    (hhigh : part.2 ≤ s.2) : PartsOf s [part] := by
  refine ⟨Tidy.single h, fun other hother => ?_⟩
  rw [mem_singleton.mp hother]
  exact ⟨hlow, hhigh⟩

/-- A tidy list stays tidy when its spans are split up. -/
theorem Tidy.flatMap {f : Span → List Span} (h : Tidy spans)
    (hparts : ∀ s ∈ spans, PartsOf s (f s)) : Tidy (spans.flatMap f) := by
  induction spans with
  | nil => exact Tidy.nil
  | cons s spans ih =>
      obtain ⟨hhead, htail⟩ := pairwise_cons.mp h.ascending
      have hrest := ih ⟨fun t ht => h.nonempty t (mem_cons_of_mem s ht), htail⟩
        fun t ht => hparts t (mem_cons_of_mem s ht)
      have hs := hparts s mem_cons_self
      rw [flatMap_cons]
      refine hs.tidy.append hrest fun part hpart other hother => ?_
      obtain ⟨t, ht, hmem⟩ := mem_flatMap.mp hother
      have hhigh := (hs.inside part hpart).2
      have hlow := ((hparts t (mem_cons_of_mem s ht)).inside other hmem).1
      have hlt := hhead t ht
      omega

/-! ### Taking a range out -/

/-- What is left of a span without a range. -/
def takeOut (cut s : Span) : List Span :=
  if cut.2 < s.1 ∨ s.2 < cut.1 then [s]
  else (if s.1 < cut.1 then [(s.1, cut.1 - 1)] else []) ++
    (if cut.2 < s.2 then [(cut.2 + 1, s.2)] else [])

theorem covers_takeOut {cut : Span} (hcut : cut.1 ≤ cut.2) :
    Covers (takeOut cut s) n ↔ (s.1 ≤ n ∧ n ≤ s.2) ∧ ¬ (cut.1 ≤ n ∧ n ≤ cut.2) := by
  unfold takeOut
  split
  · rw [covers_cons]
    simp only [covers_nil, or_false]
    omega
  · rw [covers_append]
    split <;> split <;> simp only [covers_cons, covers_nil, or_false, false_or, false_iff] <;> omega

theorem takeOut_parts {cut : Span} (hcut : cut.1 ≤ cut.2) (hs : s.1 ≤ s.2) :
    PartsOf s (takeOut cut s) := by
  unfold takeOut
  split
  · exact PartsOf.single hs (le_refl _) (le_refl _)
  · have hfront : PartsOf s (if s.1 < cut.1 then [(s.1, cut.1 - 1)] else []) := by
      split
      · exact PartsOf.single (by dsimp only; omega) (le_refl _) (by dsimp only; omega)
      · exact PartsOf.nil s
    have hback : PartsOf s (if cut.2 < s.2 then [(cut.2 + 1, s.2)] else []) := by
      split
      · exact PartsOf.single (by dsimp only; omega) (by dsimp only; omega) (le_refl _)
      · exact PartsOf.nil s
    refine ⟨hfront.tidy.append hback.tidy ?_, ?_⟩
    · intro a ha b hb
      split at ha
      · split at hb
        · rw [mem_singleton.mp ha, mem_singleton.mp hb]
          dsimp only
          omega
        · cases hb
      · cases ha
    · intro part hpart
      rcases mem_append.mp hpart with h | h
      · exact hfront.inside part h
      · exact hback.inside part h

/-! ### Windows -/

/-- A span from `cursor` to `stop` in windows of `step + 1` numbers, the last one shorter. -/
def windows (step : Nat) (stop cursor : ℤ) : List Span :=
  if cursor ≤ stop then
    let last := cursor + min (step : ℤ) (stop - cursor)
    (cursor, last) :: if last = stop then [] else windows step stop (last + 1)
  else []
termination_by (stop + 1 - cursor).toNat
decreasing_by omega

theorem windows_of_lt {step : Nat} {stop cursor : ℤ} (h : stop < cursor) :
    windows step stop cursor = [] := by
  rw [windows, if_neg (by omega)]

/-- The windows are the span, in parts of at most the size. -/
theorem windows_spec (step : Nat) (stop cursor : ℤ) :
    PartsOf (cursor, stop) (windows step stop cursor) ∧
    (∀ n, Covers (windows step stop cursor) n ↔ cursor ≤ n ∧ n ≤ stop) ∧
    ∀ w ∈ windows step stop cursor, w.2 - w.1 ≤ step := by
  induction cursor using windows.induct step stop with
  | case2 cursor hnot =>
      rw [windows_of_lt (by omega)]
      refine ⟨PartsOf.nil _, fun n => ⟨fun h => (covers_nil n h).elim, fun h => ?_⟩, ?_⟩
      · omega
      · intro w hw
        cases hw
  | case1 cursor hle last ih =>
      have hlast : cursor ≤ last ∧ last ≤ stop ∧ last - cursor ≤ step := by omega
      rw [windows, if_pos hle]
      show PartsOf _ ((cursor, last) :: if last = stop then [] else windows step stop (last + 1)) ∧
        (∀ n, Covers ((cursor, last) :: if last = stop then [] else windows step stop (last + 1)) n
          ↔ _) ∧
        ∀ w ∈ (cursor, last) :: if last = stop then [] else windows step stop (last + 1), _
      have hone : PartsOf (cursor, stop) [(cursor, last)] :=
        PartsOf.single hlast.1 (le_refl _) hlast.2.1
      by_cases hend : last = stop
      · rw [if_pos hend]
        refine ⟨hone, fun n => ?_, fun w hw => ?_⟩
        · rw [covers_cons]
          simp only [covers_nil, or_false, hend]
        · rw [mem_singleton.mp hw]
          exact hlast.2.2
      · obtain ⟨hparts, hcovers, hsize⟩ := ih
        rw [if_neg hend]
        refine ⟨⟨hone.tidy.append hparts.tidy ?_, ?_⟩, fun n => ?_, fun w hw => ?_⟩
        · intro s hs t ht
          have hlow := (hparts.inside t ht).1
          rw [mem_singleton.mp hs]
          dsimp only at hlow ⊢
          omega
        · intro part hpart
          rcases mem_cons.mp hpart with rfl | hpart
          · exact ⟨le_refl _, hlast.2.1⟩
          · have hinside := hparts.inside part hpart
            dsimp only at hinside ⊢
            omega
        · rw [covers_cons, hcovers]
          dsimp only
          omega
        · rcases mem_cons.mp hw with rfl | hw
          · exact hlast.2.2
          · exact hsize w hw

end InvestmentPlatform.Spans
