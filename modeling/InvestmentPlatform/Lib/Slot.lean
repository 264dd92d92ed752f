/-
One live job for each place.

Jobs sit in a table, each at a place, and some of them are live.  A second table gives
each place the one job that holds it.  Three moves keep the two tables in step: a fresh
live job takes a free slot, a live job changes into another live job at the same place,
and a live job stops being live and gives its slot up.
-/
import InvestmentPlatform.Lib.Table

namespace InvestmentPlatform

open Option

/-- The slots name exactly the live jobs. -/
structure SlotLaw {J R M : Type} (place : R → M) (live : R → Prop) (jobs : Table J R)
    (slots : Table M J) : Prop where
  /-- What a slot names is live, and at that place. -/
  named : ∀ m j, slots m = some j → ∃ row, jobs j = some row ∧ place row = m ∧ live row
  /-- A live job holds the slot of its place. -/
  held : ∀ j row, jobs j = some row → live row → slots (place row) = some j

namespace SlotLaw

variable {J R M : Type} {place : R → M} {live : R → Prop} {jobs : Table J R} {slots : Table M J}

theorem empty : SlotLaw place live (Table.empty : Table J R) (Table.empty : Table M J) :=
  ⟨fun _ _ h => by simp [Table.empty] at h, fun _ _ h => by simp [Table.empty] at h⟩

/-- The slot of a place is taken by `j` exactly when `j` is live there. -/
theorem slot_iff (h : SlotLaw place live jobs slots) (m : M) (j : J) :
    slots m = some j ↔ ∃ row, jobs j = some row ∧ place row = m ∧ live row := by
  constructor
  · exact h.named m j
  · rintro ⟨row, hrow, rfl, hlive⟩
    exact h.held j row hrow hlive

/-- Two live jobs at one place are the same job. -/
theorem unique (h : SlotLaw place live jobs slots) {i j : J} {a b : R} (ha : jobs i = some a)
    (hb : jobs j = some b) (hla : live a) (hlb : live b) (hplace : place a = place b) : i = j := by
  have hi := h.held i a ha hla
  have hj := h.held j b hb hlb
  rw [hplace, hj] at hi
  exact (some.inj hi).symm

variable [DecidableEq J]

/-- A fresh live job takes the free slot of its place. -/
theorem take [DecidableEq M] (h : SlotLaw place live jobs slots) {j : J} {row : R}
    (hfresh : jobs j = none) (hfree : slots (place row) = none) (hlive : live row) :
    SlotLaw place live (jobs.put j row) (slots.put (place row) j) := by
  constructor
  · intro m i hi
    by_cases hm : m = place row
    · subst hm
      rw [Table.put_self, some.injEq] at hi
      subst hi
      exact ⟨row, Table.put_self _ _ _, rfl, hlive⟩
    · rw [Table.put_ne _ _ hm] at hi
      obtain ⟨other, hother, hplace, hl⟩ := h.named m i hi
      have hne : i ≠ j := by
        intro he
        rw [he, hfresh] at hother
        cases hother
      exact ⟨other, by rw [Table.put_ne _ _ hne, hother], hplace, hl⟩
  · intro i other hother hl
    by_cases hi : i = j
    · subst hi
      rw [Table.put_self, some.injEq] at hother
      subst hother
      exact Table.put_self _ _ _
    · rw [Table.put_ne _ _ hi] at hother
      have hslot := h.held i other hother hl
      have hne : place other ≠ place row := by
        intro he
        rw [he, hfree] at hslot
        cases hslot
      rw [Table.put_ne _ _ hne, hslot]

/-- A live job changes and stays live at its place. -/
theorem change (h : SlotLaw place live jobs slots) {j : J} {row row' : R}
    (hrow : jobs j = some row) (hlive : live row) (hlive' : live row')
    (hplace : place row' = place row) : SlotLaw place live (jobs.put j row') slots := by
  constructor
  · intro m i hi
    by_cases hj : i = j
    · subst hj
      obtain ⟨old, hold, hm, -⟩ := h.named m i hi
      rw [hrow, some.injEq] at hold
      subst hold
      exact ⟨row', Table.put_self _ _ _, hplace.trans hm, hlive'⟩
    · obtain ⟨other, hother, hm, hl⟩ := h.named m i hi
      exact ⟨other, by rw [Table.put_ne _ _ hj, hother], hm, hl⟩
  · intro i other hother hl
    by_cases hj : i = j
    · subst hj
      rw [Table.put_self, some.injEq] at hother
      subst hother
      rw [hplace]
      exact h.held i row hrow hlive
    · rw [Table.put_ne _ _ hj] at hother
      exact h.held i other hother hl

/-- A job stops being live and its slot is deleted. -/
theorem drop (h : SlotLaw place live jobs slots) {j : J} {row' : R} (hdead : ¬ live row') :
    SlotLaw place live (jobs.put j row') (slots.deleteWhere fun named => named = j) := by
  constructor
  · intro m i hi
    obtain ⟨hslot, hne⟩ := Table.deleteWhere_eq_some.mp hi
    obtain ⟨other, hother, hm, hl⟩ := h.named m i hslot
    exact ⟨other, by rw [Table.put_ne _ _ hne, hother], hm, hl⟩
  · intro i other hother hl
    by_cases hj : i = j
    · subst hj
      rw [Table.put_self, some.injEq] at hother
      subst hother
      exact absurd hl hdead
    · rw [Table.put_ne _ _ hj] at hother
      exact Table.deleteWhere_eq_some.mpr ⟨h.held i other hother hl, hj⟩

end SlotLaw

end InvestmentPlatform
