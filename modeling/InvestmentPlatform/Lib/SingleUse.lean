/-
Tokens that may be used once.

A table has the rows of the tokens that are out, a row says whether its token is spent, and two
lists tell the history: what was issued and what was used.  A row is recognised by the id of its
key, and every id is issued once.  Then a token that is used while its row is not spent is used
for the first time, whatever rows were removed meanwhile.
-/
import Mathlib.Data.List.Nodup

namespace InvestmentPlatform.SingleUse

open List

variable {Row Key Id : Type} [DecidableEq Id]

/-! ### Rows with an id -/

section
variable (id : Row → Id)

/-- `UPDATE ... WHERE id = ..`, the whole row. -/
def replace (new : Row) (rows : List Row) : List Row :=
  rows.map fun row => if id row = id new then new else row

variable {id} {new row : Row} {rows : List Row}

theorem mem_replace : row ∈ replace id new rows ↔
    (row = new ∧ ∃ old ∈ rows, id old = id new) ∨ (row ∈ rows ∧ id row ≠ id new) := by
  unfold replace
  rw [mem_map]
  constructor
  · rintro ⟨old, hold, heq⟩
    by_cases h : id old = id new
    · rw [if_pos h] at heq
      exact Or.inl ⟨heq.symm, old, hold, h⟩
    · rw [if_neg h] at heq
      rw [← heq]
      exact Or.inr ⟨hold, h⟩
  · rintro (⟨rfl, old, hold, h⟩ | ⟨hrow, h⟩)
    · exact ⟨old, hold, if_pos h⟩
    · exact ⟨row, hrow, if_neg h⟩

theorem replace_ids : (replace id new rows).map id = rows.map id := by
  unfold replace
  rw [map_map]
  refine map_congr_left fun row _ => ?_
  show id (if id row = id new then new else row) = id row
  by_cases h : id row = id new
  · rw [if_pos h, h]
  · rw [if_neg h]

/-- Every row keeps a row of its id. -/
theorem exists_replace (h : row ∈ rows) : ∃ row' ∈ replace id new rows, id row' = id row := by
  by_cases hid : id row = id new
  · exact ⟨new, mem_replace.mpr (Or.inl ⟨rfl, row, h, hid⟩), hid.symm⟩
  · exact ⟨row, mem_replace.mpr (Or.inr ⟨h, hid⟩), rfl⟩

end

/-! ### The books -/

/-- The rows are issued tokens, no id is issued twice, and what is used was issued, is used once
and is spent where its row is left. -/
structure Books (key : Row → Key) (id : Key → Id) (spent : Row → Prop) (rows : List Row)
    (issued used : List Key) : Prop where
  keys : ∀ row ∈ rows, key row ∈ issued
  rowIds : (rows.map fun row => id (key row)).Nodup
  ids : (issued.map id).Nodup
  usedIssued : ∀ k ∈ used, k ∈ issued
  once : used.Nodup
  spent : ∀ row ∈ rows, key row ∈ used → spent row

namespace Books

variable {key : Row → Key} {id : Key → Id} {spent : Row → Prop} {rows : List Row}
  {issued used : List Key}

omit [DecidableEq Id] in
theorem empty : Books key id spent [] [] [] where
  keys := fun _ h => absurd h not_mem_nil
  rowIds := nodup_nil
  ids := nodup_nil
  usedIssued := fun _ h => absurd h not_mem_nil
  once := nodup_nil
  spent := fun _ h => absurd h not_mem_nil

omit [DecidableEq Id] in
/-- One id, one key. -/
theorem key_eq (h : Books key id spent rows issued used) {k k' : Key} (hk : k ∈ issued)
    (hk' : k' ∈ issued) (hid : id k = id k') : k = k' :=
  inj_on_of_nodup_map h.ids hk hk' hid

omit [DecidableEq Id] in
theorem row_eq (h : Books key id spent rows issued used) {row row' : Row} (hrow : row ∈ rows)
    (hrow' : row' ∈ rows) (hid : id (key row) = id (key row')) : row = row' :=
  inj_on_of_nodup_map h.rowIds hrow hrow' hid

omit [DecidableEq Id] in
theorem issue (h : Books key id spent rows issued used) {row : Row}
    (hfresh : id (key row) ∉ issued.map id) :
    Books key id spent (rows ++ [row]) (issued ++ [key row]) used := by
  have hold : key row ∉ issued := fun hmem => hfresh (mem_map_of_mem hmem)
  refine ⟨fun other hother => ?_, ?_, ?_, fun k hk => mem_append_left _ (h.usedIssued k hk),
    h.once, fun other hother hused => ?_⟩
  · rcases mem_append.mp hother with hmem | hnew
    · exact mem_append_left _ (h.keys other hmem)
    · rw [mem_singleton.mp hnew]
      exact mem_append_right _ (mem_singleton.mpr rfl)
  · rw [map_append, map_singleton]
    refine h.rowIds.append (nodup_singleton _) (disjoint_singleton.mpr fun hmem => ?_)
    obtain ⟨other, hother, hid⟩ := mem_map.mp hmem
    exact hfresh (hid ▸ mem_map_of_mem (h.keys other hother))
  · rw [map_append, map_singleton]
    exact h.ids.append (nodup_singleton _) (disjoint_singleton.mpr hfresh)
  · rcases mem_append.mp hother with hmem | hnew
    · exact h.spent other hmem hused
    · rw [mem_singleton.mp hnew] at hused
      exact absurd (h.usedIssued _ hused) hold

omit [DecidableEq Id] in
/-- Rows may go. -/
theorem filter (h : Books key id spent rows issued used) (p : Row → Bool) :
    Books key id spent (rows.filter p) issued used where
  keys row hrow := h.keys row (mem_of_mem_filter hrow)
  rowIds := h.rowIds.sublist (filter_sublist.map _)
  ids := h.ids
  usedIssued := h.usedIssued
  once := h.once
  spent row hrow := h.spent row (mem_of_mem_filter hrow)

/-- A token is used, while its row is not spent. -/
theorem use (h : Books key id spent rows issued used) {row new : Row} (hrow : row ∈ rows)
    (hunspent : ¬ spent row) (hnew : key new ∈ issued) (hid : id (key row) = id (key new))
    (hspent : spent new) :
    Books key id spent (replace (fun row => id (key row)) new rows) issued (used ++ [key new]) := by
  have hkey : key row = key new := h.key_eq (h.keys row hrow) hnew hid
  have hunused : key new ∉ used := fun hmem => hunspent (h.spent row hrow (hkey ▸ hmem))
  refine ⟨fun other hother => ?_, ?_, h.ids, fun k hk => ?_, ?_, fun other hother hused => ?_⟩
  · rcases mem_replace.mp hother with ⟨rfl, -⟩ | ⟨hmem, -⟩
    · exact hnew
    · exact h.keys other hmem
  · rw [show (replace (fun row => id (key row)) new rows).map (fun row => id (key row)) = _ from
      replace_ids]
    exact h.rowIds
  · rcases mem_append.mp hk with hmem | hlast
    · exact h.usedIssued k hmem
    · rw [mem_singleton.mp hlast]
      exact hnew
  · exact h.once.append (nodup_singleton _) (disjoint_singleton.mpr hunused)
  · rcases mem_replace.mp hother with ⟨rfl, -⟩ | ⟨hmem, hne⟩
    · exact hspent
    · rcases mem_append.mp hused with hbefore | hlast
      · exact h.spent other hmem hbefore
      · exact absurd (congrArg id (mem_singleton.mp hlast)) hne

end Books

end InvestmentPlatform.SingleUse
