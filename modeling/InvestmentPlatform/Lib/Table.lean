/-
Tables with a primary key.

A table is a partial function from keys to rows, so that two rows with one key cannot
be written down.  The four operations are the ones a row store is driven by: insert,
which fails on a taken key; update of one row under a guard, which reports how many
rows it touched; upsert; and delete of every row a predicate selects.
-/
import Mathlib.Logic.Function.Basic

namespace InvestmentPlatform

open Function

/-- At most one row for each key. -/
abbrev Table (K R : Type) := K → Option R

namespace Table

variable {K R : Type}

def empty : Table K R := fun _ => none

/-- `DELETE ... WHERE p`. -/
def deleteWhere (t : Table K R) (p : R → Prop) [DecidablePred p] : Table K R :=
  fun k => (t k).filter fun r => ¬ p r

theorem deleteWhere_eq_some {t : Table K R} {p : R → Prop} [DecidablePred p] {k : K} {r : R} :
    t.deleteWhere p k = some r ↔ t k = some r ∧ ¬ p r := by
  simp [deleteWhere, Option.filter_eq_some_iff]

variable [DecidableEq K]

/-- Write the row of a key, whether or not the key is taken. -/
def put (t : Table K R) (k : K) (r : R) : Table K R := update t k (some r)

@[simp] theorem put_self (t : Table K R) (k : K) (r : R) : t.put k r k = some r := by
  simp [put]

@[simp] theorem put_ne (t : Table K R) {k j : K} (r : R) (h : j ≠ k) : t.put k r j = t j := by
  simp [put, h]

theorem put_apply (t : Table K R) (k j : K) (r : R) :
    t.put k r j = if j = k then some r else t j := by
  by_cases h : j = k <;> simp [h]

theorem put_eq_self {t : Table K R} {k : K} {r : R} (h : t k = some r) : t.put k r = t := by
  rw [put, ← h, update_eq_self]

/-- Write the row of a key, unless the key is taken. -/
def fill (t : Table K R) (k : K) (r : R) : Table K R := if (t k).isSome then t else t.put k r

theorem fill_eq_self {t : Table K R} {k : K} {r : R} : t.fill k r = t ↔ t k ≠ none := by
  unfold fill
  split
  · rename_i h
    exact iff_of_true rfl (Option.isSome_iff_ne_none.mp h)
  · rename_i h
    rw [Option.not_isSome_iff_eq_none] at h
    rw [put, update_eq_self_iff, h]
    exact iff_of_false nofun fun hne => hne rfl

theorem update_fill (t : Table K R) (k : K) (r : R) :
    update (t.fill k r) k none = update t k none := by
  unfold fill
  split
  · rfl
  · exact update_idem _ _ _

/-- `INSERT`: fails when the key is taken. -/
def insert (t : Table K R) (k : K) (r : R) : Option (Table K R) :=
  match t k with
  | some _ => none
  | none => some (t.put k r)

theorem insert_eq_some {t t' : Table K R} {k : K} {r : R} :
    t.insert k r = some t' ↔ t k = none ∧ t' = t.put k r := by
  unfold insert
  cases h : t k <;> simp [eq_comm]

/-- `UPDATE ... SET f WHERE key = k AND guard`, with the number of rows it changed. -/
def updateWhere (t : Table K R) (k : K) (guard : R → Prop) [DecidablePred guard] (f : R → R) :
    Table K R × Nat :=
  match t k with
  | some r => if guard r then (t.put k (f r), 1) else (t, 0)
  | none => (t, 0)

section
variable {t : Table K R} {k : K} {guard : R → Prop} [DecidablePred guard] {f : R → R}

theorem updateWhere_hit {r : R} (hr : t k = some r) (hg : guard r) :
    t.updateWhere k guard f = (t.put k (f r), 1) := by
  simp [updateWhere, hr, hg]

theorem updateWhere_miss (h : ∀ r, t k = some r → ¬ guard r) :
    t.updateWhere k guard f = (t, 0) := by
  unfold updateWhere
  cases hr : t k with
  | none => rfl
  | some r => simp [h r hr]

end

end Table

end InvestmentPlatform
