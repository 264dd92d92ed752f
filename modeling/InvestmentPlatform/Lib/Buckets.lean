/-
Totals by key.

A list whose elements have a value each is summed up by key into a dict, one value of the dict for
all the elements with its key.  Such a dict has the total of the list, however the list is ordered
and whatever the key is.
-/
import InvestmentPlatform.Lib.Dict
import Mathlib.Algebra.BigOperators.Group.List.Basic

namespace InvestmentPlatform.Buckets

open List

variable {α K V M : Type} [AddCommMonoid M]

/-- The values of a list, added up. -/
def total (value : α → M) (l : List α) : M := (l.map value).sum

variable {value : α → M}

@[simp] theorem total_nil : total value [] = 0 := rfl

@[simp] theorem total_cons (a : α) (l : List α) :
    total value (a :: l) = value a + total value l := sum_cons

theorem total_append (l l' : List α) : total value (l ++ l') = total value l + total value l' := by
  unfold total
  rw [map_append, sum_append]

theorem total_snoc (l : List α) (a : α) : total value (l ++ [a]) = total value l + value a := by
  rw [total_append, total_cons, total_nil, add_zero]

variable [DecidableEq K]

/-! ### A list apart by its keys -/

/-- A value that only one key of the list has. -/
theorem total_single {keys : List K} (hnodup : keys.Nodup) {k : K} (hmem : k ∈ keys) (v : M) :
    total (fun j => if k = j then v else 0) keys = v := by
  induction keys with
  | nil => cases hmem
  | cons j keys ih =>
      have hj := nodup_cons.mp hnodup
      rw [total_cons]
      by_cases heq : k = j
      · have hrest : total (fun j => if k = j then v else 0) keys = 0 := by
          have hzero : ∀ i ∈ keys, (if k = i then v else 0) = 0 := by
            intro i hi
            have hne : k ≠ i := by
              rintro rfl
              exact hj.1 (heq ▸ hi)
            exact if_neg hne
          unfold total
          rw [map_congr_left hzero]
          simp
        rw [if_pos heq, hrest, add_zero]
      · have hrest : k ∈ keys := (mem_cons.mp hmem).resolve_left heq
        rw [if_neg heq, zero_add, ih hj.2 hrest]

theorem total_zero (l : List α) : total (fun _ => (0 : M)) l = 0 := by
  induction l with
  | nil => rfl
  | cons a l ih => rw [total_cons, ih, add_zero]

theorem total_add (f g : α → M) (l : List α) :
    total (fun a => f a + g a) l = total f l + total g l := by
  induction l with
  | nil => exact (add_zero 0).symm
  | cons a l ih =>
      rw [total_cons, total_cons, total_cons, ih]
      exact add_add_add_comm _ _ _ _

/-- The parts of a list add up to the whole. -/
theorem total_parts {keys : List K} (hnodup : keys.Nodup) (key : α → K) {l : List α}
    (hkeys : ∀ a ∈ l, key a ∈ keys) :
    total (fun k => total value (l.filter fun a => key a = k)) keys = total value l := by
  induction l with
  | nil => exact total_zero keys
  | cons a l ih =>
      have hsplit : (fun k => total value ((a :: l).filter fun a => key a = k)) =
          fun k => (if key a = k then value a else 0) +
            total value (l.filter fun a => key a = k) := by
        funext k
        rw [filter_cons]
        by_cases hk : key a = k
        · rw [if_pos (decide_eq_true hk), if_pos hk, total_cons]
        · rw [if_neg (by simpa using hk), if_neg hk, zero_add]
      rw [hsplit, total_add, total_single hnodup (hkeys a mem_cons_self),
        ih fun b hb => hkeys b (mem_cons_of_mem a hb), total_cons]

/-! ### The dict of the totals -/

/-- Each key of the list has its total in the dict, and no other key is there. -/
def Tally (key : α → K) (value : α → M) (amount : V → M) (l : List α) (d : Dict K V) : Prop :=
  ∀ k, (d.get? k).map amount =
    if k ∈ l.map key then some (total value (l.filter fun a => key a = k)) else none

variable {key : α → K} {amount : V → M} {l : List α} {d : Dict K V}

theorem Tally.nil : Tally key value amount [] (Dict.empty : Dict K V) := fun _ => rfl

section

variable (h : Tally key value amount l d)
include h

/-- One more element is added to what its key has. -/
theorem Tally.snoc {a : α} {v : V}
    (hv : amount v = ((d.get? (key a)).map amount).getD 0 + value a) :
    Tally key value amount (l ++ [a]) (d.set (key a) v) := by
  intro k
  rw [Dict.get?_set, map_append, filter_append]
  by_cases hk : k = key a
  · subst hk
    rw [if_pos rfl, if_pos (by simp), Option.map_some, hv, h (key a), total_append]
    have hself : ([a].filter fun b => key b = key a) = [a] := by simp
    rw [hself, total_cons, total_nil, add_zero]
    by_cases hmem : key a ∈ l.map key
    · rw [if_pos hmem]
      rfl
    · have hnone : (l.filter fun b => key b = key a) = [] := by
        rw [filter_eq_nil_iff]
        intro b hb hkey
        exact hmem (of_decide_eq_true hkey ▸ mem_map_of_mem hb)
      rw [if_neg hmem, hnone]
      rfl
  · have hother : ([a].filter fun b => key b = k) = [] := by
      rw [filter_eq_nil_iff]
      intro b hb hkey
      exact hk (mem_singleton.mp hb ▸ (of_decide_eq_true hkey).symm)
    have hmem : k ∈ l.map key ++ [a].map key ↔ k ∈ l.map key := by simp [hk]
    rw [if_neg hk, h k, hother, append_nil]
    exact (if_congr hmem rfl rfl).symm

theorem Tally.mem_keys {k : K} : k ∈ d.keys ↔ k ∈ l.map key := by
  rw [← Dict.isSome_get?, ← Option.isSome_map (f := amount), h k]
  split
  · rename_i hmem
    exact ⟨fun _ => hmem, fun _ => rfl⟩
  · rename_i hmem
    exact ⟨fun hsome => (Bool.false_ne_true hsome).elim, fun hk => (hmem hk).elim⟩

/-- The dict has the total of the list. -/
theorem Tally.total_values : total amount d.values = total value l := by
  have hkeys : ∀ a ∈ l, key a ∈ d.keys := fun a ha => h.mem_keys.mpr (mem_map_of_mem ha)
  rw [← total_parts d.nodup_keys key hkeys]
  unfold total Dict.values Dict.keys
  rw [map_map, map_map]
  refine congrArg List.sum (map_congr_left ?_)
  rintro ⟨k, v⟩ hitem
  have hget := h k
  have hmem : k ∈ l.map key := h.mem_keys.mp (mem_map_of_mem (f := Prod.fst) hitem)
  rw [Dict.get?_of_mem hitem, if_pos hmem] at hget
  exact Option.some.inj hget

end

end InvestmentPlatform.Buckets
