/-
Dicts that are kept small: the place of a key moves to the end when it is written or read, and the
first items are dropped while there is too much.

The items of such a dict are weighed, and a loop that drops items keeps a count beside them.  What
the drop of a single item keeps, the loop keeps, and where an empty dict is never too much, the loop
ends with what is not too much.
-/
import InvestmentPlatform.Lib.Buckets

namespace InvestmentPlatform.Dict

open List

open Buckets (total total_append total_cons total_snoc)

variable {K V B : Type}

/-! ### The first item -/

/-- What `d.popitem(last=False)` leaves. -/
def tail (d : Dict K V) : Dict K V :=
  ⟨d.items.tail, (tail_sublist d.items).map Prod.fst |>.nodup d.nodup⟩

theorem size_tail (d : Dict K V) : d.tail.size = d.size - 1 := length_tail

theorem items_tail {d : Dict K V} {item : K × V} {rest : List (K × V)}
    (hitems : d.items = item :: rest) : d.tail.items = rest := congrArg List.tail hitems

/-- `while full: d.popitem(last=False)`, with what the loop does beside it.  It stops as well when
nothing is left. -/
def evictWhile (full : Dict K V → B → Bool) (drop : B → K × V → B) :
    Nat → Dict K V → B → Dict K V × B
  | 0, d, b => (d, b)
  | left + 1, d, b =>
    if full d b then
      match d.items.head? with
      | none => (d, b)
      | some item => evictWhile full drop left d.tail (drop b item)
    else (d, b)

/-- The loop over all the items. -/
def evict (full : Dict K V → B → Bool) (drop : B → K × V → B) (d : Dict K V) (b : B) :
    Dict K V × B := evictWhile full drop d.size d b

variable {full : Dict K V → B → Bool} {drop : B → K × V → B} {I : Dict K V → B → Prop}

theorem evictWhile_spec
    (hdrop : ∀ d b item rest, d.items = item :: rest → I d b → I d.tail (drop b item))
    (hempty : ∀ d b, d.items = [] → I d b → full d b = false) (left : Nat) {d : Dict K V} {b : B}
    (hleft : d.size ≤ left) (h : I d b) :
    I (evictWhile full drop left d b).1 (evictWhile full drop left d b).2 ∧
      full (evictWhile full drop left d b).1 (evictWhile full drop left d b).2 = false := by
  induction left generalizing d b with
  | zero =>
    have hnil : d.items = [] := eq_nil_of_length_eq_zero (Nat.le_zero.mp hleft)
    exact ⟨h, hempty d b hnil h⟩
  | succ left ih =>
    rw [evictWhile]
    split
    · rename_i hfull
      cases hitems : d.items with
      | nil => exact absurd hfull (Bool.eq_false_iff.mp (hempty d b hitems h))
      | cons item rest =>
        have hsize : d.tail.size ≤ left := by
          rw [size_tail]
          omega
        exact ih hsize (hdrop d b item rest hitems h)
    · rename_i hfull
      exact ⟨h, Bool.eq_false_iff.mpr hfull⟩

variable (full drop) in
/-- What a drop keeps, the loop keeps; and it ends where there is not too much. -/
theorem evict_spec
    (hdrop : ∀ d b item rest, d.items = item :: rest → I d b → I d.tail (drop b item))
    (hempty : ∀ d b, d.items = [] → I d b → full d b = false) {d : Dict K V} {b : B} (h : I d b) :
    I (evict full drop d b).1 (evict full drop d b).2 ∧
      full (evict full drop d b).1 (evict full drop d b).2 = false :=
  evictWhile_spec hdrop hempty d.size (Nat.le_refl d.size) h

variable [DecidableEq K]

theorem get?_tail {d : Dict K V} {item : K × V} {rest : List (K × V)}
    (hitems : d.items = item :: rest) (k : K) :
    d.tail.get? k = if k = item.1 then none else d.get? k := by
  have hfresh : item.1 ∉ rest.map Prod.fst := by
    have hnodup := d.nodup
    rw [hitems, map_cons] at hnodup
    exact (nodup_cons.mp hnodup).1
  by_cases hk : k = item.1
  · rw [if_pos hk, get?_eq_none, keys, items_tail hitems, hk]
    exact hfresh
  · rw [if_neg hk, get?, get?, items_tail hitems, hitems, find?_cons_of_neg]
    simpa using Ne.symm hk

/-! ### The last item -/

/-- `d[k] = v` and `d.move_to_end(k)`. -/
def setLast (d : Dict K V) (k : K) (v : V) : Dict K V := (d.pop k).set k v

theorem notMem_keys_pop (d : Dict K V) (k : K) : k ∉ (d.pop k).keys := by
  rw [← get?_eq_none, get?_pop, if_pos rfl]

theorem get?_setLast (d : Dict K V) (k j : K) (v : V) :
    (d.setLast k v).get? j = if j = k then some v else d.get? j := by
  unfold setLast
  rw [get?_set, get?_pop]
  split
  · rfl
  · rfl

theorem items_setLast (d : Dict K V) (k : K) (v : V) :
    (d.setLast k v).items = (d.pop k).items ++ [(k, v)] :=
  items_set_of_notMem (notMem_keys_pop d k) v

/-- Where an item stands, popping its key takes it out from between its neighbours. -/
theorem items_pop_of_mid {d : Dict K V} {front back : List (K × V)} {item : K × V}
    (hitems : d.items = front ++ item :: back) : (d.pop item.1).items = front ++ back := by
  have hnodup := d.nodup
  rw [hitems, map_append, map_cons] at hnodup
  obtain ⟨-, hcons, hdisjoint⟩ := nodup_append.mp hnodup
  have hfront : ∀ other ∈ front, other.1 ≠ item.1 := fun other hother =>
    hdisjoint other.1 (mem_map_of_mem hother) item.1 mem_cons_self
  have hback : ∀ other ∈ back, other.1 ≠ item.1 := by
    intro other hother hsame
    exact (nodup_cons.mp hcons).1 (hsame ▸ mem_map_of_mem hother)
  show d.items.filter (fun other => other.1 ≠ item.1) = front ++ back
  rw [hitems, filter_append, filter_cons_of_neg (by simp),
    filter_eq_self.mpr fun other hother => decide_eq_true (hfront other hother),
    filter_eq_self.mpr fun other hother => decide_eq_true (hback other hother)]

theorem pop_of_notMem {d : Dict K V} {k : K} (h : k ∉ d.keys) : (d.pop k).items = d.items := by
  refine filter_eq_self.mpr fun item hitem => decide_eq_true fun hk => ?_
  exact h (hk ▸ mem_map_of_mem hitem)

/-- A value that is there only moves. -/
theorem get?_setLast_of_get? {d : Dict K V} {k : K} {v : V} (h : d.get? k = some v) (j : K) :
    (d.setLast k v).get? j = d.get? j := by
  rw [get?_setLast]
  split
  · rename_i hj
    rw [hj, h]
  · rfl

theorem size_setLast_of_get? {d : Dict K V} {k : K} {v : V} (h : d.get? k = some v) :
    (d.setLast k v).size = d.size := by
  obtain ⟨front, back, hitems⟩ := append_of_mem (mem_items_of_get? h)
  have hpop : (d.pop k).items = front ++ back := items_pop_of_mid hitems
  rw [size, size, items_setLast, hpop, hitems]
  simp only [length_append, length_cons, length_nil]
  omega

theorem size_foldl_pop_le (ks : List K) (d : Dict K V) : (ks.foldl pop d).size ≤ d.size := by
  induction ks generalizing d with
  | nil => exact Nat.le_refl _
  | cons k ks ih => exact Nat.le_trans (ih (d.pop k)) (length_filter_le _ _)

/-! ### What the values weigh -/

variable (size : V → ℤ)

/-- The sum of the sizes of the values. -/
def weight (d : Dict K V) : ℤ := total (fun item => size item.2) d.items

variable {size}

omit [DecidableEq K] in
theorem weight_tail {d : Dict K V} {item : K × V} {rest : List (K × V)}
    (hitems : d.items = item :: rest) : d.tail.weight size = d.weight size - size item.2 := by
  rw [weight, weight, items_tail hitems, hitems, total_cons]
  omega

theorem weight_pop (d : Dict K V) (k : K) :
    (d.pop k).weight size = d.weight size - ((d.get? k).elim 0 size) := by
  cases hget : d.get? k with
  | none =>
    rw [weight, weight, pop_of_notMem (get?_eq_none.mp hget), Option.elim_none]
    omega
  | some v =>
    obtain ⟨front, back, hitems⟩ := append_of_mem (mem_items_of_get? hget)
    have hpop : (d.pop k).items = front ++ back := items_pop_of_mid hitems
    rw [weight, weight, hpop, hitems, total_append, total_append, total_cons, Option.elim_some]
    dsimp only
    omega

theorem weight_setLast (d : Dict K V) (k : K) (v : V) :
    (d.setLast k v).weight size = d.weight size - ((d.get? k).elim 0 size) + size v := by
  have hsnoc : (d.setLast k v).weight size = (d.pop k).weight size + size v := by
    rw [weight, weight, items_setLast, total_snoc]
  rw [hsnoc, weight_pop]

/-- `for k, v in list(d.items()): if gone(v): d.pop(k)`, with a count that goes down by their
sizes. -/
def purge (gone : V → Bool) (size : V → ℤ) (d : Dict K V) (count : ℤ) : Dict K V × ℤ :=
  d.items.foldl
    (fun state item =>
      if gone item.2 then (state.1.pop item.1, state.2 - size item.2) else state)
    (d, count)

variable (size) in
theorem purge_spec (gone : V → Bool) (d : Dict K V) (count : ℤ) :
    (d.purge gone size count).1.items = d.items.filter (fun item => !gone item.2) ∧
      (d.purge gone size count).2 - (d.purge gone size count).1.weight size =
        count - d.weight size := by
  -- In front of the items to come stand those that stay.
  have hloop : ∀ (todo front : List (K × V)) (d : Dict K V) (count : ℤ), d.items = front ++ todo →
      let state := todo.foldl (fun (state : Dict K V × ℤ) item =>
        if gone item.2 then (state.1.pop item.1, state.2 - size item.2) else state) (d, count)
      state.1.items = front ++ todo.filter (fun item => !gone item.2) ∧
        state.2 - state.1.weight size = count - d.weight size := by
    intro todo
    induction todo with
    | nil =>
      intro front d count hitems
      exact ⟨hitems, rfl⟩
    | cons item todo ih =>
      intro front d count hitems
      rw [foldl_cons]
      by_cases hgone : gone item.2
      · rw [if_pos hgone, filter_cons_of_neg (by simp [hgone])]
        obtain ⟨hrest, hcount⟩ :=
          ih front (d.pop item.1) (count - size item.2) (items_pop_of_mid hitems)
        refine ⟨hrest, hcount.trans ?_⟩
        have hget : d.get? item.1 = some item.2 :=
          get?_of_mem (hitems ▸ mem_append_right front mem_cons_self)
        rw [weight_pop, hget, Option.elim_some]
        omega
      · rw [if_neg hgone, filter_cons_of_pos (by simp [hgone])]
        obtain ⟨hrest, hcount⟩ := ih (front ++ [item]) d count (by rw [hitems]; simp)
        refine ⟨?_, hcount⟩
        rw [hrest, List.append_assoc, singleton_append]
  exact hloop d.items [] d count rfl

theorem get?_purge (gone : V → Bool) (d : Dict K V) (count : ℤ) (k : K) (v : V) :
    (d.purge gone size count).1.get? k = some v ↔ d.get? k = some v ∧ gone v = false := by
  rw [← mem_items, ← mem_items, (purge_spec size gone d count).1, mem_filter]
  simp

end InvestmentPlatform.Dict
