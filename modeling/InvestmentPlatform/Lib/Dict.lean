/-
Dicts that remember the order of their keys.

A Python dict lists its items in the order the keys first came up, and writing under a key
that is there keeps the place.  A `Dict` is such a list of items, with the proof that no key
stands in it twice.
-/
import Mathlib.Data.List.Nodup

namespace InvestmentPlatform

open List

structure Dict (K V : Type) where
  items : List (K × V)
  nodup : (items.map Prod.fst).Nodup

namespace Dict

variable {K V : Type}

def empty : Dict K V := ⟨[], nodup_nil⟩

def keys (d : Dict K V) : List K := d.items.map Prod.fst

def values (d : Dict K V) : List V := d.items.map Prod.snd

def size (d : Dict K V) : Nat := d.items.length

theorem nodup_keys (d : Dict K V) : d.keys.Nodup := d.nodup

theorem length_keys (d : Dict K V) : d.keys.length = d.size := length_map _

@[simp] theorem keys_empty : (empty : Dict K V).keys = [] := rfl

@[simp] theorem size_empty : (empty : Dict K V).size = 0 := rfl

variable [DecidableEq K]

/-- `d.get(k)`. -/
def get? (d : Dict K V) (k : K) : Option V :=
  (d.items.find? fun item => item.1 = k).map Prod.snd

variable {d : Dict K V} {k j : K}

theorem get?_eq_none : d.get? k = none ↔ k ∉ d.keys := by
  simp only [get?, Option.map_eq_none_iff, find?_eq_none, decide_eq_true_eq, keys,
    mem_map, not_exists, not_and]

theorem isSome_get? : (d.get? k).isSome ↔ k ∈ d.keys := by
  rw [← not_iff_not, ← get?_eq_none, Bool.not_eq_true, Option.isSome_eq_false_iff,
    Option.isNone_iff_eq_none]

variable {v : V}

theorem mem_items_of_get? (h : d.get? k = some v) : (k, v) ∈ d.items := by
  obtain ⟨item, hfind, rfl⟩ := Option.map_eq_some_iff.mp h
  have hkey := find?_some hfind
  rw [decide_eq_true_eq] at hkey
  rw [← hkey]
  exact mem_of_find?_eq_some hfind

/-- The items of a dict are what its keys look up. -/
theorem get?_of_mem (h : (k, v) ∈ d.items) : d.get? k = some v := by
  have hmem : k ∈ d.keys := mem_map_of_mem (f := Prod.fst) h
  obtain ⟨w, hw⟩ := Option.isSome_iff_exists.mp (isSome_get?.mpr hmem)
  have heq := inj_on_of_nodup_map d.nodup h (mem_items_of_get? hw) rfl
  rw [hw, ← (Prod.mk.inj heq).2]

theorem mem_items : (k, v) ∈ d.items ↔ d.get? k = some v :=
  ⟨get?_of_mem, mem_items_of_get?⟩

/-! ### Writing -/

theorem replace_keys (k : K) (v : V) (items : List (K × V)) :
    (items.map fun item => if item.1 = k then (k, v) else item).map Prod.fst
      = items.map Prod.fst := by
  rw [map_map]
  refine map_congr_left fun item _ => ?_
  by_cases h : item.1 = k
  · simp [h]
  · simp [h]

/-- `d[k] = v`. -/
def set (d : Dict K V) (k : K) (v : V) : Dict K V :=
  if h : k ∈ d.keys then
    ⟨d.items.map fun item => if item.1 = k then (k, v) else item, by
      rw [replace_keys]
      exact d.nodup⟩
  else
    ⟨d.items ++ [(k, v)], by
      rw [map_append]
      refine nodup_append.mpr ⟨d.nodup, nodup_singleton _, ?_⟩
      intro a ha b hb hab
      have hbk : b = k := mem_singleton.mp hb
      exact h (hbk ▸ hab ▸ ha)⟩

theorem keys_set_of_mem (h : k ∈ d.keys) (v : V) : (d.set k v).keys = d.keys := by
  rw [set, dif_pos h]
  exact replace_keys k v d.items

theorem keys_set_of_notMem (h : k ∉ d.keys) (v : V) : (d.set k v).keys = d.keys ++ [k] := by
  rw [set, dif_neg h]
  exact map_append

theorem items_set_of_notMem (h : k ∉ d.keys) (v : V) : (d.set k v).items = d.items ++ [(k, v)] := by
  rw [set, dif_neg h]

@[simp] theorem mem_keys_set : j ∈ (d.set k v).keys ↔ j ∈ d.keys ∨ j = k := by
  by_cases h : k ∈ d.keys
  · rw [keys_set_of_mem h]
    constructor
    · exact Or.inl
    · rintro (hj | rfl)
      · exact hj
      · exact h
  · rw [keys_set_of_notMem h, mem_append, mem_singleton]

theorem size_set_of_mem (h : k ∈ d.keys) (v : V) : (d.set k v).size = d.size := by
  rw [← length_keys, keys_set_of_mem h, length_keys]

theorem size_set_of_notMem (h : k ∉ d.keys) (v : V) : (d.set k v).size = d.size + 1 := by
  rw [← length_keys, keys_set_of_notMem h, length_append, length_keys, length_singleton]

theorem get?_set (d : Dict K V) (k j : K) (v : V) :
    (d.set k v).get? j = if j = k then some v else d.get? j := by
  unfold set
  split
  · rename_i h
    simp only [get?, find?_map, Option.map_map]
    by_cases hj : j = k
    · subst hj
      obtain ⟨w, hw⟩ := Option.isSome_iff_exists.mp (isSome_get?.mpr h)
      obtain ⟨item, hfind, -⟩ := Option.map_eq_some_iff.mp hw
      have hcongr : ((fun item : K × V => decide (item.1 = j)) ∘
          fun item => if item.1 = j then (j, v) else item) =
          fun item => decide (item.1 = j) := by
        funext item
        by_cases hi : item.1 = j <;> simp [hi]
      have hkey := find?_some hfind
      rw [decide_eq_true_eq] at hkey
      rw [hcongr, hfind, Option.map_some, if_pos rfl]
      simp [hkey]
    · have hcongr : ((fun item : K × V => decide (item.1 = j)) ∘
          fun item => if item.1 = k then (k, v) else item) =
          fun item => decide (item.1 = j) := by
        funext item
        by_cases hi : item.1 = k
        · simp [hi]
        · simp [hi]
      rw [hcongr, if_neg hj]
      cases hfind : d.items.find? fun item => decide (item.1 = j) with
      | none => rfl
      | some item =>
        have hkey := find?_some hfind
        rw [decide_eq_true_eq] at hkey
        simp [hkey, hj]
  · rename_i h
    simp only [get?, find?_append]
    by_cases hj : j = k
    · subst hj
      have hnone := get?_eq_none.mpr h
      rw [get?, Option.map_eq_none_iff] at hnone
      simp [hnone]
    · have hjk : k ≠ j := fun he => hj he.symm
      simp [hj, hjk]

@[simp] theorem get?_set_self (d : Dict K V) (k : K) (v : V) : (d.set k v).get? k = some v := by
  rw [get?_set, if_pos rfl]

theorem get?_set_ne (d : Dict K V) (v : V) (h : j ≠ k) : (d.set k v).get? j = d.get? j := by
  rw [get?_set, if_neg h]

variable {A : Type}

/-- After the elements of a list are written in turn, a key holds what the last of them with
that key wrote, and otherwise what it held before. -/
theorem get?_foldl_set (key : A → K) (value : A → V) (l : List A) (d : Dict K V)
    (k : K) : (l.foldl (fun d a => d.set (key a) (value a)) d).get? k =
      ((l.filter fun a => key a = k).getLast?.map value).or (d.get? k) := by
  induction l generalizing d with
  | nil => simp
  | cons a l ih =>
      rw [foldl_cons, ih, get?_set, filter_cons]
      by_cases h : key a = k
      · rw [if_pos h.symm, if_pos (by simpa using h), getLast?_cons]
        cases (l.filter fun a => key a = k).getLast? with
        | none => simp
        | some b => simp
      · rw [if_neg (Ne.symm h), if_neg (by simpa using h)]

/-- Every value changed, under its own key. -/
def update (d : Dict K V) (f : K → V → V) : Dict K V :=
  ⟨d.items.map fun item => (item.1, f item.1 item.2), by
    rw [map_map]
    exact d.nodup⟩

omit [DecidableEq K] in
theorem keys_update (d : Dict K V) (f : K → V → V) : (d.update f).keys = d.keys := by
  simp only [keys, update, map_map]
  rfl

theorem get?_update (d : Dict K V) (f : K → V → V) (k : K) :
    (d.update f).get? k = (d.get? k).map (f k) := by
  simp only [get?, update, find?_map, Option.map_map]
  have hcongr : ((fun item : K × V => decide (item.1 = k)) ∘
      fun item : K × V => (item.1, f item.1 item.2)) = fun item : K × V => decide (item.1 = k) :=
    rfl
  rw [hcongr]
  cases hfind : d.items.find? fun item => decide (item.1 = k) with
  | none => rfl
  | some item =>
      have hkey := find?_some hfind
      rw [decide_eq_true_eq] at hkey
      simp [hkey]

/-- `d.setdefault(k, v)`. -/
def setDefault (d : Dict K V) (k : K) (v : V) : Dict K V :=
  if k ∈ d.keys then d else d.set k v

theorem mem_keys_setDefault : j ∈ (d.setDefault k v).keys ↔ j ∈ d.keys ∨ j = k := by
  unfold setDefault
  split
  · rename_i h
    constructor
    · exact Or.inl
    · rintro (hj | rfl)
      · exact hj
      · exact h
  · exact mem_keys_set

theorem get?_setDefault (d : Dict K V) (k j : K) (v : V) :
    (d.setDefault k v).get? j = (d.get? j).or (if j = k then some v else none) := by
  unfold setDefault
  split
  · rename_i hmem
    split
    · rename_i hj
      obtain ⟨held, hheld⟩ := Option.isSome_iff_exists.mp (isSome_get?.mpr (hj ▸ hmem))
      rw [hheld, Option.some_or]
    · rw [Option.or_none]
  · rename_i hmem
    rw [get?_set]
    split
    · rename_i hj
      rw [get?_eq_none.mpr (hj ▸ hmem), Option.none_or]
    · rw [Option.or_none]

/-- The first of several values for one key is the one that stays. -/
theorem get?_foldl_setDefault (key : A → K) (value : A → V) (l : List A) (d : Dict K V) (k : K) :
    (l.foldl (fun d a => d.setDefault (key a) (value a)) d).get? k =
      (d.get? k).or ((l.find? fun a => key a = k).map value) := by
  induction l generalizing d with
  | nil => simp
  | cons a l ih =>
    rw [foldl_cons, ih, get?_setDefault, find?_cons, Option.or_assoc]
    by_cases hk : key a = k
    · rw [if_pos hk.symm, decide_eq_true hk, Option.some_or, Option.map_some]
    · rw [if_neg (Ne.symm hk), decide_eq_false hk, Option.none_or]

theorem setDefault_eq_self (h : k ∈ d.keys) (v : V) : d.setDefault k v = d := if_pos h

theorem foldl_setDefault_eq_self {key : A → K} {value : A → V} {l : List A}
    (h : ∀ a ∈ l, key a ∈ d.keys) :
    l.foldl (fun d a => d.setDefault (key a) (value a)) d = d := by
  induction l with
  | nil => rfl
  | cons a l ih =>
    rw [foldl_cons, setDefault_eq_self (h a mem_cons_self)]
    exact ih fun b hb => h b (mem_cons_of_mem a hb)

theorem mem_keys_foldl_setDefault {key : A → K} {value : A → V} {l : List A} :
    k ∈ (l.foldl (fun d a => d.setDefault (key a) (value a)) d).keys ↔
      k ∈ d.keys ∨ ∃ a ∈ l, key a = k := by
  induction l generalizing d with
  | nil => simp
  | cons a l ih =>
    rw [foldl_cons, ih, mem_keys_setDefault, exists_mem_cons_iff, or_assoc, eq_comm (a := k)]

theorem mem_keys_foldl_set {key : A → K} {value : A → V} {l : List A}
    : k ∈ (l.foldl (fun d a => d.set (key a) (value a)) d).keys ↔
      k ∈ d.keys ∨ ∃ a ∈ l, key a = k := by
  induction l generalizing d with
  | nil => simp
  | cons a l ih =>
    rw [foldl_cons, ih, mem_keys_set, exists_mem_cons_iff, or_assoc, eq_comm (a := k)]

theorem mem_values : v ∈ d.values ↔ ∃ k, d.get? k = some v := by
  unfold values
  rw [mem_map]
  constructor
  · rintro ⟨⟨k, v⟩, hmem, rfl⟩
    exact ⟨k, get?_of_mem hmem⟩
  · rintro ⟨k, hget⟩
    exact ⟨(k, v), mem_items_of_get? hget, rfl⟩

/-- `d.pop(k, None)`. -/
def pop (d : Dict K V) (k : K) : Dict K V :=
  ⟨d.items.filter fun item => item.1 ≠ k, (filter_sublist.map Prod.fst).nodup d.nodup⟩

theorem get?_pop (d : Dict K V) (k j : K) :
    (d.pop k).get? j = if j = k then none else d.get? j := by
  rw [get?, pop, find?_filter]
  split
  · rename_i h
    rw [Option.map_eq_none_iff, find?_eq_none]
    intro item hitem hand
    simp only [ne_eq, decide_not, Bool.not_eq_true', decide_eq_false_iff_not,
      decide_eq_true_eq] at hand
    exact hand.1 (hand.2.trans h)
  · rename_i h
    have hsame : (fun item : K × V =>
        decide (decide (item.1 ≠ k) = true ∧ decide (item.1 = j) = true)) =
        fun item => decide (item.1 = j) := by
      funext item
      by_cases hj : item.1 = j
      · have hk : item.1 ≠ k := fun hk => h (hj.symm.trans hk)
        simp [hj, h]
      · simp [hj]
    rw [hsame, get?]

/-- Popping keys forgets what they look up. -/
theorem get?_foldl_pop (ks : List K) (d : Dict K V) (k : K) :
    (ks.foldl (fun d j => d.pop j) d).get? k = if k ∈ ks then none else d.get? k := by
  induction ks generalizing d with
  | nil => simp
  | cons j ks ih =>
    rw [foldl_cons, ih, get?_pop]
    by_cases hk : k = j
    · simp [hk]
    · simp [hk]

theorem keys_pop (d : Dict K V) (k : K) : (d.pop k).keys = d.keys.filter (· ≠ k) := by
  rw [keys, keys, pop, filter_map]
  rfl

omit [DecidableEq K] in
theorem eq_of_items {d' : Dict K V} (h : d.items = d'.items) : d = d' := by
  cases d
  cases d'
  cases h
  rfl

/-- A dict is its keys, in their order, and what they look up. -/
theorem ext_get? {d' : Dict K V} (hkeys : d.keys = d'.keys)
    (hget : ∀ k, d.get? k = d'.get? k) : d = d' := by
  refine eq_of_items (ext_getElem? fun i => ?_)
  have hlen : d.items.length = d'.items.length := by
    have := congrArg List.length hkeys
    rwa [length_keys, length_keys] at this
  by_cases hi : i < d.items.length
  · have hi' : i < d'.items.length := hlen ▸ hi
    rw [getElem?_eq_getElem hi, getElem?_eq_getElem hi']
    have hkey : (d.items[i]).1 = (d'.items[i]).1 := by
      have := congrArg (fun ks => ks[i]?) hkeys
      simpa [keys, hi, hi'] using this
    have hmem : ((d.items[i]).1, (d.items[i]).2) ∈ d.items := getElem_mem hi
    have hmem' : ((d'.items[i]).1, (d'.items[i]).2) ∈ d'.items := getElem_mem hi'
    have hval : some (d.items[i]).2 = some (d'.items[i]).2 := by
      rw [← get?_of_mem hmem, ← get?_of_mem hmem', hkey, hget]
    exact congrArg some (Prod.ext hkey (Option.some.inj hval))
  · rw [getElem?_eq_none (by omega), getElem?_eq_none (by omega)]

theorem pop_set_self (d : Dict K V) (k : K) (v : V) : (d.set k v).pop k = d.pop k := by
  refine ext_get? ?_ fun j => ?_
  · by_cases h : k ∈ d.keys
    · rw [keys_pop, keys_pop, keys_set_of_mem h]
    · rw [keys_pop, keys_pop, keys_set_of_notMem h, filter_append]
      simp
  · by_cases hj : j = k
    · rw [get?_pop, get?_pop, if_pos hj, if_pos hj]
    · rw [get?_pop, get?_pop, if_neg hj, if_neg hj, get?_set_ne d v hj]

theorem pop_set_ne (d : Dict K V) (v : V) (h : j ≠ k) : (d.set j v).pop k = (d.pop k).set j v := by
  have hmem : j ∈ (d.pop k).keys ↔ j ∈ d.keys := by
    rw [keys_pop, mem_filter]
    simp [h]
  refine ext_get? ?_ fun i => ?_
  · by_cases hj : j ∈ d.keys
    · rw [keys_pop, keys_set_of_mem hj, keys_set_of_mem (hmem.mpr hj), keys_pop]
    · rw [keys_pop, keys_set_of_notMem hj, keys_set_of_notMem (mt hmem.mp hj), keys_pop,
        filter_append]
      simp [h]
  · by_cases hi : i = j
    · subst hi
      rw [get?_pop, if_neg h, get?_set_self, get?_set_self]
    · rw [get?_set_ne _ _ hi, get?_pop, get?_pop, get?_set_ne _ _ hi]

/-- `{key(a): value(a) for a in l}`. -/
def ofList {A : Type} (key : A → K) (value : A → V) (l : List A) : Dict K V :=
  l.foldl (fun d a => d.set (key a) (value a)) empty

theorem items_foldl_set {key : A → K} {value : A → V} (l : List A) (d : Dict K V)
    (h : (d.keys ++ l.map key).Nodup) :
    (l.foldl (fun d a => d.set (key a) (value a)) d).items =
      d.items ++ l.map fun a => (key a, value a) := by
  induction l generalizing d with
  | nil => simp
  | cons a l ih =>
    rw [map_cons] at h
    have hfresh : key a ∉ d.keys := fun hmem =>
      (nodup_append.mp h).2.2 _ hmem _ mem_cons_self rfl
    have hitems : (d.set (key a) (value a)).items = d.items ++ [(key a, value a)] := by
      simp only [set, dif_neg hfresh]
    rw [foldl_cons, ih, hitems, List.append_assoc, map_cons]
    · rfl
    · rw [keys_set_of_notMem hfresh, List.append_assoc]
      exact h

/-- Distinct keys: the comprehension lists the elements as they come. -/
theorem items_ofList {key : A → K} {value : A → V} {l : List A}
    (h : (l.map key).Nodup) : (ofList key value l).items = l.map fun a => (key a, value a) := by
  rw [ofList, items_foldl_set l empty (by simpa using h)]
  rfl

theorem keys_ofList {key : A → K} {value : A → V} {l : List A}
    (h : (l.map key).Nodup) : (ofList key value l).keys = l.map key := by
  rw [keys, items_ofList h, map_map]
  rfl

theorem get?_ofList {key : A → K} {value : A → V} {l : List A}
    (h : (l.map key).Nodup) {a : A} (ha : a ∈ l) :
    (ofList key value l).get? (key a) = some (value a) := by
  refine get?_of_mem ?_
  rw [items_ofList h]
  exact mem_map_of_mem (f := fun a => (key a, value a)) ha

/-- Dropping a key from a comprehension is leaving its elements out. -/
theorem pop_ofList (key : A → K) (value : A → V) (l : List A) (k : K) :
    (ofList key value l).pop k = ofList key value (l.filter fun a => key a ≠ k) := by
  have hfold : ∀ (l : List A) (d : Dict K V),
      (l.foldl (fun d a => d.set (key a) (value a)) d).pop k =
        (l.filter fun a => key a ≠ k).foldl (fun d a => d.set (key a) (value a)) (d.pop k) := by
    intro l
    induction l with
    | nil => intro d; rfl
    | cons a l ih =>
      intro d
      rw [foldl_cons, ih]
      by_cases h : key a = k
      · rw [filter_cons_of_neg (by simp [h]), h, pop_set_self]
      · rw [filter_cons_of_pos (by simp [h]), foldl_cons, pop_set_ne d _ h]
  rw [ofList, hfold]
  rfl

/-- Comprehensions over lists whose elements are alike pair by pair have the same keys, and what
these look up is alike. -/
theorem ofList_forall₂ {key : A → K} {value : A → V} {R : K → V → V → Prop} {l l' : List A}
    (h : Forall₂ (fun a a' => key a = key a' ∧ R (key a) (value a) (value a')) l l') :
    (ofList key value l).keys = (ofList key value l').keys ∧
      ∀ k, Option.Rel (R k) ((ofList key value l).get? k) ((ofList key value l').get? k) := by
  have hfold : ∀ (l l' : List A),
      Forall₂ (fun a a' => key a = key a' ∧ R (key a) (value a) (value a')) l l' →
      ∀ d d' : Dict K V, d.keys = d'.keys → (∀ k, Option.Rel (R k) (d.get? k) (d'.get? k)) →
      (l.foldl (fun d a => d.set (key a) (value a)) d).keys =
          (l'.foldl (fun d a => d.set (key a) (value a)) d').keys ∧
        ∀ k, Option.Rel (R k) ((l.foldl (fun d a => d.set (key a) (value a)) d).get? k)
          ((l'.foldl (fun d a => d.set (key a) (value a)) d').get? k) := by
    intro l l' h
    induction h with
    | nil => exact fun d d' hkeys hget => ⟨hkeys, hget⟩
    | @cons a a' l l' ha _ ih =>
      obtain ⟨hkey, hvalue⟩ := ha
      intro d d' hkeys hget
      rw [foldl_cons, foldl_cons]
      refine ih _ _ ?_ fun k => ?_
      · by_cases hmem : key a ∈ d.keys
        · rw [keys_set_of_mem hmem, keys_set_of_mem (hkey ▸ hkeys ▸ hmem), hkeys]
        · rw [keys_set_of_notMem hmem, keys_set_of_notMem (hkey ▸ hkeys ▸ hmem), hkeys, hkey]
      · by_cases hk : k = key a
        · subst hk
          rw [get?_set_self, hkey, get?_set_self, ← hkey]
          exact .some hvalue
        · rw [get?_set_ne d _ hk, get?_set_ne d' _ (hkey ▸ hk)]
          exact hget k
  exact hfold l l' h empty empty rfl fun k => .none

/-! ### Two dicts in one -/

/-- The only item with a key is the one the key looks up. -/
theorem getLast?_filter_key (d : Dict K V) (k : K) :
    ((d.items.filter fun item => item.1 = k).getLast?.map Prod.snd) = d.get? k := by
  cases hlast : (d.items.filter fun item => item.1 = k).getLast? with
  | none =>
      rw [getLast?_eq_none_iff, filter_eq_nil_iff] at hlast
      refine (get?_eq_none.mpr fun hmem => ?_).symm
      obtain ⟨item, hitem, hkey⟩ := mem_map.mp hmem
      exact hlast item hitem (decide_eq_true hkey)
  | some item =>
      obtain ⟨hitem, hkey⟩ := mem_filter.mp (mem_of_getLast? hlast)
      rw [← of_decide_eq_true hkey]
      exact (get?_of_mem hitem).symm

/-- `{**d, **e}`: what the second has, it has over the first. -/
theorem get?_merge (d e : Dict K V) (k : K) :
    (e.items.foldl (fun d item => d.set item.1 item.2) d).get? k = (e.get? k).or (d.get? k) := by
  rw [get?_foldl_set, getLast?_filter_key]

/-- `{k: f(v) for k, v in d.items() if p(k)}`. -/
theorem get?_ofList_filter {W : Type} (d : Dict K V) (p : K → Bool) (f : V → W) (k : K) :
    (ofList Prod.fst (fun item => f item.2) (d.items.filter fun item => p item.1)).get? k =
      if p k then (d.get? k).map f else none := by
  have hempty : (empty : Dict K W).get? k = none := rfl
  rw [ofList, get?_foldl_set, hempty, Option.or_none, filter_filter]
  by_cases hp : p k = true
  · have hsame : (d.items.filter fun item => decide (item.1 = k) && p item.1) =
        d.items.filter fun item => item.1 = k := by
      refine filter_congr fun item _ => ?_
      by_cases hkey : item.1 = k
      · rw [hkey, hp, Bool.and_true]
      · rw [decide_eq_false hkey, Bool.false_and]
    rw [if_pos hp, hsame, ← getLast?_filter_key, Option.map_map]
    rfl
  · have hnone : (d.items.filter fun item => decide (item.1 = k) && p item.1) = [] := by
      refine filter_eq_nil_iff.mpr fun item _ hitem => ?_
      rw [Bool.and_eq_true] at hitem
      exact hp (of_decide_eq_true hitem.1 ▸ hitem.2)
    rw [if_neg hp, hnone]
    rfl

end Dict

end InvestmentPlatform
