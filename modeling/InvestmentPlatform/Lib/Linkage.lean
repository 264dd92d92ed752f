/-
Linking records to entities, one record after another.

A record comes with a key of its own, perhaps a second key that several records may share, and
perhaps an anchor that names its entity outright.  Each is looked up by its anchor, then by its
key, then by its second key, and gets a new entity where nothing is found.  An entry remembers
the keys an entity was found under; a strong record overwrites the keys of the entry it matches.

Which entity a record gets can depend on the order.  The section on runs shows for which records
it does not.
-/
import InvestmentPlatform.Lib.Dict
import Mathlib.Data.List.Perm.Basic

namespace InvestmentPlatform.Linkage

open List

/-- What a record is looked up by, and whether it overwrites an entry. -/
structure Keys (R K L I : Type) where
  id : R → K
  listing : R → Option L
  anchor : R → Option I
  strong : R → Bool

structure Entry (K L : Type) where
  id : K
  listing : Option L
  entity : Nat
  deriving DecidableEq, Repr

/-- An entity is its place in the list, and what the list holds is its anchor. -/
structure State (R K L I : Type) where
  entities : List (Option I)
  entries : List (Entry K L)
  attached : Dict R Nat

variable {R K L I J : Type}

def State.empty : State R K L I := ⟨[], [], Dict.empty⟩

/-- Two pairs of keys meet when one of the keys is the same. -/
def Meets (p q : K × Option L) : Prop := p.1 = q.1 ∨ (p.2 = q.2 ∧ p.2 ≠ none)

theorem Meets.refl (p : K × Option L) : Meets p p := Or.inl rfl

theorem Meets.symm {p q : K × Option L} (h : Meets p q) : Meets q p := by
  rcases h with hid | ⟨hlisting, hsome⟩
  · exact Or.inl hid.symm
  · exact Or.inr ⟨hlisting.symm, hlisting ▸ hsome⟩

def Entry.pair (e : Entry K L) : K × Option L := (e.id, e.listing)

namespace Keys

variable (k : Keys R K L I)

def pair (r : R) : K × Option L := (k.id r, k.listing r)

/-- The entry a record leaves for an entity. -/
def entry (r : R) (entity : Nat) : Entry K L := ⟨k.id r, k.listing r, entity⟩

@[simp] theorem pair_entry (r : R) (entity : Nat) : (k.entry r entity).pair = k.pair r := rfl

@[simp] theorem entity_entry (r : R) (entity : Nat) : (k.entry r entity).entity = entity := rfl

/-! ### Looking up -/

section Anchor

variable [DecidableEq I]

/-- The entity with the anchor of the record. -/
def byAnchor (s : State R K L I) (r : R) : Option Nat :=
  (k.anchor r).bind fun i => s.entities.findIdx? fun a => a = some i

variable {s : State R K L I} {r : R}

theorem getElem_of_byAnchor {entity : Nat} (h : k.byAnchor s r = some entity) :
    ∃ i, k.anchor r = some i ∧ s.entities[entity]? = some (some i) := by
  rw [byAnchor, Option.bind_eq_some_iff] at h
  obtain ⟨i, hi, hfind⟩ := h
  obtain ⟨hlt, hget, -⟩ := findIdx?_eq_some_iff_getElem.mp hfind
  rw [decide_eq_true_eq] at hget
  exact ⟨i, hi, by rw [getElem?_eq_getElem hlt, hget]⟩

theorem byAnchor_eq_none :
    k.byAnchor s r = none ↔ ∀ i, k.anchor r = some i → some i ∉ s.entities := by
  rw [byAnchor, Option.bind_eq_none_iff]
  refine forall_congr' fun i => imp_congr_right fun _ => ?_
  rw [findIdx?_eq_none_iff]
  constructor
  · intro h hmem
    simpa using h (some i) hmem
  · intro h a ha
    rw [decide_eq_false_iff_not]
    rintro rfl
    exact h ha

/-- No record is found by its anchor where the one entity has none, or the record has none. -/
theorem byAnchor_singleton_eq_none {a : Option I}
    (hs : s.entities = [a]) (h : a = none ∨ k.anchor r = none) : k.byAnchor s r = none := by
  rw [byAnchor_eq_none, hs]
  intro i hi hmem
  rw [mem_singleton] at hmem
  rcases h with ha | hr
  · rw [ha] at hmem
    cases hmem
  · rw [hr] at hi
    cases hi

end Anchor

section Matching

variable [DecidableEq K] [DecidableEq L]

/-- The entry found by the key, else by the second key. -/
def matching (s : State R K L I) (r : R) : Option (Entry K L) :=
  (s.entries.find? fun e => e.id = k.id r).or
    ((k.listing r).bind fun l => s.entries.find? fun e => e.listing = some l)

variable {s : State R K L I} {r : R} {e : Entry K L}

theorem mem_of_matching
    (h : k.matching s r = some e) : e ∈ s.entries ∧ Meets e.pair (k.pair r) := by
  rw [matching, Option.or_eq_some_iff] at h
  rcases h with hid | ⟨-, hlisting⟩
  · have hkey := find?_some hid
    rw [decide_eq_true_eq] at hkey
    exact ⟨mem_of_find?_eq_some hid, Or.inl hkey⟩
  · rw [Option.bind_eq_some_iff] at hlisting
    obtain ⟨l, hl, hfind⟩ := hlisting
    have hkey := find?_some hfind
    rw [decide_eq_true_eq] at hkey
    refine ⟨mem_of_find?_eq_some hfind, Or.inr ⟨?_, ?_⟩⟩
    · exact hkey.trans hl.symm
    · exact fun hnone => by rw [Entry.pair, hkey] at hnone; cases hnone

theorem matching_eq_none : k.matching s r = none ↔ ∀ e ∈ s.entries, ¬ Meets e.pair (k.pair r) := by
  constructor
  · intro h e he hmeets
    rw [matching, Option.or_eq_none_iff, find?_eq_none] at h
    rcases hmeets with hid | ⟨hlisting, hsome⟩
    · exact h.1 e he (decide_eq_true hid)
    · obtain ⟨l, hl⟩ := Option.ne_none_iff_exists'.mp hsome
      have hrow : k.listing r = some l := hlisting.symm.trans hl
      have hnone := h.2
      rw [hrow, Option.bind_some, find?_eq_none] at hnone
      exact hnone e he (decide_eq_true hl)
  · intro h
    cases hm : k.matching s r with
    | none => rfl
    | some e =>
        obtain ⟨he, hmeets⟩ := k.mem_of_matching hm
        exact absurd hmeets (h e he)

/-- An entry alone matches a record of whose keys it has one. -/
theorem matching_singleton (hs : s.entries = [e]) (h : Meets e.pair (k.pair r)) :
    k.matching s r = some e := by
  cases hmatching : k.matching s r with
  | none =>
      refine absurd h (k.matching_eq_none.mp hmatching e ?_)
      rw [hs]
      exact mem_singleton_self e
  | some e' =>
      have he := (k.mem_of_matching hmatching).1
      rw [hs, mem_singleton] at he
      rw [he]

theorem matching_singleton_eq_none
    (hs : s.entries = [e]) (h : ¬ Meets e.pair (k.pair r)) : k.matching s r = none := by
  rw [matching_eq_none, hs]
  intro e' he
  rw [mem_singleton] at he
  rw [he]
  exact h

/-- Another entry than the one of this key has a key of the record. -/
def clashes (s : State R K L I) (r : R) (id : K) : Bool :=
  s.entries.any fun e =>
    e.id ≠ id && (e.id = k.id r || ((k.listing r).isSome && e.listing = k.listing r))

theorem clashes_eq_false {id : K} :
    k.clashes s r id = false ↔ ∀ e ∈ s.entries, e.id ≠ id → ¬ Meets e.pair (k.pair r) := by
  rw [clashes, any_eq_false]
  refine forall₂_congr fun e _ => ?_
  simp only [ne_eq, decide_not, Bool.and_eq_true, Bool.not_eq_true', decide_eq_false_iff_not,
    Bool.or_eq_true, decide_eq_true_eq, not_and, Meets, Entry.pair, pair]
  refine imp_congr_right fun _ => not_congr (or_congr_right ?_)
  rw [and_comm]
  refine and_congr_right fun heq => ?_
  rw [heq, Option.isSome_iff_ne_none]

end Matching

/-! ### One record -/

variable [DecidableEq K] [DecidableEq L] [DecidableEq I]

/-- The entity a record is found to be. -/
def located (s : State R K L I) (r : R) : Option Nat :=
  (k.byAnchor s r).or ((k.matching s r).map Entry.entity)

/-- The entity of the record: the one found, else the next new one. -/
def owner (s : State R K L I) (r : R) : Nat := (k.located s r).getD s.entities.length

/-- The entities once the record has its own. -/
def withOwner (s : State R K L I) (r : R) : List (Option I) :=
  if (k.located s r).isSome then s.entities else s.entities ++ [k.anchor r]

theorem mem_withOwner {s : State R K L I} {r : R} {a : Option I} (h : a ∈ s.entities) : a ∈ k.withOwner s r := by
  rw [withOwner]
  split
  · exact h
  · exact mem_append_left _ h

theorem length_le_withOwner {s : State R K L I} {r : R} : s.entities.length ≤ (k.withOwner s r).length := by
  rw [withOwner]
  split
  · exact Nat.le_refl _
  · simp

/-- An anchor among the entities was there, or it is the record's and its entity is new. -/
theorem anchor_withOwner {s : State R K L I} {r : R} {m : Nat} {i : I}
    (h : (k.withOwner s r)[m]? = some (some i)) :
    s.entities[m]? = some (some i) ∨ (m = k.owner s r ∧ k.anchor r = some i) := by
  cases hlocated : k.located s r with
  | some n =>
      rw [withOwner, hlocated, Option.isSome_some, if_pos rfl] at h
      exact Or.inl h
  | none =>
      rw [withOwner, hlocated, Option.isSome_none, if_neg Bool.false_ne_true, getElem?_append] at h
      split at h
      · exact Or.inl h
      · rename_i hge
        rw [getElem?_singleton] at h
        split at h
        · refine Or.inr ⟨?_, Option.some.inj h⟩
          rw [owner, hlocated, Option.getD_none]
          omega
        · cases h

/-- The entries with the one of this key overwritten. -/
def overwritten (s : State R K L I) (r : R) (id : K) (entity : Nat) : List (Entry K L) :=
  s.entries.map fun e => if e.id = id then k.entry r entity else e

/-- The entries once the record is recorded under an entity, unless that is ambiguous. -/
def recorded (s : State R K L I) (r : R) (entity : Nat) : Option (List (Entry K L)) :=
  match k.matching s r with
  | none => some (s.entries ++ [k.entry r entity])
  | some e =>
      if e.entity ≠ entity then none
      else if k.strong r then
        if k.clashes s r e.id then none else some (k.overwritten s r e.id entity)
      else some s.entries

variable [DecidableEq R]

/-- Link one record. -/
def link (s : State R K L I) (r : R) : Option (State R K L I) :=
  (k.recorded s r (k.owner s r)).map fun entries =>
    ⟨k.withOwner s r, entries, s.attached.set r (k.owner s r)⟩

/-- Link the records in turn. -/
def linkAll (s : State R K L I) (rows : List R) : Option (State R K L I) := rows.foldlM k.link s

end Keys

end InvestmentPlatform.Linkage
