/-
When linking does not depend on the order.

Records are linked when they share a key.  If the records are consistent, no key that shares its
second key changes it, and an anchor that comes late to some of its records comes to all of them,
then every order links the records to the same entities: two of them are the same when they are
linked, or when both are linked to records with one anchor.
-/
import InvestmentPlatform.Lib.Linkage
import Mathlib.Data.List.Pairwise

namespace InvestmentPlatform.Linkage.Keys

open List Dict Option

variable {R K L I J : Type} (k : Keys R K L I)

/-- The records have a key in common. -/
def Linked (r t : R) : Prop :=
  k.id r = k.id t ∨ (k.listing r = k.listing t ∧ k.listing r ≠ none)

/-- The keys and anchors of the records say the same about which thing each of them is. -/
structure Consistent (real : R → J) (rows : List R) : Prop where
  ofId : ∀ r ∈ rows, ∀ t ∈ rows, k.id r = k.id t → real r = real t
  ofListing : ∀ r ∈ rows, ∀ t ∈ rows, k.listing r = k.listing t → k.listing r ≠ none →
    real r = real t
  ofAnchor : ∀ r ∈ rows, ∀ t ∈ rows, ∀ i, k.anchor r = some i → k.anchor t = some i →
    real r = real t
  oneAnchor : ∀ r ∈ rows, ∀ t ∈ rows, ∀ i j, real r = real t → k.anchor r = some i →
    k.anchor t = some j → i = j

/-- A key that has a second key in common with another key has no other second key. -/
def Steady (rows : List R) : Prop :=
  ∀ a ∈ rows, ∀ b ∈ rows, ∀ c ∈ rows, k.listing a = k.listing b → k.listing a ≠ none →
    k.id b ≠ k.id a → k.id c = k.id a → k.listing c = k.listing a

/-- A record without an anchor that is linked to one with it is linked to all with it. -/
def Gathered (rows : List R) : Prop :=
  ∀ r ∈ rows, ∀ t ∈ rows, ∀ u ∈ rows, ∀ i, k.anchor r = none → k.anchor t = some i →
    k.anchor u = some i → k.Linked r t → k.Linked r u

/-- A record with this anchor is linked to the record. -/
def Anchored (rows : List R) (r : R) (i : I) : Prop :=
  ∃ t ∈ rows, k.Linked r t ∧ k.anchor t = some i

/-- Two records end up as one entity. -/
def Same (rows : List R) (r t : R) : Prop :=
  k.Linked r t ∨ ∃ i, k.Anchored rows r i ∧ k.Anchored rows t i

variable {k} {real : R → J} {rows : List R} {r t u : R} {i j : I}

/-! ### Which records are the same -/

theorem meets_pair : Meets (k.pair r) (k.pair t) ↔ k.Linked r t := Iff.rfl

theorem Linked.refl (r : R) : k.Linked r r := Or.inl rfl

theorem Linked.symm (h : k.Linked r t) : k.Linked t r := Meets.symm (meets_pair.mpr h)

theorem Consistent.linked (hcons : k.Consistent real rows) (hr : r ∈ rows) (ht : t ∈ rows)
    (h : k.Linked r t) : real r = real t := by
  rcases h with hid | ⟨hlisting, hsome⟩
  · exact hcons.ofId r hr t ht hid
  · exact hcons.ofListing r hr t ht hlisting hsome

theorem Steady.trans (hsteady : k.Steady rows) (hr : r ∈ rows) (ht : t ∈ rows) (hu : u ∈ rows)
    (hrt : k.Linked r t) (htu : k.Linked t u) : k.Linked r u := by
  rcases hrt with hid | ⟨hlisting, hsome⟩
  · rcases htu with hid' | ⟨hlisting', hsome'⟩
    · exact Or.inl (hid.trans hid')
    · by_cases hsame : k.id u = k.id t
      · exact Or.inl (hid.trans hsame.symm)
      · -- the key of `t` shares its second key, so `r` has no other
        have hrow := hsteady t ht u hu r hr hlisting' hsome' hsame hid
        exact Or.inr ⟨hrow.trans hlisting', fun hnone => hsome' (hrow ▸ hnone)⟩
  · rcases htu with hid' | ⟨hlisting', -⟩
    · by_cases hsame : k.id r = k.id t
      · exact Or.inl (hsame.trans hid')
      · have hrow := hsteady t ht r hr u hu hlisting.symm (fun hnone => hsome (hlisting.trans hnone))
          hsame hid'.symm
        exact Or.inr ⟨hlisting.trans hrow.symm, hsome⟩
    · exact Or.inr ⟨hlisting.trans hlisting', hsome⟩

theorem Anchored.of_linked (hsteady : k.Steady rows) (hr : r ∈ rows) (ht : t ∈ rows)
    (hlinked : k.Linked r t) (h : k.Anchored rows t i) : k.Anchored rows r i := by
  obtain ⟨u, hu, htu, hi⟩ := h
  exact ⟨u, hu, hsteady.trans hr ht hu hlinked htu, hi⟩

theorem Anchored.real_eq (hcons : k.Consistent real rows) (hr : r ∈ rows)
    (h : k.Anchored rows r i) : ∃ t ∈ rows, real r = real t ∧ k.anchor t = some i := by
  obtain ⟨t, ht, hlinked, hi⟩ := h
  exact ⟨t, ht, hcons.linked hr ht hlinked, hi⟩

theorem Anchored.unique (hcons : k.Consistent real rows) (hr : r ∈ rows)
    (hi : k.Anchored rows r i) (hj : k.Anchored rows r j) : i = j := by
  obtain ⟨t, ht, hrt, hti⟩ := hi.real_eq hcons hr
  obtain ⟨u, hu, hru, huj⟩ := hj.real_eq hcons hr
  exact hcons.oneAnchor t ht u hu i j (hrt.symm.trans hru) hti huj

theorem Same.refl (rows : List R) (r : R) : k.Same rows r r := Or.inl (Linked.refl r)

theorem Same.symm (h : k.Same rows r t) : k.Same rows t r := by
  rcases h with hlinked | ⟨i, hr, ht⟩
  · exact Or.inl hlinked.symm
  · exact Or.inr ⟨i, ht, hr⟩

theorem Same.trans (hcons : k.Consistent real rows) (hsteady : k.Steady rows) (hr : r ∈ rows)
    (ht : t ∈ rows) (hu : u ∈ rows) (hrt : k.Same rows r t) (htu : k.Same rows t u) :
    k.Same rows r u := by
  rcases hrt with hlinked | ⟨i, hri, hti⟩
  · rcases htu with hlinked' | ⟨j, htj, huj⟩
    · exact Or.inl (hsteady.trans hr ht hu hlinked hlinked')
    · exact Or.inr ⟨j, htj.of_linked hsteady hr ht hlinked, huj⟩
  · rcases htu with hlinked' | ⟨j, htj, huj⟩
    · exact Or.inr ⟨i, hri, hti.of_linked hsteady hu ht hlinked'.symm⟩
    · have hij : i = j := hti.unique hcons ht htj
      exact Or.inr ⟨i, hri, hij ▸ huj⟩

/-- **Records of different things are not the same.** -/
theorem Same.real_eq (hcons : k.Consistent real rows) (hr : r ∈ rows) (ht : t ∈ rows)
    (h : k.Same rows r t) : real r = real t := by
  rcases h with hlinked | ⟨i, hri, hti⟩
  · exact hcons.linked hr ht hlinked
  · obtain ⟨u, hu, hru, hui⟩ := hri.real_eq hcons hr
    obtain ⟨v, hv, htv, hvi⟩ := hti.real_eq hcons ht
    rw [hru, htv]
    exact hcons.ofAnchor u hu v hv i hui hvi

/-- Two records with one anchor are the same. -/
theorem Same.of_anchor (hr : r ∈ rows) (ht : t ∈ rows) (hri : k.anchor r = some i)
    (hti : k.anchor t = some i) : k.Same rows r t :=
  Or.inr ⟨i, ⟨r, hr, Linked.refl r, hri⟩, ⟨t, ht, Linked.refl t, hti⟩⟩

/-! ### The invariant -/

variable [DecidableEq R]

/--
What holds of the records linked so far.

Each of them is covered by an entry, each entry has the keys of one of them, and no two entries
have a key in common; and they have one entity exactly when they are the same.
-/
structure Inv (k : Keys R K L I) (rows : List R) (s : State R K L I) : Prop where
  known : ∀ r m, s.attached.get? r = some m → r ∈ rows ∧ m < s.entities.length
  source : ∀ e ∈ s.entries, ∃ t, s.attached.get? t = some e.entity ∧ e.pair = k.pair t
  covered : ∀ r m, s.attached.get? r = some m → ∃ e ∈ s.entries, Meets e.pair (k.pair r)
  apart : s.entries.Pairwise fun e e' => ¬ Meets e.pair e'.pair
  same : ∀ r t m n, s.attached.get? r = some m → s.attached.get? t = some n →
    (m = n ↔ k.Same rows r t)
  anchored : ∀ i m, s.entities[m]? = some (some i) →
    ∃ r, s.attached.get? r = some m ∧ k.anchor r = some i
  pure : ∀ r m i, s.attached.get? r = some m → k.anchor r = some i →
    (∀ t ∈ rows, k.Linked r t → k.anchor t ≠ none) → some i ∈ s.entities
  oneEntity : (s.entities.filterMap fun a => a).Nodup

theorem Inv.empty (rows : List R) : k.Inv rows State.empty where
  known := fun r m h => by cases h
  source := fun e he => by cases he
  covered := fun r m h => by cases h
  apart := List.Pairwise.nil
  same := fun r t m n h => by cases h
  anchored := fun i m h => by cases h
  pure := fun r m i h => by cases h
  oneEntity := nodup_nil

variable {s : State R K L I}

namespace Inv

/-- One entry at most covers a record. -/
theorem unique (inv : k.Inv rows s) (hsteady : k.Steady rows) (hr : r ∈ rows) {e e' : Entry K L}
    (he : e ∈ s.entries) (he' : e' ∈ s.entries) (hmeets : Meets e.pair (k.pair r))
    (hmeets' : Meets e'.pair (k.pair r)) : e = e' := by
  by_contra hne
  obtain ⟨t, ht, hpair⟩ := inv.source e he
  obtain ⟨t', ht', hpair'⟩ := inv.source e' he'
  rw [hpair, meets_pair] at hmeets
  rw [hpair', meets_pair] at hmeets'
  have hsymm : Std.Symm fun e e' : Entry K L => ¬ Meets e.pair e'.pair :=
    ⟨fun _ _ hnot hmeets => hnot hmeets.symm⟩
  apply inv.apart.forall he he' hne
  rw [hpair, hpair', meets_pair]
  exact hsteady.trans (inv.known t _ ht).1 hr (inv.known t' _ ht').1 hmeets hmeets'.symm

section Matching

variable [DecidableEq K] [DecidableEq L]

variable {e : Entry K L}

theorem matched (inv : k.Inv rows s) (h : k.matching s r = some e) :
    ∃ t, s.attached.get? t = some e.entity ∧ e.pair = k.pair t ∧ k.Linked t r := by
  obtain ⟨he, hmeets⟩ := k.mem_of_matching h
  obtain ⟨t, ht, hpair⟩ := inv.source e he
  exact ⟨t, ht, hpair, by rw [← meets_pair, ← hpair]; exact hmeets⟩

/-- A record that is linked to one that is there is matched. -/
theorem matching_ne_none (inv : k.Inv rows s) (hsteady : k.Steady rows) (hr : r ∈ rows) {m : Nat}
    (ht : s.attached.get? t = some m) (hlinked : k.Linked t r) : k.matching s r ≠ none := by
  intro hnone
  obtain ⟨e, he, hmeets⟩ := inv.covered t m ht
  obtain ⟨u, hu, hpair⟩ := inv.source e he
  have hut : k.Linked u t := by rw [← meets_pair, ← hpair]; exact hmeets
  have hur := hsteady.trans (inv.known u _ hu).1 (inv.known t m ht).1 hr hut hlinked
  refine k.matching_eq_none.mp hnone e he ?_
  rw [hpair]
  exact hur

/-- What recording a record does to the entries. -/
structure Recording (k : Keys R K L I) (rows : List R) (s : State R K L I) (r : R) (m : Nat)
    (entries : List (Entry K L)) : Prop where
  apart : entries.Pairwise fun e e' => ¬ Meets e.pair e'.pair
  source : ∀ e ∈ entries, e ∈ s.entries ∨ e = k.entry r m
  coversNew : ∃ e ∈ entries, Meets e.pair (k.pair r)
  coversOld : ∀ t ∈ rows, (∃ e ∈ s.entries, Meets e.pair (k.pair t)) →
    ∃ e ∈ entries, Meets e.pair (k.pair t)

theorem recording_append (inv : k.Inv rows s) (m : Nat) (h : k.matching s r = none) :
    Recording k rows s r m (s.entries ++ [k.entry r m]) where
  apart := by
    rw [pairwise_append]
    refine ⟨inv.apart, pairwise_singleton _ _, fun e he e' he' => ?_⟩
    rw [mem_singleton] at he'
    rw [he', pair_entry]
    exact k.matching_eq_none.mp h e he
  source := fun e he => by simpa using he
  coversNew := ⟨k.entry r m, by simp, Meets.refl _⟩
  coversOld := fun t _ ⟨e, he, hmeets⟩ => ⟨e, mem_append_left _ he, hmeets⟩

theorem recording_keep (inv : k.Inv rows s) (m : Nat)
    (h : k.matching s r = some e) : Recording k rows s r m s.entries where
  apart := inv.apart
  source := fun _ he => Or.inl he
  coversNew := ⟨e, k.mem_of_matching h⟩
  coversOld := fun _ _ hcovered => hcovered

/-- No other entry has a key of the record. -/
theorem clashes_eq_false (inv : k.Inv rows s) (hsteady : k.Steady rows) (hr : r ∈ rows)
    (h : k.matching s r = some e) : k.clashes s r e.id = false := by
  rw [Keys.clashes_eq_false]
  intro e' he' hne hmeets
  obtain ⟨he, hmeets'⟩ := k.mem_of_matching h
  exact hne (congrArg Entry.id (inv.unique hsteady hr he' he hmeets hmeets'))

theorem recording_overwritten (inv : k.Inv rows s) (hsteady : k.Steady rows) (hr : r ∈ rows)
    (m : Nat) (h : k.matching s r = some e) :
    Recording k rows s r m (k.overwritten s r e.id m) where
  apart := by
    have hclash := Keys.clashes_eq_false (k := k) |>.mp (inv.clashes_eq_false hsteady hr h)
    rw [overwritten, pairwise_map]
    refine inv.apart.imp_of_mem fun {a b} ha hb hnot => ?_
    by_cases hea : a.id = e.id
    · by_cases heb : b.id = e.id
      · exact absurd (Or.inl (hea.trans heb.symm)) hnot
      · rw [if_pos hea, if_neg heb, pair_entry]
        exact fun hmeets => hclash b hb heb hmeets.symm
    · by_cases heb : b.id = e.id
      · rw [if_neg hea, if_pos heb, pair_entry]
        exact hclash a ha hea
      · rw [if_neg hea, if_neg heb]
        exact hnot
  source := by
    intro e' he'
    obtain ⟨a, ha, rfl⟩ := mem_map.mp he'
    by_cases hea : a.id = e.id
    · exact Or.inr (if_pos hea)
    · rw [if_neg hea]
      exact Or.inl ha
  coversNew := by
    refine ⟨k.entry r m, mem_map.mpr ⟨e, (k.mem_of_matching h).1, if_pos rfl⟩, Meets.refl _⟩
  coversOld := by
    rintro t ht ⟨a, ha, hmeets⟩
    by_cases hea : a.id = e.id
    · -- the entry overwritten is of a record linked to both
      obtain ⟨he, hmatch⟩ := k.mem_of_matching h
      refine ⟨k.entry r m, mem_map.mpr ⟨a, ha, if_pos hea⟩, ?_⟩
      obtain ⟨u, hu, hpair⟩ := inv.source a ha
      have hur : k.Linked u r := by
        obtain ⟨v, hv, hpair', hvr⟩ := inv.matched h
        have huv : k.Linked u v := Or.inl (by
          rw [show k.id u = a.id from (congrArg Prod.fst hpair).symm, hea]
          exact congrArg Prod.fst hpair')
        exact hsteady.trans (inv.known u _ hu).1 (inv.known v _ hv).1 hr huv hvr
      rw [hpair, meets_pair] at hmeets
      rw [pair_entry, meets_pair]
      exact hsteady.trans hr (inv.known u _ hu).1 ht hur.symm hmeets
    · exact ⟨a, mem_map.mpr ⟨a, ha, if_neg hea⟩, hmeets⟩

end Matching

variable [DecidableEq K] [DecidableEq L] [DecidableEq I]

variable {m : Nat}

section

variable (inv : k.Inv rows s)
include inv

/-- Where a record is found, one that is the same has that entity. -/
theorem located_same (hr : r ∈ rows)
    (h : k.located s r = some m) : ∃ t, s.attached.get? t = some m ∧ k.Same rows t r := by
  rw [located, or_eq_some_iff] at h
  rcases h with hanchor | ⟨-, hmatching⟩
  · obtain ⟨i, hi, hget⟩ := k.getElem_of_byAnchor hanchor
    obtain ⟨t, ht, hti⟩ := inv.anchored i m hget
    exact ⟨t, ht, Same.of_anchor (inv.known t m ht).1 hr hti hi⟩
  · obtain ⟨e, he, rfl⟩ := map_eq_some_iff.mp hmatching
    obtain ⟨t, ht, -, hlinked⟩ := inv.matched he
    exact ⟨t, ht, Or.inl hlinked⟩

/-- Where a record is not found, none that is there is the same. -/
theorem not_same_of_located_eq_none (hcons : k.Consistent real rows)
    (hsteady : k.Steady rows) (hgathered : k.Gathered rows) (hr : r ∈ rows) (h : k.located s r = none)
    (ht : s.attached.get? t = some m) : ¬ k.Same rows t r := by
  rw [located, or_eq_none_iff, map_eq_none_iff] at h
  obtain ⟨hanchor, hmatching⟩ := h
  have hrows := (inv.known t m ht).1
  have hnot : ¬ k.Linked t r := fun hlinked => inv.matching_ne_none hsteady hr ht hlinked hmatching
  rintro (hlinked | ⟨i, ⟨t', ht', htt', hti⟩, ⟨r', hr', hrr', hri⟩⟩)
  · exact hnot hlinked
  · cases hown : k.anchor r with
    | none =>
        -- `r` came before its anchor, so the anchor is where `r` is
        have hrt' := hgathered r hr r' hr' t' ht' i hown hri hti hrr'
        exact hnot (hsteady.trans hrows ht' hr htt' hrt'.symm)
    | some j =>
        have habsent := k.byAnchor_eq_none.mp hanchor j hown
        have hreal : real r = real r' := hcons.linked hr hr' hrr'
        have hij : j = i := hcons.oneAnchor r hr r' hr' j i hreal hown hri
        subst hij
        by_cases hpure : ∀ u ∈ rows, k.Linked t u → k.anchor u ≠ none
        · -- a record whose linked records all have the anchor has made the entity known by it
          obtain ⟨l, hl⟩ := ne_none_iff_exists'.mp (hpure t hrows (Linked.refl t))
          have htl : l = j := hcons.oneAnchor t hrows t' ht' l j (hcons.linked hrows ht' htt') hl hti
          exact habsent (htl ▸ inv.pure t m l ht hl hpure)
        · push Not at hpure
          obtain ⟨u, hu, htu, hnone⟩ := hpure
          have hut' := hsteady.trans hu hrows ht' htu.symm htt'
          have hur := hgathered u hu t' ht' r hr j hnone hti hown hut'
          exact hnot (hsteady.trans hrows hu hr htu hur)

/-- The entry that matches a record is of the entity the record is found to be. -/
theorem entity_eq_owner (hr : r ∈ rows) {e : Entry K L}
    (h : k.matching s r = some e) : e.entity = k.owner s r := by
  have hsome : k.located s r ≠ none := by
    rw [located, h, ne_eq, or_eq_none_iff, not_and]
    exact fun _ hnone => by cases hnone
  obtain ⟨m, hm⟩ := ne_none_iff_exists'.mp hsome
  obtain ⟨t, ht, -, hlinked⟩ := inv.matched h
  rw [owner, hm, getD_some]
  rw [located, or_eq_some_iff] at hm
  rcases hm with hanchor | ⟨-, hmatching⟩
  · obtain ⟨i, hi, hget⟩ := k.getElem_of_byAnchor hanchor
    obtain ⟨u, hu, hui⟩ := inv.anchored i m hget
    refine (inv.same t u _ _ ht hu).mpr (Or.inr ⟨i, ⟨r, hr, hlinked, hi⟩, ?_⟩)
    exact ⟨u, (inv.known u m hu).1, Linked.refl u, hui⟩
  · rw [h, map_some, some.injEq] at hmatching
    exact hmatching

/-- Recording a record under its entity is not ambiguous. -/
theorem recorded (hsteady : k.Steady rows) (hr : r ∈ rows) :
    ∃ entries, k.recorded s r (k.owner s r) = some entries ∧
      Recording k rows s r (k.owner s r) entries := by
  cases hmatching : k.matching s r with
  | none =>
      refine ⟨_, ?_, inv.recording_append _ hmatching⟩
      rw [Keys.recorded, hmatching]
  | some e =>
      have hentity := inv.entity_eq_owner hr hmatching
      rw [Keys.recorded, hmatching]
      simp only [hentity, ne_eq, not_true_eq_false, if_false,
        inv.clashes_eq_false hsteady hr hmatching, Bool.false_eq_true]
      by_cases hstrong : k.strong r = true
      · rw [if_pos hstrong]
        exact ⟨_, rfl, inv.recording_overwritten hsteady hr _ hmatching⟩
      · rw [if_neg hstrong]
        exact ⟨_, rfl, inv.recording_keep _ hmatching⟩

/-- The record and one that is there are the same when the record is found to be its entity. -/
theorem same_iff (hcons : k.Consistent real rows) (hsteady : k.Steady rows)
    (hgathered : k.Gathered rows) (hr : r ∈ rows) (ht : s.attached.get? t = some m) :
    m = k.owner s r ↔ k.Same rows t r := by
  cases hlocated : k.located s r with
  | none =>
      have hlt := (inv.known t m ht).2
      rw [owner, hlocated, getD_none]
      constructor
      · intro heq
        omega
      · intro hsame
        exact absurd hsame (inv.not_same_of_located_eq_none hcons hsteady hgathered hr hlocated ht)
  | some n =>
      obtain ⟨u, hu, hur⟩ := inv.located_same hr hlocated
      have htr := (inv.known t m ht).1
      have hus := (inv.known u n hu).1
      rw [owner, hlocated, getD_some, inv.same t u m n ht hu]
      constructor
      · intro htu
        exact htu.trans hcons hsteady htr hus hr hur
      · intro hsame
        exact hsame.trans hcons hsteady htr hr hus hur.symm

theorem owner_lt (hr : r ∈ rows) : k.owner s r < (k.withOwner s r).length := by
  cases hlocated : k.located s r with
  | none => simp [owner, withOwner, hlocated]
  | some m =>
      obtain ⟨t, ht, -⟩ := inv.located_same hr hlocated
      simpa [owner, withOwner, hlocated] using (inv.known t m ht).2

theorem oneEntity_withOwner : ((k.withOwner s r).filterMap fun a => a).Nodup := by
  cases hlocated : k.located s r with
  | some n =>
      rw [withOwner, hlocated, isSome_some, if_pos rfl]
      exact inv.oneEntity
  | none =>
      rw [withOwner, hlocated, isSome_none, if_neg Bool.false_ne_true, filterMap_append]
      rw [located, or_eq_none_iff] at hlocated
      have habsent := k.byAnchor_eq_none.mp hlocated.1
      cases hown : k.anchor r with
      | none => simpa using inv.oneEntity
      | some i =>
          rw [show [some i].filterMap (fun a => a) = [i] from rfl, nodup_append]
          refine ⟨inv.oneEntity, nodup_singleton i, fun a ha b hb => ?_⟩
          rw [mem_singleton] at hb
          rw [mem_filterMap] at ha
          obtain ⟨_, hmem, rfl⟩ := ha
          rintro rfl
          exact habsent _ (hb ▸ hown) (by assumption)

/-- A record linked to none without an anchor has its anchor among the entities. -/
theorem mem_of_pure (hcons : k.Consistent real rows) (hr : r ∈ rows)
    (hown : k.anchor r = some i) (hpure : ∀ t ∈ rows, k.Linked r t → k.anchor t ≠ none)
    (hsteady : k.Steady rows) : some i ∈ k.withOwner s r := by
  cases hlocated : k.located s r with
  | none =>
      rw [withOwner, hlocated, isSome_none, if_neg Bool.false_ne_true, hown]
      exact mem_append_right _ (mem_singleton_self _)
  | some m =>
      apply k.mem_withOwner
      rw [located, or_eq_some_iff] at hlocated
      rcases hlocated with hanchor | ⟨-, hmatching⟩
      · obtain ⟨j, hj, hget⟩ := k.getElem_of_byAnchor hanchor
        rw [hown, some.injEq] at hj
        exact hj ▸ mem_of_getElem? hget
      · -- the record it is linked to is pure as well, and was there
        obtain ⟨e, he, rfl⟩ := map_eq_some_iff.mp hmatching
        obtain ⟨t, ht, -, htr⟩ := inv.matched he
        have htmem := (inv.known t _ ht).1
        have hlinked : ∀ u ∈ rows, k.Linked t u → k.anchor u ≠ none :=
          fun u hu htu => hpure u hu (hsteady.trans hr htmem hu htr.symm htu)
        obtain ⟨j, hj⟩ := ne_none_iff_exists'.mp (hlinked t htmem (Linked.refl t))
        have hij := hcons.oneAnchor t htmem r hr j i (hcons.linked htmem hr htr) hj hown
        exact hij ▸ inv.pure t _ j ht hj hlinked

/-- **Linking one more record succeeds, and keeps the invariant.** -/
theorem link (hcons : k.Consistent real rows) (hsteady : k.Steady rows)
    (hgathered : k.Gathered rows) (hr : r ∈ rows) (hnew : s.attached.get? r = none) :
    ∃ s', k.link s r = some s' ∧ k.Inv rows s' ∧ s'.attached = s.attached.set r (k.owner s r) := by
  obtain ⟨entries, hrecorded, hspec⟩ := inv.recorded hsteady hr
  refine ⟨_, by rw [Keys.link, hrecorded, map_some], ?_, rfl⟩
  have hlookup : ∀ t, (s.attached.set r (k.owner s r)).get? t
      = if t = r then some (k.owner s r) else s.attached.get? t := by
    intro t
    rw [get?_set]
  have hold : ∀ {t m}, s.attached.get? t = some m →
      (s.attached.set r (k.owner s r)).get? t = some m := by
    intro t m ht
    rw [hlookup, if_neg (by rintro rfl; rw [hnew] at ht; cases ht)]
    exact ht
  -- a record attached now is `r`, or it was attached before
  have hcases : ∀ {t m}, (s.attached.set r (k.owner s r)).get? t = some m →
      (t = r ∧ m = k.owner s r) ∨ s.attached.get? t = some m := by
    intro t m ht
    rw [hlookup] at ht
    by_cases htr : t = r
    · rw [if_pos htr, some.injEq] at ht
      exact Or.inl ⟨htr, ht.symm⟩
    · rw [if_neg htr] at ht
      exact Or.inr ht
  constructor
  · intro t m ht
    rcases hcases ht with ⟨rfl, rfl⟩ | ht
    · exact ⟨hr, inv.owner_lt hr⟩
    · obtain ⟨hmem, hlt⟩ := inv.known t m ht
      exact ⟨hmem, Nat.lt_of_lt_of_le hlt k.length_le_withOwner⟩
  · intro e he
    rcases hspec.source e he with he | rfl
    · obtain ⟨t, ht, hpair⟩ := inv.source e he
      exact ⟨t, hold ht, hpair⟩
    · exact ⟨r, by rw [hlookup, if_pos rfl, entity_entry], rfl⟩
  · intro t m ht
    rcases hcases ht with ⟨rfl, -⟩ | ht
    · exact hspec.coversNew
    · exact hspec.coversOld t (inv.known t m ht).1 (inv.covered t m ht)
  · exact hspec.apart
  · intro t u m n ht hu
    rcases hcases ht with ⟨rfl, rfl⟩ | hbefore
    · rcases hcases hu with ⟨rfl, rfl⟩ | hbefore'
      · exact iff_of_true rfl (Same.refl rows _)
      · rw [eq_comm, inv.same_iff hcons hsteady hgathered hr hbefore']
        exact ⟨Same.symm, Same.symm⟩
    · rcases hcases hu with ⟨rfl, rfl⟩ | hbefore'
      · exact inv.same_iff hcons hsteady hgathered hr hbefore
      · exact inv.same t u m n hbefore hbefore'
  · intro i m hget
    rcases k.anchor_withOwner hget with hget | ⟨rfl, hown⟩
    · obtain ⟨t, ht, hti⟩ := inv.anchored i m hget
      exact ⟨t, hold ht, hti⟩
    · exact ⟨r, by rw [hlookup, if_pos rfl], hown⟩
  · intro t m i ht hti hpure
    rcases hcases ht with ⟨rfl, -⟩ | ht
    · exact inv.mem_of_pure hcons hr hti hpure hsteady
    · exact k.mem_withOwner (inv.pure t m i ht hti hpure)
  · exact inv.oneEntity_withOwner

end

/-- **Linking any more records succeeds, and keeps the invariant.** -/
theorem linkAll (hcons : k.Consistent real rows) (hsteady : k.Steady rows)
    (hgathered : k.Gathered rows) {todo : List R} (hmem : ∀ r ∈ todo, r ∈ rows)
    (hnodup : todo.Nodup) (inv : k.Inv rows s) (hnew : ∀ r ∈ todo, s.attached.get? r = none) :
    ∃ s', k.linkAll s todo = some s' ∧ k.Inv rows s' ∧
      ∀ r, r ∈ todo ∨ s.attached.get? r ≠ none → s'.attached.get? r ≠ none := by
  induction todo generalizing s with
  | nil => exact ⟨s, rfl, inv, fun r hr => by simpa using hr⟩
  | cons r rest ih =>
      obtain ⟨hfresh, hrest⟩ := nodup_cons.mp hnodup
      obtain ⟨next, hlink, hnext, hattached⟩ := inv.link hcons hsteady hgathered
        (hmem r mem_cons_self) (hnew r mem_cons_self)
      have hstill : ∀ t ∈ rest, next.attached.get? t = none := by
        intro t ht
        rw [hattached, get?_set_ne _ _ (by rintro rfl; exact hfresh ht)]
        exact hnew t (mem_cons_of_mem _ ht)
      obtain ⟨s', hs', hinv, hkept⟩ :=
        ih (fun t ht => hmem t (mem_cons_of_mem _ ht)) hrest hnext hstill
      refine ⟨s', ?_, hinv, fun t ht => hkept t ?_⟩
      · rw [Keys.linkAll, foldlM_cons, hlink]
        exact hs'
      · rcases ht with hmemt | hthere
        · rcases mem_cons.mp hmemt with rfl | hmemt
          · right
            rw [hattached, get?_set_self]
            exact some_ne_none _
          · exact Or.inl hmemt
        · right
          rw [hattached, get?_set]
          split
          · exact some_ne_none _
          · exact hthere

end Inv

/-! ### Every order -/

/-- Which records have one entity is which are the same. -/
theorem Inv.attached_eq_iff {s : State R K L I} (inv : k.Inv rows s) {m n : Nat}
    (hr : s.attached.get? r = some m) (ht : s.attached.get? t = some n) :
    s.attached.get? r = s.attached.get? t ↔ k.Same rows r t := by
  rw [hr, ht, some.injEq]
  exact inv.same r t m n hr ht

variable [DecidableEq K] [DecidableEq L] [DecidableEq I]

/-- Every order links all the records, and any two of them to the same parts. -/
structure OrderFree (k : Keys R K L I) (rows : List R) : Prop where
  succeeds : ∀ order : List R, order.Perm rows → ∃ s, k.linkAll State.empty order = some s
  agrees : ∀ order order' : List R, order.Perm rows → order'.Perm rows → ∀ s s',
    k.linkAll State.empty order = some s → k.linkAll State.empty order' = some s' →
    ∀ r ∈ rows, ∀ t ∈ rows,
      (s.attached.get? r = s.attached.get? t ↔ s'.attached.get? r = s'.attached.get? t)

/-- The invariant holds at the end of every order, and every record has its entity then. -/
theorem linkAll_perm (hcons : k.Consistent real rows) (hsteady : k.Steady rows)
    (hgathered : k.Gathered rows) (hnodup : rows.Nodup) {order : List R} (hperm : order.Perm rows) :
    ∃ s, k.linkAll State.empty order = some s ∧ k.Inv rows s ∧
      ∀ r ∈ rows, ∃ m, s.attached.get? r = some m := by
  obtain ⟨s, hs, hinv, hall⟩ := Inv.linkAll hcons hsteady hgathered
    (fun r hr => hperm.mem_iff.mp hr) (hperm.nodup_iff.mpr hnodup) (Inv.empty rows)
    (fun r _ => rfl)
  refine ⟨s, hs, hinv, fun r hr => ?_⟩
  exact ne_none_iff_exists'.mp (hall r (Or.inl (hperm.mem_iff.mpr hr)))

/-- **Steady and gathered records are linked alike in every order.** -/
theorem orderFree (hcons : k.Consistent real rows) (hsteady : k.Steady rows)
    (hgathered : k.Gathered rows) (hnodup : rows.Nodup) : k.OrderFree rows where
  succeeds := by
    intro order hperm
    obtain ⟨s, hs, -⟩ := linkAll_perm hcons hsteady hgathered hnodup hperm
    exact ⟨s, hs⟩
  agrees := by
    intro order order' hperm hperm' s s' hs hs' r hr t ht
    obtain ⟨u, hu, hinv, hall⟩ := linkAll_perm hcons hsteady hgathered hnodup hperm
    obtain ⟨u', hu', hinv', hall'⟩ := linkAll_perm hcons hsteady hgathered hnodup hperm'
    rw [hs, some.injEq] at hu
    rw [hs', some.injEq] at hu'
    subst hu hu'
    obtain ⟨m, hm⟩ := hall r hr
    obtain ⟨n, hn⟩ := hall t ht
    obtain ⟨m', hm'⟩ := hall' r hr
    obtain ⟨n', hn'⟩ := hall' t ht
    rw [hinv.attached_eq_iff hm hn, hinv'.attached_eq_iff hm' hn']

end InvestmentPlatform.Linkage.Keys

/-!
When linking depends on the order.

Each condition of `orderFree` is needed: where records break it, two short orders of some of them
end differently, and any order of all the records that starts with these ends differently too.
-/

namespace InvestmentPlatform.Linkage.Keys

variable {R K L I J : Type} {k : Keys R K L I} {rows : List R} {r t u : R} {i : I}
variable [DecidableEq K] [DecidableEq L] [DecidableEq I] {s s' : State R K L I}

/-! ### One record -/

variable {e : Entry K L}

theorem owner_of_matched (hanchor : k.byAnchor s r = none)
    (h : k.matching s r = some e) : k.owner s r = e.entity := by
  rw [owner, located, hanchor, h, Option.none_or, Option.map_some, Option.getD_some]

theorem withOwner_of_matched (h : k.matching s r = some e) : k.withOwner s r = s.entities := by
  have hsome : (k.located s r).isSome := by
    rw [located, h, Option.isSome_or]
    simp
  rw [withOwner, if_pos hsome]

/-- A record found by nothing is the next entity. -/
theorem owner_of_new (hanchor : k.byAnchor s r = none) (h : k.matching s r = none) :
    k.owner s r = s.entities.length := by
  rw [owner, located, hanchor, h]
  rfl

theorem withOwner_of_new (hanchor : k.byAnchor s r = none) (h : k.matching s r = none) :
    k.withOwner s r = s.entities ++ [k.anchor r] := by
  rw [withOwner, located, hanchor, h]
  rfl

variable [DecidableEq R]

theorem link_of_unmatched (h : k.matching s r = none) :
    k.link s r = some ⟨k.withOwner s r, s.entries ++ [k.entry r (k.owner s r)],
      s.attached.set r (k.owner s r)⟩ := by
  rw [link, recorded, h, Option.map_some]

theorem link_of_new (hanchor : k.byAnchor s r = none) (h : k.matching s r = none) :
    k.link s r = some ⟨s.entities ++ [k.anchor r], s.entries ++ [k.entry r s.entities.length],
      s.attached.set r s.entities.length⟩ := by
  rw [link_of_unmatched h, owner_of_new hanchor h, withOwner_of_new hanchor h]

/-- A record found by its key alone that overwrites nothing changes nothing but its own entity. -/
theorem link_of_weak (hanchor : k.byAnchor s r = none)
    (h : k.matching s r = some e) (hweak : k.strong r = false) :
    k.link s r = some ⟨s.entities, s.entries, s.attached.set r e.entity⟩ := by
  rw [link, recorded, h, owner_of_matched hanchor h, withOwner_of_matched h]
  simp [hweak]

theorem link_of_strong (hanchor : k.byAnchor s r = none) (h : k.matching s r = some e)
    (hstrong : k.strong r = true) (hclash : k.clashes s r e.id = false) :
    k.link s r = some ⟨s.entities, k.overwritten s r e.id e.entity, s.attached.set r e.entity⟩ := by
  rw [link, recorded, h, owner_of_matched hanchor h, withOwner_of_matched h]
  simp [hstrong, hclash]

/-- A strong record whose keys are in two entries cannot be linked. -/
theorem link_of_clash (h : k.matching s r = some e) (hstrong : k.strong r = true)
    (hclash : k.clashes s r e.id = true) : k.link s r = none := by
  rw [link, recorded, h]
  simp [hstrong, hclash]

theorem attached_link (h : k.link s r = some s') :
    s'.attached = s.attached.set r (k.owner s r) := by
  rw [link] at h
  obtain ⟨entries, -, rfl⟩ := Option.map_eq_some_iff.mp h
  rfl

/-! ### The start of an order -/

theorem linkAll_append {s : State R K L I} (first rest : List R) :
    k.linkAll s (first ++ rest) = (k.linkAll s first).bind fun next => k.linkAll next rest := by
  rw [linkAll, List.foldlM_append]
  rfl

/-- Records that come later leave the entity of a record as it is. -/
theorem attached_linkAll {rest : List R} (h : k.linkAll s rest = some s') (hr : r ∉ rest) :
    s'.attached.get? r = s.attached.get? r := by
  induction rest generalizing s with
  | nil =>
      cases h
      rfl
  | cons t rest ih =>
      rw [List.mem_cons, not_or] at hr
      rw [linkAll, List.foldlM_cons] at h
      obtain ⟨next, hnext, hrest⟩ := Option.bind_eq_some_iff.mp h
      rw [ih hrest hr.2, attached_link hnext, Dict.get?_set_ne _ _ hr.1]

/-- Some of the records, and then the others. -/
def startingWith (rows first : List R) : List R := first ++ rows.filter fun r => r ∉ first

theorem startingWith_perm (hnodup : rows.Nodup) {first : List R} (hfirst : first.Nodup)
    (hsub : first ⊆ rows) : (startingWith rows first).Perm rows := by
  rw [List.perm_ext_iff_of_nodup _ hnodup]
  · intro r
    rw [startingWith, List.mem_append, List.mem_filter, decide_eq_true_eq]
    constructor
    · rintro (h | h)
      · exact hsub h
      · exact h.1
    · intro h
      by_cases hmem : r ∈ first
      · exact Or.inl hmem
      · exact Or.inr ⟨h, hmem⟩
  · refine List.Nodup.append hfirst (hnodup.filter _) ?_
    intro r hr hrest
    rw [List.mem_filter, decide_eq_true_eq] at hrest
    exact hrest.2 hr

namespace OrderFree

/-- What starts an order is linked, and the records of it keep their entities to its end. -/
theorem start (h : k.OrderFree rows) (hnodup : rows.Nodup) {first : List R} (hfirst : first.Nodup)
    (hsub : first ⊆ rows) :
    ∃ s s', k.linkAll State.empty first = some s ∧
      k.linkAll State.empty (startingWith rows first) = some s' ∧
      ∀ r ∈ first, s'.attached.get? r = s.attached.get? r := by
  obtain ⟨s', hs'⟩ := h.succeeds _ (startingWith_perm hnodup hfirst hsub)
  have hall := hs'
  rw [startingWith, linkAll_append] at hs'
  obtain ⟨s, hs, hrest⟩ := Option.bind_eq_some_iff.mp hs'
  refine ⟨s, s', hs, hall, fun r hr => attached_linkAll hrest ?_⟩
  rw [List.mem_filter, decide_eq_true_eq]
  exact fun hmem => hmem.2 hr

/-- Two starts with the same two records put them in one entity both, or neither. -/
theorem starts_agree (h : k.OrderFree rows) (hnodup : rows.Nodup) {first first' : List R}
    (hfirst : first.Nodup) (hfirst' : first'.Nodup) (hsub : first ⊆ rows) (hsub' : first' ⊆ rows)
    (hs : k.linkAll State.empty first = some s) (hs' : k.linkAll State.empty first' = some s')
    (hr : r ∈ first) (ht : t ∈ first) (hr' : r ∈ first') (ht' : t ∈ first') :
    s.attached.get? r = s.attached.get? t ↔ s'.attached.get? r = s'.attached.get? t := by
  obtain ⟨u, v, hu, hv, hkept⟩ := h.start hnodup hfirst hsub
  obtain ⟨u', v', hu', hv', hkept'⟩ := h.start hnodup hfirst' hsub'
  rw [hs, Option.some.injEq] at hu
  rw [hs', Option.some.injEq] at hu'
  subst hu hu'
  rw [← hkept r hr, ← hkept t ht, ← hkept' r hr', ← hkept' t ht']
  exact h.agrees _ _ (startingWith_perm hnodup hfirst hsub) (startingWith_perm hnodup hfirst' hsub')
    v v' hv hv' r (hsub hr) t (hsub ht)

end OrderFree

/-! ### Orders that end differently -/

/-- What the first record leaves. -/
def onlyOne (k : Keys R K L I) (r : R) : State R K L I :=
  ⟨[k.anchor r], [k.entry r 0], Dict.empty.set r 0⟩

theorem link_empty : k.link State.empty r = some (onlyOne k r) := by
  have hanchor : k.byAnchor (State.empty : State R K L I) r = none := by
    rw [byAnchor_eq_none]
    intro i _ hmem
    cases hmem
  have hmatching : k.matching (State.empty : State R K L I) r = none := by
    rw [matching_eq_none]
    intro e he
    cases he
  rw [link_of_new hanchor hmatching]
  rfl

theorem linkAll_cons_empty (rest : List R) :
    k.linkAll State.empty (r :: rest) = k.linkAll (onlyOne k r) rest := by
  rw [linkAll, List.foldlM_cons, link_empty]
  rfl

theorem linkAll_cons_of_link {rest : List R} (h : k.link s r = some s') :
    k.linkAll s (r :: rest) = k.linkAll s' rest := by
  rw [linkAll, List.foldlM_cons, h]
  rfl

/-- **An anchor that comes late to one record does not reach one that is not linked to it.** -/
theorem not_orderFree_of_late (hnodup : rows.Nodup)
    (hstrong : ∀ r ∈ rows, k.anchor r ≠ none → k.strong r = true) (hr : r ∈ rows) (ht : t ∈ rows)
    (hu : u ∈ rows) (hrnone : k.anchor r = none) (hti : k.anchor t = some i)
    (hui : k.anchor u = some i) (hrt : k.Linked r t) (htu : ¬ k.Linked t u) :
    ¬ k.OrderFree rows := by
  intro hfree
  have hner : r ≠ t := by
    rintro rfl
    rw [hrnone] at hti
    cases hti
  have hneu : r ≠ u := by
    rintro rfl
    rw [hrnone] at hui
    cases hui
  have hne : t ≠ u := by
    rintro rfl
    exact htu (Linked.refl t)
  -- without `r` the anchor brings the two together
  have htogether : ∃ s, k.linkAll State.empty [t, u] = some s ∧
      s.attached.get? t = s.attached.get? u := by
    have hanchor : k.byAnchor (onlyOne k t) u = some 0 := by
      simp [byAnchor, hui, onlyOne, hti]
    have howner : k.owner (onlyOne k t) u = 0 := by
      rw [owner, located, hanchor]
      rfl
    have hlink := link_of_unmatched (k.matching_singleton_eq_none (s := onlyOne k t) rfl htu)
    rw [howner] at hlink
    refine ⟨_, by rw [linkAll_cons_empty, linkAll_cons_of_link hlink]; rfl, ?_⟩
    simp [onlyOne, Dict.get?_set, hne]
  -- with `r` first the entity has no anchor, and the entry is that of `t` when `u` comes
  have hapart : ∃ s, k.linkAll State.empty [r, t, u] = some s ∧
      s.attached.get? t ≠ s.attached.get? u := by
    have hsecond := link_of_strong (s := onlyOne k r)
      (k.byAnchor_singleton_eq_none rfl (Or.inl hrnone)) (k.matching_singleton rfl hrt)
      (hstrong t ht (by rw [hti]; exact Option.some_ne_none i)) (by simp [clashes, onlyOne])
    have hentries : k.overwritten (onlyOne k r) t (k.entry r 0).id (k.entry r 0).entity
        = [k.entry t 0] := by
      simp [overwritten, onlyOne]
    rw [hentries, entity_entry] at hsecond
    have hthird := link_of_new
      (s := ⟨(onlyOne k r).entities, [k.entry t 0], (onlyOne k r).attached.set t 0⟩) (r := u)
      (k.byAnchor_singleton_eq_none rfl (Or.inl hrnone)) (k.matching_singleton_eq_none rfl htu)
    refine ⟨_, by rw [linkAll_cons_empty, linkAll_cons_of_link hsecond,
      linkAll_cons_of_link hthird]; rfl, ?_⟩
    simp [onlyOne, Dict.get?_set, hne]
  obtain ⟨s, hs, hsame⟩ := htogether
  obtain ⟨s', hs', hdiffer⟩ := hapart
  apply hdiffer
  rw [← hfree.starts_agree hnodup (show [t, u].Nodup by simp [hne])
    (show [r, t, u].Nodup by simp [hner, hneu, hne]) (by simp [ht, hu]) (by simp [hr, ht, hu]) hs hs' (by simp)
    (by simp) (by simp) (by simp)]
  exact hsame

/-- A strong record with one second key cannot follow another record of its key and another key
of its second key. -/
theorem not_orderFree_of_strong (hnodup : rows.Nodup) {a b c : R} (ha : a ∈ rows) (hb : b ∈ rows)
    (hc : c ∈ rows) (hlisting : k.listing a = k.listing b) (hsome : k.listing a ≠ none)
    (hid : k.id b ≠ k.id a) (hid' : k.id c = k.id a) (hlisting' : k.listing c ≠ k.listing a)
    (hstrong : k.strong a = true) : ¬ k.OrderFree rows := by
  intro hfree
  have hcb : ¬ k.Linked c b := by
    rintro (h | ⟨h, -⟩)
    · exact hid (h.symm.trans hid')
    · exact hlisting' (h.trans hlisting.symm)
  have hnca : c ≠ a := by
    rintro rfl
    exact hlisting' rfl
  have hnba : b ≠ a := by
    rintro rfl
    exact hid rfl
  have hncb : c ≠ b := by
    rintro rfl
    exact hid hid'
  obtain ⟨s, -, hs, -⟩ := hfree.start hnodup (show [c, b, a].Nodup by simp [hnca, hnba, hncb])
    (by simp [ha, hb, hc])
  rw [linkAll_cons_empty, linkAll_cons_of_link (link_of_unmatched
      (k.matching_singleton_eq_none (s := onlyOne k c) (r := b) rfl hcb))] at hs
  obtain ⟨s', hlink, -⟩ := Option.bind_eq_some_iff.mp hs
  -- the key of `a` is in the entry of `c`, and its second key in the entry of `b`
  rw [link_of_clash (e := k.entry c 0) ?_ hstrong ?_] at hlink
  · cases hlink
  · simp [matching, onlyOne, entry, hid']
  · have hthere : (k.listing b).isSome := Option.isSome_iff_ne_none.mpr (hlisting ▸ hsome)
    simp [clashes, onlyOne, entry, hid, hid', hlisting, hthere]

/-- A weak record joins the record of its second key when that comes first, and the one of its
key when they both came. -/
theorem not_orderFree_of_weak (hnodup : rows.Nodup) {a b c : R} (ha : a ∈ rows) (hb : b ∈ rows)
    (hc : c ∈ rows) (hlisting : k.listing a = k.listing b) (hsome : k.listing a ≠ none)
    (hid : k.id b ≠ k.id a) (hid' : k.id c = k.id a) (hlisting' : k.listing c ≠ k.listing a)
    (hweak : k.strong a = false) (hanone : k.anchor a = none)
    (hnone : k.anchor b = none ∨ k.anchor c = none) : ¬ k.OrderFree rows := by
  intro hfree
  have hcb : ¬ k.Linked c b := by
    rintro (h | ⟨h, -⟩)
    · exact hid (h.symm.trans hid')
    · exact hlisting' (h.trans hlisting.symm)
  have hnca : c ≠ a := by
    rintro rfl
    exact hlisting' rfl
  have hnba : b ≠ a := by
    rintro rfl
    exact hid rfl
  have hncb : c ≠ b := by
    rintro rfl
    exact hid hid'
  have htogether : ∃ s, k.linkAll State.empty [b, a] = some s ∧
      s.attached.get? a = s.attached.get? b := by
    have hba : Meets (k.entry b 0).pair (k.pair a) :=
      meets_pair.mpr (Or.inr ⟨hlisting.symm, hlisting ▸ hsome⟩)
    have hlink := link_of_weak (s := onlyOne k b) (k.byAnchor_singleton_eq_none rfl (Or.inr hanone))
      (k.matching_singleton rfl hba) hweak
    refine ⟨_, by rw [linkAll_cons_empty, linkAll_cons_of_link hlink]; rfl, ?_⟩
    simp [onlyOne, Dict.get?_set, hnba]
  have hapart : ∃ s, k.linkAll State.empty [c, b, a] = some s ∧
      s.attached.get? a ≠ s.attached.get? b := by
    have hsecond := link_of_new (s := onlyOne k c) (r := b)
      (k.byAnchor_singleton_eq_none rfl hnone.symm) (k.matching_singleton_eq_none rfl hcb)
    have hmatching : k.matching (⟨(onlyOne k c).entities ++ [k.anchor b],
        (onlyOne k c).entries ++ [k.entry b 1], (onlyOne k c).attached.set b 1⟩ : State R K L I) a
        = some (k.entry c 0) := by
      simp [matching, onlyOne, entry, hid']
    have hanchor : k.byAnchor (⟨(onlyOne k c).entities ++ [k.anchor b],
        (onlyOne k c).entries ++ [k.entry b 1], (onlyOne k c).attached.set b 1⟩ : State R K L I) a
        = none := by
      rw [byAnchor_eq_none, hanone]
      intro i hi
      cases hi
    have hthird := link_of_weak hanchor hmatching hweak
    refine ⟨_, by rw [linkAll_cons_empty, linkAll_cons_of_link hsecond]; exact
      linkAll_cons_of_link hthird, ?_⟩
    simp [onlyOne, Dict.get?_set, hnba]
  obtain ⟨s, hs, hsame⟩ := htogether
  obtain ⟨s', hs', hdiffer⟩ := hapart
  apply hdiffer
  rw [← hfree.starts_agree hnodup (show [b, a].Nodup by simp [hnba])
    (show [c, b, a].Nodup by simp [hnca, hncb, hnba]) (by simp [ha, hb]) (by simp [ha, hb, hc]) hs hs' (by simp)
    (by simp) (by simp) (by simp)]
  exact hsame

/-- **Linking ends alike in every order exactly for steady and gathered records.** -/
theorem orderFree_iff {real : R → J} (hcons : k.Consistent real rows) (hnodup : rows.Nodup)
    (hstrong : ∀ r ∈ rows, k.anchor r ≠ none → k.strong r = true) :
    k.OrderFree rows ↔ k.Steady rows ∧ k.Gathered rows := by
  constructor
  · intro hfree
    have hsteady : k.Steady rows := by
      intro a ha b hb c hc hlisting hsome hid hid'
      by_contra hlisting'
      cases ha' : k.strong a with
      | true =>
          exact not_orderFree_of_strong hnodup ha hb hc hlisting hsome hid hid' hlisting' ha' hfree
      | false =>
          have hanone : k.anchor a = none := by
            by_contra hanchor
            rw [hstrong a ha hanchor] at ha'
            cases ha'
          by_cases hnone : k.anchor b = none ∨ k.anchor c = none
          · exact not_orderFree_of_weak hnodup ha hb hc hlisting hsome hid hid' hlisting' ha' hanone
              hnone hfree
          · rw [not_or] at hnone
            obtain ⟨i, hi⟩ := Option.ne_none_iff_exists'.mp hnone.1
            obtain ⟨j, hj⟩ := Option.ne_none_iff_exists'.mp hnone.2
            have hca : real c = real a := hcons.ofId c hc a ha hid'
            have hab : real a = real b := hcons.ofListing a ha b hb hlisting hsome
            have hij : j = i := hcons.oneAnchor c hc b hb j i (hca.trans hab) hj hi
            refine not_orderFree_of_late hnodup hstrong ha hc hb hanone hj (hij ▸ hi)
              (Or.inl hid'.symm) ?_ hfree
            rintro (h | ⟨h, -⟩)
            · exact hid (h.symm.trans hid')
            · exact hlisting' (h.trans hlisting.symm)
    refine ⟨hsteady, fun r hr t ht u hu i hrnone hti hui hrt => ?_⟩
    by_contra hru
    refine not_orderFree_of_late hnodup hstrong hr ht hu hrnone hti hui hrt (fun htu => ?_) hfree
    exact hru (hsteady.trans hr ht hu hrt htu)
  · rintro ⟨hsteady, hgathered⟩
    exact orderFree hcons hsteady hgathered hnodup

end InvestmentPlatform.Linkage.Keys
