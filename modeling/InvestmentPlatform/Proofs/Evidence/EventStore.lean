/-
What the bounded event store shows of the durable events.

`Synced` is the invariant: a loaded bucket holds the events an unbounded store would hold, one
that was only written to holds what was written, and what is in memory alone sits in a pinned
bucket.  Eviction keeps it because it takes no pinned bucket, loading keeps it because it puts the
durable events beside the written ones.  Three steps break it, and are left out by `Careful`: a
load that fails, since the bucket counts as loaded by then; a write in the place of an event whose
key stays behind; and a deletion that takes the key of another event along or, in a loaded bucket,
an event that stays durable.
-/
import InvestmentPlatform.Evidence.EventStore

namespace InvestmentPlatform.Evidence

open List Function Dict

variable {E I K C : Type} [DecidableEq I]

namespace EventStore

variable (store : EventStore E I K C)

/-! ### Buckets -/

@[simp] theorem bucketAt_touch (i j : I) : (store.touch i).bucketAt j = store.bucketAt j := by
  unfold bucketAt touch
  by_cases h : j = i
  · subst h
    simp only [get?_set_self, Option.getD_some, bucketAt]
  · simp only [get?_set_ne _ _ h, get?_pop, if_neg h]

@[simp] theorem bucketAt_setBucket_self (i : I) (b : Bucket E I K C) :
    (store.setBucket i b).bucketAt i = b := by
  simp [bucketAt, setBucket]

variable {i j last : I}

theorem bucketAt_setBucket_ne (h : j ≠ i) (b : Bucket E I K C) :
    (store.setBucket i b).bucketAt j = store.bucketAt j := by
  simp [bucketAt, setBucket, get?_set_ne _ _ h]

@[simp] theorem markLoaded_bucketAt_self (i : I) :
    (store.markLoaded i).bucketAt i = { store.bucketAt i with loaded := true } :=
  bucketAt_setBucket_self store i _

theorem markLoaded_bucketAt_ne (h : j ≠ i) : (store.markLoaded i).bucketAt j = store.bucketAt j :=
  bucketAt_setBucket_ne store h _

theorem getLast?_touch (i : I) : (store.touch i).buckets.keys.getLast? = some i := by
  have hnot : i ∉ (store.buckets.pop i).keys := by
    rw [keys_pop, mem_filter]
    simp
  rw [touch, keys_set_of_notMem hnot, getLast?_concat]

theorem keys_setBucket (h : i ∈ store.buckets.keys) (b : Bucket E I K C) :
    (store.setBucket i b).buckets.keys = store.buckets.keys := by
  rw [setBucket, keys_set_of_mem h]

/-- Buckets that are all pinned but one are one more than the pinned ones. -/
theorem size_le_pinned (h : ∀ i ∈ store.buckets.keys, (store.bucketAt i).pinned = true ∨ i = last) :
    store.buckets.size ≤ store.pinnedInstruments + 1 := by
  have hcount : store.buckets.size = store.pinnedInstruments +
      (store.buckets.items.filter fun item => !item.2.pinned).length := by
    rw [Dict.size, pinnedInstruments, Dict.values, countP_map, countP_eq_length_filter,
      length_eq_length_filter_add (fun item : I × Bucket E I K C => item.2.pinned)]
    rfl
  have hone : (store.buckets.items.filter fun item => !item.2.pinned).length ≤ 1 := by
    have hall : ∀ i ∈ (store.buckets.items.filter fun item => !item.2.pinned).map Prod.fst,
        i = last := by
      intro i hi
      obtain ⟨item, hitem, rfl⟩ := mem_map.mp hi
      obtain ⟨hmem, hpinned⟩ := mem_filter.mp hitem
      have hget : store.buckets.get? item.1 = some item.2 := get?_of_mem hmem
      rcases h item.1 (mem_map_of_mem hmem) with hp | hl
      · rw [bucketAt, hget, Option.getD_some] at hp
        rw [hp] at hpinned
        cases hpinned
      · exact hl
    have hnodup : ((store.buckets.items.filter fun item => !item.2.pinned).map Prod.fst).Nodup :=
      (filter_sublist.map Prod.fst).nodup store.buckets.nodup
    have hsub : (store.buckets.items.filter fun item => !item.2.pinned).map Prod.fst ⊆ [last] :=
      fun i hi => mem_singleton.mpr (hall i hi)
    have hle := hnodup.length_le_of_subset hsub
    simpa using hle
  omega

variable [DecidableEq E]

@[simp] theorem bucketAt_drop_self (i : I) : (store.drop i).bucketAt i = Bucket.empty := by
  simp [bucketAt, drop, get?_pop]

theorem bucketAt_drop_ne (h : j ≠ i) : (store.drop i).bucketAt j = store.bucketAt j := by
  simp [bucketAt, drop, get?_pop, h]

/-! ### Eviction -/

theorem drop_instrumentOf (i : I) (id : E) : (store.drop i).instrumentOf.get? id =
    if id ∈ (store.bucketAt i).events.keys then none else store.instrumentOf.get? id :=
  get?_foldl_pop _ _ id

theorem drop_keys (i : I) : (store.drop i).buckets.keys = store.buckets.keys.filter (· ≠ i) :=
  keys_pop _ _

/-- Taking another element out leaves the last one the last. -/
theorem getLast?_filter_ne {l : List I} {a : I} (hlast : l.getLast? = some a) (h : a ≠ i) :
    (l.filter (· ≠ i)).getLast? = some a := by
  obtain ⟨front, rfl⟩ := getLast?_eq_some_iff.mp hlast
  rw [filter_append, filter_cons_of_pos (by simpa using h), filter_nil]
  exact getLast?_append_of_ne_nil _ (cons_ne_nil _ _)

/-- **What holds of the store and is kept when an unpinned bucket goes that is not the last one,
holds after the eviction.** -/
theorem evictFrom_induction {P : EventStore E I K C → Prop}
    (hdrop : ∀ (s : EventStore E I K C) i, P s → s.buckets.keys.getLast? = some last →
      i ≠ last → (s.bucketAt i).pinned = false → P (s.drop i))
    (ks : List I) {s : EventStore E I K C} (hs : P s)
    (hlast : s.buckets.keys.getLast? = some last) :
    P (s.evictFrom ks) ∧ (s.evictFrom ks).buckets.keys.getLast? = some last := by
  induction ks generalizing s with
  | nil => exact ⟨hs, hlast⟩
  | cons i ks ih =>
    rw [evictFrom]
    split
    · exact ⟨hs, hlast⟩
    · split
      · exact ih hs hlast
      · rename_i hkeep
        push Not at hkeep
        have hne : last ≠ i := fun h => hkeep.2 (h ▸ hlast)
        refine ih (hdrop s i hs hlast (Ne.symm hne) (Bool.eq_false_iff.mpr hkeep.1)) ?_
        rw [drop_keys]
        exact getLast?_filter_ne hlast hne

/-- The eviction stops at the bound, or at buckets that may not go. -/
theorem evictFrom_stops (ks : List I) {s : EventStore E I K C}
    (hlast : s.buckets.keys.getLast? = some last)
    (hseen : ∀ i ∈ s.buckets.keys, i ∈ ks ∨ (s.bucketAt i).pinned = true ∨ i = last) :
    (s.evictFrom ks).buckets.size ≤ (s.evictFrom ks).maxInstruments ∨
      ∀ i ∈ (s.evictFrom ks).buckets.keys,
        ((s.evictFrom ks).bucketAt i).pinned = true ∨ i = last := by
  induction ks generalizing s with
  | nil =>
    right
    intro i hi
    rcases hseen i hi with hmem | h
    · cases hmem
    · exact h
  | cons i ks ih =>
    rw [evictFrom]
    split
    · rename_i hsize
      exact Or.inl hsize
    · split
      · rename_i hkeep
        refine ih hlast fun j hj => ?_
        rcases hseen j hj with hmem | h
        · rcases mem_cons.mp hmem with rfl | hmem
          · right
            rcases hkeep with hpinned | hlast'
            · exact Or.inl hpinned
            · rw [hlast] at hlast'
              exact Or.inr (Option.some.inj hlast').symm
          · exact Or.inl hmem
        · exact Or.inr h
      · rename_i hkeep
        push Not at hkeep
        have hne : last ≠ i := fun h => hkeep.2 (h ▸ hlast)
        have hlast' : (s.drop i).buckets.keys.getLast? = some last := by
          rw [drop_keys]
          exact getLast?_filter_ne hlast hne
        refine ih hlast' fun j hj => ?_
        rw [drop_keys, mem_filter] at hj
        obtain ⟨hj, hji⟩ := hj
        have hji : j ≠ i := by simpa using hji
        rw [bucketAt_drop_ne s hji]
        rcases hseen j hj with hmem | h
        · rcases mem_cons.mp hmem with rfl | hmem
          · exact absurd rfl hji
          · exact Or.inl hmem
        · exact Or.inr h

/-- **At most the bound is resident after an eviction, or the pinned instruments and the last
one.** -/
theorem size_evict (hlast : store.buckets.keys.getLast? = some last) :
    store.evict.buckets.size ≤ max store.evict.maxInstruments (store.evict.pinnedInstruments + 1) := by
  unfold evict
  split
  · rename_i hsize
    exact Nat.le_trans hsize (Nat.le_max_left _ _)
  · rcases evictFrom_stops store.buckets.keys hlast fun i hi => Or.inl hi with h | h
    · exact Nat.le_trans h (Nat.le_max_left _ _)
    · exact Nat.le_trans (size_le_pinned _ h) (Nat.le_max_right _ _)

/-- The last bucket stays as it is in an eviction, which keeps what taking an unpinned bucket
out keeps. -/
theorem evict_induction {P : EventStore E I K C → Prop}
    (hdrop : ∀ (s : EventStore E I K C) i, P s → (s.bucketAt i).pinned = false → P (s.drop i))
    {s : EventStore E I K C} (hs : P s) (hlast : s.buckets.keys.getLast? = some last) :
    P s.evict ∧ s.evict.bucketAt last = s.bucketAt last := by
  unfold evict
  split
  · exact ⟨hs, rfl⟩
  · refine (evictFrom_induction (P := fun t => P t ∧ t.bucketAt last = s.bucketAt last) ?_ _
      ⟨hs, rfl⟩ hlast).1
    rintro t i ⟨hp, hbucket⟩ - hne hpinned
    exact ⟨hdrop t i hp hpinned, (bucketAt_drop_ne t (Ne.symm hne)).trans hbucket⟩

/-! ### The invariant -/

/-- What the store and the database have in common. -/
structure Synced (home : E → I) (durable written : Table E (Event E I K C))
    (s : EventStore E I K C) : Prop where
  /-- The ids map to the buckets that hold their events, and no other id maps. -/
  instrumentOf : ∀ id i, s.instrumentOf.get? id = some i ↔ id ∈ (s.bucketAt i).events.keys
  /-- The keys of a bucket are those of its events. -/
  keys : ∀ i k, k ∈ (s.bucketAt i).keys ↔
    ∃ id e, (s.bucketAt i).events.get? id = some e ∧ e.key = k
  /-- A loaded bucket holds the written and the durable events of its instrument. -/
  loaded : ∀ i, (s.bucketAt i).loaded = true → ∀ id e, (s.bucketAt i).events.get? id = some e ↔
    (written id <|> durable id) = some e ∧ e.instrumentId = i
  /-- A bucket that was only written to holds what was written. -/
  unloaded : ∀ i, (s.bucketAt i).loaded = false → ∀ id e, (s.bucketAt i).events.get? id = some e ↔
    written id = some e ∧ e.instrumentId = i
  /-- What is in memory alone is pinned. -/
  pinned : ∀ id e, written id = some e → (s.bucketAt e.instrumentId).pinned = true
  durableHome : ∀ id e, durable id = some e → e.eventId = id ∧ e.instrumentId = home id
  writtenHome : ∀ id e, written id = some e → e.eventId = id ∧ e.instrumentId = home id

namespace Synced

variable {home : E → I} {durable written : Table E (Event E I K C)} {s : EventStore E I K C}

theorem heldHome (h : Synced home durable written s) {id : E} {e : Event E I K C}
    (he : (written id <|> durable id) = some e) : e.eventId = id ∧ e.instrumentId = home id := by
  cases hw : written id with
  | some e' =>
    rw [hw] at he
    cases he
    exact h.writtenHome id _ hw
  | none =>
    rw [hw] at he
    exact h.durableHome id e he

/-- An event of a bucket stands under its id and belongs to the instrument. -/
theorem residentHome (h : Synced home durable written s) {i : I} {id : E} {e : Event E I K C}
    (he : (s.bucketAt i).events.get? id = some e) :
    e.eventId = id ∧ e.instrumentId = i ∧ home id = i := by
  cases hl : (s.bucketAt i).loaded with
  | true =>
    obtain ⟨hheld, hi⟩ := (h.loaded i hl id e).mp he
    obtain ⟨hid, hhome⟩ := h.heldHome hheld
    exact ⟨hid, hi, hhome.symm.trans hi⟩
  | false =>
    obtain ⟨hw, hi⟩ := (h.unloaded i hl id e).mp he
    obtain ⟨hid, hhome⟩ := h.writtenHome id e hw
    exact ⟨hid, hi, hhome.symm.trans hi⟩

/-- A store with the same buckets and the same ids is as synced. -/
theorem congr {s' : EventStore E I K C} (h : Synced home durable written s)
    (hbuckets : ∀ i, s'.bucketAt i = s.bucketAt i) (hof : s'.instrumentOf = s.instrumentOf) :
    Synced home durable written s' := by
  refine ⟨?_, ?_, ?_, ?_, ?_, h.durableHome, h.writtenHome⟩
  · intro id i
    rw [hof, hbuckets]
    exact h.instrumentOf id i
  · intro i
    rw [hbuckets]
    exact h.keys i
  · intro i
    rw [hbuckets]
    exact h.loaded i
  · intro i
    rw [hbuckets]
    exact h.unloaded i
  · intro id e he
    rw [hbuckets]
    exact h.pinned id e he

/-- **Taking an unpinned bucket out loses no event that is in memory alone.** -/
theorem drop (h : Synced home durable written s) {i : I} (hpinned : (s.bucketAt i).pinned = false) :
    Synced home durable written (s.drop i) := by
  refine ⟨?_, ?_, ?_, ?_, ?_, h.durableHome, h.writtenHome⟩
  · intro id j
    rw [drop_instrumentOf]
    by_cases hj : j = i
    · subst hj
      rw [bucketAt_drop_self]
      have hnone : id ∉ (Bucket.empty : Bucket E I K C).events.keys := not_mem_nil
      have hof := h.instrumentOf id j
      split
      · simp [hnone]
      · rename_i hmem
        simp [hnone, hof, hmem]
    · rw [bucketAt_drop_ne s hj]
      have hof := h.instrumentOf id j
      split
      · rename_i hmem
        have hi := (h.instrumentOf id i).mpr hmem
        constructor
        · intro hnone
          cases hnone
        · intro hmem'
          rw [hof.mpr hmem'] at hi
          exact absurd (Option.some.inj hi) hj
      · exact hof
  · intro j k
    by_cases hj : j = i
    · subst hj
      rw [bucketAt_drop_self]
      constructor
      · intro hk
        cases hk
      · rintro ⟨id, e, he, -⟩
        cases he
    · rw [bucketAt_drop_ne s hj]
      exact h.keys j k
  · intro j hl
    by_cases hj : j = i
    · subst hj
      rw [bucketAt_drop_self] at hl
      cases hl
    · rw [bucketAt_drop_ne s hj] at hl ⊢
      exact h.loaded j hl
  · intro j hl id e
    by_cases hj : j = i
    · subst hj
      rw [bucketAt_drop_self]
      constructor
      · intro he
        cases he
      · rintro ⟨hw, hi⟩
        have hp := h.pinned id e hw
        rw [hi, hpinned] at hp
        cases hp
    · rw [bucketAt_drop_ne s hj] at hl ⊢
      exact h.unloaded j hl id e
  · intro id e hw
    have hp := h.pinned id e hw
    have hne : e.instrumentId ≠ i := by
      intro hi
      rw [hi, hpinned] at hp
      cases hp
    rw [bucketAt_drop_ne s hne]
    exact hp

end Synced

/-! ### Loading -/

variable [DecidableEq K]

/-- The events of a bucket once rows were loaded into it. -/
structure Filled (i : I) (rows : List (Event E I K C)) (s s' : EventStore E I K C) : Prop where
  others : ∀ j, j ≠ i → s'.bucketAt j = s.bucketAt j
  loaded : (s'.bucketAt i).loaded = (s.bucketAt i).loaded
  pinned : (s'.bucketAt i).pinned = (s.bucketAt i).pinned
  events : ∀ id e, (s'.bucketAt i).events.get? id = some e ↔
    (s.bucketAt i).events.get? id = some e ∨
      (s.bucketAt i).events.get? id = none ∧ e ∈ rows ∧ e.eventId = id
  keys : ∀ k, k ∈ (s'.bucketAt i).keys ↔ k ∈ (s.bucketAt i).keys ∨
    ∃ e ∈ rows, (s.bucketAt i).events.get? e.eventId = none ∧ e.key = k
  instrumentOf : ∀ id, s'.instrumentOf.get? id =
    if (s.bucketAt i).events.get? id = none ∧ id ∈ rows.map Event.eventId then some i
    else s.instrumentOf.get? id
  order : s'.maxInstruments = s.maxInstruments

theorem loadEvent_of_mem {event : Event E I K C}
    (h : (store.bucketAt i).events.get? event.eventId ≠ none) :
    store.loadEvent i event = store := by
  rw [loadEvent, if_pos]
  by_contra hkeys
  exact h (get?_eq_none.mpr hkeys)

theorem loadEvent_of_notMem {event : Event E I K C}
    (h : (store.bucketAt i).events.get? event.eventId = none) :
    store.loadEvent i event =
      { store.setBucket i ((store.bucketAt i).register event.eventId event) with
        instrumentOf := store.instrumentOf.set event.eventId i } := by
  rw [loadEvent, if_neg (get?_eq_none.mp h)]

/-- **Loading adds the rows whose ids the bucket does not have.** -/
theorem filled (i : I) (rows : List (Event E I K C)) (hnodup : (rows.map Event.eventId).Nodup)
    (s : EventStore E I K C) :
    Filled i rows s (rows.foldl (fun store event => store.loadEvent i event) s) := by
  induction rows generalizing s with
  | nil => exact ⟨fun _ _ => rfl, rfl, rfl, by simp, by simp, by simp, rfl⟩
  | cons event rows ih =>
    rw [map_cons, nodup_cons] at hnodup
    obtain ⟨hfresh, hnodup⟩ := hnodup
    rw [foldl_cons]
    have hrest := ih hnodup (s.loadEvent i event)
    have hne : ∀ e ∈ rows, e.eventId ≠ event.eventId := fun e he heq =>
      hfresh (heq ▸ mem_map_of_mem he)
    cases hold : (s.bucketAt i).events.get? event.eventId with
    | some old =>
      have hkept : s.loadEvent i event = s :=
        s.loadEvent_of_mem (by rw [hold]; exact Option.some_ne_none old)
      rw [hkept] at hrest ⊢
      refine ⟨hrest.others, hrest.loaded, hrest.pinned, ?_, ?_, ?_, hrest.order⟩
      · intro id e
        rw [hrest.events]
        grind
      · intro k
        rw [hrest.keys]
        grind
      · intro id
        rw [hrest.instrumentOf, map_cons]
        grind
    | none =>
      have hnew := s.loadEvent_of_notMem hold
      have hbucket : (s.loadEvent i event).bucketAt i =
          (s.bucketAt i).register event.eventId event := by
        rw [hnew]
        exact bucketAt_setBucket_self s i _
      have hget : ∀ id, ((s.bucketAt i).register event.eventId event).events.get? id =
          if id = event.eventId then some event else (s.bucketAt i).events.get? id := by
        intro id
        rw [Bucket.register]
        by_cases hid : id = event.eventId
        · rw [hid, get?_set_self, if_pos rfl]
        · rw [get?_set_ne _ _ hid, if_neg hid]
      have hkeys : ∀ k, k ∈ ((s.bucketAt i).register event.eventId event).keys ↔
          k = event.key ∨ k ∈ (s.bucketAt i).keys := by
        intro k
        rw [Bucket.register, Finset.mem_insert]
      have hof : ∀ id, (s.loadEvent i event).instrumentOf.get? id =
          if id = event.eventId then some i else s.instrumentOf.get? id := by
        intro id
        rw [hnew]
        by_cases hid : id = event.eventId
        · simp only [hid, get?_set_self, if_true]
        · simp only [get?_set_ne _ _ hid, hid, if_false]
      refine ⟨?_, ?_, ?_, ?_, ?_, ?_, ?_⟩
      · intro j hj
        rw [hrest.others j hj, hnew]
        exact bucketAt_setBucket_ne s hj _
      · rw [hrest.loaded, hbucket, Bucket.register]
      · rw [hrest.pinned, hbucket, Bucket.register]
      · intro id e
        rw [hrest.events, hbucket, hget]
        grind
      · intro k
        rw [hrest.keys, hbucket, hkeys]
        grind
      · intro id
        rw [hrest.instrumentOf, hbucket, hget, hof, map_cons]
        grind
      · rw [hrest.order, hnew]
        rfl

namespace Synced

variable {home : E → I} {durable written : Table E (Event E I K C)} {s : EventStore E I K C}

/-- **Loading the durable events fills a bucket up to what an unbounded store holds.** -/
theorem fill (h : Synced home durable written s) {i : I} (hl : (s.bucketAt i).loaded = false)
    {rows : List (Event E I K C)} (hnodup : (rows.map Event.eventId).Nodup)
    (hrows : ∀ e, e ∈ rows ↔ durable e.eventId = some e ∧ e.instrumentId = i) :
    Synced home durable written
      (rows.foldl (fun store event => store.loadEvent i event) (s.markLoaded i)) := by
  have hfilled := filled i rows hnodup (s.markLoaded i)
  obtain ⟨hothers, hloaded, hpinned, hevents, hkeys, hof, -⟩ := hfilled
  rw [markLoaded_bucketAt_self] at hloaded hpinned
  simp only [markLoaded_bucketAt_self] at hevents hkeys hof
  have hbucket : ∀ j, j ≠ i →
      (rows.foldl (fun store event => store.loadEvent i event) (s.markLoaded i)).bucketAt j =
        s.bucketAt j := by
    intro j hj
    rw [hothers j hj, markLoaded_bucketAt_ne s hj]
  -- A row that is not in the bucket is one that was not written.
  have hrow : ∀ id e, (s.bucketAt i).events.get? id = none → e ∈ rows → e.eventId = id →
      written id = none := by
    intro id e hnone he hid
    cases hw : written id with
    | none => rfl
    | some e' =>
      obtain ⟨hd, hi⟩ := (hrows e).mp he
      have hhome := (h.durableHome _ _ hd).2
      have hhome' := (h.writtenHome _ _ hw).2
      have hi' : e'.instrumentId = i := by rw [hhome', ← hi, hhome, hid]
      rw [(h.unloaded i hl id e').mpr ⟨hw, hi'⟩] at hnone
      cases hnone
  refine ⟨?_, ?_, ?_, ?_, ?_, h.durableHome, h.writtenHome⟩
  · intro id j
    rw [hof]
    by_cases hj : j = i
    · subst hj
      rw [← isSome_get?, Option.isSome_iff_exists]
      simp only [hevents]
      have hold := h.instrumentOf id j
      rw [← isSome_get?, Option.isSome_iff_exists] at hold
      split
      · rename_i hnew
        obtain ⟨hnone, hmem⟩ := hnew
        obtain ⟨e, he, hid⟩ := mem_map.mp hmem
        exact ⟨fun _ => ⟨e, Or.inr ⟨hnone, he, hid⟩⟩, fun _ => rfl⟩
      · rename_i hold'
        refine hold.trans ⟨?_, ?_⟩
        · rintro ⟨e, he⟩
          exact ⟨e, Or.inl he⟩
        rintro ⟨e, he | ⟨hnone, he, hid⟩⟩
        · exact ⟨e, he⟩
        · exact absurd ⟨hnone, hid ▸ mem_map_of_mem he⟩ hold'
    · rw [hbucket j hj]
      have hold := h.instrumentOf id j
      split
      · rename_i hnew
        obtain ⟨-, hmem⟩ := hnew
        obtain ⟨e, he, hid⟩ := mem_map.mp hmem
        obtain ⟨hd, hi⟩ := (hrows e).mp he
        have hhome : home id = i := by rw [← hid, ← (h.durableHome _ _ hd).2, hi]
        constructor
        · intro hij
          exact absurd (Option.some.inj hij).symm hj
        · intro hmem'
          obtain ⟨e', he'⟩ := Option.isSome_iff_exists.mp (isSome_get?.mpr hmem')
          exact absurd ((h.residentHome he').2.2.symm.trans hhome) hj
      · exact hold
  · intro j k
    by_cases hj : j = i
    · subst hj
      rw [hkeys, h.keys j k]
      simp only [hevents]
      constructor
      · rintro (⟨id, e, he, hk⟩ | ⟨e, he, hnone, hk⟩)
        · exact ⟨id, e, Or.inl he, hk⟩
        · exact ⟨e.eventId, e, Or.inr ⟨hnone, he, rfl⟩, hk⟩
      · rintro ⟨id, e, he | ⟨hnone, he, rfl⟩, hk⟩
        · exact Or.inl ⟨id, e, he, hk⟩
        · exact Or.inr ⟨e, he, hnone, hk⟩
    · rw [hbucket j hj]
      exact h.keys j k
  · intro j hl' id e
    by_cases hj : j = i
    · subst hj
      rw [hevents, h.unloaded j hl id e]
      constructor
      · rintro (⟨hw, hi⟩ | ⟨hnone, he, hid⟩)
        · exact ⟨by rw [hw]; rfl, hi⟩
        · obtain ⟨hd, hi⟩ := (hrows e).mp he
          rw [hid] at hd
          exact ⟨by rw [hrow id e hnone he hid, hd]; rfl, hi⟩
      · rintro ⟨hheld, hi⟩
        cases hw : written id with
        | some e' =>
          rw [hw] at hheld
          cases hheld
          exact Or.inl ⟨rfl, hi⟩
        | none =>
          rw [hw] at hheld
          have hd : durable id = some e := hheld
          have hid := (h.durableHome id e hd).1
          refine Or.inr ⟨?_, (hrows e).mpr ⟨hid ▸ hd, hi⟩, hid⟩
          cases hget : (s.bucketAt j).events.get? id with
          | none => rfl
          | some e' =>
            rw [((h.unloaded j hl id e').mp hget).1] at hw
            cases hw
    · rw [hbucket j hj] at hl' ⊢
      exact h.loaded j hl' id e
  · intro j hl' id e
    by_cases hj : j = i
    · subst hj
      rw [hloaded] at hl'
      cases hl'
    · rw [hbucket j hj] at hl' ⊢
      exact h.unloaded j hl' id e
  · intro id e hw
    by_cases hj : e.instrumentId = i
    · rw [hj, hpinned, ← hj]
      exact h.pinned id e hw
    · rw [hbucket _ hj]
      exact h.pinned id e hw

/-- What writing an event to a bucket does to the store. -/
structure Wrote (event : Event E I K C) (s s' : EventStore E I K C) : Prop where
  others : ∀ j, j ≠ event.instrumentId → s'.bucketAt j = s.bucketAt j
  loaded : (s'.bucketAt event.instrumentId).loaded = (s.bucketAt event.instrumentId).loaded
  pinned : (s.bucketAt event.instrumentId).pinned = true →
    (s'.bucketAt event.instrumentId).pinned = true
  events : (s'.bucketAt event.instrumentId).events =
    (s.bucketAt event.instrumentId).events.set event.eventId event
  keys : (s'.bucketAt event.instrumentId).keys =
    insert event.key (s.bucketAt event.instrumentId).keys
  instrumentOf : s'.instrumentOf = s.instrumentOf.set event.eventId event.instrumentId

/-- The event in the bucket under an id, if there is one with another key, leaves a key behind that
another event has. -/
def KeepsKeys (bucket : Bucket E I K C) (event : Event E I K C) : Prop :=
  ∀ old, bucket.events.get? event.eventId = some old → old.key ≠ event.key →
    ∃ id other, bucket.events.get? id = some other ∧ id ≠ event.eventId ∧ other.key = old.key

variable {event : Event E I K C} {s' : EventStore E I K C}

section

variable (h : Synced home durable written s)
include h

/-- **Writing an event keeps the invariant, in the database or in memory alone.** -/
theorem wrote (hw : Wrote event s s') (hhome : event.instrumentId = home event.eventId)
    (hkeep : KeepsKeys (s.bucketAt event.instrumentId) event)
    {durable' written' : Table E (Event E I K C)}
    (hnew : (written' event.eventId <|> durable' event.eventId) = some event)
    (hdur : ∀ id, id ≠ event.eventId → durable' id = durable id)
    (hwri : ∀ id, id ≠ event.eventId → written' id = written id)
    (hdself : ∀ e, durable' event.eventId = some e → e = event ∨ durable event.eventId = some e)
    (hwself : ∀ e, written' event.eventId = some e → e = event)
    (hunloaded : (s.bucketAt event.instrumentId).loaded = false →
      written' event.eventId = some event)
    (hpin : written' event.eventId = some event → (s'.bucketAt event.instrumentId).pinned = true) :
    Synced home durable' written' s' := by
  obtain ⟨hothers, hloaded, hpinned, hevents, hkeys, hof⟩ := hw
  have hget : ∀ id, (s'.bucketAt event.instrumentId).events.get? id =
      if id = event.eventId then some event
      else (s.bucketAt event.instrumentId).events.get? id := by
    intro id
    rw [hevents]
    by_cases hid : id = event.eventId
    · rw [hid, get?_set_self, if_pos rfl]
    · rw [get?_set_ne _ _ hid, if_neg hid]
  refine ⟨?_, ?_, ?_, ?_, ?_, ?_, ?_⟩
  · intro id j
    rw [hof]
    by_cases hid : id = event.eventId
    · subst hid
      rw [get?_set_self]
      by_cases hj : j = event.instrumentId
      · subst hj
        rw [hevents]
        simp [mem_keys_set]
      · rw [hothers j hj]
        constructor
        · intro h'
          exact absurd (Option.some.inj h').symm hj
        · intro hmem
          obtain ⟨e, he⟩ := Option.isSome_iff_exists.mp (isSome_get?.mpr hmem)
          exact absurd ((h.residentHome he).2.2.symm.trans hhome.symm) hj
    · rw [get?_set_ne _ _ hid, h.instrumentOf]
      by_cases hj : j = event.instrumentId
      · subst hj
        rw [hevents, mem_keys_set]
        simp [hid]
      · rw [hothers j hj]
  · intro j k
    by_cases hj : j = event.instrumentId
    · subst hj
      rw [hkeys, Finset.mem_insert, h.keys]
      simp only [hget]
      constructor
      · rintro (rfl | ⟨id, e, he, hk⟩)
        · exact ⟨event.eventId, event, if_pos rfl, rfl⟩
        · by_cases hid : id = event.eventId
          · subst hid
            by_cases hkey : e.key = event.key
            · exact ⟨event.eventId, event, if_pos rfl, hkey.symm.trans hk⟩
            · obtain ⟨id', other, hother, hne, hk'⟩ := hkeep e he hkey
              exact ⟨id', other, (if_neg hne).trans hother, hk'.trans hk⟩
          · exact ⟨id, e, (if_neg hid).trans he, hk⟩
      · rintro ⟨id, e, he, hk⟩
        by_cases hid : id = event.eventId
        · rw [if_pos hid] at he
          cases he
          exact Or.inl hk.symm
        · rw [if_neg hid] at he
          exact Or.inr ⟨id, e, he, hk⟩
    · rw [hothers j hj]
      exact h.keys j k
  · intro j hl id e
    by_cases hj : j = event.instrumentId
    · subst hj
      rw [hloaded] at hl
      rw [hget]
      by_cases hid : id = event.eventId
      · subst hid
        rw [if_pos rfl, hnew]
        constructor
        · intro he
          cases he
          exact ⟨rfl, rfl⟩
        · rintro ⟨he, -⟩
          exact he
      · rw [if_neg hid, h.loaded _ hl, hdur id hid, hwri id hid]
    · rw [hothers j hj] at hl ⊢
      rw [h.loaded j hl]
      by_cases hid : id = event.eventId
      · subst hid
        rw [hnew]
        constructor
        · rintro ⟨he, hi⟩
          exact absurd (hi.symm.trans ((h.heldHome he).2.trans hhome.symm)) hj
        · rintro ⟨he, hi⟩
          cases he
          exact absurd hi.symm hj
      · rw [hdur id hid, hwri id hid]
  · intro j hl id e
    by_cases hj : j = event.instrumentId
    · subst hj
      rw [hloaded] at hl
      rw [hget]
      by_cases hid : id = event.eventId
      · subst hid
        rw [if_pos rfl, hunloaded hl]
        constructor
        · intro he
          cases he
          exact ⟨rfl, rfl⟩
        · rintro ⟨he, -⟩
          exact he
      · rw [if_neg hid, h.unloaded _ hl, hwri id hid]
    · rw [hothers j hj] at hl ⊢
      rw [h.unloaded j hl]
      by_cases hid : id = event.eventId
      · subst hid
        constructor
        · rintro ⟨he, hi⟩
          exact absurd (hi.symm.trans ((h.writtenHome _ e he).2.trans hhome.symm)) hj
        · rintro ⟨he, hi⟩
          rw [hwself e he] at hi
          exact absurd hi.symm hj
      · rw [hwri id hid]
  · intro id e he
    by_cases hid : id = event.eventId
    · subst hid
      have heq := hwself e he
      subst heq
      exact hpin he
    · rw [hwri id hid] at he
      have hp := h.pinned id e he
      by_cases hj : e.instrumentId = event.instrumentId
      · rw [hj] at hp ⊢
        exact hpinned hp
      · rw [hothers _ hj]
        exact hp
  · intro id e he
    by_cases hid : id = event.eventId
    · subst hid
      rcases hdself e he with rfl | hd
      · exact ⟨rfl, hhome⟩
      · exact h.durableHome _ e hd
    · rw [hdur id hid] at he
      exact h.durableHome id e he
  · intro id e he
    by_cases hid : id = event.eventId
    · subst hid
      rw [hwself e he]
      exact ⟨rfl, hhome⟩
    · rw [hwri id hid] at he
      exact h.writtenHome id e he

/-- An event written to the store alone. -/
theorem wroteAlone (hw : Wrote event s s') (hhome : event.instrumentId = home event.eventId)
    (hkeep : KeepsKeys (s.bucketAt event.instrumentId) event)
    (hpin : (s'.bucketAt event.instrumentId).pinned = true) :
    Synced home durable (written.put event.eventId event) s' := by
  refine h.wrote hw hhome hkeep ?_ (fun _ _ => rfl) ?_ ?_ ?_ ?_ fun _ => hpin
  · rw [Table.put_self]
    rfl
  · intro id hid
    exact Table.put_ne _ _ hid
  · intro e he
    exact Or.inr he
  · intro e he
    rw [Table.put_self] at he
    exact (Option.some.inj he).symm
  · intro _
    exact Table.put_self _ _ _

/-- An event written to a loaded bucket and to the database. -/
theorem wroteDurable (hw : Wrote event s s') (hhome : event.instrumentId = home event.eventId)
    (hkeep : KeepsKeys (s.bucketAt event.instrumentId) event)
    (hloaded : (s.bucketAt event.instrumentId).loaded = true) :
    Synced home (durable.put event.eventId event) (update written event.eventId none)
      s' := by
  refine h.wrote hw hhome hkeep ?_ ?_ ?_ ?_ ?_ ?_ ?_
  · rw [update_self, Table.put_self]
    rfl
  · intro id hid
    exact Table.put_ne _ _ hid
  · intro id hid
    exact update_of_ne hid _ _
  · intro e he
    rw [Table.put_self] at he
    exact Or.inl (Option.some.inj he).symm
  · intro e he
    rw [update_self] at he
    cases he
  · intro hl
    rw [hloaded] at hl
    cases hl
  · intro he
    rw [update_self] at he
    cases he

/-- **Deleting an event keeps the invariant, unless another event has its key or it stays durable
behind a loaded bucket.** -/
theorem discarded {i : I} {id : E} (hevent : (s.bucketAt i).events.get? id = some event)
    (hsole : ∀ id' e, (s.bucketAt i).events.get? id' = some e → e.key = event.key → id' = id)
    (hgone : (s.bucketAt i).loaded = true → durable id = none)
    (hself : s'.bucketAt i = (s.bucketAt i).discard id event)
    (hothers : ∀ j, j ≠ i → s'.bucketAt j = s.bucketAt j)
    (hof : s'.instrumentOf = s.instrumentOf.pop id) :
    Synced home durable (update written id none) s' := by
  have hget : ∀ id', (s'.bucketAt i).events.get? id' =
      if id' = id then none else (s.bucketAt i).events.get? id' := by
    intro id'
    rw [hself, Bucket.discard, get?_pop]
  have hwri : ∀ id', id' ≠ id → update written id none id' = written id' :=
    fun id' hid => update_of_ne hid _ _
  have hhome := (h.residentHome hevent).2.2
  refine ⟨?_, ?_, ?_, ?_, ?_, h.durableHome, ?_⟩
  · intro id' j
    rw [hof, get?_pop]
    by_cases hj : j = i
    · subst hj
      rw [← isSome_get?, hget]
      by_cases hid : id' = id
      · simp [hid]
      · rw [if_neg hid, if_neg hid, h.instrumentOf, isSome_get?]
    · rw [hothers j hj]
      by_cases hid : id' = id
      · subst hid
        rw [if_pos rfl]
        constructor
        · intro hnone
          cases hnone
        · intro hmem
          obtain ⟨e, he⟩ := Option.isSome_iff_exists.mp (isSome_get?.mpr hmem)
          exact absurd ((h.residentHome he).2.2.symm.trans hhome) hj
      · rw [if_neg hid]
        exact h.instrumentOf id' j
  · intro j k
    by_cases hj : j = i
    · subst hj
      simp only [hget]
      rw [hself, Bucket.discard, Finset.mem_erase, h.keys]
      constructor
      · rintro ⟨hk, id', e, he, rfl⟩
        have hid : id' ≠ id := by
          rintro rfl
          rw [hevent] at he
          cases he
          exact hk rfl
        exact ⟨id', e, by rw [if_neg hid]; exact he, rfl⟩
      · rintro ⟨id', e, he, rfl⟩
        by_cases hid : id' = id
        · rw [if_pos hid] at he
          cases he
        · rw [if_neg hid] at he
          exact ⟨fun hk => hid (hsole id' e he hk), id', e, he, rfl⟩
    · rw [hothers j hj]
      exact h.keys j k
  · intro j hl id' e
    by_cases hj : j = i
    · subst hj
      have hl' : (s.bucketAt j).loaded = true := by
        rw [hself] at hl
        exact hl
      rw [hget]
      by_cases hid : id' = id
      · subst hid
        rw [if_pos rfl, update_self, hgone hl']
        constructor
        · intro he
          cases he
        · rintro ⟨he, -⟩
          cases he
      · rw [if_neg hid, hwri id' hid]
        exact h.loaded j hl' id' e
    · rw [hothers j hj] at hl ⊢
      rw [h.loaded j hl]
      by_cases hid : id' = id
      · subst hid
        have hother : ∀ {e : Event E I K C}, e.instrumentId = home id' → ¬ e.instrumentId = j :=
          fun he hi => hj (hi.symm.trans (he.trans hhome))
        constructor
        · rintro ⟨he, hi⟩
          exact absurd hi (hother (h.heldHome he).2)
        · rintro ⟨he, hi⟩
          rw [update_self] at he
          exact absurd hi (hother (h.durableHome _ e he).2)
      · rw [hwri id' hid]
  · intro j hl id' e
    by_cases hj : j = i
    · subst hj
      have hl' : (s.bucketAt j).loaded = false := by
        rw [hself] at hl
        exact hl
      rw [hget]
      by_cases hid : id' = id
      · subst hid
        rw [if_pos rfl, update_self]
        constructor
        · intro he
          cases he
        · rintro ⟨he, -⟩
          cases he
      · rw [if_neg hid, hwri id' hid]
        exact h.unloaded j hl' id' e
    · rw [hothers j hj] at hl ⊢
      rw [h.unloaded j hl]
      by_cases hid : id' = id
      · subst hid
        rw [update_self]
        constructor
        · rintro ⟨he, hi⟩
          exact absurd (hi.symm.trans ((h.writtenHome _ e he).2.trans hhome)) hj
        · rintro ⟨he, -⟩
          cases he
      · rw [hwri id' hid]
  · intro id' e he
    have hid : id' ≠ id := by
      rintro rfl
      rw [update_self] at he
      cases he
    rw [hwri id' hid] at he
    have hp := h.pinned id' e he
    by_cases hj : e.instrumentId = i
    · rw [hj] at hp ⊢
      rw [hself]
      exact hp
    · rw [hothers _ hj]
      exact hp
  · intro id' e he
    have hid : id' ≠ id := by
      rintro rfl
      rw [update_self] at he
      cases he
    rw [hwri id' hid] at he
    exact h.writtenHome id' e he

end

end Synced

/-! ### Access -/

theorem keys_loadEvents (rows : List (Event E I K C)) {s : EventStore E I K C}
    (h : i ∈ s.buckets.keys) :
    (rows.foldl (fun store event => store.loadEvent i event) s).buckets.keys = s.buckets.keys := by
  induction rows generalizing s with
  | nil => rfl
  | cons event rows ih =>
    have hkeys : (s.loadEvent i event).buckets.keys = s.buckets.keys := by
      unfold loadEvent
      split
      · rfl
      · exact keys_setBucket s h _
    rw [foldl_cons, ih (hkeys ▸ h), hkeys]

/-- At most the bound is resident, or the pinned instruments and one more. -/
def Bounded (s : EventStore E I K C) : Prop :=
  s.buckets.size ≤ max s.maxInstruments (s.pinnedInstruments + 1)

/-- **An access whose load succeeds returns, with a loaded bucket that shows what an unbounded store
holds, and leaves no more than the bound allows.** -/
theorem bucket_spec {home : E → I} {w : World E I K C} (h : Synced home w.durable w.written w.store)
    {answer : Loaded E I K C} (hrows : w.IsRows i answer)
    (hload : (w.store.bucketAt i).loaded = true ∨ answer ≠ .raised) :
    ∃ s, w.store.bucket i answer = (true, s) ∧ Synced home w.durable w.written s ∧
      (s.bucketAt i).loaded = true ∧ Bounded s ∧ s.maxInstruments = w.store.maxInstruments := by
  have hsynced : Synced home w.durable w.written (w.store.touch i) :=
    h.congr (bucketAt_touch w.store i) rfl
  have hlast := getLast?_touch w.store i
  -- Every store before the eviction keeps what is needed of the one after it.
  have hevict : ∀ s : EventStore E I K C, Synced home w.durable w.written s →
      s.maxInstruments = w.store.maxInstruments → (s.bucketAt i).loaded = true →
      s.buckets.keys.getLast? = some i →
      Synced home w.durable w.written s.evict ∧ (s.evict.bucketAt i).loaded = true ∧
        Bounded s.evict ∧ s.evict.maxInstruments = w.store.maxInstruments := by
    intro s hs hmax hloaded hlast
    obtain ⟨⟨hs', hmax'⟩, hbucket⟩ := evict_induction
      (P := fun s => Synced home w.durable w.written s ∧ s.maxInstruments = w.store.maxInstruments)
      (fun t j ht hpinned => ⟨ht.1.drop hpinned, ht.2⟩) ⟨hs, hmax⟩ hlast
    exact ⟨hs', by rw [hbucket]; exact hloaded, size_evict s hlast, hmax'⟩
  cases hl : (w.store.bucketAt i).loaded with
  | true =>
    refine ⟨(w.store.touch i).evict, ?_, hevict _ hsynced rfl ?_ hlast⟩
    · simp only [bucket, bucketAt_touch, hl, if_true]
    · rw [bucketAt_touch, hl]
  | false =>
    rcases hload with hloaded | hanswer
    · rw [hl] at hloaded
      cases hloaded
    · cases answer with
      | raised => exact absurd rfl hanswer
      | rows rows =>
        obtain ⟨hnodup, hmem⟩ := hrows
        have hl' : ((w.store.touch i).bucketAt i).loaded = false := by
          rw [bucketAt_touch, hl]
        have hfilled := filled i rows hnodup ((w.store.touch i).markLoaded i)
        have hmemkeys : i ∈ (w.store.touch i).buckets.keys := mem_of_getLast? hlast
        have hmark : ((w.store.touch i).markLoaded i).buckets.keys =
            (w.store.touch i).buckets.keys := keys_setBucket _ hmemkeys _
        have hkeys := keys_loadEvents rows (hmark ▸ hmemkeys)
        refine ⟨(rows.foldl (fun store event => store.loadEvent i event)
          ((w.store.touch i).markLoaded i)).evict, ?_, hevict _ (hsynced.fill hl' hnodup hmem) ?_ ?_ ?_⟩
        · simp only [bucket, bucketAt_touch, hl]
          rfl
        · exact hfilled.order
        · rw [hfilled.loaded, markLoaded_bucketAt_self]
        · rw [hkeys, hmark]
          exact hlast

end EventStore

/-! ### Runs -/

namespace World

open EventStore

variable {home : E → I} {w : World E I K C} [DecidableEq E]

variable {i : I}

/-- A loaded bucket lists what an unbounded store holds. -/
theorem mem_values {s : EventStore E I K C} (h : Synced home w.durable w.written s)
    (hl : (s.bucketAt i).loaded = true) (e : Event E I K C) :
    e ∈ (s.bucketAt i).events.values ↔ w.Holds i e := by
  rw [Dict.values, mem_map]
  constructor
  · rintro ⟨⟨id, e'⟩, hmem, rfl⟩
    have hget := get?_of_mem hmem
    obtain ⟨hheld, hi⟩ := (h.loaded i hl id e').mp hget
    have hid := (h.heldHome hheld).1
    exact ⟨hid.symm ▸ hheld, hi⟩
  · rintro ⟨hheld, hi⟩
    have hget := (h.loaded i hl e.eventId e).mpr ⟨hheld, hi⟩
    exact ⟨(e.eventId, e), mem_items.mpr hget, rfl⟩

theorem nodup_values {s : EventStore E I K C} (h : Synced home w.durable w.written s) (i : I) :
    ((s.bucketAt i).events.values.map Event.eventId).Nodup := by
  have heq : (s.bucketAt i).events.values.map Event.eventId = (s.bucketAt i).events.keys := by
    rw [Dict.values, Dict.keys, map_map]
    refine map_congr_left fun item hitem => ?_
    exact (h.residentHome (get?_of_mem (k := item.1) (v := item.2) hitem)).1
  rw [heq]
  exact (s.bucketAt i).events.nodup_keys

/-- The keys of a loaded bucket are those of the events an unbounded store holds. -/
theorem mem_keys {s : EventStore E I K C} (h : Synced home w.durable w.written s)
    (hl : (s.bucketAt i).loaded = true) (k : K) :
    k ∈ (s.bucketAt i).keys ↔ ∃ e, w.Holds i e ∧ e.key = k := by
  rw [h.keys]
  constructor
  · rintro ⟨id, e, he, hk⟩
    obtain ⟨hheld, hi⟩ := (h.loaded i hl id e).mp he
    exact ⟨e, ⟨(h.heldHome hheld).1.symm ▸ hheld, hi⟩, hk⟩
  · rintro ⟨e, ⟨hheld, hi⟩, hk⟩
    exact ⟨e.eventId, e, (h.loaded i hl e.eventId e).mpr ⟨hheld, hi⟩, hk⟩

variable [DecidableEq K]

/-- The steps that keep the store transparent: the load succeeds where one is needed, what is
written over leaves no key behind, and what is deleted takes no other event's key along and does
not stay durable behind a loaded bucket. -/
def Careful (w : World E I K C) (l : Op E I K C × Result E I K C) : Prop :=
  match l.1 with
  | .forInstrument i answer => (w.store.bucketAt i).loaded = true ∨ answer ≠ .raised
  | .add event _ answer =>
    ((w.store.bucketAt event.instrumentId).loaded = true ∨ answer ≠ .raised) ∧
      ∀ old, w.Holds event.instrumentId old → old.eventId = event.eventId → old.key ≠ event.key →
        ∃ other, w.Holds event.instrumentId other ∧ other.eventId ≠ event.eventId ∧
          other.key = old.key
  | .setItem event => Synced.KeepsKeys (w.store.bucketAt event.instrumentId) event
  | .delItem id => ∀ i event, w.store.instrumentOf.get? id = some i →
      (w.store.bucketAt i).events.get? id = some event →
      (∀ id' e, (w.store.bucketAt i).events.get? id' = some e → e.key = event.key → id' = id) ∧
        ((w.store.bucketAt i).loaded = true → w.durable id = none)
  | .getItem _ => True

/-- What a step shows is what an unbounded store would show, and after an access no more buckets
are resident than the bound allows. -/
def Transparent (w : World E I K C) (l : Op E I K C × Result E I K C) : Prop :=
  match l.1 with
  | .forInstrument i answer =>
    (w.store.bucket i answer).1 = true ∧ Bounded (w.store.bucket i answer).2 ∧
      ∃ events, l.2 = .events events ∧ (events.map Event.eventId).Nodup ∧
        ∀ e, e ∈ events ↔ w.Holds i e
  | .add event _ answer =>
    (w.store.bucket event.instrumentId answer).1 = true ∧
      Bounded (w.store.bucket event.instrumentId answer).2 ∧
      ∃ new, l.2 = .added new ∧
        (new = false ↔ ∃ e, w.Holds event.instrumentId e ∧ e.key = event.key)
  | .getItem id => ∀ event, l.2 = .found event ↔ w.store.getItem id = some event
  | .setItem _ => True
  | .delItem _ => True

/-- What the store promises in every state: no event that is in memory alone is lost, and the ids
map to the buckets that hold their events. -/
structure Promises (home : E → I) (maxInstruments : Int) (w : World E I K C) : Prop where
  kept : ∀ id e, w.written id = some e → w.store.getItem id = some e
  resident : ∀ id i, w.store.instrumentOf.get? id = some i ↔
    ∃ b, w.store.buckets.get? i = some b ∧ id ∈ b.events.keys
  bound : w.store.maxInstruments = (max 1 maxInstruments).toNat
  home : ∀ i b id e, w.store.buckets.get? i = some b → b.events.get? id = some e →
    e.eventId = id ∧ e.instrumentId = i ∧ home id = i

/-- The invariant of the runs. -/
structure Inv (home : E → I) (maxInstruments : Int) (w : World E I K C) : Prop where
  synced : Synced home w.durable w.written w.store
  bound : w.store.maxInstruments = (max 1 maxInstruments).toNat

variable {maxInstruments : Int}

theorem forInstrument_step (h : Inv home maxInstruments w) {answer : Loaded E I K C}
    (hrows : w.IsRows i answer) (hload : (w.store.bucketAt i).loaded = true ∨ answer ≠ .raised) :
    Inv home maxInstruments (w.exec (.forInstrument i answer)).2 ∧
      Transparent w (.forInstrument i answer, (w.exec (.forInstrument i answer)).1) := by
  obtain ⟨s, hbucket, hsynced, hloaded, hbounded, hmax⟩ := bucket_spec h.synced hrows hload
  have hexec : w.exec (.forInstrument i answer) =
      (.events (s.bucketAt i).events.values, { w with store := s }) := by
    simp only [exec, forInstrument, hbucket]
  rw [hexec]
  refine ⟨⟨hsynced, hmax.trans h.bound⟩, ?_⟩
  show (w.store.bucket i answer).1 = true ∧ Bounded (w.store.bucket i answer).2 ∧ _
  rw [hbucket]
  exact ⟨rfl, hbounded, _, rfl, nodup_values hsynced i, mem_values hsynced hloaded⟩

variable {event : Event E I K C}

/-- Putting a bucket with the event registered in the place of the old one writes the event. -/
theorem wrote_setBucket {s t : EventStore E I K C} {b : Bucket E I K C}
    (hbuckets : t.buckets = s.buckets.set event.instrumentId b)
    (hof : t.instrumentOf = s.instrumentOf.set event.eventId event.instrumentId)
    (hloaded : b.loaded = (s.bucketAt event.instrumentId).loaded)
    (hpinned : (s.bucketAt event.instrumentId).pinned = true → b.pinned = true)
    (hevents : b.events = (s.bucketAt event.instrumentId).events.set event.eventId event)
    (hkeys : b.keys = insert event.key (s.bucketAt event.instrumentId).keys) :
    Synced.Wrote event s t := by
  have hself : t.bucketAt event.instrumentId = b := by
    rw [bucketAt, hbuckets, get?_set_self, Option.getD_some]
  refine ⟨?_, ?_, ?_, ?_, ?_, hof⟩
  · intro j hj
    rw [bucketAt, hbuckets, get?_set_ne _ _ hj, bucketAt]
  · rw [hself, hloaded]
  · rw [hself]
    exact hpinned
  · rw [hself, hevents]
  · rw [hself, hkeys]

section

variable (h : Inv home maxInstruments w)
include h

theorem setItem_step (hhome : event.instrumentId = home event.eventId)
    (hkeep : Synced.KeepsKeys (w.store.bucketAt event.instrumentId) event) :
    Inv home maxInstruments (w.exec (.setItem event)).2 := by
  have hexec : (w.exec (.setItem event)).2 =
      ⟨w.store.setItem event, w.durable, w.written.put event.eventId event⟩ := rfl
  have hwrote : Synced.Wrote event w.store (w.store.setItem event) :=
    wrote_setBucket (b := { (w.store.bucketAt event.instrumentId).register event.eventId event with
      pinned := true }) rfl rfl rfl (fun _ => rfl) rfl rfl
  rw [hexec]
  refine ⟨h.synced.wroteAlone hwrote hhome hkeep ?_, h.bound⟩
  exact congrArg Bucket.pinned (bucketAt_setBucket_self w.store event.instrumentId _)

theorem add_step {durable : Bool} {answer : Loaded E I K C}
    (hhome : event.instrumentId = home event.eventId) (hrows : w.IsRows event.instrumentId answer)
    (hcare : Careful w (.add event durable answer, .done)) :
    Inv home maxInstruments (w.exec (.add event durable answer)).2 ∧
      Transparent w (.add event durable answer, (w.exec (.add event durable answer)).1) := by
  obtain ⟨hload, hkeys⟩ := hcare
  obtain ⟨s, hbucket, hsynced, hloaded, hbounded, hmax⟩ := bucket_spec h.synced hrows hload
  have hmem := mem_keys hsynced hloaded event.key
  by_cases hkey : event.key ∈ (s.bucketAt event.instrumentId).keys
  · have hadd : w.store.add event durable answer = (.added false, s) := by
      simp only [add, hbucket, hkey, if_true]
    have hexec : w.exec (.add event durable answer) = (.added false, { w with store := s }) := by
      simp only [exec, hadd]
    rw [hexec]
    refine ⟨⟨hsynced, hmax.trans h.bound⟩, ?_⟩
    show (w.store.bucket event.instrumentId answer).1 = true ∧
      Bounded (w.store.bucket event.instrumentId answer).2 ∧ _
    rw [hbucket]
    exact ⟨rfl, hbounded, false, rfl, fun _ => hmem.mp hkey, fun _ => rfl⟩
  · obtain ⟨t, hadd, hwrote, hpinned, hmax'⟩ : ∃ t, w.store.add event durable answer =
        (.added true, t) ∧ Synced.Wrote event s t ∧
        (durable = false → (t.bucketAt event.instrumentId).pinned = true) ∧
        t.maxInstruments = s.maxInstruments := by
      let b := { (s.bucketAt event.instrumentId).register event.eventId event with
        pinned := (s.bucketAt event.instrumentId).pinned || !durable }
      let t := { s.setBucket event.instrumentId b with
        instrumentOf := s.instrumentOf.set event.eventId event.instrumentId
        applied := s.applied + 1 }
      have hself : t.bucketAt event.instrumentId = b := bucketAt_setBucket_self s _ b
      refine ⟨t, ?_, wrote_setBucket (b := b) rfl rfl rfl ?_ rfl rfl, ?_, rfl⟩
      · simp only [add, hbucket, hkey, if_false]
        rfl
      · intro hp
        show ((s.bucketAt event.instrumentId).pinned || !durable) = true
        rw [hp, Bool.true_or]
      · intro hd
        rw [hself]
        show ((s.bucketAt event.instrumentId).pinned || !durable) = true
        rw [hd, Bool.not_false, Bool.or_true]
    have hkeep : Synced.KeepsKeys (s.bucketAt event.instrumentId) event := by
      intro old hold hne
      have hmemold : w.Holds event.instrumentId old := by
        obtain ⟨hheld, hi⟩ := (hsynced.loaded _ hloaded _ old).mp hold
        exact ⟨(hsynced.heldHome hheld).1.symm ▸ hheld, hi⟩
      obtain ⟨other, ⟨hheld, hi⟩, hother, hk⟩ :=
        hkeys old hmemold (hsynced.residentHome hold).1 hne
      exact ⟨other.eventId, other, (hsynced.loaded _ hloaded _ other).mpr ⟨hheld, hi⟩, hother, hk⟩
    have htransparent : Transparent w (.add event durable answer, .added true) := by
      show (w.store.bucket event.instrumentId answer).1 = true ∧
        Bounded (w.store.bucket event.instrumentId answer).2 ∧ _
      rw [hbucket]
      refine ⟨rfl, hbounded, true, rfl, ?_, ?_⟩
      · intro hnew
        cases hnew
      · intro hex
        exact absurd (hmem.mpr hex) hkey
    cases durable with
    | true =>
      have hexec : w.exec (.add event true answer) = (.added true,
          ⟨t, w.durable.put event.eventId event, update w.written event.eventId none⟩) := by
        simp only [exec, hadd]
      rw [hexec]
      exact ⟨⟨hsynced.wroteDurable hwrote hhome hkeep hloaded, hmax'.trans (hmax.trans h.bound)⟩,
        htransparent⟩
    | false =>
      have hexec : w.exec (.add event false answer) = (.added true,
          ⟨t, w.durable, w.written.put event.eventId event⟩) := by
        simp only [exec, hadd]
      rw [hexec]
      exact ⟨⟨hsynced.wroteAlone hwrote hhome hkeep (hpinned rfl),
        hmax'.trans (hmax.trans h.bound)⟩, htransparent⟩

theorem delItem_step {id : E} (hcare : Careful w (.delItem id, .done)) :
    Inv home maxInstruments (w.exec (.delItem id)).2 := by
  cases hof : w.store.instrumentOf.get? id with
  | none =>
    have hexec : (w.exec (.delItem id)).2 = w := by
      simp only [exec, delItem, hof]
    rw [hexec]
    exact h
  | some i =>
    have hmem := (h.synced.instrumentOf id i).mp hof
    obtain ⟨event, hevent⟩ := Option.isSome_iff_exists.mp (isSome_get?.mpr hmem)
    obtain ⟨hsole, hgone⟩ := hcare i event hof hevent
    have hexec : (w.exec (.delItem id)).2 =
        ⟨{ w.store with instrumentOf := w.store.instrumentOf.pop id }.setBucket i
          ((w.store.bucketAt i).discard id event), w.durable,
          update w.written id none⟩ := by
      simp only [exec, delItem, hof, hevent]
    rw [hexec]
    refine ⟨h.synced.discarded hevent hsole hgone (bucketAt_setBucket_self _ i _) ?_ rfl, h.bound⟩
    intro j hj
    exact bucketAt_setBucket_ne _ hj _

/-- **A careful step keeps the invariant and shows what an unbounded store would.** -/
theorem step_inv {l : Op E I K C × Result E I K C}
    {w' : World E I K C} (hcare : Careful w l) (hstep : (machine home maxInstruments).step w l w') :
    Inv home maxInstruments w' ∧ Transparent w l := by
  obtain ⟨op, result⟩ := l
  obtain ⟨hadmits, hexec⟩ := hstep
  have hresult : (w.exec op).1 = result := congrArg Prod.fst hexec
  have hnext : (w.exec op).2 = w' := congrArg Prod.snd hexec
  subst hresult hnext
  cases op with
  | forInstrument i answer => exact forInstrument_step h hadmits hcare
  | add event durable answer => exact add_step h hadmits.1 hadmits.2 hcare
  | setItem event => exact ⟨setItem_step h hadmits hcare, trivial⟩
  | delItem id => exact ⟨delItem_step h hcare, trivial⟩
  | getItem id =>
    refine ⟨h, ?_⟩
    intro event
    simp only [exec]
    cases w.store.getItem id with
    | none => simp
    | some event' => simp

end

theorem inv_init (h : (machine home maxInstruments).init w) : Inv home maxInstruments w := by
  obtain ⟨hstore, hwritten, hdurable⟩ := h
  have hbucket : ∀ i, w.store.bucketAt i = Bucket.empty := by
    intro i
    rw [hstore]
    rfl
  refine ⟨⟨?_, ?_, ?_, ?_, ?_, hdurable, ?_⟩, ?_⟩
  · intro id i
    rw [hbucket, hstore]
    constructor
    · intro hnone
      cases hnone
    · intro hmem
      cases hmem
  · intro i k
    rw [hbucket]
    constructor
    · intro hmem
      cases hmem
    · rintro ⟨id, e, he, -⟩
      cases he
  · intro i hl
    rw [hbucket] at hl
    cases hl
  · intro i _ id e
    rw [hbucket, hwritten]
    constructor
    · intro he
      cases he
    · rintro ⟨he, -⟩
      cases he
  · intro id e he
    rw [hwritten] at he
    cases he
  · intro id e he
    rw [hwritten] at he
    cases he
  · rw [hstore]
    rfl

omit [DecidableEq K] in
theorem promises (h : Inv home maxInstruments w) : Promises home maxInstruments w := by
  have hat : ∀ {i b}, w.store.buckets.get? i = some b → w.store.bucketAt i = b := by
    intro i b hb
    rw [bucketAt, hb, Option.getD_some]
  have hresident : ∀ id i, w.store.instrumentOf.get? id = some i ↔
      ∃ b, w.store.buckets.get? i = some b ∧ id ∈ b.events.keys := by
    intro id i
    rw [h.synced.instrumentOf]
    constructor
    · intro hmem
      cases hb : w.store.buckets.get? i with
      | none =>
        rw [bucketAt, hb] at hmem
        cases hmem
      | some b =>
        rw [hat hb] at hmem
        exact ⟨b, rfl, hmem⟩
    · rintro ⟨b, hb, hmem⟩
      rw [hat hb]
      exact hmem
  refine ⟨?_, hresident, h.bound, ?_⟩
  · intro id e hw
    have hheld : (w.store.bucketAt e.instrumentId).events.get? id = some e := by
      cases hl : (w.store.bucketAt e.instrumentId).loaded with
      | true => exact (h.synced.loaded _ hl id e).mpr ⟨by rw [hw]; rfl, rfl⟩
      | false => exact (h.synced.unloaded _ hl id e).mpr ⟨hw, rfl⟩
    have hmem : id ∈ (w.store.bucketAt e.instrumentId).events.keys := by
      rw [← isSome_get?, hheld]
      rfl
    have hof := (h.synced.instrumentOf id e.instrumentId).mpr hmem
    obtain ⟨b, hb, -⟩ := (hresident id e.instrumentId).mp hof
    rw [hat hb] at hheld
    rw [getItem, hof]
    simp [hb, hheld]
  · intro i b id e hb he
    rw [← hat hb] at he
    exact h.synced.residentHome he

/-- **The bounded event store is transparent in every run of careful steps.** -/
theorem transparent (home : E → I) (maxInstruments : Int) {w : World E I K C}
    (h : ((machine home maxInstruments).restrict Careful).Reachable w) :
    Promises home maxInstruments w ∧
      ∀ l w', ((machine home maxInstruments).restrict Careful).step w l w' → Transparent w l := by
  have hinv : Inv home maxInstruments w :=
    h.invariant (m := (machine home maxInstruments).restrict Careful) (fun _ hw => inv_init hw)
      fun _ _ _ hi hstep => (step_inv hi hstep.1 hstep.2).1
  exact ⟨promises hinv, fun l w' hstep => (step_inv hinv hstep.1 hstep.2).2⟩

/-! ### Runs that fail -/

/-- A store over durable events, one instrument for all of them. -/
def sampleWorld (durable : List (Event Nat Nat Nat Nat)) : World Nat Nat Nat Nat where
  store := EventStore.new 1
  durable id := durable.find? fun event => event.eventId = id
  written _ := none

def sampleMachine : Machine (World Nat Nat Nat Nat) (Op Nat Nat Nat Nat × Result Nat Nat Nat Nat) :=
  machine (fun _ => 0) 1

theorem sampleWorld_init {durable : List (Event Nat Nat Nat Nat)}
    (h : ∀ e ∈ durable, e.instrumentId = 0) : sampleMachine.init (sampleWorld durable) := by
  refine ⟨rfl, fun _ => rfl, ?_⟩
  intro id e he
  change durable.find? (fun event => decide (event.eventId = id)) = some e at he
  have hid := find?_some he
  exact ⟨of_decide_eq_true hid, h e (mem_of_find?_eq_some he)⟩

theorem sampleStep {w : World Nat Nat Nat Nat} (h : sampleMachine.Reachable w)
    (op : Op Nat Nat Nat Nat) (hadmits : Admits (fun _ => 0) w op) :
    sampleMachine.Reachable (w.exec op).2 :=
  Machine.Reachable.step (l := (op, (w.exec op).1)) h ⟨hadmits, rfl⟩

/-- The durable event of the failing runs. -/
def sampleEvent : Event Nat Nat Nat Nat := ⟨7, 0, 1, 0⟩

theorem sampleRows : (sampleWorld [sampleEvent]).IsRows 0 (.rows [sampleEvent]) := by
  refine ⟨by decide, fun event => ?_⟩
  constructor
  · intro hmem
    rw [mem_singleton.mp hmem]
    exact ⟨rfl, rfl⟩
  · rintro ⟨hd, -⟩
    change [sampleEvent].find? (fun e => decide (e.eventId = event.eventId)) = some event at hd
    exact mem_of_find?_eq_some hd

/-- Once its event is loaded, the store promises what it should and goes on showing it. -/
theorem transparent_sample :
    Promises (fun _ => 0) 1
        ((sampleWorld [sampleEvent]).exec (.forInstrument 0 (.rows [sampleEvent]))).2 ∧
      ∀ l w', (sampleMachine.restrict Careful).step
        ((sampleWorld [sampleEvent]).exec (.forInstrument 0 (.rows [sampleEvent]))).2 l w' →
        Transparent
          ((sampleWorld [sampleEvent]).exec (.forInstrument 0 (.rows [sampleEvent]))).2 l := by
  refine transparent (fun _ => 0) 1 (Machine.Reachable.step
    (l := (.forInstrument 0 (.rows [sampleEvent]),
      ((sampleWorld [sampleEvent]).exec (.forInstrument 0 (.rows [sampleEvent]))).1))
    (.init (sampleWorld_init (by decide))) ⟨Or.inr ?_, sampleRows, rfl⟩)
  intro hraised
  cases hraised

/-- After a load that failed the next access does not load, and shows nothing of the durable event;
a write in the place of an event leaves its key behind; and a deleted event stays durable. -/
theorem not_transparent :
    (∃ w, sampleMachine.Reachable w ∧ w.store.loads = 1 ∧
      Admits (fun _ => 0) w (.forInstrument 0 (.rows [sampleEvent])) ∧
      ¬ Transparent w (.forInstrument 0 (.rows [sampleEvent]),
        (w.exec (.forInstrument 0 (.rows [sampleEvent]))).1)) ∧
    (∃ w event, sampleMachine.Reachable w ∧ Admits (fun _ => 0) w (.add event false (.rows [])) ∧
      ¬ Transparent w (.add event false (.rows []), (w.exec (.add event false (.rows []))).1)) ∧
    ∃ w, sampleMachine.Reachable w ∧ w.durable 7 = some sampleEvent ∧
      ¬ Transparent w (.forInstrument 0 .raised, (w.exec (.forInstrument 0 .raised)).1) := by
  have hinit : ∀ durable : List (Event Nat Nat Nat Nat), (∀ e ∈ durable, e.instrumentId = 0) →
      sampleMachine.Reachable (sampleWorld durable) :=
    fun durable h => .init (sampleWorld_init h)
  refine ⟨?_, ?_, ?_⟩
  · have hload := sampleStep (hinit [sampleEvent] (by decide)) (.forInstrument 0 .raised) trivial
    refine ⟨_, hload, rfl, sampleRows, ?_⟩
    rintro ⟨-, -, events, hevents, -, hmem⟩
    cases hevents
    exact List.not_mem_nil ((hmem sampleEvent).mpr ⟨rfl, rfl⟩)
  · have hfirst := sampleStep (hinit [] (by decide)) (.setItem ⟨7, 0, 1, 0⟩) rfl
    have hsecond := sampleStep hfirst (.setItem ⟨7, 0, 2, 0⟩) rfl
    refine ⟨_, ⟨8, 0, 1, 0⟩, hsecond, ⟨rfl, by decide, fun event => ?_⟩, ?_⟩
    · constructor
      · intro hmem
        cases hmem
      · rintro ⟨hd, -⟩
        cases hd
    · rintro ⟨-, -, new, hnew, hiff⟩
      cases hnew
      obtain ⟨⟨id, i, k, c⟩, ⟨hheld, -⟩, hk⟩ := hiff.mp rfl
      simp only at hk
      subst hk
      change (Function.update (Function.update (fun _ => none) 7 _) 7 _ id <|> none) = _ at hheld
      by_cases hid : id = 7
      · subst hid
        rw [Function.update_self] at hheld
        cases hheld
      · rw [Function.update_of_ne hid, Function.update_of_ne hid] at hheld
        cases hheld
  · have hload := sampleStep (hinit [sampleEvent] (by decide))
      (.forInstrument 0 (.rows [sampleEvent])) sampleRows
    have hdelete := sampleStep hload (.delItem 7) trivial
    refine ⟨_, hdelete, rfl, ?_⟩
    rintro ⟨-, -, events, hevents, -, hmem⟩
    cases hevents
    exact List.not_mem_nil ((hmem sampleEvent).mpr ⟨rfl, rfl⟩)

end World

end InvestmentPlatform.Evidence
