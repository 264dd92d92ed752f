/-
Selecting from a list by keys, the way Python's built-ins do.

`max` keeps the first of several greatest elements, a sort by a key keeps the order of
elements with equal keys, and a dict filled in a loop keeps one element for each key.  All
three look at the order of the list where keys tie, and nowhere else: each has here a lemma
that says what two orders of one list agree on when ties do not matter.
-/
import Mathlib.Data.List.Sort
import Mathlib.Data.List.Dedup
import Mathlib.Data.List.Induction

namespace InvestmentPlatform.Selection

open List Function

variable {α β K R : Type}

/-! ### The first of the greatest -/

section
variable [LinearOrder R] (rank : α → R)

/-- `max(l, key=rank)`. -/
def firstMax : List α → Option α
  | [] => none
  | a :: l => some (l.foldl (fun best b => if rank best < rank b then b else best) a)

theorem foldl_firstMax (l : List α) (a : α) :
    l.foldl (fun best b => if rank best < rank b then b else best) a ∈ a :: l ∧ ∀ b ∈ a :: l,
        rank b ≤ rank (l.foldl (fun best b => if rank best < rank b then b else best) a) := by
  induction l generalizing a with
  | nil => simp
  | cons c l ih =>
      rw [foldl_cons]
      by_cases h : rank a < rank c
      · rw [if_pos h]
        obtain ⟨hmem, hmax⟩ := ih c
        refine ⟨mem_cons_of_mem _ hmem, fun b hb => ?_⟩
        rcases mem_cons.mp hb with rfl | hb
        · exact h.le.trans (hmax c mem_cons_self)
        · exact hmax b hb
      · rw [if_neg h]
        obtain ⟨hmem, hmax⟩ := ih a
        refine ⟨?_, fun b hb => ?_⟩
        · rcases mem_cons.mp hmem with hmem | hmem
          · rw [hmem]
            exact mem_cons_self
          · exact mem_cons_of_mem _ (mem_cons_of_mem _ hmem)
        · rcases mem_cons.mp hb with rfl | hb
          · exact hmax b mem_cons_self
          · rcases mem_cons.mp hb with rfl | hb
            · exact (not_lt.mp h).trans (hmax a mem_cons_self)
            · exact hmax b (mem_cons_of_mem _ hb)

variable {rank}

theorem firstMax_eq_none {l : List α} : firstMax rank l = none ↔ l = [] := by
  cases l <;> simp [firstMax]

theorem firstMax_mem {l : List α} {m : α} (h : firstMax rank l = some m) :
    m ∈ l ∧ ∀ b ∈ l, rank b ≤ rank m := by
  cases l with
  | nil => cases h
  | cons a l =>
      rw [firstMax, Option.some.injEq] at h
      rw [← h]
      exact foldl_firstMax rank l a

/-- `min(l, key=rank)`: the first of several least. -/
def firstMin (rank : α → R) (l : List α) : Option α := firstMax (fun a => OrderDual.toDual (rank a)) l

theorem firstMin_eq_none {l : List α} : firstMin rank l = none ↔ l = [] := firstMax_eq_none

theorem firstMin_mem {l : List α} {m : α} (h : firstMin rank l = some m) :
    m ∈ l ∧ ∀ b ∈ l, rank m ≤ rank b := firstMax_mem h

/-- The greatest elements of the list, those no element outranks, agree on `f`. -/
def Undisputed (rank : α → R) (f : α → β) (l : List α) : Prop :=
  ∀ a ∈ l, ∀ b ∈ l, (∀ c ∈ l, rank c ≤ rank a) → (∀ c ∈ l, rank c ≤ rank b) → f a = f b

/-- Two lists of the same elements select the same when ties at the top do not matter. -/
theorem firstMax_congr {l l' : List α} {f : α → β} (hmem : ∀ a, a ∈ l ↔ a ∈ l')
    (hties : Undisputed rank f l) :
    (firstMax rank l).map f = (firstMax rank l').map f := by
  cases h : firstMax rank l with
  | none =>
      rw [firstMax_eq_none] at h
      subst h
      rw [eq_nil_iff_forall_not_mem.mpr fun a ha => not_mem_nil ((hmem a).mpr ha)]
      rfl
  | some m =>
      obtain ⟨hm, hmax⟩ := firstMax_mem h
      cases h' : firstMax rank l' with
      | none =>
          rw [firstMax_eq_none] at h'
          subst h'
          exact absurd ((hmem m).mp hm) not_mem_nil
      | some m' =>
          obtain ⟨hm', hmax'⟩ := firstMax_mem h'
          have hsame : f m = f m' := hties m hm m' ((hmem m').mpr hm') hmax fun c hc =>
            hmax' c ((hmem c).mp hc)
          rw [Option.map_some, Option.map_some, hsame]

/-- Two orders of a list select the same when ties at the top do not matter. -/
theorem firstMax_perm {l l' : List α} {f : α → β} (hperm : l.Perm l')
    (hties : Undisputed rank f l) :
    (firstMax rank l).map f = (firstMax rank l').map f :=
  firstMax_congr (fun _ => hperm.mem_iff) hties

theorem firstMax_map {γ : Type} (g : γ → α) (l : List γ) :
    firstMax rank (l.map g) = (firstMax (rank ∘ g) l).map g := by
  cases l with
  | nil => rfl
  | cons a l =>
      rw [map_cons, firstMax, firstMax, Option.map_some, Option.some.injEq]
      induction l generalizing a with
      | nil => rfl
      | cons b l ih =>
          rw [map_cons, foldl_cons, foldl_cons, comp_apply, comp_apply, ← apply_ite g]
          exact ih _

end

variable {l l' : List α}

theorem eq_nil_iff_of_perm (h : l.Perm l') : l = [] ↔ l' = [] :=
  ⟨fun hl => nil_perm.mp (hl ▸ h), fun hl => perm_nil.mp (hl ▸ h)⟩

/-- Two orders of a list differ only where it has two elements. -/
theorem perm_short (h : l.Perm l') : l = l' ∨ 2 ≤ l.length ∧ 2 ≤ l'.length := by
  rcases l with - | ⟨a, - | ⟨b, l⟩⟩
  · exact Or.inl (nil_perm.mp h).symm
  · exact Or.inl (singleton_perm.mp h)
  · exact Or.inr ⟨by simp, by simp [← h.length_eq]⟩

theorem max?_perm [LinearOrder α] (hperm : l.Perm l') : l.max? = l'.max? := by
  induction hperm with
  | nil => rfl
  | cons a _ ih => rw [max?_cons, max?_cons, ih]
  | swap a b l =>
      simp only [max?_cons, Option.elim_some, Option.some.injEq]
      cases l.max? with
      | none => exact max_comm b a
      | some m => exact max_left_comm b a m
  | trans _ _ ih ih' => exact ih.trans ih'

/-- Two orders of a list find the same where what is looked for agrees on `f`. -/
theorem find?_perm {p : α → Bool} {f : α → β} (hperm : l.Perm l')
    (hties : ∀ a ∈ l, ∀ b ∈ l, p a → p b → f a = f b) :
    (l.find? p).map f = (l'.find? p).map f := by
  cases h : l.find? p with
  | none =>
      have hnone : l'.find? p = none := by
        rw [find?_eq_none] at h ⊢
        exact fun a ha => h a (hperm.mem_iff.mpr ha)
      rw [hnone]
  | some a =>
      have ha := mem_of_find?_eq_some h
      have hpa := find?_some h
      cases h' : l'.find? p with
      | none => exact absurd hpa (find?_eq_none.mp h' a (hperm.mem_iff.mp ha))
      | some b =>
          have hb := hperm.mem_iff.mpr (mem_of_find?_eq_some h')
          rw [Option.map_some, Option.map_some, hties a ha b hb hpa (find?_some h')]

variable {a : α}

/-- In an ordered list, what a search finds comes before whatever else it could have found. -/
theorem rel_of_find? {r : α → α → Prop} {p : α → Bool} (hpair : l.Pairwise r) {b : α}
    (hfind : l.find? p = some a) (hb : b ∈ l) (hpb : p b = true) : b = a ∨ r a b := by
  induction l with
  | nil => cases hb
  | cons c l ih =>
    rw [pairwise_cons] at hpair
    rw [find?_cons] at hfind
    cases hc : p c with
    | true =>
      rw [hc] at hfind
      cases hfind
      rcases mem_cons.mp hb with rfl | hb
      · exact Or.inl rfl
      · exact Or.inr (hpair.1 b hb)
    | false =>
      rw [hc] at hfind
      rcases mem_cons.mp hb with rfl | hb
      · rw [hc] at hpb
        cases hpb
      · exact ih hpair.2 hfind hb

/-! ### Sorting by a key -/

section
variable [LinearOrder K] (key : α → K)

/-- `sorted(l, key=key)`. -/
def sortOn (l : List α) : List α := l.insertionSort fun a b => key a ≤ key b

theorem sortOn_perm (l : List α) : (sortOn key l).Perm l := perm_insertionSort _ l

theorem sortOn_pairwise (l : List α) : (sortOn key l).Pairwise fun a b => key a ≤ key b :=
  haveI : Std.Total fun a b : α => key a ≤ key b := ⟨fun a b => le_total (key a) (key b)⟩
  haveI : IsTrans α fun a b => key a ≤ key b := ⟨fun _ _ _ => le_trans⟩
  pairwise_insertionSort _ l

variable {key}

/-- Two orders of a list sort to the same when ties do not matter. -/
theorem sortOn_map_perm {l l' : List α} (f : α → β) (hperm : l.Perm l')
    (hties : ∀ a ∈ l, ∀ b ∈ l, key a = key b → f a = f b) :
    (sortOn key l).map f = (sortOn key l').map f := by
  have hpairs : (sortOn key l).map (fun a => (key a, f a))
      = (sortOn key l').map fun a => (key a, f a) := by
    have hsorted : ∀ l : List α, ((sortOn key l).map fun a => (key a, f a)).Pairwise
        fun p q => p.1 ≤ q.1 := fun l => pairwise_map.mpr (sortOn_pairwise key l)
    refine List.Perm.eq_of_pairwise ?_ (hsorted l) (hsorted l') ?_
    · intro p q hp hq hle hge
      obtain ⟨a, ha, rfl⟩ := mem_map.mp hp
      obtain ⟨b, hb, rfl⟩ := mem_map.mp hq
      have ha' := (sortOn_perm key l).mem_iff.mp ha
      have hb' := hperm.mem_iff.mpr ((sortOn_perm key l').mem_iff.mp hb)
      have hkey : key a = key b := le_antisymm hle hge
      rw [hkey, hties a ha' b hb' hkey]
    · exact (((sortOn_perm key l).trans hperm).trans (sortOn_perm key l').symm).map _
  have hsnd := congrArg (List.map Prod.snd) hpairs
  rwa [map_map, map_map] at hsnd

/-- With distinct keys, two orders of a list sort to the same list. -/
theorem sortOn_eq_of_perm {l l' : List α} (hperm : l.Perm l') (hnodup : (l.map key).Nodup) :
    sortOn key l = sortOn key l' := by
  simpa using sortOn_map_perm id hperm fun a ha b hb h => inj_on_of_nodup_map hnodup ha hb h

theorem orderedInsert_filter (p : α → Bool) (a : α) {l : List α}
    (hsorted : l.Pairwise fun b c => key b ≤ key c) :
    (l.orderedInsert (fun b c => key b ≤ key c) a).filter p
      = if p a then (l.filter p).orderedInsert (fun b c => key b ≤ key c) a else l.filter p := by
  induction l with
  | nil => by_cases h : p a <;> simp [h]
  | cons b l ih =>
      obtain ⟨hb, hl⟩ := pairwise_cons.mp hsorted
      by_cases hle : key a ≤ key b
      · rw [orderedInsert_cons_of_le (fun b c => key b ≤ key c) _ hle]
        by_cases h : p a
        · have hleast : ∀ c ∈ (b :: l).filter p, key a ≤ key c := by
            intro c hc
            rcases mem_cons.mp (mem_filter.mp hc).1 with rfl | hc
            · exact hle
            · exact hle.trans (hb c hc)
          rw [if_pos h, filter_cons_of_pos h]
          cases hf : (b :: l).filter p with
          | nil => rfl
          | cons c rest =>
              rw [orderedInsert_cons_of_le (fun b c => key b ≤ key c) _
                (hleast c (hf ▸ mem_cons_self))]
        · rw [if_neg h, filter_cons_of_neg h]
      · rw [orderedInsert_of_not_le (fun b c => key b ≤ key c) _ hle]
        by_cases hp : p b
        · rw [filter_cons_of_pos hp, filter_cons_of_pos hp, ih hl,
            orderedInsert_of_not_le (fun b c => key b ≤ key c) _ hle]
          split <;> rfl
        · rw [filter_cons_of_neg hp, filter_cons_of_neg hp, ih hl]

/-- Sorting and filtering commute. -/
theorem sortOn_filter (p : α → Bool) (l : List α) :
    (sortOn key l).filter p = sortOn key (l.filter p) := by
  induction l with
  | nil => rfl
  | cons a l ih =>
      rw [sortOn, insertionSort_cons, ← sortOn, orderedInsert_filter p a (sortOn_pairwise key l),
        ih]
      by_cases h : p a
      · rw [if_pos h, filter_cons_of_pos h]
        rfl
      · rw [if_neg h, filter_cons_of_neg h]

/-- A sort leaves the elements of one key in their order. -/
theorem sortOn_filter_key (l : List α) (k : K) :
    (sortOn key l).filter (key · = k) = l.filter (key · = k) := by
  rw [sortOn_filter]
  refine List.Pairwise.insertionSort_eq (pairwise_of_forall_mem_list fun a ha b hb => ?_)
  have ha' : key a = k := by simpa using (mem_filter.mp ha).2
  have hb' : key b = k := by simpa using (mem_filter.mp hb).2
  rw [ha', hb']

/-! ### Putting a sorted list back in order -/

theorem map_eq_of_filter_key {l l' : List α} {f : α → Option β}
    (hkeys : l.map (fun a => (key a, (f a).isSome)) = l'.map fun a => (key a, (f a).isSome))
    (hrows : ∀ k, (l.filter (key · = k)).filterMap f = (l'.filter (key · = k)).filterMap f) :
    l.map f = l'.map f := by
  induction l generalizing l' with
  | nil => rw [map_eq_nil_iff.mp hkeys.symm]
  | cons a l ih =>
      cases l' with
      | nil => cases hkeys
      | cons b l' =>
          obtain ⟨hhead, hkeys⟩ := List.cons.inj hkeys
          obtain ⟨hkey, hsome⟩ := Prod.mk.injEq .. ▸ hhead
          have hrow : ∀ k, (l.filter (key · = k)).filterMap f = (l'.filter (key · = k)).filterMap f ∧
              (key a = k → f a = f b) := by
            intro k
            have hk := hrows k
            simp only [filter_cons, ← hkey] at hk
            by_cases ha : key a = k
            · simp only [ha, decide_true, if_true, filterMap_cons] at hk
              cases hfa : f a with
              | none =>
                  rw [hfa] at hsome
                  have hfb : f b = none := by simpa using hsome.symm
                  rw [hfa, hfb] at hk
                  exact ⟨hk, fun _ => hfb.symm⟩
              | some c =>
                  rw [hfa] at hsome
                  obtain ⟨d, hfb⟩ := Option.isSome_iff_exists.mp hsome.symm
                  rw [hfa, hfb] at hk
                  obtain ⟨hcd, htail⟩ := List.cons.inj hk
                  exact ⟨htail, fun _ => by rw [hfb, hcd]⟩
            · simp only [ha, decide_false, Bool.false_eq_true, if_false] at hk
              exact ⟨hk, fun h => absurd h ha⟩
          rw [map_cons, map_cons, (hrow (key a)).2 rfl, ih hkeys fun k => (hrow k).1]

variable {f : α → β}

/-- A sorted list shows the elements of one key in their order, where each shown element
tells its key. -/
theorem sortOn_map_filter {code : β → K} (hcode : ∀ a, code (f a) = key a) (l : List α) (k : K) :
    ((sortOn key l).map f).filter (code · = k) = (l.filter (key · = k)).map f := by
  rw [filter_map, ← sortOn_filter_key l k]
  refine congrArg _ (filter_congr fun a _ => ?_)
  rw [comp_apply, hcode]

/-- What a sorted list shows of its elements is shown of the list itself, given the order of
its keys and which elements it shows. -/
theorem map_eq_of_sortOn_filterMap {l l' : List α} {f : α → Option β} (code : β → K)
    (hcode : ∀ a, ∀ b ∈ f a, code b = key a)
    (hsorted : (sortOn key l).filterMap f = (sortOn key l').filterMap f)
    (hkeys : l.map (fun a => (key a, (f a).isSome)) = l'.map fun a => (key a, (f a).isSome)) :
    l.map f = l'.map f := by
  have hshown : ∀ (l : List α) (k : K), ((sortOn key l).filterMap f).filter (code · = k)
      = (l.filter (key · = k)).filterMap f := by
    intro l k
    rw [← sortOn_filter_key l k]
    induction sortOn key l with
    | nil => rfl
    | cons a s ih =>
        rw [filterMap_cons, filter_cons]
        cases hfa : f a with
        | none =>
            simp only
            rw [ih]
            split
            · rw [filterMap_cons, hfa]
            · rfl
        | some b =>
            simp only
            rw [filter_cons, hcode a b hfa, ih]
            split
            · rw [filterMap_cons, hfa]
            · rfl
  refine map_eq_of_filter_key hkeys fun k => ?_
  rw [← hshown, ← hshown, hsorted]

theorem map_eq_of_sortOn_map {l l' : List α} (code : β → K)
    (hcode : ∀ a, code (f a) = key a) (hsorted : (sortOn key l).map f = (sortOn key l').map f)
    (hkeys : l.map key = l'.map key) : l.map f = l'.map f := by
  have hpair : l.map (fun a => (key a, (some (f a)).isSome))
      = l'.map fun a => (key a, (some (f a)).isSome) := by
    have hpair := congrArg (List.map fun k => (k, true)) hkeys
    rwa [map_map, map_map] at hpair
  have hsome : l.map (fun a => some (f a)) = l'.map fun a => some (f a) := by
    refine map_eq_of_sortOn_filterMap code (fun a b hb => ?_) ?_ hpair
    · rw [← Option.some.inj hb, hcode]
    · simpa using hsorted
  have hget := congrArg (List.filterMap id) hsome
  simpa [filterMap_map] using hget

/-- A list that sorts to the same in every order shows elements of one key alike. -/
theorem agree_of_sortOn_perm {l : List α} (code : β → K) (hcode : ∀ a, code (f a) = key a)
    (h : ∀ l', l.Perm l' → (sortOn key l).map f = (sortOn key l').map f) :
    ∀ a ∈ l, ∀ b ∈ l, key a = key b → f a = f b := by
  intro a ha b hb hkey
  obtain ⟨s, t, rfl⟩ := append_of_mem ha
  rcases mem_cons.mp (perm_middle.mem_iff.mp hb) with rfl | hb
  · rfl
  · obtain ⟨s', t', hrest⟩ := append_of_mem hb
    have htail : (s ++ t).Perm (b :: (s' ++ t')) := by
      rw [hrest]
      exact perm_middle
    have hfirst : (s ++ a :: t).Perm (a :: b :: (s' ++ t')) :=
      perm_middle.trans (htail.cons a)
    have hswap : (a :: b :: (s' ++ t')).Perm (b :: a :: (s' ++ t')) := List.Perm.swap b a _
    have hsame := (h _ hfirst).symm.trans (h _ (hfirst.trans hswap))
    have hshown := congrArg (List.filter (code · = key a)) hsame
    rw [sortOn_map_filter hcode, sortOn_map_filter hcode] at hshown
    simp only [filter_cons, hkey, decide_true, if_true, map_cons] at hshown
    exact (List.cons.inj hshown).1

end

/-- A list is known by two views of it that together tell its elements apart. -/
theorem eq_of_map_eq {γ : Type} {f : α → β} {g : α → γ}
    (hf : l.map f = l'.map f) (hg : l.map g = l'.map g)
    (hfg : ∀ a ∈ l, ∀ b ∈ l', f a = f b → g a = g b → a = b) : l = l' := by
  induction l generalizing l' with
  | nil => rw [map_eq_nil_iff.mp hf.symm]
  | cons a l ih =>
      cases l' with
      | nil => cases hf
      | cons b l' =>
          obtain ⟨hfa, hf⟩ := List.cons.inj hf
          obtain ⟨hga, hg⟩ := List.cons.inj hg
          rw [hfg a mem_cons_self b mem_cons_self hfa hga, ih hf hg fun a ha b hb =>
            hfg a (mem_cons_of_mem _ ha) b (mem_cons_of_mem _ hb)]

/-- `sorted(set(l))`. -/
def sortedSet [LinearOrder α] (l : List α) : List α := l.dedup.insertionSort (· ≤ ·)

theorem insertionSort_congr [LinearOrder α] (hperm : l.Perm l') :
    l.insertionSort (· ≤ ·) = l'.insertionSort (· ≤ ·) := by
  have hsorted : (sortOn id l).map id = (sortOn id l').map id :=
    sortOn_map_perm id hperm fun _ _ _ _ h => h
  simpa [sortOn] using hsorted

theorem sortedSet_congr [LinearOrder α] (h : ∀ a, a ∈ l ↔ a ∈ l') : sortedSet l = sortedSet l' := by
  refine insertionSort_congr ?_
  rw [perm_ext_iff_of_nodup (nodup_dedup l) (nodup_dedup l')]
  simpa using h

theorem mem_sortedSet [LinearOrder α] : a ∈ sortedSet l ↔ a ∈ l := by
  simp [sortedSet]

theorem sortedSet_strict [LinearOrder α] (l : List α) : (sortedSet l).Pairwise (· < ·) := by
  have hle : (sortedSet l).Pairwise (· ≤ ·) := pairwise_insertionSort _ _
  have hne : (sortedSet l).Nodup :=
    (perm_insertionSort _ _).nodup_iff.mpr (nodup_dedup l)
  exact (hle.and hne).imp fun h => lt_of_le_of_ne h.1 h.2

theorem sortedSet_eq_nil [LinearOrder α] : sortedSet l = [] ↔ l = [] := by
  rw [eq_nil_iff_forall_not_mem, eq_nil_iff_forall_not_mem]
  simp [mem_sortedSet]

/-! ### One element for each key -/

/-- Where keys are distinct, an element is all there is of its key. -/
theorem filter_key_singleton [DecidableEq K] {key : α → K}
    (hnodup : (l.map key).Nodup) (ha : a ∈ l) : (l.filter fun b => key b = key a) = [a] := by
  induction l with
  | nil => cases ha
  | cons b l ih =>
      rw [map_cons, nodup_cons] at hnodup
      rw [filter_cons]
      rcases mem_cons.mp ha with rfl | hin
      · have hnone : (l.filter fun b => key b = key a) = [] := by
          rw [filter_eq_nil_iff]
          intro c hc hsame
          rw [decide_eq_true_iff] at hsame
          exact hnodup.1 (hsame ▸ mem_map_of_mem hc)
        rw [if_pos (decide_eq_true rfl), hnone]
      · have hother : key b ≠ key a := fun hsame => hnodup.1 (hsame ▸ mem_map_of_mem hin)
        rw [if_neg (by simpa using hother)]
        exact ih hnodup.2 hin

section
variable [DecidableEq K] [LinearOrder R] (key : α → K) (rank : α → R)

/-- Put an element under its key, unless one of at least its rank is there. -/
def keepOver (a : α) : List α → List α
  | [] => [a]
  | b :: kept =>
      if key b = key a then (if rank b < rank a then a else b) :: kept
      else b :: keepOver a kept

/-- A dict filled in a loop, whose entries are only replaced by higher-ranked ones.  The
entries stand in the order their keys came up. -/
def keepBest (l : List α) : List α := l.foldl (fun kept a => keepOver key rank a kept) []

/-- A dict filled in a loop, whose entries are never replaced. -/
def keepFirst (l : List α) : List α := keepBest key (fun _ => ()) l

/-- `d.setdefault(key(a), []).append(a)` over a list. -/
def groupOn (l : List α) : List (List α) :=
  (keepFirst key l).map fun a => l.filter fun b => key b = key a

variable {key rank}

theorem firstMax_snoc (l : List α) (a : α) :
    firstMax rank (l ++ [a]) = some (match firstMax rank l with
      | none => a
      | some b => if rank b < rank a then a else b) := by
  cases l with
  | nil => rfl
  | cons c l => simp [firstMax, foldl_append]

theorem keepOver_filter_ne {a : α} {k : K} (h : key a ≠ k) (kept : List α) :
    (keepOver key rank a kept).filter (key · = k) = kept.filter (key · = k) := by
  induction kept with
  | nil => simp [keepOver, h]
  | cons b kept ih =>
      rw [keepOver]
      by_cases hkey : key b = key a
      · have hb : key b ≠ k := hkey ▸ h
        rw [if_pos hkey]
        split <;> simp [h, hb]
      · rw [if_neg hkey, filter_cons, filter_cons, ih]

theorem keepOver_filter_eq (a : α) (kept : List α) :
    (keepOver key rank a kept).filter (key · = key a) = match kept.filter (key · = key a) with
        | [] => [a]
        | b :: rest => (if rank b < rank a then a else b) :: rest := by
  induction kept with
  | nil => simp [keepOver]
  | cons b kept ih =>
      rw [keepOver]
      by_cases hkey : key b = key a
      · have hkept : (b :: kept).filter (key · = key a) = b :: kept.filter (key · = key a) :=
          filter_cons_of_pos (by simpa using hkey)
        rw [if_pos hkey, hkept]
        simp only
        by_cases hrank : rank b < rank a
        · rw [if_pos hrank, filter_cons_of_pos (by simp)]
        · rw [if_neg hrank, hkept]
      · rw [if_neg hkey, filter_cons_of_neg (by simpa using hkey),
          filter_cons_of_neg (by simpa using hkey), ih]

theorem keepOver_keys (a : α) (kept : List α) : (keepOver key rank a kept).map key
      = if key a ∈ kept.map key then kept.map key else kept.map key ++ [key a] := by
  induction kept with
  | nil => simp [keepOver]
  | cons b kept ih =>
      rw [keepOver]
      by_cases hkey : key b = key a
      · have hmem : key a ∈ (b :: kept).map key := mem_map.mpr ⟨b, mem_cons_self, hkey⟩
        rw [if_pos hkey, if_pos hmem]
        by_cases hrank : rank b < rank a
        · rw [if_pos hrank, map_cons, map_cons, hkey]
        · rw [if_neg hrank]
      · rw [if_neg hkey, map_cons, ih, map_cons]
        have hne : key a ≠ key b := fun h => hkey h.symm
        by_cases hmem : key a ∈ kept.map key
        · rw [if_pos hmem, if_pos (mem_cons_of_mem _ hmem)]
        · rw [if_neg hmem, if_neg (by simp [hne]; simpa using hmem), cons_append]

theorem keepBest_snoc (l : List α) (a : α) :
    keepBest key rank (l ++ [a]) = keepOver key rank a (keepBest key rank l) := by
  simp [keepBest, foldl_append]

/-- The entry under a key is the first of the greatest with that key. -/
theorem keepBest_filter (l : List α) (k : K) : (keepBest key rank l).filter (key · = k)
      = (firstMax rank (l.filter (key · = k))).toList := by
  induction l using List.reverseRecOn with
  | nil => rfl
  | append_singleton l a ih =>
      rw [keepBest_snoc, filter_append]
      by_cases hkey : key a = k
      · subst hkey
        have hsingle : [a].filter (key · = key a) = [a] := filter_cons_of_pos (by simp)
        rw [keepOver_filter_eq, ih, hsingle, firstMax_snoc]
        cases firstMax rank (l.filter (key · = key a)) <;> rfl
      · have hnone : [a].filter (key · = k) = [] := filter_cons_of_neg (by simpa using hkey)
        rw [keepOver_filter_ne hkey, ih, hnone, append_nil]

theorem keepBest_keys_nodup (l : List α) : ((keepBest key rank l).map key).Nodup := by
  induction l using List.reverseRecOn with
  | nil => exact nodup_nil
  | append_singleton l a ih =>
      rw [keepBest_snoc, keepOver_keys]
      split
      · exact ih
      · rename_i hmem
        exact nodup_append.mpr ⟨ih, nodup_singleton _, by
          rintro k hk _ hk' rfl
          rw [mem_singleton] at hk'
          exact hmem (hk' ▸ hk)⟩

theorem mem_keepBest {l : List α} {a : α} :
    a ∈ keepBest key rank l ↔ firstMax rank (l.filter (key · = key a)) = some a := by
  have hfilter : (keepBest key rank l).filter (key · = key a)
      = (firstMax rank (l.filter (key · = key a))).toList := keepBest_filter l (key a)
  constructor
  · intro h
    have hmem : a ∈ (keepBest key rank l).filter (key · = key a) :=
      mem_filter.mpr ⟨h, by simp⟩
    rw [hfilter] at hmem
    exact Option.mem_toList.mp hmem
  · intro h
    have hmem : a ∈ (keepBest key rank l).filter (key · = key a) := by
      rw [hfilter, h]
      exact mem_singleton_self a
    exact (mem_filter.mp hmem).1

theorem mem_of_mem_keepBest {l : List α} {a : α} (h : a ∈ keepBest key rank l) : a ∈ l :=
  (mem_filter.mp (firstMax_mem (mem_keepBest.mp h)).1).1

theorem mem_keepBest_keys {l : List α} {k : K} :
    k ∈ (keepBest key rank l).map key ↔ k ∈ l.map key := by
  constructor
  · intro h
    obtain ⟨a, ha, rfl⟩ := mem_map.mp h
    exact mem_map_of_mem (mem_of_mem_keepBest ha)
  · intro h
    obtain ⟨a, ha, rfl⟩ := mem_map.mp h
    cases hbest : firstMax rank (l.filter (key · = key a)) with
    | none =>
        rw [firstMax_eq_none, filter_eq_nil_iff] at hbest
        exact absurd (by simp) (hbest a ha)
    | some b =>
        have hkey : key b = key a := by
          simpa using (mem_filter.mp (firstMax_mem hbest).1).2
        have hb : b ∈ keepBest key rank l := by
          rw [mem_keepBest, hkey]
          exact hbest
        exact mem_map.mpr ⟨b, hb, hkey⟩

/-- A look-up finds the first of the greatest with that key. -/
theorem keepBest_find (l : List α) (k : K) :
    (keepBest key rank l).find? (key · = k) = firstMax rank (l.filter (key · = k)) := by
  rw [← head?_filter, keepBest_filter]
  cases firstMax rank (l.filter (key · = k)) <;> rfl

theorem keepBest_keys_perm {l l' : List α} (hperm : l.Perm l') :
    ((keepBest key rank l).map key).Perm ((keepBest key rank l').map key) := by
  rw [perm_ext_iff_of_nodup (keepBest_keys_nodup l) (keepBest_keys_nodup l')]
  intro k
  rw [mem_keepBest_keys, mem_keepBest_keys, (hperm.map key).mem_iff]

/-- Two orders of a list keep the same entries, in some order, when ties at the top of a key
do not matter. -/
theorem keepBest_map_perm {l l' : List α} {f : α → β} (hperm : l.Perm l')
    (hties : ∀ k, Undisputed rank f (l.filter (key · = k))) :
    ((keepBest key rank l).map f).Perm ((keepBest key rank l').map f) := by
  have hentry : ∀ l : List α, (keepBest key rank l).map (fun a => some (f a))
      = ((keepBest key rank l).map key).map fun k =>
          (firstMax rank (l.filter (key · = k))).map f := by
    intro l
    rw [map_map]
    refine map_congr_left fun a ha => ?_
    rw [comp_apply, mem_keepBest.mp ha, Option.map_some]
  have hsame : ∀ k, (firstMax rank (l.filter (key · = k))).map f
      = (firstMax rank (l'.filter (key · = k))).map f :=
    fun k => firstMax_perm (hperm.filter _) (hties k)
  have hsome : ((keepBest key rank l).map fun a => some (f a)).Perm
      ((keepBest key rank l').map fun a => some (f a)) := by
    rw [hentry l, hentry l', map_congr_left fun k _ => hsame k]
    exact (keepBest_keys_perm hperm).map _
  simpa [filterMap_map] using hsome.filterMap id

/-! ### Selecting from images -/

section

variable {γ : Type} (g : γ → α)

theorem keepOver_map (a : γ) (kept : List γ) :
    keepOver key rank (g a) (kept.map g) = (keepOver (key ∘ g) (rank ∘ g) a kept).map g := by
  induction kept with
  | nil => rfl
  | cons b kept ih =>
      rw [map_cons, keepOver, keepOver, ih, comp_apply, comp_apply,
        comp_apply, comp_apply, ← apply_ite g, ← map_cons, ← map_cons,
        ← apply_ite (List.map g)]

theorem keepBest_map (l : List γ) :
    keepBest key rank (l.map g) = (keepBest (key ∘ g) (rank ∘ g) l).map g := by
  induction l using List.reverseRecOn with
  | nil => rfl
  | append_singleton l a ih =>
      rw [map_append, map_singleton, keepBest_snoc, ih, keepBest_snoc, keepOver_map]

omit [LinearOrder R] in
theorem groupOn_map (l : List γ) :
    groupOn key (l.map g) = (groupOn (key ∘ g) l).map (List.map g) := by
  unfold groupOn keepFirst
  rw [keepBest_map, map_map, map_map]
  refine map_congr_left fun a _ => ?_
  rw [comp_apply, comp_apply, filter_map]
  rfl

end

/-! ### The best group -/

omit [LinearOrder R] in
theorem groupOn_eq (l : List α) :
    groupOn key l = ((keepFirst key l).map key).map fun k => l.filter (key · = k) := by
  rw [groupOn, map_map]
  rfl

/-- Two orders of a list select the same group, where a rank looks only at the members and
no two groups tie at the top. -/
theorem firstMax_groupOn_perm {l l' : List α} {rank : List α → R} (hperm : l.Perm l')
    (hrank : ∀ k, ∀ rows rows' : List α, rows.Perm rows' → (∀ a ∈ rows, key a = k) →
      rank rows = rank rows')
    (hties : Undisputed rank (fun rows => rows.head?.map key) (groupOn key l)) :
    (firstMax rank (groupOn key l) = none ∧ firstMax rank (groupOn key l') = none) ∨
      ∃ k, firstMax rank (groupOn key l) = some (l.filter (key · = k)) ∧
        firstMax rank (groupOn key l') = some (l'.filter (key · = k)) := by
  have hsame : ∀ k, rank (l.filter (key · = k)) = rank (l'.filter (key · = k)) := fun k =>
    hrank k _ _ (hperm.filter _) fun a ha => by simpa using (mem_filter.mp ha).2
  have hhead : ∀ k ∈ (keepFirst key l).map key, (l.filter (key · = k)).head?.map key = some k := by
    intro k hk
    obtain ⟨a, ha, hka⟩ := mem_map.mp (mem_keepBest_keys.mp hk)
    cases hf : l.filter (key · = k) with
    | nil => exact absurd (filter_eq_nil_iff.mp hf a ha) (by simpa using hka)
    | cons b rest =>
        have hb : b ∈ l.filter (key · = k) := hf ▸ mem_cons_self
        simpa using (mem_filter.mp hb).2
  have hkeys : Undisputed (rank ∘ fun k => l.filter (key · = k)) id
      ((keepFirst key l).map key) := by
    intro k hk m hm htopk htopm
    have hmem : ∀ n ∈ (keepFirst key l).map key, l.filter (key · = n) ∈ groupOn key l := by
      intro n hn
      rw [groupOn_eq]
      exact mem_map_of_mem hn
    have htop : ∀ n, (∀ c ∈ (keepFirst key l).map key,
        rank (l.filter (key · = c)) ≤ rank (l.filter (key · = n))) →
        ∀ rows ∈ groupOn key l, rank rows ≤ rank (l.filter (key · = n)) := by
      intro n hn rows hrows
      rw [groupOn_eq] at hrows
      obtain ⟨c, hc, rfl⟩ := mem_map.mp hrows
      exact hn c hc
    have hsome : (l.filter (key · = k)).head?.map key = (l.filter (key · = m)).head?.map key :=
      hties _ (hmem k hk) _ (hmem m hm) (htop k htopk) (htop m htopm)
    rw [hhead k hk, hhead m hm] at hsome
    exact Option.some.inj hsome
  have hkept : ((keepFirst key l).map key).Perm ((keepFirst key l').map key) :=
    keepBest_keys_perm hperm
  have hselect := firstMax_perm hkept hkeys
  rw [Option.map_id, id_eq, id_eq] at hselect
  have hcomp : (rank ∘ fun k => l.filter (key · = k)) = rank ∘ fun k => l'.filter (key · = k) :=
    funext hsame
  rw [groupOn_eq, groupOn_eq, firstMax_map (fun k => l.filter (key · = k)),
    firstMax_map (fun k => l'.filter (key · = k)), ← hcomp, ← hselect]
  cases firstMax (rank ∘ fun k => l.filter (key · = k)) ((keepFirst key l).map key) with
  | none => exact Or.inl ⟨rfl, rfl⟩
  | some k => exact Or.inr ⟨k, rfl, rfl⟩

end

/-- Pairing some elements with a value keeps a sublist of them. -/
theorem map_fst_filterMap_sublist {α β : Type*} {pair : α → Option (α × β)}
    (hpair : ∀ a p, pair a = some p → p.1 = a) :
    ∀ l : List α, ((l.filterMap pair).map Prod.fst).Sublist l
  | [] => Sublist.slnil
  | a :: l => by
      cases hsome : pair a with
      | none =>
          rw [filterMap_cons_none hsome]
          exact (map_fst_filterMap_sublist hpair l).cons a
      | some p =>
          rw [filterMap_cons_some hsome, map_cons, hpair a p hsome]
          exact (map_fst_filterMap_sublist hpair l).cons_cons a

end InvestmentPlatform.Selection
