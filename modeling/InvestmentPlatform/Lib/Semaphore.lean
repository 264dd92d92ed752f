/-
A semaphore that hands its permits on in the order they were asked for.

Who asks while no permit is free waits in a queue, and a permit that is given back goes to the
first in the queue at once, before it has run.  With a single permit there is at most one holder
at a time, and as long as somebody waits the permit is never left lying.  With several, those that
are free and those that are held are always as many as there were.
-/
import Mathlib.Data.Finset.Card

namespace InvestmentPlatform

open List Function

structure Semaphore (I : Type) where
  value : Nat
  waiters : List I

namespace Semaphore

variable {I : Type}

/-- A semaphore with one permit. -/
def single : Semaphore I := ⟨1, []⟩

/-- `acquire()` as far as its first await: the permit, where it is free and nobody waits. -/
def tryAcquire (sem : Semaphore I) : Option (Semaphore I) :=
  if sem.value = 0 ∨ sem.waiters ≠ [] then none else some { sem with value := sem.value - 1 }

/-- A place in the queue. -/
def enqueue (sem : Semaphore I) (i : I) : Semaphore I :=
  { sem with waiters := sem.waiters ++ [i] }

/-- `release()`, and who is woken up with the permit. -/
def release (sem : Semaphore I) : Option I × Semaphore I :=
  match sem.waiters with
  | [] => (none, { sem with value := sem.value + 1 })
  | i :: rest => (some i, { sem with waiters := rest })

/-- A waiter that is cancelled leaves the queue. -/
def abandon [DecidableEq I] (sem : Semaphore I) (i : I) : Semaphore I :=
  { sem with waiters := sem.waiters.filter (· ≠ i) }

/-- What the next owner of a permit that is given back is told. -/
def pass [DecidableEq I] {C : Type} (sem : Semaphore I) (grant : C → C) (calls : I → C) : I → C :=
  match sem.release.1 with
  | none => calls
  | some j => update calls j (grant (calls j))

/-! ### One permit -/

/-- The permit is free and nobody waits, or it is with the holder. -/
structure Single (sem : Semaphore I) (holder : Option I) : Prop where
  value : sem.value = if holder.isSome then 0 else 1
  idle : holder = none → sem.waiters = []
  nodup : sem.waiters.Nodup
  notWaiting : ∀ i, holder = some i → i ∉ sem.waiters

variable {sem : Semaphore I} {holder : Option I}

theorem single_single : Single (single : Semaphore I) none :=
  ⟨rfl, fun _ => rfl, nodup_nil, fun _ h => nomatch h⟩

section

variable (h : Single sem holder)
include h

/-- Whoever gets the permit at once finds it free. -/
theorem Single.tryAcquire {sem' : Semaphore I} (hacquire : sem.tryAcquire = some sem') (i : I) :
    holder = none ∧ sem'.waiters = [] ∧ Single sem' (some i) := by
  unfold Semaphore.tryAcquire at hacquire
  split at hacquire
  · cases hacquire
  · rename_i hfree
    rw [not_or, not_not] at hfree
    cases hacquire
    cases holder with
    | some j => exact absurd h.value hfree.1
    | none =>
      refine ⟨rfl, hfree.2, ?_, nofun, h.nodup, fun j _ => ?_⟩
      · simp [h.value]
      · simp [hfree.2]

/-- Whoever does not get it finds it held. -/
theorem Single.tryAcquire_none (hacquire : sem.tryAcquire = none) : holder.isSome := by
  unfold Semaphore.tryAcquire at hacquire
  split at hacquire
  · rename_i hbusy
    cases holder with
    | some j => rfl
    | none => rcases hbusy with hzero | hwait
              · rw [h.value] at hzero
                cases hzero
              · exact absurd (h.idle rfl) hwait
  · cases hacquire

theorem Single.enqueue (hheld : holder.isSome) {i : I}
    (hi : i ∉ sem.waiters) (hholder : holder ≠ some i) : Single (sem.enqueue i) holder := by
  refine ⟨h.value, ?_, ?_, ?_⟩
  · intro hnone
    rw [hnone] at hheld
    cases hheld
  · rw [Semaphore.enqueue, nodup_append]
    refine ⟨h.nodup, nodup_singleton i, ?_⟩
    rintro a ha b hb rfl
    exact hi (mem_singleton.mp hb ▸ ha)
  · intro j hj hmem
    rcases mem_append.mp hmem with hold | hnew
    · exact h.notWaiting j hj hold
    · exact hholder (mem_singleton.mp hnew ▸ hj)

/-- The permit goes to the first in the queue, or is free. -/
theorem Single.release (hheld : holder.isSome) : Single sem.release.2 sem.release.1 := by
  unfold Semaphore.release
  have hvalue : sem.value = 0 := by rw [h.value, if_pos hheld]
  split
  · rename_i hempty
    refine ⟨?_, fun _ => hempty, h.nodup, fun _ hnone => (nomatch hnone)⟩
    simp [hvalue]
  · rename_i i rest hwaiters
    have hnodup := h.nodup
    rw [hwaiters, nodup_cons] at hnodup
    refine ⟨hvalue, nofun, hnodup.2, ?_⟩
    rintro j ⟨⟩
    exact hnodup.1

end

theorem mem_release {i : I} (h : i ∈ sem.release.2.waiters) : i ∈ sem.waiters := by
  unfold Semaphore.release at h
  split at h
  · rename_i hempty
    exact h
  · rename_i j rest hwaiters
    rw [hwaiters]
    exact mem_cons_of_mem j h

theorem release_mem {i : I} (h : sem.release.1 = some i) : i ∈ sem.waiters := by
  unfold Semaphore.release at h
  split at h
  · cases h
  · rename_i j rest hwaiters
    cases h
    rw [hwaiters]
    exact mem_cons_self

/-- Those who wait after a permit is given back are those who waited, but for the one that got
it. -/
theorem mem_release_iff (hnodup : sem.waiters.Nodup) {i : I} :
    i ∈ sem.release.2.waiters ↔ i ∈ sem.waiters ∧ sem.release.1 ≠ some i := by
  constructor
  · intro hmem
    refine ⟨mem_release hmem, fun hwoken => ?_⟩
    unfold Semaphore.release at hmem hwoken
    split at hmem
    · rename_i hempty
      rw [hempty] at hwoken
      cases hwoken
    · rename_i j rest hwaiters
      rw [hwaiters, nodup_cons] at hnodup
      rw [hwaiters] at hwoken
      cases hwoken
      exact hnodup.1 hmem
  · rintro ⟨hmem, hwoken⟩
    unfold Semaphore.release at hwoken ⊢
    split
    · exact hmem
    · rename_i j rest hwaiters
      rw [hwaiters] at hmem hwoken
      rcases mem_cons.mp hmem with rfl | hrest
      · exact absurd rfl hwoken
      · exact hrest

theorem mem_abandon_iff [DecidableEq I] {i j : I} :
    j ∈ (sem.abandon i).waiters ↔ j ∈ sem.waiters ∧ j ≠ i := by
  rw [Semaphore.abandon, mem_filter, decide_eq_true_eq]

theorem Single.abandon [DecidableEq I] (h : Single sem holder) (i : I) :
    Single (sem.abandon i) holder := by
  refine ⟨h.value, fun hnone => ?_, h.nodup.filter _, fun j hj hmem => ?_⟩
  · rw [Semaphore.abandon, h.idle hnone]
    rfl
  · exact h.notWaiting j hj (mem_filter.mp hmem).1

/-! ### Several permits -/

/-- A semaphore with `n` permits. -/
def of (n : Nat) : Semaphore I := ⟨n, []⟩

/-- The free permits and the holders make up `n`, and nobody waits while a permit is free. -/
structure Conserves (n : Nat) (sem : Semaphore I) (held : Finset I) : Prop where
  total : sem.value + held.card = n
  busy : sem.waiters ≠ [] → sem.value = 0
  nodup : sem.waiters.Nodup
  apart : ∀ i ∈ sem.waiters, i ∉ held

variable {n : Nat} {held : Finset I} {sem' : Semaphore I} {i : I}

theorem conserves_of : Conserves n (of n : Semaphore I) ∅ :=
  ⟨by simp [of], fun h => absurd rfl h, nodup_nil, fun _ h => absurd h not_mem_nil⟩

theorem tryAcquire_eq_some (h : sem.tryAcquire = some sem') :
    sem.value ≠ 0 ∧ sem.waiters = [] ∧ sem' = { sem with value := sem.value - 1 } := by
  unfold Semaphore.tryAcquire at h
  split at h
  · cases h
  · rename_i hfree
    rw [not_or, not_not] at hfree
    exact ⟨hfree.1, hfree.2, (Option.some.inj h).symm⟩

theorem Conserves.enqueue (h : Conserves n sem held) (hacquire : sem.tryAcquire = none)
    (hi : i ∉ sem.waiters) (hheld : i ∉ held) : Conserves n (sem.enqueue i) held := by
  refine ⟨h.total, fun _ => ?_, ?_, fun j hj => ?_⟩
  · unfold Semaphore.tryAcquire at hacquire
    split at hacquire
    · rename_i hbusy
      rcases hbusy with hzero | hwait
      · exact hzero
      · exact h.busy hwait
    · cases hacquire
  · rw [Semaphore.enqueue, nodup_append]
    refine ⟨h.nodup, nodup_singleton i, ?_⟩
    rintro a ha b hb rfl
    exact hi (mem_singleton.mp hb ▸ ha)
  · rcases mem_append.mp hj with hold | hnew
    · exact h.apart j hold
    · rw [mem_singleton.mp hnew]
      exact hheld

variable [DecidableEq I]

theorem Conserves.tryAcquire (h : Conserves n sem held) (hacquire : sem.tryAcquire = some sem')
    (hi : i ∉ held) : Conserves n sem' (insert i held) := by
  obtain ⟨hvalue, hwaiters, rfl⟩ := tryAcquire_eq_some hacquire
  have htotal := h.total
  refine ⟨?_, fun hne => absurd hwaiters hne, h.nodup, fun j hj => ?_⟩
  · rw [Finset.card_insert_of_notMem hi]
    dsimp only
    omega
  · rw [show sem.waiters = [] from hwaiters] at hj
    exact absurd hj not_mem_nil

/-- The holders after one of them gave its permit back. -/
def passOn (next : Option I) (i : I) (held : Finset I) : Finset I :=
  match next with
  | none => held.erase i
  | some j => insert j (held.erase i)

theorem mem_passOn {next : Option I} {j : I} :
    j ∈ passOn next i held ↔ next = some j ∨ j ∈ held ∧ j ≠ i := by
  unfold passOn
  split
  · rw [Finset.mem_erase]
    constructor
    · exact fun h => Or.inr ⟨h.2, h.1⟩
    · intro h
      rcases h with h | h
      · cases h
      · exact ⟨h.2, h.1⟩
  · rename_i k
    rw [Finset.mem_insert, Finset.mem_erase, Option.some.injEq, eq_comm (a := j), and_comm]

theorem Conserves.release (h : Conserves n sem held) (hi : i ∈ held) :
    Conserves n sem.release.2 (passOn sem.release.1 i held) := by
  have hcard := Finset.card_erase_add_one hi
  have htotal := h.total
  unfold Semaphore.release passOn
  split
  · rename_i hempty
    refine ⟨?_, fun hne => absurd hempty hne, h.nodup, fun j hj => ?_⟩
    · dsimp only
      omega
    · rw [show sem.waiters = [] from hempty] at hj
      exact absurd hj not_mem_nil
  · rename_i j rest hwaiters
    have hnodup := h.nodup
    have hj := h.apart j (by rw [hwaiters]; exact mem_cons_self)
    rw [hwaiters, nodup_cons] at hnodup
    refine ⟨?_, fun _ => h.busy (by rw [hwaiters]; exact cons_ne_nil j rest), hnodup.2, ?_⟩
    · dsimp only
      rw [Finset.card_insert_of_notMem fun hmem => hj (Finset.mem_of_mem_erase hmem)]
      omega
    · intro k hk hmem
      rcases Finset.mem_insert.mp hmem with rfl | hold
      · exact hnodup.1 hk
      · refine h.apart k ?_ (Finset.mem_of_mem_erase hold)
        rw [hwaiters]
        exact mem_cons_of_mem j hk

theorem Conserves.abandon (h : Conserves n sem held) (i : I) :
    Conserves n (sem.abandon i) held := by
  refine ⟨h.total, fun hne => h.busy fun hempty => hne ?_, h.nodup.filter _, fun j hj => ?_⟩
  · rw [Semaphore.abandon, hempty]
    rfl
  · exact h.apart j (mem_filter.mp hj).1

/-! ### Holders that are said by a property -/

/-- The holders are those with the property. -/
def Held (n : Nat) (sem : Semaphore I) (holds : I → Prop) : Prop :=
  ∃ held : Finset I, (∀ i, i ∈ held ↔ holds i) ∧ Conserves n sem held

variable {holds holds' : I → Prop}

omit [DecidableEq I] in
theorem Held.congr (h : Held n sem holds) (hsame : ∀ i, holds' i ↔ holds i) :
    Held n sem holds' := by
  obtain ⟨held, hheld, hconserves⟩ := h
  exact ⟨held, fun i => (hheld i).trans (hsame i).symm, hconserves⟩

omit [DecidableEq I] in
theorem held_of (h : ∀ i, ¬ holds i) : Held n (of n) holds :=
  ⟨∅, fun i => ⟨fun hmem => absurd hmem (Finset.notMem_empty i), fun hi => absurd hi (h i)⟩,
    conserves_of⟩

theorem Held.tryAcquire (h : Held n sem holds) (hacquire : sem.tryAcquire = some sem')
    (hi : ¬ holds i) (hsame : ∀ j, holds' j ↔ j = i ∨ holds j) : Held n sem' holds' := by
  obtain ⟨held, hheld, hconserves⟩ := h
  refine ⟨insert i held, fun j => ?_, hconserves.tryAcquire hacquire fun hmem => hi ((hheld i).mp hmem)⟩
  rw [Finset.mem_insert, hheld, hsame]

omit [DecidableEq I] in
theorem Held.enqueue (h : Held n sem holds) (hacquire : sem.tryAcquire = none)
    (hwaits : i ∉ sem.waiters) (hi : ¬ holds i) : Held n (sem.enqueue i) holds := by
  obtain ⟨held, hheld, hconserves⟩ := h
  exact ⟨held, hheld, hconserves.enqueue hacquire hwaits fun hmem => hi ((hheld i).mp hmem)⟩

theorem Held.release (h : Held n sem holds) (hi : holds i)
    (hsame : ∀ j, holds' j ↔ sem.release.1 = some j ∨ holds j ∧ j ≠ i) :
    Held n sem.release.2 holds' := by
  obtain ⟨held, hheld, hconserves⟩ := h
  refine ⟨_, fun j => ?_, hconserves.release ((hheld i).mpr hi)⟩
  rw [mem_passOn, hheld, hsame]

theorem Held.abandon (h : Held n sem holds) (i : I) : Held n (sem.abandon i) holds := by
  obtain ⟨held, hheld, hconserves⟩ := h
  exact ⟨held, hheld, hconserves.abandon i⟩

omit [DecidableEq I] in
theorem Held.nodup (h : Held n sem holds) : sem.waiters.Nodup := by
  obtain ⟨held, -, hconserves⟩ := h
  exact hconserves.nodup

omit [DecidableEq I] in
/-- Whatever only holders do is done by at most `n` at a time. -/
theorem Held.card_le (h : Held n sem holds) {p : I → Prop} (hp : ∀ i, p i → holds i) :
    ∃ s : Finset I, (∀ i, i ∈ s ↔ p i) ∧ s.card ≤ n := by
  classical
  obtain ⟨held, hheld, hconserves⟩ := h
  refine ⟨held.filter p, fun i => ?_, ?_⟩
  · rw [Finset.mem_filter, hheld]
    exact ⟨fun h => h.2, fun hi => ⟨hp i hi, hi⟩⟩
  · have hle := Finset.card_filter_le held p
    have htotal := hconserves.total
    omega

omit [DecidableEq I] in
/-- Where nobody holds a permit, all are free. -/
theorem Held.all_free (h : Held n sem holds) (hnone : ∀ i, ¬ holds i) : sem.value = n := by
  obtain ⟨held, hheld, hconserves⟩ := h
  have hempty : held = ∅ :=
    Finset.eq_empty_of_forall_notMem fun i hmem => hnone i ((hheld i).mp hmem)
  have htotal := hconserves.total
  rwa [hempty, Finset.card_empty, Nat.add_zero] at htotal

/-! ### Where everybody is -/

/-- Where someone is with respect to a semaphore. -/
inductive Place
  | outside
  | waiting
  /-- Holding a permit, also where it was handed over and not taken up yet. -/
  | holding
  deriving DecidableEq, Repr

/-- The queue lists those who wait, and the permits are with those who hold one. -/
structure Line (n : Nat) (sem : Semaphore I) (place : I → Place) : Prop where
  queue : ∀ i, i ∈ sem.waiters ↔ place i = .waiting
  held : Held n sem fun i => place i = .holding

variable {place place' : I → Place} {j : I}

omit [DecidableEq I] in
theorem line_of (h : ∀ i, place i = .outside) : Line n (of n) place := by
  refine ⟨fun i => ?_, held_of fun i => ?_⟩
  · rw [h i]
    exact ⟨fun hmem => absurd hmem not_mem_nil, nofun⟩
  · rw [h i]
    exact nofun

omit [DecidableEq I] in
theorem Line.congr (h : Line n sem place) (hsame : ∀ i, place' i = place i) :
    Line n sem place' := by
  rw [funext hsame]
  exact h

theorem Line.tryAcquire (h : Line n sem place) (hacquire : sem.tryAcquire = some sem')
    (hi : place i = .outside) (hi' : place' i = .holding)
    (hother : ∀ j, j ≠ i → place' j = place j) : Line n sem' place' := by
  obtain ⟨-, hwaiters, rfl⟩ := tryAcquire_eq_some hacquire
  refine ⟨fun j => ?_, h.held.tryAcquire hacquire (i := i) ?_ fun j => ?_⟩
  · by_cases hj : j = i
    · subst hj
      rw [hi', show sem.waiters = [] from hwaiters]
      exact ⟨fun hmem => absurd hmem not_mem_nil, nofun⟩
    · rw [hother j hj]
      exact h.queue j
  · rw [hi]
    exact nofun
  · by_cases hj : j = i
    · subst hj
      exact ⟨fun _ => Or.inl rfl, fun _ => hi'⟩
    · rw [hother j hj]
      exact ⟨Or.inr, fun hor => hor.resolve_left hj⟩

omit [DecidableEq I] in
theorem Line.enqueue (h : Line n sem place) (hacquire : sem.tryAcquire = none)
    (hi : place i = .outside) (hi' : place' i = .waiting)
    (hother : ∀ j, j ≠ i → place' j = place j) : Line n (sem.enqueue i) place' := by
  have hwaits : i ∉ sem.waiters := by
    rw [h.queue, hi]
    exact nofun
  have hnot : ¬ place i = .holding := by
    rw [hi]
    exact nofun
  refine ⟨fun j => ?_, (h.held.enqueue hacquire hwaits hnot).congr fun j => ?_⟩
  · rw [Semaphore.enqueue, mem_append, mem_singleton, h.queue]
    by_cases hj : j = i
    · subst hj
      exact ⟨fun _ => hi', fun _ => Or.inr rfl⟩
    · rw [hother j hj]
      exact ⟨fun hor => hor.resolve_right hj, Or.inl⟩
  · by_cases hj : j = i
    · subst hj
      rw [hi, hi']
      exact ⟨nofun, nofun⟩
    · rw [hother j hj]

theorem Line.abandon (h : Line n sem place) (hi : place i = .waiting) (hi' : place' i = .outside)
    (hother : ∀ j, j ≠ i → place' j = place j) : Line n (sem.abandon i) place' := by
  refine ⟨fun j => ?_, (h.held.abandon i).congr fun j => ?_⟩
  · rw [mem_abandon_iff, h.queue]
    by_cases hj : j = i
    · subst hj
      rw [hi']
      exact ⟨fun hand => absurd rfl hand.2, nofun⟩
    · rw [hother j hj]
      exact ⟨fun hand => hand.1, fun hwaiting => ⟨hwaiting, hj⟩⟩
  · by_cases hj : j = i
    · subst hj
      rw [hi, hi']
      exact ⟨nofun, nofun⟩
    · rw [hother j hj]

omit [DecidableEq I] in
/-- Where there are permits, nobody waits unless somebody holds one. -/
theorem Line.exists_holding (h : Line (n + 1) sem place) (hi : place i = .waiting) :
    ∃ j, place j = .holding := by
  obtain ⟨held, hheld, hconserves⟩ := h.held
  have hbusy := hconserves.busy (List.ne_nil_of_mem ((h.queue i).mpr hi))
  have htotal := hconserves.total
  obtain ⟨j, hj⟩ := Finset.card_pos.mp (by omega : 0 < held.card)
  exact ⟨j, (hheld j).mp hj⟩

omit [DecidableEq I] in
/-- Whoever is handed a permit was waiting. -/
theorem Line.woken (h : Line n sem place) (hj : sem.release.1 = some j) : place j = .waiting :=
  (h.queue j).mp (release_mem hj)

theorem Line.release (h : Line n sem place) (hi : place i = .holding) (hi' : place' i = .outside)
    (hnext : ∀ j, sem.release.1 = some j → place' j = .holding)
    (hother : ∀ j, j ≠ i → sem.release.1 ≠ some j → place' j = place j) :
    Line n sem.release.2 place' := by
  have hself : sem.release.1 ≠ some i := by
    intro hwoken
    have hwaiting := h.woken hwoken
    rw [hi] at hwaiting
    cases hwaiting
  refine ⟨fun j => ?_, h.held.release (i := i) hi fun j => ?_⟩
  · rw [mem_release_iff h.held.nodup, h.queue]
    by_cases hj : j = i
    · subst hj
      rw [hi, hi']
      exact ⟨fun hand => (nomatch hand.1), nofun⟩
    · by_cases hwoken : sem.release.1 = some j
      · rw [hnext j hwoken]
        exact ⟨fun hand => absurd hwoken hand.2, nofun⟩
      · rw [hother j hj hwoken]
        exact ⟨fun hand => hand.1, fun hwaiting => ⟨hwaiting, hwoken⟩⟩
  · by_cases hj : j = i
    · subst hj
      rw [hi']
      refine ⟨nofun, fun hor => ?_⟩
      rcases hor with hwoken | ⟨-, hne⟩
      · exact absurd hwoken hself
      · exact absurd rfl hne
    · by_cases hwoken : sem.release.1 = some j
      · exact ⟨fun _ => Or.inl hwoken, fun _ => hnext j hwoken⟩
      · rw [hother j hj hwoken]
        exact ⟨fun hholding => Or.inr ⟨hholding, hj⟩, fun hor => (hor.resolve_left hwoken).1⟩

/-! ### Calls that say where they are -/

section Calls

variable {C : Type} {spot : C → Place} {calls : I → C} {call : C} {grant : C → C}

theorem pass_apply (sem : Semaphore I) (grant : C → C) (calls : I → C) (j : I) :
    sem.pass grant calls j = if sem.release.1 = some j then grant (calls j) else calls j := by
  unfold pass
  cases sem.release.1 with
  | none => exact (if_neg nofun).symm
  | some k =>
    dsimp only
    by_cases hj : j = k
    · subst hj
      rw [update_self, if_pos rfl]
    · rw [update_of_ne hj, if_neg fun heq => hj (Option.some.inj heq).symm]

variable (h : Line n sem fun j => spot (calls j))
include h

/-- A call goes on without touching the semaphore. -/
theorem Line.put (hcall : spot call = spot (calls i)) :
    Line n sem fun j => spot (update calls i call j) := by
  refine h.congr fun j => ?_
  by_cases hj : j = i
  · subst hj
    rw [update_self, hcall]
  · rw [update_of_ne hj]

theorem Line.putTryAcquire (hacquire : sem.tryAcquire = some sem')
    (hi : spot (calls i) = .outside) (hcall : spot call = .holding) :
    Line n sem' fun j => spot (update calls i call j) := by
  refine h.tryAcquire hacquire hi ?_ fun j hj => ?_
  · rw [update_self, hcall]
  · rw [update_of_ne hj]

theorem Line.putEnqueue (hacquire : sem.tryAcquire = none)
    (hi : spot (calls i) = .outside) (hcall : spot call = .waiting) :
    Line n (sem.enqueue i) fun j => spot (update calls i call j) := by
  refine h.enqueue hacquire hi ?_ fun j hj => ?_
  · rw [update_self, hcall]
  · rw [update_of_ne hj]

theorem Line.putAbandon (hi : spot (calls i) = .waiting) (hcall : spot call = .outside) :
    Line n (sem.abandon i) fun j => spot (update calls i call j) := by
  refine h.abandon hi ?_ fun j hj => ?_
  · rw [update_self, hcall]
  · rw [update_of_ne hj]

omit [DecidableEq I] in
/-- Who is woken by a call that gives its permit back is another one. -/
theorem Line.woken_ne (hi : spot (calls i) = .holding) (j : I) (hj : sem.release.1 = some j) :
    j ≠ i := by
  rintro rfl
  have hwaiting := h.woken hj
  rw [hi] at hwaiting
  cases hwaiting

/-- A call gives its permit back, and the next in the queue gets it. -/
theorem Line.putPass (hi : spot (calls i) = .holding) (hcall : spot call = .outside)
    (hgrant : ∀ j, spot (calls j) = .waiting → spot (grant (calls j)) = .holding) :
    Line n sem.release.2 fun j => spot (sem.pass grant (update calls i call) j) := by
  have hne := h.woken_ne hi
  refine h.release hi ?_ (fun j hj => ?_) fun j hj hnot => ?_
  · rw [pass_apply, if_neg fun hself => hne i hself rfl, update_self, hcall]
  · rw [pass_apply, if_pos hj, update_of_ne (hne j hj)]
    exact hgrant j (h.woken hj)
  · rw [pass_apply, if_neg hnot, update_of_ne hj]

/-- What holds of every call holds of the next owner too. -/
theorem Line.forall_putPass {p : I → C → Prop} (hi : spot (calls i) = .holding)
    (hcall : p i call) (hp : ∀ j, p j (calls j))
    (hgrant : ∀ j, spot (calls j) = .waiting → p j (calls j) → p j (grant (calls j))) (j : I) :
    p j (sem.pass grant (update calls i call) j) := by
  rw [pass_apply]
  split
  · rename_i hj
    rw [update_of_ne (h.woken_ne hi j hj)]
    exact hgrant j (h.woken hj) (hp j)
  · exact (forall_update_iff calls p).mpr ⟨hcall, fun k _ => hp k⟩ j

end Calls

/-! ### A counter beside them -/

/-- As many as the property holds of. -/
def Counts (count : Int) (p : I → Prop) : Prop :=
  ∃ s : Finset I, (∀ i, i ∈ s ↔ p i) ∧ count = s.card

section Counts

variable {count : Int} {p p' : I → Prop}

omit [DecidableEq I] in
theorem counts_zero (h : ∀ i, ¬ p i) : Counts 0 p :=
  ⟨∅, fun i => ⟨fun hmem => absurd hmem (Finset.notMem_empty i), fun hi => absurd hi (h i)⟩, rfl⟩

omit [DecidableEq I] in
theorem Counts.congr (h : Counts count p) (hsame : ∀ i, p' i ↔ p i) : Counts count p' := by
  obtain ⟨s, hs, hcount⟩ := h
  exact ⟨s, fun i => (hs i).trans (hsame i).symm, hcount⟩

theorem Counts.insert (h : Counts count p) (hi : ¬ p i) (hsame : ∀ j, p' j ↔ j = i ∨ p j) :
    Counts (count + 1) p' := by
  obtain ⟨s, hs, hcount⟩ := h
  have hnew : i ∉ s := fun hmem => hi ((hs i).mp hmem)
  refine ⟨Insert.insert i s, fun j => ?_, ?_⟩
  · rw [Finset.mem_insert, hs, hsame]
  · rw [Finset.card_insert_of_notMem hnew, hcount, Int.natCast_add, Int.natCast_one]

theorem Counts.erase (h : Counts count p) (hi : p i) (hsame : ∀ j, p' j ↔ p j ∧ j ≠ i) :
    Counts (count - 1) p' := by
  obtain ⟨s, hs, hcount⟩ := h
  have hcard := Finset.card_erase_add_one ((hs i).mpr hi)
  refine ⟨s.erase i, fun j => ?_, by omega⟩
  rw [Finset.mem_erase, hs, hsame, and_comm]

end Counts

end Semaphore

end InvestmentPlatform
