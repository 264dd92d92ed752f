/-
Transactions at READ COMMITTED that share one mutex.

A transaction reads what is committed at each of its statements, and what it writes is seen by
others when it commits.  Some take the mutex before they read anything and hold it to their end;
others never ask for it.  So a holder of the mutex has to bear what the others commit meanwhile,
its **rely**, and every transaction what any commit may do, which is how the store may **grow**.

A transaction is checked by itself, against these two and an invariant of the store; the rule at
the end puts the transactions together, in any number and any interleaving.
-/
import InvestmentPlatform.Lib.Machine

namespace InvestmentPlatform.ReadCommitted

open Option

variable {S W E R T : Type}

/-- What is left of a transaction. -/
inductive Prog (S W E R : Type)
  | lock (next : Prog S W E R)
  /-- One statement, answered from what is committed. -/
  | read (next : S → Prog S W E R)
  | commit (writes : W) (result : R)
  | throw (error : E)

/-- A statement that asks for something. -/
def Prog.query {A : Type} (ask : S → A) (next : A → Prog S W E R) : Prog S W E R :=
  .read fun s => next (ask s)

inductive Thread (S W E R : Type)
  /-- The stores that its statements were answered from, and what is left. -/
  | running (seen : List S) (prog : Prog S W E R)
  | ended (seen : List S) (outcome : Except E R)

structure State (S W E R T : Type) where
  store : S
  /-- Who holds the mutex. -/
  holder : Option T
  threads : T → Thread S W E R

inductive Action (E T : Type)
  /-- The next statement of a transaction, the commit and its end among them. -/
  | run (t : T)
  /-- The transaction fails from outside. -/
  | abort (t : T) (error : E)

/-- Whose step it is. -/
def Action.thread : Action E T → T
  | .run t | .abort t _ => t

section

variable [DecidableEq T] (apply : W → S → Except E S)

namespace State

variable (state : State S W E R T)

def put (t : T) (thread : Thread S W E R) : State S W E R T :=
  { state with threads := Function.update state.threads t thread }

/-- The transaction ends, and the mutex is free if it held it. -/
def finish (t : T) (seen : List S) (outcome : Except E R) : State S W E R T :=
  { state.put t (.ended seen outcome) with
    holder := if state.holder = some t then none else state.holder }

def exec : Action E T → Option (State S W E R T)
  | .run t =>
    match state.threads t with
    | .ended _ _ => none
    | .running seen (.lock next) =>
      if state.holder = none ∨ state.holder = some t then
        some { state.put t (.running seen next) with holder := some t }
      else none
    | .running seen (.read next) =>
      some (state.put t (.running (seen ++ [state.store]) (next state.store)))
    | .running seen (.commit writes result) =>
      match apply writes state.store with
      | .ok store => some { state.finish t seen (.ok result) with store := store }
      | .error error => some (state.finish t seen (.error error))
    | .running seen (.throw error) => some (state.finish t seen (.error error))
  | .abort t error =>
    match state.threads t with
    | .ended _ _ => none
    | .running seen _ => some (state.finish t seen (.error error))

end State

/-- Any interleaving of the transactions, one for each thread. -/
def machine (init : S → Prop) (programs : T → Prog S W E R) :
    Machine (State S W E R T) (Action E T) where
  init state := init state.store ∧ state.holder = none ∧
    ∀ t, state.threads t = .running [] (programs t)
  step state action state' := state.exec apply action = some state'

end

/-! ### What is asked of a transaction -/

/-- An invariant of the store, and what commits do to it. -/
structure Discipline (S W : Type) where
  inv : S → Prop
  /-- The commits that are spoken of. -/
  clean : W → S → Prop
  /-- What any commit does. -/
  grow : S → S → Prop
  /-- What a commit without the mutex does. -/
  rely : S → S → Prop
  grow_refl : ∀ s, grow s s
  grow_trans : ∀ {a b c}, grow a b → grow b c → grow a c
  rely_refl : ∀ s, rely s s
  rely_trans : ∀ {a b c}, rely a b → rely b c → rely a c
  grow_of_rely : ∀ {a b}, rely a b → grow a b

variable (apply : W → S → Except E S) (d : Discipline S W) (post : List S → R → S → S → Prop)

/-- The transaction holds the mutex, and last looked at the store `s`. -/
def Prog.Locked : List S → Prog S W E R → S → Prop
  | seen, .lock next, s => ∀ s', d.rely s s' → d.inv s' → Locked seen next s'
  | seen, .read next, s => ∀ s', d.rely s s' → d.inv s' → Locked (seen ++ [s']) (next s') s'
  | seen, .commit writes result, s => ∀ s' s'', d.rely s s' → d.inv s' → d.clean writes s' →
      apply writes s' = .ok s'' → d.inv s'' ∧ d.grow s' s'' ∧ post seen result s' s''
  | _, .throw _, _ => True

/-- The transaction does not hold the mutex. -/
def Prog.Free : List S → Prog S W E R → S → Prop
  | seen, .lock next, s => ∀ s', d.grow s s' → d.inv s' → Prog.Locked apply d post seen next s'
  | seen, .read next, s => ∀ s', d.grow s s' → d.inv s' → Free (seen ++ [s']) (next s') s'
  | seen, .commit writes result, s => ∀ s' s'', d.grow s s' → d.inv s' → d.clean writes s' →
      apply writes s' = .ok s'' → d.inv s'' ∧ d.rely s' s'' ∧ post seen result s' s''
  | _, .throw _, _ => True

variable {apply d post} {seen : List S} {prog : Prog S W E R} {s s' : S}

theorem Prog.Locked.later (h : prog.Locked apply d post seen s) (hrely : d.rely s s') :
    prog.Locked apply d post seen s' := by
  cases prog with
  | lock next => exact fun t ht hinv => h t (d.rely_trans hrely ht) hinv
  | read next => exact fun t ht hinv => h t (d.rely_trans hrely ht) hinv
  | commit writes result =>
    exact fun t t' ht hinv hclean happly => h t t' (d.rely_trans hrely ht) hinv hclean happly
  | throw error => trivial

theorem Prog.Free.later (h : prog.Free apply d post seen s) (hgrow : d.grow s s') :
    prog.Free apply d post seen s' := by
  cases prog with
  | lock next => exact fun t ht hinv => h t (d.grow_trans hgrow ht) hinv
  | read next => exact fun t ht hinv => h t (d.grow_trans hgrow ht) hinv
  | commit writes result =>
    exact fun t t' ht hinv hclean happly => h t t' (d.grow_trans hgrow ht) hinv hclean happly
  | throw error => trivial

/-- Every commit that a transaction may come to is of one kind. -/
def Prog.Commits (kind : W → Prop) : Prog S W E R → Prop
  | .lock next => Commits kind next
  | .read next => ∀ s, Commits kind (next s)
  | .commit writes _ => kind writes
  | .throw _ => True

/-! ### Transactions together -/

section

variable [DecidableEq T] (apply d) (posts : T → List S → R → S → S → Prop)

structure Sound (state : State S W E R T) : Prop where
  inv : d.inv state.store
  locked : ∀ t, state.holder = some t →
    ∃ seen prog, state.threads t = .running seen prog ∧
      prog.Locked apply d (posts t) seen state.store
  free : ∀ t seen prog, state.holder ≠ some t → state.threads t = .running seen prog →
    prog.Free apply d (posts t) seen state.store

/-- The step is no commit, or a commit that is spoken of. -/
def Clean (state : State S W E R T) : Action E T → Prop
  | .run t => ∀ seen writes result, state.threads t = .running seen (.commit writes result) →
      d.clean writes state.store
  | .abort _ _ => True

/-- What a step is. -/
inductive Step (state : State S W E R T) : Action E T → State S W E R T → Prop
  | locked (t : T) (seen : List S) (next : Prog S W E R)
      (hrunning : state.threads t = .running seen (.lock next))
      (hfree : state.holder = none ∨ state.holder = some t) :
      Step state (.run t) { state.put t (.running seen next) with holder := some t }
  | read (t : T) (seen : List S) (next : S → Prog S W E R)
      (hrunning : state.threads t = .running seen (.read next)) :
      Step state (.run t) (state.put t (.running (seen ++ [state.store]) (next state.store)))
  | committed (t : T) (seen : List S) (writes : W) (result : R) (store : S)
      (hrunning : state.threads t = .running seen (.commit writes result))
      (happly : apply writes state.store = .ok store) :
      Step state (.run t) { state.finish t seen (.ok result) with store := store }
  | failed (action : Action E T) (seen : List S) (prog : Prog S W E R) (error : E)
      (hrunning : state.threads action.thread = .running seen prog) :
      Step state action (state.finish action.thread seen (.error error))

variable {apply d posts} {state state' : State S W E R T} {action : Action E T} {t : T}
  {thread : Thread S W E R} {outcome : Except E R}

theorem put_self : (state.put t thread).threads t = thread := Function.update_self _ _ _

theorem put_ne {u : T} (hu : u ≠ t) : (state.put t thread).threads u = state.threads u :=
  Function.update_of_ne hu _ _

theorem finish_self : (state.finish t seen outcome).threads t = .ended seen outcome := put_self

theorem finish_ne {u : T} (hu : u ≠ t) :
    (state.finish t seen outcome).threads u = state.threads u := put_ne hu

theorem finish_holder {u : T} :
    (state.finish t seen outcome).holder = some u ↔ state.holder = some u ∧ u ≠ t := by
  change (if state.holder = some t then none else state.holder) = some u ↔ _
  split
  · rename_i hheld
    rw [hheld]
    exact ⟨nofun, fun hand => absurd (some.inj hand.1).symm hand.2⟩
  · rename_i hne
    exact ⟨fun hheld => ⟨hheld, fun heq => hne (heq ▸ hheld)⟩, fun hand => hand.1⟩

section

variable (hexec : state.exec apply action = some state')
include hexec

theorem step_of_exec : Step apply state action state' := by
  cases action with
  | run t =>
    simp only [State.exec] at hexec
    split at hexec
    · cases hexec
    · rename_i seen next hrunning
      split at hexec
      · rename_i hfree
        rw [← some.inj hexec]
        exact .locked t seen next hrunning hfree
      · cases hexec
    · rename_i seen next hrunning
      rw [← some.inj hexec]
      exact .read t seen next hrunning
    · rename_i seen writes result hrunning
      split at hexec
      · rename_i store happly
        rw [← some.inj hexec]
        exact .committed t seen writes result store hrunning happly
      · rename_i error _
        rw [← some.inj hexec]
        exact .failed (.run t) seen _ error hrunning
    · rename_i seen error hrunning
      rw [← some.inj hexec]
      exact .failed (.run t) seen _ error hrunning
  | abort t error =>
    simp only [State.exec] at hexec
    split at hexec
    · cases hexec
    · rename_i seen prog hrunning
      rw [← some.inj hexec]
      exact .failed (.abort t error) seen prog error hrunning

/-- A transaction that fails leaves the store alone. -/
theorem store_of_failed
    {error : E} (hfailed : state'.threads action.thread = .ended seen (.error error)) :
    state'.store = state.store := by
  cases step_of_exec hexec with
  | locked t seen next hrunning hfree => rfl
  | read t seen next hrunning => rfl
  | committed t seen writes result store hrunning happly =>
    cases finish_self.symm.trans hfailed
  | failed action seen prog error hrunning => rfl

theorem threads_of_exec {u : T} (hu : u ≠ action.thread) : state'.threads u = state.threads u := by
  cases step_of_exec hexec with
  | locked t seen next hrunning hfree => exact put_ne hu
  | read t seen next hrunning => exact put_ne hu
  | committed t seen writes result store hrunning happly => exact finish_ne hu
  | failed action seen prog error hrunning => exact finish_ne hu

end

omit [DecidableEq T] in
/-- Who holds the mutex holds what it is asked for. -/
theorem Sound.of_holder (h : Sound apply d posts state) {prog : Prog S W E R}
    (hheld : state.holder = some t) (hrunning : state.threads t = .running seen prog) :
    prog.Locked apply d (posts t) seen state.store := by
  obtain ⟨seen', prog', hthread, hprog⟩ := h.locked t hheld
  cases hthread.symm.trans hrunning
  exact hprog

/-- A transaction goes on with the mutex in its hands. -/
theorem Sound.takes (h : Sound apply d posts state) {prog : Prog S W E R}
    (hfree : state.holder = none ∨ state.holder = some t)
    (hprog : prog.Locked apply d (posts t) seen state.store) :
    Sound apply d posts { state.put t (.running seen prog) with holder := some t } := by
  refine ⟨h.inv, fun u hu => ?_, fun u seen' prog' hu hrunning => ?_⟩
  · cases hu
    exact ⟨seen, prog, put_self, hprog⟩
  · have hut : u ≠ t := fun heq => hu (congrArg some heq.symm)
    refine h.free u seen' prog' ?_ ((put_ne hut).symm.trans hrunning)
    rcases hfree with hnone | hheld
    · rw [hnone]
      exact nofun
    · rw [hheld]
      exact hu

/-- A transaction goes on without the mutex. -/
theorem Sound.goesOn (h : Sound apply d posts state) {prog : Prog S W E R}
    (hheld : state.holder ≠ some t) (hprog : prog.Free apply d (posts t) seen state.store) :
    Sound apply d posts (state.put t (.running seen prog)) := by
  refine ⟨h.inv, fun u hu => ?_, fun u seen' prog' hu hrunning => ?_⟩
  · have hut : u ≠ t := by
      rintro rfl
      exact hheld hu
    obtain ⟨seen', prog', hthread, hprog'⟩ := h.locked u hu
    exact ⟨seen', prog', (put_ne hut).trans hthread, hprog'⟩
  · by_cases hut : u = t
    · subst hut
      cases put_self.symm.trans hrunning
      exact hprog
    · exact h.free u seen' prog' hu ((put_ne hut).symm.trans hrunning)

/-- A transaction ends over a store that has grown, by what its own part allows. -/
theorem Sound.finish (h : Sound apply d posts state) (outcome : Except E R) (hinv : d.inv s)
    (hgrow : d.grow state.store s) (hrely : state.holder ≠ some t → d.rely state.store s) :
    Sound apply d posts { state.finish t seen outcome with store := s } := by
  refine ⟨hinv, fun u hu => ?_, fun u seen' prog hu hrunning => ?_⟩
  · have hstill : (state.finish t seen outcome).holder = some u := hu
    obtain ⟨hheld, hut⟩ := finish_holder.mp hstill
    obtain ⟨seen', prog, hthread, hprog⟩ := h.locked u hheld
    refine ⟨seen', prog, (finish_ne hut).trans hthread, hprog.later (hrely ?_)⟩
    rw [hheld]
    exact fun heq => hut (some.inj heq)
  · have hut : u ≠ t := by
      rintro rfl
      cases finish_self.symm.trans hrunning
    have hold : state.threads u = .running seen' prog := (finish_ne hut).symm.trans hrunning
    have hnot : state.holder ≠ some u := by
      intro hheld
      have hstill : (state.finish t seen outcome).holder = some u :=
        finish_holder.mpr ⟨hheld, hut⟩
      exact hu hstill
    exact (h.free u seen' prog hnot hold).later hgrow

/-- What a step does: the parts stay sound, the store grows, and it is changed by nothing but a
commit that keeps its own promise. -/
theorem Sound.step (h : Sound apply d posts state) (hclean : Clean d state action)
    (hexec : state.exec apply action = some state') :
    Sound apply d posts state' ∧ d.grow state.store state'.store ∧
      ((state'.store = state.store ∧ ∀ seen result,
        state'.threads action.thread ≠ .ended seen (.ok result)) ∨
      ∃ seen result, state'.threads action.thread = .ended seen (.ok result) ∧
        posts action.thread seen result state.store state'.store) := by
  cases step_of_exec hexec with
  | locked t seen next hrunning hfree =>
    refine ⟨h.takes hfree ?_, d.grow_refl _, Or.inl ⟨rfl, fun seen' result hended => ?_⟩⟩
    · by_cases hheld : state.holder = some t
      · exact h.of_holder hheld hrunning _ (d.rely_refl _) h.inv
      · exact h.free t seen _ hheld hrunning _ (d.grow_refl _) h.inv
    · cases put_self.symm.trans hended
  | read t seen next hrunning =>
    refine ⟨?_, d.grow_refl _, Or.inl ⟨rfl, fun seen' result hended => ?_⟩⟩
    · by_cases hheld : state.holder = some t
      · have hnext := h.takes (t := t) (Or.inr hheld)
          (h.of_holder hheld hrunning _ (d.rely_refl _) h.inv)
        rw [← hheld] at hnext
        exact hnext
      · exact h.goesOn hheld (h.free t seen _ hheld hrunning _ (d.grow_refl _) h.inv)
    · cases put_self.symm.trans hended
  | committed t seen writes result store hrunning happly =>
    have hwrites := hclean seen writes result hrunning
    have hdone : d.inv store ∧ d.grow state.store store ∧
        (state.holder ≠ some t → d.rely state.store store) ∧
          posts t seen result state.store store := by
      by_cases hheld : state.holder = some t
      · obtain ⟨hinv, hgrow, hpost⟩ := h.of_holder hheld hrunning _ _ (d.rely_refl _) h.inv
          hwrites happly
        exact ⟨hinv, hgrow, fun hne => absurd hheld hne, hpost⟩
      · obtain ⟨hinv, hrely, hpost⟩ := h.free t seen _ hheld hrunning _ _ (d.grow_refl _) h.inv
          hwrites happly
        exact ⟨hinv, d.grow_of_rely hrely, fun _ => hrely, hpost⟩
    obtain ⟨hinv, hgrow, hrely, hpost⟩ := hdone
    exact ⟨h.finish (.ok result) hinv hgrow hrely, hgrow, Or.inr ⟨seen, result, finish_self, hpost⟩⟩
  | failed action seen prog error hrunning =>
    refine ⟨h.finish (.error error) h.inv (d.grow_refl _) fun _ => d.rely_refl _,
      d.grow_refl _, Or.inl ⟨rfl, fun seen' result hended => ?_⟩⟩
    cases finish_self.symm.trans hended

variable {init : S → Prop} {programs : T → Prog S W E R} {trace : List (Action E T)}

theorem sound_of_init (hinit : ∀ s, init s → d.inv s)
    (hprograms : ∀ t s, (programs t).Free apply d (posts t) [] s)
    (h : (machine apply init programs).init state) : Sound apply d posts state := by
  obtain ⟨hstore, hholder, hthreads⟩ := h
  refine ⟨hinit _ hstore, fun t hheld => ?_, fun t seen prog _ hrunning => ?_⟩
  · cases hholder.symm.trans hheld
  · cases (hthreads t).symm.trans hrunning
    exact hprograms t _

theorem run_of_foldlM (h : trace.foldlM (State.exec apply) state = some state') :
    (machine apply init programs).Run state trace state' := by
  induction trace generalizing state with
  | nil =>
    cases h
    exact .nil _
  | cons action trace ih =>
    rw [List.foldlM_cons] at h
    obtain ⟨mid, hmid, hrest⟩ := bind_eq_some_iff.mp h
    exact .cons hmid (ih hrest)

/-- A step that is looked at before it is taken. -/
def State.guarded (apply : W → S → Except E S) (clean : W → S → Bool) (state : State S W E R T)
    (action : Action E T) : Option (State S W E R T) :=
  match state.threads action.thread with
  | .running _ (.commit writes _) =>
    if clean writes state.store then state.exec apply action else none
  | _ => state.exec apply action

theorem State.guarded_exec {clean : W → S → Bool} (hclean : ∀ w s, clean w s = true → d.clean w s)
    (h : state.guarded apply clean action = some state') :
    Clean d state action ∧ state.exec apply action = some state' := by
  cases action with
  | abort t error =>
    refine ⟨trivial, ?_⟩
    unfold State.guarded at h
    split at h
    · split at h
      · exact h
      · cases h
    · exact h
  | run t =>
    unfold State.guarded at h
    split at h
    · rename_i seen writes result hrunning
      split at h
      · rename_i hwrites
        refine ⟨fun seen' writes' result' hrunning' => ?_, h⟩
        cases hrunning.symm.trans hrunning'
        exact hclean _ _ hwrites
      · cases h
    · rename_i hother
      exact ⟨fun seen writes result hrunning => absurd hrunning (hother seen writes result), h⟩

theorem run_of_guarded {clean : W → S → Bool} (hclean : ∀ w s, clean w s = true → d.clean w s)
    (h : trace.foldlM (State.guarded apply clean) state = some state') :
    ((machine apply init programs).restrict (Clean d)).Run state trace state' := by
  induction trace generalizing state with
  | nil =>
    cases h
    exact .nil _
  | cons action trace ih =>
    rw [List.foldlM_cons] at h
    obtain ⟨mid, hmid, hrest⟩ := bind_eq_some_iff.mp h
    exact .cons (State.guarded_exec hclean hmid) (ih hrest)

end

end InvestmentPlatform.ReadCommitted
