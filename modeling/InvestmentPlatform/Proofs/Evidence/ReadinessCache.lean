/-
When the evidence-only cache answers with what is in the database.

An entry is trusted as long as its generation is the repository's.  So the cache is right exactly
as long as no write executes under an entry of the current generation: either the write never
moved the generation, or it moved it before the entry was stored.
-/
import InvestmentPlatform.Evidence.ReadinessCache

namespace InvestmentPlatform.Evidence.ReadinessCache

open Option Dict

variable {I C : Type}

/-- The entries of the cache, and how far they are to be trusted. -/
def Trusted (evidence : I → Nat) (generation : Nat) (instrument : I) (entry : Entry) : Prop :=
  entry.generation ≤ generation ∧
    (entry.generation = generation → entry.result.version = evidence instrument)

section

variable [DecidableEq I]

/-- What an evidence-only read is answered with is what a fresh assessment would classify. -/
def Current (state : State I C) : Prop :=
  ∀ read result, state.cached read = some result →
    result.version = state.evidence read.instrument

/-- An operation that changes evidence does not execute under an entry of the current
generation. -/
def Spares (state : State I C) (action : Action I C) : Prop :=
  ∀ clock caller rest operation instrument entry, action = .execute clock →
    state.running = none → state.queue = caller :: rest →
    state.callers caller = .waiting (.persist operation instrument) →
    state.cache.get? instrument = some entry → entry.generation ≠ state.generation

/-- What every run keeps: the entries can be trusted, and what was just assessed is current. -/
structure Inv (state : State I C) : Prop where
  entries : ∀ instrument entry, state.cache.get? instrument = some entry →
    Trusted state.evidence state.generation instrument entry
  assessed : ∀ running read, state.running = some running → running.request = .assess read →
    running.result.version = state.evidence read.instrument

variable {state state' : State I C}

theorem Inv.current (h : Inv state) : Current state := by
  intro read result hcached
  unfold State.cached at hcached
  split at hcached
  · obtain ⟨entry, hentry, hresult⟩ := bind_eq_some_iff.mp hcached
    split at hresult
    · rename_i hvalid
      cases hresult
      exact (h.entries _ entry hentry).2 hvalid.1
    · cases hresult
  · cases hcached

/-- An entry of the current generation is what a read without a time is answered with. -/
theorem cached_of_entry {instrument : I} {entry : Entry}
    (hentry : state.cache.get? instrument = some entry)
    (hgeneration : entry.generation = state.generation) :
    state.cached ⟨instrument, true, none⟩ = some entry.result := by
  rw [State.cached, if_pos rfl, hentry, bind_some]
  exact if_pos ⟨hgeneration, Or.inl rfl⟩

/-! ### The cache by itself -/

/-- Every entry of the second cache is one of the first. -/
def Within (cache cache' : Dict I Entry) : Prop :=
  ∀ instrument entry, cache'.get? instrument = some entry → cache.get? instrument = some entry

theorem within_pop (cache : Dict I Entry) (instrument : I) :
    Within cache (cache.pop instrument) := by
  intro j entry hentry
  rw [get?_pop] at hentry
  split at hentry
  · cases hentry
  · exact hentry

theorem within_foldl_pop (cache : Dict I Entry) (keys : List I) :
    Within cache (keys.foldl (fun cache key => cache.pop key) cache) := by
  intro j entry hentry
  rw [get?_foldl_pop] at hentry
  split at hentry
  · cases hentry
  · exact hentry

/-- The state with entries left out or the queue, the callers and the slot otherwise. -/
theorem Inv.within (h : Inv state) (hevidence : state'.evidence = state.evidence)
    (hgeneration : state'.generation = state.generation)
    (hcache : Within state.cache state'.cache)
    (hrunning : ∀ running read, state'.running = some running →
      running.request = .assess read → running.result.version = state.evidence read.instrument) :
    Inv state' := by
  refine ⟨fun instrument entry hentry => ?_, fun running read hrun hread => ?_⟩
  · rw [hevidence, hgeneration]
    exact h.entries instrument entry (hcache instrument entry hentry)
  · rw [hevidence]
    exact hrunning running read hrun hread

theorem Inv.touch (h : Inv state) (instrument : I) : Inv (state.touch instrument) := by
  unfold State.touch
  split
  · exact h
  · rename_i entry hentry
    refine h.within rfl rfl (fun j other hother => ?_) h.assessed
    dsimp only at hother
    rw [get?_set] at hother
    split at hother
    · rename_i hj
      cases hother
      rw [hj]
      exact hentry
    · exact within_pop _ _ j other hother

/-- A result that is current is stored under the current generation. -/
theorem Inv.settle (h : Inv state) {read : Read I} {result : Result}
    (hresult : result.version = state.evidence read.instrument) : Inv (state.settle read result) := by
  unfold State.settle
  split
  · have hset : Inv { state with
        cache := state.cache.set read.instrument ⟨result, state.generation⟩ } := by
      refine ⟨fun instrument entry hentry => ?_, h.assessed⟩
      dsimp only at hentry
      rw [get?_set] at hentry
      split at hentry
      · rename_i hsame
        cases hentry
        rw [hsame]
        exact ⟨Nat.le_refl _, fun _ => hresult⟩
      · exact h.entries instrument entry hentry
    exact hset.within rfl rfl (within_foldl_pop _ _) hset.assessed
  · exact h.within rfl rfl (within_pop _ _) h.assessed

end

/-! ### One step -/

section

variable [DecidableEq I] [DecidableEq C] {state state' : State I C}

theorem Inv.exec (h : Inv state) {action : Action I C} (hspares : Spares state action)
    (hexec : state.exec action = some state') : Inv state' := by
  cases action with
  | read caller read =>
    simp only [State.exec] at hexec
    split at hexec
    · split at hexec
      · rw [← some.inj hexec]
        have htouched := h.touch read.instrument
        exact htouched.within rfl rfl (fun _ _ hentry => hentry) htouched.assessed
      · rw [← some.inj hexec]
        exact h.within rfl rfl (fun _ _ hentry => hentry) h.assessed
    · cases hexec
  | assess caller =>
    simp only [State.exec] at hexec
    split at hexec
    · rw [← some.inj hexec]
      exact h.within rfl rfl (fun _ _ hentry => hentry) h.assessed
    · cases hexec
  | persist caller operation instrument =>
    simp only [State.exec] at hexec
    split at hexec
    · rw [← some.inj hexec]
      refine ⟨fun j entry hentry => ?_, h.assessed⟩
      obtain ⟨hle, hversion⟩ := h.entries j entry hentry
      -- The generation stays, or it leaves every entry behind.
      refine ⟨Nat.le_trans hle (Nat.le_add_right _ _), fun hsame => ?_⟩
      dsimp only at hsame
      split at hsame
      · omega
      · exact hversion hsame
    · cases hexec
  | execute clock =>
    simp only [State.exec] at hexec
    split at hexec
    · rename_i caller rest hrunning hqueue
      split at hexec
      · rename_i request hcaller
        rw [← some.inj hexec]
        cases request with
        | assess read =>
          refine h.within rfl rfl (fun _ _ hentry => hentry) ?_
          rintro running read' ⟨⟩ ⟨⟩
          rfl
        | persist operation instrument =>
          refine ⟨fun j entry hentry => ?_, ?_⟩
          · obtain ⟨hle, hversion⟩ := h.entries j entry hentry
            refine ⟨hle, fun hsame => ?_⟩
            by_cases hj : j = instrument
            · subst hj
              exact absurd hsame (hspares clock caller rest operation j entry rfl hrunning hqueue
                hcaller hentry)
            · rw [hversion hsame]
              exact (Function.update_of_ne hj _ _).symm
          · rintro running read' ⟨⟩ hread
            cases hread
      · cases hexec
    · cases hexec
  | resume =>
    simp only [State.exec] at hexec
    split at hexec
    · cases hexec
    · rename_i running hrunning
      have hidle : Inv { state with running := none } :=
        h.within rfl rfl (fun _ _ hentry => hentry) fun _ _ hnone => nomatch hnone
      split at hexec
      · rw [← some.inj hexec]
        exact hidle.within rfl rfl (fun _ _ hentry => hentry) hidle.assessed
      · split at hexec
        · rename_i read hread
          rw [← some.inj hexec]
          have hsettled := hidle.settle (h.assessed running read hrunning hread)
          exact hsettled.within rfl rfl (fun _ _ hentry => hentry) hsettled.assessed
        · rw [← some.inj hexec]
          exact hidle.within rfl rfl (fun _ _ hentry => hentry) hidle.assessed
  | cancel caller =>
    simp only [State.exec] at hexec
    split at hexec
    · rw [← some.inj hexec]
      exact h.within rfl rfl (fun _ _ hentry => hentry) h.assessed
    · split at hexec
      · rw [← some.inj hexec]
        exact h.within rfl rfl (fun _ _ hentry => hentry) h.assessed
      · obtain ⟨running, hrunning, hstate⟩ := map_eq_some_iff.mp hexec
        split at hstate
        · rw [← hstate]
          refine h.within rfl rfl (fun _ _ hentry => hentry) ?_
          rintro running' read ⟨⟩ hread
          exact h.assessed running read hrunning hread
        · rw [← hstate]
          exact h
    · cases hexec
  | forget instrument =>
    simp only [State.exec] at hexec
    rw [← some.inj hexec]
    exact h.within rfl rfl (within_pop _ _) h.assessed

/-- **The cache answers with what a fresh assessment would classify, after a step, exactly when
the step spares it.**  So it does in every run whose steps all do, and the first step that does
not leaves an entry behind that is stale and will be served. -/
theorem current_iff (h : (machine.restrict Spares).Reachable state) :
    Current state ∧ ∀ action state', machine.step state action state' →
      (Current state' ↔ Spares state action) := by
  have hinv : Inv state := by
    refine h.invariant (I := Inv) ?_ ?_
    · rintro _ ⟨evidence, rfl⟩
      exact ⟨fun _ _ hentry => (nomatch hentry), fun _ _ hrunning => nomatch hrunning⟩
    · rintro s action s' hs ⟨hspares, hstep⟩
      exact Inv.exec hs hspares hstep
  refine ⟨hinv.current, fun action state' hstep => ⟨?_, fun hspares => ?_⟩⟩
  · rintro hcurrent clock caller rest operation instrument entry rfl hrunning hqueue hcaller
      hentry hgeneration
    have hexec : state.exec (.execute clock) = some state' := hstep
    simp only [State.exec, hrunning, hqueue, hcaller, State.execute, Option.some.injEq] at hexec
    subst hexec
    -- The entry was right before the write, and it is still of the current generation.
    have hbefore := (hinv.entries instrument entry hentry).2 hgeneration
    have hafter := hcurrent ⟨instrument, true, none⟩ entry.result
      (cached_of_entry hentry hgeneration)
    dsimp only at hafter
    rw [Function.update_self, hbefore] at hafter
    exact absurd hafter (Nat.succ_ne_self _).symm
  · exact (hinv.exec hspares hstep).current

end

/-! ### Three runs -/

/-- The runs are about one instrument. -/
def sampleRead : Read Nat := ⟨0, true, none⟩

/-- A read that stores its result. -/
def readThrough (caller : Nat) : List (Action Nat Nat) :=
  [.read caller sampleRead, .assess caller, .execute 0, .resume]

def sampleStart : State Nat Nat := start fun _ => 0

theorem step_get {state : State Nat Nat} (h : (machine.restrict Spares).Reachable state)
    (action : Action Nat Nat) (hspares : Spares state action)
    (hsome : (state.exec action).isSome) :
    (machine.restrict Spares).Reachable ((state.exec action).get hsome) :=
  h.step (l := action) ⟨hspares, (some_get hsome).symm⟩

theorem spares_of_not_execute {state : State Nat Nat} {action : Action Nat Nat}
    (h : ∀ clock, action ≠ .execute clock) : Spares state action :=
  fun clock _ _ _ _ _ hexecute => absurd hexecute (h clock)

theorem spares_of_assess {state : State Nat Nat} {caller : Nat} {read : Read Nat} (clock : Int)
    (hqueue : state.queue = [caller]) (hcaller : state.callers caller = .waiting (.assess read)) :
    Spares state (.execute clock) := by
  intro _ first rest operation instrument entry _ _ hfirst hpersist
  rw [hqueue] at hfirst
  cases hfirst
  rw [hcaller] at hpersist
  cases hpersist

/-- The state after a list of steps. -/
def after (actions : List (Action Nat Nat)) (h : (actions.foldlM State.exec sampleStart).isSome) :
    State Nat Nat :=
  (actions.foldlM State.exec sampleStart).get h

theorem after_reachable (actions : List (Action Nat Nat))
    (h : (actions.foldlM State.exec sampleStart).isSome) : machine.Reachable (after actions h) := by
  have hrun : ∀ (actions : List (Action Nat Nat)) (s s' : State Nat Nat), machine.Reachable s →
      actions.foldlM State.exec s = some s' → machine.Reachable s' := by
    intro actions
    induction actions with
    | nil =>
      rintro s s' hs ⟨⟩
      exact hs
    | cons action actions ih =>
      intro s s' hs hexec
      obtain ⟨mid, hmid, hrest⟩ := bind_eq_some_iff.mp hexec
      exact ih mid s' (hs.step hmid) hrest
  exact hrun actions sampleStart _ (.init ⟨_, rfl⟩) (some_get h).symm

/-- The law at work: a write that is dispatched and executes after a read was stored. -/
theorem current_iff_sample :
    ∃ state : State Nat Nat, state.cached sampleRead = some ⟨0, 0⟩ ∧ Current state ∧
      ∀ state', machine.step state (.persist 1 .document 0) state' → Current state' := by
  have hstart : (machine.restrict Spares).Reachable sampleStart := .init ⟨_, rfl⟩
  have hopening := step_get hstart (.read 0 sampleRead) (spares_of_not_execute nofun) rfl
  have hqueued := step_get hopening (.assess 0) (spares_of_not_execute nofun) rfl
  have hassessed := step_get hqueued (.execute 0) (spares_of_assess 0 rfl rfl) rfl
  have hstored := step_get hassessed .resume (spares_of_not_execute nofun) rfl
  have hlaw := current_iff hstored
  exact ⟨_, rfl, hlaw.1, fun state' hstep =>
    (hlaw.2 _ state' hstep).mpr (spares_of_not_execute nofun)⟩

/-- The statement facts of Yahoo are written without the generation being moved. -/
def unnoticed : State Nat Nat :=
  after (readThrough 0 ++ [.persist 1 .yahooStatementFacts 0, .execute 1, .resume]) rfl

/-- A document is dispatched while the assessment runs, and written after it was stored. -/
def overtaken : State Nat Nat :=
  after [.read 0 sampleRead, .assess 0, .execute 0, .persist 1 .document 0, .resume, .execute 1,
    .resume] rfl

/-- **A stale classification is served**, in both ways: the evidence is at its first version, and
the next read is answered with the one before. -/
theorem stale_is_served :
    (machine.Reachable unnoticed ∧ unnoticed.cached sampleRead = some ⟨0, 0⟩ ∧
      unnoticed.evidence 0 = 1) ∧
    (machine.Reachable overtaken ∧ overtaken.cached sampleRead = some ⟨0, 0⟩ ∧
      overtaken.evidence 0 = 1) :=
  ⟨⟨after_reachable _ _, rfl, rfl⟩, after_reachable _ _, rfl, rfl⟩

end InvestmentPlatform.Evidence.ReadinessCache
