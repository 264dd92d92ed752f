/-
What a run of the fact store keeps.

A step changes a row in one of three ways, and each proof below is about one of them: a fact is
written over it, because it prevails; it is deleted, because a scope of its own document
releases it; or a call is repeated, and finds every fact settled.
-/
import InvestmentPlatform.Evidence.FinancialFacts

namespace InvestmentPlatform.Evidence

open Fallible List Dict

/-! ### Precedence -/

theorem factSourceAuthority_inj {t t' : FactSourceTier}
    (h : factSourceAuthority t = factSourceAuthority t') : t = t' := by
  cases t <;> cases t' <;> first | rfl | cases h

variable {incoming : FinancialFact}

/-- What the store knows when the incoming fact is accepted over one that has a value. -/
theorem mergeFact_incoming {existing : FinancialFact} {allow : Bool}
    (h : mergeFact (some existing) incoming allow = .ok .incoming)
    (hvalue : existing.value.value ≠ none) :
    existing.key = incoming.key ∧
      (factSourceAuthority existing.sourceTier < factSourceAuthority incoming.sourceTier ∨
        allow = true ∧ existing.sourceTier = .officialNse ∧
          incoming.sourceTier = .officialNse) := by
  unfold mergeFact at h
  split at h
  · cases h
  · simp only [hvalue, if_false] at h
    split at h
    · cases h
    · rename_i hkey
      refine ⟨not_not.mp hkey, ?_⟩
      split at h
      · rename_i hlt
        exact Or.inl hlt
      · split at h
        · cases h
        · rename_i hge hle
          split at h
          · rename_i hboth
            have htier := factSourceAuthority_inj
              (Nat.le_antisymm (Nat.not_lt.mp hle) (Nat.not_lt.mp hge))
            exact Or.inr ⟨hboth.1, htier.trans hboth.2, hboth.2⟩
          · cases h

theorem mergeFact_incoming_value {existing : Option FinancialFact}
    {allow : Bool} (h : mergeFact existing incoming allow = .ok .incoming) :
    incoming.value.value ≠ none := by
  unfold mergeFact at h
  split at h
  · cases h
  · assumption

/-- Over a fact with the same key the merge does not raise. -/
theorem mergeFact_ok {existing : FinancialFact} (allow : Bool)
    (hkey : existing.key = incoming.key) :
    ∃ accepted, mergeFact (some existing) incoming allow = .ok accepted := by
  unfold mergeFact
  simp only [hkey, ne_eq, not_true, if_false]
  split_ifs
  all_goals exact ⟨_, rfl⟩

/-! ### Rows -/

namespace FinancialFact

variable {fact : FinancialFact}

theorem persisted_persisted (fact : FinancialFact) : fact.persisted.persisted = fact.persisted := by
  have htext : ∀ text, persistedText (persistedText text) = persistedText text := by
    intro text
    simp [persistedText, Option.filter_filter]
  have htime : ∀ time : Option Timestamp,
      (time.map Timestamp.persisted).map Timestamp.persisted = time.map Timestamp.persisted := by
    intro time
    cases time <;> rfl
  have hnumber : ∀ value : Option FactNumber,
      (value.map FactNumber.persisted).map FactNumber.persisted =
        value.map FactNumber.persisted := by
    intro value
    cases value <;> rfl
  simp only [persisted, FinancialFactKey.persisted, htext, htime, hnumber]
  rfl

theorem compared_compared (fact : FinancialFact) : fact.compared.compared = fact.compared := by
  obtain ⟨key, value, tier, provider, identity, mode⟩ := fact
  simp only [compared, Option.map_map]
  rfl

theorem persisted_value (h : fact.value.value ≠ none) : fact.persisted.value.value ≠ none := by
  rw [persisted]
  exact fun hnone => h (Option.map_eq_none_iff.mp hnone)

theorem IsDurable.key (h : fact.IsDurable) : fact.key.persisted = fact.key :=
  congrArg FinancialFact.key h

/-- A durable fact is found equal to the row it left. -/
theorem IsDurable.compared_persisted (h : fact.IsDurable) :
    fact.persisted.compared = fact.compared := by
  rw [h]
  exact compared_compared fact

end FinancialFact

namespace FactStore

variable {store : FactStore}

theorem WellFormed.writeFinancialFact (h : store.WellFormed) {fact : FinancialFact}
    (hvalue : fact.value.value ≠ none) : (store.writeFinancialFact fact).WellFormed := by
  intro key row hget
  rw [FactStore.writeFinancialFact, get?_set] at hget
  by_cases hkey : key = fact.key.persisted
  · rw [if_pos hkey] at hget
    cases hget
    exact ⟨hkey.symm, FinancialFact.persisted_value hvalue, fact.persisted_persisted⟩
  · rw [if_neg hkey] at hget
    exact h key row hget

/-! ### One incoming fact -/

namespace Reconciliation

variable {call : Reconciliation} {state state' : Nat × FactStore} {fact : FinancialFact}

/-- The row was left as it was, or the incoming fact was written over it. -/
theorem reconcileFact_cases (h : call.reconcileFact state fact = .ok state') : state' = state ∨
      mergeFact (state.2.get? fact.key.persisted) fact
          (call.allowsCorrection (state.2.get? fact.key.persisted) fact) = .ok .incoming ∧
        state' = (state.1 + 1, state.2.writeFinancialFact fact) := by
  rw [reconcileFact, bind_eq_ok] at h
  obtain ⟨accepted, hmerge, h⟩ := h
  cases accepted with
  | existing =>
    cases h
    exact Or.inl rfl
  | incoming =>
    dsimp only at h
    split at h
    · cases h
      exact Or.inl rfl
    · cases h
      exact Or.inr ⟨hmerge, rfl⟩

theorem reconcileFact_wellFormed (hstore : state.2.WellFormed)
    (h : call.reconcileFact state fact = .ok state') : state'.2.WellFormed := by
  rcases reconcileFact_cases h with rfl | ⟨hmerge, rfl⟩
  · exact hstore
  · exact hstore.writeFinancialFact (mergeFact_incoming_value hmerge)

/-- Only the row of the fact is touched. -/
theorem reconcileFact_other (h : call.reconcileFact state fact = .ok state')
    {key : FinancialFactKey} (hkey : key ≠ fact.key.persisted) :
    state'.2.get? key = state.2.get? key := by
  rcases reconcileFact_cases h with rfl | ⟨-, rfl⟩
  · rfl
  · exact get?_set_ne _ _ hkey

theorem reconcileFact_isSome (h : call.reconcileFact state fact = .ok state')
    {key : FinancialFactKey} (hkey : (state.2.get? key).isSome) :
    (state'.2.get? key).isSome := by
  rcases reconcileFact_cases h with rfl | ⟨-, rfl⟩
  · exact hkey
  · rw [writeFinancialFact, get?_set]
    split
    · rfl
    · exact hkey

/-! ### A call that is repeated -/

/-- The call would find nothing to write for the fact. -/
def Settled (call : Reconciliation) (store : FactStore) (fact : FinancialFact) : Prop :=
  ∀ written, call.reconcileFact (written, store) fact = .ok (written, store)

theorem Settled.congr {store store' : FactStore} (h : call.Settled store fact)
    (hget : store'.get? fact.key.persisted = store.get? fact.key.persisted) :
    call.Settled store' fact := by
  intro written
  have hold := h written
  rw [reconcileFact] at hold ⊢
  simp only [hget]
  obtain ⟨accepted, hmerge, hold⟩ := bind_eq_ok.mp hold
  refine bind_eq_ok.mpr ⟨accepted, hmerge, ?_⟩
  cases accepted with
  | existing => rfl
  | incoming =>
    dsimp only at hold ⊢
    split at hold
    · rename_i hsame
      rw [if_pos hsame]
    · rename_i hnew
      have hcount := congrArg Prod.fst (Except.ok.inj hold)
      exact absurd hcount (Nat.succ_ne_self written)

/-- Once its turn is over, a durable fact is settled. -/
theorem settled_reconcileFact (hdurable : fact.IsDurable)
    (h : call.reconcileFact state fact = .ok state') : call.Settled state'.2 fact := by
  intro written
  rw [reconcileFact, bind_eq_ok] at h
  obtain ⟨accepted, hmerge, h⟩ := h
  cases accepted with
  | existing =>
    cases h
    exact bind_eq_ok.mpr ⟨.existing, hmerge, rfl⟩
  | incoming =>
    dsimp only at h
    split at h
    · rename_i hsame
      cases h
      refine bind_eq_ok.mpr ⟨.incoming, hmerge, ?_⟩
      exact if_pos hsame
    · cases h
      -- The row is now the fact itself, so whichever of the two is accepted, nothing is written.
      have hget : (state.2.writeFinancialFact fact).get? fact.key.persisted =
          some fact.persisted := get?_set_self _ _ _
      have hkey : fact.persisted.key = fact.key := hdurable.key
      rw [reconcileFact]
      simp only [hget]
      obtain ⟨accepted, hagain⟩ :=
        mergeFact_ok (call.allowsCorrection (some fact.persisted) fact) hkey
      refine bind_eq_ok.mpr ⟨accepted, hagain, ?_⟩
      cases accepted with
      | existing => rfl
      | incoming => exact if_pos (congrArg some hdurable.compared_persisted)

theorem foldlM_settled {store : FactStore} {facts : List FinancialFact}
    (h : ∀ fact ∈ facts, call.Settled store fact) :
    facts.foldlM call.reconcileFact (0, store) = .ok (0, store) := by
  induction facts with
  | nil => rfl
  | cons fact facts ih =>
    rw [foldlM_cons, h fact mem_cons_self]
    exact ih fun f hf => h f (mem_cons_of_mem fact hf)

/-! ### The loop over the incoming facts -/

theorem foldlM_wellFormed {facts : List FinancialFact} (hstore : state.2.WellFormed)
    (h : facts.foldlM call.reconcileFact state = .ok state') : state'.2.WellFormed :=
  foldlM_rec (fun _ state => state.2.WellFormed)
    (fun _ _ _ _ hwf hstep => reconcileFact_wellFormed hwf hstep) hstore h

theorem foldlM_isSome {facts : List FinancialFact}
    (h : facts.foldlM call.reconcileFact state = .ok state') {key : FinancialFactKey}
    (hkey : (state.2.get? key).isSome) : (state'.2.get? key).isSome :=
  foldlM_rec (fun _ state => (state.2.get? key).isSome)
    (fun _ _ _ _ hsome hstep => reconcileFact_isSome hstep hsome) hkey h

/-- A row no incoming fact stands for is not touched. -/
theorem foldlM_other {facts : List FinancialFact}
    (h : facts.foldlM call.reconcileFact state = .ok state') {key : FinancialFactKey}
    (hkey : key ∉ facts.map fun fact => fact.key.persisted) :
    state'.2.get? key = state.2.get? key := by
  refine (foldlM_rec (fun rest current => (key ∉ rest.map fun fact => fact.key.persisted) ∧
    current.2.get? key = state.2.get? key) ?_ ⟨hkey, rfl⟩ h).2
  intro fact rest current next hcurrent hstep
  rw [map_cons, mem_cons, not_or] at hcurrent
  exact ⟨hcurrent.1.2, (reconcileFact_other hstep hcurrent.1.1).trans hcurrent.2⟩

theorem foldlM_all_settled {facts : List FinancialFact} (hdurable : ∀ fact ∈ facts, fact.IsDurable)
    (hnodup : (facts.map FinancialFact.key).Nodup)
    (h : facts.foldlM call.reconcileFact state = .ok state') :
    ∀ fact ∈ facts, call.Settled state'.2 fact := by
  induction facts generalizing state with
  | nil => exact fun fact hfact => absurd hfact not_mem_nil
  | cons first rest ih =>
    rw [foldlM_cons, bind_eq_ok] at h
    obtain ⟨next, hfirst, hrest⟩ := h
    rw [map_cons, nodup_cons] at hnodup
    have hdurable' : ∀ fact ∈ rest, fact.IsDurable := fun fact hfact =>
      hdurable fact (mem_cons_of_mem first hfact)
    intro fact hfact
    rcases mem_cons.mp hfact with rfl | hfact
    · refine (settled_reconcileFact (hdurable fact hfact) hfirst).congr (foldlM_other hrest ?_)
      rw [(hdurable fact hfact).key]
      intro hmem
      obtain ⟨other, hother, hkey⟩ := mem_map.mp hmem
      rw [(hdurable' other hother).key] at hkey
      exact hnodup.1 (mem_map.mpr ⟨other, hother, hkey⟩)
    · exact ih hdurable' hnodup.2 hrest fact hfact

/-- An incoming fact prevails over the fact of another source. -/
def Prevails (call : Reconciliation) (existing incoming : FinancialFact) : Prop :=
  factSourceAuthority existing.sourceTier < factSourceAuthority incoming.sourceTier ∨
    call.allowOfficialRevision = true ∧ newerOfficialDisclosure existing incoming = true

/-- What the loop leaves in a row that another source owned. -/
theorem foldlM_foreign {key : FinancialFactKey} {row : FinancialFact} (hstore : state.2.WellFormed)
    (hrow : state.2.get? key = some row) (hforeign : row.sourceIdentity ≠ call.sourceIdentity)
    (hnodup : (call.facts.map FinancialFact.key).Nodup)
    (h : call.facts.foldlM call.reconcileFact state = .ok state') :
    state'.2.get? key = some row ∨ ∃ fact ∈ call.facts, fact.key.persisted = key ∧
      state'.2.get? key = some fact.persisted ∧ call.Prevails row fact := by
  let P (rest : List FinancialFact) (current : Nat × FactStore) : Prop :=
    current.2.WellFormed ∧ (rest.map FinancialFact.key).Nodup ∧ rest ⊆ call.facts ∧
      (current.2.get? key = some row ∨ key ∉ rest.map FinancialFact.key ∧
        ∃ fact ∈ call.facts, fact.key.persisted = key ∧
          current.2.get? key = some fact.persisted ∧ call.Prevails row fact)
  have hend : P [] state' := by
    refine foldlM_rec P ?_ ⟨hstore, hnodup, List.Subset.refl _, Or.inl hrow⟩ h
    intro fact rest current next ⟨hwf, hdistinct, hsub, hkept⟩ hstep
    rw [map_cons, nodup_cons] at hdistinct
    refine ⟨reconcileFact_wellFormed hwf hstep, hdistinct.2,
      fun f hf => hsub (mem_cons_of_mem fact hf), ?_⟩
    by_cases hkey : key = fact.key.persisted
    · rcases reconcileFact_cases hstep with rfl | ⟨hmerge, rfl⟩
      · rcases hkept with hsame | ⟨hfresh, hreplaced⟩
        · exact Or.inl hsame
        · rw [map_cons, mem_cons, not_or] at hfresh
          exact Or.inr ⟨hfresh.2, hreplaced⟩
      · -- The fact was accepted over the row, so the row carries its very key.
        rw [← hkey] at hmerge
        rcases hkept with hsame | ⟨hfresh, other, -, -, hother, -⟩
        · rw [hsame] at hmerge
          obtain ⟨hrowkey, hvalue, -⟩ := hwf key row hsame
          obtain ⟨hsamekey, hwins⟩ := mergeFact_incoming hmerge hvalue
          refine Or.inr ⟨?_, fact, hsub mem_cons_self, hkey.symm, ?_, ?_⟩
          · rw [← hrowkey, hsamekey]
            exact hdistinct.1
          · rw [hkey]
            exact get?_set_self _ _ _
          · rcases hwins with hlt | ⟨hallow, -, -⟩
            · exact Or.inl hlt
            · simp only [allowsCorrection, Option.any_some, Bool.and_eq_true, Bool.or_eq_true,
                decide_eq_true_eq] at hallow
              rcases hallow.2 with howned | hrevision
              · exact absurd howned hforeign
              · exact Or.inr hrevision
        · rw [hother] at hmerge
          obtain ⟨hrowkey, hvalue, -⟩ := hwf key other.persisted hother
          obtain ⟨hsamekey, -⟩ := mergeFact_incoming hmerge hvalue
          rw [map_cons, mem_cons, not_or] at hfresh
          exact absurd (hrowkey.symm.trans hsamekey) hfresh.1
    · rw [reconcileFact_other hstep hkey]
      rcases hkept with hsame | ⟨hfresh, hreplaced⟩
      · exact Or.inl hsame
      · rw [map_cons, mem_cons, not_or] at hfresh
        exact Or.inr ⟨hfresh.2, hreplaced⟩
  rcases hend.2.2.2 with hsame | ⟨-, hreplaced⟩
  · exact Or.inl hsame
  · exact Or.inr hreplaced

/-! ### Deletion -/

theorem get?_deleteRow (store : FactStore) (key k : FinancialFactKey) :
    (call.deleteRow store key).get? k =
      if k = key ∧ (store.get? key).any (fun row => row.sourceIdentity = call.sourceIdentity) then
        none
      else store.get? k := by
  unfold deleteRow
  by_cases howned : (store.get? key).any fun row => row.sourceIdentity = call.sourceIdentity
  · rw [if_pos howned, get?_pop]
    simp [howned]
  · rw [if_neg howned]
    simp [howned]

/-- A listed row of the source is gone after the deletions, and every other row is as it was. -/
theorem get?_foldl_deleteRow (keys : List FinancialFactKey) (store : FactStore)
    (k : FinancialFactKey) :
    (keys.foldl call.deleteRow store).get? k =
      if k ∈ keys ∧ (store.get? k).any (fun row => row.sourceIdentity = call.sourceIdentity) then
        none
      else store.get? k := by
  induction keys generalizing store with
  | nil => simp
  | cons key keys ih =>
    rw [foldl_cons, ih, get?_deleteRow]
    by_cases hk : k = key
    · subst hk
      by_cases howned : (store.get? k).any fun row => row.sourceIdentity = call.sourceIdentity
      · simp [howned]
      · simp [howned]
    · simp [hk]

/-- A scope of the call releases the row: it is an official fact of the document, its key is not
among the incoming facts and lies within a scope that an official incoming fact vouches for, or
within one that is invalidated. -/
structure Deletes (call : Reconciliation) (key : FinancialFactKey) (row : FinancialFact) :
    Prop where
  instrument : key.instrumentId = call.instrumentId
  owned : row.sourceIdentity = call.sourceIdentity
  official : row.isOfficialNse = true
  absent : key ∉ call.facts.map FinancialFact.key
  scope : ∃ scope ∈ call.completeScopes,
    (scope.contains key = true ∧
      ∃ fact ∈ call.facts, scope.contains fact.key = true ∧ fact.isOfficialNse = true) ∨
    scope.invalidates key = true

theorem mem_obsolete {store : FactStore} {key : FinancialFactKey} :
    key ∈ call.obsolete (call.owned store) ↔
      ∃ row, store.get? key = some row ∧ call.Deletes key row := by
  simp only [obsolete, owned, mem_map, mem_filter, decide_eq_true_eq, releases,
    isAuthorized, any_eq_true, Bool.or_eq_true, Bool.and_eq_true]
  constructor
  · rintro ⟨⟨k, row⟩, ⟨⟨hitem, hinstrument, howned⟩, habsent, hofficial, scope, hscope, h⟩, rfl⟩
    refine ⟨row, get?_of_mem hitem, hinstrument, howned, hofficial, ?_, scope, hscope, ?_⟩
    · rw [mem_map]
      exact habsent
    · rcases h with ⟨⟨fact, hfact, hin⟩, hcontains⟩ | hinvalid
      · exact Or.inl ⟨hcontains, fact, hfact, hin⟩
      · exact Or.inr hinvalid
  · rintro ⟨row, hrow, hdel⟩
    obtain ⟨scope, hscope, h⟩ := hdel.scope
    refine ⟨(key, row), ⟨⟨mem_items_of_get? hrow, hdel.instrument, hdel.owned⟩, ?_,
      hdel.official, scope, hscope, ?_⟩, rfl⟩
    · have habsent := hdel.absent
      rw [mem_map] at habsent
      exact habsent
    · rcases h with ⟨hcontains, fact, hfact, hin⟩ | hinvalid
      · exact Or.inl ⟨⟨fact, hfact, hin⟩, hcontains⟩
      · exact Or.inr hinvalid

end Reconciliation

/-! ### A whole call -/

/-- The transaction of a reconciliation whose arguments were found valid. -/
def reconcileAll (store : FactStore) (call : Reconciliation) :
    Except FactError (Nat × FactStore) := do
  let reconciled ← call.facts.foldlM call.reconcileFact (0, store)
  let obsolete := call.obsolete (call.owned store)
  .ok (reconciled.1 + obsolete.length, obsolete.foldl call.deleteRow reconciled.2)

/-- A call that returns had nothing to do, whatever the store, or carried distinct facts and ran
its transaction. -/
theorem reconcile_cases {call : Reconciliation} {result : Nat × FactStore}
    (h : store.reconcileFinancialFactsForSource call = .ok result) :
    (∀ s : FactStore, s.reconcileFinancialFactsForSource call = .ok (0, s)) ∨
      (call.facts.map FinancialFact.key).Nodup ∧
        ∀ s : FactStore, s.reconcileFinancialFactsForSource call = s.reconcileAll call := by
  unfold reconcileFinancialFactsForSource at h ⊢
  obtain ⟨_, hsource, h⟩ := bind_eq_ok.mp h
  simp only [hsource]
  split at h
  · rename_i hnothing
    refine Or.inl fun s => ?_
    rw [if_pos hnothing]
    rfl
  · rename_i hwork
    obtain ⟨_, howned, h⟩ := bind_eq_ok.mp h
    obtain ⟨_, hdistinct, h⟩ := bind_eq_ok.mp h
    refine Or.inr ⟨not_not.mp (raiseIf_eq_ok.mp hdistinct), fun s => ?_⟩
    rw [if_neg hwork, howned, hdistinct]
    rfl

variable {written : Nat} {store' : FactStore}

theorem reconcileAll_ok {call : Reconciliation}
    (h : store.reconcileAll call = .ok (written, store')) :
    ∃ reconciled, call.facts.foldlM call.reconcileFact (0, store) = .ok reconciled ∧
      store' = (call.obsolete (call.owned store)).foldl call.deleteRow reconciled.2 := by
  obtain ⟨reconciled, hloop, h⟩ := bind_eq_ok.mp h
  cases h
  exact ⟨reconciled, hloop, rfl⟩

theorem reconcileAll_wellFormed {call : Reconciliation}
    (hstore : store.WellFormed) (h : store.reconcileAll call = .ok (written, store')) :
    store'.WellFormed := by
  obtain ⟨reconciled, hloop, rfl⟩ := reconcileAll_ok h
  intro key row hrow
  rw [Reconciliation.get?_foldl_deleteRow] at hrow
  split at hrow
  · cases hrow
  · exact Reconciliation.foldlM_wellFormed hstore hloop key row hrow

theorem reconcileAll_foreign {call : Reconciliation}
    (hstore : store.WellFormed) (hnodup : (call.facts.map FinancialFact.key).Nodup)
    (h : store.reconcileAll call = .ok (written, store')) {key : FinancialFactKey}
    {row : FinancialFact} (hrow : store.get? key = some row)
    (hforeign : row.sourceIdentity ≠ call.sourceIdentity) :
    store'.get? key = some row ∨ ∃ fact ∈ call.facts, fact.key.persisted = key ∧
      store'.get? key = some fact.persisted ∧ call.Prevails row fact := by
  obtain ⟨reconciled, hloop, rfl⟩ := reconcileAll_ok h
  have hkept : key ∉ call.obsolete (call.owned store) := by
    intro hmem
    obtain ⟨row', hrow', hdel⟩ := Reconciliation.mem_obsolete.mp hmem
    rw [hrow] at hrow'
    cases hrow'
    exact hforeign hdel.owned
  rw [Reconciliation.get?_foldl_deleteRow, if_neg fun hand => hkept hand.1]
  exact Reconciliation.foldlM_foreign hstore hrow hforeign hnodup hloop

theorem reconcileAll_gone {call : Reconciliation}
    (h : store.reconcileAll call = .ok (written, store')) {key : FinancialFactKey}
    {row : FinancialFact} (hrow : store.get? key = some row) (hgone : store'.get? key = none) :
    call.Deletes key row := by
  obtain ⟨reconciled, hloop, rfl⟩ := reconcileAll_ok h
  have hsome : (reconciled.2.get? key).isSome :=
    Reconciliation.foldlM_isSome hloop (Option.isSome_iff_exists.mpr ⟨row, hrow⟩)
  rw [Reconciliation.get?_foldl_deleteRow] at hgone
  split at hgone
  · rename_i hand
    obtain ⟨row', hrow', hdel⟩ := Reconciliation.mem_obsolete.mp hand.1
    rw [hrow] at hrow'
    cases hrow'
    exact hdel
  · rw [hgone] at hsome
    exact absurd hsome Bool.false_ne_true

/-- Repeated at once, the transaction finds every fact settled and no row obsolete. -/
theorem reconcileAll_again {call : Reconciliation}
    (hnodup : (call.facts.map FinancialFact.key).Nodup)
    (hdurable : ∀ fact ∈ call.facts, fact.IsDurable)
    (h : store.reconcileAll call = .ok (written, store')) :
    store'.reconcileAll call = .ok (0, store') := by
  obtain ⟨reconciled, hloop, rfl⟩ := reconcileAll_ok h
  have hkeys : (call.facts.map fun fact => fact.key.persisted) = call.facts.map FinancialFact.key :=
    map_congr_left fun fact hfact => (hdurable fact hfact).key
  have hsettled : ∀ fact ∈ call.facts, call.Settled
      ((call.obsolete (call.owned store)).foldl call.deleteRow reconciled.2) fact := by
    intro fact hfact
    refine (Reconciliation.foldlM_all_settled hdurable hnodup hloop fact hfact).congr ?_
    rw [Reconciliation.get?_foldl_deleteRow, if_neg]
    rintro ⟨hmem, -⟩
    obtain ⟨row, -, hdel⟩ := Reconciliation.mem_obsolete.mp hmem
    rw [(hdurable fact hfact).key] at hdel
    exact hdel.absent (mem_map_of_mem hfact)
  have hnone : call.obsolete (call.owned
      ((call.obsolete (call.owned store)).foldl call.deleteRow reconciled.2)) = [] := by
    rw [eq_nil_iff_forall_not_mem]
    intro key hkey
    obtain ⟨row, hrow, hdel⟩ := Reconciliation.mem_obsolete.mp hkey
    rw [Reconciliation.get?_foldl_deleteRow] at hrow
    split at hrow
    · cases hrow
    · rename_i hkept
      -- Its row is one of those the first call already found obsolete.
      rw [Reconciliation.foldlM_other hloop (by rw [hkeys]; exact hdel.absent)] at hrow hkept
      refine hkept ⟨Reconciliation.mem_obsolete.mpr ⟨row, hrow, hdel⟩, ?_⟩
      rw [hrow, Option.any_some, decide_eq_true_eq]
      exact hdel.owned
  unfold reconcileAll
  rw [Reconciliation.foldlM_settled hsettled, hnone]
  rfl

/-! ### Runs -/

/-- The source of a call. -/
def Op.sourceIdentity : Op → String
  | .reconcile call => call.sourceIdentity
  | .upsert fact _ => fact.sourceIdentity

def Op.facts : Op → List FinancialFact
  | .reconcile call => call.facts
  | .upsert fact _ => [fact]

/-- What lets an incoming fact replace the fact of another source: its authority, a newer
disclosure where revisions are allowed, or a correction that the caller of an upsert asks for. -/
def Op.Replaces : Op → FinancialFact → FinancialFact → Prop
  | .reconcile call, existing, incoming => call.Prevails existing incoming
  | .upsert _ allow, existing, incoming =>
    factSourceAuthority existing.sourceTier < factSourceAuthority incoming.sourceTier ∨
      allow = true ∧ existing.sourceTier = .officialNse ∧ incoming.sourceTier = .officialNse

theorem upsert_cases {fact : FinancialFact} {allow written : Bool}
    (h : store.upsertFinancialFact fact allow = .ok (written, store')) :
    store' = store ∨ mergeFact (store.get? fact.key.persisted) fact allow = .ok .incoming ∧
      store' = store.writeFinancialFact fact := by
  obtain ⟨accepted, hmerge, h⟩ := bind_eq_ok.mp h
  cases accepted with
  | existing =>
    cases h
    exact Or.inl rfl
  | incoming =>
    cases h
    exact Or.inr ⟨hmerge, rfl⟩

/-- A call that does not raise. -/
theorem exec_cases {op : Op} {result : Result} (h : store.exec op = (result, store')) :
    (∃ e, result = .raised e ∧ store' = store) ∨
      (∃ call written, op = .reconcile call ∧ result = .reconciled written ∧
        store.reconcileFinancialFactsForSource call = .ok (written, store')) ∨
      (∃ fact allow written, op = .upsert fact allow ∧ result = .upserted written ∧
        store.upsertFinancialFact fact allow = .ok (written, store')) := by
  cases op with
  | reconcile call =>
    simp only [exec] at h
    split at h
    · cases h
      exact Or.inl ⟨_, rfl, rfl⟩
    · rename_i written s heq
      cases h
      exact Or.inr (Or.inl ⟨call, written, rfl, rfl, heq⟩)
  | upsert fact allow =>
    simp only [exec] at h
    split at h
    · cases h
      exact Or.inl ⟨_, rfl, rfl⟩
    · rename_i written s heq
      cases h
      exact Or.inr (Or.inr ⟨fact, allow, written, rfl, rfl, heq⟩)

theorem WellFormed.exec (hstore : store.WellFormed) {op : Op} {result : Result}
    (h : store.exec op = (result, store')) : store'.WellFormed := by
  rcases exec_cases h with ⟨e, -, rfl⟩ | ⟨call, written, -, -, hcall⟩ |
    ⟨fact, allow, written, -, -, hcall⟩
  · exact hstore
  · rcases reconcile_cases hcall with hnothing | ⟨-, hall⟩
    · rw [hnothing] at hcall
      cases hcall
      exact hstore
    · rw [hall] at hcall
      exact reconcileAll_wellFormed hstore hcall
  · rcases upsert_cases hcall with rfl | ⟨hmerge, rfl⟩
    · exact hstore
    · exact hstore.writeFinancialFact (mergeFact_incoming_value hmerge)

theorem reachable_wellFormed (h : machine.Reachable store) : store.WellFormed :=
  h.invariant (fun _ hinit => hinit) fun _ _ _ hs hstep => WellFormed.exec hs hstep

/-- **What every call of a run does to the facts.**  One that raises changes nothing, and a
reconciliation of durable facts that is repeated at once writes nothing.  The fact of another
source stays, unless an incoming fact replaces it.  A key goes only where the reconciliation of
its own document deletes it. -/
theorem reconciliation_law (h : machine.Reachable store) (op : Op) {result : Result}
    {store' : FactStore} (hexec : store.exec op = (result, store')) :
    (∀ e, result = .raised e → store' = store) ∧
      (∀ call written, op = .reconcile call → result = .reconciled written →
        (∀ fact ∈ call.facts, fact.IsDurable) →
        store'.exec op = (.reconciled 0, store')) ∧
      (∀ key row, store.get? key = some row → row.sourceIdentity ≠ op.sourceIdentity →
        store'.get? key = some row ∨ ∃ fact ∈ op.facts, fact.key.persisted = key ∧
          store'.get? key = some fact.persisted ∧ op.Replaces row fact) ∧
      (∀ key row, store.get? key = some row → store'.get? key = none →
        ∃ call, op = .reconcile call ∧ call.Deletes key row) := by
  have hstore := reachable_wellFormed h
  rcases exec_cases hexec with ⟨e, rfl, rfl⟩ | ⟨call, written, rfl, rfl, hcall⟩ |
    ⟨fact, allow, written, rfl, rfl, hcall⟩
  · refine ⟨fun _ _ => rfl, fun _ _ _ hresult => (nomatch hresult), ?_, ?_⟩
    · exact fun key row hrow _ => Or.inl hrow
    · intro key row hrow hgone
      rw [hrow] at hgone
      cases hgone
  · refine ⟨fun _ hresult => (nomatch hresult), ?_, ?_, ?_⟩
    · rintro _ _ ⟨⟩ - hdurable
      have hagain : store'.reconcileFinancialFactsForSource call = .ok (0, store') := by
        rcases reconcile_cases hcall with hnothing | ⟨hnodup, hall⟩
        · exact hnothing store'
        · rw [hall] at hcall ⊢
          exact reconcileAll_again hnodup hdurable hcall
      simp only [exec, hagain]
    · intro key row hrow hforeign
      rcases reconcile_cases hcall with hnothing | ⟨hnodup, hall⟩
      · rw [hnothing] at hcall
        cases hcall
        exact Or.inl hrow
      · rw [hall] at hcall
        exact reconcileAll_foreign hstore hnodup hcall hrow hforeign
    · intro key row hrow hgone
      rcases reconcile_cases hcall with hnothing | ⟨-, hall⟩
      · rw [hnothing] at hcall
        cases hcall
        rw [hrow] at hgone
        cases hgone
      · rw [hall] at hcall
        exact ⟨call, rfl, reconcileAll_gone hcall hrow hgone⟩
  · refine ⟨fun _ hresult => (nomatch hresult), fun _ _ _ hresult => (nomatch hresult), ?_, ?_⟩
    · intro key row hrow _
      rcases upsert_cases hcall with rfl | ⟨hmerge, rfl⟩
      · exact Or.inl hrow
      · by_cases hkey : key = fact.key.persisted
        · rw [← hkey, hrow] at hmerge
          have hwins := mergeFact_incoming hmerge (hstore key row hrow).2.1
          refine Or.inr ⟨fact, List.mem_singleton_self fact, hkey.symm, ?_, hwins.2⟩
          rw [hkey]
          exact Dict.get?_set_self _ _ _
        · exact Or.inl ((Dict.get?_set_ne _ _ hkey).trans hrow)
    · intro key row hrow hgone
      rcases upsert_cases hcall with rfl | ⟨-, rfl⟩
      · rw [hrow] at hgone
        cases hgone
      · rw [writeFinancialFact, Dict.get?_set] at hgone
        split at hgone
        · cases hgone
        · rw [hrow] at hgone
          cases hgone

/-! ### Three calls -/

theorem reachable_exec (h : machine.Reachable store) (op : Op) :
    machine.Reachable (store.exec op).2 :=
  h.step (l := (op, (store.exec op).1)) rfl

def noFacts : FactStore := Dict.empty

theorem reachable_noFacts : machine.Reachable noFacts :=
  .init fun _ _ hget => nomatch hget

/-- Revenue in one column, as an official document states it. -/
def sampleFact (source : String) (column : Column) (published : Int) (zoned : Bool) :
    FinancialFact where
  key := columnKey "I1" "revenue" (some "CONSOLIDATED") false column
  value := ⟨some ⟨10, 10⟩, some "INR", none, none, "https://nse.example/filing", "NSE", none,
    some ⟨published, true⟩, ⟨90, zoned⟩, none, none⟩
  sourceTier := .officialNse
  sourceProvider := "NSE"
  sourceIdentity := source
  sourceMode := .real

def sampleColumns : List Column := [⟨"2024-03-31", "ANNUAL"⟩, ⟨"2023-12-31", "QUARTERLY"⟩]

/-- A column the statement does not have. -/
def sampleStray : Column := ⟨"2024-03-31", "QUARTERLY"⟩

def sampleCall (columns : List Column) (zoned : Bool)
    (scopes : List FinancialReconciliationScope) : Reconciliation where
  instrumentId := "I1"
  sourceIdentity := "D1"
  facts := columns.map fun column => sampleFact "D1" column 50 zoned
  allowOfficialRevision := false
  completeScopes := scopes

def sampleScope : FinancialReconciliationScope :=
  scopeOfStatement "revenue" (some "CONSOLIDATED") false sampleColumns .completeForSourceScope

/-- The store after the document was read with a column too many. -/
def sampleStore : FactStore :=
  (noFacts.exec (.reconcile (sampleCall (sampleStray :: sampleColumns) true []))).2

theorem sampleStore_reachable : machine.Reachable sampleStore :=
  reachable_exec reachable_noFacts _

/-- The law at work: the stray column of the document goes, once its scope is complete. -/
theorem reconciliation_law_sample :
    sampleStore.exec (.reconcile (sampleCall sampleColumns true [sampleScope])) =
        (.reconciled 1,
          (sampleStore.exec (.reconcile (sampleCall sampleColumns true [sampleScope]))).2) ∧
      (sampleStore.exec (.reconcile (sampleCall sampleColumns true [sampleScope]))).2.exec
          (.reconcile (sampleCall sampleColumns true [sampleScope])) =
        (.reconciled 0,
          (sampleStore.exec (.reconcile (sampleCall sampleColumns true [sampleScope]))).2) := by
  have hexec : sampleStore.exec (.reconcile (sampleCall sampleColumns true [sampleScope])) =
      (.reconciled 1,
        (sampleStore.exec (.reconcile (sampleCall sampleColumns true [sampleScope]))).2) :=
    Prod.ext (by rfl) rfl
  exact ⟨hexec, (reconciliation_law sampleStore_reachable _ hexec).2.1 _ 1 rfl rfl
    (by decide)⟩

/-- **Without these conditions the law fails.**  A fact whose time has no zone is written again
by the repeated call; an upsert that asks for a correction replaces the official fact of another
document by an older one; and a scope, being a product, deletes a key that is no column of its
statement. -/
theorem reconciliation_law_fails :
    ((noFacts.exec (.reconcile (sampleCall sampleColumns false []))).1 =
        .reconciled 2 ∧
      ((noFacts.exec (.reconcile (sampleCall sampleColumns false []))).2.exec
        (.reconcile (sampleCall sampleColumns false []))).1 = .reconciled 2) ∧
    (machine.Reachable sampleStore ∧
      sampleStore.get? (sampleFact "D2" sampleStray 40 true).key =
        some (sampleFact "D1" sampleStray 50 true) ∧
      (sampleStore.exec (.upsert (sampleFact "D2" sampleStray 40 true) true)).2.get?
        (sampleFact "D2" sampleStray 40 true).key =
          some (sampleFact "D2" sampleStray 40 true) ∧
      newerOfficialDisclosure (sampleFact "D1" sampleStray 50 true)
        (sampleFact "D2" sampleStray 40 true) = false) ∧
    ((sampleStore.get? (sampleFact "D1" sampleStray 50 true).key).isSome ∧
      ((sampleStore.exec (.reconcile (sampleCall sampleColumns true [sampleScope]))).2.get?
        (sampleFact "D1" sampleStray 50 true).key) = none ∧
      (sampleFact "D1" sampleStray 50 true).key ∉
        sampleColumns.map (columnKey "I1" "revenue" (some "CONSOLIDATED") false)) :=
  ⟨by decide, ⟨sampleStore_reachable, by decide⟩, by decide⟩

end FactStore

end InvestmentPlatform.Evidence
