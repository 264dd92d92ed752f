/-
Nested contexts of the connection adapter are one transaction.

Two facts about a run carry everything, one for each side of the depth counter.

*Inside* a context (`0 < depth`) a run makes no commit and no rollback: it only adds statement
calls to the journal and executed statements to the open transaction, it leaves the depth where
it was, and the rollback-only flag comes out as it went in unless something failed.  `Nested`
says this, and it composes along sequencing, `except` and inner contexts.

*Outside* (`depth = 0`, flag clear) every program ends outside again, so each context it comes to
is entered clean.  What the exit of that context does is then read off `Nested` of its body.
-/
import InvestmentPlatform.Persistence.Adapter

namespace InvestmentPlatform

open List

namespace Adapter

variable {P : Type} {fate : Fate P} {adapter : Adapter P}

/-! ### The adapter's own operations -/

@[simp] theorem enter_depth (adapter : Adapter P) : adapter.enter.depth = adapter.depth + 1 := rfl

@[simp] theorem enter_rollbackOnly (adapter : Adapter P) :
    adapter.enter.rollbackOnly = adapter.rollbackOnly := rfl

/-- No context is open and nothing waits for an exit. -/
structure Idle (adapter : Adapter P) : Prop where
  depth : adapter.depth = 0
  rollbackOnly : adapter.rollbackOnly = false

/-- Only statements were called between two states, and the open transaction holds the ones that
got through. -/
def Extends (before after : Connection P) (calls : List (Call P)) : Prop :=
  after.journal = before.journal ++ calls ∧ (∀ call ∈ calls, call.IsStatement) ∧
    after.durable = before.durable ∧
    after.pending = before.pending ++ calls.filterMap Call.executed?

theorem Extends.refl (connection : Connection P) : Extends connection connection [] := by
  simp [Extends]

theorem Extends.trans {a b c : Connection P} {first next : List (Call P)}
    (h₁ : Extends a b first) (h₂ : Extends b c next) : Extends a c (first ++ next) := by
  obtain ⟨hj₁, hs₁, hd₁, hp₁⟩ := h₁
  obtain ⟨hj₂, hs₂, hd₂, hp₂⟩ := h₂
  refine ⟨by rw [hj₂, hj₁, List.append_assoc], ?_, by rw [hd₂, hd₁], ?_⟩
  · intro call hcall
    rcases mem_append.mp hcall with h | h
    · exact hs₁ call h
    · exact hs₂ call h
  · rw [hp₂, hp₁, List.append_assoc, filterMap_append]

/-! ### Inside a context -/

/-- What a run with an open context leaves behind: the depth, the flag and the calls. -/
structure Nested (fate : Fate P) (program : Program P) (adapter : Adapter P) : Prop where
  depth : (run fate program adapter).2.depth = adapter.depth
  rollbackOnly : (run fate program adapter).2.rollbackOnly =
    (adapter.rollbackOnly || !(failures fate program adapter).isEmpty)
  raised : (run fate program adapter).1.isSome → failures fate program adapter ≠ []
  calls : ∃ calls, Extends adapter.connection (run fate program adapter).2.connection calls

theorem nested_execute (sql : String) (params : P) (h : 0 < adapter.depth) :
    Nested fate (.execute sql params) adapter := by
  have hdepth : adapter.depth ≠ 0 := by omega
  by_cases hfate : fate adapter.connection.journal ⟨translate sql, params⟩ = true
  · have hrun : adapter.execute fate sql params = (none, { adapter with
        connection :=
          (adapter.connection.execute fate ⟨translate sql, params⟩).2 }) := by
      simp [execute, Connection.execute, hfate]
    refine ⟨by rw [run, hrun], by rw [run, failures, hrun]; simp, by rw [run, hrun]; simp,
      [.executed ⟨translate sql, params⟩], ?_⟩
    rw [run, hrun]
    simp [Extends, Connection.execute, hfate, Call.IsStatement, Call.executed?]
  · have hrun : adapter.execute fate sql params = (some .databaseError, { adapter with
        connection := (adapter.connection.execute fate ⟨translate sql, params⟩).2
        rollbackOnly := true }) := by
      simp [execute, Connection.execute, hfate, hdepth]
    refine ⟨by rw [run, hrun], by rw [run, failures, hrun]; simp,
      by rw [run, failures, hrun]; simp, [.failed ⟨translate sql, params⟩], ?_⟩
    rw [run, hrun]
    simp [Extends, Connection.execute, hfate, Call.IsStatement, Call.executed?]

theorem nested_seq {first next : Program P} (hfirst : Nested fate first adapter)
    (hnext : Nested fate next (run fate first adapter).2) :
    Nested fate (.seq first next) adapter := by
  obtain ⟨hdepth, hflag, hraised, calls, hcalls⟩ := hfirst
  obtain ⟨hdepth', hflag', hraised', calls', hcalls'⟩ := hnext
  rcases hrun : run fate first adapter with ⟨outcome, mid⟩
  rw [hrun] at hdepth hflag hraised hcalls hdepth' hflag' hraised' hcalls'
  cases outcome with
  | none =>
    refine ⟨?_, ?_, ?_, calls ++ calls', ?_⟩ <;> simp only [run, failures, hrun]
    · rw [hdepth', hdepth]
    · rw [hflag', hflag, Bool.or_assoc]
      congr 1
      cases failures fate first adapter <;> simp
    · intro h
      simp [hraised' h]
    · exact hcalls.trans hcalls'
  | some raised =>
    refine ⟨?_, ?_, ?_, calls, ?_⟩ <;> simp only [run, failures, hrun]
    · exact hdepth
    · exact hflag
    · intro _
      exact hraised rfl
    · exact hcalls

theorem nested_attempt {body handler : Program P} (hbody : Nested fate body adapter)
    (hhandler : Nested fate handler (run fate body adapter).2) :
    Nested fate (.attempt body handler) adapter := by
  obtain ⟨hdepth, hflag, hraised, calls, hcalls⟩ := hbody
  obtain ⟨hdepth', hflag', hraised', calls', hcalls'⟩ := hhandler
  rcases hrun : run fate body adapter with ⟨outcome, mid⟩
  rw [hrun] at hdepth hflag hraised hcalls hdepth' hflag' hraised' hcalls'
  cases outcome with
  | none =>
    refine ⟨?_, ?_, ?_, calls, ?_⟩ <;> simp only [run, failures, hrun]
    · exact hdepth
    · exact hflag
    · simp
    · exact hcalls
  | some raised =>
    -- the handler swallows the exception, not the failure
    refine ⟨?_, ?_, ?_, calls ++ calls', ?_⟩ <;> simp only [run, failures, hrun]
    · rw [hdepth', hdepth]
    · rw [hflag', hflag, Bool.or_assoc]
      congr 1
      cases failures fate body adapter <;> simp
    · intro h
      simp [hraised' h]
    · exact hcalls.trans hcalls'

theorem exit_nested {raised : Option Raised} (h : 1 < adapter.depth) :
    adapter.exit raised = (raised, { adapter with
      depth := adapter.depth - 1
      rollbackOnly := adapter.rollbackOnly || raised.isSome }) := by
  have hne : adapter.depth - 1 ≠ 0 := by omega
  simp [exit, hne]

theorem nested_block {body : Program P} (h : 0 < adapter.depth)
    (hbody : Nested fate body adapter.enter) : Nested fate (.block body) adapter := by
  obtain ⟨hdepth, hflag, hraised, calls, hcalls⟩ := hbody
  rcases hrun : run fate body adapter.enter with ⟨outcome, inside⟩
  rw [hrun] at hdepth hflag hraised hcalls
  rw [enter_depth] at hdepth
  have hdeep : 1 < inside.depth := by
    dsimp only at hdepth
    omega
  have hexit : inside.exit outcome = _ := exit_nested hdeep
  have hblock : run fate (.block body) adapter = inside.exit outcome := by simp only [run, hrun]
  refine ⟨?_, ?_, ?_, calls, ?_⟩
  · rw [hblock, hexit]
    dsimp only at hdepth ⊢
    omega
  · rw [failures, hblock, hexit]
    dsimp only at hflag ⊢
    rw [hflag, enter_rollbackOnly, Bool.or_assoc]
    congr 1
    cases outcome with
    | none => simp
    | some raised => simp
  · rw [failures, hblock, hexit]
    intro hsome
    simp only at hsome
    simp [hsome]
  · rw [hblock, hexit]
    exact hcalls

/-- With a context open, no program commits or rolls back. -/
theorem nested (program : Program P) (h : 0 < adapter.depth) : Nested fate program adapter := by
  induction program generalizing adapter with
  | skip => exact ⟨rfl, by simp [run, failures], by simp [run], [], Extends.refl _⟩
  | execute sql params => exact nested_execute sql params h
  | seq first next ihfirst ihnext =>
    have hfirst := ihfirst h
    exact nested_seq hfirst (ihnext (by rw [hfirst.depth]; exact h))
  | block body ih => exact nested_block h (ih (by rw [enter_depth]; omega))
  | attempt body handler ihbody ihhandler =>
    have hbody := ihbody h
    exact nested_attempt hbody (ihhandler (by rw [hbody.depth]; exact h))

/-! ### The outermost context -/

theorem exit_outermost {raised : Option Raised} (h : adapter.depth = 1) : adapter.exit raised =
      if adapter.rollbackOnly || raised.isSome then
        (raised.or (some .transactionAborted), { connection := adapter.connection.rollback })
      else (raised, { connection := adapter.connection.commit }) := by
  simp only [exit, h]
  split <;> simp_all

/-- What becomes of an outermost context: `inside` is where its body left the adapter. -/
structure AllOrNothing (fate : Fate P) (body : Program P) (adapter : Adapter P) : Prop where
  entered : Idle adapter
  /-- the body only makes statement calls -/
  inside : ∃ calls, Extends adapter.connection (run fate body adapter.enter).2.connection calls
  commits : (run fate (.block body) adapter).2.connection =
      (run fate body adapter.enter).2.connection.commit ↔ failures fate body adapter.enter = []
  returns : failures fate body adapter.enter = [] → (run fate (.block body) adapter).1 = none
  /-- everything the body did is undone, and the caller is told -/
  rollsBack : failures fate body adapter.enter ≠ [] →
    (run fate (.block body) adapter).2.connection =
      (run fate body adapter.enter).2.connection.rollback ∧
    (run fate (.block body) adapter).2.connection.durable = adapter.connection.durable ∧
    (run fate (.block body) adapter).2.connection.pending = [] ∧
    (run fate (.block body) adapter).1.isSome
  left : Idle (run fate (.block body) adapter).2

theorem commit_ne_rollback (connection : Connection P) :
    connection.rollback ≠ connection.commit := by
  intro h
  have hjournal := congrArg Connection.journal h
  simp [Connection.rollback, Connection.commit] at hjournal

/-- An outermost context entered clean is all or nothing. -/
theorem allOrNothing_block (body : Program P) (h : Idle adapter) :
    AllOrNothing fate body adapter := by
  have hnested : Nested fate body adapter.enter :=
    nested body (by rw [enter_depth, h.depth]; omega)
  obtain ⟨hdepth, hflag, hraised, calls, hcalls⟩ := hnested
  rcases hrun : run fate body adapter.enter with ⟨outcome, inside⟩
  rw [hrun] at hdepth hflag hraised hcalls
  rw [enter_depth, h.depth] at hdepth
  rw [enter_rollbackOnly, h.rollbackOnly] at hflag
  have hblock : run fate (.block body) adapter = inside.exit outcome := by simp only [run, hrun]
  rw [exit_outermost hdepth] at hblock
  by_cases hfailures : failures fate body adapter.enter = []
  · have houtcome : outcome = none := by
      cases outcome with
      | none => rfl
      | some raised => exact absurd hfailures (hraised rfl)
    have hclean : inside.rollbackOnly = false := by
      dsimp only at hflag
      rw [hflag, hfailures]
      rfl
    simp only [hclean, houtcome] at hblock
    refine ⟨h, ⟨calls, hrun ▸ hcalls⟩, ?_, ?_, ?_, ?_⟩
    · rw [hblock, hrun]
      simp [hfailures]
    · intro _
      rw [hblock]
      simp
    · intro hne
      exact absurd hfailures hne
    · rw [hblock]
      exact ⟨rfl, rfl⟩
  · have hdirty : inside.rollbackOnly = true := by
      dsimp only at hflag
      rw [hflag]
      simpa using hfailures
    simp only [hdirty] at hblock
    refine ⟨h, ⟨calls, hrun ▸ hcalls⟩, ?_, ?_, ?_, ?_⟩
    · rw [hblock, hrun]
      simp [hfailures, commit_ne_rollback]
    · intro hnone
      exact absurd hnone hfailures
    · intro _
      rw [hblock, hrun]
      refine ⟨rfl, hcalls.2.2.1, rfl, ?_⟩
      cases outcome <;> rfl
    · rw [hblock]
      exact ⟨rfl, rfl⟩

/-! ### Whole programs -/

theorem idle_execute (sql : String) (params : P) (h : Idle adapter) :
    Idle (adapter.execute fate sql params).2 := by
  have hdepth := h.depth
  unfold execute
  split
  · exact ⟨h.depth, h.rollbackOnly⟩
  · split
    · contradiction
    · exact ⟨h.depth, h.rollbackOnly⟩

/-- A program that starts outside every context ends outside every context. -/
theorem idle_run (fate : Fate P) (program : Program P) (h : Idle adapter) :
    Idle (run fate program adapter).2 := by
  induction program generalizing adapter with
  | skip => exact h
  | execute sql params => exact idle_execute sql params h
  | seq first next ihfirst ihnext =>
    have hfirst := ihfirst h
    rcases hrun : run fate first adapter with ⟨_ | raised, mid⟩ <;> rw [hrun] at hfirst
    · simp only [run, hrun]
      exact ihnext hfirst
    · simp only [run, hrun]
      exact hfirst
  | block body _ => exact (allOrNothing_block body h).left
  | attempt body handler ihbody ihhandler =>
    have hbody := ihbody h
    rcases hrun : run fate body adapter with ⟨_ | raised, mid⟩ <;> rw [hrun] at hbody
    · simp only [run, hrun]
      exact hbody
    · simp only [run, hrun]
      exact ihhandler hbody

/-- Every outermost context a run comes to is entered clean. -/
theorem idle_of_mem_outermostBlocks {program : Program P} (h : Idle adapter)
    {entry : Adapter P} {body : Program P}
    (hmem : (entry, body) ∈ outermostBlocks fate program adapter) : Idle entry := by
  induction program generalizing adapter with
  | skip => simp [outermostBlocks] at hmem
  | execute sql params => simp [outermostBlocks] at hmem
  | seq first next ihfirst ihnext =>
    have hfirst := idle_run fate first h
    rcases hrun : run fate first adapter with ⟨_ | raised, mid⟩ <;> rw [hrun] at hfirst <;>
      simp only [outermostBlocks, hrun] at hmem
    · rcases mem_append.mp hmem with hmem | hmem
      · exact ihfirst h hmem
      · exact ihnext hfirst hmem
    · exact ihfirst h hmem
  | block inner _ =>
    simp only [outermostBlocks, mem_singleton, Prod.mk.injEq] at hmem
    rw [hmem.1]
    exact h
  | attempt inner handler ihbody ihhandler =>
    have hbody := idle_run fate inner h
    rcases hrun : run fate inner adapter with ⟨_ | raised, mid⟩ <;> rw [hrun] at hbody <;>
      simp only [outermostBlocks, hrun] at hmem
    · exact ihbody h hmem
    · rcases mem_append.mp hmem with hmem | hmem
      · exact ihbody h hmem
      · exact ihhandler hbody hmem

/-- **Nested contexts are all or nothing.**  In every program started outside every context, each
outermost context commits exactly when nothing inside it failed, is otherwise rolled back and
raises, makes no commit before its exit, and leaves the adapter idle. -/
theorem nestedTransactions (fate : Fate P) (program : Program P) (adapter : Adapter P)
    (h : Idle adapter) :
    (∀ entry body, (entry, body) ∈ outermostBlocks fate program adapter →
      AllOrNothing fate body entry) ∧
    Idle (run fate program adapter).2 :=
  ⟨fun _ body hmem => allOrNothing_block body (idle_of_mem_outermostBlocks h hmem),
    idle_run fate program h⟩

/-- Refuses every `UPDATE`. -/
def noUpdates : Fate Unit := fun _ statement => !("UPDATE".toList.isPrefixOf statement.sql.toList)

/-- An inner context whose failure is swallowed, with work on both sides of it. -/
def swallowedUpdate : Program Unit :=
  .block (.seq (.execute "INSERT a" ()) (.seq (.attempt (.block (.execute "UPDATE b" ())) .skip)
    (.execute "INSERT c" ())))

def freshAdapter : Adapter Unit := { connection := { journal := [], durable := [], pending := [] } }

theorem nestedTransactions_of_swallowed :
    Idle freshAdapter ∧
    (∀ entry body, (entry, body) ∈ outermostBlocks noUpdates swallowedUpdate freshAdapter →
      AllOrNothing noUpdates body entry) ∧
    Idle (run noUpdates swallowedUpdate freshAdapter).2 ∧
    (run noUpdates swallowedUpdate freshAdapter).2.connection.journal =
      [.executed ⟨"INSERT a", ()⟩, .failed ⟨"UPDATE b", ()⟩, .executed ⟨"INSERT c", ()⟩,
        .rolledBack] := by
  have hidle : Idle freshAdapter := ⟨rfl, rfl⟩
  have h := nestedTransactions noUpdates swallowedUpdate freshAdapter hidle
  exact ⟨hidle, h.1, h.2, by rfl⟩

end Adapter

end InvestmentPlatform
