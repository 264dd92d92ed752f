/-
What a transaction can do to the runs and the slots.

Ten methods repeat their own status sets and lease comparisons, but seen from the run table
and the slot table there are only four moves: nothing, a fresh accepted run taking a free
slot, an active run changing into an active run, and an active run settling in a terminal
status with its owner, its lease and its slot gone.  Each method is shown once to be one of
the four; every invariant of the store is then a case analysis on the move.
-/
import InvestmentPlatform.Cycle.Publication
import InvestmentPlatform.Lib.Slot

namespace InvestmentPlatform.Cycle

open List

/-! ### The life of a status -/

/-- What the status of a run may turn into, in one call or in many. -/
def RunStatus.Becomes : RunStatus → RunStatus → Prop
  | .accepted, _ => True
  | .running, _ => True
  | .published, status => status = .published ∨ status = .completed
  | .cancelRequested, status => status = .cancelRequested ∨ status = .cancelled
  | .completed, status => status = .completed
  | .failed, status => status = .failed
  | .cancelled, status => status = .cancelled

theorem RunStatus.Becomes.refl (status : RunStatus) : status.Becomes status := by
  cases status <;> simp [Becomes]

theorem RunStatus.Becomes.trans {a b c : RunStatus} (hab : a.Becomes b) (hbc : b.Becomes c) :
    a.Becomes c := by
  cases a with
  | accepted => trivial
  | running => trivial
  | published => rcases hab with rfl | rfl <;> simp_all [Becomes]
  | cancelRequested => rcases hab with rfl | rfl <;> simp_all [Becomes]
  | completed => cases hab; exact hbc
  | failed => cases hab; exact hbc
  | cancelled => cases hab; exact hbc

/-- A terminal status stays. -/
theorem RunStatus.Terminal.becomes {a b : RunStatus} (h : a.Terminal) (hab : a.Becomes b) :
    b = a := by
  simp only [Terminal, mem_cons, not_mem_nil, or_false] at h
  rcases h with rfl | rfl | rfl <;> exact hab

theorem RunStatus.active_iff_not_terminal (status : RunStatus) :
    status.Active ↔ ¬ status.Terminal := by
  cases status <;> decide

theorem RunStatus.Terminal.not_active {status : RunStatus} (h : status.Terminal) :
    ¬ status.Active :=
  fun hactive => (status.active_iff_not_terminal.mp hactive) h

/-! ### The four moves -/

/-- What a transaction does to the run table and the slot table. -/
inductive Move (s s' : Store) : Prop
  | same (hruns : s'.runs = s.runs) (hactive : s'.active = s.active)
  | accept {cycleId : CycleId} {market : Market} {parameters : String}
      (hfresh : s.runs cycleId = none) (hfree : s.active market = none)
      (hruns : s'.runs = s.runs.put cycleId (acceptedRun market parameters))
      (hactive : s'.active = s.active.put market cycleId)
  | change {cycleId : CycleId} {row row' : CycleRun} (hrow : s.runs cycleId = some row)
      (hlive : row.status.Active) (hlive' : row'.status.Active)
      (hbecomes : row.status.Becomes row'.status) (hmarket : row'.market = row.market)
      (hruns : s'.runs = s.runs.put cycleId row') (hactive : s'.active = s.active)
  | settle {cycleId : CycleId} {row row' : CycleRun} (hrow : s.runs cycleId = some row)
      (hlive : row.status.Active) (hterminal : row'.status.Terminal)
      (hbecomes : row.status.Becomes row'.status) (hmarket : row'.market = row.market)
      (howner : row'.ownerId = none) (hlease : row'.leaseExpiresAt = none)
      (hruns : s'.runs = s.runs.put cycleId row')
      (hactive : s'.active = s.active.deleteWhere fun named => named = cycleId)

theorem Move.refl (s : Store) : Move s s := .same rfl rfl

/-- A row an update may turn into another active row. -/
structure ActiveChange (row row' : CycleRun) : Prop where
  live : row.status.Active
  live' : row'.status.Active
  becomes : row.status.Becomes row'.status
  market : row'.market = row.market

section
variable {s : Store} {cycleId : CycleId} {guard : CycleRun → Prop} [DecidablePred guard]
  {f : CycleRun → CycleRun}

theorem updateRun_hit {row : CycleRun} (hrow : s.runs cycleId = some row) (hguard : guard row) :
    s.updateRun cycleId guard f = ({ s with runs := s.runs.put cycleId (f row) }, 1) := by
  simp [Store.updateRun, Table.updateWhere_hit hrow hguard]

theorem updateRun_miss (h : ∀ row, s.runs cycleId = some row → ¬ guard row) :
    s.updateRun cycleId guard f = (s, 0) := by
  simp [Store.updateRun, Table.updateWhere_miss h]

/-- A guarded update of a run hits one row its guard admits, or leaves the store alone. -/
theorem updateRun_cases (s : Store) (cycleId : CycleId) (guard : CycleRun → Prop)
    [DecidablePred guard] (f : CycleRun → CycleRun) :
    (∃ row, s.runs cycleId = some row ∧ guard row ∧
      s.updateRun cycleId guard f = ({ s with runs := s.runs.put cycleId (f row) }, 1)) ∨
    ((∀ row, s.runs cycleId = some row → ¬ guard row) ∧ s.updateRun cycleId guard f = (s, 0)) := by
  by_cases h : ∃ row, s.runs cycleId = some row ∧ guard row
  · obtain ⟨row, hrow, hguard⟩ := h
    exact Or.inl ⟨row, hrow, hguard, updateRun_hit hrow hguard⟩
  · have hmiss : ∀ row, s.runs cycleId = some row → ¬ guard row :=
      fun row hrow hguard => h ⟨row, hrow, hguard⟩
    exact Or.inr ⟨hmiss, updateRun_miss hmiss⟩

/-- An update whose guard admits only active changes is a move. -/
theorem updateRun_move (h : ∀ row, guard row → ActiveChange row (f row)) :
    Move s (s.updateRun cycleId guard f).1 := by
  rcases updateRun_cases s cycleId guard f with ⟨row, hrow, hguard, heq⟩ | ⟨-, heq⟩
  · rw [heq]
    have hchange := h row hguard
    exact .change hrow hchange.live hchange.live' hchange.becomes hchange.market rfl rfl
  · rw [heq]
    exact .refl s

end

/-- A guarded terminal update answers true exactly when its guard admits the row. -/
theorem settle_cases (s : Store) (cycleId : CycleId) (guard : CycleRun → Prop)
    [DecidablePred guard] (status : RunStatus) (errorCode : String) :
    (∃ row, s.runs cycleId = some row ∧ guard row ∧ settle cycleId guard status errorCode s =
        (true, { s with
          runs := s.runs.put cycleId
            ({ row with status, errorCode := some errorCode } : CycleRun).disown
          active := s.active.deleteWhere fun named => named = cycleId })) ∨
    ((∀ row, s.runs cycleId = some row → ¬ guard row) ∧
      settle cycleId guard status errorCode s = (false, s)) := by
  rcases updateRun_cases s cycleId guard
    (fun row => ({ row with status, errorCode := some errorCode } : CycleRun).disown) with
    ⟨row, hrow, hguard, heq⟩ | ⟨hmiss, heq⟩
  · exact Or.inl ⟨row, hrow, hguard, by simp [settle, heq, Store.dropSlot]⟩
  · exact Or.inr ⟨hmiss, by simp [settle, heq]⟩

theorem settle_move {s : Store} {cycleId : CycleId} {guard : CycleRun → Prop}
    [DecidablePred guard] {status : RunStatus} {errorCode : String}
    (hguard : ∀ row, guard row → row.status.Active ∧ row.status.Becomes status)
    (hterminal : status.Terminal) : Move s (settle cycleId guard status errorCode s).2 := by
  rcases settle_cases s cycleId guard status errorCode with ⟨row, hrow, hg, heq⟩ | ⟨-, heq⟩
  · rw [heq]
    obtain ⟨hlive, hbecomes⟩ := hguard row hg
    refine .settle hrow hlive ?_ ?_ ?_ ?_ ?_ rfl rfl
    · exact hterminal
    · exact hbecomes
    · rfl
    · rfl
    · rfl
  · rw [heq]
    exact .refl s

/-! ### Each method is a move -/

section

variable (cycleId : CycleId)

theorem createCycleRun_move (parameters : String) (market : Market)
    (s : Store) : Move s (createCycleRun cycleId parameters market s).2 := by
  unfold createCycleRun
  cases hslot : activeCycleRun market s with
  | some existing => exact .refl s
  | none =>
      simp only
      cases hinsert : insertRunAndSlot cycleId parameters market s with
      | error error => exact .refl s
      | ok s' =>
          unfold insertRunAndSlot at hinsert
          split at hinsert
          · cases hinsert
          · rename_i runs hruns
            split at hinsert
            · cases hinsert
            · rename_i active hactive
              cases hinsert
              obtain ⟨hfresh, rfl⟩ := Table.insert_eq_some.mp hruns
              obtain ⟨hfree, rfl⟩ := Table.insert_eq_some.mp hactive
              exact .accept hfresh hfree rfl rfl

theorem claimCycleRun_move (ownerId : OwnerId) (leaseSeconds : Int) (now : Instant) (s : Store) :
    Move s (claimCycleRun cycleId ownerId leaseSeconds now s).2 := by
  refine updateRun_move fun row hguard => ⟨hguard.1, ?_, ?_, rfl⟩
  · show (if row.status = .accepted then RunStatus.running else row.status).Active
    split
    · decide
    · exact hguard.1
  · show row.status.Becomes (if row.status = .accepted then .running else row.status)
    split
    · rename_i haccepted
      rw [haccepted]
      trivial
    · exact .refl _

theorem renewCycleLease_move (ownerId : OwnerId) (leaseSeconds : Int) (now : Instant) (s : Store) :
    Move s (renewCycleLease cycleId ownerId leaseSeconds now s).2 :=
  updateRun_move fun _ hguard => ⟨hguard.2.1, hguard.2.1, .refl _, rfl⟩

theorem releaseCycleRun_move (ownerId : OwnerId) (s : Store) :
    Move s (releaseCycleRun cycleId ownerId s).2 :=
  updateRun_move fun _ hguard => ⟨hguard.2.2, hguard.2.2, .refl _, rfl⟩

end

/-- The statuses an update is allowed from are active. -/
theorem RunFields.states_active (fields : RunFields) {status : RunStatus}
    (h : status ∈ fields.states) : status.Active := by
  unfold states at h
  split at h
  · revert h; cases status <;> decide
  · split at h <;> (revert h; cases status <;> decide)

/-- An update never takes a run where its status may not go. -/
theorem RunFields.assign_becomes (fields : RunFields) {row : CycleRun}
    (h : row.status ∈ fields.states) : row.status.Becomes (fields.assign row).status := by
  unfold states at h
  show row.status.Becomes (fields.status.getD row.status)
  split at h
  · rename_i hcompleted
    rw [hcompleted, Option.getD_some]
    simp only [mem_cons, not_mem_nil, or_false] at h
    rcases h with h | h <;> rw [h] <;> simp [RunStatus.Becomes]
  · split at h
    · rename_i hcancelled
      rw [hcancelled, Option.getD_some]
      simp only [mem_cons, not_mem_nil, or_false] at h
      rcases h with h | h | h <;> rw [h] <;> simp [RunStatus.Becomes]
    · simp only [mem_cons, not_mem_nil, or_false] at h
      rcases h with h | h <;> rw [h] <;> trivial

section

variable (cycleId : CycleId)

theorem updateCycleRun_cases (ownerId : OwnerId) (fields : RunFields) (s : Store) :
    (∃ row, s.runs cycleId = some row ∧
      (row.OwnedBy ownerId ∧ row.LeaseLive s.clock ∧ row.status ∈ fields.states) ∧
      updateCycleRun cycleId ownerId fields s =
        if ∃ status, fields.status = some status ∧ status.Terminal then
          (.done, { s with
            runs := s.runs.put cycleId (fields.assign row).disown
            active := s.active.deleteWhere fun named => named = cycleId })
        else (.done, { s with runs := s.runs.put cycleId (fields.assign row) })) ∨
    ((∀ row, s.runs cycleId = some row →
        ¬ (row.OwnedBy ownerId ∧ row.LeaseLive s.clock ∧ row.status ∈ fields.states)) ∧
      updateCycleRun cycleId ownerId fields s = (.raised (.cycleOwnershipLost cycleId), s)) := by
  rcases updateRun_cases s cycleId
    (fun row => row.OwnedBy ownerId ∧ row.LeaseLive s.clock ∧ row.status ∈ fields.states)
    fields.assign with ⟨row, hrow, hguard, heq⟩ | ⟨hmiss, heq⟩
  · refine Or.inl ⟨row, hrow, hguard, ?_⟩
    unfold updateCycleRun
    simp only [heq, ne_eq, not_true_eq_false, if_false]
    split
    · -- The second statement finds the row the first one wrote.
      rw [updateRun_hit (Table.put_self _ _ _) trivial]
      simp [Store.dropSlot, Table.put]
    · rfl
  · refine Or.inr ⟨hmiss, ?_⟩
    unfold updateCycleRun
    simp [heq]

theorem updateCycleRun_move (ownerId : OwnerId) (fields : RunFields)
    (s : Store) : Move s (updateCycleRun cycleId ownerId fields s).2 := by
  rcases updateCycleRun_cases cycleId ownerId fields s with ⟨row, hrow, hguard, heq⟩ | ⟨-, heq⟩
  · rw [heq]
    have hlive := fields.states_active hguard.2.2
    have hbecomes := fields.assign_becomes hguard.2.2
    split
    · rename_i hterminal
      obtain ⟨status, hstatus, hterminal⟩ := hterminal
      refine .settle hrow hlive ?_ ?_ ?_ ?_ ?_ rfl rfl
      · show (fields.status.getD row.status).Terminal
        rw [hstatus]
        exact hterminal
      · exact hbecomes
      · rfl
      · rfl
      · rfl
    · rename_i hnot
      refine .change hrow hlive ?_ hbecomes rfl rfl rfl
      show (fields.status.getD row.status).Active
      cases hstatus : fields.status with
      | none => exact hlive
      | some status =>
          rw [Option.getD_some, RunStatus.active_iff_not_terminal]
          exact fun hterminal => hnot ⟨status, hstatus, hterminal⟩
  · rw [heq]
    exact .refl s

theorem failUnownedCycleRun_move (errorCode : String) (s : Store) :
    Move s (failUnownedCycleRun cycleId errorCode s).2 := by
  refine settle_move (fun row hguard => ?_) (by decide)
  have hmem := hguard.1
  simp only [mem_cons, not_mem_nil, or_false] at hmem
  rcases hmem with h | h <;> rw [h] <;> exact ⟨by decide, trivial⟩

theorem requestCycleCancel_move (errorCode : String) (s : Store) :
    Move s (requestCycleCancel cycleId errorCode s).2 := by
  refine updateRun_move fun row hguard => ?_
  simp only [mem_cons, not_mem_nil, or_false] at hguard
  refine ⟨?_, by show RunStatus.Active .cancelRequested; decide, ?_, rfl⟩
  · rcases hguard with h | h <;> rw [h] <;> decide
  · rcases hguard with h | h <;> rw [h] <;> trivial

theorem cancelCycleRun_move (ownerId : OwnerId) (errorCode : String)
    (s : Store) : Move s (cancelCycleRun cycleId ownerId errorCode s).2 := by
  refine settle_move (fun row hguard => ?_) (by decide)
  have hmem := hguard.2.1
  simp only [mem_cons, not_mem_nil, or_false] at hmem
  rcases hmem with h | h | h <;> rw [h] <;> exact ⟨by decide, by simp [RunStatus.Becomes]⟩

theorem cancelCycleRunUnowned_move (reason : Option String) (s : Store) :
    Move s (cancelCycleRunUnowned cycleId reason s).2 := by
  refine settle_move (fun row hguard => ?_) (by decide)
  rw [hguard.1]
  exact ⟨by decide, Or.inr rfl⟩

end

end InvestmentPlatform.Cycle
