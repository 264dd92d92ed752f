/-
One call of the machine.

A call makes one of the four moves on the runs and the slots, lets the clock go on, and
writes progress only if it is an admitted progress write.  A call fenced on an owner who
does not hold the lease does nothing and says so.  These are the only facts about single
calls that the results over runs use.
-/
import InvestmentPlatform.Proofs.Cycle.Fences

namespace InvestmentPlatform.Cycle

/-! ### What the methods leave alone beside the runs and the slots -/

/-- The clock and the progress rows are the same. -/
structure Aside (s s' : Store) : Prop where
  clock : s'.clock = s.clock
  progress : s'.progress = s.progress

theorem createCycleRun_aside (cycleId : CycleId) (parameters : String) (market : Market)
    (s : Store) : Aside s (createCycleRun cycleId parameters market s).2 := by
  unfold createCycleRun
  cases hslot : activeCycleRun market s with
  | some existing => exact ⟨rfl, rfl⟩
  | none =>
      simp only
      cases hinsert : insertRunAndSlot cycleId parameters market s with
      | error error => exact ⟨rfl, rfl⟩
      | ok s' =>
          unfold insertRunAndSlot at hinsert
          split at hinsert
          · cases hinsert
          · split at hinsert
            · cases hinsert
            · cases hinsert
              exact ⟨rfl, rfl⟩

theorem updateCycleRun_aside (cycleId : CycleId) (ownerId : OwnerId) (fields : RunFields)
    (s : Store) : Aside s (updateCycleRun cycleId ownerId fields s).2 := by
  rcases updateCycleRun_cases cycleId ownerId fields s with ⟨row, -, -, heq⟩ | ⟨-, heq⟩
  · rw [heq]
    split <;> exact ⟨rfl, rfl⟩
  · rw [heq]
    exact ⟨rfl, rfl⟩

theorem settle_aside (cycleId : CycleId) (guard : CycleRun → Prop) [DecidablePred guard]
    (status : RunStatus) (errorCode : String) (s : Store) :
    Aside s (settle cycleId guard status errorCode s).2 := by
  rcases settle_cases s cycleId guard status errorCode with ⟨row, -, -, heq⟩ | ⟨-, heq⟩ <;>
    rw [heq] <;> exact ⟨rfl, rfl⟩

theorem committed_cases (s : Store) (result : Except StoreError Store) :
    (∃ s', result = .ok s' ∧ committed s result = (.done, s')) ∨
      (∃ error, result = .error error ∧ committed s result = (.raised error, s)) := by
  cases result with
  | ok s' => exact Or.inl ⟨s', rfl, rfl⟩
  | error error => exact Or.inr ⟨error, rfl, rfl⟩

variable {cycleId : CycleId} {row : CycleRun} {s : Store}

theorem fenceCyclePublication_move {s' : Store}
    (hrow : s.runs cycleId = some row) (hrunning : row.status = .running)
    (hruns : s'.runs = s.runs.put cycleId { row with status := .published })
    (hactive : s'.active = s.active) : Move s s' := by
  refine .change hrow ?_ ?_ ?_ ?_ hruns hactive
  · rw [hrunning]
    decide
  · show RunStatus.Active .published
    decide
  · rw [hrunning]
    trivial
  · rfl

/-! ### Progress writes -/

/-- The call is an admitted write to one progress row, and `s'` has that row written. -/
def RecordsProgress (s : Store) (call : Call) (s' : Store) : Prop :=
  ∃ cycleId ownerId phase instrument write startAttempt row,
    call = .recordCycleProgress cycleId ownerId phase instrument write startAttempt ∧
    s.runs cycleId = some row ∧
    admitsProgress s (cycleId, phase, instrument) ownerId startAttempt row ∧
    s'.progress = upsertProgress (cycleId, phase, instrument) write startAttempt s.progress

theorem recordCycleProgress_cases (cycleId : CycleId) (ownerId : OwnerId) (phase : Phase)
    (instrument : InstrumentId) (write : ProgressWrite) (startAttempt : Bool) (s : Store) :
    (∃ row, s.runs cycleId = some row ∧
      admitsProgress s (cycleId, phase, instrument) ownerId startAttempt row ∧
      recordCycleProgress cycleId ownerId phase instrument write startAttempt s = (.done, { s with
          progress := upsertProgress (cycleId, phase, instrument) write startAttempt
            s.progress })) ∨
    ((∀ row, s.runs cycleId = some row →
        ¬ admitsProgress s (cycleId, phase, instrument) ownerId startAttempt row) ∧
      recordCycleProgress cycleId ownerId phase instrument write startAttempt s =
        (.raised (.cycleOwnershipLost cycleId), s)) := by
  unfold recordCycleProgress
  split
  · rename_i h
    obtain ⟨row, hrow, hadmits⟩ := h
    exact Or.inl ⟨row, hrow, hadmits, rfl⟩
  · rename_i h
    exact Or.inr ⟨fun row hrow hadmits => h ⟨row, hrow, hadmits⟩, rfl⟩

/-! ### One call -/

/-- Everything a call does to the cycle store. -/
structure Effect (s : Store) (call : Call) (s' : Store) : Prop where
  move : Move s s'
  clock : s.clock ≤ s'.clock
  progress : s'.progress = s.progress ∨ RecordsProgress s call s'

theorem Move.effect {s' : Store} (h : Move s s') (haside : Aside s s') (call : Call) :
    Effect s call s' :=
  ⟨h, le_of_eq haside.clock.symm, Or.inl haside.progress⟩

theorem Quiet.effect {db db' : Database} (h : Quiet db db') (call : Call) :
    Effect db.cycles call db'.cycles :=
  ⟨.same h.runs h.active, h.clock, Or.inl h.progress⟩

variable {ownerId : OwnerId}

theorem Commits.effect {db db' : Database} (h : Commits cycleId ownerId row db db') (call : Call) :
    Effect db.cycles call db'.cycles :=
  ⟨fenceCyclePublication_move h.found h.running h.runs h.active, h.clock, Or.inl h.progress⟩

theorem onStore_some {db db' : Database} {result : Reply × Store} {answer : Answer}
    (h : some (db.onStore result) = some (answer, db')) :
    answer = .cycle result.1 ∧ db' = { db with cycles := result.2 } := by
  simp only [Database.onStore, Option.some.injEq, Prod.mk.injEq] at h
  exact ⟨h.1.symm, h.2.symm⟩

variable {uuid4 : Nat → Suggestions.Uuid} {db db' : Database} {call : Call} {answer : Answer}

/-- **Every call has an effect of the one described kind.** -/
theorem exec_effect (h : exec uuid4 db call = some (answer, db')) :
    Effect db.cycles call db'.cycles := by
  cases call with
  | tick elapsed =>
      simp only [exec, Option.some.injEq, Prod.mk.injEq] at h
      rw [← h.2]
      exact (quiet_wait elapsed db).effect _
  | createCycleRun cycleId parameters market =>
      obtain ⟨-, rfl⟩ := onStore_some h
      exact (createCycleRun_move ..).effect (createCycleRun_aside ..) _
  | claimCycleRun cycleId ownerId leaseSeconds now =>
      simp only [exec] at h
      split at h
      · obtain ⟨-, rfl⟩ := onStore_some h
        exact (claimCycleRun_move ..).effect ⟨rfl, rfl⟩ _
      · cases h
  | renewCycleLease cycleId ownerId leaseSeconds now =>
      simp only [exec] at h
      split at h
      · obtain ⟨-, rfl⟩ := onStore_some h
        exact (renewCycleLease_move ..).effect ⟨rfl, rfl⟩ _
      · cases h
  | releaseCycleRun cycleId ownerId =>
      obtain ⟨-, rfl⟩ := onStore_some h
      exact (releaseCycleRun_move ..).effect ⟨rfl, rfl⟩ _
  | updateCycleRun cycleId ownerId fields =>
      obtain ⟨-, rfl⟩ := onStore_some h
      exact (updateCycleRun_move ..).effect (updateCycleRun_aside ..) _
  | failUnownedCycleRun cycleId errorCode =>
      obtain ⟨-, rfl⟩ := onStore_some h
      exact (failUnownedCycleRun_move ..).effect (settle_aside ..) _
  | requestCycleCancel cycleId errorCode =>
      obtain ⟨-, rfl⟩ := onStore_some h
      exact (requestCycleCancel_move ..).effect ⟨rfl, rfl⟩ _
  | cancelCycleRun cycleId ownerId errorCode =>
      obtain ⟨-, rfl⟩ := onStore_some h
      exact (cancelCycleRun_move ..).effect (settle_aside ..) _
  | cancelCycleRunUnowned cycleId reason =>
      obtain ⟨-, rfl⟩ := onStore_some h
      exact (cancelCycleRunUnowned_move ..).effect (settle_aside ..) _
  | fenceCyclePublication cycleId ownerId =>
      obtain ⟨-, rfl⟩ := onStore_some h
      rcases committed_cases db.cycles (Cycle.fenceCyclePublication cycleId ownerId db.cycles) with
        ⟨s', hok, heq⟩ | ⟨error, -, heq⟩
      · simp only [heq]
        obtain ⟨row, hrow, -, hrunning, -, rfl⟩ := fenceCyclePublication_ok.mp hok
        refine Move.effect ?_ ?_ _
        · exact fenceCyclePublication_move hrow hrunning rfl rfl
        · exact ⟨rfl, rfl⟩
      · simp only [heq]
        exact (Move.refl _).effect ⟨rfl, rfl⟩ _
  | recordCycleProgress cycleId ownerId phase instrument write startAttempt =>
      obtain ⟨-, rfl⟩ := onStore_some h
      rcases recordCycleProgress_cases cycleId ownerId phase instrument write startAttempt
        db.cycles with ⟨row, hrow, hadmits, heq⟩ | ⟨-, heq⟩
      · simp only [heq]
        exact ⟨.same rfl rfl, le_refl _, Or.inr
          ⟨cycleId, ownerId, phase, instrument, write, startAttempt, row, rfl, hrow, hadmits, rfl⟩⟩
      · simp only [heq]
        exact (Move.refl _).effect ⟨rfl, rfl⟩ _
  | publishOpportunityCycle p hiccups =>
      simp only [exec] at h
      split at h
      · rename_i selection reached heq
        simp only [Option.some.injEq, Prod.mk.injEq] at h
        rw [← h.2]
        cases hfence : p.fence with
        | none => exact (publish_unfenced hfence heq).effect _
        | some fence =>
            obtain ⟨row, hcommits⟩ := publish_commits hfence heq
            exact hcommits.effect _
      · rename_i error reached heq
        simp only [Option.some.injEq, Prod.mk.injEq] at h
        rw [← h.2]
        exact (publish_rolls_back heq).quiet.effect _
  | persistGlobalSuggestionLifecycle scan cards fence hiccups =>
      simp only [exec] at h
      split at h <;>
      · rename_i reached heq
        simp only [Option.some.injEq, Prod.mk.injEq] at h
        rw [← h.2]
        exact (suggestions_quiet heq).effect _

/-! ### A call fenced on an owner without the lease -/

/-- How a fenced call says that its owner does not hold the run. -/
def Call.Refused : Call → Answer → Prop
  | .renewCycleLease .., answer => answer = .cycle (.flag false)
  | .releaseCycleRun .., answer => answer = .cycle .done
  | .updateCycleRun cycleId _ _, answer =>
      answer = .cycle (.raised (.cycleOwnershipLost cycleId))
  | .cancelCycleRun .., answer => answer = .cycle (.flag false)
  | .fenceCyclePublication cycleId _, answer =>
      answer = .cycle (.raised (.cycleOwnershipLost cycleId))
  | .recordCycleProgress cycleId _ _ _ _ _, answer =>
      answer = .cycle (.raised (.cycleOwnershipLost cycleId))
  | .publishOpportunityCycle _ _, answer => ∃ error, answer = .cycle (.raised error)
  | .persistGlobalSuggestionLifecycle _ _ _ _, answer => ∃ error, answer = .cycle (.raised error)
  | _, _ => False

theorem RolledBack.refl (db : Database) : RolledBack db db := ⟨refl_of Quiet db, rfl, rfl⟩

/-- A lease that is not held now is not held at a later time either. -/
theorem HoldsLease.earlier
    {clock : Instant} (hrow : s.runs cycleId = some row) (howner : row.OwnedBy ownerId)
    (hlive : row.LeaseLive clock) (hclock : s.clock ≤ clock) : HoldsLease s cycleId ownerId := by
  obtain ⟨expiry, hexpiry, hlt⟩ := hlive
  exact ⟨row, hrow, howner, expiry, hexpiry, lt_of_le_of_lt hclock hlt⟩

/-- A fence on the published owner lets only a lease holder through. -/
theorem suggestions_held {uuid4 : Nat → Suggestions.Uuid} {scan : Suggestions.Scan}
    {cards : List Suggestions.Card} {hiccups : List (Hiccup StoreError)} {db db' : Database}
    (h : persistGlobalSuggestionLifecycle uuid4 scan cards (some (cycleId, ownerId)) hiccups db
      = (.ok (), db')) : HoldsLease db.cycles cycleId ownerId := by
  obtain ⟨rest, hbody⟩ := Txn.transact_ok h
  unfold suggestionBody at hbody
  simp only [Txn.bind_def, fenced] at hbody
  obtain ⟨⟨⟩, left, opened, hopen, -⟩ := Txn.andThen_ok.mp hbody
  obtain ⟨elapsed, hfirst⟩ := onCycles_ok hopen
  obtain ⟨-, row, hrow, howner, -, hlive⟩ := fencePublishedOwner_ok.mp hfirst
  exact HoldsLease.earlier hrow howner hlive (quiet_wait elapsed db).clock

/-- **A call whose owner does not hold the lease changes no row and reports the loss.** -/
theorem exec_unheld
    (h : exec uuid4 db call = some (answer, db')) (hfence : call.fence = some (cycleId, ownerId))
    (hnot : ¬ HoldsLease db.cycles cycleId ownerId) :
    RolledBack db db' ∧ call.Refused answer := by
  have hmiss : ∀ row, db.cycles.runs cycleId = some row → row.OwnedBy ownerId →
      row.LeaseLive db.cycles.clock → False :=
    fun row hrow howner hlive => hnot ⟨row, hrow, howner, hlive⟩
  cases call with
  | tick | createCycleRun | claimCycleRun | failUnownedCycleRun | requestCycleCancel
  | cancelCycleRunUnowned => cases hfence
  | renewCycleLease c o leaseSeconds now =>
      cases hfence
      simp only [exec] at h
      split at h
      · obtain ⟨rfl, rfl⟩ := onStore_some h
        have heq := updateRun_miss (f := fun row : CycleRun =>
            { row with leaseExpiresAt := some (now + leaseSeconds * 1000000) })
          fun row hrow (hguard : row.OwnedBy ownerId ∧ row.status.Active ∧
            row.LeaseLive db.cycles.clock) => hmiss row hrow hguard.1 hguard.2.2
        simp only [renewCycleLease, heq]
        exact ⟨.refl db, rfl⟩
      · cases h
  | releaseCycleRun c o =>
      cases hfence
      obtain ⟨rfl, rfl⟩ := onStore_some h
      have heq := updateRun_miss (f := fun row : CycleRun =>
          { row with ownerId := none, leaseExpiresAt := none })
        fun row hrow (hguard : row.OwnedBy ownerId ∧ row.LeaseLive db.cycles.clock ∧
          row.status.Active) => hmiss row hrow hguard.1 hguard.2.1
      simp only [releaseCycleRun, heq]
      exact ⟨.refl db, rfl⟩
  | updateCycleRun c o fields =>
      cases hfence
      obtain ⟨rfl, rfl⟩ := onStore_some h
      rcases updateCycleRun_cases cycleId ownerId fields db.cycles with
        ⟨row, hrow, hguard, -⟩ | ⟨-, heq⟩
      · exact (hmiss row hrow hguard.1 hguard.2.1).elim
      · rw [heq]
        exact ⟨.refl db, rfl⟩
  | cancelCycleRun c o errorCode =>
      cases hfence
      obtain ⟨rfl, rfl⟩ := onStore_some h
      unfold Cycle.cancelCycleRun
      rcases settle_cases db.cycles cycleId (fun row => row.OwnedBy ownerId ∧
          row.status ∈ ([.cancelRequested, .running, .accepted] : List RunStatus) ∧
          row.LeaseLive db.cycles.clock) .cancelled errorCode with
        ⟨row, hrow, hguard, -⟩ | ⟨-, heq⟩
      · exact (hmiss row hrow hguard.1 hguard.2.2).elim
      · simp only [heq]
        exact ⟨.refl db, rfl⟩
  | fenceCyclePublication c o =>
      cases hfence
      obtain ⟨rfl, rfl⟩ := onStore_some h
      rcases committed_cases db.cycles (Cycle.fenceCyclePublication cycleId ownerId db.cycles) with
        ⟨s', hok, -⟩ | ⟨error, herror, heq⟩
      · obtain ⟨row, hrow, howner, -, hlive, -⟩ := fenceCyclePublication_ok.mp hok
        exact (hmiss row hrow howner hlive).elim
      · rw [heq, fenceCyclePublication_error herror]
        exact ⟨.refl db, rfl⟩
  | recordCycleProgress c o phase instrument write startAttempt =>
      cases hfence
      obtain ⟨rfl, rfl⟩ := onStore_some h
      rcases recordCycleProgress_cases cycleId ownerId phase instrument write startAttempt
        db.cycles with ⟨row, hrow, hadmits, -⟩ | ⟨-, heq⟩
      · exact (hmiss row hrow hadmits.1 hadmits.2.1).elim
      · rw [heq]
        exact ⟨.refl db, rfl⟩
  | publishOpportunityCycle p hiccups =>
      simp only [exec] at h
      split at h
      · rename_i selection reached heq
        obtain ⟨row, hcommits⟩ := publish_commits hfence heq
        exact (hnot (HoldsLease.earlier hcommits.found hcommits.owned hcommits.leased
          hcommits.clock)).elim
      · rename_i error reached heq
        simp only [Option.some.injEq, Prod.mk.injEq] at h
        obtain ⟨rfl, rfl⟩ := h
        exact ⟨publish_rolls_back heq, error, rfl⟩
  | persistGlobalSuggestionLifecycle scan cards fence hiccups =>
      simp only [Call.fence] at hfence
      subst hfence
      simp only [exec] at h
      split at h
      · rename_i reached heq
        exact (hnot (suggestions_held heq)).elim
      · rename_i error reached heq
        simp only [Option.some.injEq, Prod.mk.injEq] at h
        obtain ⟨rfl, rfl⟩ := h
        exact ⟨suggestions_roll_back heq, error, rfl⟩

/-- A claim succeeds on an active run that nobody else holds, and changes nothing otherwise. -/
theorem exec_claim {leaseSeconds : Int} {now : Instant}
    (h : exec uuid4 db (.claimCycleRun cycleId ownerId leaseSeconds now) = some (answer, db')) :
    (answer = .cycle (.flag true) ∧ (∃ row, db.cycles.runs cycleId = some row ∧
        row.status.Active) ∧ ∀ other, HoldsLease db.cycles cycleId other → other = ownerId) ∨
      (answer = .cycle (.flag false) ∧ db' = db) := by
  simp only [exec] at h
  split at h
  · rename_i hnow
    obtain ⟨rfl, rfl⟩ := onStore_some h
    unfold claimCycleRun
    rcases updateRun_cases db.cycles cycleId (fun row => row.Claimable ownerId now)
      (CycleRun.claim ownerId leaseSeconds now) with ⟨row, hrow, hguard, heq⟩ | ⟨-, heq⟩
    · refine Or.inl ⟨by simp [heq], ⟨row, hrow, hguard.1⟩, ?_⟩
      rintro other ⟨held, hheld, howner, expiry, hexpiry, hlive⟩
      rw [hrow, Option.some.injEq] at hheld
      subst hheld
      unfold CycleRun.OwnedBy at howner
      rcases hguard.2 with hnone | hown | hnone | ⟨expiry', hexpiry', hexpired⟩
      · rw [howner] at hnone
        cases hnone
      · unfold CycleRun.OwnedBy at hown
        rw [howner] at hown
        exact Option.some.inj hown
      · rw [hexpiry] at hnone
        cases hnone
      · -- Expired before `now`, hence before the clock, which the live lease is not.
        rw [hexpiry, Option.some.injEq] at hexpiry'
        subst hexpiry'
        exact absurd (lt_of_lt_of_le hexpired hnow) (not_lt_of_gt hlive)
    · exact Or.inr ⟨by simp [heq], by simp only [heq]⟩
  · cases h

end InvestmentPlatform.Cycle
