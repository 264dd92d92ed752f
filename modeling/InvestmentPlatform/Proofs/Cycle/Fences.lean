/-
What the fences see and what a publication commits.

A publication touches the run table once, in its first fence, and looks at it once more in
its last.  Everything between the two leaves the cycle tables as they are and lets the
clock move on, so that the row the second fence finds is the row the first one wrote, and
the lease it finds live is the lease the owner held when the run was still RUNNING.
-/
import InvestmentPlatform.Proofs.Cycle.Moves

namespace InvestmentPlatform.Cycle

open Txn

/-! ### The two fences -/

variable {cycleId : CycleId} {ownerId : OwnerId} {s : Store}

theorem fenceCyclePublication_ok {s' : Store} : fenceCyclePublication cycleId ownerId s = .ok s' ↔
      ∃ row, s.runs cycleId = some row ∧ row.OwnedBy ownerId ∧ row.status = .running ∧
        row.LeaseLive s.clock ∧
        s' = { s with runs := s.runs.put cycleId { row with status := .published } } := by
  unfold fenceCyclePublication
  by_cases hcancel : ∃ row, s.runs cycleId = some row ∧
      row.status ∈ ([.cancelRequested, .cancelled] : List RunStatus)
  · rw [if_pos hcancel]
    refine ⟨fun h => (by cases h), ?_⟩
    rintro ⟨row, hrow, -, hrunning, -⟩
    obtain ⟨other, hother, hmem⟩ := hcancel
    rw [hrow, Option.some.injEq] at hother
    subst hother
    rw [hrunning] at hmem
    exact absurd hmem (by decide)
  · rw [if_neg hcancel]
    rcases updateRun_cases s cycleId
      (fun row => row.OwnedBy ownerId ∧ row.status = .running ∧ row.LeaseLive s.clock)
      (fun row => { row with status := .published }) with ⟨row, hrow, hguard, heq⟩ | ⟨hmiss, heq⟩
    · simp only [heq, if_true, Except.ok.injEq]
      constructor
      · rintro rfl
        exact ⟨row, hrow, hguard.1, hguard.2.1, hguard.2.2, rfl⟩
      · rintro ⟨other, hother, -, -, -, rfl⟩
        rw [hrow, Option.some.injEq] at hother
        subst hother
        rfl
    · simp only [heq, Nat.zero_ne_one, if_false]
      refine ⟨fun h => (by cases h), ?_⟩
      rintro ⟨row, hrow, howner, hrunning, hlease, -⟩
      exact absurd ⟨howner, hrunning, hlease⟩ (hmiss row hrow)

theorem fencePublishedOwner_ok {s' : Store} : fencePublishedOwner cycleId ownerId s = .ok s' ↔
      s' = s ∧ ∃ row, s.runs cycleId = some row ∧ row.OwnedBy ownerId ∧
        row.status = .published ∧ row.LeaseLive s.clock := by
  unfold fencePublishedOwner
  rcases updateRun_cases s cycleId
    (fun row => row.OwnedBy ownerId ∧ row.status = .published ∧ row.LeaseLive s.clock) id with
    ⟨row, hrow, hguard, heq⟩ | ⟨hmiss, heq⟩
  · simp only [heq, if_true, Except.ok.injEq, id_eq, Table.put_eq_self hrow]
    exact ⟨fun h => ⟨h.symm, row, hrow, hguard⟩, fun h => h.1.symm⟩
  · simp only [heq, Nat.zero_ne_one, if_false]
    refine ⟨fun h => (by cases h), ?_⟩
    rintro ⟨-, row, hrow, hguard⟩
    exact absurd hguard (hmiss row hrow)

variable {error : StoreError}

/-- Both fences raise the same error. -/
theorem fenceCyclePublication_error (h : fenceCyclePublication cycleId ownerId s = .error error) :
    error = .cycleOwnershipLost cycleId := by
  unfold fenceCyclePublication at h
  split at h
  · cases h
    rfl
  · simp only at h
    split at h
    · cases h
    · cases h
      rfl

/-! ### What leaves the cycle tables alone -/

/-- The cycle tables are the same and the clock has not gone back. -/
structure Quiet (db db' : Database) : Prop where
  runs : db'.cycles.runs = db.cycles.runs
  active : db'.cycles.active = db.cycles.active
  progress : db'.cycles.progress = db.cycles.progress
  clock : db.cycles.clock ≤ db'.cycles.clock

instance : Std.Refl Quiet := ⟨fun _ => ⟨rfl, rfl, rfl, le_refl _⟩⟩

instance : IsTrans Database Quiet :=
  ⟨fun _ _ _ h k => ⟨k.runs.trans h.runs, k.active.trans h.active, k.progress.trans h.progress,
    h.clock.trans k.clock⟩⟩

/-- The clock has not gone back. -/
def Later (db db' : Database) : Prop := db.cycles.clock ≤ db'.cycles.clock

instance : Std.Refl Later := ⟨fun _ => le_refl _⟩

instance : IsTrans Database Later := ⟨fun _ _ _ h k => le_trans h k⟩

theorem quiet_wait (elapsed : Nat) (db : Database) : Quiet db (db.wait elapsed) :=
  ⟨rfl, rfl, rfl, Int.le_add_of_nonneg_right (Int.natCast_nonneg elapsed)⟩

theorem onProjection_quiet (act : Projection → Except StoreError Projection) :
    (onProjection act).Keeps Quiet := by
  refine keeps_statement quiet_wait fun db _ db' h => ?_
  cases hact : act db.projection with
  | error error => simp [hact, Except.map] at h
  | ok projection =>
      simp only [hact, Except.map, Except.ok.injEq, Prod.mk.injEq, true_and] at h
      subst h
      exact ⟨rfl, rfl, rfl, le_refl _⟩

theorem onCycles_keeps {R : Database → Database → Prop} [IsTrans Database R]
    {act : Store → Except StoreError Store} (hwait : ∀ elapsed db, R db (db.wait elapsed))
    (hact : ∀ db cycles, act db.cycles = .ok cycles → R db { db with cycles }) :
    (onCycles act).Keeps R := by
  refine keeps_statement hwait fun db _ db' h => ?_
  cases hcycles : act db.cycles with
  | error error => simp [hcycles, Except.map] at h
  | ok cycles =>
      simp only [hcycles, Except.map, Except.ok.injEq, Prod.mk.injEq, true_and] at h
      subst h
      exact hact db cycles hcycles

variable {hiccups : List (Hiccup StoreError)} {db db' : Database}

theorem onCycles_ok {act : Store → Except StoreError Store} {rest : List (Hiccup StoreError)}
    (h : onCycles act hiccups db = (.ok (), rest, db')) :
    ∃ elapsed, act (db.wait elapsed).cycles = .ok db'.cycles := by
  obtain ⟨elapsed, hact⟩ := statement_ok h
  refine ⟨elapsed, ?_⟩
  cases hcycles : act (db.wait elapsed).cycles with
  | error error => simp [hcycles, Except.map] at hact
  | ok cycles =>
      simp only [hcycles, Except.map, Except.ok.injEq, Prod.mk.injEq, true_and] at hact
      rw [← hact]

theorem writeProjection_quiet (p : Publishing) : (writeProjection p).Keeps Quiet := by
  have hassemble : (assemble p).Keeps Quiet := by
    unfold assemble
    split
    · exact keeps_ret _
    · rename_i build _
      refine keeps_statement quiet_wait fun db a db' h => ?_
      cases hbuild : build db.projection
          (opportunitySnapshots p.assembled.selection.cycleId db.projection) with
      | error error => simp [hbuild, Except.map] at h
      | ok assembled =>
          simp only [hbuild, Except.map, Except.ok.injEq, Prod.mk.injEq] at h
          rw [h.2]
          exact refl_of Quiet db'
  refine (keeps_each (fun _ => onProjection_quiet _) _).andThen fun _ => ?_
  refine hassemble.andThen fun a => ?_
  refine (keeps_each (fun _ => onProjection_quiet _) _).andThen fun _ => ?_
  refine (keeps_each (fun _ => onProjection_quiet _) _).andThen fun _ => ?_
  exact (onProjection_quiet _).andThen fun _ => keeps_ret _

theorem fencedPublished_quiet (fence : Option (CycleId × OwnerId)) :
    (fenced fencePublishedOwner fence).Keeps Quiet := by
  cases fence with
  | none => exact keeps_ret ()
  | some fence =>
      refine onCycles_keeps quiet_wait fun db cycles h => ?_
      obtain ⟨rfl, -⟩ := fencePublishedOwner_ok.mp h
      exact refl_of Quiet db

theorem suggestionBody_quiet (uuid4 : Nat → Suggestions.Uuid) (scan : Suggestions.Scan)
    (cards : List Suggestions.Card) (fence : Option (CycleId × OwnerId)) :
    (suggestionBody uuid4 scan cards fence).Keeps Quiet := by
  refine (fencedPublished_quiet fence).andThen fun _ => ?_
  refine Txn.Keeps.andThen (keeps_statement quiet_wait fun db _ db' h => ?_) fun _ => ?_
  · simp only [Except.ok.injEq, Prod.mk.injEq, true_and] at h
    subst h
    exact ⟨rfl, rfl, rfl, le_refl _⟩
  · split
    · exact keeps_ret ()
    · exact fencedPublished_quiet fence

theorem publishBody_later (p : Publishing) : (publishBody p).Keeps Later := by
  have hlater : ∀ db db', Quiet db db' → Later db db' := fun _ _ h => h.clock
  have hfence : (fenced fenceCyclePublication p.fence).Keeps Later := by
    cases p.fence with
    | none => exact keeps_ret ()
    | some fence =>
        refine onCycles_keeps (fun elapsed db => (quiet_wait elapsed db).clock) fun db cycles h => ?_
        obtain ⟨row, -, -, -, -, rfl⟩ := fenceCyclePublication_ok.mp h
        exact le_refl _
  refine hfence.andThen fun _ => ?_
  refine ((writeProjection_quiet p).mono hlater).andThen fun _ => ?_
  exact ((fencedPublished_quiet p.fence).mono hlater).andThen fun _ => keeps_ret _

/-! ### What a publication commits -/

/-- A commit found the run RUNNING, owned and leased, and the lease still live at its end. -/
structure Commits (cycleId : CycleId) (ownerId : OwnerId) (row : CycleRun) (db db' : Database) :
    Prop where
  found : db.cycles.runs cycleId = some row
  owned : row.OwnedBy ownerId
  running : row.status = .running
  leased : row.LeaseLive db'.cycles.clock
  runs : db'.cycles.runs = db.cycles.runs.put cycleId { row with status := .published }
  active : db'.cycles.active = db.cycles.active
  progress : db'.cycles.progress = db.cycles.progress
  clock : db.cycles.clock ≤ db'.cycles.clock

variable {p : Publishing}

theorem publish_commits {selection : Selection} (hfence : p.fence = some (cycleId, ownerId))
    (h : publishOpportunityCycle p hiccups db = (.ok selection, db')) :
    ∃ row, Commits cycleId ownerId row db db' := by
  obtain ⟨rest, hbody⟩ := transact_ok h
  unfold publishBody at hbody
  simp only [bind_def, pure_def, hfence, fenced] at hbody
  obtain ⟨⟨⟩, left, opened, hopen, hbody⟩ := andThen_ok.mp hbody
  obtain ⟨written, left', filled, hwrite, hbody⟩ := andThen_ok.mp hbody
  obtain ⟨⟨⟩, left'', closed, hclose, hret⟩ := andThen_ok.mp hbody
  obtain ⟨-, -, rfl⟩ : _ ∧ _ ∧ closed = db' := by simpa [ret] using hret
  obtain ⟨before, hfirst⟩ := onCycles_ok hopen
  obtain ⟨after, hlast⟩ := onCycles_ok hclose
  obtain ⟨row, hrow, howner, hrunning, -, hopened⟩ := fenceCyclePublication_ok.mp hfirst
  obtain ⟨hclosed, found, hfound, -, -, hlive⟩ := fencePublishedOwner_ok.mp hlast
  have hquiet : Quiet opened filled := by
    have := writeProjection_quiet p left opened
    rwa [hwrite] at this
  -- The second fence finds the row the first one wrote.
  have hruns : closed.cycles.runs
      = db.cycles.runs.put cycleId { row with status := .published } := by
    rw [hclosed]
    show filled.cycles.runs = _
    rw [hquiet.runs, hopened]
    rfl
  have hsame : found = { row with status := .published } := by
    rw [← hclosed, hruns, Table.put_self, Option.some.injEq] at hfound
    exact hfound.symm
  refine ⟨row, hrow, howner, hrunning, ?_, hruns, ?_, ?_, ?_⟩
  · rw [hclosed]
    rw [hsame] at hlive
    exact hlive
  · rw [hclosed]
    show filled.cycles.active = _
    rw [hquiet.active, hopened]
    rfl
  · rw [hclosed]
    show filled.cycles.progress = _
    rw [hquiet.progress, hopened]
    rfl
  · have := publishBody_later p hiccups db
    unfold publishOpportunityCycle transact at h
    split at h
    · rename_i heq
      rw [heq] at this
      simp only [Prod.mk.injEq] at h
      rw [← h.2]
      exact this
    · simp at h

/-- Without a fence the cycle tables are not touched. -/
theorem publish_unfenced {selection : Selection} (hfence : p.fence = none)
    (h : publishOpportunityCycle p hiccups db = (.ok selection, db')) : Quiet db db' := by
  have hbody : (publishBody p).Keeps Quiet := by
    unfold publishBody
    rw [hfence]
    refine Txn.Keeps.andThen (keeps_ret ()) fun _ => ?_
    exact (writeProjection_quiet p).andThen fun _ =>
      Txn.Keeps.andThen (keeps_ret ()) fun _ => keeps_ret _
  obtain ⟨rest, heq⟩ := transact_ok h
  have := hbody hiccups db
  rwa [heq] at this

/-- A transaction that raised left every table as it was. -/
structure RolledBack (db db' : Database) : Prop where
  quiet : Quiet db db'
  projection : db'.projection = db.projection
  suggestions : db'.suggestions = db.suggestions

theorem transact_rolls_back {A : Type} {body : Body A} (hbody : body.Keeps Later)
    (h : transact Database.rollback body hiccups db = (.error error, db')) :
    RolledBack db db' := by
  obtain ⟨rest, reached, hreached, rfl⟩ := transact_error h
  have hlater := hbody hiccups db
  rw [hreached] at hlater
  exact ⟨⟨rfl, rfl, rfl, hlater⟩, rfl, rfl⟩

theorem publish_rolls_back
    (h : publishOpportunityCycle p hiccups db = (.error error, db')) : RolledBack db db' :=
  transact_rolls_back (publishBody_later p) h

theorem suggestions_roll_back {uuid4 : Nat → Suggestions.Uuid} {scan : Suggestions.Scan}
    {cards : List Suggestions.Card} {fence : Option (CycleId × OwnerId)}
    (h : persistGlobalSuggestionLifecycle uuid4 scan cards fence hiccups db
      = (.error error, db')) : RolledBack db db' :=
  transact_rolls_back ((suggestionBody_quiet uuid4 scan cards fence).mono fun _ _ k => k.clock) h

theorem suggestions_quiet {uuid4 : Nat → Suggestions.Uuid} {scan : Suggestions.Scan}
    {cards : List Suggestions.Card} {fence : Option (CycleId × OwnerId)}
    {result : Except StoreError Unit}
    (h : persistGlobalSuggestionLifecycle uuid4 scan cards fence hiccups db = (result, db')) :
    Quiet db db' := by
  cases result with
  | error error => exact (suggestions_roll_back h).quiet
  | ok done =>
      obtain ⟨rest, heq⟩ := transact_ok h
      have := suggestionBody_quiet uuid4 scan cards fence hiccups db
      rwa [heq] at this

end InvestmentPlatform.Cycle
