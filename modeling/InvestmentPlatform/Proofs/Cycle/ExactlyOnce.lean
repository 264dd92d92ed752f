/-
A cycle is published at most once, and never after it was cancelled.

A commit needs the run RUNNING and leaves it PUBLISHED, and a published run can only become
COMPLETED.  A granted cancellation leaves the run CANCEL_REQUESTED, which can only become
CANCELLED.  Neither of the two ever leads back to RUNNING, so both facts are properties
that stay, and both bar a later commit; the run rules of the machine do the rest.
-/
import InvestmentPlatform.Proofs.Cycle.Lease

namespace InvestmentPlatform.Cycle

/-! ### Statuses a run has left RUNNING for good with -/

/-- The run is there, in a status that `P` admits. -/
def RunIn (P : RunStatus → Prop) (cycleId : CycleId) (db : Database) : Prop :=
  ∃ row, db.cycles.runs cycleId = some row ∧ P row.status

/-- A status from which RUNNING is out of reach. -/
def RunStatus.Past (status : RunStatus) : Prop := ¬ status.Becomes .running

theorem RunStatus.Past.becomes {a b : RunStatus} (h : a.Past) (hab : a.Becomes b) : b.Past :=
  fun hb => h (hab.trans hb)

theorem RunStatus.past_published : RunStatus.Past .published := by simp [Past, Becomes]

theorem RunStatus.past_cancelRequested : RunStatus.Past .cancelRequested := by
  simp [Past, Becomes]

section
variable {uuid4 : Nat → Suggestions.Uuid} {start : Instant} {db db' : Database}
  {cycleId : CycleId}

/-- A property of statuses that `Becomes` keeps stays along every run. -/
theorem runIn_stable {P : RunStatus → Prop} (hP : ∀ a b, P a → a.Becomes b → P b) :
    (system uuid4 start).Stable (RunIn P cycleId) := by
  rintro before label after hreach ⟨row, hrow, hp⟩ hstep
  obtain ⟨row', hrow', -, hbecomes⟩ := (exec_effect hstep).move.evolves cycleId row hrow
  exact ⟨row', hrow', hP _ _ hp hbecomes⟩

theorem past_stable (cycleId : CycleId) :
    (system uuid4 start).Stable (RunIn RunStatus.Past cycleId) :=
  runIn_stable fun _ _ hp hb => RunStatus.Past.becomes hp hb

/-- What a label that publishes the cycle says about the step. -/
theorem publishes_commits {label : Call × Answer} (h : Publishes cycleId label)
    (hstep : exec uuid4 db label.1 = some (label.2, db')) :
    ∃ ownerId row, Commits cycleId ownerId row db db' := by
  obtain ⟨call, answer⟩ := label
  unfold Publishes at h
  split at h
  · rename_i p hiccups selection heq
    cases heq
    simp only [exec] at hstep
    split at hstep
    · rename_i reached hok
      simp only [Option.some.injEq, Prod.mk.injEq, Answer.published.injEq] at hstep
      obtain ⟨rfl, rfl⟩ := hstep
      obtain ⟨⟨c, ownerId⟩, hfence, rfl⟩ := Option.map_eq_some_iff.mp h
      obtain ⟨row, hcommits⟩ := publish_commits hfence hok
      exact ⟨ownerId, row, hcommits⟩
    · cases hstep
  · exact h.elim

/-- Out of a status past RUNNING no publication commits. -/
theorem past_bars {label : Call × Answer} (hpast : RunIn RunStatus.Past cycleId db)
    (hstep : exec uuid4 db label.1 = some (label.2, db')) : ¬ Publishes cycleId label := by
  intro hpublishes
  obtain ⟨ownerId, row, hcommits⟩ := publishes_commits hpublishes hstep
  obtain ⟨found, hfound, hp⟩ := hpast
  rw [hcommits.found, Option.some.injEq] at hfound
  subst hfound
  rw [hcommits.running] at hp
  exact hp (.refl _)

theorem publishes_past {label : Call × Answer} (h : Publishes cycleId label)
    (hstep : exec uuid4 db label.1 = some (label.2, db')) :
    RunIn RunStatus.Past cycleId db' := by
  obtain ⟨ownerId, row, hcommits⟩ := publishes_commits h hstep
  exact ⟨{ row with status := .published }, by rw [hcommits.runs, Table.put_self],
    RunStatus.past_published⟩

/-- A granted cancellation leaves the run CANCEL_REQUESTED and every other row as it was. -/
theorem cancel_granted {errorCode : String}
    (h : exec uuid4 db (.requestCycleCancel cycleId errorCode) = some (.cycle (.flag true), db')) :
    RunIn (· = .cancelRequested) cycleId db' ∧ db'.cycles.progress = db.cycles.progress := by
  obtain ⟨hanswer, rfl⟩ := onStore_some h
  simp only [Answer.cycle.injEq, requestCycleCancel] at hanswer
  simp only [requestCycleCancel]
  rcases updateRun_cases db.cycles cycleId
    (fun row => row.status ∈ ([.accepted, .running] : List RunStatus))
    (fun row => { row with status := .cancelRequested, errorCode := some errorCode }) with
    ⟨row, hrow, -, heq⟩ | ⟨-, heq⟩
  · simp only [heq]
    exact ⟨⟨_, Table.put_self _ _ _, rfl⟩, trivial⟩
  · simp only [heq] at hanswer
    simp at hanswer

end

/-! ### The contract -/

/-- What publication promises from a database on, whatever is called next. -/
structure PublicationContract (uuid4 : Nat → Suggestions.Uuid) (start : Instant)
    (db : Database) : Prop where
  /-- Of one cycle at most one publication commits. -/
  once : ∀ cycleId trace db', (system uuid4 start).Run db trace db' →
    trace.countP (fun label => decide (Publishes cycleId label)) ≤ 1
  /-- A commit found the run RUNNING and owned, with the lease live until its end. -/
  leased : ∀ p hiccups selection db' cycleId ownerId,
    exec uuid4 db (.publishOpportunityCycle p hiccups) = some (.published selection, db') →
      p.fence = some (cycleId, ownerId) → ∃ row, Commits cycleId ownerId row db db'
  /-- After a granted cancellation no publication of the cycle commits. -/
  cancelled : ∀ cycleId errorCode mid trace db',
    exec uuid4 db (.requestCycleCancel cycleId errorCode) = some (.cycle (.flag true), mid) →
      (system uuid4 start).Run mid trace db' → ∀ label ∈ trace, ¬ Publishes cycleId label
  /-- A published run stays PUBLISHED until it is COMPLETED, and nothing else. -/
  published : ∀ cycleId row, db.cycles.runs cycleId = some row → row.status = .published →
    ∀ trace db', (system uuid4 start).Run db trace db' →
      RunIn (fun status => status = .published ∨ status = .completed) cycleId db'
  /-- A publication that raises, wherever it does, leaves every table as it was. -/
  raised : ∀ p hiccups error db',
    exec uuid4 db (.publishOpportunityCycle p hiccups) = some (.cycle (.raised error), db') →
      RolledBack db db'

/-- **Publication is exactly-once and safe under cancellation, in every interleaving.** -/
theorem publicationContract_of_reachable {uuid4 : Nat → Suggestions.Uuid} {start : Instant}
    {db : Database} (hreach : (system uuid4 start).Reachable db) :
    PublicationContract uuid4 start db := by
  constructor
  · intro cycleId trace db' hrun
    refine hrun.at_most_once (past_stable cycleId) ?_ ?_ hreach
    · intro before label after hpast hstep
      exact past_bars hpast hstep
    · intro before label after hstep hlabel
      exact publishes_past hlabel hstep
  · intro p hiccups selection db' cycleId ownerId h hfence
    simp only [exec] at h
    split at h
    · rename_i reached hok
      simp only [Option.some.injEq, Prod.mk.injEq, Answer.published.injEq] at h
      obtain ⟨rfl, rfl⟩ := h
      exact publish_commits hfence hok
    · cases h
  · intro cycleId errorCode mid trace db' h hrun
    obtain ⟨row, hrow, hstatus⟩ := (cancel_granted h).1
    have hpast : RunIn RunStatus.Past cycleId mid :=
      ⟨row, hrow, by rw [hstatus]; exact RunStatus.past_cancelRequested⟩
    refine hrun.never (past_stable cycleId) ?_ ?_ hpast
    · intro before label after hpast hstep
      exact past_bars hpast hstep
    · exact hreach.step (l := (.requestCycleCancel cycleId errorCode, .cycle (.flag true))) h
  · intro cycleId row hrow hstatus trace db' hrun
    obtain ⟨row', hrow', hbecomes⟩ := run_row hreach hrun hrow
    rw [hstatus] at hbecomes
    exact ⟨row', hrow', hbecomes⟩
  · intro p hiccups error db' h
    simp only [exec] at h
    split at h
    · cases h
    · rename_i error reached heq
      simp only [Option.some.injEq, Prod.mk.injEq] at h
      rw [← h.2]
      exact publish_rolls_back heq

/-- The publication of a cycle without candidates, under the owner's fence. -/
def emptyPublication (cycleId : CycleId) (ownerId : OwnerId) : Publishing :=
  { snapshots := []
    assembled :=
      { recommendations := [], states := [],
        selection := { cycleId, generatedAt := "2026-01-01", market := "NSE",
                       controlledCandidateSet := false, payload := "{}" } }
    build := none, fence := some (cycleId, ownerId) }

/-- A publication whose first insert fails, and the retry that commits. -/
def retriedPublication : List Call :=
  [.createCycleRun "c1" "{}" "NSE", .claimCycleRun "c1" "a" 300 0,
    .publishOpportunityCycle (emptyPublication "c1" "a")
      [{ elapsed := 5 }, { elapsed := 5, failure := some .databaseError }],
    .publishOpportunityCycle (emptyPublication "c1" "a") [{ elapsed := 5 }]]

theorem publicationContract_of_retriedPublication :
    PublicationContract id 0
      ((Machine.replay (exec id) (Database.empty 0) retriedPublication).get (by decide)).2 :=
  publicationContract_of_reachable (Machine.replay_reachable (Option.some_get _).symm)

end InvestmentPlatform.Cycle

/-!
Cancellation freezes admission.

From the moment a cancellation is granted the run is CANCEL_REQUESTED, and later perhaps
CANCELLED.  In these statuses the one progress write the store admits is the end of an
attempt that already has a row, by the holder of the lease: it replaces a row without
raising its attempts.  So the attempts of every progress key, absent keys included, are a
property that stays.
-/

namespace InvestmentPlatform.Cycle

/-! ### What a progress write does to the attempts -/

/-- The attempts of a progress row; `none` where there is no row. -/
def attemptsOf (s : Store) (key : ProgressKey) : Option Nat :=
  (s.progress key).map ProgressRow.attempts

/-- Ending an attempt that has a row changes nobody's attempts. -/
theorem upsertProgress_attempts {s : Store} {key : ProgressKey} {write : ProgressWrite}
    (hrow : (s.progress key).isSome) (other : ProgressKey) :
    (upsertProgress key write false s.progress other).map ProgressRow.attempts
      = attemptsOf s other := by
  obtain ⟨row, hrow⟩ := Option.isSome_iff_exists.mp hrow
  unfold upsertProgress attemptsOf
  rw [Table.put_apply]
  split
  · rename_i heq
    rw [heq, hrow]
    rfl
  · rfl

/-- The two statuses of a run whose cancellation was granted. -/
def RunStatus.Cancelling (status : RunStatus) : Prop :=
  status = .cancelRequested ∨ status = .cancelled

theorem RunStatus.Cancelling.becomes {a b : RunStatus} (h : a.Cancelling) (hab : a.Becomes b) :
    b.Cancelling := by
  rcases h with rfl | rfl
  · exact hab
  · exact Or.inr hab

section
variable {uuid4 : Nat → Suggestions.Uuid} {start : Instant} {db db' : Database}
  {cycleId : CycleId}

/-- One call on a cancelled run leaves the attempts of its progress rows alone. -/
theorem exec_attempts {call : Call} {answer : Answer}
    (hcancel : RunIn RunStatus.Cancelling cycleId db)
    (h : exec uuid4 db call = some (answer, db')) (phase : Phase) (instrument : InstrumentId) :
    attemptsOf db'.cycles (cycleId, phase, instrument)
      = attemptsOf db.cycles (cycleId, phase, instrument) := by
  rcases (exec_effect h).progress with hsame |
    ⟨c, ownerId, ph, ins, write, startAttempt, row, -, hrow, hadmits, hwritten⟩
  · unfold attemptsOf
    rw [hsame]
  · show (db'.cycles.progress _).map _ = _
    rw [hwritten]
    by_cases hc : c = cycleId
    · -- A write to the cancelled run itself: only the end of an attempt with a row passes.
      subst hc
      obtain ⟨found, hfound, hstatus⟩ := hcancel
      rw [hrow, Option.some.injEq] at hfound
      subst hfound
      rcases hadmits.2.2 with hrunning | ⟨-, rfl, hexists⟩
      · rw [hrunning] at hstatus
        rcases hstatus with h | h <;> cases h
      · exact upsertProgress_attempts hexists _
    · unfold upsertProgress attemptsOf
      rw [Table.put_ne]
      intro heq
      exact hc (Prod.mk.inj heq).1.symm

theorem run_attempts {granted later : Database} {trace : List (Call × Answer)}
    (hreach : (system uuid4 start).Reachable granted)
    (hcancel : RunIn RunStatus.Cancelling cycleId granted)
    (hrun : (system uuid4 start).Run granted trace later) :
    RunIn RunStatus.Cancelling cycleId later ∧ ∀ phase instrument,
      attemptsOf later.cycles (cycleId, phase, instrument)
        = attemptsOf granted.cycles (cycleId, phase, instrument) := by
  refine hrun.stable (Q := fun db => RunIn RunStatus.Cancelling cycleId db ∧
    ∀ phase instrument, attemptsOf db.cycles (cycleId, phase, instrument)
      = attemptsOf granted.cycles (cycleId, phase, instrument)) ?_ hreach ⟨hcancel, fun _ _ => rfl⟩
  rintro before label after hbefore ⟨hin, hattempts⟩ hstep
  have hstable : (system uuid4 start).Stable (RunIn RunStatus.Cancelling cycleId) :=
    runIn_stable fun _ _ hp hb => RunStatus.Cancelling.becomes hp hb
  refine ⟨hstable before label after hbefore hin hstep, fun phase instrument => ?_⟩
  rw [exec_attempts hin hstep, hattempts]

/-- On a cancelled run of a lawful store, a lease is held only while CANCEL_REQUESTED. -/
theorem holdsLease_cancelRequested {s : Store} {ownerId : OwnerId} {row : CycleRun}
    (hlaw : StoreLaw s) (hrow : s.runs cycleId = some row) (hstatus : row.status.Cancelling)
    (howner : row.OwnedBy ownerId) : row.status = .cancelRequested := by
  rcases hstatus with h | h
  · exact h
  · have hterminal : row.status.Terminal := by rw [h]; decide
    have hnone := (hlaw.settled cycleId row hrow hterminal).1
    unfold CycleRun.OwnedBy at howner
    rw [hnone] at howner
    cases howner

end

/-! ### The contract -/

/-- The holder of the lease ends an attempt that has a row. -/
def EndsAttempt (s : Store) (cycleId : CycleId) (ownerId : OwnerId) (phase : Phase)
    (instrument : InstrumentId) (startAttempt : Bool) : Prop :=
  HoldsLease s cycleId ownerId ∧ startAttempt = false ∧
    (s.progress (cycleId, phase, instrument)).isSome

/-- What holds at any later time of a cycle whose cancellation was granted. -/
structure CancellationContract (uuid4 : Nat → Suggestions.Uuid) (cycleId : CycleId)
    (granted later : Database) : Prop where
  /-- No key appears or goes, and nobody's attempts change. -/
  frozen : ∀ phase instrument, attemptsOf later.cycles (cycleId, phase, instrument)
    = attemptsOf granted.cycles (cycleId, phase, instrument)
  /-- The lease holder may still end an attempt that has a row. -/
  finishes : ∀ ownerId phase instrument write startAttempt,
    EndsAttempt later.cycles cycleId ownerId phase instrument startAttempt →
      exec uuid4 later
          (.recordCycleProgress cycleId ownerId phase instrument write startAttempt)
        = some (.cycle .done, { later with cycles := { later.cycles with
            progress := upsertProgress (cycleId, phase, instrument) write startAttempt
              later.cycles.progress } })
  /-- Every other progress write raises and changes nothing. -/
  refuses : ∀ ownerId phase instrument write startAttempt,
    ¬ EndsAttempt later.cycles cycleId ownerId phase instrument startAttempt →
      exec uuid4 later
          (.recordCycleProgress cycleId ownerId phase instrument write startAttempt)
        = some (.cycle (.raised (.cycleOwnershipLost cycleId)), later)

/-- **A granted cancellation freezes the admission of work, in every later interleaving.** -/
theorem cancellationContract_of_granted {uuid4 : Nat → Suggestions.Uuid} {start : Instant}
    {db granted later : Database} {cycleId : CycleId} {errorCode : String}
    {trace : List (Call × Answer)} (hreach : (system uuid4 start).Reachable db)
    (hgranted : exec uuid4 db (.requestCycleCancel cycleId errorCode)
      = some (.cycle (.flag true), granted))
    (hrun : (system uuid4 start).Run granted trace later) :
    CancellationContract uuid4 cycleId granted later := by
  have hreach' : (system uuid4 start).Reachable granted :=
    hreach.step (l := (.requestCycleCancel cycleId errorCode, .cycle (.flag true))) hgranted
  have hcancel : RunIn RunStatus.Cancelling cycleId granted := by
    obtain ⟨row, hrow, hstatus⟩ := (cancel_granted hgranted).1
    exact ⟨row, hrow, Or.inl hstatus⟩
  obtain ⟨⟨row, hrow, hstatus⟩, hattempts⟩ := run_attempts hreach' hcancel hrun
  have hlaw := reachable_storeLaw (hrun.reachable hreach')
  refine ⟨hattempts, ?_, ?_⟩
  · rintro ownerId phase instrument write startAttempt ⟨⟨held, hheld, howner, hlive⟩, rfl, hexists⟩
    rw [hrow, Option.some.injEq] at hheld
    subst hheld
    have hrequested := holdsLease_cancelRequested hlaw hrow hstatus howner
    rcases recordCycleProgress_cases cycleId ownerId phase instrument write false later.cycles with
      ⟨-, -, -, heq⟩ | ⟨hmiss, -⟩
    · simp only [exec, Database.onStore, heq]
    · exact absurd ⟨howner, hlive, Or.inr ⟨hrequested, rfl, hexists⟩⟩ (hmiss row hrow)
  · intro ownerId phase instrument write startAttempt hnot
    rcases recordCycleProgress_cases cycleId ownerId phase instrument write startAttempt
      later.cycles with ⟨found, hfound, hadmits, -⟩ | ⟨-, heq⟩
    · refine (hnot ⟨⟨found, hfound, hadmits.1, hadmits.2.1⟩, ?_⟩).elim
      rw [hrow, Option.some.injEq] at hfound
      subst hfound
      rcases hadmits.2.2 with hrunning | ⟨-, hstart, hexists⟩
      · rw [hrunning] at hstatus
        rcases hstatus with h | h <;> cases h
      · exact ⟨hstart, hexists⟩
    · simp only [exec, Database.onStore, heq]

/-- A running cycle with one attempt open. -/
def openAttempt : List Call :=
  [.createCycleRun "c1" "{}" "NSE", .claimCycleRun "c1" "a" 300 0,
    .recordCycleProgress "c1" "a" .deep "i1" { state := .inProgress } true]

/-- The database after `openAttempt` and after the cancellation that follows it. -/
def cancelledAttempt : Database × Database :=
  let opened := ((Machine.replay (exec id) (Database.empty 0) openAttempt).get (by decide)).2
  (opened, ((exec id opened (.requestCycleCancel "c1" "CYCLE_CANCELLED")).get (by decide)).2)

theorem cancellationContract_of_openAttempt :
    CancellationContract id "c1" cancelledAttempt.2 cancelledAttempt.2 := by
  have hreach : (system id 0).Reachable cancelledAttempt.1 :=
    Machine.replay_reachable (Option.some_get _).symm
  have hgranted : exec id cancelledAttempt.1 (.requestCycleCancel "c1" "CYCLE_CANCELLED")
      = some (.cycle (.flag true), cancelledAttempt.2) := rfl
  exact cancellationContract_of_granted hreach hgranted (Machine.Run.nil _)

end InvestmentPlatform.Cycle
