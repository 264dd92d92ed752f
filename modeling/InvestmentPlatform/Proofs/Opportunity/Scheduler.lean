/-
The cadence of the scheduler over its restarts.

A submission whose cycle may still complete is remembered until its turn is over: by the process
that made it, and after a restart by the time of the cycle's row, as far as the history tells.  It
tells nothing of a post-close run, so a restart inside the window forgets that the run was made.
-/
import InvestmentPlatform.Opportunity.Scheduler

namespace InvestmentPlatform.Opportunity.Scheduler

open List Option

open Market (Instant)

variable {settings : Settings} {state state' : State} {action : Action}

/-! ### What is promised -/

/-- The cycle is complete, or on its way there. -/
def JobStatus.counts : JobStatus → Bool
  | .accepted | .running | .completed => true
  | _ => false

def State.Completed (state : State) (submission : Submission) : Prop :=
  ∃ job, submission.job = some job ∧ state.jobStatus job = some .completed

/-- All submissions in their order, each with how it ended. -/
def State.entries (state : State) : List (Submission × Option Outcome) :=
  (state.past.map fun entry => (entry.1, some entry.2)) ++
    state.inFlight.toList.map fun submission => (submission, none)

/-- What holds of the submissions of a run. -/
structure Cadence (settings : Settings) (state : State) : Prop where
  window : ∀ entry ∈ state.entries, entry.1.phase = .postClose →
    ∃ close, entry.1.session = some close ∧ close ≤ entry.1.madeAt ∧
      entry.1.madeAt - close ≤ settings.postCloseWindow
  hourly : state.entries.Pairwise fun earlier later =>
    earlier.2 ≠ some .raised → earlier.1.phase = .marketHours → later.1.phase = .marketHours →
      state.Completed earlier.1 → settings.hourlyInterval ≤ later.1.madeAt - earlier.1.madeAt

/-- What holds of a step. -/
structure StepCadence (state : State) (action : Action) (state' : State) : Prop where
  once : ∀ submission, state.inFlight = none → state'.inFlight = some submission →
    submission.phase = .postClose → ∀ entry ∈ state.past, entry.2 ≠ .raised →
      entry.1.phase = .postClose → entry.1.session = submission.session →
        ¬ state.Completed entry.1
  gates : ∀ submission, state.inFlight = none → state'.inFlight = some submission →
    state.paused = false ∧ state.activeCycleStatus ≠ some .cancelRequested ∧
      (state.calendar.status submission.madeAt = .isOpen ∨
        state.calendar.status submission.madeAt = .closed)
  /-- Only a submission that came back uses up the turn of its phase. -/
  turn : (∀ submission, state.inFlight = some submission → action ≠ .returned) →
    action ≠ .restart → state'.lastMarketHoursRun = state.lastMarketHoursRun ∧
      state'.lastPostCloseRun = state.lastPostCloseRun

/-! ### The condition -/

/-- The submission's turn is over, or the history will tell of it. -/
def State.outlives (settings : Settings) (state : State) (submission : Submission) : Bool :=
  match submission.job.bind (state.jobs[·]?) with
  | none => true
  | some job =>
    !job.status.counts ||
      match submission.phase with
      | .marketHours =>
        submission.madeAt ≤ job.updatedAt || settings.hourlyInterval ≤ state.now - submission.madeAt
      | .postClose => submission.session.all fun close =>
        settings.postCloseWindow < state.now - close

/-- No process is restarted while a submission that was not refused would be forgotten. -/
def Clean (settings : Settings) (state : State) : Action → Prop
  | .restart => ∀ entry ∈ state.entries, entry.2 ≠ some .raised →
    state.outlives settings entry.1 = true
  | _ => True

instance : (action : Action) → Decidable (Clean settings state action)
  | .restart => inferInstanceAs (Decidable (∀ entry ∈ state.entries, entry.2 ≠ some .raised →
      state.outlives settings entry.1 = true))
  | .clock _ | .setCalendar _ | .setPaused _ | .setActive _ | .foreignJob _ | .progress _ _
  | .poll | .createCycleRun | .coalesce _ | .returned | .raised => .isTrue trivial

/-! ### The invariant -/

/-- The submission's cycle counts. -/
def State.Counts (state : State) (submission : Submission) : Prop :=
  ∃ job row, submission.job = some job ∧ state.jobs[job]? = some row ∧ row.status.counts = true

/-- The submission keeps its phase from being due, or its turn is over. -/
def Remembered (settings : Settings) (state : State) (submission : Submission) : Prop :=
  match submission.phase with
  | .marketHours => (∃ last, state.lastMarketHoursRun = some last ∧ submission.madeAt ≤ last) ∨
      settings.hourlyInterval ≤ state.now - submission.madeAt
  | .postClose => ∀ close, submission.session = some close →
      (∃ last, state.lastPostCloseRun = some last ∧ close ≤ last) ∨
        settings.postCloseWindow < state.now - close

structure Made (settings : Settings) (state : State) (submission : Submission) : Prop where
  before : submission.madeAt ≤ state.now
  inRange : ∀ job, submission.job = some job → job < state.jobs.length
  window : submission.phase = .postClose → ∃ close, submission.session = some close ∧
    close ≤ submission.madeAt ∧ submission.madeAt - close ≤ settings.postCloseWindow

/-- An earlier submission and a later one are an interval apart. -/
def Apart (settings : Settings) (state : State) (earlier later : Submission × Option Outcome) :
    Prop :=
  earlier.2 ≠ some .raised → earlier.1.phase = .marketHours → later.1.phase = .marketHours →
    state.Counts earlier.1 → settings.hourlyInterval ≤ later.1.madeAt - earlier.1.madeAt

structure Inv (settings : Settings) (state : State) : Prop where
  slot : ∀ job, state.slot = some job → job < state.jobs.length
  made : ∀ entry ∈ state.entries, Made settings state entry.1
  remembered : ∀ entry ∈ state.past, entry.2 ≠ .raised → state.Counts entry.1 →
    Remembered settings state entry.1
  apart : state.entries.Pairwise (Apart settings state)
  ordered : state.entries.Pairwise fun earlier later => earlier.1.madeAt ≤ later.1.madeAt

variable {submission : Submission}

theorem State.Completed.counts (h : state.Completed submission) : state.Counts submission := by
  obtain ⟨job, hjob, hstatus⟩ := h
  obtain ⟨row, hrow, hcompleted⟩ := map_eq_some_iff.mp hstatus
  exact ⟨job, row, hjob, hrow, by rw [hcompleted]; rfl⟩

theorem Inv.cadence (h : Inv settings state) : Cadence settings state :=
  ⟨fun entry hentry => (h.made entry hentry).window,
    h.apart.imp fun hapart hraised hearlier hlater hcompleted =>
      hapart hraised hearlier hlater hcompleted.counts⟩

/-! ### What a step does to the jobs -/

/-- No cycle comes to count again. -/
structure JobsGrow (state state' : State) : Prop where
  length : state.jobs.length ≤ state'.jobs.length
  counts : ∀ job row, job < state.jobs.length → state'.jobs[job]? = some row →
    row.status.counts = true → ∃ old, state.jobs[job]? = some old ∧ old.status.counts = true

theorem counts_of_mayBecome {old new : JobStatus} (h : old.mayBecome new = true)
    (hnew : new.counts = true) : old.counts = true := by
  cases old with
  | accepted => rfl
  | running => rfl
  | completed => rfl
  | failed => cases h
  | cancelled => cases h
  | cancelRequested =>
    cases new with
    | accepted => cases h
    | running => cases h
    | completed => cases h
    | failed => cases hnew
    | cancelRequested => cases hnew
    | cancelled => cases hnew

theorem JobsGrow.refl (h : state'.jobs = state.jobs) : JobsGrow state state' := by
  refine ⟨Nat.le_of_eq (congrArg List.length h.symm), fun job row _ hrow hcounts => ?_⟩
  rw [h] at hrow
  exact ⟨row, hrow, hcounts⟩

theorem JobsGrow.append {job : Job} (h : state'.jobs = state.jobs ++ [job]) :
    JobsGrow state state' := by
  refine ⟨?_, fun index row hindex hrow hcounts => ?_⟩
  · rw [h, length_append]
    exact Nat.le_add_right _ _
  · rw [h, getElem?_append_left hindex] at hrow
    exact ⟨row, hrow, hcounts⟩

theorem JobsGrow.set {index : Nat} {old new : Job} (hold : state.jobs[index]? = some old)
    (hmay : old.status.mayBecome new.status = true) (h : state'.jobs = state.jobs.set index new) :
    JobsGrow state state' := by
  refine ⟨?_, fun job row hjob hrow hcounts => ?_⟩
  · rw [h, length_set]
  · rw [h] at hrow
    by_cases heq : index = job
    · subst heq
      rw [getElem?_set_self hjob] at hrow
      cases hrow
      exact ⟨old, hold, counts_of_mayBecome hmay hcounts⟩
    · rw [getElem?_set_ne heq] at hrow
      exact ⟨row, hrow, hcounts⟩

theorem JobsGrow.counts_of (h : JobsGrow state state')
    (hmade : Made settings state submission) (hcounts : state'.Counts submission) :
    state.Counts submission := by
  obtain ⟨job, row, hjob, hrow, hcounts⟩ := hcounts
  obtain ⟨old, hold, holdCounts⟩ := h.counts job row (hmade.inRange job hjob) hrow hcounts
  exact ⟨job, old, hjob, hold, holdCounts⟩

theorem Made.later (h : Made settings state submission)
    (hjobs : JobsGrow state state') (hnow : state.now ≤ state'.now) :
    Made settings state' submission :=
  ⟨Int.le_trans h.before hnow, fun job hjob => Nat.lt_of_lt_of_le (h.inRange job hjob) hjobs.length,
    h.window⟩

/-- Time only helps, as long as the memory is kept. -/
theorem Remembered.later (h : Remembered settings state submission)
    (hmarket : state'.lastMarketHoursRun = state.lastMarketHoursRun)
    (hclose : state'.lastPostCloseRun = state.lastPostCloseRun) (hnow : state.now ≤ state'.now) :
    Remembered settings state' submission := by
  unfold Remembered at h ⊢
  rw [hmarket, hclose]
  split
  · rename_i hphase
    rw [hphase] at h
    exact h.imp_right fun hle => Int.le_trans hle (Int.sub_le_sub_right hnow _)
  · rename_i hphase
    rw [hphase] at h
    exact fun close hclose' => (h close hclose').imp_right fun hlt =>
      Int.lt_of_lt_of_le hlt (Int.sub_le_sub_right hnow _)

/-! ### Steps -/

theorem mem_entries {entry : Submission × Outcome} (h : entry ∈ state.past) :
    (entry.1, some entry.2) ∈ state.entries :=
  mem_append_left _ (mem_map.mpr ⟨entry, h, rfl⟩)

theorem mem_entries_inFlight (h : state.inFlight = some submission) :
    (submission, none) ∈ state.entries := by
  rw [State.entries, h]
  exact mem_append_right _ (mem_singleton.mpr rfl)

theorem Inv.before_inFlight {entry : Submission × Outcome}
    (h : Inv settings state) (hflight : state.inFlight = some submission)
    (hentry : entry ∈ state.past) : entry.1.madeAt ≤ submission.madeAt := by
  have hordered := h.ordered
  rw [State.entries, hflight, pairwise_append] at hordered
  exact hordered.2.2 _ (mem_map.mpr ⟨entry, hentry, rfl⟩) (submission, none) (mem_singleton.mpr rfl)

/-- A step of the world around, which the scheduler does not see. -/
structure Around (state state' : State) : Prop where
  jobs : JobsGrow state state'
  now : state.now ≤ state'.now
  slot : ∀ job, state'.slot = some job → state.slot = some job ∨ job < state'.jobs.length
  market : state'.lastMarketHoursRun = state.lastMarketHoursRun
  close : state'.lastPostCloseRun = state.lastPostCloseRun
  flight : state'.inFlight = state.inFlight
  past : state'.past = state.past

def Action.around : Action → Bool
  | .clock _ | .setCalendar _ | .setPaused _ | .setActive _ | .foreignJob _ | .progress _ _ => true
  | _ => false

theorem around_of_exec (haround : action.around = true)
    (hexec : state.exec settings action = some state') : Around state state' := by
  have hsame : ∀ job, state.slot = some job → state.slot = some job ∨ job < state.jobs.length :=
    fun _ hjob => Or.inl hjob
  cases action with
  | clock now =>
    simp only [State.exec] at hexec
    split at hexec
    · rename_i hle
      cases hexec
      exact ⟨.refl rfl, hle, hsame, rfl, rfl, rfl, rfl⟩
    · cases hexec
  | setCalendar calendar =>
    cases hexec
    exact ⟨.refl rfl, Int.le_refl _, hsame, rfl, rfl, rfl, rfl⟩
  | setPaused paused =>
    cases hexec
    exact ⟨.refl rfl, Int.le_refl _, hsame, rfl, rfl, rfl, rfl⟩
  | setActive active =>
    cases hexec
    exact ⟨.refl rfl, Int.le_refl _, hsame, rfl, rfl, rfl, rfl⟩
  | foreignJob slot =>
    simp only [State.exec] at hexec
    split at hexec
    · cases hexec
    · cases hexec
      refine ⟨.append rfl, Int.le_refl _, fun job hjob => ?_, rfl, rfl, rfl, rfl⟩
      simp only at hjob
      split at hjob
      · cases hjob
        refine Or.inr ?_
        rw [length_append, length_singleton]
        exact Nat.lt_succ_self _
      · exact Or.inl hjob
  | progress job status =>
    simp only [State.exec] at hexec
    split at hexec
    · cases hexec
    · rename_i old hold
      split at hexec
      · rename_i hmay
        cases hexec
        refine ⟨.set hold hmay rfl, Int.le_refl _, fun job' hjob => ?_, rfl, rfl, rfl, rfl⟩
        simp only at hjob
        split at hjob
        · cases hjob
        · exact Or.inl hjob
      · cases hexec
  | poll => cases haround
  | createCycleRun => cases haround
  | coalesce job => cases haround
  | returned => cases haround
  | raised => cases haround
  | restart => cases haround

theorem Inv.around (h : Inv settings state) (haround : Around state state') :
    Inv settings state' := by
  have hentries : state'.entries = state.entries := by
    rw [State.entries, State.entries, haround.flight, haround.past]
  refine ⟨fun job hjob => ?_, fun entry hentry => ?_, fun entry hentry hraised hcounts => ?_, ?_,
    hentries ▸ h.ordered⟩
  · rcases haround.slot job hjob with hold | hlt
    · exact Nat.lt_of_lt_of_le (h.slot job hold) haround.jobs.length
    · exact hlt
  · rw [hentries] at hentry
    exact (h.made entry hentry).later haround.jobs haround.now
  · rw [haround.past] at hentry
    exact (h.remembered entry hentry hraised
      (haround.jobs.counts_of (h.made _ (mem_entries hentry)) hcounts)).later haround.market
        haround.close haround.now
  · rw [hentries]
    refine h.apart.imp_of_mem fun hearlier _ hapart hraised hphase hphase' hcounts => ?_
    exact hapart hraised hphase hphase' (haround.jobs.counts_of (h.made _ hearlier) hcounts)

theorem entries_none (h : state.inFlight = none) :
    state.entries = state.past.map fun entry => (entry.1, some entry.2) := by
  rw [State.entries, h]
  exact append_nil _

theorem entries_some (h : state.inFlight = some submission) :
    state.entries = (state.past.map fun entry => (entry.1, some entry.2)) ++ [(submission, none)] := by
  rw [State.entries, h]
  rfl

/-- What a poll finds due. -/
theorem due_cases {phase : Phase} (h : state.submissionDue settings = some phase) :
    state.paused = false ∧ state.activeCycleStatus ≠ some .cancelRequested ∧
      (state.calendar.status state.now = .isOpen ∧ phase = .marketHours ∧
          state.marketHoursDue settings = true ∨
        state.calendar.status state.now = .closed ∧ phase = .postClose ∧
          state.postCloseDue settings = true) := by
  unfold State.submissionDue at h
  split at h
  · cases h
  · rename_i hpaused
    split at h
    · cases h
    · split at h
      · cases h
      · rename_i hcancel
        rw [not_or] at hcancel
        refine ⟨Bool.eq_false_iff.mpr hpaused, hcancel.1, ?_⟩
        split at h
        · rename_i hopen
          split at h
          · rename_i hdue
            cases h
            exact Or.inl ⟨hopen, rfl, hdue⟩
          · cases h
        · rename_i hclosed
          split at h
          · rename_i hdue
            cases h
            exact Or.inr ⟨hclosed, rfl, hdue⟩
          · cases h
        · cases h

/-- A post-close run is due for a session that has closed within the window, and that the last run
was before. -/
theorem postCloseDue_cases (h : state.postCloseDue settings = true) :
    ∃ close, state.completedSession = some close ∧ close ≤ state.now ∧
      state.now - close ≤ settings.postCloseWindow ∧
        ∀ last, state.lastPostCloseRun = some last → last < close := by
  unfold State.postCloseDue at h
  split at h
  · cases h
  · rename_i close hclose
    rw [Bool.and_eq_true, decide_eq_true_eq] at h
    refine ⟨close, hclose, Market.le_of_latestCompletedSession hclose, h.2, fun last hlast => ?_⟩
    rw [hlast, all_some, decide_eq_true_eq] at h
    exact h.1

/-- The submission of a poll. -/
structure Polled (settings : Settings) (state : State) (submission : Submission) : Prop where
  due : state.submissionDue settings = some submission.phase
  madeAt : submission.madeAt = state.now
  session : submission.session = state.completedSession
  job : submission.job = none

theorem Polled.made (h : Polled settings state submission) : Made settings state submission := by
  refine ⟨Int.le_of_eq h.madeAt, fun job hjob => ?_, fun hphase => ?_⟩
  · cases h.job.symm.trans hjob
  · obtain ⟨-, -, hcases⟩ := due_cases h.due
    rcases hcases with ⟨-, hmarket, -⟩ | ⟨-, -, hdue⟩
    · cases hphase.symm.trans hmarket
    · obtain ⟨close, hclose, hle, hwindow, -⟩ := postCloseDue_cases hdue
      refine ⟨close, h.session.trans hclose, ?_, ?_⟩
      · rw [h.madeAt]
        exact hle
      · rw [h.madeAt]
        exact hwindow

/-- What is remembered of an earlier submission has kept the poll away from its turn. -/
theorem Polled.hourly {earlier later : Submission} (h : Polled settings state later)
    (hremembered : Remembered settings state earlier) (hearlier : earlier.phase = .marketHours)
    (hlater : later.phase = .marketHours) :
    settings.hourlyInterval ≤ later.madeAt - earlier.madeAt := by
  obtain ⟨-, -, hcases⟩ := due_cases h.due
  rcases hcases with ⟨-, -, hdue⟩ | ⟨-, hclose, -⟩
  · unfold Remembered at hremembered
    rw [hearlier] at hremembered
    rw [h.madeAt]
    rcases hremembered with ⟨last, hlast, hle⟩ | hover
    · unfold State.marketHoursDue at hdue
      rw [hlast, all_some, decide_eq_true_eq] at hdue
      exact Int.le_trans hdue (Int.sub_le_sub_left hle _)
    · exact hover
  · cases hlater.symm.trans hclose

theorem Polled.once {earlier later : Submission} (h : Polled settings state later)
    (hremembered : Remembered settings state earlier) (hearlier : earlier.phase = .postClose)
    (hlater : later.phase = .postClose) (hsession : earlier.session = later.session) : False := by
  obtain ⟨-, -, hcases⟩ := due_cases h.due
  rcases hcases with ⟨-, hmarket, -⟩ | ⟨-, -, hdue⟩
  · cases hlater.symm.trans hmarket
  · obtain ⟨close, hclose, -, hwindow, hlast⟩ := postCloseDue_cases hdue
    unfold Remembered at hremembered
    rw [hearlier] at hremembered
    rcases hremembered close (hsession.trans (h.session.trans hclose)) with
      ⟨last, hmemory, hle⟩ | hover
    · exact Int.not_le.mpr (hlast last hmemory) hle
    · exact Int.not_le.mpr hover hwindow

theorem Inv.polled (h : Inv settings state)
    (hflight : state.inFlight = none) (hpolled : Polled settings state submission) :
    Inv settings { state with inFlight := some submission } := by
  have hentries : State.entries { state with inFlight := some submission } =
      state.entries ++ [(submission, none)] := by
    rw [entries_none hflight]
    rfl
  refine ⟨h.slot, fun entry hentry => ?_, h.remembered, ?_, ?_⟩
  · rw [hentries] at hentry
    rcases mem_append.mp hentry with hold | hnew
    · have hmade := h.made entry hold
      exact ⟨hmade.before, hmade.inRange, hmade.window⟩
    · cases mem_singleton.mp hnew
      have hmade := hpolled.made
      exact ⟨hmade.before, hmade.inRange, hmade.window⟩
  · rw [hentries, pairwise_append]
    refine ⟨h.apart, pairwise_singleton _ _, fun earlier hearlier later hlater => ?_⟩
    cases mem_singleton.mp hlater
    rw [entries_none hflight] at hearlier
    obtain ⟨entry, hentry, rfl⟩ := mem_map.mp hearlier
    intro hraised hphase hphase' hcounts
    exact hpolled.hourly (h.remembered entry hentry (fun heq => hraised (congrArg some heq)) hcounts)
      hphase hphase'
  · rw [hentries, pairwise_append]
    refine ⟨h.ordered, pairwise_singleton _ _, fun earlier hearlier later hlater => ?_⟩
    cases mem_singleton.mp hlater
    rw [hpolled.madeAt]
    exact (h.made earlier hearlier).before

/-- The worker has a cycle for the submission. -/
theorem Inv.admitted {job : Nat} (h : Inv settings state)
    (hflight : state.inFlight = some submission) (hjobs : JobsGrow state state')
    (hslot : ∀ job, state'.slot = some job → job < state'.jobs.length)
    (hjob : job < state'.jobs.length) (hnow : state'.now = state.now)
    (hmarket : state'.lastMarketHoursRun = state.lastMarketHoursRun)
    (hclose : state'.lastPostCloseRun = state.lastPostCloseRun)
    (hflight' : state'.inFlight = some { submission with job := some job })
    (hpast : state'.past = state.past) : Inv settings state' := by
  have hapart := h.apart
  have hordered := h.ordered
  rw [entries_some hflight, pairwise_append] at hapart hordered
  have hmem := entries_some hflight ▸ h.made
  refine ⟨hslot, fun entry hentry => ?_, fun entry hentry hraised hcounts => ?_, ?_, ?_⟩
  · rw [entries_some hflight', hpast] at hentry
    rcases mem_append.mp hentry with hold | hnew
    · exact (hmem entry (mem_append_left _ hold)).later hjobs (Int.le_of_eq hnow.symm)
    · cases mem_singleton.mp hnew
      have hmade := hmem (submission, none) (mem_append_right _ (mem_singleton.mpr rfl))
      refine ⟨hnow ▸ hmade.before, fun job' hjob' => ?_, hmade.window⟩
      cases hjob'
      exact hjob
  · rw [hpast] at hentry
    exact (h.remembered entry hentry hraised
      (hjobs.counts_of (h.made _ (mem_entries hentry)) hcounts)).later hmarket hclose
        (Int.le_of_eq hnow.symm)
  · rw [entries_some hflight', hpast, pairwise_append]
    refine ⟨hapart.1.imp_of_mem fun hearlier _ hold hraised hphase hphase' hcounts => ?_,
      pairwise_singleton _ _, fun earlier hearlier later hlater => ?_⟩
    · exact hold hraised hphase hphase'
        (hjobs.counts_of (hmem _ (mem_append_left _ hearlier)) hcounts)
    · cases mem_singleton.mp hlater
      intro hraised hphase hphase' hcounts
      exact hapart.2.2 earlier hearlier (submission, none) (mem_singleton.mpr rfl) hraised
        hphase hphase' (hjobs.counts_of (hmem _ (mem_append_left _ hearlier)) hcounts)
  · rw [entries_some hflight', hpast, pairwise_append]
    refine ⟨hordered.1, pairwise_singleton _ _, fun earlier hearlier later hlater => ?_⟩
    cases mem_singleton.mp hlater
    exact hordered.2.2 earlier hearlier (submission, none) (mem_singleton.mpr rfl)

/-- The submission that was waited for is over, and what counts is remembered. -/
theorem Inv.ended (outcome : Outcome) (h : Inv settings state)
    (hflight : state.inFlight = some submission) (hjobs : state'.jobs = state.jobs)
    (hslot : state'.slot = state.slot) (hnow : state'.now = state.now)
    (hflight' : state'.inFlight = none) (hpast : state'.past = state.past ++ [(submission, outcome)])
    (hremembered : ∀ entry ∈ state'.past, entry.2 ≠ .raised → state.Counts entry.1 →
      Remembered settings state' entry.1) : Inv settings state' := by
  have hapart := h.apart
  have hordered := h.ordered
  rw [entries_some hflight, pairwise_append] at hapart hordered
  have hmem := entries_some hflight ▸ h.made
  have hgrow : JobsGrow state state' := .refl hjobs
  have hentries : state'.entries =
      (state.past.map fun entry => (entry.1, some entry.2)) ++ [(submission, some outcome)] := by
    rw [entries_none hflight', hpast, map_append]
    rfl
  have hlast := mem_append_right (state.past.map fun entry => (entry.1, some entry.2))
    (mem_singleton.mpr (rfl : (submission, (none : Option Outcome)) = (submission, none)))
  have hcountsOf : ∀ entry : Submission × Option Outcome,
      entry ∈ (state.past.map fun entry => (entry.1, some entry.2)) →
        state'.Counts entry.1 → state.Counts entry.1 :=
    fun entry hentry => hgrow.counts_of (hmem entry (mem_append_left _ hentry))
  refine ⟨fun job hjob => ?_, fun entry hentry => ?_, fun entry hentry hraised hcounts => ?_, ?_, ?_⟩
  · rw [hjobs]
    exact h.slot job (hslot ▸ hjob)
  · rw [hentries] at hentry
    rcases mem_append.mp hentry with hold | hnew
    · exact (hmem entry (mem_append_left _ hold)).later hgrow (Int.le_of_eq hnow.symm)
    · cases mem_singleton.mp hnew
      exact (hmem (submission, none) hlast).later hgrow (Int.le_of_eq hnow.symm)
  · refine hremembered entry hentry hraised ?_
    rw [hpast] at hentry
    rcases mem_append.mp hentry with hold | hnew
    · exact hgrow.counts_of (h.made _ (mem_entries hold)) hcounts
    · cases mem_singleton.mp hnew
      exact hgrow.counts_of (hmem (submission, none) hlast) hcounts
  · rw [hentries, pairwise_append]
    refine ⟨hapart.1.imp_of_mem fun hearlier _ hold hraised hphase hphase' hcounts =>
        hold hraised hphase hphase' (hcountsOf _ hearlier hcounts),
      pairwise_singleton _ _, fun earlier hearlier later hlater => ?_⟩
    cases mem_singleton.mp hlater
    intro hraised hphase hphase' hcounts
    exact hapart.2.2 earlier hearlier (submission, none) (mem_singleton.mpr rfl) hraised
      hphase hphase' (hcountsOf earlier hearlier hcounts)
  · rw [hentries, pairwise_append]
    refine ⟨hordered.1, pairwise_singleton _ _, fun earlier hearlier later hlater => ?_⟩
    cases mem_singleton.mp hlater
    exact hordered.2.2 earlier hearlier (submission, none) (mem_singleton.mpr rfl)

/-- With no submission in flight, the memory is made anew. -/
theorem Inv.forgotten (h : Inv settings state) (hjobs : state'.jobs = state.jobs)
    (hslot : state'.slot = state.slot) (hnow : state'.now = state.now)
    (hflight : state'.inFlight = state.inFlight) (hpast : state'.past = state.past)
    (hremembered : ∀ entry ∈ state.past, entry.2 ≠ .raised → state.Counts entry.1 →
      Remembered settings state' entry.1) : Inv settings state' := by
  have hentries : state'.entries = state.entries := by
    rw [State.entries, State.entries, hflight, hpast]
  have hgrow : JobsGrow state state' := .refl hjobs
  refine ⟨fun job hjob => ?_, fun entry hentry => ?_, fun entry hentry hraised hcounts => ?_, ?_,
    hentries ▸ h.ordered⟩
  · rw [hjobs]
    exact h.slot job (hslot ▸ hjob)
  · rw [hentries] at hentry
    exact (h.made entry hentry).later hgrow (Int.le_of_eq hnow.symm)
  · rw [hpast] at hentry
    exact hremembered entry hentry hraised (hgrow.counts_of (h.made _ (mem_entries hentry)) hcounts)
  · rw [hentries]
    refine h.apart.imp_of_mem fun hearlier _ hold hraised hphase hphase' hcounts => ?_
    exact hold hraised hphase hphase' (hgrow.counts_of (h.made _ hearlier) hcounts)

/-! ### What comes back, and what a restart leaves -/

/-- A later run of the market hours takes the place of what was remembered. -/
theorem Remembered.market {madeAt : Instant} (h : Remembered settings state submission)
    (hle : submission.madeAt ≤ madeAt) (hmarket : state'.lastMarketHoursRun = some madeAt)
    (hclose : state'.lastPostCloseRun = state.lastPostCloseRun) (hnow : state'.now = state.now) :
    Remembered settings state' submission := by
  unfold Remembered at h ⊢
  rw [hmarket, hclose, hnow]
  split
  · rename_i hphase
    rw [hphase] at h
    exact Or.inl ⟨madeAt, rfl, hle⟩
  · rename_i hphase
    rw [hphase] at h
    exact h

theorem Remembered.postClose {madeAt : Instant} (h : Remembered settings state submission)
    (hmade : Made settings state submission) (hle : submission.madeAt ≤ madeAt)
    (hmarket : state'.lastMarketHoursRun = state.lastMarketHoursRun)
    (hclose : state'.lastPostCloseRun = some madeAt) (hnow : state'.now = state.now) :
    Remembered settings state' submission := by
  unfold Remembered at h ⊢
  rw [hmarket, hclose, hnow]
  split
  · rename_i hphase
    rw [hphase] at h
    exact h
  · rename_i hphase
    intro close hsession
    obtain ⟨close', hsession', hbefore, -⟩ := hmade.window hphase
    cases hsession.symm.trans hsession'
    exact Or.inl ⟨madeAt, rfl, Int.le_trans hbefore hle⟩

/-- A submission that came back uses up the turn of its phase. -/
theorem remembered_of_returned (hmade : Made settings state submission)
    (hmarket : submission.phase = .marketHours → state'.lastMarketHoursRun = some submission.madeAt)
    (hclose : submission.phase = .postClose → state'.lastPostCloseRun = some submission.madeAt) :
    Remembered settings state' submission := by
  unfold Remembered
  split
  · rename_i hphase
    exact Or.inl ⟨_, hmarket hphase, Int.le_refl _⟩
  · rename_i hphase
    intro close hsession
    obtain ⟨close', hsession', hbefore, -⟩ := hmade.window hphase
    cases hsession.symm.trans hsession'
    exact Or.inl ⟨_, hclose hphase, hbefore⟩

theorem le_recoverJob (last : Option Instant) (job : Job) (old : Instant) (h : last = some old) :
    ∃ new, recoverJob last job = some new ∧ old ≤ new := by
  subst h
  unfold recoverJob
  split
  · split
    · rename_i hlt
      rw [all_some, decide_eq_true_eq] at hlt
      exact ⟨_, rfl, Int.le_of_lt hlt⟩
    · exact ⟨old, rfl, Int.le_refl old⟩
  · exact ⟨old, rfl, Int.le_refl old⟩

theorem le_recover_of_some (jobs : List Job) (old : Instant) :
    ∃ new, jobs.foldl recoverJob (some old) = some new ∧ old ≤ new := by
  induction jobs generalizing old with
  | nil => exact ⟨old, rfl, Int.le_refl old⟩
  | cons job jobs ih =>
    obtain ⟨mid, hmid, hle⟩ := le_recoverJob (some old) job old rfl
    obtain ⟨new, hnew, hle'⟩ := ih mid
    refine ⟨new, ?_, Int.le_trans hle hle'⟩
    rw [foldl_cons, hmid]
    exact hnew

/-- The history tells of every cycle that counts. -/
theorem le_recoverLastRuns {jobs : List Job} {job : Job} (hjob : job ∈ jobs)
    (hcounts : job.status.counts = true) :
    ∃ last, recoverLastRuns jobs = some last ∧ job.updatedAt ≤ last := by
  have hstatus : job.status = .completed ∨ job.status = .accepted ∨ job.status = .running := by
    cases hcase : job.status with
    | accepted => exact Or.inr (Or.inl rfl)
    | running => exact Or.inr (Or.inr rfl)
    | completed => exact Or.inl rfl
    | failed => rw [hcase] at hcounts; cases hcounts
    | cancelRequested => rw [hcase] at hcounts; cases hcounts
    | cancelled => rw [hcase] at hcounts; cases hcounts
  have hown : ∀ last, ∃ new, recoverJob last job = some new ∧ job.updatedAt ≤ new := by
    intro last
    unfold recoverJob
    rw [if_pos hstatus]
    split
    · exact ⟨_, rfl, Int.le_refl _⟩
    · rename_i hnot
      cases last with
      | none => exact absurd rfl hnot
      | some old =>
        rw [all_some, decide_eq_true_eq] at hnot
        exact ⟨old, rfl, Int.not_lt.mp hnot⟩
  unfold recoverLastRuns
  generalize (none : Option Instant) = last
  induction jobs generalizing last with
  | nil => exact absurd hjob not_mem_nil
  | cons first jobs ih =>
    rw [foldl_cons]
    rcases mem_cons.mp hjob with rfl | hrest
    · obtain ⟨mid, hmid, hle⟩ := hown last
      obtain ⟨new, hnew, hle'⟩ := le_recover_of_some jobs mid
      exact ⟨new, hmid ▸ hnew, Int.le_trans hle hle'⟩
    · exact ih hrest _

/-- What outlives the restart is still remembered after it. -/
theorem remembered_of_outlives (hcounts : state.Counts submission)
    (h : state.outlives settings submission = true)
    (hmarket : state'.lastMarketHoursRun = recoverLastRuns state.jobs)
    (hnow : state'.now = state.now) : Remembered settings state' submission := by
  obtain ⟨job, row, hjob, hrow, hrowCounts⟩ := hcounts
  unfold State.outlives at h
  rw [hjob, bind_some, hrow] at h
  simp only [hrowCounts, Bool.not_true, Bool.false_or] at h
  unfold Remembered
  split
  · rename_i hphase
    rw [hphase] at h
    simp only [Bool.or_eq_true, decide_eq_true_eq] at h
    rw [hmarket, hnow]
    rcases h with hbefore | hover
    · obtain ⟨last, hlast, hle⟩ := le_recoverLastRuns (mem_of_getElem? hrow) hrowCounts
      exact Or.inl ⟨last, hlast, Int.le_trans hbefore hle⟩
    · exact Or.inr hover
  · rename_i hphase
    rw [hphase] at h
    intro close hclose
    simp only [hclose, all_some, decide_eq_true_eq] at h
    rw [hnow]
    exact Or.inr h

/-! ### Every step -/

theorem Inv.step (h : Inv settings state) (hclean : Clean settings state action)
    (hexec : state.exec settings action = some state') : Inv settings state' := by
  cases action with
  | clock now => exact h.around (around_of_exec rfl hexec)
  | setCalendar calendar => exact h.around (around_of_exec rfl hexec)
  | setPaused paused => exact h.around (around_of_exec rfl hexec)
  | setActive active => exact h.around (around_of_exec rfl hexec)
  | foreignJob slot => exact h.around (around_of_exec rfl hexec)
  | progress job status => exact h.around (around_of_exec rfl hexec)
  | poll =>
    simp only [State.exec] at hexec
    split at hexec
    · cases hexec
    · cases hexec
      exact h
    · rename_i phase hflight hdue
      cases hexec
      exact h.polled hflight ⟨hdue, rfl, rfl, rfl⟩
  | createCycleRun =>
    simp only [State.exec] at hexec
    split at hexec
    · cases hexec
    · rename_i submission hflight
      split at hexec
      · cases hexec
      · split at hexec
        · rename_i job hslot
          cases hexec
          exact h.admitted hflight (.refl rfl) h.slot (h.slot job hslot) rfl rfl rfl rfl rfl
        · cases hexec
          have hlt : state.jobs.length < (state.jobs ++ [(⟨.accepted, state.now⟩ : Job)]).length := by
            rw [length_append, length_singleton]
            exact Nat.lt_succ_self _
          refine h.admitted hflight (.append rfl) (fun job hjob => ?_) hlt rfl rfl rfl rfl rfl
          cases hjob
          exact hlt
  | coalesce job =>
    simp only [State.exec] at hexec
    split at hexec
    · cases hexec
    · rename_i submission hflight
      split at hexec
      · cases hexec
      · rename_i hrange
        rw [not_or] at hrange
        cases hexec
        exact h.admitted hflight (.refl rfl) h.slot (Nat.not_le.mp hrange.2) rfl rfl rfl rfl rfl
  | returned =>
    obtain ⟨submission, hflight, rfl⟩ := map_eq_some_iff.mp hexec
    have hmade := h.made (submission, none) (mem_entries_inFlight hflight)
    cases hphase : submission.phase with
    | marketHours =>
      refine h.ended .returned hflight rfl rfl rfl rfl rfl fun entry hentry hraised hcounts => ?_
      rcases mem_append.mp hentry with hold | hnew
      · exact (h.remembered entry hold hraised hcounts).market
          (h.before_inFlight hflight hold) rfl rfl rfl
      · cases mem_singleton.mp hnew
        exact remembered_of_returned hmade (fun _ => rfl) fun hclose => by
          cases hphase.symm.trans hclose
    | postClose =>
      refine h.ended .returned hflight rfl rfl rfl rfl rfl fun entry hentry hraised hcounts => ?_
      rcases mem_append.mp hentry with hold | hnew
      · exact (h.remembered entry hold hraised hcounts).postClose (h.made _ (mem_entries hold))
          (h.before_inFlight hflight hold) rfl rfl rfl
      · cases mem_singleton.mp hnew
        refine remembered_of_returned hmade (fun hmarket => ?_) fun _ => rfl
        cases hphase.symm.trans hmarket
  | raised =>
    obtain ⟨submission, hflight, rfl⟩ := map_eq_some_iff.mp hexec
    refine h.ended .raised hflight rfl rfl rfl rfl rfl fun entry hentry hraised hcounts => ?_
    rcases mem_append.mp hentry with hold | hnew
    · exact (h.remembered entry hold hraised hcounts).later rfl rfl (Int.le_refl _)
    · cases mem_singleton.mp hnew
      exact absurd rfl hraised
  | restart =>
    cases hexec
    have hold : ∀ entry ∈ state.past, entry.2 ≠ .raised →
        state.outlives settings entry.1 = true := fun entry hentry hraised =>
      hclean _ (mem_entries hentry) fun heq => hraised (some.inj heq)
    cases hflight : state.inFlight with
    | none =>
      have hpast : state.past ++ ((none : Option Submission).map fun submission =>
          (submission, Outcome.stopped)).toList = state.past := append_nil _
      refine h.forgotten rfl rfl rfl hflight.symm hpast fun entry hentry hraised hcounts => ?_
      exact remembered_of_outlives hcounts (hold entry hentry hraised) rfl rfl
    | some submission =>
      refine h.ended .stopped hflight rfl rfl rfl rfl rfl fun entry hentry hraised hcounts => ?_
      rcases mem_append.mp hentry with hentry | hnew
      · exact remembered_of_outlives hcounts (hold entry hentry hraised) rfl rfl
      · cases mem_singleton.mp hnew
        refine remembered_of_outlives hcounts ?_ rfl rfl
        exact hclean _ (mem_entries_inFlight hflight) nofun

/-- Where the scheduler starts with nothing submitted. -/
theorem Inv.init (h : (machine settings).init state) : Inv settings state := by
  obtain ⟨hflight, hpast, hslot⟩ := h
  have hentries : state.entries = [] := by
    rw [entries_none hflight, hpast]
    rfl
  refine ⟨hslot, fun entry hentry => ?_, fun entry hentry => ?_, ?_, ?_⟩
  · rw [hentries] at hentry
    cases hentry
  · rw [hpast] at hentry
    cases hentry
  · rw [hentries]
    exact List.Pairwise.nil
  · rw [hentries]
    exact List.Pairwise.nil

/-- A submission is made by a poll. -/
theorem polled_of_inFlight (hnone : state.inFlight = none)
    (hsome : state'.inFlight = some submission) (hexec : state.exec settings action = some state') :
    Polled settings state submission := by
  have hkept : ¬ Around state state' := by
    intro haround
    rw [haround.flight, hnone] at hsome
    cases hsome
  cases action with
  | clock now => exact absurd (around_of_exec rfl hexec) hkept
  | setCalendar calendar => exact absurd (around_of_exec rfl hexec) hkept
  | setPaused paused => exact absurd (around_of_exec rfl hexec) hkept
  | setActive active => exact absurd (around_of_exec rfl hexec) hkept
  | foreignJob slot => exact absurd (around_of_exec rfl hexec) hkept
  | progress job status => exact absurd (around_of_exec rfl hexec) hkept
  | poll =>
    simp only [State.exec] at hexec
    split at hexec
    · cases hexec
    · cases hexec
      cases hnone.symm.trans hsome
    · rename_i phase _ hdue
      cases hexec
      cases hsome
      exact ⟨hdue, rfl, rfl, rfl⟩
  | createCycleRun =>
    simp only [State.exec, hnone] at hexec
    cases hexec
  | coalesce job =>
    simp only [State.exec, hnone] at hexec
    cases hexec
  | returned =>
    simp only [State.exec, hnone] at hexec
    cases hexec
  | raised =>
    simp only [State.exec, hnone] at hexec
    cases hexec
  | restart =>
    cases hexec
    cases hsome

theorem turn_kept (hreturned : ∀ submission, state.inFlight = some submission → action ≠ .returned)
    (hrestart : action ≠ .restart) (hexec : state.exec settings action = some state') :
    state'.lastMarketHoursRun = state.lastMarketHoursRun ∧
      state'.lastPostCloseRun = state.lastPostCloseRun := by
  cases action with
  | clock now =>
    have haround := around_of_exec rfl hexec
    exact ⟨haround.market, haround.close⟩
  | setCalendar calendar =>
    have haround := around_of_exec rfl hexec
    exact ⟨haround.market, haround.close⟩
  | setPaused paused =>
    have haround := around_of_exec rfl hexec
    exact ⟨haround.market, haround.close⟩
  | setActive active =>
    have haround := around_of_exec rfl hexec
    exact ⟨haround.market, haround.close⟩
  | foreignJob slot =>
    have haround := around_of_exec rfl hexec
    exact ⟨haround.market, haround.close⟩
  | progress job status =>
    have haround := around_of_exec rfl hexec
    exact ⟨haround.market, haround.close⟩
  | poll =>
    simp only [State.exec] at hexec
    split at hexec
    · cases hexec
    · cases hexec
      exact ⟨rfl, rfl⟩
    · cases hexec
      exact ⟨rfl, rfl⟩
  | createCycleRun =>
    simp only [State.exec] at hexec
    split at hexec
    · cases hexec
    · split at hexec
      · cases hexec
      · split at hexec
        · cases hexec
          exact ⟨rfl, rfl⟩
        · cases hexec
          exact ⟨rfl, rfl⟩
  | coalesce job =>
    simp only [State.exec] at hexec
    split at hexec
    · cases hexec
    · split at hexec
      · cases hexec
      · cases hexec
        exact ⟨rfl, rfl⟩
  | returned =>
    obtain ⟨submission, hflight, -⟩ := map_eq_some_iff.mp hexec
    exact absurd rfl (hreturned submission hflight)
  | raised =>
    obtain ⟨submission, -, rfl⟩ := map_eq_some_iff.mp hexec
    exact ⟨rfl, rfl⟩
  | restart => exact absurd rfl hrestart

theorem Inv.stepCadence (h : Inv settings state)
    (hexec : state.exec settings action = some state') : StepCadence state action state' := by
  refine ⟨fun submission hnone hsome hphase entry hentry hraised hphase' hsession hcompleted => ?_,
    fun submission hnone hsome => ?_, fun hreturned hrestart => turn_kept hreturned hrestart hexec⟩
  · exact (polled_of_inFlight hnone hsome hexec).once
      (h.remembered entry hentry hraised hcompleted.counts) hphase' hphase hsession
  · have hpolled := polled_of_inFlight hnone hsome hexec
    obtain ⟨hpaused, hcancel, hcases⟩ := due_cases hpolled.due
    rw [hpolled.madeAt]
    exact ⟨hpaused, hcancel, hcases.imp And.left And.left⟩

/-! ### Every run -/

theorem inv_of_clean (h : ((machine settings).restrict (Clean settings)).Reachable state) :
    Inv settings state :=
  h.invariant (fun _ hinit => .init hinit) fun _ _ _ hinv hstep => hinv.step hstep.1 hstep.2

/-- **The cadence survives every restart that forgets no submission**: in every run whose restarts
are such, each completed session gets one post-close run that completes, runs of the market hours
are an interval apart, and no submission passes the gates. -/
theorem cadence_of_clean (h : ((machine settings).restrict (Clean settings)).Reachable state) :
    Cadence settings state ∧
      ∀ action state', ((machine settings).restrict (Clean settings)).step state action state' →
        StepCadence state action state' :=
  have hinv := inv_of_clean h
  ⟨hinv.cadence, fun _ _ hstep => hinv.stepCadence hstep.2⟩

/-! ### Two days -/

/-- Every day has a session. -/
def everyDay : Calendar where
  status now :=
    if 33300000000 ≤ now % Market.dayLength ∧ now % Market.dayLength < 55800000000 then .isOpen
    else .closed
  bounds date :=
    some (date * Market.dayLength + 33300000000, date * Market.dayLength + 55800000000)

def beforeOpening : State where
  now := 33000000000
  calendar := everyDay
  paused := false
  active := false
  jobs := []
  slot := none
  lastMarketHoursRun := none
  lastPostCloseRun := none
  inFlight := none
  past := []

theorem init_beforeOpening : (machine {}).init beforeOpening :=
  ⟨rfl, rfl, nofun⟩

/-- A run in the market hours, a restart after it, and the run after the close. -/
def restartedInHours : Option State :=
  [.clock 33300000000, .poll, .createCycleRun, .returned, .clock 34000000000, .progress 0 .running,
    .progress 0 .completed, .restart, .poll, .clock 55900000000, .poll, .createCycleRun,
    .returned].foldlM
      (fun state action => if Clean {} state action then state.exec {} action else none)
      beforeOpening

theorem restartedInHours_isSome : restartedInHours.isSome := by rfl

theorem cadence_of_clean_sample :
    Cadence {} (restartedInHours.get restartedInHours_isSome) ∧
      ∀ action state', ((machine {}).restrict (Clean {})).step
          (restartedInHours.get restartedInHours_isSome) action state' →
        StepCadence (restartedInHours.get restartedInHours_isSome) action state' :=
  cadence_of_clean ((Machine.run_of_guarded (fun _ _ _ hstep => hstep)
    (Option.some_get restartedInHours_isSome).symm).reachable (.init init_beforeOpening))

/-- The run after the close completes, and the process is restarted. -/
def restartedAfterClose : Option State :=
  [.clock 55900000000, .poll, .createCycleRun, .returned, .clock 56000000000, .progress 0 .running,
    .progress 0 .completed, .restart].foldlM (State.exec {}) beforeOpening

theorem restartedAfterClose_isSome : restartedAfterClose.isSome := by rfl

def afterClose : State := restartedAfterClose.get restartedAfterClose_isSome

theorem polledAgain_isSome : (afterClose.exec {} .poll).isSome := by rfl

def polledAgain : State := (afterClose.exec {} .poll).get polledAgain_isSome

theorem polledAgain_facts : afterClose.inFlight = none ∧
    (polledAgain.inFlight.map fun submission => (submission.phase, submission.session)) =
      some (.postClose, some 55800000000) ∧
    (afterClose.past.map fun entry => (entry.1.phase, entry.1.session, entry.1.job, entry.2)) =
      [(.postClose, some 55800000000, some 0, .returned)] ∧
    afterClose.jobStatus 0 = some .completed := by
  decide

/-- **A restart inside the window runs the session's post-close scan again.** -/
theorem post_close_repeated : ∃ state state', (machine {}).Reachable state ∧
    (machine {}).step state .poll state' ∧ ¬ StepCadence state .poll state' := by
  refine ⟨afterClose, polledAgain,
    (Machine.run_of_foldlM (fun _ _ _ hstep => hstep)
      (Option.some_get restartedAfterClose_isSome).symm).reachable (.init init_beforeOpening),
    (Option.some_get polledAgain_isSome).symm, fun h => ?_⟩
  obtain ⟨hnone, hsome, hpast, hcompleted⟩ := polledAgain_facts
  obtain ⟨submission, hflight, hpair⟩ := Option.map_eq_some_iff.mp hsome
  obtain ⟨hphase, hsession⟩ := Prod.mk.inj hpair
  obtain ⟨entry, hentries, hfields⟩ := List.map_eq_singleton_iff.mp hpast
  simp only [Prod.mk.injEq] at hfields
  obtain ⟨hphase', hsession', hjob, houtcome⟩ := hfields
  refine h.once submission hnone hflight hphase entry ?_ ?_ hphase' ?_ ⟨0, hjob, hcompleted⟩
  · rw [hentries]
    exact List.mem_singleton.mpr rfl
  · rw [houtcome]
    exact nofun
  · rw [hsession', hsession]

end InvestmentPlatform.Opportunity.Scheduler
