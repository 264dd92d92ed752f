/-
Bounded attempts across restarts.

The copy of the rows a run holds in memory counts the attempts the stored rows count, whatever
was lost before it.  So a candidate that the budget checks look at is started below the bound:
the checks are `restorable` in the main pass, the pools and the look-ahead, and the filter of
the repair pass.  What they do not look at is a row with all its attempts spent that is left
in progress, or whose outcome cannot be taken over; such a candidate is started once more.
Without a step of that kind the attempts stay within the bound, and every such step exceeds it.
-/
import InvestmentPlatform.Cycle.Attempts

namespace InvestmentPlatform.Cycle

open Option List CycleCheckpoint

variable {cycleId : CycleId} {maxAttempts : Nat} {reader : PayloadReader}

/-! ### Attempts, stored and in memory -/

/-- What a write does to the stored attempts of every pair. -/
theorem attempts_upsert (progress : Table ProgressKey ProgressRow) (worker worker' : Option Worker)
    (phase : Phase) (id : InstrumentId) (write : ProgressWrite) (startAttempt : Bool)
    (pair : Pair) :
    Site.attempts cycleId
        ⟨upsertProgress (cycleId, phase, id) write startAttempt progress, worker'⟩ pair =
      Site.attempts cycleId ⟨progress, worker⟩ pair +
        if pair = (phase, id) ∧ startAttempt then 1 else 0 := by
  by_cases h : pair = (phase, id)
  · subst h
    simp only [Site.attempts, upsertProgress, Table.put_self, map_some, getD_some]
    cases startAttempt with
    | false => cases progress (cycleId, phase, id) <;> rfl
    | true => cases progress (cycleId, phase, id) <;> rfl
  · have hkey : (cycleId, pair.1, pair.2) ≠ (cycleId, phase, id) := fun he =>
      h (Prod.mk.inj he).2
    simp only [Site.attempts, upsertProgress, Table.put_ne _ _ hkey, h, false_and, if_false,
      Nat.add_zero]

theorem checkpoint_attempts_start (checkpoint : CycleCheckpoint String) (phase : Phase)
    (id : InstrumentId) (pair : Pair) :
    (checkpoint.start phase id).attempts pair.1 pair.2 =
      checkpoint.attempts pair.1 pair.2 + if pair = (phase, id) then 1 else 0 := by
  unfold attempts row start
  by_cases h : pair = (phase, id)
  · subst h
    simp only [Table.put_self, if_true, map_some, getD_some]
    cases hrow : checkpoint.row phase id with
    | none =>
        have hnone : checkpoint.progress (phase, id) = none := hrow
        simp [hnone]
    | some row =>
        have hsome : checkpoint.progress (phase, id) = some row := hrow
        simp [hsome]
  · simp [h]

theorem checkpoint_attempts_finish (checkpoint : CycleCheckpoint String) (phase : Phase)
    (id : InstrumentId) (state : CandidateState) (disposition failureReason payload : Option String)
    (pair : Pair) :
    (checkpoint.finish phase id state disposition failureReason payload).attempts pair.1 pair.2 =
      checkpoint.attempts pair.1 pair.2 := by
  by_cases h : pair = (phase, id)
  · subst h
    show ((Table.put _ _ _ (phase, id)).map CheckpointRow.attempts).getD 0 = _
    rw [Table.put_self]
    rfl
  · show ((Table.put _ _ _ (pair.1, pair.2)).map CheckpointRow.attempts).getD 0 = _
    rw [Table.put_ne _ _ h]
    rfl

/-! ### What a run keeps -/

/-- A run and the stored rows agree, and what a repair pass has still to start is below the
bound. -/
structure InStep (cycleId : CycleId) (maxAttempts : Nat) (s : Site) (w : Worker) : Prop where
  limit : w.checkpoint.maxAttempts = maxAttempts
  synced : ∀ pair : Pair, w.checkpoint.attempts pair.1 pair.2 = s.attempts cycleId pair
  distinct : w.upcoming.Nodup
  below : w.repair = true → ∀ id ∈ w.upcoming, id ∉ w.startedAttempts →
    s.attempts cycleId (.deep, id) < maxAttempts

/-- The run of a site, if there is one, is in step with it. -/
def Site.InStep (cycleId : CycleId) (maxAttempts : Nat) (s : Site) : Prop :=
  ∀ w ∈ s.worker, Cycle.InStep cycleId maxAttempts s w

/-- A row with its attempts spent that no budget check holds back: it was left in progress, or
it is restorable and its outcome cannot be taken over. -/
def Overlooked (maxAttempts : Nat) (reader : PayloadReader) (w : Worker) (phase : Phase)
    (id : InstrumentId) : Prop :=
  ∃ row ∈ w.checkpoint.row phase id, maxAttempts ≤ row.attempts ∧
    ((row.state ∉ finalStates ∧ row.state ≠ .retryableFailure) ∨ ¬ w.Restores reader phase row)

instance (w : Worker) (phase : Phase) (id : InstrumentId) :
    Decidable (Overlooked maxAttempts reader w phase id) :=
  inferInstanceAs (Decidable (∃ row ∈ w.checkpoint.row phase id, _ ∧ (_ ∨ _)))

/-- The step starts an overlooked candidate. -/
def Unbudgeted (maxAttempts : Nat) (reader : PayloadReader) (s : Site) : Event → Prop
  | .take phase id => ∃ w ∈ s.worker, Overlooked maxAttempts reader w phase id
  | .next => ∃ w ∈ s.worker, ∃ id ∈ w.upcoming.head?,
      w.repair = false ∧ id ∉ w.startedAttempts ∧ Overlooked maxAttempts reader w .deep id
  | .prefetch id => ∃ w ∈ s.worker, w.repair = false ∧ Overlooked maxAttempts reader w .deep id
  | _ => False

instance (s : Site) (e : Event) : Decidable (Unbudgeted maxAttempts reader s e) :=
  match e with
  | .take _ _ => inferInstanceAs (Decidable (∃ w ∈ s.worker, _))
  | .next => inferInstanceAs (Decidable (∃ w ∈ s.worker, ∃ id ∈ w.upcoming.head?, _ ∧ _ ∧ _))
  | .prefetch _ => inferInstanceAs (Decidable (∃ w ∈ s.worker, _ ∧ _))
  | .resume _ | .lost | .finish .. | .nextPass => isFalse id

variable {w : Worker} {phase : Phase} {id : InstrumentId}

/-- What is neither held nor overlooked has an attempt left. -/
theorem attempts_lt (hmax : 0 < maxAttempts) (hlimit : w.checkpoint.maxAttempts = maxAttempts)
    (hheld : ¬ w.Held reader phase id) (hseen : ¬ Overlooked maxAttempts reader w phase id) :
    w.checkpoint.attempts phase id < maxAttempts := by
  unfold attempts
  cases hrow : w.checkpoint.row phase id with
  | none => exact hmax
  | some row =>
      by_contra hspent
      rw [map_some, getD_some, Nat.not_lt] at hspent
      have hclassified : row.state ∈ finalStates ∨ row.state = .retryableFailure := by
        by_contra hneither
        rw [not_or] at hneither
        exact hseen ⟨row, hrow, hspent, Or.inl hneither⟩
      have hrestores : w.Restores reader phase row := by
        by_contra hnot
        exact hseen ⟨row, hrow, hspent, Or.inr hnot⟩
      refine hheld ⟨row, ?_, hrestores⟩
      rw [mem_def, restorable, hrow]
      simp only
      split
      · rfl
      · rename_i hfinal
        rw [if_pos ⟨hclassified.resolve_left hfinal, hlimit ▸ hspent⟩]

/-- Where a candidate is not held, being overlooked means that its attempts are spent. -/
theorem le_attempts_of_overlooked (h : Overlooked maxAttempts reader w phase id) :
    maxAttempts ≤ w.checkpoint.attempts phase id ∧ ¬ w.Held reader phase id := by
  obtain ⟨row, hrow, hspent, hwhy⟩ := h
  rw [mem_def] at hrow
  constructor
  · rw [attempts, hrow]
    exact hspent
  · rintro ⟨found, hfound, hrestores⟩
    have hsame := row_of_restorable hfound
    rw [hrow, some.injEq] at hsame
    subst hsame
    rcases hwhy with ⟨hfinal, hretry⟩ | hnot
    · rw [mem_def, restorable, hrow] at hfound
      simp [hfinal, hretry] at hfound
    · exact hnot hrestores

/-! ### What the moves of a run do -/

variable {s s' : Site} {r : Option Pair × Site}

theorem takeFromPool_cases (h : takeFromPool cycleId reader s w phase id = some r) :
    phase ≠ .deep ∧ ∃ waiting, (w.Held reader phase id ∧ r = s.goOn { w with
        waiting := waiting, checkpoint := w.checkpoint.noteRestored phase }) ∨
      (¬ w.Held reader phase id ∧ r = s.start cycleId { w with
        waiting := waiting, running := (phase, id) :: w.running } phase id) := by
  simp only [takeFromPool] at h
  split at h
  · rename_i hguard
    refine ⟨hguard.1, Function.update w.waiting phase ((w.waiting phase).erase id), ?_⟩
    split at h
    · rename_i hheld
      exact Or.inl ⟨hheld, (some.inj h).symm⟩
    · rename_i hheld
      exact Or.inr ⟨hheld, (some.inj h).symm⟩
  · cases h

theorem nextCandidate_cases (h : nextCandidate cycleId reader s w = some r) :
    ∃ id upcoming, w.upcoming = id :: upcoming ∧
      ((w.repair = false ∧ w.Held reader .deep id ∧ r = s.goOn { w with
          upcoming := upcoming, checkpoint := w.checkpoint.noteRestored .deep }) ∨
        (id ∈ w.startedAttempts ∧ r = s.goOn { w with
          upcoming := upcoming, current := some id
          startedAttempts := w.startedAttempts.erase id }) ∨
        ((w.repair = false → ¬ w.Held reader .deep id) ∧ id ∉ w.startedAttempts ∧
          r = s.start cycleId { w with upcoming := upcoming, current := some id } .deep id)) := by
  unfold nextCandidate at h
  cases hcurrent : w.current with
  | some id => simp [hcurrent] at h
  | none =>
      cases hupcoming : w.upcoming with
      | nil => simp [hcurrent, hupcoming] at h
      | cons id upcoming =>
          refine ⟨id, upcoming, rfl, ?_⟩
          simp only [hcurrent, hupcoming] at h
          split at h
          · rename_i hheld
            exact Or.inl ⟨hheld.1, hheld.2, (some.inj h).symm⟩
          · rename_i hnot
            split at h
            · rename_i hstarted
              exact Or.inr (Or.inl ⟨hstarted, (some.inj h).symm⟩)
            · rename_i hstarted
              refine Or.inr (Or.inr ⟨?_, hstarted, (some.inj h).symm⟩)
              exact fun hrepair hheld => hnot ⟨hrepair, hheld⟩

theorem prefetchAhead_cases (h : prefetchAhead cycleId s w id = some r) :
    id ∈ w.upcoming ∧ id ∉ w.startedAttempts ∧
      (w.repair = true ∨ w.checkpoint.restorable .deep id = none) ∧
      r = s.start cycleId { w with startedAttempts := id :: w.startedAttempts } .deep id := by
  unfold prefetchAhead at h
  split at h
  · rename_i hguard
    exact ⟨hguard.2.1, hguard.2.2.1, hguard.2.2.2, (some.inj h).symm⟩
  · cases h

theorem recordOutcome_cases {write : ProgressWrite}
    (h : recordOutcome cycleId s w phase id write = some r) :
    ∃ current running, r = s.finish cycleId { w with current := current, running := running }
      phase id write := by
  unfold recordOutcome at h
  split at h
  · split at h
    · split at h
      · exact ⟨none, w.running, (some.inj h).symm⟩
      · cases h
    · split at h
      · exact ⟨w.current, _, (some.inj h).symm⟩
      · cases h
  · cases h

theorem nextPass_cases (h : nextPass s w = some r) : ∃ passesLeft, r = s.goOn { w with
      upcoming := w.plan.deepCandidates.filter fun id => w.Repairable id
      repair := true, passesLeft := passesLeft } := by
  unfold nextPass at h
  split at h
  · exact ⟨_, (some.inj h).symm⟩
  · cases h

/-- A started pair counts one attempt more, in the store and in memory. -/
theorem InStep.start (hlimit : w.checkpoint.maxAttempts = maxAttempts)
    (hsynced : ∀ pair : Pair, w.checkpoint.attempts pair.1 pair.2 = s.attempts cycleId pair)
    (hdistinct : w.upcoming.Nodup)
    (hbelow : w.repair = true → ∀ j ∈ w.upcoming, j ∉ w.startedAttempts →
      ((Phase.deep, j) : Pair) ≠ (phase, id) ∧ s.attempts cycleId (.deep, j) < maxAttempts) :
    (s.start cycleId w phase id).2.InStep cycleId maxAttempts ∧
      ∀ pair, (s.start cycleId w phase id).2.attempts cycleId pair =
        s.attempts cycleId pair + if some (phase, id) = some pair then 1 else 0 := by
  have hcount : ∀ pair, (s.start cycleId w phase id).2.attempts cycleId pair =
      s.attempts cycleId pair + if pair = (phase, id) then 1 else 0 := by
    intro pair
    refine (attempts_upsert s.progress s.worker _ phase id { state := .inProgress } true
      pair).trans ?_
    simp only [and_true]
  constructor
  · intro w' hw'
    cases hw'
    constructor
    · exact hlimit
    · intro pair
      rw [hcount, ← hsynced]
      exact checkpoint_attempts_start w.checkpoint phase id pair
    · exact hdistinct
    · intro hrepair j hj hnew
      obtain ⟨hne, hlt⟩ := hbelow hrepair j hj hnew
      rw [hcount, if_neg hne]
      exact hlt
  · intro pair
    rw [hcount]
    by_cases h : pair = (phase, id)
    · rw [if_pos h, if_pos (by rw [h])]
    · rw [if_neg h, if_neg fun he => h (some.inj he).symm]

variable {e : Event}

/-- **A step** keeps the run in step with the rows, and adds an attempt to the pair it starts
and to no other. -/
theorem workStep_inStep {out : Option Pair} (h : s.InStep cycleId maxAttempts)
    (hstep : workStep cycleId maxAttempts reader s e = some (out, s')) :
    s'.InStep cycleId maxAttempts ∧ ∀ pair, s'.attempts cycleId pair =
        s.attempts cycleId pair + if out = some pair then 1 else 0 := by
  have hstill : ∀ w, Cycle.InStep cycleId maxAttempts s w →
      (s.goOn w).2.InStep cycleId maxAttempts ∧ ∀ pair, (s.goOn w).2.attempts cycleId pair =
          s.attempts cycleId pair + if (none : Option Pair) = some pair then 1 else 0 := by
    intro w hw
    refine ⟨fun w' hw' => ?_, fun pair => rfl⟩
    cases hw'
    exact ⟨hw.limit, hw.synced, hw.distinct, hw.below⟩
  cases e with
  | resume plan =>
      cases hworker : s.worker with
      | some w => simp [workStep, hworker] at hstep
      | none =>
          simp only [workStep, hworker, some.injEq] at hstep
          cases hstep
          refine hstill _ ⟨rfl, fun pair => ?_, plan.distinct, nofun⟩
          show (((s.progress (cycleId, pair.1, pair.2)).map _).map _).getD 0 = _
          rw [Option.map_map]
          rfl
  | lost =>
      obtain ⟨w, hworker, hr⟩ := map_eq_some_iff.mp hstep
      cases hr
      refine ⟨fun w' hw' => ?_, fun pair => rfl⟩
      cases hw'
  | take phase id =>
      obtain ⟨w, hworker, htake⟩ := bind_eq_some_iff.mp hstep
      have hw := h w hworker
      obtain ⟨hphase, waiting, ⟨-, hr⟩ | ⟨-, hr⟩⟩ := takeFromPool_cases htake
      · cases hr
        exact hstill _ ⟨hw.limit, hw.synced, hw.distinct, hw.below⟩
      · cases hr
        refine InStep.start hw.limit hw.synced hw.distinct fun hrepair j hj hnew => ?_
        exact ⟨fun he => hphase (Prod.mk.inj he).1.symm, hw.below hrepair j hj hnew⟩
  | next =>
      obtain ⟨w, hworker, hnext⟩ := bind_eq_some_iff.mp hstep
      have hw := h w hworker
      obtain ⟨id, upcoming, hupcoming, hr⟩ := nextCandidate_cases hnext
      have hdistinct := hw.distinct
      rw [hupcoming, nodup_cons] at hdistinct
      have hlater : ∀ j ∈ upcoming, j ∈ w.upcoming ∧ j ≠ id := fun j hj =>
        ⟨hupcoming ▸ mem_cons_of_mem _ hj, fun he => hdistinct.1 (he ▸ hj)⟩
      rcases hr with ⟨hmain, -, hr⟩ | ⟨-, hr⟩ | ⟨-, -, hr⟩
      · cases hr
        refine hstill _ ⟨hw.limit, hw.synced, hdistinct.2, fun hrepair => ?_⟩
        exact absurd (hmain.symm.trans hrepair) (by decide)
      · cases hr
        refine hstill _ ⟨hw.limit, hw.synced, hdistinct.2, fun hrepair j hj hnew => ?_⟩
        refine hw.below hrepair j (hlater j hj).1 fun hstarted => hnew ?_
        exact (mem_erase_of_ne (hlater j hj).2).mpr hstarted
      · cases hr
        refine InStep.start hw.limit hw.synced hdistinct.2 fun hrepair j hj hnew => ?_
        exact ⟨fun he => (hlater j hj).2 (Prod.mk.inj he).2,
          hw.below hrepair j (hlater j hj).1 hnew⟩
  | prefetch id =>
      obtain ⟨w, hworker, hprefetch⟩ := bind_eq_some_iff.mp hstep
      have hw := h w hworker
      obtain ⟨-, -, -, hr⟩ := prefetchAhead_cases hprefetch
      cases hr
      refine InStep.start hw.limit hw.synced hw.distinct fun hrepair j hj hnew => ?_
      rw [mem_cons, not_or] at hnew
      exact ⟨fun he => hnew.1 (Prod.mk.inj he).2, hw.below hrepair j hj hnew.2⟩
  | finish phase id write =>
      obtain ⟨w, hworker, hrecord⟩ := bind_eq_some_iff.mp hstep
      have hw := h w hworker
      obtain ⟨current, running, hr⟩ := recordOutcome_cases hrecord
      cases hr
      have hcount : ∀ pair, Site.attempts cycleId
          ⟨upsertProgress (cycleId, phase, id) write false s.progress, none⟩ pair =
          s.attempts cycleId pair := by
        intro pair
        refine (attempts_upsert s.progress s.worker none phase id write false pair).trans ?_
        simp only [Bool.false_eq_true, and_false, if_false, Nat.add_zero]
      constructor
      · intro w' hw'
        cases hw'
        refine ⟨hw.limit, fun pair => ?_, hw.distinct, fun hrepair j hj hnew => ?_⟩
        · rw [checkpoint_attempts_finish]
          exact (hw.synced pair).trans (hcount pair).symm
        · exact Nat.lt_of_le_of_lt (Nat.le_of_eq (hcount _)) (hw.below hrepair j hj hnew)
      · intro pair
        exact hcount pair
  | nextPass =>
      obtain ⟨w, hworker, hpass⟩ := bind_eq_some_iff.mp hstep
      have hw := h w hworker
      obtain ⟨passesLeft, hr⟩ := nextPass_cases hpass
      cases hr
      refine hstill _ ⟨hw.limit, hw.synced, w.plan.distinct.filter _, fun _ j hj _ => ?_⟩
      obtain ⟨-, hrepairable⟩ := mem_filter.mp hj
      have hlt := (of_decide_eq_true hrepairable).1
      rw [hw.limit] at hlt
      exact (hw.synced (.deep, j)) ▸ hlt

/-! ### Starts within the bound, and beyond it -/

/-- What a step starts, unless it is an overlooked candidate, has an attempt left. -/
theorem start_within {pair : Pair} (hmax : 0 < maxAttempts)
    (h : s.InStep cycleId maxAttempts) (hseen : ¬ Unbudgeted maxAttempts reader s e)
    (hstep : workStep cycleId maxAttempts reader s e = some (some pair, s')) :
    s.attempts cycleId pair < maxAttempts := by
  cases e with
  | resume plan =>
      cases hworker : s.worker with
      | some w => simp [workStep, hworker] at hstep
      | none =>
          simp only [workStep, hworker, some.injEq] at hstep
          cases hstep
  | lost =>
      obtain ⟨w, hworker, hr⟩ := map_eq_some_iff.mp hstep
      cases hr
  | take phase id =>
      obtain ⟨w, hworker, htake⟩ := bind_eq_some_iff.mp hstep
      have hw := h w hworker
      obtain ⟨-, waiting, ⟨-, hr⟩ | ⟨hheld, hr⟩⟩ := takeFromPool_cases htake
      · cases hr
      · cases hr
        rw [← hw.synced]
        exact attempts_lt hmax hw.limit hheld fun hover => hseen ⟨w, hworker, hover⟩
  | next =>
      obtain ⟨w, hworker, hnext⟩ := bind_eq_some_iff.mp hstep
      have hw := h w hworker
      obtain ⟨id, upcoming, hupcoming, hr⟩ := nextCandidate_cases hnext
      rcases hr with ⟨-, -, hr⟩ | ⟨-, hr⟩ | ⟨hheld, hnew, hr⟩
      · cases hr
      · cases hr
      · cases hr
        cases hrepair : w.repair with
        | true => exact hw.below hrepair id (hupcoming ▸ mem_cons_self) hnew
        | false =>
            rw [← hw.synced]
            refine attempts_lt hmax hw.limit (hheld hrepair) fun hover => hseen ?_
            exact ⟨w, hworker, id, by rw [hupcoming]; rfl, hrepair, hnew, hover⟩
  | prefetch id =>
      obtain ⟨w, hworker, hprefetch⟩ := bind_eq_some_iff.mp hstep
      have hw := h w hworker
      obtain ⟨hupcoming, hnew, hfree, hr⟩ := prefetchAhead_cases hprefetch
      cases hr
      cases hrepair : w.repair with
      | true => exact hw.below hrepair id hupcoming hnew
      | false =>
          rcases hfree with hcontra | hnone
          · exact absurd (hrepair.symm.trans hcontra) (by decide)
          · rw [← hw.synced]
            refine attempts_lt hmax hw.limit ?_ fun hover => hseen ⟨w, hworker, hrepair, hover⟩
            intro hheld
            obtain ⟨row, hrow, -⟩ := hheld
            rw [hnone] at hrow
            cases hrow
  | finish phase id write =>
      obtain ⟨w, hworker, hrecord⟩ := bind_eq_some_iff.mp hstep
      obtain ⟨current, running, hr⟩ := recordOutcome_cases hrecord
      cases hr
  | nextPass =>
      obtain ⟨w, hworker, hpass⟩ := bind_eq_some_iff.mp hstep
      obtain ⟨passesLeft, hr⟩ := nextPass_cases hpass
      cases hr

/-- A step that comes to an overlooked candidate starts it, with its attempts spent. -/
theorem start_beyond {out : Option Pair}
    (h : s.InStep cycleId maxAttempts) (hover : Unbudgeted maxAttempts reader s e)
    (hstep : workStep cycleId maxAttempts reader s e = some (out, s')) :
    ∃ pair, out = some pair ∧ maxAttempts ≤ s.attempts cycleId pair := by
  cases e with
  | take phase id =>
      obtain ⟨w, hworker, htake⟩ := bind_eq_some_iff.mp hstep
      obtain ⟨v, hv, hrow⟩ := hover
      obtain rfl : w = v := some.inj (hworker.symm.trans hv)
      obtain ⟨hspent, hheld⟩ := le_attempts_of_overlooked hrow
      obtain ⟨-, waiting, ⟨hcontra, -⟩ | ⟨-, hr⟩⟩ := takeFromPool_cases htake
      · exact absurd hcontra hheld
      · cases hr
        exact ⟨(phase, id), rfl, (h w hworker).synced (phase, id) ▸ hspent⟩
  | next =>
      obtain ⟨w, hworker, hnext⟩ := bind_eq_some_iff.mp hstep
      obtain ⟨v, hv, id, hhead, hrepair, hnew, hrow⟩ := hover
      obtain rfl : w = v := some.inj (hworker.symm.trans hv)
      obtain ⟨hspent, hheld⟩ := le_attempts_of_overlooked hrow
      obtain ⟨j, upcoming, hupcoming, hr⟩ := nextCandidate_cases hnext
      rw [hupcoming] at hhead
      cases hhead
      rcases hr with ⟨-, hcontra, -⟩ | ⟨hcontra, -⟩ | ⟨-, -, hr⟩
      · exact absurd hcontra hheld
      · exact absurd hcontra hnew
      · cases hr
        exact ⟨(.deep, id), rfl, (h w hworker).synced (.deep, id) ▸ hspent⟩
  | prefetch id =>
      obtain ⟨w, hworker, hprefetch⟩ := bind_eq_some_iff.mp hstep
      obtain ⟨v, hv, -, hrow⟩ := hover
      obtain rfl : w = v := some.inj (hworker.symm.trans hv)
      obtain ⟨hspent, -⟩ := le_attempts_of_overlooked hrow
      obtain ⟨-, -, -, hr⟩ := prefetchAhead_cases hprefetch
      cases hr
      exact ⟨(.deep, id), rfl, (h w hworker).synced (.deep, id) ▸ hspent⟩
  | resume plan => exact hover.elim
  | lost => exact hover.elim
  | finish phase id write => exact hover.elim
  | nextPass => exact hover.elim

/-! ### Runs -/

theorem freshSite_attempts (pair : Pair) : freshSite.attempts cycleId pair = 0 := rfl

theorem freshSite_inStep : freshSite.InStep cycleId maxAttempts := by
  intro w hw
  cases hw

theorem inStep_of_reachable (h : (attemptsSystem cycleId maxAttempts reader).Reachable s) :
    s.InStep cycleId maxAttempts := by
  have hkeep : ∀ s label s', s.InStep cycleId maxAttempts →
      (attemptsSystem cycleId maxAttempts reader).step s label s' →
      s'.InStep cycleId maxAttempts := by
    intro s label s' hs hstep
    change workStep cycleId maxAttempts reader s label.1 = some (label.2, s') at hstep
    exact (workStep_inStep hs hstep).1
  refine h.invariant ?_ hkeep
  intro s hinit
  have hfresh : s = freshSite := hinit
  rw [hfresh]
  exact freshSite_inStep

variable {trace : List (Event × Option Pair)}

/-- The stored attempts count the starts of a run. -/
theorem attempts_eq_starts (hrun : (attemptsSystem cycleId maxAttempts reader).Run s trace s')
    (h : s.InStep cycleId maxAttempts) (pair : Pair) :
    s'.attempts cycleId pair =
      s.attempts cycleId pair + trace.countP fun label => label.2 = some pair := by
  induction hrun with
  | nil => rfl
  | @cons s mid s' label trace hstep _ ih =>
      obtain ⟨hmid, hcount⟩ := workStep_inStep h hstep
      rw [ih hmid, hcount, countP_cons]
      simp only [decide_eq_true_eq]
      omega

/-- The runs whose steps start no overlooked candidate. -/
def budgetedSystem (cycleId : CycleId) (maxAttempts : Nat) (reader : PayloadReader) :
    Machine Site (Event × Option Pair) :=
  (attemptsSystem cycleId maxAttempts reader).restrict fun s label =>
    ¬ Unbudgeted maxAttempts reader s label.1

theorem run_of_budgeted (hrun : (budgetedSystem cycleId maxAttempts reader).Run s trace s') :
    (attemptsSystem cycleId maxAttempts reader).Run s trace s' := by
  induction hrun with
  | nil => exact Machine.Run.nil _
  | cons hstep _ ih => exact Machine.Run.cons hstep.2 ih

/-- A budgeted run from a site in step keeps every pair within the bound. -/
theorem budgeted_within (hmax : 0 < maxAttempts)
    (hrun : (budgetedSystem cycleId maxAttempts reader).Run s trace s')
    (h : s.InStep cycleId maxAttempts) (hs : ∀ pair, s.attempts cycleId pair ≤ maxAttempts) :
    ∀ pair, s'.attempts cycleId pair ≤ maxAttempts := by
  induction hrun with
  | nil => exact hs
  | @cons s mid s' label trace hstep _ ih =>
      obtain ⟨hseen, hwork⟩ := hstep
      obtain ⟨hmid, hcount⟩ := workStep_inStep h hwork
      refine ih hmid fun pair => ?_
      rw [hcount]
      by_cases hstart : label.2 = some pair
      · obtain ⟨e, out⟩ := label
        rw [if_pos hstart]
        change out = some pair at hstart
        subst hstart
        exact start_within hmax h hseen hwork
      · rw [if_neg hstart]
        exact hs pair

/-- **Bounded attempts.**  In a run whose steps start no overlooked candidate, no pair has more
attempts than the bound, and none is started more often.  A step that starts an overlooked
candidate exceeds the bound, from whatever state it is taken. -/
theorem attempts_bounded (cycleId : CycleId) (maxAttempts : Nat) (reader : PayloadReader)
    (hmax : 0 < maxAttempts) :
    (∀ trace s, (budgetedSystem cycleId maxAttempts reader).Run freshSite trace s → ∀ pair,
      s.attempts cycleId pair ≤ maxAttempts ∧
        (trace.countP fun label => label.2 = some pair) ≤ maxAttempts) ∧
    (∀ s label s', (attemptsSystem cycleId maxAttempts reader).Reachable s →
      (attemptsSystem cycleId maxAttempts reader).step s label s' →
      Unbudgeted maxAttempts reader s label.1 →
      ∃ pair, maxAttempts < s'.attempts cycleId pair) := by
  have hfresh : freshSite.InStep cycleId maxAttempts := freshSite_inStep
  constructor
  · intro trace s hrun pair
    have hbound := budgeted_within hmax hrun hfresh (fun _ => Nat.zero_le _) pair
    refine ⟨hbound, ?_⟩
    have hstarts := attempts_eq_starts (run_of_budgeted hrun) hfresh pair
    rw [freshSite_attempts, Nat.zero_add] at hstarts
    rw [← hstarts]
    exact hbound
  · rintro s ⟨e, out⟩ s' hreach hstep hover
    have hs := inStep_of_reachable hreach
    obtain ⟨pair, hout, hspent⟩ := start_beyond hs hover hstep
    have hstarted := (workStep_inStep hs hstep).2 pair
    change out = some pair at hout
    refine ⟨pair, ?_⟩
    rw [hstarted]
    simp only [hout, if_true]
    omega

/-! ### A candidate that takes the worker down -/

section Example

def onePlan : Plan := ⟨.equity, fun _ => [], ["i1"], 1, by decide⟩

def restoringReader : PayloadReader := ⟨fun _ => true, fun _ => true⟩

/-- A worker starts the one candidate and is lost, four times over. -/
def fourCrashes : List Event :=
  [.resume onePlan, .next, .lost, .resume onePlan, .next, .lost, .resume onePlan, .next, .lost,
    .resume onePlan, .next]

/-- The fourth attempt of three. -/
theorem started_four_times :
    ∃ trace s, (attemptsSystem "c1" defaultMaxAttempts restoringReader).Run freshSite trace s ∧
      (trace.countP fun label => label.2 = some (.deep, "i1")) = 4 ∧
      s.attempts "c1" (.deep, "i1") = 4 := by
  cases h : Machine.replay (workStep "c1" defaultMaxAttempts restoringReader) freshSite
      fourCrashes with
  | none => exact absurd h (by decide)
  | some r =>
      have hrun : (attemptsSystem "c1" defaultMaxAttempts restoringReader).Run freshSite r.1 r.2 :=
        Machine.replay_run h
      have hcount := attempts_eq_starts hrun freshSite_inStep (.deep, "i1")
      have hfour : ((Machine.replay (workStep "c1" defaultMaxAttempts restoringReader) freshSite
          fourCrashes).map fun r => r.2.attempts "c1" (.deep, "i1")) = some 4 := by decide
      rw [h, Option.map_some, Option.some.injEq] at hfour
      refine ⟨r.1, r.2, hrun, ?_, hfour⟩
      rw [hfour, freshSite_attempts, Nat.zero_add] at hcount
      exact hcount.symm

/-- A worker is lost once, and the next one finishes the candidate. -/
theorem attempts_bounded_of_one_crash :
    ∃ trace s, (budgetedSystem "c1" defaultMaxAttempts restoringReader).Run freshSite trace s ∧
      s.attempts "c1" (.deep, "i1") = 2 ∧ ∀ pair, s.attempts "c1" pair ≤ 3 ∧
        (trace.countP fun label => label.2 = some pair) ≤ 3 := by
  have hrun : (budgetedSystem "c1" defaultMaxAttempts restoringReader).Run freshSite
      [(.resume onePlan, none), (.next, some (.deep, "i1")), (.lost, none),
        (.resume onePlan, none), (.next, some (.deep, "i1")),
        (.finish .deep "i1" { state := .completed }, none)] _ :=
    Machine.Run.cons ⟨by decide, rfl⟩ (Machine.Run.cons ⟨by decide, rfl⟩
      (Machine.Run.cons ⟨by decide, rfl⟩ (Machine.Run.cons ⟨by decide, rfl⟩
        (Machine.Run.cons ⟨by decide, rfl⟩ (Machine.Run.cons ⟨by decide, rfl⟩
          (Machine.Run.nil _))))))
  exact ⟨_, _, hrun, by decide,
    (attempts_bounded "c1" defaultMaxAttempts restoringReader (by decide)).1 _ _ hrun⟩

end Example

end InvestmentPlatform.Cycle
