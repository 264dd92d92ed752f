/-
What the dispatcher keeps over every interleaving.

The slot is with one call or free, the lock is with the one operation that executes, and each
call by itself is in one of a few shapes.  Every step changes one call, and only leaving
`async with` changes a second one, the next owner of the slot.
-/
import InvestmentPlatform.Evidence.Dispatcher

namespace InvestmentPlatform.Evidence.Dispatcher

open Option Function List

variable {I V E : Type}

/-! ### One call -/

/-- The slot belongs to the call. -/
def Phase.Holds : Phase V E → Prop
  | .granted | .awaiting | .draining => True
  | _ => False

/-- The operation was handed to the threads and was not taken back. -/
def Job.Dispatched : Job V E → Prop
  | .pending | .executing | .done _ => True
  | _ => False

/-- How often an operation was begun. -/
def Job.begun : Job V E → Nat
  | .executing | .done _ => 1
  | _ => 0

/-- What a call looks like in each of its phases. -/
def Call.Shape (call : Call V E) : Prop :=
  match call.phase with
  | .fresh | .queued | .granted =>
    call.job = .none ∧ call.hit = false ∧ call.acquired = 0 ∧ call.released = 0
  | .awaiting =>
    call.job.Dispatched ∧ call.hit = false ∧ call.acquired = 1 ∧ call.released = 0
  | .draining =>
    call.job.Dispatched ∧ call.hit = true ∧ call.acquired = 1 ∧ call.released = 0
  | .leasing =>
    call.job.Dispatched ∧ call.hit = false ∧ call.acquired = 0 ∧ call.released = 0
  | .ended outcome =>
    call.released = call.acquired ∧ call.acquired ≤ 1 ∧
      (call.acquired = 1 → ∃ result, call.job = .done result) ∧
      (call.hit = false → ∃ result, call.job = .done result ∧ outcome = .ofResult result)

/-- A call in shape, whose operation was begun as often as the record says. -/
structure Call.Sound (call : Call V E) : Prop where
  shape : call.Shape
  begun : call.executions = call.job.begun

/-! ### The whole -/

/-- The slot and the lock agree with the calls. -/
structure Inv (state : State I V E) : Prop where
  sound : ∀ i, (state.calls i).Sound
  slot : ∃ holder, state.slot.Single holder ∧
    ∀ i, (state.calls i).phase.Holds ↔ holder = some i
  waiting : ∀ i, i ∈ state.slot.waiters ↔ (state.calls i).phase = .queued
  lock : ∀ i, state.lock = some i ↔ (state.calls i).job = .executing

theorem inv_start : Inv (start : State I V E) where
  sound _ := ⟨⟨rfl, rfl, rfl, rfl⟩, rfl⟩
  slot := ⟨none, Semaphore.single_single, fun _ => ⟨fun h => h.elim, nofun⟩⟩
  waiting _ := ⟨nofun, nofun⟩
  lock _ := ⟨nofun, nofun⟩

variable {state state' : State I V E} {i : I} {call : Call V E}

/-- The holder of the slot is the only one. -/
theorem Inv.holder_unique (h : Inv state) {i j : I} (hi : (state.calls i).phase.Holds)
    (hj : (state.calls j).phase.Holds) : i = j := by
  obtain ⟨holder, -, hholds⟩ := h.slot
  have hij := ((hholds i).mp hi).symm.trans ((hholds j).mp hj)
  exact some.inj hij

section

variable [DecidableEq I]

@[simp] theorem put_self : (state.put i call).calls i = call := update_self _ _ _

variable {j : I}

theorem put_ne (h : j ≠ i) : (state.put i call).calls j = state.calls j :=
  update_of_ne h _ _

/-- A call changes while the slot, the queue and the lock stay with whom they are. -/
theorem Inv.put (h : Inv state) (hsound : call.Sound)
    (hholds : call.phase.Holds ↔ (state.calls i).phase.Holds)
    (hqueued : call.phase = .queued ↔ (state.calls i).phase = .queued)
    (hexec : call.job = .executing ↔ (state.calls i).job = .executing) :
    Inv (state.put i call) := by
  obtain ⟨holder, hsingle, hholder⟩ := h.slot
  refine ⟨fun j => ?_, ⟨holder, hsingle, fun j => ?_⟩, fun j => ?_, fun j => ?_⟩
  all_goals by_cases hj : j = i
  · subst hj
    rw [put_self]
    exact hsound
  · rw [put_ne hj]
    exact h.sound j
  · subst hj
    rw [put_self]
    exact hholds.trans (hholder j)
  · rw [put_ne hj]
    exact hholder j
  · subst hj
    rw [put_self]
    exact (h.waiting j).trans hqueued.symm
  · rw [put_ne hj]
    exact h.waiting j
  · subst hj
    rw [put_self]
    exact (h.lock j).trans hexec.symm
  · rw [put_ne hj]
    exact h.lock j

theorem releaseSlot_slot : state.releaseSlot.slot = state.slot.release.2 := by
  unfold State.releaseSlot
  dsimp only
  split
  all_goals rfl

theorem releaseSlot_lock : state.releaseSlot.lock = state.lock := by
  unfold State.releaseSlot
  dsimp only
  split
  all_goals rfl

theorem releaseSlot_woken (h : state.slot.release.1 = some j) :
    state.releaseSlot.calls j = { state.calls j with phase := .granted } := by
  simp only [State.releaseSlot, h]
  exact put_self

theorem releaseSlot_other (h : state.slot.release.1 ≠ some j) :
    state.releaseSlot.calls j = state.calls j := by
  unfold State.releaseSlot
  dsimp only
  split
  · rfl
  · rename_i k hk
    rw [hk] at h
    exact put_ne fun hjk => h (congrArg some hjk.symm)

variable {outcome : Outcome V E}

/-- The holder of the slot ends, and the slot goes on. -/
theorem Inv.release (h : Inv state) (hholds : (state.calls i).phase.Holds) (hsound : call.Sound)
    (hended : call.phase = .ended outcome)
    (hexec : call.job = .executing ↔ (state.calls i).job = .executing) :
    Inv (state.put i call).releaseSlot := by
  obtain ⟨holder, hsingle, hholder⟩ := h.slot
  have hi : holder = some i := (hholder i).mp hholds
  have hfree := hsingle.release (hi ▸ rfl)
  have hnot : i ∉ state.slot.waiters := hsingle.notWaiting i hi
  have hslot : (state.put i call).slot = state.slot := rfl
  -- Whoever is woken up waited before, so it is another call.
  have hwoken : ∀ j, state.slot.release.1 = some j → j ≠ i ∧ (state.calls j).phase = .queued := by
    intro j hj
    have hmem := Semaphore.release_mem hj
    exact ⟨fun hji => hnot (hji ▸ hmem), (h.waiting j).mp hmem⟩
  have hgranted : ∀ j, state.slot.release.1 = some j → (state.put i call).releaseSlot.calls j =
      { (state.put i call).calls j with phase := .granted } := fun j hj => releaseSlot_woken hj
  have hsame : ∀ j, state.slot.release.1 ≠ some j →
      (state.put i call).releaseSlot.calls j = (state.put i call).calls j :=
    fun j hj => releaseSlot_other hj
  refine ⟨fun j => ?_, ⟨state.slot.release.1, ?_, fun j => ?_⟩, fun j => ?_, fun j => ?_⟩
  · by_cases hj : state.slot.release.1 = some j
    · obtain ⟨hne, hqueued⟩ := hwoken j hj
      rw [hgranted j hj, put_ne hne]
      obtain ⟨hshape, hbegun⟩ := h.sound j
      refine ⟨?_, hbegun⟩
      rw [Call.Shape, hqueued] at hshape
      exact hshape
    · rw [hsame j hj]
      by_cases hji : j = i
      · subst hji
        rw [put_self]
        exact hsound
      · rw [put_ne hji]
        exact h.sound j
  · rw [releaseSlot_slot]
    exact hfree
  · by_cases hj : state.slot.release.1 = some j
    · rw [hgranted j hj]
      exact ⟨fun _ => hj, fun _ => trivial⟩
    · rw [hsame j hj]
      refine ⟨fun hold => ?_, fun hold => absurd hold hj⟩
      exfalso
      by_cases hji : j = i
      · subst hji
        rw [put_self, hended] at hold
        exact hold
      · rw [put_ne hji] at hold
        have heq := ((hholder j).mp hold).symm.trans hi
        exact hji (some.inj heq)
  · rw [releaseSlot_slot, hslot, Semaphore.mem_release_iff hsingle.nodup, h.waiting]
    by_cases hj : state.slot.release.1 = some j
    · rw [hgranted j hj]
      exact ⟨fun hand => absurd hj hand.2, nofun⟩
    · rw [hsame j hj]
      by_cases hji : j = i
      · subst hji
        rw [put_self, hended]
        refine ⟨fun hand => ?_, nofun⟩
        exact absurd ((h.waiting j).mpr hand.1) hnot
      · rw [put_ne hji]
        exact ⟨fun hand => hand.1, fun hqueued => ⟨hqueued, hj⟩⟩
  · rw [releaseSlot_lock]
    change state.lock = some j ↔ _
    rw [h.lock]
    by_cases hj : state.slot.release.1 = some j
    · rw [hgranted j hj, put_ne (hwoken j hj).1]
    · rw [hsame j hj]
      by_cases hji : j = i
      · subst hji
        rw [put_self]
        exact hexec.symm
      · rw [put_ne hji]

/-! ### One step -/

/-- A fresh call takes the free slot. -/
theorem Inv.acquire (h : Inv state) (hfresh : (state.calls i).phase = .fresh)
    {slot : Semaphore I} (hslot : state.slot.tryAcquire = some slot) :
    Inv { state.put i (state.calls i).dispatch with slot := slot } := by
  obtain ⟨holder, hsingle, hholder⟩ := h.slot
  obtain ⟨hnone, hempty, hsingle'⟩ := hsingle.tryAcquire hslot i
  obtain ⟨hshape, hbegun⟩ := h.sound i
  rw [Call.Shape, hfresh] at hshape
  obtain ⟨hjob, hhit, hacquired, hreleased⟩ := hshape
  have hput : ∀ j, j ≠ i → (state.put i (state.calls i).dispatch).calls j = state.calls j :=
    fun j hj => put_ne hj
  refine ⟨fun j => ?_, ⟨some i, hsingle', fun j => ?_⟩, fun j => ?_, fun j => ?_⟩
  all_goals
    dsimp only
    by_cases hj : j = i
  · subst hj
    rw [put_self]
    refine ⟨⟨trivial, hhit, congrArg (· + 1) hacquired, hreleased⟩, ?_⟩
    rw [hjob] at hbegun
    exact hbegun
  · rw [hput j hj]
    exact h.sound j
  · subst hj
    rw [put_self]
    exact ⟨fun _ => rfl, fun _ => trivial⟩
  · rw [hput j hj, hholder, hnone]
    exact ⟨nofun, fun heq => absurd (some.inj heq).symm hj⟩
  · subst hj
    rw [put_self, hempty]
    exact ⟨nofun, nofun⟩
  · rw [hput j hj, hempty, ← h.waiting, hsingle.idle hnone]
  · subst hj
    rw [put_self]
    refine ⟨fun heq => ?_, nofun⟩
    rw [(h.lock j).mp heq] at hjob
    cases hjob
  · rw [hput j hj]
    exact h.lock j

/-- A fresh call joins the queue. -/
theorem Inv.enqueue (h : Inv state) (hfresh : (state.calls i).phase = .fresh)
    (hslot : state.slot.tryAcquire = none) :
    Inv { state.put i { state.calls i with phase := .queued } with
      slot := state.slot.enqueue i } := by
  obtain ⟨holder, hsingle, hholder⟩ := h.slot
  obtain ⟨hshape, hbegun⟩ := h.sound i
  rw [Call.Shape, hfresh] at hshape
  have hput : ∀ j, j ≠ i →
      (state.put i { state.calls i with phase := .queued }).calls j = state.calls j :=
    fun j hj => put_ne hj
  have hnot : i ∉ state.slot.waiters := by
    rw [h.waiting, hfresh]
    exact nofun
  have hnotHolder : holder ≠ some i := by
    rw [Ne, ← hholder, hfresh]
    exact fun hold => hold
  refine ⟨fun j => ?_, ⟨holder, hsingle.enqueue (hsingle.tryAcquire_none hslot) hnot hnotHolder,
    fun j => ?_⟩, fun j => ?_, fun j => ?_⟩
  all_goals
    dsimp only
    by_cases hj : j = i
  · subst hj
    rw [put_self]
    exact ⟨hshape, hbegun⟩
  · rw [hput j hj]
    exact h.sound j
  · subst hj
    rw [put_self]
    exact ⟨fun hold => hold.elim, fun heq => absurd heq hnotHolder⟩
  · rw [hput j hj]
    exact hholder j
  · subst hj
    rw [put_self]
    exact ⟨fun _ => rfl, fun _ => mem_append_right _ (mem_singleton_self j)⟩
  · rw [hput j hj, ← h.waiting, Semaphore.enqueue, mem_append, mem_singleton]
    exact or_iff_left hj
  · subst hj
    rw [put_self]
    exact h.lock j
  · rw [hput j hj]
    exact h.lock j

/-- A waiter is cancelled. -/
theorem Inv.abandon (h : Inv state) (hqueued : (state.calls i).phase = .queued) :
    Inv { state.put i { state.calls i with hit := true, phase := .ended .cancelled } with
      slot := state.slot.abandon i } := by
  obtain ⟨holder, hsingle, hholder⟩ := h.slot
  obtain ⟨hshape, hbegun⟩ := h.sound i
  rw [Call.Shape, hqueued] at hshape
  obtain ⟨-, -, hacquired, hreleased⟩ := hshape
  have hput : ∀ j, j ≠ i → (state.put i { state.calls i with
      hit := true, phase := .ended .cancelled }).calls j = state.calls j :=
    fun j hj => put_ne hj
  refine ⟨fun j => ?_, ⟨holder, hsingle.abandon i, fun j => ?_⟩, fun j => ?_, fun j => ?_⟩
  all_goals
    dsimp only
    by_cases hj : j = i
  · subst hj
    rw [put_self]
    refine ⟨⟨hreleased.trans hacquired.symm, ?_, ?_, nofun⟩, hbegun⟩
    · dsimp only
      omega
    · dsimp only
      omega
  · rw [hput j hj]
    exact h.sound j
  · subst hj
    rw [put_self, ← hholder, hqueued]
    exact Iff.rfl
  · rw [hput j hj]
    exact hholder j
  · subst hj
    rw [put_self]
    refine ⟨fun hmem => ?_, nofun⟩
    simp [Semaphore.abandon] at hmem
  · rw [hput j hj, ← h.waiting]
    simp [Semaphore.abandon, hj]
  · subst hj
    rw [put_self]
    exact h.lock j
  · rw [hput j hj]
    exact h.lock j

theorem isDone_iff {call : Call V E} : call.isDone = true ↔ ∃ result, call.job = .done result := by
  unfold Call.isDone
  cases call.job <;> simp

theorem leave_put :
    (state.put i call).leave i outcome = (state.put i (call.leave outcome)).releaseSlot := by
  rw [State.leave, put_self]
  unfold State.put
  rw [update_idem]

variable {result : Except E V}

/-- A caller whose operation is done leaves the slot, with the result of the operation unless a
cancellation has hit it. -/
theorem Inv.leave (h : Inv state) {hit : Bool}
    (hphase : (state.calls i).phase = .awaiting ∨ (state.calls i).phase = .draining)
    (hjob : (state.calls i).job = .done result) (hkept : hit = false → outcome = .ofResult result) :
    Inv ((state.put i { state.calls i with hit := hit }).leave i outcome) := by
  obtain ⟨hshape, hbegun⟩ := h.sound i
  have hcounts : (state.calls i).acquired = 1 ∧ (state.calls i).released = 0 := by
    rcases hphase with hawaiting | hdraining
    · rw [Call.Shape, hawaiting] at hshape
      exact ⟨hshape.2.2.1, hshape.2.2.2⟩
    · rw [Call.Shape, hdraining] at hshape
      exact ⟨hshape.2.2.1, hshape.2.2.2⟩
  rw [leave_put]
  refine h.release ?_ ?_ rfl Iff.rfl
  · rcases hphase with hawaiting | hdraining
    · rw [hawaiting]
      trivial
    · rw [hdraining]
      trivial
  · refine ⟨⟨?_, ?_, fun _ => ⟨result, hjob⟩, fun hnot => ⟨result, hjob, hkept hnot⟩⟩, hbegun⟩
    · simp only [Call.leave, hcounts.1, hcounts.2]
    · simp only [Call.leave, hcounts.1, Nat.le_refl]

theorem put_calls (state : State I V E) (i : I) : state.put i (state.calls i) = state := by
  unfold State.put
  rw [update_eq_self]

theorem Inv.cancel (h : Inv state) (hcancel : state.cancel i = some state') : Inv state' := by
  obtain ⟨hshape, hbegun⟩ := h.sound i
  unfold State.cancel at hcancel
  cases hphase : (state.calls i).phase with
  | fresh => simp [hphase] at hcancel
  | ended outcome => simp [hphase] at hcancel
  | queued =>
    simp only [hphase, some.injEq] at hcancel
    rw [← hcancel]
    exact h.abandon hphase
  | granted =>
    simp only [hphase, some.injEq] at hcancel
    rw [← hcancel]
    rw [Call.Shape, hphase] at hshape
    obtain ⟨hjob, -, hacquired, hreleased⟩ := hshape
    refine h.release ?_ ⟨⟨hreleased.trans hacquired.symm, ?_, ?_, nofun⟩,
      hbegun⟩ rfl Iff.rfl
    · rw [hphase]
      trivial
    · dsimp only
      omega
    · dsimp only
      omega
  | leasing =>
    simp only [hphase, some.injEq] at hcancel
    rw [← hcancel]
    rw [Call.Shape, hphase] at hshape
    obtain ⟨hjob, -, hacquired, hreleased⟩ := hshape
    refine h.put ⟨⟨hreleased.trans hacquired.symm, ?_, ?_, nofun⟩, hbegun⟩
      ?_ ?_ Iff.rfl
    · dsimp only
      omega
    · dsimp only
      omega
    · rw [hphase]
      exact Iff.rfl
    · rw [hphase]
      exact ⟨nofun, nofun⟩
  | awaiting =>
    simp only [hphase] at hcancel
    rw [Call.Shape, hphase] at hshape
    split at hcancel
    · rename_i hdone
      obtain ⟨result, hjob⟩ := isDone_iff.mp hdone
      have hleft : Inv ((state.put i { state.calls i with hit := true }).leave i .cancelled) :=
        h.leave (Or.inl hphase) hjob nofun
      rw [← some.inj hcancel]
      simpa only [hphase] using hleft
    · rw [← some.inj hcancel]
      refine h.put ⟨⟨hshape.1, rfl, hshape.2.2⟩, hbegun⟩ ?_ ?_ Iff.rfl
      · rw [hphase]
        exact Iff.rfl
      · rw [hphase]
        exact ⟨nofun, nofun⟩
  | draining =>
    simp only [hphase] at hcancel
    rw [Call.Shape, hphase] at hshape
    split at hcancel
    · rename_i hdone
      obtain ⟨result, hjob⟩ := isDone_iff.mp hdone
      have hleft : Inv ((state.put i { state.calls i with hit := true }).leave i .cancelled) :=
        h.leave (Or.inr hphase) hjob nofun
      rw [← some.inj hcancel]
      simpa only [hphase] using hleft
    · rw [← some.inj hcancel]
      refine h.put ⟨⟨hshape.1, rfl, hshape.2.2⟩, hbegun⟩ ?_ ?_ Iff.rfl
      · rw [hphase]
      · rw [hphase]

theorem Inv.wake (h : Inv state) (hjob : (state.calls i).job = .done result)
    (hwake : state.wake i result = some state') : Inv state' := by
  obtain ⟨hshape, hbegun⟩ := h.sound i
  unfold State.wake at hwake
  cases hphase : (state.calls i).phase with
  | awaiting =>
    simp only [hphase, some.injEq] at hwake
    rw [← hwake, ← put_calls state i]
    exact h.leave (Or.inl hphase) hjob fun _ => rfl
  | draining =>
    rw [Call.Shape, hphase] at hshape
    have hleave : ∀ outcome, Inv (state.leave i outcome) := by
      intro outcome
      rw [← put_calls state i]
      refine h.leave (Or.inr hphase) hjob fun hnot => ?_
      rw [hshape.2.1] at hnot
      cases hnot
    cases result with
    | ok value =>
      simp only [hphase, some.injEq] at hwake
      rw [← hwake]
      exact hleave _
    | error error =>
      simp only [hphase, some.injEq] at hwake
      rw [← hwake]
      exact hleave _
  | leasing =>
    simp only [hphase, some.injEq] at hwake
    rw [← hwake]
    rw [Call.Shape, hphase] at hshape
    obtain ⟨-, -, hacquired, hreleased⟩ := hshape
    refine h.put ⟨⟨hreleased.trans hacquired.symm, ?_, ?_, fun _ => ⟨result, hjob, rfl⟩⟩, hbegun⟩
      ?_ ?_ Iff.rfl
    · dsimp only
      omega
    · dsimp only
      omega
    · rw [hphase]
      exact Iff.rfl
    · rw [hphase]
      exact ⟨nofun, nofun⟩
  | fresh => simp [hphase] at hwake
  | queued => simp [hphase] at hwake
  | granted => simp [hphase] at hwake
  | ended outcome => simp [hphase] at hwake

/-- The operation of a call changes, and the call is in shape as before. -/
theorem Call.Sound.job {call : Call V E} (h : call.Sound) {job : Job V E}
    (hdispatched : call.job = .pending ∨ call.job = .executing) (hjob : job.Dispatched)
    {executions : Nat} (hbegun : executions = job.begun) :
    { call with job := job, executions := executions }.Sound := by
  obtain ⟨hshape, -⟩ := h
  have hnotDone : ∀ result, call.job ≠ .done result := by
    intro result heq
    rcases hdispatched with hpending | hexecuting
    · rw [hpending] at heq
      cases heq
    · rw [hexecuting] at heq
      cases heq
  have hnotNone : call.job ≠ .none := by
    intro heq
    rcases hdispatched with hpending | hexecuting
    · rw [hpending] at heq
      cases heq
    · rw [hexecuting] at heq
      cases heq
  refine ⟨?_, hbegun⟩
  unfold Call.Shape at hshape ⊢
  dsimp only
  split at hshape
  · exact absurd hshape.1 hnotNone
  · exact absurd hshape.1 hnotNone
  · exact absurd hshape.1 hnotNone
  · exact ⟨hjob, hshape.2⟩
  · exact ⟨hjob, hshape.2⟩
  · exact ⟨hjob, hshape.2⟩
  · -- An ended call whose operation is not done never had the slot.
    obtain ⟨hreleased, hone, hdone, hkept⟩ := hshape
    refine ⟨hreleased, hone, fun hacquired => ?_, fun hnot => ?_⟩
    · obtain ⟨result, hresult⟩ := hdone hacquired
      exact absurd hresult (hnotDone result)
    · obtain ⟨result, hresult, -⟩ := hkept hnot
      exact absurd hresult (hnotDone result)

theorem Inv.begin (h : Inv state) (hexec : state.exec (.begin i) = some state') : Inv state' := by
  simp only [State.exec] at hexec
  split at hexec
  · rename_i hpending hfree
    rw [← some.inj hexec]
    have hsound := h.sound i
    have hzero : (state.calls i).executions = 0 := by rw [hsound.begun, hpending]; rfl
    have hone : (state.calls i).executions + 1 = (.executing : Job V E).begun :=
      congrArg (· + 1) hzero
    obtain ⟨holder, hsingle, hholder⟩ := h.slot
    refine ⟨fun j => ?_, ⟨holder, hsingle, fun j => ?_⟩, fun j => ?_, fun j => ?_⟩
    all_goals
      dsimp only [State.put]
      by_cases hj : j = i
    · subst hj
      rw [update_self]
      exact hsound.job (Or.inl hpending) (show (.executing : Job V E).Dispatched from trivial) hone
    · rw [update_of_ne hj]
      exact h.sound j
    · subst hj
      rw [update_self]
      exact hholder j
    · rw [update_of_ne hj]
      exact hholder j
    · subst hj
      rw [update_self]
      exact h.waiting j
    · rw [update_of_ne hj]
      exact h.waiting j
    · subst hj
      rw [update_self]
      exact ⟨fun _ => rfl, fun _ => rfl⟩
    · rw [update_of_ne hj, ← h.lock, hfree]
      exact ⟨fun heq => absurd (some.inj heq).symm hj, nofun⟩
  · cases hexec

theorem Inv.finish (h : Inv state)
    (hexec : state.exec (.finish i result) = some state') : Inv state' := by
  simp only [State.exec] at hexec
  split at hexec
  · rename_i hexecuting
    rw [← some.inj hexec]
    have hsound := h.sound i
    have hone : (state.calls i).executions = (.done result : Job V E).begun := by
      rw [hsound.begun, hexecuting]
      rfl
    have hlock : state.lock = some i := (h.lock i).mpr hexecuting
    obtain ⟨holder, hsingle, hholder⟩ := h.slot
    refine ⟨fun j => ?_, ⟨holder, hsingle, fun j => ?_⟩, fun j => ?_, fun j => ?_⟩
    all_goals
      dsimp only [State.put]
      by_cases hj : j = i
    · subst hj
      rw [update_self]
      exact hsound.job (Or.inr hexecuting) (show (.done result : Job V E).Dispatched from trivial)
        hone
    · rw [update_of_ne hj]
      exact h.sound j
    · subst hj
      rw [update_self]
      exact hholder j
    · rw [update_of_ne hj]
      exact hholder j
    · subst hj
      rw [update_self]
      exact h.waiting j
    · rw [update_of_ne hj]
      exact h.waiting j
    · subst hj
      rw [update_self]
      exact ⟨nofun, nofun⟩
    · rw [update_of_ne hj, ← h.lock, hlock]
      exact ⟨nofun, fun heq => absurd (some.inj heq).symm hj⟩
  · cases hexec

theorem Inv.revoke (h : Inv state) (hexec : state.exec (.revoke i) = some state') : Inv state' := by
  simp only [State.exec] at hexec
  split at hexec
  · rename_i outcome hended hpending
    rw [← some.inj hexec]
    obtain ⟨hshape, hbegun⟩ := h.sound i
    rw [Call.Shape, hended] at hshape
    rw [hpending] at hbegun
    refine h.put ⟨?_, hbegun⟩ Iff.rfl Iff.rfl ?_
    · rw [Call.Shape, hended]
      obtain ⟨hreleased, hone, hdone, hkept⟩ := hshape
      refine ⟨hreleased, hone, fun hacquired => ?_, fun hnot => ?_⟩
      · obtain ⟨result, hresult⟩ := hdone hacquired
        rw [hpending] at hresult
        cases hresult
      · obtain ⟨result, hresult, -⟩ := hkept hnot
        rw [hpending] at hresult
        cases hresult
    · rw [hpending]
      exact ⟨nofun, nofun⟩
  · cases hexec

theorem Inv.exec (h : Inv state) {action : Action I V E} (hexec : state.exec action = some state') :
    Inv state' := by
  cases action with
  | call i =>
    simp only [State.exec] at hexec
    split at hexec
    · rename_i hfresh
      split at hexec
      · rename_i slot hslot
        rw [← some.inj hexec]
        exact h.acquire hfresh hslot
      · rename_i hslot
        rw [← some.inj hexec]
        exact h.enqueue hfresh hslot
    · cases hexec
  | lease i =>
    simp only [State.exec] at hexec
    split at hexec
    · rename_i hfresh
      rw [← some.inj hexec]
      obtain ⟨hshape, hbegun⟩ := h.sound i
      rw [Call.Shape, hfresh] at hshape
      obtain ⟨hjob, hhit, hacquired, hreleased⟩ := hshape
      rw [hjob] at hbegun
      refine h.put ⟨⟨trivial, hhit, hacquired, hreleased⟩, hbegun⟩ ?_ ?_ ?_
      · rw [hfresh]
        exact Iff.rfl
      · rw [hfresh]
        exact ⟨nofun, nofun⟩
      · rw [hjob]
        exact ⟨nofun, nofun⟩
    · cases hexec
  | resume i =>
    simp only [State.exec] at hexec
    split at hexec
    · rename_i hgranted
      rw [← some.inj hexec]
      obtain ⟨hshape, hbegun⟩ := h.sound i
      rw [Call.Shape, hgranted] at hshape
      obtain ⟨hjob, hhit, hacquired, hreleased⟩ := hshape
      rw [hjob] at hbegun
      refine h.put ⟨⟨trivial, hhit, congrArg (· + 1) hacquired, hreleased⟩, hbegun⟩ ?_ ?_ ?_
      · rw [hgranted]
        exact Iff.rfl
      · rw [hgranted]
        exact ⟨nofun, nofun⟩
      · rw [hjob]
        exact ⟨nofun, nofun⟩
    · cases hexec
  | cancel i => exact h.cancel hexec
  | begin i => exact h.begin hexec
  | finish i result => exact h.finish hexec
  | wake i =>
    simp only [State.exec] at hexec
    split at hexec
    · rename_i result hjob
      exact h.wake hjob hexec
    · cases hexec
  | revoke i => exact h.revoke hexec

theorem reachable_inv (h : machine.Reachable state) : Inv state := by
  refine h.invariant (I := Inv) ?_ fun s action s' hinv hstep => Inv.exec hinv hstep
  rintro _ rfl
  exact inv_start

/-! ### Cancellation -/

/-- Who was hit by a cancellation ends with it. -/
def KeepsCancellation (state : State I V E) : Prop :=
  ∀ i outcome, (state.calls i).hit = true → (state.calls i).phase = .ended outcome →
    outcome = .cancelled

/-- The step does not hand the error of the operation to a caller that drains it after a
cancellation. -/
def Spares (state : State I V E) (action : Action I V E) : Prop :=
  ∀ i error, action = .wake i → (state.calls i).phase = .draining →
    (state.calls i).job ≠ .done (.error error)

section

variable (h : KeepsCancellation state)
include h

theorem KeepsCancellation.put
    (hcall : ∀ outcome, call.hit = true → call.phase = .ended outcome → outcome = .cancelled) :
    KeepsCancellation (state.put i call) := by
  intro j outcome
  by_cases hj : j = i
  · subst hj
    rw [put_self]
    exact hcall outcome
  · rw [put_ne hj]
    exact h j outcome

theorem KeepsCancellation.releaseSlot : KeepsCancellation state.releaseSlot := by
  intro j outcome
  by_cases hj : state.slot.release.1 = some j
  · rw [releaseSlot_woken hj]
    exact fun _ heq => nomatch heq
  · rw [releaseSlot_other hj]
    exact h j outcome

theorem KeepsCancellation.leave (hcall : call.hit = true → outcome = .cancelled) :
    KeepsCancellation ((state.put i call).leave i outcome) := by
  rw [leave_put]
  refine (h.put fun o hhit hended => ?_).releaseSlot
  cases hended
  exact hcall hhit

theorem KeepsCancellation.cancel
    (hcancel : state.cancel i = some state') : KeepsCancellation state' := by
  have hended : ∀ outcome : Outcome V E,
      Phase.ended (.cancelled : Outcome V E) = .ended outcome → outcome = .cancelled :=
    fun outcome heq => (Phase.ended.inj heq).symm
  unfold State.cancel at hcancel
  dsimp only at hcancel
  split at hcancel
  · cases hcancel
  · cases hcancel
  · rw [← some.inj hcancel]
    exact h.put fun outcome _ => hended outcome
  · rw [← some.inj hcancel]
    exact (h.put fun outcome _ => hended outcome).releaseSlot
  · split at hcancel
    · rw [← some.inj hcancel]
      exact h.leave fun _ => rfl
    · rw [← some.inj hcancel]
      exact h.put fun outcome _ heq => nomatch heq
  · split at hcancel
    · rw [← some.inj hcancel]
      exact h.leave fun _ => rfl
    · rw [← some.inj hcancel]
      exact h.put fun outcome _ heq => nomatch heq
  · rw [← some.inj hcancel]
    exact h.put fun outcome _ => hended outcome

theorem KeepsCancellation.wake (hinv : Inv state) (hjob : (state.calls i).job = .done result)
    (hspares : Spares state (.wake i)) (hwake : state.wake i result = some state') :
    KeepsCancellation state' := by
  have hshape := (hinv.sound i).shape
  unfold State.wake at hwake
  split at hwake
  · rename_i hawaiting
    rw [Call.Shape, hawaiting] at hshape
    rw [← some.inj hwake, ← put_calls state i]
    refine h.leave fun hhit => ?_
    rw [hshape.2.1] at hhit
    cases hhit
  · rename_i hdraining
    cases result with
    | ok value =>
      rw [← some.inj hwake, ← put_calls state i]
      exact h.leave fun _ => rfl
    | error error => exact absurd hjob (hspares i error rfl hdraining)
  · rename_i hleasing
    rw [Call.Shape, hleasing] at hshape
    rw [← some.inj hwake]
    refine h.put fun outcome hhit _ => ?_
    rw [hshape.2.1] at hhit
    cases hhit
  · cases hwake

theorem KeepsCancellation.exec (hinv : Inv state)
    {action : Action I V E} (hspares : Spares state action)
    (hexec : state.exec action = some state') : KeepsCancellation state' := by
  -- A call that goes on, or whose operation goes on, is ended as before or not at all.
  have hsame : ∀ i (job : Job V E) executions, KeepsCancellation (state.put i
      { state.calls i with job := job, executions := executions }) :=
    fun i job executions => h.put (h i)
  cases action with
  | call i =>
    simp only [State.exec] at hexec
    split at hexec
    · split at hexec
      · rw [← some.inj hexec]
        exact h.put fun outcome _ heq => nomatch heq
      · rw [← some.inj hexec]
        exact h.put fun outcome _ heq => nomatch heq
    · cases hexec
  | lease i =>
    simp only [State.exec] at hexec
    split at hexec
    · rw [← some.inj hexec]
      exact h.put fun outcome _ heq => nomatch heq
    · cases hexec
  | resume i =>
    simp only [State.exec] at hexec
    split at hexec
    · rw [← some.inj hexec]
      exact h.put fun outcome _ heq => nomatch heq
    · cases hexec
  | cancel i => exact h.cancel hexec
  | begin i =>
    simp only [State.exec] at hexec
    split at hexec
    · rw [← some.inj hexec]
      exact hsame i _ _
    · cases hexec
  | finish i result =>
    simp only [State.exec] at hexec
    split at hexec
    · rw [← some.inj hexec]
      exact hsame i _ _
    · cases hexec
  | wake i =>
    simp only [State.exec] at hexec
    split at hexec
    · rename_i result hjob
      exact h.wake hinv hjob hspares hexec
    · cases hexec
  | revoke i =>
    simp only [State.exec] at hexec
    split at hexec
    · rw [← some.inj hexec]
      exact hsame i _ _
    · cases hexec

end

/-! ### The promises -/

/-- What the dispatcher promises of every state of every run. -/
structure Promises (state : State I V E) : Prop where
  oneAtATime : ∀ i j, (state.calls i).job = .executing → (state.calls j).job = .executing → i = j
  once : ∀ i, (state.calls i).executions ≤ 1 ∧ ∀ outcome, (state.calls i).acquired = 1 →
    (state.calls i).phase = .ended outcome → (state.calls i).executions = 1
  drained : ∀ i, (state.calls i).acquired = 1 → (∀ result, (state.calls i).job ≠ .done result) →
    (state.calls i).phase.Holds ∧ ∀ j, (state.calls j).phase.Holds → j = i
  releases : ∀ i, (state.calls i).released ≤ (state.calls i).acquired ∧
    ∀ outcome, (state.calls i).phase = .ended outcome →
      (state.calls i).released = (state.calls i).acquired
  kept : ∀ i outcome, (state.calls i).hit = false → (state.calls i).phase = .ended outcome →
    ∃ result, (state.calls i).job = .done result ∧ outcome = .ofResult result
  cancelled : KeepsCancellation state

omit [DecidableEq I] in
theorem Inv.promises (h : Inv state) (hcancelled : KeepsCancellation state) : Promises state where
  oneAtATime i j hi hj :=
    some.inj (((h.lock i).mpr hi).symm.trans ((h.lock j).mpr hj))
  once i := by
    obtain ⟨hshape, hbegun⟩ := h.sound i
    refine ⟨?_, fun outcome hacquired hended => ?_⟩
    · rw [hbegun]
      cases (state.calls i).job <;> simp [Job.begun]
    · rw [Call.Shape, hended] at hshape
      obtain ⟨result, hresult⟩ := hshape.2.2.1 hacquired
      rw [hbegun, hresult]
      rfl
  drained i hacquired hrunning := by
    have hholds : (state.calls i).phase.Holds := by
      have hshape := (h.sound i).shape
      unfold Call.Shape at hshape
      split at hshape
      · omega
      · omega
      · omega
      · rename_i hphase
        rw [hphase]
        trivial
      · rename_i hphase
        rw [hphase]
        trivial
      · omega
      · obtain ⟨result, hresult⟩ := hshape.2.2.1 hacquired
        exact absurd hresult (hrunning result)
    exact ⟨hholds, fun j hj => h.holder_unique hj hholds⟩
  releases i := by
    have hshape := (h.sound i).shape
    refine ⟨?_, fun outcome hended => ?_⟩
    · unfold Call.Shape at hshape
      split at hshape
      all_goals omega
    · rw [Call.Shape, hended] at hshape
      exact hshape.1
  kept i outcome hnot hended := by
    have hshape := (h.sound i).shape
    rw [Call.Shape, hended] at hshape
    exact hshape.2.2.2 hnot
  cancelled := hcancelled

/-- **The dispatcher keeps its promises in every run in which no drained operation hands its
error to its cancelled caller, and breaks them with the first step that does.** -/
theorem promises_iff_spares :
    (∀ state : State I V E, (machine.restrict Spares).Reachable state → Promises state) ∧
      ∀ (state state' : State I V E) action, machine.Reachable state →
        machine.step state action state' → ¬ Spares state action → ¬ Promises state' := by
  constructor
  · intro state h
    have hboth : Inv state ∧ KeepsCancellation state := by
      refine h.invariant (I := fun s => Inv s ∧ KeepsCancellation s) ?_ ?_
      · rintro _ rfl
        exact ⟨inv_start, fun i outcome hhit => nomatch hhit⟩
      · rintro s action s' ⟨hinv, hkeeps⟩ ⟨hspares, hstep⟩
        exact ⟨hinv.exec hstep, hkeeps.exec hinv hspares hstep⟩
    exact hboth.1.promises hboth.2
  · intro state state' action h hstep hnot hpromises
    have hinv := reachable_inv h
    simp only [Spares, not_forall, Classical.not_not] at hnot
    obtain ⟨i, error, rfl, hdraining, hjob⟩ := hnot
    have hshape := (hinv.sound i).shape
    rw [Call.Shape, hdraining] at hshape
    have hleft : state' = (state.put i ((state.calls i).leave (.raised error))).releaseSlot := by
      have hexec : state.exec (.wake i) = some state' := hstep
      simp only [State.exec, hjob, State.wake, hdraining, Option.some.injEq] at hexec
      exact hexec.symm
    -- The call itself is not the next owner of the slot it gives back.
    have hnext : state.slot.release.1 ≠ some i := by
      intro hwoken
      have hqueued := (hinv.waiting i).mp (Semaphore.release_mem hwoken)
      rw [hdraining] at hqueued
      cases hqueued
    have hsame : (state.put i ((state.calls i).leave (.raised error))).releaseSlot.calls i =
        (state.put i ((state.calls i).leave (.raised error))).calls i := releaseSlot_other hnext
    have hcall : state'.calls i = (state.calls i).leave (.raised error) := by
      rw [hleft, hsame, put_self]
    have hcancelled := hpromises.cancelled i (.raised error)
    rw [hcall] at hcancelled
    exact nomatch hcancelled hshape.2.1 rfl

/-! ### Going on -/

/-- The call has begun and has not ended. -/
def Phase.Pending : Phase V E → Prop
  | .fresh | .ended _ => False
  | _ => True

/-- No new call, no cancellation and no end of an operation. -/
def Action.Own : Action I V E → Prop
  | .resume _ | .begin _ | .wake _ => True
  | _ => False

/-- **The dispatcher never wedges**: while a call is pending, an operation is executing or a step
can be taken. -/
theorem dispatcher_live (i : I) : (machine : Machine (State I V E) (Action I V E)).Live
    (fun state => (state.calls i).phase.Pending)
    (fun state => ∃ j, (state.calls j).job = .executing) Action.Own := by
  intro state h hpending
  have hinv := reachable_inv h
  refine or_iff_not_imp_left.mpr fun hidle => ?_
  have hlock : state.lock = none := by
    cases hlock : state.lock with
    | none => rfl
    | some j => exact absurd ⟨j, (hinv.lock j).mp hlock⟩ hidle
  -- Who was admitted goes on, as no operation is executing.
  have hgoes : ∀ j, (state.calls j).phase.Pending → (state.calls j).phase ≠ .queued →
      ∃ action, Action.Own action ∧ (state.exec action).isSome := by
    intro j hj hqueued
    have hshape := (hinv.sound j).shape
    unfold Call.Shape at hshape
    cases hphase : (state.calls j).phase with
    | fresh | ended _ => rw [hphase] at hj; exact hj.elim
    | queued => exact absurd hphase hqueued
    | granted => exact ⟨.resume j, trivial, by simp [State.exec, hphase]⟩
    | awaiting | draining | leasing =>
      rw [hphase] at hshape
      have hdispatched := hshape.1
      cases hjob : (state.calls j).job with
      | none | revoked => rw [hjob] at hdispatched; exact hdispatched.elim
      | executing => exact absurd ⟨j, hjob⟩ hidle
      | pending => exact ⟨.begin j, trivial, by simp [State.exec, hjob, hlock]⟩
      | done result =>
        refine ⟨.wake j, trivial, ?_⟩
        cases result <;> simp [State.exec, State.wake, hjob, hphase]
  obtain ⟨action, hown, hsome⟩ : ∃ action, Action.Own action ∧ (state.exec action).isSome := by
    by_cases hqueued : (state.calls i).phase = .queued
    · obtain ⟨holder, hsingle, hholds⟩ := hinv.slot
      cases holder with
      | none =>
        have hmem := (hinv.waiting i).mpr hqueued
        rw [hsingle.idle rfl] at hmem
        cases hmem
      | some j =>
        have hj := (hholds j).mpr rfl
        unfold Phase.Holds at hj
        split at hj
        all_goals first
          | exact hj.elim
          | rename_i hphase
            exact hgoes j (by rw [hphase]; trivial) (by rw [hphase]; exact nofun)
    · exact hgoes i hpending hqueued
  exact ⟨action, _, hown, (some_get hsome).symm⟩

end

/-! ### Two runs -/

/-- A caller is cancelled twice while its operation runs, and another one waits for the slot. -/
def cancelledWhileRunning (result : Except String Nat) : List (Action Nat Nat String) :=
  [.call 0, .call 1, .begin 0, .cancel 0, .cancel 0, .finish 0 result]

/-- The state of the run before the caller is woken up. -/
def beforeWaking (result : Except String Nat) : State Nat Nat String :=
  ((cancelledWhileRunning result).foldlM State.exec start).get rfl

theorem beforeWaking_run (result : Except String Nat) :
    (cancelledWhileRunning result).foldlM State.exec start = some (beforeWaking result) :=
  (some_get _).symm

theorem spares_of_not_wake {state : State Nat Nat String} {action : Action Nat Nat String}
    (h : ∀ i, action ≠ .wake i) : Spares state action :=
  fun i _ hwake => absurd hwake (h i)

theorem restrict_foldlM_reachable {actions : List (Action Nat Nat String)}
    {state state' : State Nat Nat String} (h : (machine.restrict Spares).Reachable state)
    (hactions : ∀ action ∈ actions, ∀ i, action ≠ .wake i)
    (hrun : actions.foldlM State.exec state = some state') :
    (machine.restrict Spares).Reachable state' := by
  induction actions generalizing state with
  | nil =>
    cases hrun
    exact h
  | cons action actions ih =>
    obtain ⟨mid, hmid, hrest⟩ := bind_eq_some_iff.mp hrun
    exact ih (h.step ⟨spares_of_not_wake (hactions action mem_cons_self), hmid⟩)
      (fun a ha => hactions a (mem_cons_of_mem action ha)) hrest

theorem beforeWaking_reachable (result : Except String Nat) :
    (machine.restrict Spares).Reachable (beforeWaking result) := by
  refine restrict_foldlM_reachable (.init rfl) ?_ (beforeWaking_run result)
  intro action haction i heq
  subst heq
  simp [cancelledWhileRunning] at haction

/-- Both halves at work: the promises hold where the operation succeeded, and the step that
hands its error on breaks them. -/
theorem promises_iff_spares_sample :
    Promises (beforeWaking (.ok 5)) ∧
      ∀ state', machine.step (beforeWaking (.error "locked")) (.wake 0) state' →
        ¬ Promises state' := by
  refine ⟨promises_iff_spares.1 _ (beforeWaking_reachable _), fun state' hstep => ?_⟩
  refine promises_iff_spares.2 _ state' (.wake 0) ?_ hstep ?_
  · exact Machine.foldlM_reachable (beforeWaking_run _)
  · exact fun hspares => hspares 0 "locked" rfl rfl rfl

/-- The failing run up to the end of the cancelled caller. -/
def lostRun : List (Action Nat Nat String) :=
  cancelledWhileRunning (.error "locked") ++ [.wake 0]

/-- **The cancellation is lost**: the operation fails while it is drained, and the cancelled
caller ends with the error of the database. -/
theorem cancellation_lost : ∃ state : State Nat Nat String, machine.Reachable state ∧
    (state.calls 0).hit = true ∧ (state.calls 0).phase = .ended (.raised "locked") := by
  refine ⟨(lostRun.foldlM State.exec start).get rfl,
    Machine.foldlM_reachable (Option.some_get _).symm, rfl, rfl⟩

end InvestmentPlatform.Evidence.Dispatcher
