/-
What the thread slots keep.

A slot that was acquired comes back through the thread that the caller handed its job to, so it
comes back whatever happens to the caller, as long as the thread begins.  A job that is taken back
from the queue of the pool keeps its slot for good.
-/
import InvestmentPlatform.Market.YahooThreads

namespace InvestmentPlatform.Market.YahooThreads

variable {I V E : Type}

/-! ### One call -/

/-- The caller is behind the acquisition of its slot. -/
def Phase.Dispatched (phase : Phase V E) : Prop :=
  match phase with
  | .awaiting | .ended _ => True
  | _ => False

def Call.Sound (call : Call V E) : Prop :=
  match call.job with
  | .none => call.acquired = 0 ∧ call.released = 0 ∧ call.phase ≠ .awaiting
  | .pending | .running | .revoked =>
    call.acquired = 1 ∧ call.released = 0 ∧ call.phase.Dispatched
  | .done _ released =>
    call.acquired = 1 ∧ call.released = (if released then 1 else 0) ∧ call.phase.Dispatched

namespace Call

variable {call : Call V E}

theorem sound_new : Sound ({} : Call V E) := ⟨rfl, rfl, nofun⟩

/-- A caller that was not dispatched has no job. -/
theorem Sound.job_none (h : call.Sound) (hphase : ¬ call.phase.Dispatched) :
    call.job = .none ∧ call.acquired = 0 ∧ call.released = 0 := by
  unfold Sound at h
  split at h
  · rename_i hjob
    exact ⟨hjob, h.1, h.2.1⟩
  · exact absurd h.2.2 hphase
  · exact absurd h.2.2 hphase
  · exact absurd h.2.2 hphase
  · exact absurd h.2.2 hphase

variable (call) in
/-- A caller that is behind its acquisition, or never began one. -/
theorem place_eq (hqueued : call.phase ≠ .queued) (hgranted : call.phase ≠ .granted) :
    call.place = if call.released < call.acquired then .holding else .outside := by
  unfold place
  split
  · rename_i hphase
    exact absurd hphase hqueued
  · rename_i hphase
    exact absurd hphase hgranted
  · rfl

section

variable (h : call.Sound)
include h

theorem Sound.place_fresh (hphase : call.phase = .fresh) : call.place = .outside := by
  obtain ⟨-, hacquired, hreleased⟩ := h.job_none (by rw [hphase]; exact id)
  rw [place_eq call (by rw [hphase]; exact nofun) (by rw [hphase]; exact nofun), if_neg (by omega)]

theorem Sound.dispatch (hphase : ¬ call.phase.Dispatched) :
    call.dispatch.Sound ∧ call.dispatch.place = .holding := by
  obtain ⟨-, hacquired, hreleased⟩ := h.job_none hphase
  refine ⟨⟨?_, hreleased, trivial⟩, ?_⟩
  · rw [Call.dispatch, hacquired]
  · have hlt : call.dispatch.released < call.dispatch.acquired := by
      rw [Call.dispatch, hacquired, hreleased]
      exact Nat.zero_lt_one
    rw [place_eq call.dispatch nofun nofun, if_pos hlt]

/-- A waiter that ends has done nothing. -/
theorem Sound.drop (hphase : ¬ call.phase.Dispatched) (outcome : Outcome V E) :
    Sound { call with phase := .ended outcome } ∧
      place { call with phase := .ended outcome } = .outside := by
  obtain ⟨hjob, hacquired, hreleased⟩ := h.job_none hphase
  refine ⟨?_, ?_⟩
  · unfold Sound
    rw [hjob]
    exact ⟨hacquired, hreleased, nofun⟩
  · rw [place_eq { call with phase := .ended outcome } nofun nofun, if_neg]
    dsimp only
    omega

/-- Who waits, or was granted a slot, has no job yet. -/
theorem Sound.rephase {phase : Phase V E} (hphase : ¬ call.phase.Dispatched)
    (hnot : phase ≠ .awaiting) : Sound { call with phase := phase } := by
  obtain ⟨hjob, hacquired, hreleased⟩ := h.job_none hphase
  unfold Sound
  rw [hjob]
  exact ⟨hacquired, hreleased, hnot⟩

/-- A caller that awaits its job ends, and the job goes on. -/
theorem Sound.leave (hphase : call.phase = .awaiting) (outcome : Outcome V E) :
    Sound { call with phase := .ended outcome } ∧
      place { call with phase := .ended outcome } = call.place := by
  refine ⟨?_, ?_⟩
  · unfold Sound at h ⊢
    split at h
    · exact absurd hphase h.2.2
    · rename_i hjob
      rw [hjob]
      exact ⟨h.1, h.2.1, trivial⟩
    · rename_i hjob
      rw [hjob]
      exact ⟨h.1, h.2.1, trivial⟩
    · rename_i hjob
      rw [hjob]
      exact ⟨h.1, h.2.1, trivial⟩
    · rename_i hjob
      rw [hjob]
      exact ⟨h.1, h.2.1, trivial⟩
  · rw [place_eq { call with phase := .ended outcome } nofun nofun,
      place_eq call (by rw [hphase]; exact nofun) (by rw [hphase]; exact nofun)]

end

end Call

/-! ### The slots -/

section

variable [DecidableEq I] {n : Nat} {state state' : State I V E} {i : I} {call : Call V E}

structure Inv (n : Nat) (state : State I V E) : Prop where
  sound : ∀ i, (state.calls i).Sound
  line : Semaphore.Line n state.slot fun i => (state.calls i).place

omit [DecidableEq I] in
theorem inv_start : Inv n (start n : State I V E) :=
  ⟨fun _ => Call.sound_new, Semaphore.line_of fun _ => Call.sound_new.place_fresh rfl⟩

theorem put_self : (state.put i call).calls i = call := Function.update_self _ _ _

theorem put_ne {j : I} (h : j ≠ i) : (state.put i call).calls j = state.calls j :=
  Function.update_of_ne h _ _

theorem sound_put (h : Inv n state) (hsound : call.Sound) (j : I) :
    ((state.put i call).calls j).Sound :=
  (Function.forall_update_iff state.calls fun _ call => call.Sound).mpr
    ⟨hsound, fun k _ => h.sound k⟩ j

/-- A call goes on without touching the semaphore. -/
theorem Inv.put (h : Inv n state) (hsound : call.Sound)
    (hplace : call.place = (state.calls i).place) : Inv n (state.put i call) :=
  ⟨sound_put h hsound, h.line.put hplace⟩

/-- Only who is in the queue waits. -/
theorem Call.queued_of_waiting {call : Call V E} (h : call.place = .waiting) :
    call.phase = .queued := by
  unfold Call.place at h
  split at h
  · assumption
  · cases h
  · split at h
    · cases h
    · cases h

/-- A call gives its slot back, and the next in the queue gets it. -/
theorem Inv.giveBack (h : Inv n state) (hi : (state.calls i).place = .holding)
    (hsound : call.Sound) (hplace : call.place = .outside) :
    Inv n (state.put i call).releaseSlot := by
  refine ⟨fun j => ?_, h.line.putPass hi hplace fun j _ => rfl⟩
  refine h.line.forall_putPass (p := fun _ call => call.Sound) hi hsound h.sound ?_ j
  intro k hk hsoundk
  refine hsoundk.rephase ?_ nofun
  rw [Call.queued_of_waiting hk]
  exact id

theorem Inv.step (h : Inv n state) {action : Action I V E}
    (hexec : state.exec action = some state') : Inv n state' := by
  cases action with
  | call i =>
    simp only [State.exec] at hexec
    split at hexec
    · rename_i hphase
      have hnot : ¬ (state.calls i).phase.Dispatched := by rw [hphase]; exact id
      have hplace := (h.sound i).place_fresh hphase
      split at hexec
      · rename_i slot hacquire
        rw [← Option.some.inj hexec]
        obtain ⟨hsound, hholding⟩ := (h.sound i).dispatch hnot
        exact ⟨sound_put h hsound, h.line.putTryAcquire hacquire hplace hholding⟩
      · rename_i hacquire
        rw [← Option.some.inj hexec]
        exact ⟨sound_put h ((h.sound i).rephase hnot nofun), h.line.putEnqueue hacquire hplace rfl⟩
    · cases hexec
  | resume i =>
    simp only [State.exec] at hexec
    split at hexec
    · rename_i hphase
      rw [← Option.some.inj hexec]
      obtain ⟨hsound, hholding⟩ := (h.sound i).dispatch (by rw [hphase]; exact id)
      refine h.put hsound (hholding.trans ?_)
      rw [Call.place, hphase]
    · cases hexec
  | cancel i =>
    simp only [State.exec] at hexec
    split at hexec
    · cases hexec
    · cases hexec
    · rename_i hphase
      rw [← Option.some.inj hexec]
      obtain ⟨hsound, houtside⟩ := (h.sound i).drop (by rw [hphase]; exact id) .cancelled
      refine ⟨sound_put h hsound, h.line.putAbandon ?_ houtside⟩
      rw [Call.place, hphase]
    · rename_i hphase
      rw [← Option.some.inj hexec]
      obtain ⟨hsound, houtside⟩ := (h.sound i).drop (by rw [hphase]; exact id) .cancelled
      refine h.giveBack ?_ hsound houtside
      rw [Call.place, hphase]
    · rename_i hphase
      rw [← Option.some.inj hexec]
      obtain ⟨hsound, hsame⟩ := (h.sound i).leave hphase .cancelled
      exact h.put hsound hsame
  | begin i =>
    simp only [State.exec] at hexec
    split at hexec
    · rename_i hjob
      rw [← Option.some.inj hexec]
      have hsound := h.sound i
      rw [Call.Sound, hjob] at hsound
      exact h.put hsound rfl
    · cases hexec
  | finish i result =>
    simp only [State.exec] at hexec
    split at hexec
    · rename_i hjob
      rw [← Option.some.inj hexec]
      have hsound := h.sound i
      rw [Call.Sound, hjob] at hsound
      exact h.put hsound rfl
    · cases hexec
  | releaseOnce i =>
    simp only [State.exec] at hexec
    split at hexec
    · rename_i result hjob
      rw [← Option.some.inj hexec]
      have hsound := h.sound i
      rw [Call.Sound, hjob] at hsound
      obtain ⟨hacquired, hreleased, hphase⟩ := hsound
      have hreleased' : (state.calls i).released = 0 := hreleased
      have hqueued : (state.calls i).phase ≠ .queued := by
        intro heq
        rw [heq] at hphase
        exact hphase
      have hgranted : (state.calls i).phase ≠ .granted := by
        intro heq
        rw [heq] at hphase
        exact hphase
      refine h.giveBack ?_ ⟨hacquired, ?_, hphase⟩ ?_
      · rw [Call.place_eq _ hqueued hgranted, if_pos (by omega)]
      · dsimp only
        rw [hreleased', if_pos rfl]
      · refine (Call.place_eq { state.calls i with
          job := .done result true, released := (state.calls i).released + 1 } hqueued
          hgranted).trans (if_neg ?_)
        dsimp only
        omega
    · cases hexec
  | wake i =>
    simp only [State.exec] at hexec
    split at hexec
    · rename_i hphase hjob
      rw [← Option.some.inj hexec]
      obtain ⟨hsound, hsame⟩ := (h.sound i).leave hphase _
      exact h.put hsound hsame
    · cases hexec
  | revoke i =>
    simp only [State.exec] at hexec
    split at hexec
    · rename_i outcome hphase hjob
      rw [← Option.some.inj hexec]
      have hsound := h.sound i
      rw [Call.Sound, hjob] at hsound
      refine h.put ⟨hsound.1, hsound.2.1, ?_⟩ rfl
      exact hsound.2.2
    · cases hexec

/-! ### What is asked for -/

/-- The slot of the call is on its way back. -/
def Call.Returning (call : Call V E) : Prop :=
  call.phase = .granted ∨ call.job = .pending ∨ call.job = .running ∨
    ∃ result, call.job = .done result false

/-- Every call has ended, no job is left to the pool, and every callback has run. -/
def Quiescent (state : State I V E) : Prop :=
  ∀ i, ((state.calls i).phase = .fresh ∨ ∃ outcome, (state.calls i).phase = .ended outcome) ∧
    ¬ (state.calls i).Returning

structure Promises (n : Nat) (state : State I V E) : Prop where
  running : ∃ s : Finset I, (∀ i, i ∈ s ↔ (state.calls i).job = .running) ∧ s.card ≤ n
  conserved : ∃ held : Finset I, (∀ i, i ∈ held ↔ (state.calls i).place = .holding) ∧
    state.slot.value + held.card = n
  once : ∀ i, (state.calls i).released ≤ (state.calls i).acquired ∧
    (state.calls i).acquired ≤ 1 ∧
    (0 < (state.calls i).released → ∃ result, (state.calls i).job = .done result true)
  returning : ∀ i, (state.calls i).place = .holding → (state.calls i).Returning
  quiet : Quiescent state → state.slot.value = n ∧ (0 < n → state.slot.tryAcquire.isSome)

variable {trace : List (Action I V E)}

theorem Inv.of_run (h : (machine n).Run state trace state') (hinv : Inv n state) :
    Inv n state' := by
  induction h with
  | nil => exact hinv
  | cons hstep _ ih => exact ih (hinv.step hstep)

/-- Whose call the action is about. -/
def Action.caller : Action I V E → I
  | .call i | .resume i | .cancel i | .begin i | .finish i _ | .releaseOnce i | .wake i
  | .revoke i => i

theorem releaseSlot_job (i : I) : (state.releaseSlot.calls i).job = (state.calls i).job := by
  show (state.slot.pass Call.grant state.calls i).job = _
  rw [Semaphore.pass_apply]
  split
  · rfl
  · rfl

/-- What an action does to the jobs: only `revoke` takes one back. -/
theorem exec_job (hinv : Inv n state) {action : Action I V E}
    (hexec : state.exec action = some state') :
    ∃ call : Call V E, (∀ j, (state'.calls j).job = ((state.put action.caller call).calls j).job) ∧
      (call.job = .revoked ↔
        (state.calls action.caller).job = .revoked ∨ action = .revoke action.caller) := by
  cases action with
  | call i =>
    simp only [State.exec] at hexec
    split at hexec
    · rename_i hphase
      have hnone := ((hinv.sound i).job_none (by rw [hphase]; exact id)).1
      split at hexec
      · rw [← Option.some.inj hexec]
        refine ⟨_, fun j => rfl, (fun heq => by cases heq), fun hor => ?_⟩
        rcases hor with hrevoked | heq
        · rw [Action.caller, hnone] at hrevoked
          cases hrevoked
        · cases heq
      · rw [← Option.some.inj hexec]
        exact ⟨_, fun j => rfl, Or.inl, fun hor => hor.resolve_right fun heq => by cases heq⟩
    · cases hexec
  | resume i =>
    simp only [State.exec] at hexec
    split at hexec
    · rename_i hphase
      have hnone := ((hinv.sound i).job_none (by rw [hphase]; exact id)).1
      rw [← Option.some.inj hexec]
      refine ⟨_, fun j => rfl, (fun heq => by cases heq), fun hor => ?_⟩
      rcases hor with hrevoked | heq
      · rw [Action.caller, hnone] at hrevoked
        cases hrevoked
      · cases heq
    · cases hexec
  | cancel i =>
    refine ⟨{ state.calls i with phase := .ended .cancelled }, ?_, Or.inl,
      fun hor => hor.resolve_right fun heq => by cases heq⟩
    simp only [State.exec] at hexec
    split at hexec
    · cases hexec
    · cases hexec
    · rw [← Option.some.inj hexec]
      exact fun j => rfl
    · rw [← Option.some.inj hexec]
      exact fun j => releaseSlot_job j
    · rw [← Option.some.inj hexec]
      exact fun j => rfl
  | begin i =>
    simp only [State.exec] at hexec
    split at hexec
    · rename_i hjob
      rw [← Option.some.inj hexec]
      refine ⟨_, fun j => rfl, (fun heq => by cases heq), fun hor => ?_⟩
      rcases hor with hrevoked | heq
      · rw [Action.caller, hjob] at hrevoked
        cases hrevoked
      · cases heq
    · cases hexec
  | finish i result =>
    simp only [State.exec] at hexec
    split at hexec
    · rename_i hjob
      rw [← Option.some.inj hexec]
      refine ⟨_, fun j => rfl, (fun heq => by cases heq), fun hor => ?_⟩
      rcases hor with hrevoked | heq
      · rw [Action.caller, hjob] at hrevoked
        cases hrevoked
      · cases heq
    · cases hexec
  | releaseOnce i =>
    simp only [State.exec] at hexec
    split at hexec
    · rename_i result hjob
      rw [← Option.some.inj hexec]
      refine ⟨_, fun j => releaseSlot_job j, (fun heq => by cases heq), fun hor => ?_⟩
      rcases hor with hrevoked | heq
      · rw [Action.caller, hjob] at hrevoked
        cases hrevoked
      · cases heq
    · cases hexec
  | wake i =>
    simp only [State.exec] at hexec
    split at hexec
    · rw [← Option.some.inj hexec]
      exact ⟨_, fun j => rfl, Or.inl, fun hor => hor.resolve_right fun heq => by cases heq⟩
    · cases hexec
  | revoke i =>
    simp only [State.exec] at hexec
    split at hexec
    · rw [← Option.some.inj hexec]
      exact ⟨_, fun j => rfl, fun _ => Or.inr rfl, fun _ => rfl⟩
    · cases hexec

theorem revoked_iff (hinv : Inv n state) {action : Action I V E}
    (hexec : state.exec action = some state') (i : I) :
    (state'.calls i).job = .revoked ↔ (state.calls i).job = .revoked ∨ action = .revoke i := by
  obtain ⟨call, hcalls, hself⟩ := exec_job hinv hexec
  rw [hcalls]
  by_cases hi : i = action.caller
  · subst hi
    rw [put_self]
    exact hself
  · rw [put_ne hi]
    refine ⟨Or.inl, fun hor => hor.resolve_right ?_⟩
    rintro rfl
    exact hi rfl

theorem revoked_iff_run (h : (machine n).Run state trace state') (hinv : Inv n state) (i : I) :
    (state'.calls i).job = .revoked ↔ (state.calls i).job = .revoked ∨ .revoke i ∈ trace := by
  induction h with
  | nil => exact ⟨Or.inl, fun hor => hor.resolve_right List.not_mem_nil⟩
  | cons hstep _ ih =>
    rw [ih (hinv.step hstep), revoked_iff hinv hstep, List.mem_cons, or_assoc,
      eq_comm (a := Action.revoke i)]

omit [DecidableEq I] in
/-- A job that never runs keeps its slot, and every other slot is on its way back. -/
theorem Inv.returning_iff (h : Inv n state) (i : I) (hholding : (state.calls i).place = .holding) :
    (state.calls i).Returning ↔ (state.calls i).job ≠ .revoked := by
  have hsound := h.sound i
  unfold Call.Returning
  cases hjob : (state.calls i).job with
  | none =>
    refine ⟨fun _ => nofun, fun _ => Or.inl ?_⟩
    rw [Call.Sound, hjob] at hsound
    unfold Call.place at hholding
    split at hholding
    · cases hholding
    · assumption
    · rw [hsound.1, hsound.2.1, if_neg (Nat.lt_irrefl 0)] at hholding
      cases hholding
  | pending => exact ⟨fun _ => nofun, fun _ => Or.inr (Or.inl rfl)⟩
  | running => exact ⟨fun _ => nofun, fun _ => Or.inr (Or.inr (Or.inl rfl))⟩
  | done result released =>
    refine ⟨fun _ => nofun, fun _ => ?_⟩
    rw [Call.Sound, hjob] at hsound
    cases released with
    | false => exact Or.inr (Or.inr (Or.inr ⟨result, rfl⟩))
    | true =>
      refine Or.inl ?_
      unfold Call.place at hholding
      split at hholding
      · cases hholding
      · assumption
      · rw [hsound.1, hsound.2.1, if_pos rfl, if_neg (Nat.lt_irrefl 1)] at hholding
        cases hholding
  | revoked =>
    rw [Call.Sound, hjob] at hsound
    refine ⟨fun hreturning => ?_, fun hne => absurd rfl hne⟩
    rcases hreturning with hgranted | hjob | hjob | ⟨result, hjob⟩
    · rw [hgranted] at hsound
      exact absurd hsound.2.2 id
    · cases hjob
    · cases hjob
    · cases hjob

omit [DecidableEq I] in
/-- A call that acquired its slot and has not given it back holds it. -/
theorem Inv.holding (h : Inv n state) {i : I}
    (hjob : (state.calls i).job = .running ∨ (state.calls i).job = .revoked) :
    (state.calls i).place = .holding := by
  have hone : (state.calls i).acquired = 1 ∧ (state.calls i).released = 0 ∧
      (state.calls i).phase.Dispatched := by
    have hsound := h.sound i
    rcases hjob with hjob | hjob
    · rw [Call.Sound, hjob] at hsound
      exact hsound
    · rw [Call.Sound, hjob] at hsound
      exact hsound
  obtain ⟨hacquired, hreleased, hphase⟩ := hone
  rw [Call.place_eq, if_pos (by omega)]
  · intro heq
    rw [heq] at hphase
    exact hphase
  · intro heq
    rw [heq] at hphase
    exact hphase

omit [DecidableEq I] in
theorem Inv.once (h : Inv n state) (i : I) :
    (state.calls i).released ≤ (state.calls i).acquired ∧ (state.calls i).acquired ≤ 1 ∧
      (0 < (state.calls i).released → ∃ result, (state.calls i).job = .done result true) := by
  have hsound := h.sound i
  unfold Call.Sound at hsound
  split at hsound
  · refine ⟨by omega, by omega, fun hpos => absurd hpos (by omega)⟩
  · refine ⟨by omega, by omega, fun hpos => absurd hpos (by omega)⟩
  · refine ⟨by omega, by omega, fun hpos => absurd hpos (by omega)⟩
  · refine ⟨by omega, by omega, fun hpos => absurd hpos (by omega)⟩
  · rename_i result released hjob
    obtain ⟨hacquired, hreleased, -⟩ := hsound
    cases released with
    | false =>
      have hzero : (state.calls i).released = 0 := hreleased
      exact ⟨by omega, by omega, fun hpos => absurd hpos (by omega)⟩
    | true =>
      have hone : (state.calls i).released = 1 := hreleased
      exact ⟨by omega, by omega, fun _ => ⟨result, hjob⟩⟩

/-- **The slots are conserved exactly in the runs in which no job is taken back from the queue of
the pool.** -/
theorem slots_conserved_iff (h : (machine n).Run (start n) trace state) :
    Promises n state ↔ ∀ i, .revoke i ∉ trace := by
  have hinv := Inv.of_run h inv_start
  have hrevoked : ∀ i, (state.calls i).job = .revoked ↔ .revoke i ∈ trace := fun i =>
    (revoked_iff_run h inv_start i).trans ⟨fun hor => hor.resolve_left nofun, Or.inr⟩
  constructor
  · intro hpromises i hmem
    have hjob := (hrevoked i).mpr hmem
    have hholding := hinv.holding (Or.inr hjob)
    exact (hinv.returning_iff i hholding).mp (hpromises.returning i hholding) hjob
  · intro hnone
    have hreturning : ∀ i, (state.calls i).place = .holding → (state.calls i).Returning :=
      fun i hholding => (hinv.returning_iff i hholding).mpr fun hjob =>
        hnone i ((hrevoked i).mp hjob)
    obtain ⟨held, hheld, hconserves⟩ := hinv.line.held
    refine ⟨hinv.line.held.card_le fun i hjob => hinv.holding (Or.inl hjob),
      ⟨held, hheld, hconserves.total⟩, hinv.once, hreturning, fun hquiet => ?_⟩
    have hvalue : state.slot.value = n :=
      hinv.line.held.all_free fun i hholding => (hquiet i).2 (hreturning i hholding)
    have hwaiters : state.slot.waiters = [] := by
      rw [List.eq_nil_iff_forall_not_mem]
      intro i hmem
      have hphase := Call.queued_of_waiting ((hinv.line.queue i).mp hmem)
      rcases (hquiet i).1 with hfresh | ⟨outcome, hended⟩
      · cases hphase.symm.trans hfresh
      · cases hphase.symm.trans hended
    refine ⟨hvalue, fun hpos => ?_⟩
    rw [Semaphore.tryAcquire, if_neg, Option.isSome_some]
    rw [not_or, not_not, hvalue]
    exact ⟨Nat.pos_iff_ne_zero.mp hpos, hwaiters⟩

/-! ### Going on -/

/-- No new call, no cancellation and no end of a synchronous call. -/
def Action.Own : Action I V E → Prop
  | .resume _ | .begin _ | .releaseOnce _ | .wake _ => True
  | _ => False

end

/-! ### One slot -/

/-- A call whose owner is cancelled while another thread of the pool is busy. -/
def lost : List (Action Nat String String) := [.call 0, .cancel 0, .revoke 0]

/-- A call whose owner is cancelled while it runs. -/
def drained : List (Action Nat String String) :=
  [.call 0, .begin 0, .cancel 0, .finish 0 (.ok "snapshot"), .releaseOnce 0]

/-- The state after some actions over one slot. -/
def after (actions : List (Action Nat String String))
    (h : (actions.foldlM State.exec (start 1)).isSome) : State Nat String String :=
  (actions.foldlM State.exec (start 1)).get h

theorem run_after (actions : List (Action Nat String String))
    (h : (actions.foldlM State.exec (start 1)).isSome) :
    (machine 1).Run (start 1) actions (after actions h) :=
  Machine.foldlM_run (Option.some_get h).symm

/-- The law at work: the slot comes back although the owner is gone. -/
theorem slots_conserved_iff_sample : Promises 1 (after drained rfl) :=
  (slots_conserved_iff (run_after drained rfl)).mpr fun i hmem => by
    simp [drained] at hmem

/-- **A slot can be lost**: the only call has ended, nothing is left to do, and no slot is free. -/
theorem slot_lost :
    (machine 1).Run (start 1) lost (after lost rfl) ∧ Quiescent (after lost rfl) ∧
      (after lost rfl).slot.value = 0 ∧ (after lost rfl).slot.tryAcquire = none := by
  refine ⟨run_after lost rfl, fun i => ?_, rfl, rfl⟩
  by_cases hi : i = 0
  · subst hi
    refine ⟨Or.inr ⟨.cancelled, rfl⟩, ?_⟩
    rintro (hphase | hjob | hjob | ⟨result, hjob⟩)
    · cases hphase
    · cases hjob
    · cases hjob
    · cases hjob
  · have hcall : (after lost rfl).calls i = {} := by
      simp [after, lost, State.exec, State.put, start, Semaphore.of, Semaphore.tryAcquire,
        Call.dispatch, Function.update_of_ne hi]
    rw [hcall]
    refine ⟨Or.inl rfl, ?_⟩
    rintro (hphase | hjob | hjob | ⟨result, hjob⟩)
    · cases hphase
    · cases hjob
    · cases hjob
    · cases hjob

end InvestmentPlatform.Market.YahooThreads
