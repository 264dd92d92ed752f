/-
What the extraction permits keep, and what becomes of the outcome of a worker.

A worker is counted by its future, not by its caller, so nothing that happens to the caller moves
a permit.  What happens to the outcome is decided once, where the caller stops awaiting: either it
takes the outcome along, or it leaves the callback behind that will.
-/
import InvestmentPlatform.Evidence.PdfExtraction

namespace InvestmentPlatform.Evidence.PdfExtraction

open Option Function

variable {I V E : Type}

/-! ### One call -/

/-- The caller has what its worker ended with. -/
def Ending.Receives (ending : Ending V E) (outcome : Except E V) : Prop :=
  match outcome with
  | .ok value => ending = .returned value
  | .error error => ending = .raised error

/-- The caller gave up, and its worker goes on. -/
def Ending.Abandoned (ending : Ending V E) : Prop :=
  ending = extractionTimeout ∨ ending = .cancelled false

/-- The call was never admitted. -/
def Ending.Refused (ending : Ending V E) : Prop :=
  ending = queueTimeout ∨ ending = .cancelled true

variable {ending : Ending V E}

theorem Ending.Abandoned.not_receives (h : ending.Abandoned)
    (outcome : Except E V) : ¬ ending.Receives outcome := by
  intro hreceives
  cases outcome with
  | ok value =>
    rcases h with h | h
    · cases h.symm.trans hreceives
    · cases h.symm.trans hreceives
  | error error =>
    rcases h with h | h
    · cases h.symm.trans hreceives
    · cases h.symm.trans hreceives

namespace Call

/-- No callback is left behind, and none has run. -/
def Silent (call : Call V E) : Prop := call.late = false ∧ call.lateResults = []

/-- The callback is due, or it has run once, where there is one. -/
inductive Owed (listens : Bool) (call : Call V E) : Prop
  | due (hlate : call.late = listens) (hnone : call.lateResults = [])
  | paid (outcome : Except E V) (hlistens : listens = true) (hlate : call.late = false)
      (hworker : call.worker = .done outcome true) (honce : call.lateResults = [outcome])

/-- What becomes of a call that has a worker. -/
inductive Fate (listens : Bool) (call : Call V E) : Prop
  | awaiting (hphase : call.phase = .awaiting) (hsilent : call.Silent)
  | received (ending : Ending V E) (outcome : Except E V) (hphase : call.phase = .ended ending)
      (hworker : call.worker = .done outcome true) (hreceives : ending.Receives outcome)
      (hsilent : call.Silent)
  | abandoned (ending : Ending V E) (hphase : call.phase = .ended ending)
      (hending : ending.Abandoned) (howed : call.Owed listens)

/-- A call that has no worker. -/
structure Unstarted (call : Call V E) : Prop where
  phase : call.phase = .fresh ∨ call.phase = .queued ∨ call.phase = .granted ∨
    ∃ ending, call.phase = .ended ending ∧ ending.Refused
  silent : call.Silent

structure Sound (listens : Bool) (call : Call V E) : Prop where
  unstarted : call.worker = .none → call.Unstarted
  fate : call.worker ≠ .none → call.Fate listens

/-- The caller waits for admission, also where a permit was handed to it. -/
def Waits (call : Call V E) : Prop := call.phase = .queued ∨ call.phase = .granted

variable {listens : Bool} {call : Call V E}

theorem sound_new : Sound listens ({} : Call V E) :=
  ⟨fun _ => ⟨Or.inl rfl, rfl, rfl⟩, fun h => absurd rfl h⟩

/-- A call that is not behind its admission has no worker. -/
theorem Sound.worker_none (h : call.Sound listens) (hphase : call.phase = .fresh ∨ call.Waits) :
    call.worker = .none := by
  by_contra hworker
  cases h.fate hworker with
  | awaiting hawaiting _ =>
    rw [Waits, hawaiting] at hphase
    rcases hphase with hphase | hphase | hphase
    · cases hphase
    · cases hphase
    · cases hphase
  | received ending outcome hended _ _ _ =>
    rw [Waits, hended] at hphase
    rcases hphase with hphase | hphase | hphase
    · cases hphase
    · cases hphase
    · cases hphase
  | abandoned ending hended _ _ =>
    rw [Waits, hended] at hphase
    rcases hphase with hphase | hphase | hphase
    · cases hphase
    · cases hphase
    · cases hphase

/-- A caller that awaits its worker has left nothing behind. -/
theorem Sound.awaiting (h : call.Sound listens) (hphase : call.phase = .awaiting) :
    call.worker ≠ .none ∧ call.Silent := by
  have hworker : call.worker ≠ .none := by
    intro hnone
    rcases (h.unstarted hnone).phase with hother | hother | hother | ⟨ending, hother, -⟩
    · cases hphase.symm.trans hother
    · cases hphase.symm.trans hother
    · cases hphase.symm.trans hother
    · cases hphase.symm.trans hother
  refine ⟨hworker, ?_⟩
  cases h.fate hworker with
  | awaiting _ hsilent => exact hsilent
  | received ending outcome hended _ _ _ => cases hphase.symm.trans hended
  | abandoned ending hended _ _ => cases hphase.symm.trans hended

variable (call) in
/-- Where the call is, once its phase is neither of the two of a waiter. -/
theorem place_eq (h : ¬ call.Waits) :
    call.place = if call.worker.working then .holding else .outside := by
  unfold place
  split
  · rename_i hphase
    exact absurd (Or.inl hphase) h
  · rename_i hphase
    exact absurd (Or.inr hphase) h
  · rfl

theorem queued_of_waiting (h : call.place = .waiting) : call.phase = .queued := by
  unfold place at h
  split at h
  · assumption
  · cases h
  · split at h
    · cases h
    · cases h

/-! ### What the caller does -/

section

variable (h : call.Sound listens)
include h

section

variable (hphase : call.phase = .fresh ∨ call.Waits)
include hphase

theorem Sound.extract : call.extract.Sound listens := by
  have hsilent := (h.unstarted (h.worker_none hphase)).silent
  exact ⟨nofun, fun _ => .awaiting rfl hsilent⟩

theorem Sound.waiting {phase : Phase V E} (hwaits : phase = .queued ∨ phase = .granted) :
    Sound listens { call with phase := phase } := by
  have hnone := h.worker_none hphase
  refine ⟨fun _ => ⟨?_, (h.unstarted hnone).silent⟩, fun hworker => absurd hnone hworker⟩
  exact Or.inr (hwaits.elim Or.inl fun hgranted => Or.inr (Or.inl hgranted))

theorem Sound.refuse {ending : Ending V E} (hending : ending.Refused) :
    (call.leave ending).Sound listens ∧ (call.leave ending).place = .outside := by
  have hnone := h.worker_none hphase
  refine ⟨⟨fun _ => ⟨?_, (h.unstarted hnone).silent⟩, fun hworker => absurd hnone hworker⟩, ?_⟩
  · exact Or.inr (Or.inr (Or.inr ⟨ending, rfl, hending⟩))
  · have hworking : (call.leave ending).worker.working = false := by
      rw [leave, hnone]
      rfl
    rw [place_eq, hworking, if_neg Bool.false_ne_true]
    rintro (hphase' | hphase')
    · cases hphase'
    · cases hphase'

end

theorem Sound.abandon (hphase : call.phase = .awaiting)
    {ending : Ending V E} (hending : ending.Abandoned) :
    (call.abandon listens ending).Sound listens ∧
      (call.abandon listens ending).place = call.place := by
  obtain ⟨hworker, hsilent⟩ := h.awaiting hphase
  refine ⟨⟨fun hnone => absurd hnone hworker,
    fun _ => .abandoned ending rfl hending (.due rfl hsilent.2)⟩, ?_⟩
  rw [place_eq, place_eq, Call.abandon]
  · rintro (hwaits | hwaits)
    · cases hphase.symm.trans hwaits
    · cases hphase.symm.trans hwaits
  · rintro (hwaits | hwaits)
    · cases hwaits
    · cases hwaits

theorem Sound.receive (hphase : call.phase = .awaiting)
    {outcome : Except E V} (hdone : call.worker = .done outcome true) {ending : Ending V E}
    (hreceives : ending.Receives outcome) :
    (call.leave ending).Sound listens ∧ (call.leave ending).place = call.place := by
  obtain ⟨hworker, hsilent⟩ := h.awaiting hphase
  refine ⟨⟨fun hnone => absurd hnone hworker,
    fun _ => .received ending outcome rfl hdone hreceives hsilent⟩, ?_⟩
  rw [place_eq, place_eq, Call.leave]
  · rintro (hwaits | hwaits)
    · cases hphase.symm.trans hwaits
    · cases hphase.symm.trans hwaits
  · rintro (hwaits | hwaits)
    · cases hwaits
    · cases hwaits

/-! ### What the worker and the loop do -/

/-- The future goes on, and nobody has seen its outcome. -/
theorem Sound.progress (hworking : call.worker.working = true)
    (worker : Worker V E) (hworker : worker ≠ .none) :
    Sound listens { call with worker := worker } ∧ ¬ call.Waits := by
  have hsome : call.worker ≠ .none := by
    intro hnone
    rw [hnone] at hworking
    cases hworking
  have hnot : ∀ outcome, call.worker ≠ .done outcome true := by
    intro outcome hdone
    rw [hdone] at hworking
    cases hworking
  refine ⟨⟨fun hnone => absurd hnone hworker, fun _ => ?_⟩, fun hwaits =>
    hsome (h.worker_none (Or.inr hwaits))⟩
  cases h.fate hsome with
  | awaiting hphase hsilent => exact .awaiting hphase hsilent
  | received ending outcome _ hdone _ _ => exact absurd hdone (hnot outcome)
  | abandoned ending hphase hending howed =>
    refine .abandoned ending hphase hending ?_
    cases howed with
    | due hlate hnone => exact .due hlate hnone
    | paid outcome _ _ hdone _ => exact absurd hdone (hnot outcome)

theorem Sound.deliver {outcome : Except E V} (hlate : call.late = true)
    (hdone : call.worker = .done outcome true) :
    Sound listens { call with late := false, lateResults := call.lateResults ++ [outcome] } := by
  have hsome : call.worker ≠ .none := by
    rw [hdone]
    exact nofun
  refine ⟨fun hnone => absurd hnone hsome, fun _ => ?_⟩
  cases h.fate hsome with
  | awaiting _ hsilent => cases hlate.symm.trans hsilent.1
  | received ending outcome' _ _ _ hsilent => cases hlate.symm.trans hsilent.1
  | abandoned ending hphase hending howed =>
    refine .abandoned ending hphase hending ?_
    cases howed with
    | due hdue hnone =>
      refine .paid outcome (hdue.symm.trans hlate) rfl hdone ?_
      rw [hnone]
      rfl
    | paid outcome' _ hpaid _ _ => cases hlate.symm.trans hpaid

end

end Call

/-! ### The permits and the counter -/

variable [DecidableEq I] {n : Nat} {listens : I → Bool} {kind : E → Kind}
  {state state' : State I V E} {i : I} {call : Call V E}

structure Inv (n : Nat) (listens : I → Bool) (state : State I V E) : Prop where
  sound : ∀ i, (state.calls i).Sound (listens i)
  line : Semaphore.Line n state.slot fun i => (state.calls i).place
  counter : Semaphore.Counts state.queued fun i => (state.calls i).Waits

omit [DecidableEq I] in
theorem inv_start : Inv n listens (start n : State I V E) := by
  refine ⟨fun _ => Call.sound_new, Semaphore.line_of fun _ => rfl,
    Semaphore.counts_zero fun i hwaits => ?_⟩
  rcases hwaits with hwaits | hwaits
  · cases hwaits
  · cases hwaits

theorem sound_put (h : Inv n listens state) (hsound : call.Sound (listens i)) (j : I) :
    (update state.calls i call j).Sound (listens j) :=
  (forall_update_iff state.calls fun j call => call.Sound (listens j)).mpr
    ⟨hsound, fun k _ => h.sound k⟩ j

/-- Who waits for admission, after one call went on. -/
theorem waits_put (j : I) : (update state.calls i call j).Waits ↔
      if j = i then call.Waits else (state.calls j).Waits := by
  by_cases hj : j = i
  · subst hj
    rw [update_self, if_pos rfl]
  · rw [update_of_ne hj, if_neg hj]

section

variable (h : Inv n listens state)
include h

theorem Inv.counter_put (hsame : call.Waits ↔ (state.calls i).Waits) :
    Semaphore.Counts state.queued fun j => (update state.calls i call j).Waits := by
  refine h.counter.congr fun j => (waits_put j).trans ?_
  split
  · rename_i hj
    rw [hj]
    exact hsame
  · exact Iff.rfl

theorem Inv.counter_leave (hwaits : (state.calls i).Waits) (hcall : ¬ call.Waits) :
    Semaphore.Counts (state.queued - 1) fun j => (update state.calls i call j).Waits := by
  refine h.counter.erase hwaits fun j => (waits_put j).trans ?_
  split
  · rename_i hj
    exact ⟨fun hself => absurd hself hcall, fun hand => absurd hj hand.2⟩
  · rename_i hj
    exact ⟨fun hself => ⟨hself, hj⟩, fun hand => hand.1⟩

theorem Inv.counter_enter (hwaits : ¬ (state.calls i).Waits) (hcall : call.Waits) :
    Semaphore.Counts (state.queued + 1) fun j => (update state.calls i call j).Waits := by
  refine h.counter.insert hwaits fun j => (waits_put j).trans ?_
  split
  · rename_i hj
    exact ⟨fun _ => Or.inl hj, fun _ => hcall⟩
  · rename_i hj
    exact ⟨Or.inr, fun hor => hor.resolve_left hj⟩

/-- A call goes on without touching the semaphore or the counter. -/
theorem Inv.put (hsound : call.Sound (listens i)) (hplace : call.place = (state.calls i).place)
    (hwaits : call.Waits ↔ (state.calls i).Waits) : Inv n listens (state.put i call) :=
  ⟨sound_put h hsound, h.line.put hplace, h.counter_put hwaits⟩

/-- A permit is handed on, and whoever gets it waits for admission as before. -/
theorem Inv.giveBack (hi : (state.calls i).place = .holding)
    (hsound : call.Sound (listens i)) (hplace : call.place = .outside) {queued : Int}
    (hcounter : Semaphore.Counts queued fun j => (update state.calls i call j).Waits) :
    Inv n listens { state with
      slot := state.slot.release.2, queued := queued,
      calls := state.slot.pass Call.grant (update state.calls i call) } := by
  have hgrant : ∀ j, (state.calls j).place = .waiting → (state.calls j).Sound (listens j) →
      (state.calls j).grant.Sound (listens j) := fun j hj hsoundj =>
    hsoundj.waiting (Or.inr (Or.inl (Call.queued_of_waiting hj))) (Or.inr rfl)
  refine ⟨h.line.forall_putPass (p := fun j call => call.Sound (listens j)) hi hsound h.sound
    hgrant, h.line.putPass hi hplace fun j _ => rfl, hcounter.congr fun j => ?_⟩
  dsimp only
  rw [Semaphore.pass_apply]
  split
  · rename_i hj
    rw [update_of_ne (h.line.woken_ne hi j hj)]
    have hqueued := Call.queued_of_waiting (h.line.woken hj)
    exact ⟨fun _ => Or.inl hqueued, fun _ => Or.inr rfl⟩
  · exact Iff.rfl

/-! ### One step -/

theorem Inv.refuse (hending : ending.Refused)
    (hexec : state.refuse i ending = some state') : Inv n listens state' := by
  have hleft : ¬ ((state.calls i).leave ending).Waits := by
    rintro (hwaits | hwaits)
    · cases hwaits
    · cases hwaits
  unfold State.refuse at hexec
  dsimp only at hexec
  split at hexec
  · rename_i hphase
    rw [← some.inj hexec]
    obtain ⟨hsound, houtside⟩ := (h.sound i).refuse (Or.inr (Or.inl hphase)) hending
    refine ⟨sound_put h hsound, h.line.putAbandon ?_ houtside,
      h.counter_leave (Or.inl hphase) hleft⟩
    rw [Call.place, hphase]
  · rename_i hphase
    rw [← some.inj hexec]
    obtain ⟨hsound, houtside⟩ := (h.sound i).refuse (Or.inr (Or.inr hphase)) hending
    refine h.giveBack ?_ hsound houtside (h.counter_leave (Or.inr hphase) hleft)
    rw [Call.place, hphase]
  · cases hexec

/-- The caller of a worker gives up. -/
theorem Inv.abandon (hphase : (state.calls i).phase = .awaiting) (hending : ending.Abandoned) :
    Inv n listens (state.put i ((state.calls i).abandon (listens i) ending)) := by
  obtain ⟨hsound, hsame⟩ := (h.sound i).abandon hphase hending
  refine h.put hsound hsame ⟨?_, ?_⟩
  · rintro (hwaits | hwaits)
    · cases hwaits
    · cases hwaits
  · rintro (hwaits | hwaits)
    · cases hphase.symm.trans hwaits
    · cases hphase.symm.trans hwaits

/-- The caller takes the outcome along. -/
theorem Inv.receive (hphase : (state.calls i).phase = .awaiting)
    {outcome : Except E V} (hdone : (state.calls i).worker = .done outcome true)
    (hreceives : ending.Receives outcome) :
    Inv n listens (state.put i ((state.calls i).leave ending)) := by
  obtain ⟨hsound, hsame⟩ := (h.sound i).receive hphase hdone hreceives
  refine h.put hsound hsame ⟨?_, ?_⟩
  · rintro (hwaits | hwaits)
    · cases hwaits
    · cases hwaits
  · rintro (hwaits | hwaits)
    · cases hphase.symm.trans hwaits
    · cases hphase.symm.trans hwaits

theorem Inv.step {action : Action I V E}
    (hexec : state.exec listens kind action = some state') : Inv n listens state' := by
  cases action with
  | call i =>
    simp only [State.exec] at hexec
    split at hexec
    · rename_i hphase
      have hnot : ¬ (state.calls i).Waits := by
        rintro (hwaits | hwaits)
        · cases hphase.symm.trans hwaits
        · cases hphase.symm.trans hwaits
      have hplace : (state.calls i).place = .outside := by
        rw [Call.place_eq _ hnot, (h.sound i).worker_none (Or.inl hphase)]
        rfl
      have hsound := (h.sound i).extract (Or.inl hphase)
      split at hexec
      · rename_i slot hacquire
        rw [← some.inj hexec]
        have hput := sound_put h hsound
        refine ⟨hput, h.line.putTryAcquire hacquire hplace rfl, ?_⟩
        have hcount : state.queued + 1 - 1 = state.queued := Int.add_sub_cancel _ _
        refine (congrArg (Semaphore.Counts · _) hcount).mpr (h.counter_put ?_)
        exact ⟨nofun, fun hwaits => absurd hwaits hnot⟩
      · rename_i hacquire
        rw [← some.inj hexec]
        have hput := sound_put h ((h.sound i).waiting (Or.inl hphase) (Or.inl rfl))
        exact ⟨hput, h.line.putEnqueue hacquire hplace rfl, h.counter_enter hnot (Or.inl rfl)⟩
    · cases hexec
  | resume i =>
    simp only [State.exec] at hexec
    split at hexec
    · rename_i hphase
      rw [← some.inj hexec]
      refine ⟨sound_put h ((h.sound i).extract (Or.inr (Or.inr hphase))), h.line.put ?_,
        h.counter_leave (Or.inr hphase) ?_⟩
      · rw [Call.place, Call.place, hphase]
        rfl
      · rintro (hwaits | hwaits)
        · cases hwaits
        · cases hwaits
    · cases hexec
  | queueTimeout i =>
    simp only [State.exec] at hexec
    split at hexec
    · rename_i hphase
      rw [← some.inj hexec]
      obtain ⟨hsound, houtside⟩ := (h.sound i).refuse (Or.inl hphase) (Or.inl rfl)
      have hnot : ¬ (state.calls i).Waits := by
        rintro (hwaits | hwaits)
        · cases hphase.symm.trans hwaits
        · cases hphase.symm.trans hwaits
      have hput := sound_put h hsound
      refine ⟨hput, h.line.put ?_, ?_⟩
      · rw [houtside, Call.place_eq _ hnot, (h.sound i).worker_none (Or.inl hphase)]
        rfl
      · have hcount : state.queued + 1 - 1 = state.queued := Int.add_sub_cancel _ _
        refine (congrArg (Semaphore.Counts · _) hcount).mpr (h.counter_put ?_)
        exact ⟨nofun, fun hwaits => absurd hwaits hnot⟩
    · exact h.refuse (Or.inl rfl) hexec
  | timeout i =>
    simp only [State.exec] at hexec
    split at hexec
    · rename_i hphase
      rw [← some.inj hexec]
      exact h.abandon hphase (Or.inl rfl)
    · cases hexec
  | cancel i =>
    simp only [State.exec] at hexec
    split at hexec
    · rename_i hphase
      rw [← some.inj hexec]
      exact h.abandon hphase (Or.inr rfl)
    · exact h.refuse (Or.inr rfl) hexec
  | finish i outcome =>
    simp only [State.exec] at hexec
    split at hexec
    · rename_i hworker
      rw [← some.inj hexec]
      obtain ⟨hsound, hnot⟩ := (h.sound i).progress (by rw [hworker]; rfl)
        (.done outcome false) nofun
      refine h.put hsound ?_ Iff.rfl
      rw [Call.place_eq _ hnot, hworker]
      exact Call.place_eq { state.calls i with worker := .done outcome false } hnot
    · cases hexec
  | release i =>
    simp only [State.exec] at hexec
    split at hexec
    · rename_i outcome hworker
      rw [← some.inj hexec]
      obtain ⟨hsound, hnot⟩ := (h.sound i).progress (by rw [hworker]; rfl)
        (.done outcome true) nofun
      refine h.giveBack ?_ hsound ?_ (h.counter_put Iff.rfl)
      · rw [Call.place_eq _ hnot, hworker]
        rfl
      · exact Call.place_eq { state.calls i with worker := .done outcome true } hnot
    · cases hexec
  | wake i =>
    simp only [State.exec] at hexec
    split at hexec
    · rename_i value hphase hworker
      rw [← some.inj hexec]
      exact h.receive hphase hworker rfl
    · rename_i error hphase hworker
      split at hexec
      · rw [← some.inj hexec]
        exact h.abandon hphase (Or.inl rfl)
      · rw [← some.inj hexec]
        exact h.abandon hphase (Or.inr rfl)
      · rw [← some.inj hexec]
        exact h.receive hphase hworker rfl
    · cases hexec
  | deliver i =>
    simp only [State.exec] at hexec
    split at hexec
    · rename_i outcome hlate hworker
      rw [← some.inj hexec]
      exact h.put ((h.sound i).deliver hlate hworker) rfl Iff.rfl
    · cases hexec

end

/-! ### A call that has ended -/

variable {j : I}

theorem ended_put (hj : (state.calls j).phase = .ended ending)
    (hcall : (state.calls i).phase = .ended ending → call.phase = .ended ending) :
    (update state.calls i call j).phase = .ended ending := by
  by_cases hji : j = i
  · subst hji
    rw [update_self]
    exact hcall hj
  · rw [update_of_ne hji]
    exact hj

theorem Inv.ended_pass (h : Inv n listens state) (hj : (state.calls j).phase = .ended ending)
    (hcall : (state.calls i).phase = .ended ending → call.phase = .ended ending) :
    (state.slot.pass Call.grant (update state.calls i call) j).phase = .ended ending := by
  rw [Semaphore.pass_apply]
  split
  · rename_i hwoken
    cases hj.symm.trans (Call.queued_of_waiting (h.line.woken hwoken))
  · exact ended_put hj hcall

theorem Inv.ended_refuse (h : Inv n listens state) {ending' : Ending V E}
    (hj : (state.calls j).phase = .ended ending)
    (hexec : state.refuse i ending' = some state') : (state'.calls j).phase = .ended ending := by
  unfold State.refuse at hexec
  dsimp only at hexec
  split at hexec
  · rename_i hphase
    rw [← some.inj hexec]
    exact ended_put hj fun hended => (nomatch hphase.symm.trans hended)
  · rename_i hphase
    rw [← some.inj hexec]
    exact h.ended_pass hj fun hended => (nomatch hphase.symm.trans hended)
  · cases hexec

theorem Inv.ended_step (h : Inv n listens state) {action : Action I V E}
    (hj : (state.calls j).phase = .ended ending)
    (hexec : state.exec listens kind action = some state') :
    (state'.calls j).phase = .ended ending := by
  cases action with
  | call i =>
    simp only [State.exec] at hexec
    split at hexec
    · rename_i hphase
      have hnot : (state.calls i).phase ≠ .ended ending := fun hended =>
        (nomatch hphase.symm.trans hended)
      split at hexec
      · rw [← some.inj hexec]
        exact ended_put hj fun hended => absurd hended hnot
      · rw [← some.inj hexec]
        exact ended_put hj fun hended => absurd hended hnot
    · cases hexec
  | resume i =>
    simp only [State.exec] at hexec
    split at hexec
    · rename_i hphase
      rw [← some.inj hexec]
      exact ended_put hj fun hended => (nomatch hphase.symm.trans hended)
    · cases hexec
  | queueTimeout i =>
    simp only [State.exec] at hexec
    split at hexec
    · rename_i hphase
      rw [← some.inj hexec]
      exact ended_put hj fun hended => (nomatch hphase.symm.trans hended)
    · exact h.ended_refuse hj hexec
  | timeout i =>
    simp only [State.exec] at hexec
    split at hexec
    · rename_i hphase
      rw [← some.inj hexec]
      exact ended_put hj fun hended => (nomatch hphase.symm.trans hended)
    · cases hexec
  | cancel i =>
    simp only [State.exec] at hexec
    split at hexec
    · rename_i hphase
      rw [← some.inj hexec]
      exact ended_put hj fun hended => (nomatch hphase.symm.trans hended)
    · exact h.ended_refuse hj hexec
  | finish i outcome =>
    simp only [State.exec] at hexec
    split at hexec
    · rw [← some.inj hexec]
      exact ended_put hj id
    · cases hexec
  | release i =>
    simp only [State.exec] at hexec
    split at hexec
    · rename_i outcome hworker
      rw [← some.inj hexec]
      exact h.ended_pass hj id
    · cases hexec
  | wake i =>
    simp only [State.exec] at hexec
    split at hexec
    · rename_i value hphase hworker
      rw [← some.inj hexec]
      exact ended_put hj fun hended => (nomatch hphase.symm.trans hended)
    · rename_i error hphase hworker
      have hnot : (state.calls i).phase ≠ .ended ending := fun hended =>
        (nomatch hphase.symm.trans hended)
      split at hexec
      · rw [← some.inj hexec]
        exact ended_put hj fun hended => absurd hended hnot
      · rw [← some.inj hexec]
        exact ended_put hj fun hended => absurd hended hnot
      · rw [← some.inj hexec]
        exact ended_put hj fun hended => absurd hended hnot
    · cases hexec
  | deliver i =>
    simp only [State.exec] at hexec
    split at hexec
    · rw [← some.inj hexec]
      exact ended_put hj id
    · cases hexec

/-! ### What is asked for -/

/-- Nothing of the call is left to do: the caller has ended, the worker has, and no callback
waits. -/
structure Call.Settled (call : Call V E) (ending : Ending V E) : Prop where
  phase : call.phase = .ended ending
  worker : call.worker.working = false
  late : call.late = false

structure Promises (n : Nat) (listens : I → Bool) (state : State I V E) : Prop where
  /-- Who was handed a permit and has not run since has not taken it. -/
  conserved : ∃ handed working : Finset I,
    (∀ i, i ∈ handed ↔ (state.calls i).phase = .granted) ∧
      (∀ i, i ∈ working ↔ (state.calls i).worker.working = true) ∧
        state.slot.value + handed.card + working.card = n
  counter : Semaphore.Counts state.queued fun i => (state.calls i).Waits
  fate : ∀ i, (state.calls i).worker ≠ .none → (state.calls i).Fate (listens i)
  /-- Of the two things exactly one has happened in the end. -/
  settled : ∀ i ending, (state.calls i).worker ≠ .none → (state.calls i).Settled ending →
    ∃ outcome, (state.calls i).worker = .done outcome true ∧
      (ending.Receives outcome ∧ ¬ ending.Abandoned ∧ (state.calls i).lateResults = [] ∨
        ending.Abandoned ∧ ¬ ending.Receives outcome ∧
          (state.calls i).lateResults = if listens i then [outcome] else [])
  refused : ∀ i ending, (state.calls i).worker = .none →
    (state.calls i).phase = .ended ending → ending.Refused ∧ (state.calls i).Silent

omit [DecidableEq I] in
theorem Inv.conserved (h : Inv n listens state) : ∃ handed working : Finset I,
    (∀ i, i ∈ handed ↔ (state.calls i).phase = .granted) ∧
      (∀ i, i ∈ working ↔ (state.calls i).worker.working = true) ∧
        state.slot.value + handed.card + working.card = n := by
  classical
  obtain ⟨held, hheld, hconserves⟩ := h.line.held
  have hworking : ∀ i, (state.calls i).worker.working = true → ¬ (state.calls i).Waits := by
    intro i hi hwaits
    rw [(h.sound i).worker_none (Or.inr hwaits)] at hi
    cases hi
  have hsplit : ∀ i, i ∈ held ↔
      (state.calls i).phase = .granted ∨ (state.calls i).worker.working = true := by
    intro i
    refine (hheld i).trans ?_
    dsimp only
    constructor
    · intro hholding
      by_cases hgranted : (state.calls i).phase = .granted
      · exact Or.inl hgranted
      · have hnot : ¬ (state.calls i).Waits := by
          rintro (hqueued | hwaits)
          · rw [Call.place, hqueued] at hholding
            cases hholding
          · exact hgranted hwaits
        rw [Call.place_eq _ hnot] at hholding
        split at hholding
        · rename_i hi
          exact Or.inr hi
        · cases hholding
    · rintro (hgranted | hi)
      · rw [Call.place, hgranted]
      · rw [Call.place_eq _ (hworking i hi), if_pos hi]
  have hcard := Finset.card_filter_add_card_filter_not
    (s := held) fun i => (state.calls i).phase = .granted
  have htotal := hconserves.total
  refine ⟨held.filter fun i => (state.calls i).phase = .granted,
    held.filter fun i => ¬ (state.calls i).phase = .granted, fun i => ?_, fun i => ?_, by omega⟩
  · rw [Finset.mem_filter, hsplit]
    exact ⟨fun hand => hand.2, fun hgranted => ⟨Or.inl hgranted, hgranted⟩⟩
  · rw [Finset.mem_filter, hsplit]
    exact ⟨fun hand => hand.1.resolve_left hand.2,
      fun hi => ⟨Or.inr hi, fun hgranted => hworking i hi (Or.inr hgranted)⟩⟩

omit [DecidableEq I] in
theorem Inv.settled (h : Inv n listens state) (i : I) (ending : Ending V E)
    (hworker : (state.calls i).worker ≠ .none) (hsettled : (state.calls i).Settled ending) :
    ∃ outcome, (state.calls i).worker = .done outcome true ∧
      (ending.Receives outcome ∧ ¬ ending.Abandoned ∧ (state.calls i).lateResults = [] ∨
        ending.Abandoned ∧ ¬ ending.Receives outcome ∧
          (state.calls i).lateResults = if listens i then [outcome] else []) := by
  obtain ⟨outcome, hdone⟩ : ∃ outcome, (state.calls i).worker = .done outcome true := by
    have hended := hsettled.worker
    cases hcase : (state.calls i).worker with
    | none => exact absurd hcase hworker
    | running =>
      rw [hcase] at hended
      cases hended
    | done outcome released =>
      rw [hcase] at hended
      cases released with
      | false => cases hended
      | true => exact ⟨outcome, rfl⟩
  refine ⟨outcome, hdone, ?_⟩
  cases (h.sound i).fate hworker with
  | awaiting hphase _ => cases hphase.symm.trans hsettled.phase
  | received ending' outcome' hphase hdone' hreceives hsilent =>
    cases hphase.symm.trans hsettled.phase
    cases hdone.symm.trans hdone'
    exact Or.inl ⟨hreceives, fun habandoned => habandoned.not_receives outcome hreceives, hsilent.2⟩
  | abandoned ending' hphase hending howed =>
    cases hphase.symm.trans hsettled.phase
    refine Or.inr ⟨hending, hending.not_receives outcome, ?_⟩
    cases howed with
    | due hlate hnone => rw [hnone, ← hlate, hsettled.late, if_neg Bool.false_ne_true]
    | paid outcome' hlistens _ hdone' honce =>
      cases hdone.symm.trans hdone'
      rw [honce, if_pos hlistens]

omit [DecidableEq I] in
theorem Inv.refused (h : Inv n listens state) (i : I) (ending : Ending V E)
    (hworker : (state.calls i).worker = .none) (hphase : (state.calls i).phase = .ended ending) :
    ending.Refused ∧ (state.calls i).Silent := by
  have hunstarted := (h.sound i).unstarted hworker
  refine ⟨?_, hunstarted.silent⟩
  rcases hunstarted.phase with hother | hother | hother | ⟨ending', hother, hrefused⟩
  · cases hphase.symm.trans hother
  · cases hphase.symm.trans hother
  · cases hphase.symm.trans hother
  · cases hphase.symm.trans hother
    exact hrefused

variable {trace : List (Action I V E)}

theorem Inv.of_run (h : (machine n listens kind).Run state trace state')
    (hinv : Inv n listens state) : Inv n listens state' := by
  induction h with
  | nil => exact hinv
  | cons hstep _ ih => exact ih (hinv.step hstep)

theorem Inv.ended_run (h : (machine n listens kind).Run state trace state')
    (hinv : Inv n listens state)
    (hj : (state.calls j).phase = .ended ending) : (state'.calls j).phase = .ended ending := by
  induction h with
  | nil => exact hj
  | cons hstep _ ih => exact ih (hinv.step hstep) (hinv.ended_step hj hstep)

/-- **Every permit is with a worker that has not ended or free, every outcome goes to one place,
and a call that has ended stays as it ended.** -/
theorem extraction_promises (h : (machine n listens kind).Run (start n) trace state) :
    Promises n listens state ∧
      ∀ trace' state', (machine n listens kind).Run state trace' state' →
        ∀ i ending, (state.calls i).phase = .ended ending →
          (state'.calls i).phase = .ended ending := by
  have hinv := Inv.of_run h inv_start
  exact ⟨⟨hinv.conserved, hinv.counter, fun i => (hinv.sound i).fate, hinv.settled,
    hinv.refused⟩, fun trace' state' hrun i ending hi => hinv.ended_run hrun hi⟩

/-! ### Going on -/

/-- The call waits, or its outcome is still to be delivered. -/
def Call.Pending (call : Call V E) : Prop :=
  call.Waits ∨ call.phase = .awaiting ∨ call.late = true

/-- What the loop does of itself. -/
def Action.Own : Action I V E → Prop
  | .resume _ | .release _ | .wake _ | .deliver _ => True
  | _ => False

/-- **No call and no outcome is left behind**: while there is one, a worker is running or a step can
be taken. -/
theorem extraction_live (n : Nat) (listens : I → Bool) (kind : E → Kind) (i : I) :
    (machine (n + 1) listens kind : Machine (State I V E) _).Live
      (fun state => (state.calls i).Pending)
      (fun state => ∃ j, (state.calls j).worker = .running) Action.Own := by
  intro state h hpending
  have hinv : Inv (n + 1) listens state := by
    refine h.invariant (I := Inv (n + 1) listens) ?_ fun s action s' hs hstep => hs.step hstep
    rintro _ rfl
    exact inv_start
  refine or_iff_not_imp_left.mpr fun hidle => ?_
  -- Who has a worker goes on, as none is running.
  have hgoes : ∀ j, (state.calls j).worker ≠ .none → (state.calls j).worker.working = true ∨
      (state.calls j).phase = .awaiting ∨ (state.calls j).late = true →
      ∃ action, Action.Own action ∧ (state.exec listens kind action).isSome := by
    intro j hworker hj
    cases hcase : (state.calls j).worker with
    | none => exact absurd hcase hworker
    | running => exact absurd ⟨j, hcase⟩ hidle
    | done outcome released =>
      cases released with
      | false => exact ⟨.release j, trivial, by simp [State.exec, hcase]⟩
      | true =>
        rcases hj with hj | hj | hj
        · rw [hcase] at hj
          cases hj
        · refine ⟨.wake j, trivial, ?_⟩
          cases outcome with
          | ok value => simp [State.exec, hcase, hj]
          | error error => cases hkind : kind error <;> simp [State.exec, hcase, hj, hkind]
        · exact ⟨.deliver j, trivial, by simp [State.exec, hcase, hj]⟩
  have hgranted : ∀ j, (state.calls j).phase = .granted →
      ∃ action, Action.Own action ∧ (state.exec listens kind action).isSome :=
    fun j hj => ⟨.resume j, trivial, by simp [State.exec, hj]⟩
  obtain ⟨action, hown, hsome⟩ : ∃ action, Action.Own action ∧
      (state.exec listens kind action).isSome := by
    rcases hpending with (hqueued | hi) | hi | hlate
    · obtain ⟨j, hj⟩ := hinv.line.exists_holding (i := i) (by simp only [Call.place, hqueued])
      unfold Call.place at hj
      split at hj
      · cases hj
      · rename_i hphase
        exact hgranted j hphase
      · split at hj
        · rename_i hworking
          refine hgoes j (fun hnone => ?_) (Or.inl hworking)
          rw [hnone] at hworking
          cases hworking
        · cases hj
    · exact hgranted i hi
    · exact hgoes i ((hinv.sound i).awaiting hi).1 (Or.inr (Or.inl hi))
    · refine hgoes i (fun hnone => ?_) (Or.inr (Or.inr hlate))
      cases hlate.symm.trans ((hinv.sound i).unstarted hnone).silent.1
  exact ⟨action, _, hown, (some_get hsome).symm⟩

/-! ### One permit -/

def anyKind (_ : String) : Kind := .other

/-- A worker outlives its caller while a second call waits for the permit. -/
def crowded : List (Action Nat String String) :=
  [.call 0, .call 1, .timeout 0, .finish 0 (.ok "text"), .release 0, .deliver 0, .cancel 1]

/-- What the actions do over one permit where every caller listens. -/
def sampleRun (actions : List (Action Nat String String)) : Option (State Nat String String) :=
  actions.foldlM (fun state action => State.exec state (fun _ => true) anyKind action) (start 1)

def crowdedEnd : State Nat String String := (sampleRun crowded).get rfl

/-- The law at work: the first outcome arrives late, and the second call was never admitted. -/
theorem extraction_promises_sample :
    Promises 1 (fun _ => true) crowdedEnd ∧
      (crowdedEnd.calls 0).lateResults = [.ok "text"] ∧
      (crowdedEnd.calls 1).phase = .ended (.cancelled true) ∧ crowdedEnd.slot.value = 1 :=
  ⟨(extraction_promises (Machine.foldlM_run (Option.some_get rfl).symm)).1, rfl, rfl, rfl⟩

end InvestmentPlatform.Evidence.PdfExtraction
