/-
One active run for each market, one writer for each run.

Two facts hold of every reachable store: the slot table names exactly the active runs, and
a run in a terminal status has neither owner nor lease.  Both are inductions over the four
moves.  A third is about two stores of a run: a status only ever goes where `Becomes` lets
it.  The contract of the cycle store is assembled from the three and from what a call
without the lease does.
-/
import InvestmentPlatform.Proofs.Cycle.Steps

namespace InvestmentPlatform.Cycle

/-! ### The invariant -/

/-- The slots name the active runs, and terminal runs are disowned. -/
structure StoreLaw (s : Store) : Prop where
  slots : SlotLaw CycleRun.market (fun row => row.status.Active) s.runs s.active
  settled : ∀ cycleId row, s.runs cycleId = some row → row.status.Terminal →
    row.ownerId = none ∧ row.leaseExpiresAt = none

theorem StoreLaw.empty (clock : Instant) : StoreLaw (Store.empty clock) :=
  ⟨SlotLaw.empty, fun _ _ h => by simp [Store.empty, Table.empty] at h⟩

theorem Move.keeps_slots {s s' : Store} (h : Move s s')
    (hlaw : SlotLaw CycleRun.market (fun row => row.status.Active) s.runs s.active) :
    SlotLaw CycleRun.market (fun row => row.status.Active) s'.runs s'.active := by
  cases h with
  | same hruns hactive =>
      rw [hruns, hactive]
      exact hlaw
  | accept hfresh hfree hruns hactive =>
      rw [hruns, hactive]
      exact hlaw.take hfresh hfree (by show RunStatus.Active .accepted; decide)
  | change hrow hlive hlive' _ hmarket hruns hactive =>
      rw [hruns, hactive]
      exact hlaw.change hrow hlive hlive' hmarket
  | settle _ _ hterminal _ _ _ _ hruns hactive =>
      rw [hruns, hactive]
      exact hlaw.drop hterminal.not_active

theorem Move.keeps_settled {s s' : Store} (h : Move s s')
    (hlaw : ∀ cycleId row, s.runs cycleId = some row → row.status.Terminal →
      row.ownerId = none ∧ row.leaseExpiresAt = none) :
    ∀ cycleId row, s'.runs cycleId = some row → row.status.Terminal →
      row.ownerId = none ∧ row.leaseExpiresAt = none := by
  intro cycleId row hrow hterminal
  cases h with
  | same hruns _ =>
      rw [hruns] at hrow
      exact hlaw cycleId row hrow hterminal
  | accept _ _ hruns _ =>
      rw [hruns, Table.put_apply] at hrow
      split at hrow
      · cases hrow
        exact ⟨rfl, rfl⟩
      · exact hlaw cycleId row hrow hterminal
  | change _ _ hlive' _ _ hruns _ =>
      rw [hruns, Table.put_apply] at hrow
      split at hrow
      · cases hrow
        exact absurd hlive' hterminal.not_active
      · exact hlaw cycleId row hrow hterminal
  | settle _ _ _ _ _ howner hlease hruns _ =>
      rw [hruns, Table.put_apply] at hrow
      split at hrow
      · cases hrow
        exact ⟨howner, hlease⟩
      · exact hlaw cycleId row hrow hterminal

theorem StoreLaw.move {s s' : Store} (hlaw : StoreLaw s) (h : Move s s') : StoreLaw s' :=
  ⟨h.keeps_slots hlaw.slots, h.keeps_settled hlaw.settled⟩

section
variable {uuid4 : Nat → Suggestions.Uuid} {start : Instant} {db db' : Database}

/-- **Every reachable store obeys the law.** -/
theorem reachable_storeLaw (h : (system uuid4 start).Reachable db) : StoreLaw db.cycles := by
  refine h.invariant (I := fun db => StoreLaw db.cycles) ?_ ?_
  · rintro _ rfl
    exact StoreLaw.empty start
  · intro before label after hlaw hstep
    exact hlaw.move (exec_effect hstep).move

end

/-! ### How a run's row evolves -/

/-- Every run is still there, in the same market, with a status its old one may become. -/
def Evolves (s s' : Store) : Prop :=
  ∀ cycleId row, s.runs cycleId = some row → ∃ row', s'.runs cycleId = some row' ∧
    row'.market = row.market ∧ row.status.Becomes row'.status

theorem Evolves.refl (s : Store) : Evolves s s := fun _ row hrow => ⟨row, hrow, rfl, .refl _⟩

theorem Evolves.trans {a b c : Store} (hab : Evolves a b) (hbc : Evolves b c) : Evolves a c := by
  intro cycleId row hrow
  obtain ⟨mid, hmid, hmarket, hbecomes⟩ := hab cycleId row hrow
  obtain ⟨last, hlast, hmarket', hbecomes'⟩ := hbc cycleId mid hmid
  exact ⟨last, hlast, hmarket'.trans hmarket, hbecomes.trans hbecomes'⟩

/-- Writing the row of one run evolves the table when it evolves that row. -/
theorem evolves_put {s s' : Store} {cycleId : CycleId} {row' : CycleRun}
    (hruns : s'.runs = s.runs.put cycleId row')
    (h : ∀ row, s.runs cycleId = some row →
      row'.market = row.market ∧ row.status.Becomes row'.status) : Evolves s s' := by
  intro other row hrow
  rw [hruns, Table.put_apply]
  split
  · rename_i heq
    subst heq
    exact ⟨row', rfl, h row hrow⟩
  · exact ⟨row, hrow, rfl, .refl _⟩

theorem Move.evolves {s s' : Store} (h : Move s s') : Evolves s s' := by
  cases h with
  | same hruns _ =>
      intro cycleId row hrow
      exact ⟨row, by rw [hruns, hrow], rfl, .refl _⟩
  | accept hfresh _ hruns _ =>
      refine evolves_put hruns fun row hrow => ?_
      rw [hfresh] at hrow
      cases hrow
  | change hold _ _ hbecomes hmarket hruns _ =>
      refine evolves_put hruns fun row hrow => ?_
      rw [hold, Option.some.injEq] at hrow
      subst hrow
      exact ⟨hmarket, hbecomes⟩
  | settle hold _ _ hbecomes hmarket _ _ hruns _ =>
      refine evolves_put hruns fun row hrow => ?_
      rw [hold, Option.some.injEq] at hrow
      subst hrow
      exact ⟨hmarket, hbecomes⟩

section
variable {uuid4 : Nat → Suggestions.Uuid} {start : Instant} {db db' : Database}
  {trace : List (Call × Answer)}

theorem run_evolves (hreach : (system uuid4 start).Reachable db)
    (hrun : (system uuid4 start).Run db trace db') : Evolves db.cycles db'.cycles :=
  hrun.preorder (R := fun a b => Evolves a.cycles b.cycles) (fun _ => .refl _)
    (fun _ _ _ => .trans) (fun _ _ _ _ hstep => (exec_effect hstep).move.evolves) hreach

/-- The row of a run after any number of further calls. -/
theorem run_row {cycleId : CycleId} {row : CycleRun} (hreach : (system uuid4 start).Reachable db)
    (hrun : (system uuid4 start).Run db trace db') (hrow : db.cycles.runs cycleId = some row) :
    ∃ row', db'.cycles.runs cycleId = some row' ∧ row.status.Becomes row'.status := by
  obtain ⟨row', hrow', -, hbecomes⟩ := run_evolves hreach hrun cycleId row hrow
  exact ⟨row', hrow', hbecomes⟩

end

/-! ### The contract -/

/-- What holds of a database whatever happened before and whatever is called next. -/
structure LeaseContract (uuid4 : Nat → Suggestions.Uuid) (start : Instant) (db : Database) :
    Prop where
  /-- Two active runs of one market are the same run. -/
  oneActive : ∀ c c' row row', db.cycles.runs c = some row → db.cycles.runs c' = some row' →
    row.status.Active → row'.status.Active → row.market = row'.market → c = c'
  /-- The slot of a market names its active run, and is there only when there is one. -/
  slot : ∀ market cycleId, db.cycles.active market = some cycleId ↔
    ∃ row, db.cycles.runs cycleId = some row ∧ row.market = market ∧ row.status.Active
  /-- A terminal run has no owner and no lease, and keeps its status for ever. -/
  terminal : ∀ cycleId row, db.cycles.runs cycleId = some row → row.status.Terminal →
    row.ownerId = none ∧ row.leaseExpiresAt = none ∧
      ∀ trace db', (system uuid4 start).Run db trace db' →
        ∃ row', db'.cycles.runs cycleId = some row' ∧ row'.status = row.status
  /-- A fenced call by anyone but the holder of a live lease changes no row and is refused. -/
  fenced : ∀ call answer db' cycleId ownerId, exec uuid4 db call = some (answer, db') →
    call.fence = some (cycleId, ownerId) → ¬ HoldsLease db.cycles cycleId ownerId →
      RolledBack db db' ∧ call.Refused answer
  /-- A claim takes an active run that no other owner holds, or changes nothing. -/
  claimed : ∀ answer db' cycleId ownerId leaseSeconds now,
    exec uuid4 db (.claimCycleRun cycleId ownerId leaseSeconds now) = some (answer, db') →
      (answer = .cycle (.flag true) ∧ (∃ row, db.cycles.runs cycleId = some row ∧
          row.status.Active) ∧ ∀ other, HoldsLease db.cycles cycleId other → other = ownerId) ∨
        (answer = .cycle (.flag false) ∧ db' = db)

/-- **Every interleaving of calls leaves a database that obeys the lease contract.** -/
theorem leaseContract_of_reachable {uuid4 : Nat → Suggestions.Uuid} {start : Instant}
    {db : Database} (hreach : (system uuid4 start).Reachable db) :
    LeaseContract uuid4 start db := by
  have hlaw := reachable_storeLaw hreach
  constructor
  · intro c c' row row' hrow hrow' hlive hlive' hmarket
    exact hlaw.slots.unique hrow hrow' hlive hlive' hmarket
  · exact hlaw.slots.slot_iff
  · intro cycleId row hrow hterminal
    obtain ⟨howner, hlease⟩ := hlaw.settled cycleId row hrow hterminal
    refine ⟨howner, hlease, fun trace db' hrun => ?_⟩
    obtain ⟨row', hrow', hbecomes⟩ := run_row hreach hrun hrow
    exact ⟨row', hrow', hterminal.becomes hbecomes⟩
  · intro call answer db' cycleId ownerId h hfence hnot
    exact exec_unheld h hfence hnot
  · intro answer db' cycleId ownerId leaseSeconds now h
    exact exec_claim h

/-- A cycle created, claimed, cancelled by its owner, and a second one taking the slot. -/
def succession : List Call :=
  [.createCycleRun "c1" "{}" "NSE", .claimCycleRun "c1" "a" 300 0,
    .requestCycleCancel "c1" "CYCLE_CANCELLED", .cancelCycleRun "c1" "a" "CYCLE_CANCELLED",
    .createCycleRun "c2" "{}" "NSE"]

theorem leaseContract_of_succession :
    LeaseContract id 0
      ((Machine.replay (exec id) (Database.empty 0) succession).get (by decide)).2 :=
  leaseContract_of_reachable (Machine.replay_reachable (Option.some_get _).symm)

end InvestmentPlatform.Cycle
