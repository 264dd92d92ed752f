/-
Which connections recover, over every run of the service.

A connection recovers when, after some time, its sync succeeds with a provider that is well.
That is the case exactly while fewer than three failures of its broker type are on record.
Once there are three, every later state has them, for all users of the type alike.
-/
import InvestmentPlatform.Proofs.Broker.Breaker

namespace InvestmentPlatform.Broker

open Option

variable {providers : BrokerType → Bool} {connections : Nat → Option Connection}

/-- The service over time, from its start with those rows. -/
def service (providers : BrokerType → Bool) (connections : Nat → Option Connection) :
    Machine State Event :=
  Machine.ofPartial (started connections) fun s event => some (advance providers s event)

variable {s s' : State}

theorem service_step {event : Event} :
    (service providers connections).step s event s' ↔ s' = advance providers s event := by
  constructor
  · intro h
    exact (some.inj h).symm
  · rintro rfl
    rfl

/-- With time a sync of the connection succeeds, whatever the well provider answers in detail. -/
def Recovers (providers : BrokerType → Bool) (s : State) (connectionId : Nat)
    (row : Connection) : Prop :=
  ∃ wait, ∀ world : World, world.Healthy →
    Succeeded (sync providers world row.userId connectionId (s.pass wait)).1

/-! ### One state -/

variable {connectionId : Nat} {row : Connection}

theorem sync_eq_attempt (world : World) (hrow : s.connections connectionId = some row) :
    sync providers world row.userId connectionId s =
      attempt providers world connectionId (attempted s.now row) s := by
  have hfound : ((s.connections connectionId).filter fun found => found.userId = row.userId) =
      some row := by
    rw [hrow, filter_some, if_pos (decide_eq_true rfl)]
  unfold sync
  rw [hfound]

/-- The limiter lets a call through once its time has come. -/
theorem tryAcquire_late (limiter : InMemoryProviderRateLimiter) {now : Nat}
    (brokerType : BrokerType) (operation : String)
    (h : (limiter.nextAllowedAt (InMemoryProviderRateLimiter.key brokerType operation)).getD 0
      ≤ now) : (limiter.tryAcquire now brokerType operation).1 = true := by
  unfold InMemoryProviderRateLimiter.tryAcquire
  rw [if_neg ?_]
  rw [any_eq_true]
  rintro ⟨allowed, hsome, hlt⟩
  rw [hsome] at h
  exact absurd (of_decide_eq_true hlt) (Nat.not_lt.mpr h)

theorem recovers_of_lt
    (hrow : s.connections connectionId = some row) (hprovider : providers row.brokerType = true)
    (hcount : s.failuresOf row.brokerType < 3) : Recovers providers s connectionId row := by
  refine ⟨(s.rateLimiter.nextAllowedAt
    (InMemoryProviderRateLimiter.key row.brokerType "sync")).getD 0, fun world hworld => ?_⟩
  rw [sync_eq_attempt (s := s.pass _) world hrow]
  unfold attempt
  have hacquired := tryAcquire_late s.rateLimiter row.brokerType "sync" (Nat.le_add_left _ s.now)
  rw [if_neg (fun hc => Bool.noConfusion (hc.symm.trans hprovider)),
    if_neg (fun hc => Bool.noConfusion (hc.symm.trans (allowRequest_iff.mpr hcount)))]
  dsimp only
  rw [if_neg (fun hc => Bool.noConfusion (hc.symm.trans hacquired))]
  exact admitted_healthy hworld ..

/-- **In one state**: the connection recovers exactly while the breaker is closed. -/
theorem recovers_iff
    (hrow : s.connections connectionId = some row) (hprovider : providers row.brokerType = true) :
    Recovers providers s connectionId row ↔ s.failuresOf row.brokerType < 3 := by
  constructor
  · rintro ⟨wait, hwait⟩
    by_contra hopen
    obtain ⟨synced, hanswer, hstatus, -⟩ := hwait healthy healthy_healthy
    rw [sync_eq_attempt healthy (s := s.pass wait) hrow] at hanswer
    have hopen' : ¬ (s.pass wait).failuresOf (attempted (s.pass wait).now row).brokerType < 3 :=
      hopen
    have hdegraded := attempt_open healthy connectionId hopen' hanswer
    rw [hstatus] at hdegraded
    cases hdegraded
  · exact recovers_of_lt hrow hprovider

/-! ### Runs -/

theorem owner_of_run {trace : List Event}
    (h : (service providers connections).Run s trace s') : s'.owner = s.owner := by
  induction h with
  | nil => rfl
  | cons hstep hrest ih =>
      rw [service_step] at hstep
      rw [ih, hstep, advance_owner]

/-- An open breaker stays open. -/
theorem stays_open (brokerType : BrokerType) : (service providers connections).Stable
    fun s => 3 ≤ s.failuresOf brokerType := by
  intro s event s' hreachable hopen hstep
  rw [service_step] at hstep
  subst hstep
  rcases advance_count providers s event brokerType with
    hsame | ⟨hclosed, -⟩ | ⟨-, hone⟩
  · omega
  · omega
  · omega

/-- The event is the failure that opens the breaker of a type. -/
def Opens (providers : BrokerType → Bool) (s : State) (event : Event) : Prop :=
  ∃ brokerType, s.failuresOf brokerType = 2 ∧ Fails providers s brokerType event

theorem closed_of_restrict (h : ((service providers connections).restrict
      fun s event => ¬ Opens providers s event).Reachable s) (brokerType : BrokerType) :
    s.failuresOf brokerType < 3 := by
  refine h.invariant (I := fun s => s.failuresOf brokerType < 3) ?_ ?_
  · rintro s rfl
    exact Nat.zero_lt_succ 2
  · rintro s event s' hclosed ⟨hnot, hstep⟩
    rw [service_step] at hstep
    subst hstep
    rcases advance_count providers s event brokerType with
      hsame | ⟨-, hzero⟩ | ⟨hfails, hone⟩
    · omega
    · omega
    · have htwo : s.failuresOf brokerType ≠ 2 := fun htwo => hnot ⟨brokerType, htwo, hfails⟩
      omega

/-- Only a sync of the connection is in the event, if any sync is. -/
def Event.OnlyOf (connectionId : Nat) : Event → Prop
  | .sync _ synced _ => synced = connectionId
  | .pass _ => True

/-- A run that syncs one connection alone records failures of its type alone. -/
theorem count_of_onlyOf {trace : List Event} (hrun : (service providers connections).Run s trace s')
    (honly : ∀ event ∈ trace, event.OnlyOf connectionId) {brokerType : BrokerType}
    (hother : (s.owner connectionId).map Prod.snd ≠ some brokerType)
    (hzero : s.failuresOf brokerType = 0) : s'.failuresOf brokerType = 0 := by
  induction hrun with
  | nil => exact hzero
  | @cons s mid s' event trace hstep hrest ih =>
      rw [service_step] at hstep
      subst hstep
      have hthis := honly event List.mem_cons_self
      refine ih (fun later hlater => honly later (List.mem_cons_of_mem _ hlater)) ?_ ?_
      · rw [advance_owner]
        exact hother
      · rcases advance_count providers s event brokerType with
          hsame | ⟨-, hnone⟩ | ⟨hfails, -⟩
        · rw [hsame, hzero]
        · exact hnone
        · exfalso
          cases event with
          | pass milliseconds => exact hfails
          | sync userId synced world =>
              have hsynced : synced = connectionId := hthis
              apply hother
              rw [← hsynced, hfails.1.owner]
              rfl

/-! ### The providers of the repository -/

/-- The provider of that type can answer a sync with this status. -/
def Answers (status : Except Failure BrokerConnectionState) : BrokerType → Prop
  | .mock => status = .ok mockConnectionStatus
  | .ibkr => True
  | .iciciDirect => ∃ authStatus : Except Failure BrokerConnectorState,
      status = authStatus.map iciciConnectionStatus
  | .hdfcSecurities => ∃ expired, status = .ok (hdfcConnectionStatus expired)

/-- The sync is answered by the repository's provider of the connection's type. -/
def Shipped (s : State) : Event → Prop
  | .sync _ connectionId world => ∀ row, s.connections connectionId = some row →
      Answers world.status row.brokerType
  | .pass _ => True

theorem iciciConnectionStatus_ne (authStatus : BrokerConnectorState) :
    iciciConnectionStatus authStatus ≠ .disconnected := by
  cases authStatus <;> decide

theorem hdfcConnectionStatus_ne (expired : Option Bool) :
    hdfcConnectionStatus expired ≠ .disconnected := by
  cases expired with
  | none => decide
  | some expired => cases expired <;> decide

/-- None of them answers `DISCONNECTED` for a connection. -/
theorem not_disconnected {status : Except Failure BrokerConnectionState} {brokerType : BrokerType}
    (hmock : brokerType ≠ .mock) (hibkr : brokerType ≠ .ibkr) (h : Answers status brokerType) :
    status ≠ .ok .disconnected := by
  cases brokerType with
  | mock => exact absurd rfl hmock
  | ibkr => exact absurd rfl hibkr
  | iciciDirect =>
      obtain ⟨authStatus, rfl⟩ := h
      intro hc
      obtain ⟨state, -, hstate⟩ := Fallible.map_eq_ok.mp hc
      exact iciciConnectionStatus_ne state hstate
  | hdfcSecurities =>
      obtain ⟨expired, rfl⟩ := h
      intro hc
      exact hdfcConnectionStatus_ne expired (Except.ok.inj hc)

theorem not_opens_of_shipped {event : Event} (h : Shipped s event) : ¬ Opens providers s event := by
  rintro ⟨brokerType, -, hfails⟩
  cases event with
  | pass milliseconds => exact hfails
  | sync userId connectionId world =>
      obtain ⟨hadmits, hmock, hibkr, hstatus⟩ := hfails
      obtain ⟨row, hrow, howner⟩ := map_eq_some_iff.mp hadmits.owner
      cases howner
      exact not_disconnected hmock hibkr (h row hrow) hstatus

/-! ### The result -/

/-- What holds of the breaker over every run of the service. -/
structure BreakerRuns (providers : BrokerType → Bool) (connections : Nat → Option Connection) :
    Prop where
  /-- A connection recovers exactly while fewer than three failures of its type are on record. -/
  exact_condition : ∀ s, (service providers connections).Reachable s → ∀ connectionId row,
    s.connections connectionId = some row → providers row.brokerType = true →
      (Recovers providers s connectionId row ↔ s.failuresOf row.brokerType < 3)
  /-- In a run without the third failure of a type every connection recovers in every state. -/
  closed : ∀ s, ((service providers connections).restrict
      fun s event => ¬ Opens providers s event).Reachable s → ∀ connectionId row,
    s.connections connectionId = some row → providers row.brokerType = true →
      Recovers providers s connectionId row
  /-- The repository's own providers never report the failure the breaker counts. -/
  shipped : ∀ s, ((service providers connections).restrict Shipped).Reachable s →
    ∀ connectionId row, s.connections connectionId = some row →
      providers row.brokerType = true → Recovers providers s connectionId row
  /-- After the third failure no run lets a request of the type through again. -/
  locked : ∀ s, (service providers connections).Reachable s → ∀ brokerType,
    ¬ s.failuresOf brokerType < 3 → ∀ trace s', (service providers connections).Run s trace s' →
      s'.circuitBreaker.allowRequest brokerType = false
  /-- The syncs of one connection alone open the breaker of no other type than its own. -/
  one : ∀ connectionId trace s,
    (service providers connections).Run (started connections) trace s →
    (∀ event ∈ trace, event.OnlyOf connectionId) → ∀ brokerType,
      s.circuitBreaker.allowRequest brokerType = false →
      ∃ row, connections connectionId = some row ∧ row.brokerType = brokerType

/-- **The breaker locks a broker type out for good exactly with its third recorded failure.** -/
theorem breaker_runs (providers : BrokerType → Bool) (connections : Nat → Option Connection) :
    BreakerRuns providers connections where
  exact_condition := fun s _ connectionId row hrow hprovider => recovers_iff hrow hprovider
  closed := fun s hs connectionId row hrow hprovider =>
    recovers_of_lt hrow hprovider (closed_of_restrict hs row.brokerType)
  shipped := by
    intro s hs connectionId row hrow hprovider
    have hclosed : ((service providers connections).restrict
        fun s event => ¬ Opens providers s event).Reachable s :=
      hs.weaken fun _ _ h => not_opens_of_shipped h
    exact recovers_of_lt hrow hprovider (closed_of_restrict hclosed row.brokerType)
  locked := by
    intro s hs brokerType hopen trace s' hrun
    have hstays := hrun.stable (stays_open brokerType) hs (Nat.not_lt.mp hopen)
    apply Bool.of_not_eq_true
    intro hallowed
    have hclosed := allowRequest_iff.mp hallowed
    omega
  one := by
    intro connectionId trace s hrun honly brokerType hblocked
    by_contra hnone
    have hzero : s.failuresOf brokerType = 0 := by
      refine count_of_onlyOf hrun honly ?_ rfl
      intro htype
      obtain ⟨owner, howner, hsnd⟩ := Option.map_eq_some_iff.mp htype
      obtain ⟨row, hrow, hpair⟩ := Option.map_eq_some_iff.mp howner
      refine hnone ⟨row, hrow, ?_⟩
      rw [← hsnd, ← hpair]
    have hallowed : s.circuitBreaker.allowRequest brokerType = true := by
      rw [allowRequest_iff, hzero]
      exact Nat.zero_lt_succ 2
    rw [hallowed] at hblocked
    cases hblocked

/-! ### Three failures of one user -/

/-- A row of that user, with a broker whose breaker counts. -/
def iciciRow (userId : Nat) : Connection :=
  { userId := userId, brokerType := .iciciDirect, status := .connected }

def twoUsers (connectionId : Nat) : Option Connection :=
  if connectionId = 1 ∨ connectionId = 2 then some (iciciRow connectionId) else none

def unavailable : World := { healthy with status := .ok .disconnected, code := "UNAVAILABLE" }

/-- The first user's connection fails three times. -/
def threeFailures : List Event :=
  [.sync 1 1 unavailable, .pass 100, .sync 1 1 unavailable, .pass 100, .sync 1 1 unavailable]

theorem failures_twoUsers :
    (threeFailures.foldl (advance fun _ => true) (started twoUsers)).failuresOf .iciciDirect = 3 :=
  rfl

theorem run_foldl (s : State) (events : List Event) :
    (service providers connections).Run s events (events.foldl (advance providers) s) := by
  induction events generalizing s with
  | nil => exact Machine.Run.nil s
  | cons event rest ih => exact Machine.Run.cons (service_step.mpr rfl) (ih _)

/-- The second user's connection is locked out for good, well as the provider may be. -/
theorem breaker_locks_out : ∃ s, (service (fun _ => true) twoUsers).Run (started twoUsers)
    threeFailures s ∧ s.connections 2 = some (iciciRow 2) ∧
    ∀ trace s', (service (fun _ => true) twoUsers).Run s trace s' →
      ∀ row, s'.connections 2 = some row → ¬ Recovers (fun _ => true) s' 2 row := by
  have hrun : (service (fun _ => true) twoUsers).Run (started twoUsers) threeFailures _ :=
    run_foldl (started twoUsers) threeFailures
  refine ⟨_, hrun, rfl, fun trace s' hlater row hrow hrecovers => ?_⟩
  have hreachable := hrun.reachable (Machine.Reachable.init rfl)
  have hstays : 3 ≤ s'.failuresOf .iciciDirect :=
    hlater.stable (stays_open .iciciDirect) hreachable (Nat.le_of_eq failures_twoUsers.symm)
  have howner : s'.owner 2 = some (2, .iciciDirect) := congrFun (owner_of_run hlater) 2
  have htype : row.brokerType = .iciciDirect := by
    unfold State.owner at howner
    rw [hrow] at howner
    cases row
    cases howner
    rfl
  have hclosed := (recovers_iff hrow rfl).mp hrecovers
  rw [htype] at hclosed
  omega

end InvestmentPlatform.Broker
