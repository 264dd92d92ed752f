/-
When a connection can still be synced.

A success is only recorded behind the breaker, so nothing closes it once three failures of a
broker type are on record: time does not, and neither does a sync of any connection.  Short of
three every connection of the type gets through as soon as the limiter lets it.
-/
import InvestmentPlatform.Broker.Sync
import InvestmentPlatform.Lib.Machine

namespace InvestmentPlatform.Broker

open Function Bool

variable {providers : BrokerType → Bool}

/-- The failures on record. -/
def State.failuresOf (s : State) (brokerType : BrokerType) : Nat :=
  (s.circuitBreaker.failures brokerType).getD 0

variable {s : State} {brokerType : BrokerType}

theorem allowRequest_iff :
    s.circuitBreaker.allowRequest brokerType = true ↔ s.failuresOf brokerType < 3 :=
  decide_eq_true_iff

/-! ### What one sync does -/

/-- Whose row it is and with which broker, which no sync changes. -/
def State.owner (s : State) (connectionId : Nat) : Option (Nat × BrokerType) :=
  (s.connections connectionId).map fun row => (row.userId, row.brokerType)

@[simp] theorem State.keep_self (s : State) (connectionId : Nat) (entity : Connection) :
    (s.keep connectionId entity).connections connectionId = some entity :=
  update_self ..

variable {connectionId : Nat} {entity row : Connection}

theorem State.keep_of_ne {other : Nat}
    (h : other ≠ connectionId) : (s.keep connectionId entity).connections other =
      s.connections other :=
  update_of_ne h ..

theorem owner_keep (h : s.connections connectionId = some row) (huser : entity.userId = row.userId)
    (htype : entity.brokerType = row.brokerType) :
    (s.keep connectionId entity).owner = s.owner := by
  funext other
  unfold State.owner
  by_cases hsame : other = connectionId
  · subst hsame
    rw [State.keep_self, h, Option.map_some, Option.map_some, huser, htype]
  · rw [State.keep_of_ne hsame]

/-- What an admitted call of a connection of that type does to the breaker. -/
inductive Recorded (world : World) (brokerType : BrokerType)
    (breaker : InMemoryProviderCircuitBreaker) : InMemoryProviderCircuitBreaker → Prop
  | nothing : Recorded world brokerType breaker breaker
  | failure (hmock : brokerType ≠ .mock) (hibkr : brokerType ≠ .ibkr)
      (hstatus : world.status = .ok .disconnected) :
      Recorded world brokerType breaker (breaker.recordFailure brokerType)
  | success : Recorded world brokerType breaker (breaker.recordSuccess brokerType)

/-- The call finds its row and gets past the breaker and the limiter. -/
structure Admits (providers : BrokerType → Bool) (s : State) (userId connectionId : Nat)
    (brokerType : BrokerType) : Prop where
  owner : s.owner connectionId = some (userId, brokerType)
  provided : providers brokerType = true
  allowed : s.failuresOf brokerType < 3
  acquired : (s.rateLimiter.tryAcquire s.now brokerType "sync").1 = true

variable {world : World}

theorem readIbkr_owner {read : Connection} (h : readIbkr world entity = .ok read) :
    read.userId = entity.userId ∧ read.brokerType = entity.brokerType := by
  obtain ⟨authStatus, -, h⟩ := Fallible.bind_eq_ok.mp h
  obtain ⟨-, -, h⟩ := Fallible.bind_eq_ok.mp h
  obtain ⟨accounts, -, h⟩ := Fallible.bind_eq_ok.mp h
  obtain ⟨account, -, h⟩ := Fallible.bind_eq_ok.mp h
  obtain ⟨-, -, h⟩ := Fallible.bind_eq_ok.mp h
  obtain ⟨-, -, h⟩ := Fallible.bind_eq_ok.mp h
  cases h
  exact ⟨rfl, rfl⟩

theorem syncIbkr_owner {synced : Connection} (h : syncIbkr world entity = .ok synced) :
    synced.userId = entity.userId ∧ synced.brokerType = entity.brokerType := by
  unfold syncIbkr at h
  split at h
  · split at h
    · cases h
      exact ⟨rfl, rfl⟩
    · cases h
  · exact readIbkr_owner h

/-- What an admitted call leaves: rows of the same owners, and one of the three records. -/
theorem admitted_cases (s : State) (world : World) (hrow : s.connections connectionId = some row)
    (huser : entity.userId = row.userId) (htype : entity.brokerType = row.brokerType) :
    (admitted world connectionId entity s).2.owner = s.owner ∧
      Recorded world entity.brokerType s.circuitBreaker
        (admitted world connectionId entity s).2.circuitBreaker := by
  unfold admitted
  by_cases hibkr : entity.brokerType = .ibkr
  · rw [if_pos hibkr]
    cases hsync : syncIbkr world entity with
    | error failure => exact ⟨rfl, .nothing⟩
    | ok synced =>
        obtain ⟨huser', htype'⟩ := syncIbkr_owner hsync
        exact ⟨owner_keep hrow (huser'.trans huser) (htype'.trans htype), .nothing⟩
  rw [if_neg hibkr]
  cases hstatus : world.status with
  | error failure => exact ⟨rfl, .nothing⟩
  | ok state =>
      dsimp only
      by_cases hfailed : state = .disconnected ∧ entity.brokerType ≠ .mock
      · rw [if_pos hfailed]
        rw [hfailed.1] at hstatus
        exact ⟨owner_keep hrow huser htype, .failure hfailed.2 hibkr hstatus⟩
      · rw [if_neg hfailed]
        exact ⟨owner_keep hrow huser htype, .success⟩

variable (providers) in
theorem attempt_cases (s : State) (world : World) (hrow : s.connections connectionId = some row)
    (huser : entity.userId = row.userId) (htype : entity.brokerType = row.brokerType) :
    (attempt providers world connectionId entity s).2.owner = s.owner ∧
      ((attempt providers world connectionId entity s).2.circuitBreaker = s.circuitBreaker ∨
        Admits providers s row.userId connectionId row.brokerType ∧
          Recorded world row.brokerType s.circuitBreaker
            (attempt providers world connectionId entity s).2.circuitBreaker) := by
  unfold attempt
  by_cases hprovider : providers entity.brokerType = false
  · rw [if_pos hprovider]
    exact ⟨rfl, Or.inl rfl⟩
  rw [if_neg hprovider]
  by_cases hopen : s.circuitBreaker.allowRequest entity.brokerType = false
  · rw [if_pos hopen]
    exact ⟨owner_keep hrow huser htype, Or.inl rfl⟩
  rw [if_neg hopen]
  dsimp only
  by_cases hlimited : (s.rateLimiter.tryAcquire s.now entity.brokerType "sync").1 = false
  · rw [if_pos hlimited]
    exact ⟨owner_keep hrow huser htype, Or.inl rfl⟩
  rw [if_neg hlimited]
  obtain ⟨howner, hrecorded⟩ := admitted_cases
    { s with rateLimiter := (s.rateLimiter.tryAcquire s.now entity.brokerType "sync").2 }
    world hrow huser htype
  rw [htype] at hprovider hopen hlimited
  refine ⟨howner, Or.inr ⟨⟨?_, ?_, ?_, ?_⟩, ?_⟩⟩
  · unfold State.owner
    rw [hrow]
    rfl
  · exact of_not_eq_false hprovider
  · exact allowRequest_iff.mp (of_not_eq_false hopen)
  · exact of_not_eq_false hlimited
  · rw [← htype]
    exact hrecorded

/-- What any sync leaves. -/
theorem sync_cases (world : World) (userId connectionId : Nat) (s : State) :
    (sync providers world userId connectionId s).2.owner = s.owner ∧
      ((sync providers world userId connectionId s).2.circuitBreaker = s.circuitBreaker ∨
        ∃ brokerType, Admits providers s userId connectionId brokerType ∧
          Recorded world brokerType s.circuitBreaker
            (sync providers world userId connectionId s).2.circuitBreaker) := by
  unfold sync
  cases hfound : (s.connections connectionId).filter fun row => row.userId = userId with
  | none => exact ⟨rfl, Or.inl rfl⟩
  | some row =>
      obtain ⟨hrow, huser⟩ := Option.filter_eq_some_iff.mp hfound
      obtain ⟨howner, hbreaker⟩ := attempt_cases providers s world hrow
        (show (attempted s.now row).userId = row.userId from rfl) rfl
      refine ⟨howner, hbreaker.imp id fun h => ?_⟩
      rw [decide_eq_true_eq] at huser
      rw [huser] at h
      exact ⟨_, h⟩

/-! ### The failures on record -/

section

variable (breaker : InMemoryProviderCircuitBreaker)

theorem recordFailure_self (brokerType : BrokerType) :
    ((breaker.recordFailure brokerType).failures brokerType).getD 0 =
      (breaker.failures brokerType).getD 0 + 1 := by
  have hself : (breaker.recordFailure brokerType).failures brokerType =
      some ((breaker.failures brokerType).elim 1 fun old => old + 1) :=
    update_self ..
  rw [hself]
  cases breaker.failures brokerType with
  | none => rfl
  | some old => rfl

theorem recordFailure_of_ne {other : BrokerType} (h : other ≠ brokerType) :
    (breaker.recordFailure brokerType).failures other = breaker.failures other :=
  update_of_ne h ..

theorem recordSuccess_self (brokerType : BrokerType) :
    (breaker.recordSuccess brokerType).failures brokerType = none :=
  update_self ..

theorem recordSuccess_of_ne {other : BrokerType} (h : other ≠ brokerType) :
    (breaker.recordSuccess brokerType).failures other = breaker.failures other :=
  update_of_ne h ..

end

/-- What a sync can do to the count of a type, from the record of one call. -/
theorem Recorded.count {breaker breaker' : InMemoryProviderCircuitBreaker}
    (h : Recorded world brokerType breaker breaker') (other : BrokerType) :
    (breaker'.failures other).getD 0 = (breaker.failures other).getD 0 ∨
      other = brokerType ∧ (breaker'.failures other).getD 0 = 0 ∨
      other = brokerType ∧ other ≠ .mock ∧ other ≠ .ibkr ∧ world.status = .ok .disconnected ∧
        (breaker'.failures other).getD 0 = (breaker.failures other).getD 0 + 1 := by
  cases h with
  | nothing => exact Or.inl rfl
  | failure hmock hibkr hstatus =>
      by_cases hsame : other = brokerType
      · subst hsame
        exact Or.inr (Or.inr ⟨rfl, hmock, hibkr, hstatus, recordFailure_self breaker other⟩)
      · rw [recordFailure_of_ne breaker hsame]
        exact Or.inl rfl
  | success =>
      by_cases hsame : other = brokerType
      · subst hsame
        rw [recordSuccess_self]
        exact Or.inr (Or.inl ⟨rfl, rfl⟩)
      · rw [recordSuccess_of_ne breaker hsame]
        exact Or.inl rfl

/-- The sync is admitted and its provider, one that counts, answers `DISCONNECTED`. -/
def Fails (providers : BrokerType → Bool) (s : State) (brokerType : BrokerType) : Event → Prop
  | .sync userId connectionId world => Admits providers s userId connectionId brokerType ∧
      brokerType ≠ .mock ∧ brokerType ≠ .ibkr ∧ world.status = .ok .disconnected
  | .pass _ => False

variable (providers) in
/-- The three things an event can do to the count of a type. -/
theorem advance_count (s : State) (event : Event) (brokerType : BrokerType) :
    (advance providers s event).failuresOf brokerType = s.failuresOf brokerType ∨
      s.failuresOf brokerType < 3 ∧ (advance providers s event).failuresOf brokerType = 0 ∨
      Fails providers s brokerType event ∧
        (advance providers s event).failuresOf brokerType = s.failuresOf brokerType + 1 := by
  cases event with
  | pass milliseconds => exact Or.inl rfl
  | sync userId connectionId world =>
      rcases (sync_cases world userId connectionId s).2 with hsame | ⟨other, hadmits, hrecorded⟩
      · left
        exact congrArg (fun breaker => (breaker.failures brokerType).getD 0) hsame
      rcases hrecorded.count brokerType with hsame | ⟨rfl, hzero⟩ | ⟨rfl, hmock, hibkr, hstatus, hone⟩
      · exact Or.inl hsame
      · exact Or.inr (Or.inl ⟨hadmits.allowed, hzero⟩)
      · exact Or.inr (Or.inr ⟨⟨hadmits, hmock, hibkr, hstatus⟩, hone⟩)

theorem advance_owner (s : State) (event : Event) :
    (advance providers s event).owner = s.owner := by
  cases event with
  | pass milliseconds => rfl
  | sync userId connectionId world => exact (sync_cases world userId connectionId s).1

/-! ### The answer of one sync -/

/-- A sync of a connection whose breaker is open ends degraded, whatever the provider is. -/
theorem attempt_open (world : World) (connectionId : Nat)
    (hopen : ¬ s.failuresOf entity.brokerType < 3) {synced : Connection}
    (h : (attempt providers world connectionId entity s).1 = .ok synced) :
    synced.status = .degraded := by
  unfold attempt at h
  by_cases hprovider : providers entity.brokerType = false
  · rw [if_pos hprovider] at h
    cases h
  · rw [if_neg hprovider, if_pos (of_not_eq_true fun hc => hopen (allowRequest_iff.mp hc))]
      at h
    cases h
    rfl

/-- The provider and the connector are well. -/
structure World.Healthy (world : World) : Prop where
  status : world.status = .ok .connected
  connector : world.connectorStatus = .ok .connected
  accounts : ∃ first rest, world.accounts = .ok (first :: rest)
  positions : ∀ account, world.positions account = .ok ()
  cashBalances : ∀ account, world.cashBalances account = .ok ()

def healthy : World where
  status := .ok .connected
  code := "CONNECTED"
  connectorStatus := .ok .connected
  accounts := .ok [⟨"account", "Account", "EUR"⟩]
  positions _ := .ok ()
  cashBalances _ := .ok ()

theorem healthy_healthy : healthy.Healthy :=
  ⟨rfl, rfl, ⟨_, _, rfl⟩, fun _ => rfl, fun _ => rfl⟩

/-- A sync has succeeded. -/
def Succeeded (answer : Except Failure Connection) : Prop :=
  ∃ synced, answer = .ok synced ∧ synced.status = .connected ∧ synced.lastErrorCode = none

theorem readIbkr_healthy (h : world.Healthy) (entity : Connection) :
    ∃ account : BrokerAccount, readIbkr world entity = .ok { entity with
      status := .connected
      externalAccountReference := some account.externalAccountReference
      displayName := some account.displayName
      accountCurrency := some account.baseCurrency
      providerStatus := some .connected
      dataFreshness := some "REAL_BROKER"
      sessionReference := some "client-portal-gateway"
      lastSuccessfulSyncAt := entity.lastSyncAttemptAt
      lastErrorCode := none } := by
  obtain ⟨first, rest, haccounts⟩ := h.accounts
  refine ⟨((first :: rest).find? fun candidate =>
    some candidate.externalAccountReference = entity.externalAccountReference).getD first, ?_⟩
  unfold readIbkr
  rw [h.connector, haccounts]
  simp only [bind, Except.bind, Fallible.raiseIf, ne_eq, not_true_eq_false, if_false, accountOf,
    h.positions, h.cashBalances, pure, Except.pure]

theorem admitted_healthy (h : world.Healthy) (connectionId : Nat)
    (entity : Connection) (s : State) :
    Succeeded (admitted world connectionId entity s).1 := by
  unfold admitted
  by_cases hibkr : entity.brokerType = .ibkr
  · obtain ⟨account, hread⟩ := readIbkr_healthy h entity
    rw [if_pos hibkr]
    unfold syncIbkr
    rw [hread]
    exact ⟨_, rfl, rfl, rfl⟩
  · rw [if_neg hibkr, h.status]
    dsimp only
    rw [if_neg (fun hc => BrokerConnectionState.noConfusion hc.1)]
    exact ⟨_, rfl, rfl, rfl⟩

end InvestmentPlatform.Broker
