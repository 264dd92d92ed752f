/-
`sync` of `BrokerConnectionService` with the circuit breaker and the rate limiter it asks.

One call reads the clock once.  What the providers and the connector answer during a call is the
`World` of that call; the rows are those of the transaction, so a call that throws leaves them as
they were, while the two in-memory maps keep what was put into them.
-/
import InvestmentPlatform.Lib.Fallible

namespace InvestmentPlatform.Broker

inductive BrokerType where
  | mock | ibkr | iciciDirect | hdfcSecurities
  deriving DecidableEq, Repr

def BrokerType.name : BrokerType → String
  | .mock => "MOCK"
  | .ibkr => "IBKR"
  | .iciciDirect => "ICICI_DIRECT"
  | .hdfcSecurities => "HDFC_SECURITIES"

inductive BrokerConnectionState where
  | created | starting | authenticationRequired | authenticating | connecting | connected | syncing
  | refreshRequired | expired | sessionExpired | revoked | degraded | stopped | disconnected | error
  deriving DecidableEq, Repr

inductive BrokerProviderStatus where
  | notConfigured | documentationRequired | authenticationRequired | connected | degraded
  | unavailable | error
  deriving DecidableEq, Repr

inductive BrokerConnectorState where
  | notConfigured | starting | authenticationRequired | authenticating | connected | sessionExpired
  | degraded | stopping | stopped | error
  deriving DecidableEq, Repr

/-! ### The breaker and the limiter -/

structure InMemoryProviderCircuitBreaker where
  failures : BrokerType → Option Nat

namespace InMemoryProviderCircuitBreaker

def new : InMemoryProviderCircuitBreaker := ⟨fun _ => none⟩

def allowRequest (breaker : InMemoryProviderCircuitBreaker) (brokerType : BrokerType) : Bool :=
  (breaker.failures brokerType).getD 0 < 3

def recordSuccess (breaker : InMemoryProviderCircuitBreaker) (brokerType : BrokerType) :
    InMemoryProviderCircuitBreaker :=
  ⟨Function.update breaker.failures brokerType none⟩

def recordFailure (breaker : InMemoryProviderCircuitBreaker) (brokerType : BrokerType) :
    InMemoryProviderCircuitBreaker :=
  ⟨Function.update breaker.failures brokerType
    (some ((breaker.failures brokerType).elim 1 fun old => old + 1))⟩

end InMemoryProviderCircuitBreaker

/-- Times are milliseconds. -/
structure InMemoryProviderRateLimiter where
  nextAllowedAt : String → Option Nat

namespace InMemoryProviderRateLimiter

def new : InMemoryProviderRateLimiter := ⟨fun _ => none⟩

def key (brokerType : BrokerType) (operation : String) : String :=
  brokerType.name ++ ":" ++ operation

def tryAcquire (limiter : InMemoryProviderRateLimiter) (now : Nat) (brokerType : BrokerType)
    (operation : String) : Bool × InMemoryProviderRateLimiter :=
  if (limiter.nextAllowedAt (key brokerType operation)).any fun allowed => now < allowed then
    (false, limiter)
  else
    (true, ⟨Function.update limiter.nextAllowedAt (key brokerType operation) (some (now + 100))⟩)

end InMemoryProviderRateLimiter

/-! ### The rows and what the outside answers -/

/-- A row, stored under its connection id. -/
structure Connection where
  userId : Nat
  brokerType : BrokerType
  status : BrokerConnectionState
  providerStatus : Option BrokerProviderStatus := none
  externalAccountReference : Option String := none
  displayName : Option String := none
  accountCurrency : Option String := none
  dataFreshness : Option String := none
  sessionReference : Option String := none
  lastSyncAttemptAt : Option Nat := none
  lastSuccessfulSyncAt : Option Nat := none
  lastErrorCode : Option String := none
  updatedAt : Nat := 0
  deriving DecidableEq, Repr

structure BrokerAccount where
  externalAccountReference : String
  displayName : String
  baseCurrency : String

/-- What a call throws. -/
inductive Failure where
  /-- `BrokerConnectionNotFoundException` -/
  | notFound (connectionId : Nat)
  /-- `BrokerProviderException` -/
  | provider (code : String)
  /-- Any other runtime exception. -/
  | other
  deriving DecidableEq, Repr

/-- The answers of one call: of the provider of the connection's type, and for `IBKR` of the
connector. -/
structure World where
  /-- `connectionStatus(userId, connectionId)` -/
  status : Except Failure BrokerConnectionState
  /-- The code of `connectionStatus()`, of the provider as a whole. -/
  code : String
  /-- The connector's authentication status. -/
  connectorStatus : Except Failure BrokerConnectorState
  accounts : Except Failure (List BrokerAccount)
  positions : BrokerAccount → Except Failure Unit
  cashBalances : BrokerAccount → Except Failure Unit

structure State where
  now : Nat
  circuitBreaker : InMemoryProviderCircuitBreaker
  rateLimiter : InMemoryProviderRateLimiter
  connections : Nat → Option Connection

def State.keep (s : State) (connectionId : Nat) (entity : Connection) : State :=
  { s with connections := Function.update s.connections connectionId (some entity) }

/-! ### One call -/

/-- The account of the connection, else the first: `accounts.get(0)` is evaluated in any case. -/
def accountOf (entity : Connection) : List BrokerAccount → Except Failure BrokerAccount
  | [] => .error .other
  | first :: rest =>
      .ok (((first :: rest).find? fun candidate =>
        some candidate.externalAccountReference = entity.externalAccountReference).getD first)

/-- The `try` block of the `IBKR` branch. -/
def readIbkr (world : World) (entity : Connection) : Except Failure Connection := do
  let authStatus ← world.connectorStatus
  Fallible.raiseIf (authStatus ≠ .connected) (.provider "BROKER_SESSION_EXPIRED")
  let accounts ← world.accounts
  let account ← accountOf entity accounts
  world.positions account
  world.cashBalances account
  return { entity with
    status := .connected
    externalAccountReference := some account.externalAccountReference
    displayName := some account.displayName
    accountCurrency := some account.baseCurrency
    providerStatus := some .connected
    dataFreshness := some "REAL_BROKER"
    sessionReference := some "client-portal-gateway"
    lastSuccessfulSyncAt := entity.lastSyncAttemptAt
    lastErrorCode := none }

/-- The `IBKR` branch: of what is thrown, only an expired session is an answer. -/
def syncIbkr (world : World) (entity : Connection) : Except Failure Connection :=
  match readIbkr world entity with
  | .error (.provider code) =>
      if code = "BROKER_SESSION_EXPIRED" then
        .ok { entity with
          status := .authenticationRequired
          providerStatus := some .authenticationRequired
          lastErrorCode := some code }
      else .error (.provider code)
  | result => result

def degraded (entity : Connection) (code : String) : Connection :=
  { entity with status := .degraded, lastErrorCode := some code }

/-- The rest of an admitted call. -/
def admitted (world : World) (connectionId : Nat) (entity : Connection) (s : State) :
    Except Failure Connection × State :=
  if entity.brokerType = .ibkr then
    match syncIbkr world entity with
    | .ok synced => (.ok synced, s.keep connectionId synced)
    | .error failure => (.error failure, s)
  else
    match world.status with
    | .error failure => (.error failure, s)
    | .ok state =>
      if state = .disconnected ∧ entity.brokerType ≠ .mock then
        let failed := { entity with status := .error, lastErrorCode := some world.code }
        (.ok failed, { s.keep connectionId failed with
          circuitBreaker := s.circuitBreaker.recordFailure entity.brokerType })
      else
        let synced := { entity with
          status := .connected
          lastSuccessfulSyncAt := entity.lastSyncAttemptAt
          lastErrorCode := none }
        (.ok synced, { s.keep connectionId synced with
          circuitBreaker := s.circuitBreaker.recordSuccess entity.brokerType })

/-- The row at the start of a call. -/
def attempted (now : Nat) (row : Connection) : Connection :=
  { row with status := .syncing, lastSyncAttemptAt := some now, updatedAt := now }

variable (providers : BrokerType → Bool)

/-- A call that has found its row: first the provider, then the breaker, then the limiter. -/
def attempt (world : World) (connectionId : Nat) (entity : Connection) (s : State) :
    Except Failure Connection × State :=
  if providers entity.brokerType = false then (.error .other, s)
  else if s.circuitBreaker.allowRequest entity.brokerType = false then
    (.ok (degraded entity "CIRCUIT_OPEN"), s.keep connectionId (degraded entity "CIRCUIT_OPEN"))
  else
    let acquired := s.rateLimiter.tryAcquire s.now entity.brokerType "sync"
    if acquired.1 = false then
      (.ok (degraded entity "RATE_LIMITED"), s.keep connectionId (degraded entity "RATE_LIMITED"))
    else admitted world connectionId entity { s with rateLimiter := acquired.2 }

def sync (world : World) (userId connectionId : Nat) (s : State) :
    Except Failure Connection × State :=
  match (s.connections connectionId).filter fun row => row.userId = userId with
  | none => (.error (.notFound connectionId), s)
  | some row => attempt providers world connectionId (attempted s.now row) s

/-! ### The statuses of the providers -/

/-- `connectionStatus(userId, connectionId)` of the `ICICI_DIRECT` provider. -/
def iciciConnectionStatus (authStatus : BrokerConnectorState) : BrokerConnectionState :=
  if authStatus = .connected then .connected
  else if authStatus = .authenticationRequired then .authenticating
  else if authStatus = .sessionExpired then .sessionExpired
  else .error

/-- That of the `HDFC_SECURITIES` provider, from the session it finds: whether it has expired. -/
def hdfcConnectionStatus : Option Bool → BrokerConnectionState
  | none => .authenticating
  | some true => .sessionExpired
  | some false => .connected

def mockConnectionStatus : BrokerConnectionState := .connected

/-! ### The service over time -/

inductive Event where
  | sync (userId connectionId : Nat) (world : World)
  | pass (milliseconds : Nat)

def State.pass (s : State) (milliseconds : Nat) : State := { s with now := s.now + milliseconds }

def advance (s : State) : Event → State
  | .sync userId connectionId world => (sync providers world userId connectionId s).2
  | .pass milliseconds => s.pass milliseconds

/-- The service right after its start. -/
def started (connections : Nat → Option Connection) : State :=
  { now := 0, circuitBreaker := .new, rateLimiter := .new, connections := connections }

end InvestmentPlatform.Broker
