/-
`PortfolioService.syncBrokerConnection`, over the tables it writes for one user and one broker
connection.

A complete position and an incomplete holding live in two tables with the same key, and cash in
a third.  The portfolio of an account is resolved by the account, so an account stands for its
portfolio here.  A text that is absent is the empty text: every check of the source treats the
two alike.  The whole sync is one transaction, and an error leaves the tables as they were.
-/
import InvestmentPlatform.Lib.Dict
import InvestmentPlatform.Lib.Fallible
import InvestmentPlatform.Lib.JavaText
import Mathlib.Data.Rat.Defs

namespace InvestmentPlatform.Portfolio

open Fallible JavaText

/-! ### What the broker service answers -/

/-- `MoneyValue`. -/
structure Money where
  amount : ℚ
  currency : String
  deriving DecidableEq, Repr

structure Instrument where
  provider : String
  providerInstrumentId : String
  isin : Option String := none
  ticker : Option String := none
  exchange : Option String := none
  tradingCurrency : Option String := none
  deriving DecidableEq, Repr

structure Account where
  brokerAccountId : String
  brokerType : String
  status : String
  deriving DecidableEq, Repr

structure Position where
  brokerAccountId : String
  instrument : Instrument
  quantity : ℚ
  averageCost : Option Money
  currentPrice : Option Money
  marketValue : Option Money := none
  unrealizedProfitLoss : Option Money := none
  dataFreshness : String
  deriving DecidableEq, Repr

structure CashBalance where
  brokerAccountId : String
  cash : Money
  settledCash : Option Money := none
  netLiquidationValue : Option Money := none
  stockMarketValue : Option Money := none
  unrealizedPnl : Option Money := none
  realizedPnl : Option Money := none
  source : String
  deriving DecidableEq, Repr

/-- A complete `BrokerSnapshotClientResponse`. -/
structure Snapshot where
  accounts : List Account
  positions : List Position
  cashBalances : List CashBalance
  deriving DecidableEq, Repr

/-- `BrokerConnectionClientResponse`. -/
structure Connection where
  status : String
  providerStatus : String
  capabilities : List String
  deriving DecidableEq, Repr

def Connection.connected (connection : Connection) : Bool :=
  connection.status = "CONNECTED" && connection.providerStatus = "CONNECTED"

/-- One call of `syncBrokerConnection`: what the broker service answers, and the generation. -/
structure Sync where
  connection : Option Connection
  snapshot : Option Snapshot
  generation : String
  deriving DecidableEq, Repr

/-! ### Tables -/

/-- Both tables of holdings have a row at most for each of these. -/
structure PositionKey where
  brokerAccountId : String
  provider : String
  providerInstrumentId : String
  deriving DecidableEq, Repr

/-- `PortfolioPositionEntity`. -/
structure PortfolioPosition where
  quantity : ℚ
  averageCost : Money
  currentPrice : Money
  marketValue : Option Money
  unrealizedProfitLoss : Option Money
  sourceBrokerType : String
  syncGenerationId : String
  active : Bool
  dataFreshness : String
  deriving DecidableEq, Repr

/-- `BrokerHoldingEntity`. -/
structure BrokerHolding where
  isin : Option String
  symbol : Option String
  quantity : ℚ
  averageCostAmount : Option ℚ
  currentPriceAmount : Option ℚ
  marketValueAmount : Option ℚ
  currency : Option String
  exchange : Option String
  syncGenerationId : String
  active : Bool
  deriving DecidableEq, Repr

structure CashKey where
  brokerAccountId : String
  cashCurrency : String
  deriving DecidableEq, Repr

/-- `BrokerAccountCashBalanceEntryEntity`; its currency is in its key. -/
structure CashEntry where
  cashAmount : ℚ
  settledCash : Option Money
  netLiquidationValue : Option Money
  stockMarketValue : Option Money
  unrealizedPnl : Option Money
  realizedPnl : Option Money
  source : String
  deriving DecidableEq, Repr

structure Tables where
  positions : Dict PositionKey PortfolioPosition
  holdings : Dict PositionKey BrokerHolding
  cash : Dict CashKey CashEntry

def Tables.empty : Tables := ⟨Dict.empty, Dict.empty, Dict.empty⟩

/-- Why a sync fails. -/
inductive SyncError
  | connectionEmpty
  | authenticationRequired (status : String)
  | notReady
  | incompleteSnapshot
  | malformedAccount
  | unknownBrokerType (name : String)
  | unknownAccountStatus (name : String)
  | identityRequired (fieldName : String)
  deriving DecidableEq, Repr

/-! ### Holdings -/

/-- `requiredInstrumentIdentity`. -/
def requiredInstrumentIdentity (value fieldName : String) : Except SyncError String :=
  if isBlank value then .error (.identityRequired fieldName) else .ok value

def orFreshness (fallback freshness : String) : String :=
  if isBlank freshness then fallback else freshness

/-- The row of a complete position: a new one, or the present one with its values replaced. -/
def brokerValues (account : Account) (generation : String) (position : Position)
    (averageCost currentPrice : Money) (existing : Option PortfolioPosition) :
    PortfolioPosition where
  quantity := position.quantity
  averageCost := averageCost
  currentPrice := currentPrice
  marketValue := position.marketValue
  unrealizedProfitLoss := position.unrealizedProfitLoss
  sourceBrokerType := (existing.map PortfolioPosition.sourceBrokerType).getD account.brokerType
  syncGenerationId := generation
  active := true
  dataFreshness := orFreshness (if existing.isSome then "REAL_BROKER" else "DEMO")
    position.dataFreshness

/-- The row of an incomplete position. -/
def incompleteValues (generation : String) (position : Position) : BrokerHolding where
  isin := position.instrument.isin
  symbol := position.instrument.ticker
  quantity := position.quantity
  averageCostAmount := position.averageCost.map Money.amount
  currentPriceAmount := position.currentPrice.map Money.amount
  marketValueAmount := position.marketValue.map Money.amount
  currency := (position.marketValue.map Money.currency).or position.instrument.tradingCurrency
  exchange := position.instrument.exchange
  syncGenerationId := generation
  active := true

/-- `upsertIncompleteHolding`. -/
def upsertIncompleteHolding (generation : String) (tables : Tables) (key : PositionKey)
    (position : Position) : Tables :=
  { tables with holdings := tables.holdings.set key (incompleteValues generation position) }

/-- `upsertBrokerPosition`. -/
def upsertBrokerPosition (account : Account) (generation : String) (tables : Tables)
    (position : Position) : Except SyncError Tables := do
  let provider ← requiredInstrumentIdentity position.instrument.provider "instrument.provider"
  let externalId ← requiredInstrumentIdentity position.instrument.providerInstrumentId
    "instrument.providerInstrumentId"
  let key : PositionKey := ⟨account.brokerAccountId, provider, externalId⟩
  match position.averageCost, position.currentPrice with
  | some averageCost, some currentPrice =>
      let row := brokerValues account generation position averageCost currentPrice
        (tables.positions.get? key)
      return { tables with positions := tables.positions.set key row }
  | _, _ => return upsertIncompleteHolding generation tables key position

/-- The positions of the snapshot that are of the account. -/
def accountPositions (snapshot : Snapshot) (brokerAccountId : String) : List Position :=
  snapshot.positions.filter fun position => position.brokerAccountId = brokerAccountId

/-- The instrument identifiers of some positions, which say what is not missing. -/
def activeExternalInstrumentIds (positions : List Position) : List String :=
  ((positions.map fun position => position.instrument.providerInstrumentId).filter
    fun value => !isBlank value).dedup

def PortfolioPosition.markStale (generation : String) (row : PortfolioPosition) :
    PortfolioPosition :=
  { row with active := false, syncGenerationId := generation, dataFreshness := "STALE_BROKER" }

def BrokerHolding.markStale (generation : String) (row : BrokerHolding) : BrokerHolding :=
  { row with active := false, syncGenerationId := generation }

/-- The row is of the account, and its instrument is not among the identifiers. -/
def missing (brokerAccountId : String) (activeIds : List String) (key : PositionKey) : Bool :=
  key.brokerAccountId = brokerAccountId &&
    (activeIds.isEmpty || !activeIds.contains key.providerInstrumentId)

/-- `markMissingBrokerPositionsStale`: both tables, by the instrument identifier alone. -/
def markMissingBrokerPositionsStale (generation : String) (tables : Tables)
    (brokerAccountId : String) (activeIds : List String) : Tables :=
  { tables with
    positions := tables.positions.update fun key row =>
      if row.active && missing brokerAccountId activeIds key then row.markStale generation else row
    holdings := tables.holdings.update fun key row =>
      if row.active && missing brokerAccountId activeIds key then row.markStale generation else row }

/-! ### Cash -/

/-- The cash of the snapshot that is of the account. -/
def accountCash (snapshot : Snapshot) (brokerAccountId : String) : List CashBalance :=
  snapshot.cashBalances.filter fun cash => cash.brokerAccountId = brokerAccountId

def cashKey (cash : CashBalance) : CashKey := ⟨cash.brokerAccountId, cash.cash.currency⟩

/-- `cashEntity`. -/
def cashEntity (cash : CashBalance) : CashEntry where
  cashAmount := cash.cash.amount
  settledCash := cash.settledCash
  netLiquidationValue := cash.netLiquidationValue
  stockMarketValue := cash.stockMarketValue
  unrealizedPnl := cash.unrealizedPnl
  realizedPnl := cash.realizedPnl
  source := if isBlank cash.source then "UNKNOWN" else cash.source

/-- `brokerAccountCashBalanceEntryRepository.save`, of each in turn. -/
def saveCash (tables : Tables) (balances : List CashBalance) : Tables :=
  { tables with
    cash := balances.foldl (fun table cash => table.set (cashKey cash) (cashEntity cash))
      tables.cash }

/-- `PortfolioMapper.toDomain`. -/
def toDomain (item : CashKey × CashEntry) : CashBalance where
  brokerAccountId := item.1.brokerAccountId
  cash := ⟨item.2.cashAmount, item.1.cashCurrency⟩
  settledCash := item.2.settledCash
  netLiquidationValue := item.2.netLiquidationValue
  stockMarketValue := item.2.stockMarketValue
  unrealizedPnl := item.2.unrealizedPnl
  realizedPnl := item.2.realizedPnl
  source := item.2.source

/-- The accounts that an active position of the portfolio comes from. -/
def portfolioBrokerAccountIds (tables : Tables) (brokerAccountId : String) : List String :=
  ((tables.positions.items.filter fun item => item.1.brokerAccountId = brokerAccountId).filter
    fun item => item.2.active).map fun item => item.1.brokerAccountId

/-- The entries stored for those accounts. -/
def persistedRealBrokerCash (tables : Tables) (brokerAccountId : String) : List CashBalance :=
  (tables.cash.items.filter fun item =>
    (portfolioBrokerAccountIds tables brokerAccountId).contains item.1.brokerAccountId).map toDomain

/-- `cashBalancesFor` the portfolio of an account, which `getSummary` sums; `mockCash` is what
the mock provider has for the user's mock accounts. -/
def cashBalancesFor (mockCash : List CashBalance) (tables : Tables) (brokerAccountId : String) :
    List CashBalance :=
  let persisted := persistedRealBrokerCash tables brokerAccountId
  if persisted = [] then mockCash else persisted

/-! ### The sync -/

/-- `BrokerType.values()`. -/
def brokerTypes : List String := ["MOCK", "IBKR", "ICICI_DIRECT", "HDFC_SECURITIES"]

/-- `BrokerAccountStatus.values()`. -/
def accountStatuses : List String := ["ACTIVE", "DISCONNECTED", "ERROR"]

/-- `validateCompleteSnapshot`. -/
def validateCompleteSnapshot (snapshot : Option Snapshot) : Except SyncError Snapshot :=
  match snapshot with
  | none => .error .incompleteSnapshot
  | some snapshot =>
      if snapshot.accounts.any fun account =>
          isBlank account.brokerAccountId || isBlank account.brokerType then
        .error .malformedAccount
      else .ok snapshot

/-- The body of the loop over the accounts. -/
def syncAccount (snapshot : Snapshot) (generation : String) (tables : Tables) (account : Account) :
    Except SyncError Tables := do
  raiseIf (account.brokerType ∉ brokerTypes) (.unknownBrokerType account.brokerType)
  raiseIf (account.status ∉ accountStatuses) (.unknownAccountStatus account.status)
  let positions := accountPositions snapshot account.brokerAccountId
  let upserted ← positions.foldlM (upsertBrokerPosition account generation) tables
  let marked := markMissingBrokerPositionsStale generation upserted account.brokerAccountId
    (activeExternalInstrumentIds positions)
  return saveCash marked (accountCash snapshot account.brokerAccountId)

/-- `syncBrokerConnection`. -/
def syncBrokerConnection (tables : Tables) (call : Sync) : Except SyncError Tables :=
  match call.connection with
  | none => .error .connectionEmpty
  | some connection => do
      raiseIf (connection.connected = false) (.authenticationRequired connection.status)
      raiseIf ("PORTFOLIO_READ" ∉ connection.capabilities) .notReady
      let snapshot ← validateCompleteSnapshot call.snapshot
      snapshot.accounts.foldlM (syncAccount snapshot call.generation) tables

end InvestmentPlatform.Portfolio
