/-
The summary of a portfolio and its breakdowns.

`PortfolioCalculator` converts what the positions are worth into the portfolio's currency and adds
it up, once for the total and once more for each breakdown.  `Money` is rounded to four decimals
whenever one is made.  A `BigDecimal` is an exact number; the FX provider is a function that may
throw.
-/
import InvestmentPlatform.Lib.Dict
import InvestmentPlatform.Lib.HalfUp
import InvestmentPlatform.Lib.JavaText

namespace InvestmentPlatform.PortfolioCalculator

open HalfUp (OnScale setScale)

/-- What is thrown; the FX provider has failures of its own. -/
inductive Thrown (E : Type) where
  | nullPointer
  | illegalArgument (message : String)
  | arithmetic
  | provider (failure : E)

/-- `currency.matches("[A-Z]{3}")`. -/
def isCurrency (currency : String) : Bool :=
  currency.toList.length = 3 && currency.toList.all fun c => 'A' ≤ c && c ≤ 'Z'

structure Money where
  amount : ℚ
  currency : String
  scaled : OnScale 4 amount
  iso : isCurrency currency = true

variable {E : Type}

/-- `new Money(amount, currency)`. -/
def Money.of (amount : ℚ) (currency : String) : Except (Thrown E) Money :=
  if h : isCurrency currency = true then
    .ok ⟨setScale 4 amount, currency, HalfUp.onScale_setScale 4 amount, h⟩
  else .error (.illegalArgument "currency must be a 3-letter ISO currency code")

def Money.zero (currency : String) : Except (Thrown E) Money := Money.of 0 currency

def Money.requireSameCurrency (money other : Money) : Except (Thrown E) Unit :=
  if money.currency = other.currency then .ok ()
  else .error (.illegalArgument
    ("currency mismatch: " ++ money.currency ++ " != " ++ other.currency))

def Money.add (money other : Money) : Except (Thrown E) Money := do
  money.requireSameCurrency other
  Money.of (money.amount + other.amount) money.currency

def Money.subtract (money other : Money) : Except (Thrown E) Money := do
  money.requireSameCurrency other
  Money.of (money.amount - other.amount) money.currency

/-- `x.divide(divisor, scale, RoundingMode.HALF_UP)`. -/
def divide (x divisor : ℚ) (scale : Nat) : Except (Thrown E) ℚ :=
  if divisor = 0 then .error .arithmetic else .ok (setScale scale (x / divisor))

inductive AssetType where
  | equity | index | etf | fund | bond | cash | crypto | other
  deriving DecidableEq

def AssetType.name : AssetType → String
  | .equity => "EQUITY"
  | .index => "INDEX"
  | .etf => "ETF"
  | .fund => "FUND"
  | .bond => "BOND"
  | .cash => "CASH"
  | .crypto => "CRYPTO"
  | .other => "OTHER"

structure Instrument where
  assetType : AssetType
  country : Option String
  tradingCurrency : Option String
  sector : Option String

structure PortfolioPosition where
  instrument : Instrument
  marketValue : Option Money
  costBasis : Money
  brokerAccountId : String

structure BrokerCashBalance where
  brokerAccountId : String
  cash : Option Money

structure Portfolio where
  portfolioId : String
  baseCurrency : String
  iso : isCurrency baseCurrency = true

/-- The percentages of the buckets; a bucket may be for an instrument without a currency. -/
structure AllocationBreakdown where
  country : Dict (Option String) ℚ
  currency : Dict (Option String) ℚ
  sector : Dict (Option String) ℚ
  assetType : Dict (Option String) ℚ
  broker : Dict (Option String) ℚ

structure PortfolioSummary where
  portfolioId : String
  baseCurrency : String
  totalMarketValue : Option Money
  totalCostBasis : Money
  unrealizedProfitLoss : Option Money
  unrealizedProfitLossPercent : Option ℚ
  cash : Money
  numberOfPositions : Nat
  allocation : AllocationBreakdown

def nullToUnknown (value : Option String) : Option String :=
  match value with
  | none => some "UNKNOWN"
  | some value => if JavaText.isBlank value then some "UNKNOWN" else some value

/-! ### The calculator -/

section
variable (getRate : String → String → Except E ℚ)

def convert (money : Option Money) (targetCurrency : String) : Except (Thrown E) Money :=
  match money with
  | none => .error .nullPointer
  | some money =>
      match getRate money.currency targetCurrency with
      | .error failure => .error (.provider failure)
      | .ok rate => Money.of (money.amount * rate) targetCurrency

/-- `total.add(convert(money, baseCurrency))`. -/
def addConverted (baseCurrency : String) (total : Money) (money : Option Money) :
    Except (Thrown E) Money := do
  let converted ← convert getRate money baseCurrency
  total.add converted

/-- `values.merge(key, converted, Money::add)`. -/
def merge (values : Dict (Option String) Money) (key : Option String) (converted : Money) :
    Except (Thrown E) (Dict (Option String) Money) :=
  match values.get? key with
  | none => .ok (values.set key converted)
  | some held => do
      let sum ← held.add converted
      return values.set key sum

/-- One position of the loop in `allocation`. -/
def allocate (classifier : PortfolioPosition → Option String) (baseCurrency : String)
    (state : Money × Dict (Option String) Money) (position : PortfolioPosition) :
    Except (Thrown E) (Money × Dict (Option String) Money) := do
  let converted ← convert getRate position.marketValue baseCurrency
  let total ← state.1.add converted
  let values ← merge state.2 (classifier position) converted
  return (total, values)

/-- The total and the values of the buckets. -/
def bucketValues (positions : List PortfolioPosition)
    (classifier : PortfolioPosition → Option String) (baseCurrency : String) :
    Except (Thrown E) (Money × Dict (Option String) Money) := do
  let zero ← Money.zero baseCurrency
  positions.foldlM (allocate getRate classifier baseCurrency) (zero, Dict.empty)

/-- What a value is of a total, in percent. -/
def percentage (value total : ℚ) : Except (Thrown E) ℚ :=
  if total = 0 then .ok 0
  else do
    let ratio ← divide value total 8
    return setScale 4 (ratio * 100)

def allocation (positions : List PortfolioPosition)
    (classifier : PortfolioPosition → Option String) (baseCurrency : String) :
    Except (Thrown E) (Dict (Option String) ℚ) := do
  let (total, values) ← bucketValues getRate positions classifier baseCurrency
  values.items.foldlM (fun percentages entry => do
    let pct ← percentage entry.2.amount total.amount
    return percentages.set entry.1 pct) Dict.empty

def byCountry (p : PortfolioPosition) : Option String := nullToUnknown p.instrument.country

def byCurrency (p : PortfolioPosition) : Option String := p.instrument.tradingCurrency

def bySector (p : PortfolioPosition) : Option String := nullToUnknown p.instrument.sector

def byAssetType (p : PortfolioPosition) : Option String := some p.instrument.assetType.name

def byBroker (p : PortfolioPosition) : Option String := some p.brokerAccountId

def allocations (positions : List PortfolioPosition) (baseCurrency : String) :
    Except (Thrown E) AllocationBreakdown := do
  let country ← allocation getRate positions byCountry baseCurrency
  let currency ← allocation getRate positions byCurrency baseCurrency
  let sector ← allocation getRate positions bySector baseCurrency
  let assetType ← allocation getRate positions byAssetType baseCurrency
  let broker ← allocation getRate positions byBroker baseCurrency
  return { country, currency, sector, assetType, broker }

def noAllocations : AllocationBreakdown :=
  ⟨Dict.empty, Dict.empty, Dict.empty, Dict.empty, Dict.empty⟩

/-- One position of the loop in `summarize`. -/
def addPosition (baseCurrency : String) (state : Option Money × Money)
    (position : PortfolioPosition) : Except (Thrown E) (Option Money × Money) := do
  let marketValue ← match state.1 with
    | none => pure none
    | some total => some <$> addConverted getRate baseCurrency total position.marketValue
  let costBasis ← addConverted getRate baseCurrency state.2 (some position.costBasis)
  return (marketValue, costBasis)

def summarize (portfolio : Portfolio) (positions : List PortfolioPosition)
    (cashBalances : List BrokerCashBalance) : Except (Thrown E) PortfolioSummary := do
  let valuationComplete := positions.all fun position => position.marketValue.isSome
  let zero ← Money.zero portfolio.baseCurrency
  let (marketValue, costBasis) ← positions.foldlM (addPosition getRate portfolio.baseCurrency)
    (if valuationComplete then some zero else none, zero)
  let cash ← cashBalances.foldlM
    (fun cash balance => addConverted getRate portfolio.baseCurrency cash balance.cash) zero
  let profitLoss ← match marketValue with
    | none => pure none
    | some marketValue => some <$> marketValue.subtract costBasis
  let profitLossPercent ← match profitLoss with
    | none => pure none
    | some profitLoss => some <$> percentage profitLoss.amount costBasis.amount
  let allocation ←
    if valuationComplete then allocations getRate positions portfolio.baseCurrency
    else pure noAllocations
  return {
    portfolioId := portfolio.portfolioId
    baseCurrency := portfolio.baseCurrency
    totalMarketValue := marketValue
    totalCostBasis := costBasis
    unrealizedProfitLoss := profitLoss
    unrealizedProfitLossPercent := profitLossPercent
    cash := cash
    numberOfPositions := positions.length
    allocation := allocation }

end

/-! ### The provider of the tests and of the service -/

def rates : List (String × ℚ) :=
  [("USD_EUR", 92 / 100), ("INR_EUR", 11 / 1000), ("EUR_USD", 1087 / 1000),
    ("INR_USD", 12 / 1000), ("EUR_INR", 909 / 10), ("USD_INR", 833 / 10)]

def requireCurrency (currency : String) : Except String Unit :=
  if isCurrency currency then .ok ()
  else .error "currency must be a 3-letter ISO currency code"

/-- `MockFxRateProvider.getRate`. -/
def mockRate (fromCurrency toCurrency : String) : Except String ℚ := do
  requireCurrency fromCurrency
  requireCurrency toCurrency
  if fromCurrency = toCurrency then return 1
  match (rates.find? fun entry => entry.1 = fromCurrency ++ "_" ++ toCurrency).map Prod.snd with
  | none =>
      .error ("No mock FX rate configured for " ++ fromCurrency ++ " to " ++ toCurrency)
  | some rate => return rate

end InvestmentPlatform.PortfolioCalculator
