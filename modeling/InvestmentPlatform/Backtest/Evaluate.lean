/-
`evaluate_backtest` of `app/recommendation_backtesting.py`.

The source appends samples to `output[bucket]` from six places, two of them handlers of an
exception, and an exception that no handler catches ends the run.  The loops over the rows are
`Filing` programs, so what was appended before an exception is still there after it.

`isoformat` of an instant is kept as the instant.  The run takes the id that `uuid4` returns.
-/
import InvestmentPlatform.Backtest.Values
import InvestmentPlatform.Lib.Filing

namespace InvestmentPlatform.Backtest

/-! ### Horizons, actions and the persisted record -/

def shortTermHorizons : List (String × Nat) := [("1W", 7), ("1M", 30), ("3M", 91), ("6M", 182)]

def longTermHorizons : List (String × Nat) := [("1Y", 365), ("2Y", 730), ("3Y", 1095)]

/-- `HORIZONS_BY_RECOMMENDATION_TYPE.get(horizon)`. -/
def horizonsByRecommendationType (horizon : String) : Option (List (String × Nat)) :=
  if horizon = "SHORT_TERM" then some shortTermHorizons
  else if horizon = "LONG_TERM" then some longTermHorizons
  else none

inductive Direction
  | buy | sell
  deriving DecidableEq, Repr

def buyActions : List String := ["BUY", "STRONG_BUY", "ACCUMULATE", "TOP_UP"]

def sellActions : List String :=
  ["SELL", "AVOID", "PARTIAL_EXIT", "EXIT", "EXIT_REVIEW", "REDUCE"]

inductive Status
  | evaluated | notMatured | missingMarketData | outsideEvaluationWindow | insufficientEvidence
  | backendFailure
  deriving DecidableEq, Repr

abbrev Recommendation (F : Type) := Dict String (PyValue F)

variable {F : Type}

/-- `recommendation.get(key)`. -/
def Recommendation.get (r : Recommendation F) (key : String) : PyValue F := (r.get? key).getD .none

/-- `recommendation[key]`. -/
def Recommendation.item (r : Recommendation F) (key : String) : Except Raised (PyValue F) :=
  match r.get? key with
  | some value => .ok value
  | none => .error .keyError

variable [PyDouble F] [PyLibrary F]

/-- `canonical_direction`. -/
def canonicalDirection (action : PyValue F) : Option Direction :=
  let text := if action.truthy then PyLibrary.str action else ""
  let normalized := PyLibrary.upper F (PyLibrary.strip F text)
  if normalized ∈ buyActions then some .buy
  else if normalized ∈ sellActions then some .sell
  else none

/-- `recommendation.get('horizon') or recommendation.get('recommendation_type')`. -/
def explicitType (r : Recommendation F) : PyValue F :=
  (r.get "horizon").or (r.get "recommendation_type")

/-- `_persisted_action`. -/
def persistedAction (r : Recommendation F) (recommendationType : String) : PyValue F :=
  if (explicitType r).truthy then
    (((r.get "action").or (r.get "initial_action")).or (r.get "canonical_action")).or
      (r.get "public_action")
  else if recommendationType = "SHORT_TERM" then r.get "short_term_action"
  else r.get "long_term_action"

/-- `_recommendation_id`. -/
def recommendationId (r : Recommendation F) : String :=
  PyLibrary.str ((r.get "recommendation_id").or (r.get "suggestion_id"))

def positive (x : F) : Option F := if PyDouble.lt (PyDouble.ofRat 0) x then some x else none

/-- `_positive_price` of a persisted value. -/
def positivePrice (value : PyValue F) : Except Raised (Option F) :=
  match (PyLibrary.float value : Except Raised F) with
  | .ok parsed => .ok (positive parsed)
  | .error .typeError | .error .valueError => .ok none
  | .error e => .error e

/-- `_positive_price` of the decimal of an observation, which `float` always reads. -/
def MarketPriceObservation.positivePrice (row : MarketPriceObservation) : Option F :=
  positive (PyDouble.ofRat row.price)

/-- `_persisted_reference_price`. -/
def persistedReferencePrice (r : Recommendation F) : Except Raised (Option F) :=
  if (explicitType r).truthy || (r.get "persistence_source").isText "GLOBAL_STOCK_SUGGESTION" then
    positivePrice (r.get "price_at_recommendation")
  else .ok none

/-! ### Samples and metrics -/

structure Sample (F : Type) where
  recommendationId : String
  globalInstrumentId : PyValue F
  symbol : PyValue F
  companyName : PyValue F
  action : PyValue F
  direction : Option Direction
  recommendationType : PyValue F
  testedRecommendationType : String
  status : Status
  evaluationDate : Option Instant := none
  requiredEvaluationDate : Option Instant := none
  entryPrice : Option F := none
  exitPrice : Option F := none
  returnPct : Option F := none
  signalReturnPct : Option F := none
  success : Option Bool := none
  maxAdverseExcursionPct : Option F := none
  benchmarkExcessReturnPct : Option F := none

/-- A row of the history with its action and direction. -/
structure Context (F : Type) where
  recommendation : Recommendation F
  action : PyValue F
  direction : Option Direction

/-- `_sample` with the arguments every call passes; the other fields are set on the result. -/
def Context.sample (context : Context F) (horizon : String) (status : Status)
    (globalInstrumentId : PyValue F) : Sample F where
  recommendationId := recommendationId context.recommendation
  globalInstrumentId := globalInstrumentId
  symbol := context.recommendation.get "symbol"
  companyName := context.recommendation.get "company_name"
  action := context.action
  direction := context.direction
  recommendationType := (explicitType context.recommendation).or (.str horizon)
  testedRecommendationType := horizon
  status := status

structure Metrics (F : Type) where
  recommendationCount : Nat
  evaluatedCount : Nat
  notMaturedCount : Nat
  missingMarketDataCount : Nat
  outsideEvaluationWindowCount : Nat
  insufficientEvidenceCount : Nat
  backendFailureCount : Nat
  missingCount : Nat
  hitRate : Option F
  successRate : Option F
  averageReturn : Option F
  medianReturn : Option F
  bestReturn : Option F
  worstReturn : Option F
  averageMarketReturn : Option F
  maxAdverseExcursion : Option F
  benchmarkExcessReturn : Option F

/-- `f(values) if values else None`. -/
def unlessEmpty (f : List F → F) (values : List F) : Option F :=
  if values.isEmpty then none else some (f values)

/-- `metrics`. -/
def metrics (samples : List (Sample F)) : Metrics F :=
  let byStatus status := samples.countP fun s => s.status = status
  let evaluated := samples.filter fun s => s.status = .evaluated
  let signalReturns := evaluated.filterMap Sample.signalReturnPct
  let marketReturns := evaluated.filterMap Sample.returnPct
  let adverse := evaluated.filterMap Sample.maxAdverseExcursionPct
  let excess := evaluated.filterMap Sample.benchmarkExcessReturnPct
  let successes : Nat := evaluated.countP fun s => s.success = some true
  let successRate : Option F :=
    if evaluated.isEmpty then none
    else some (PyDouble.ofRat ((100 * successes : Nat) / (evaluated.length : ℚ)))
  { recommendationCount := samples.length
    evaluatedCount := byStatus .evaluated
    notMaturedCount := byStatus .notMatured
    missingMarketDataCount := byStatus .missingMarketData
    outsideEvaluationWindowCount := byStatus .outsideEvaluationWindow
    insufficientEvidenceCount := byStatus .insufficientEvidence
    backendFailureCount := byStatus .backendFailure
    missingCount := byStatus .missingMarketData
    hitRate := successRate
    successRate := successRate
    averageReturn := unlessEmpty PyDouble.mean signalReturns
    medianReturn := unlessEmpty PyDouble.median signalReturns
    bestReturn := PyDouble.max signalReturns
    worstReturn := PyDouble.min signalReturns
    averageMarketReturn := unlessEmpty PyDouble.mean marketReturns
    maxAdverseExcursion := PyDouble.min adverse
    benchmarkExcessReturn := unlessEmpty PyDouble.mean excess }

/-! ### The cohort -/

/-- The accepted parameters of a run. -/
structure Parameters where
  start : Instant
  endAt : Instant
  now : Instant
  horizon : String
  horizons : List (String × Nat)

/-- The list a row of the history is put on. -/
inductive Verdict
  | outsideWindow | insufficientEvidence | cohort
  deriving DecidableEq, Repr

/-- The body of the loop over the history. -/
def classify (p : Parameters) (r : Recommendation F) : Except Raised (Verdict × Context F) := do
  let generatedAt ← utc (← r.item "generated_at")
  let explicit := explicitType r
  let action := persistedAction r p.horizon
  let direction := canonicalDirection action
  let context : Context F := ⟨r, action, direction⟩
  if ¬ (p.start ≤ generatedAt ∧ generatedAt ≤ p.endAt) ∨ !(r.get "market").isText "NSE" ∨
      (!explicit.isNone ∧ !explicit.isText p.horizon) ∨ direction = none then
    return (.outsideWindow, context)
  if ← evidenceAvailable generatedAt ((r.get? "evidence_snapshot").getD (.dict [])) then
    return (.cohort, context)
  return (.insufficientEvidence, context)

/-! ### The rows -/

/-- The programs of the loops: `output[bucket].append(sample)` is `file bucket sample`. -/
abbrev Evaluation (F : Type) := Filing Raised String (Sample F)

open Filing

def outsideRow (p : Parameters) (context : Context F) : Evaluation F Unit :=
  p.horizons.forM fun horizon => do
    let id ← context.recommendation.item "global_instrument_id"
    file horizon.1 (context.sample p.horizon .outsideEvaluationWindow id)

def insufficientRow (p : Parameters) (context : Context F) : Evaluation F Unit := do
  let generatedAt ← utc (← context.recommendation.item "generated_at")
  p.horizons.forM fun horizon => do
    let target ← addDays generatedAt horizon.2
    let status := if p.now < target then .notMatured else .insufficientEvidence
    let id ← context.recommendation.item "global_instrument_id"
    file horizon.1 { context.sample p.horizon status id with
      evaluationDate := some generatedAt
      requiredEvaluationDate := some target }

/-- A row of the cohort with what every sample of it repeats. -/
structure Row (F : Type) where
  context : Context F
  generatedAt : Instant
  instrumentId : String

def Row.sample (row : Row F) (p : Parameters) (status : Status) (target : Instant) : Sample F :=
  { row.context.sample p.horizon status (.str row.instrumentId) with
    evaluationDate := some row.generatedAt
    requiredEvaluationDate := some target }

/-- Samples the horizons that are not due and returns the others with their due dates. -/
def splitHorizons (p : Parameters) (row : Row F) :
    List (String × Nat) → Evaluation F (List (String × Instant))
  | [] => return []
  | (bucket, days) :: rest => do
    let target ← addDays row.generatedAt days
    if p.now < target then
      let entry ← persistedReferencePrice row.context.recommendation
      file bucket { row.sample p .notMatured target with entryPrice := entry }
      splitHorizons p row rest
    else return (bucket, target) :: (← splitHorizons p row rest)

/-- `normalize_price_history`, as the run calls it. -/
abbrev Normalizer :=
  String → List MarketPriceObservation → Instant → Option String → Except Raised PriceHistory

variable (normalize : Normalizer)

/-- `known.observations[-1] if known.observations and not known.current_conflict else None`. -/
def PriceHistory.knownEntry (known : PriceHistory) : Option MarketPriceObservation :=
  if known.currentConflict then none else known.observations.getLast?

/-- The first `try`: the entry price and the prices known as of now. -/
def references (p : Parameters) (row : Row F) (rows : List MarketPriceObservation) :
    Except Raised (Option F × PriceHistory) := do
  let known ← normalize row.instrumentId rows row.generatedAt none
  let persisted ← persistedReferencePrice row.context.recommendation
  let entry := persisted.or (known.knownEntry.bind MarketPriceObservation.positivePrice)
  let observed ← normalize row.instrumentId rows p.now
    (known.knownEntry.bind MarketPriceObservation.currency)
  return (entry, observed)

/-- `target <= utc(price.observed_at) <= target + timedelta(days=7)`. -/
def inExitWindow (target : Instant) (row : MarketPriceObservation) : Except Raised Bool := do
  let observed ← aware row.observedAt
  if observed < target then return false
  return observed ≤ (← addDays target 7)

/-- The condition of `directional_window`. -/
def whileHeld (F : Type) [PyDouble F] (generatedAt : Instant) (exit row : MarketPriceObservation) :
    Except Raised Bool := do
  if (row.positivePrice : Option F).isNone then return false
  let observed ← aware row.observedAt
  if observed ≤ generatedAt then return false
  return observed ≤ (← aware exit.observedAt)

/-- `direction_sign * x`. -/
def signed (direction : Option Direction) (x : F) : F :=
  PyDouble.ofRat (if direction = some .buy then 1 else -1) * x

/-- `(price / entry - 1) * 100`, with the sign inside where the source has it there. -/
def changePct (price entry : F) : F :=
  (price / entry - PyDouble.ofRat 1) * PyDouble.ofRat 100

def adversePct (direction : Option Direction) (price entry : F) : F :=
  signed direction (price / entry - PyDouble.ofRat 1) * PyDouble.ofRat 100

/-- The block under `if benchmark_prices`, with the id of the benchmark. -/
def excessOver (p : Parameters) (row : Row F) (benchmarkId : String)
    (benchmarkPrices : List MarketPriceObservation) (exit : MarketPriceObservation)
    (marketReturn : F) : Except Raised (Option F) := do
  let before ← normalize benchmarkId benchmarkPrices row.generatedAt none
  let after ← normalize benchmarkId benchmarkPrices p.now none
  let matching ← selectRows (fun price => do
    return (← aware price.observedAt) / day = (← aware exit.observedAt) / day) after.observations
  match before.knownEntry, matching.head? with
  | some entry, some price =>
    let ratio ← PyLibrary.quotient price.price entry.price
    let benchmarkReturn := (ratio - PyDouble.ofRat 1) * PyDouble.ofRat 100
    return some (signed row.context.direction (marketReturn - benchmarkReturn))
  | _, _ => return none

/-- `excess`: the benchmark is the instrument of the first price, and none without a price. -/
def benchmarkExcess (p : Parameters) (row : Row F) (benchmark : Option (List MarketPriceObservation))
    (exit : MarketPriceObservation) (marketReturn : F) : Except Raised (Option F) :=
  match benchmark.bind List.head? with
  | none => return none
  | some first => excessOver normalize p row first.instrumentId (benchmark.getD []) exit marketReturn

/-- The second `try`: one due horizon. -/
def maturedHorizon (p : Parameters) (row : Row F)
    (benchmark : Option (List MarketPriceObservation)) (entryPrice : Option F)
    (observed : PriceHistory) (bucket : String) (target : Instant) : Evaluation F Unit := do
  let future ← selectRows (inExitWindow target) observed.observations
  let exitPrice := future.head?.bind MarketPriceObservation.positivePrice
  match entryPrice, future.head?, exitPrice with
  | some entry, some exit, some price =>
    let marketReturn := changePct price entry
    let signalReturn := signed row.context.direction marketReturn
    let held ← selectRows (whileHeld F row.generatedAt exit) observed.observations
    let window := (held.filterMap MarketPriceObservation.positivePrice).map fun price =>
      adversePct row.context.direction price entry
    let excess ← benchmarkExcess normalize p row benchmark exit marketReturn
    file bucket { row.sample p .evaluated target with
      entryPrice := entry
      exitPrice := price
      returnPct := marketReturn
      signalReturnPct := signalReturn
      success := PyDouble.lt (PyDouble.ofRat 0) signalReturn
      maxAdverseExcursionPct :=
        if window.isEmpty then none else PyDouble.min (PyDouble.ofRat 0 :: window)
      benchmarkExcessReturnPct := excess }
  | _, _, _ =>
    file bucket { row.sample p .missingMarketData target with
      entryPrice := entryPrice
      exitPrice := exitPrice }

/-- The body of the loop over the cohort. -/
def cohortRow (p : Parameters) (prices : Dict String (List MarketPriceObservation))
    (benchmark : Option (List MarketPriceObservation)) (context : Context F) :
    Evaluation F Unit := do
  let generatedAt ← utc (← context.recommendation.item "generated_at")
  let instrumentId ← PyLibrary.uuid (← context.recommendation.item "global_instrument_id")
  let row : Row F := ⟨context, generatedAt, instrumentId⟩
  let matured ← splitHorizons p row p.horizons
  if matured.isEmpty then return ()
  match references normalize p row ((prices.get? instrumentId).getD []) with
  | .error _ =>
    matured.forM fun due => file due.1 (row.sample p .backendFailure due.2)
  | .ok (entryPrice, observed) =>
    matured.forM fun due =>
      tryCatch (maturedHorizon normalize p row benchmark entryPrice observed due.1 due.2) fun _ =>
        file due.1 { row.sample p .backendFailure due.2 with entryPrice := entryPrice }

/-! ### The run -/

structure BacktestResult (F : Type) where
  backtestId : String
  generatedAt : Instant
  engineVersion : String := "BACKTESTING_V3"
  start : Instant
  endAt : Instant
  asOf : Instant
  market : String := "NSE"
  horizon : String
  recommendationType : String
  availableHorizons : List String
  exampleHorizon : String
  recommendationCount : Nat
  selectedRecommendationCount : Nat
  excludedUnavailableEvidence : Nat
  methodology : String :=
    "Immutable original Radar recommendations; selection period applies to recommendation date; " ++
    "type-specific calendar horizons; persisted entry price (or last point-in-time close); first " ++
    "available close within 7 days of evaluation due date; direction-adjusted success and aggregate " ++
    "return; raw stock return retained per sample; close-based adverse excursion."
  metrics : List (String × Metrics F)
  samples : List (String × List (Sample F))
  winners : List (Sample F)
  losers : List (Sample F)

/-- The three loops over the classified rows. -/
def evaluateRows (p : Parameters) (prices : Dict String (List MarketPriceObservation))
    (benchmark : Option (List MarketPriceObservation))
    (outside insufficient cohort : List (Context F)) : Evaluation F Unit := do
  outside.forM (outsideRow p)
  insufficient.forM (insufficientRow p)
  cohort.forM (cohortRow normalize p prices benchmark)

/-- The contexts on one of the three lists. -/
def onList (verdict : Verdict) (classified : List (Verdict × Context F)) : List (Context F) :=
  (classified.filter fun c => c.1 = verdict).map Prod.snd

/-- The result of a run that left these samples under the buckets. -/
def summarize (backtestId : String) (p : Parameters) (classified : List (Verdict × Context F))
    (output : Shelf String (Sample F)) : BacktestResult F :=
  let exampleHorizon := if p.horizon = "SHORT_TERM" then "1M" else "1Y"
  let signalReturn (s : Sample F) := s.signalReturnPct.getD (PyDouble.ofRat 0)
  let examples := ((output exampleHorizon).filter fun s => s.status = .evaluated).insertionSort
    fun a b => !PyDouble.lt (signalReturn b) (signalReturn a)
  { backtestId := backtestId
    generatedAt := p.now
    start := p.start
    endAt := p.endAt
    asOf := p.now
    horizon := p.horizon
    recommendationType := p.horizon
    availableHorizons := p.horizons.map Prod.fst
    exampleHorizon := exampleHorizon
    recommendationCount := (onList .cohort classified).length +
      (onList .outsideWindow classified).length + (onList .insufficientEvidence classified).length
    selectedRecommendationCount :=
      (onList .cohort classified).length + (onList .insufficientEvidence classified).length
    excludedUnavailableEvidence := (onList .insufficientEvidence classified).length
    metrics := p.horizons.map fun horizon => (horizon.1, metrics (output horizon.1))
    samples := p.horizons.map fun horizon => (horizon.1, output horizon.1)
    winners := (examples.reverse.filter fun s => s.success = some true).take 4
    losers := (examples.filter fun s => s.success ≠ some true).take 4 }

/-- The check of the parameters. -/
def accept (start endAt : PyValue F) (horizon : String) (now : PyValue F) :
    Except Raised Parameters := do
  let start ← utc start
  let endAt ← utc endAt
  let now ← utc now
  match horizonsByRecommendationType horizon with
  | none => throw .valueError
  | some horizons =>
    if endAt < start ∨ now < endAt then throw .valueError
    return ⟨start, endAt, now, horizon, horizons⟩

/-- `evaluate_backtest`, with the normaliser it calls. -/
def evaluateBacktestWith (backtestId : String) (history : List (Recommendation F))
    (prices : Dict String (List MarketPriceObservation)) (start endAt : PyValue F)
    (horizon : String) (now : PyValue F) (benchmark : Option (List MarketPriceObservation)) :
    Except Raised (BacktestResult F) := do
  let p ← accept start endAt horizon now
  let classified ← history.mapM (classify p)
  let rows := evaluateRows normalize p prices benchmark (onList .outsideWindow classified)
    (onList .insufficientEvidence classified) (onList .cohort classified)
  match StateT.run (ExceptT.run rows) fun _ => [] with
  | (.error e, _) => throw e
  | (.ok (), output) => return summarize backtestId p classified output

/-- `evaluate_backtest`. -/
def evaluateBacktest (backtestId : String) (history : List (Recommendation F))
    (prices : Dict String (List MarketPriceObservation)) (start endAt : PyValue F)
    (horizon : String) (now : PyValue F) (benchmark : Option (List MarketPriceObservation)) :
    Except Raised (BacktestResult F) :=
  evaluateBacktestWith (normalizePriceHistory F) backtestId history prices start endAt horizon now
    benchmark

end InvestmentPlatform.Backtest
