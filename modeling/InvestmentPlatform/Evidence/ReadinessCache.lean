/-
The evidence-only cache of `ResearchReadinessRuntime.read`, and the writes it has to notice.

The evidence of an instrument is a version, which a write changes when it executes.  Operations
wait for the dispatcher in the order they were dispatched, and the next one begins when the
caller of the last one has gone on.  A classification stands for the version it was read from.
-/
import InvestmentPlatform.Lib.Dict
import InvestmentPlatform.Lib.Machine

namespace InvestmentPlatform.Evidence.ReadinessCache

/-! ### Operations -/

/-- The persistence operations that change evidence, as they are handed to
`_run_blocking_persistence`. -/
inductive Operation
  | structuredMarketSnapshot
  | structuredMarketFailure
  | marketPriceObservation
  | dailyMarketBar
  | dailyMarketBars
  | yahooStatementFacts
  | internationalFinancialFacts
  | officialFinancialFacts
  | officialFinancialDocument
  | reusedOfficialFinancialFacts
  | document
  | documentRepair
  | ingestedEvent
  | shareholdingSnapshot
  | newsRecord
  | acquisitionObservation
  | financialReconciliation
  deriving DecidableEq, Repr

/-- `operation.__name__`. -/
def Operation.name : Operation → String
  | .structuredMarketSnapshot => "upsert_structured_market_snapshot"
  | .structuredMarketFailure => "record_structured_market_failure"
  | .marketPriceObservation => "upsert_market_price_observation"
  | .dailyMarketBar => "upsert_daily_market_bar"
  | .dailyMarketBars => "upsert_daily_market_bars"
  | .yahooStatementFacts => "persist_yahoo_statement_facts"
  | .internationalFinancialFacts => "persist_international_financial_facts"
  | .officialFinancialFacts => "_persist_official_financial_facts"
  | .officialFinancialDocument => "_reconcile_persisted_official_financial_document"
  | .reusedOfficialFinancialFacts => "_reconcile_reused_official_financial_facts"
  | .document => "upsert_document"
  | .documentRepair => "_persist_official_document_repair"
  | .ingestedEvent => "_persist_ingested_event"
  | .shareholdingSnapshot => "upsert_shareholding_snapshot"
  | .newsRecord => "append_news_record"
  | .acquisitionObservation => "upsert_acquisition_observation"
  | .financialReconciliation => "_record_financial_reconciliation"

/-- `_PERSISTENCE_WRITE_PREFIXES`. -/
def persistenceWritePrefixes : List String :=
  ["upsert_", "record_", "insert_", "complete_", "start_", "create_", "_persist", "_reconcile",
    "_apply", "_store"]

/-- `_is_persistence_write`. -/
def isPersistenceWrite (operation : Operation) : Bool :=
  persistenceWritePrefixes.any fun start => start.toList.isPrefixOf operation.name.toList

/-! ### Callers -/

variable {I C : Type}

/-- The arguments of `read`. -/
structure Read (I : Type) where
  instrument : I
  evidenceOnly : Bool
  now : Option Int := none

/-- A `ResearchReadinessResult`: the version it classifies, and when. -/
structure Result where
  version : Nat
  generatedAt : Int
  deriving DecidableEq, Repr

/-- What a caller has dispatched. -/
inductive Request (I : Type)
  | assess (read : Read I)
  | persist (operation : Operation) (instrument : I)

inductive Phase (I : Type)
  | fresh
  /-- In `market_session_data`. -/
  | opening (read : Read I)
  | waiting (request : Request I)
  | ended (result : Option Result)

/-- An entry of `_evidence_readiness_cache`. -/
structure Entry where
  result : Result
  generation : Nat
  deriving DecidableEq, Repr

/-- The operation that has the slot, once it has executed. -/
structure Running (I C : Type) where
  caller : C
  request : Request I
  result : Result
  /-- Its caller was cancelled, and drains it. -/
  cancelled : Bool

structure State (I C : Type) where
  evidence : I → Nat
  /-- `_readiness_mutation_generation`. -/
  generation : Nat
  cache : Dict I Entry
  /-- Those who wait for the slot. -/
  queue : List C
  running : Option (Running I C)
  callers : C → Phase I

def start (evidence : I → Nat) : State I C := ⟨evidence, 0, .empty, [], none, fun _ => .fresh⟩

inductive Action (I C : Type)
  /-- `read`, up to its first await. -/
  | read (caller : C) (read : Read I)
  /-- The read goes on after `market_session_data`. -/
  | assess (caller : C)
  | persist (caller : C) (operation : Operation) (instrument : I)
  /-- The next operation executes. -/
  | execute (clock : Int)
  /-- The caller of the operation goes on. -/
  | resume
  | cancel (caller : C)
  /-- A plan is told of new evidence and drops the entry. -/
  | forget (instrument : I)

namespace State

variable [DecidableEq I] [DecidableEq C] (state : State I C)

/-- What `read` returns without an await. -/
def cached (read : Read I) : Option Result :=
  if read.evidenceOnly then
    (state.cache.get? read.instrument).bind fun entry =>
      if entry.generation = state.generation ∧
          (read.now = none ∨ read.now = some entry.result.generatedAt) then some entry.result
      else none
  else none

/-- The entry is moved to the end. -/
def touch (instrument : I) : State I C :=
  match state.cache.get? instrument with
  | none => state
  | some entry => { state with cache := (state.cache.pop instrument).set instrument entry }

/-- `_max_evidence_readiness_cache_size`. -/
def maxSize : Nat := 64

/-- The entries beyond the cap are dropped, the oldest first. -/
def evict : State I C :=
  { state with
    cache := (state.cache.keys.take (state.cache.size - maxSize)).foldl
      (fun cache key => cache.pop key) state.cache }

/-- The result of an `assess` is stored, or supersedes what is stored. -/
def settle (read : Read I) (result : Result) : State I C :=
  if read.evidenceOnly then
    evict { state with cache := state.cache.set read.instrument ⟨result, state.generation⟩ }
  else { state with cache := state.cache.pop read.instrument }

def put (caller : C) (phase : Phase I) : State I C :=
  { state with callers := Function.update state.callers caller phase }

/-- The slot's next operation executes. -/
def execute (clock : Int) (caller : C) (rest : List C) : Request I → State I C
  | .assess read =>
    { state with
      queue := rest
      running := some ⟨caller, .assess read,
        ⟨state.evidence read.instrument, read.now.getD clock⟩, false⟩ }
  | .persist operation instrument =>
    { state with
      evidence := Function.update state.evidence instrument (state.evidence instrument + 1)
      queue := rest
      running := some ⟨caller, .persist operation instrument, ⟨0, clock⟩, false⟩ }

def exec : Action I C → Option (State I C)
  | .read caller read =>
    match state.callers caller with
    | .fresh =>
      match state.cached read with
      | some result => some ((state.touch read.instrument).put caller (.ended (some result)))
      | none => some (state.put caller (.opening read))
    | _ => none
  | .assess caller =>
    match state.callers caller with
    | .opening read =>
      some { state.put caller (.waiting (.assess read)) with queue := state.queue ++ [caller] }
    | _ => none
  | .persist caller operation instrument =>
    match state.callers caller with
    | .fresh =>
      some { state.put caller (.waiting (.persist operation instrument)) with
        generation := state.generation + if isPersistenceWrite operation then 1 else 0
        queue := state.queue ++ [caller] }
    | _ => none
  | .execute clock =>
    match state.running, state.queue with
    | none, caller :: rest =>
      match state.callers caller with
      | .waiting request => some (state.execute clock caller rest request)
      | _ => none
    | _, _ => none
  | .resume =>
    match state.running with
    | none => none
    | some running =>
      let state' := { state with running := none }
      if running.cancelled then some (state'.put running.caller (.ended none))
      else
        match running.request with
        | .assess read =>
          some ((state'.settle read running.result).put running.caller
            (.ended (some running.result)))
        | .persist _ _ => some (state'.put running.caller (.ended none))
  | .cancel caller =>
    match state.callers caller with
    | .opening _ => some (state.put caller (.ended none))
    | .waiting _ =>
      if caller ∈ state.queue then
        some { state.put caller (.ended none) with queue := state.queue.filter (· ≠ caller) }
      else
        state.running.map fun running =>
          if running.caller = caller then
            { state with running := some { running with cancelled := true } }
          else state
    | _ => none
  | .forget instrument => some { state with cache := state.cache.pop instrument }

end State

/-- Any interleaving of the callers, from any evidence. -/
def machine [DecidableEq I] [DecidableEq C] : Machine (State I C) (Action I C) where
  init state := ∃ evidence, state = start evidence
  step state action state' := state.exec action = some state'

end InvestmentPlatform.Evidence.ReadinessCache
