/-
One Stage 2 candidate: the body of the Stage 2 loop of `GlobalOpportunityOrchestrator.run` in
`app/global_opportunity_orchestration.py`, with `_incomplete_analysis`,
`_unscorable_failures` and `_checkpoint_deep_outcome`.

Acquisition, readiness, the rule engine and the ranker are calls: `Calls` says what each of
them answers or raises while one candidate is evaluated.  An exception is its text.  The
local variables of the loop are a `Sheet`, and what a branch did to them before an exception
stays done, as the handler finds it.  The investigation matrix, `cache_hit` and the log lines
are left out: the loop does not read them back.
-/
import InvestmentPlatform.Rules.Engine
import InvestmentPlatform.Stage2.Outcome

namespace InvestmentPlatform.Stage2

open InvestmentPlatform.Cycle Rules Selection

/-- A scanned candidate; its scores are the ranker's business. -/
structure Candidate where
  globalInstrumentId : InstrumentId
  deriving DecidableEq, Repr

/-- A field of a stored payload: absent, of another shape than the model, or read. -/
inductive Stored (A : Type)
  | absent | invalid
  | valid (value : A)

def Stored.ofOption {A : Type} : Option A → Stored A
  | some value => .valid value
  | none => .absent

/-- What `_checkpoint_deep_outcome` stores. -/
structure DeepPayload where
  diagnostic : Stored CandidateDiagnostic
  rule : Stored StockRuleEngineResult
  enriched : Stored Candidate

/-! ### The calls -/

structure EnsureResult where
  readiness : Option ResearchReadinessResult
  failures : Failures

structure Ranked where
  rankEligible : Bool
  eligibilityReasons : List String

/-- What the collaborators answer while one candidate is evaluated. -/
structure Calls where
  acquire : Except String (Option EnsureResult)
  read : Except String (Option ResearchReadinessResult)
  eligibility : Except String AnalysisEligibility
  enrich : Except String (List Candidate)
  analyze : Except String StockRuleEngineResult
  priorFailure : String → Except String (Option String)
  score : Except String Ranked

/-- What Stage 2 is set up with. -/
structure Setup where
  discoveryV2 : Bool
  repairPasses : Nat
  baselineFailures : Table InstrumentId String
  enrichedById : Table InstrumentId Candidate

/-! ### The local variables -/

structure Sheet where
  diagnostics : List CandidateDiagnostic
  counts : Counts
  evaluated : Int
  deepAttempted : Int
  deepRepairAttempted : Int
  deepRepairRecovered : Int
  rules : Table InstrumentId StockRuleEngineResult
  byId : Table InstrumentId Candidate
  stageB : List Candidate
  successful : List Candidate
  localAttempts : InstrumentId → Nat
  repairing : List InstrumentId
  checkpoint : Option (CycleCheckpoint DeepPayload)

namespace Sheet

def count (s : Sheet) (counters : List Counter) : Sheet :=
  { s with counts := s.counts + tally counters }

def uncount (s : Sheet) (counters : List Counter) : Sheet :=
  { s with counts := s.counts - tally counters }

def record (s : Sheet) (d : CandidateDiagnostic) : Sheet :=
  { s with diagnostics := s.diagnostics ++ [d] }

/-- `_last_diagnostic`. -/
def lastDiagnostic (s : Sheet) (key : InstrumentId) : Option CandidateDiagnostic :=
  s.diagnostics.reverse.find? fun d => d.globalInstrumentId = key

end Sheet

/-! ### Reading the answers -/

/-- The readiness snapshot of the acquisition, or else an explicit read. -/
def readinessOf (calls : Calls) (ensured : EnsureResult) :
    Except String (Option ResearchReadinessResult) :=
  match ensured.readiness with
  | some readiness => .ok (some readiness)
  | none => calls.read

/-- The candidate the rules are followed by: refreshed under the second discovery version. -/
def refresh (setup : Setup) (calls : Calls) (candidate : Candidate) : Except String Candidate :=
  let enriched := (setup.enrichedById candidate.globalInstrumentId).getD candidate
  if setup.discoveryV2 then
    match calls.enrich with
    | .ok refreshed => .ok (refreshed.head?.getD enriched)
    | .error e => .error e
  else .ok enriched

/-- Enrichment and rule engine, under the handler of their own. -/
def runRules (setup : Setup) (calls : Calls) (candidate : Candidate) :
    Except String (Candidate × StockRuleEngineResult) :=
  match refresh setup calls candidate with
  | .error e => .error e
  | .ok enriched =>
      match calls.analyze with
      | .error e => .error e
      | .ok result => .ok (enriched, result)

def unscorableAreas (result : StockRuleEngineResult) : List RuleEngineArea :=
  (result.areaScores.filter fun area => area.applicable ∧ area.status = .unscorable ∧
    area.area ≠ .newsGeopoliticalEvents).map AreaScoreResult.area

/-- `by_area.get(area, area)`. -/
def requirementOfArea (readiness : ResearchReadinessResult) (area : RuleEngineArea) : String :=
  match readiness.requirements.reverse.find? fun item => item.ruleEngineArea = area with
  | some item => item.requirementId
  | none => area.text

/-- `_incomplete_analysis`: what blocks a result that is not a full one. -/
def incompleteAnalysis (result : StockRuleEngineResult) (readiness : ResearchReadinessResult) :
    Option (List String) :=
  let unscorable := unscorableAreas result
  if result.eligibility.fullAnalysisAllowed ∧ result.isPartial = false ∧ unscorable = [] then none
  else
    let blocking := sortedSet (result.eligibility.blockingRequirements ++
      unscorable.map (requirementOfArea readiness))
    some (if blocking = [] then ["RULE_ENGINE_RESULT_NOT_FULL"] else blocking)

/-- The reasons so far and `RULE_AREA_UNSCORABLE`, each once. -/
def withUnscorable (prior : String) : String :=
  String.intercalate "|"
    (keepFirst id ((splitBar prior).filter (· ≠ "") ++ ["RULE_AREA_UNSCORABLE"]))

/-- One requirement of `_unscorable_failures`. -/
def noteUnscorable (calls : Calls) (failures : Failures) (requirement : String) :
    Except String Failures :=
  match (failures.get? requirement).filter (· ≠ "") with
  | some prior => .ok (failures.set requirement (withUnscorable prior))
  | none =>
      match calls.priorFailure requirement with
      | .ok prior => .ok (failures.set requirement (withUnscorable (prior.getD "")))
      | .error e => .error e

/-- `_unscorable_failures`. -/
def unscorableFailures (calls : Calls) (blocking : List String) (cycleFailures : Failures) :
    Except String Failures :=
  blocking.foldlM (noteUnscorable calls) (blockingFailures cycleFailures blocking)

/-! ### The branches of the body -/

/-- What the body returns or raises, and the variables as it leaves them. -/
abbrev Outcome := Except String Unit × Sheet

/-- No readiness snapshot was produced. -/
def sourceUnavailable (setup : Setup) (key : InstrumentId) (s : Sheet) : Sheet :=
  let reason := (setup.baselineFailures key).getD "DEEP_SOURCE_UNAVAILABLE"
  (s.count [.deepSourceUnavailable]).record
    { globalInstrumentId := key, status := .suppressed, failureReason := some reason
      suppressionReasons := [reason], disposition := some .deepSourceUnavailable }

def timedOut (failures : Failures) : Bool :=
  failures.values.any (occursIn "ACQUISITION_TIMEOUT")

/-- Mandatory evidence is missing: the rule engine is not called. -/
def notReady (key : InstrumentId) (failures : Failures) (eligibility : AnalysisEligibility)
    (s : Sheet) : Sheet :=
  let blocking := eligibility.blockingRequirements
  let failureClass := if timedOut failures then some .technicalRetryable
    else classifyRequirementFailures failures blocking
  let counted :=
    if timedOut failures then s.count [.deepAcquisitionTimeout]
    else if failureClass = some .technicalRetryable then
      (s.count [.deepReadinessFailed]).count [.deepTechnicalFailure]
    else s.count [.deepReadinessFailed]
  counted.record
    { globalInstrumentId := key, status := .suppressed, failureReason := some eligibility.reason
      suppressionReasons := if blocking = [] then [eligibility.reason] else blocking
      disposition := some
        (if timedOut failures then .deepAcquisitionTimeout else .deepReadinessNotMet)
      failureClass := failureClass
      acquisitionFailures := blockingFailures failures blocking }

/-- The rule engine raised. -/
def ruleEngineRaised (key : InstrumentId) (s : Sheet) : Sheet :=
  (s.count [.ruleException]).record
    { globalInstrumentId := key, status := .suppressed
      failureReason := some "RULE_ENGINE_EXCEPTION"
      suppressionReasons := ["RULE_ENGINE_EXCEPTION"], disposition := some .ruleEngineException }

/-- The readiness gate was open and the rules could not score. -/
def unscorable (calls : Calls) (key : InstrumentId) (failures : Failures)
    (result : StockRuleEngineResult) (blocking : List String) (s : Sheet) : Outcome :=
  match unscorableFailures calls blocking failures with
  | .error e => (.error e, s)
  | .ok acquisitionFailures =>
      let failureClass := classifyRequirementFailures acquisitionFailures blocking
      let counted := (s.uncount [.deepReady]).count [.deepReadinessFailed]
      let counted := if failureClass = some .technicalRetryable then
        counted.count [.deepTechnicalFailure] else counted
      (.ok (), counted.record
        { globalInstrumentId := key, status := .suppressed
          failureReason := some (if result.eligibility.fullAnalysisAllowed then
            "APPLICABLE_RULE_ENGINE_AREA_UNSCORABLE" else result.eligibility.reason)
          suppressionReasons := blocking, disposition := some .deepReadinessNotMet
          failureClass := failureClass, acquisitionFailures := acquisitionFailures })

/-- The analysis is full: rank the candidate. -/
def rank (calls : Calls) (key : InstrumentId) (enriched : Candidate)
    (result : StockRuleEngineResult) (s : Sheet) : Outcome :=
  let s := { s.count [.ruleAnalyzed] with
    evaluated := s.evaluated + 1, rules := s.rules.put key result }
  match calls.score with
  | .error e => (.error e, s)
  | .ok ranked =>
      let s := { s with byId := s.byId.put key enriched, stageB := s.stageB ++ [enriched] }
      if ranked.rankEligible then
        (.ok (), { s.record { globalInstrumentId := key, status := .rankEligible,
                              rankEligible := true, disposition := some .analyzed } with
          successful := s.successful ++ [enriched] })
      else
        (.ok (), s.record { globalInstrumentId := key, status := .suppressed,
                            suppressionReasons := ranked.eligibilityReasons,
                            disposition := some .rankFiltered })

/-- The readiness gate is open. -/
def analyzeReady (setup : Setup) (calls : Calls) (candidate : Candidate) (failures : Failures)
    (readiness : ResearchReadinessResult) (s : Sheet) : Outcome :=
  let key := candidate.globalInstrumentId
  let s := s.count [.deepReady]
  match runRules setup calls candidate with
  | .error _ => (.ok (), ruleEngineRaised key s)
  | .ok (enriched, result) =>
      match incompleteAnalysis result readiness with
      | some blocking => unscorable calls key failures result blocking s
      | none => rank calls key enriched result s

/-- The body of the `try`. -/
def body (setup : Setup) (calls : Calls) (candidate : Candidate) (s : Sheet) : Outcome :=
  let key := candidate.globalInstrumentId
  match calls.acquire with
  | .error e => (.error e, s)
  | .ok none => (.ok (), sourceUnavailable setup key s)
  | .ok (some ensured) =>
      match readinessOf calls ensured with
      | .error e => (.error e, s)
      | .ok none => (.ok (), sourceUnavailable setup key s)
      | .ok (some readiness) =>
          match calls.eligibility with
          | .error e => (.error e, s)
          | .ok eligibility =>
              if eligibility.fullAnalysisAllowed then
                analyzeReady setup calls candidate ensured.failures readiness s
              else (.ok (), notReady key ensured.failures eligibility s)

/-! ### Handler and `finally` -/

/-- The `except Exception` of the body. -/
def handle (key : InstrumentId) : Outcome → Sheet
  | (.ok (), s) => s
  | (.error reason, s) =>
      let disposition := dispositionOfFailure reason
      (if disposition = .stage2InternalError then s.count [.stage2InternalError] else s).record
        { globalInstrumentId := key, status := .suppressed
          failureReason := some disposition.text, disposition := some disposition }

/-- `_checkpoint_deep_outcome`. -/
def checkpointDeepOutcome (key : InstrumentId) (s : Sheet)
    (checkpoint : CycleCheckpoint DeepPayload) : CycleCheckpoint DeepPayload :=
  let diagnostic := s.lastDiagnostic key
  let disposition := match diagnostic with
    | some d => d.disposition
    | none => some .stage2InternalError
  checkpoint.finish .deep key
    (match diagnostic with
    | some d => d.rowState
    | none => stateForDisposition disposition)
    (disposition.map Disposition.text) (diagnostic.bind CandidateDiagnostic.failureReason)
    (some { diagnostic := Stored.ofOption diagnostic, rule := Stored.ofOption (s.rules key)
            enriched := Stored.ofOption (s.byId key) })

/-- The `finally` of a body that was completed. -/
def settle (key : InstrumentId) (s : Sheet) : Sheet :=
  { s with
    checkpoint := s.checkpoint.map (checkpointDeepOutcome key s)
    repairing := s.repairing.filter (· ≠ key)
    deepRepairRecovered := s.deepRepairRecovered +
      if key ∈ s.repairing ∧ (s.rules key).isSome then 1 else 0 }

/-- A live evaluation. -/
def evaluate (setup : Setup) (calls : Calls) (candidate : Candidate) (s : Sheet) : Sheet :=
  settle candidate.globalInstrumentId
    (handle candidate.globalInstrumentId (body setup calls candidate s))

end InvestmentPlatform.Stage2
