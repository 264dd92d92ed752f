/-
The requirement-scoped investigation of one instrument, `app/deep_investigation.py`.

The readiness on file, the acquisition and the observations are behind the runtime, which answers
from a world of its own; what it is asked and what it answers is kept in a log.  The timing, the
logger and the identity headers are left out, and `background_tasks` is `None`.
-/
import InvestmentPlatform.Stage2.Taxonomy

namespace InvestmentPlatform.Evidence.Investigation

/-- The requirements of `ResearchRequirementRegistry.default()`. -/
inductive RequirementId
  | valuationInputs | businessQualityFacts | growthFacts | balanceSheetFacts
  | quarterlyFinancials | orderBookCapexGuidance | latestPrice | historicalPriceSeries
  | currentNews | shareholding | governanceHistory | sectorMacro
  deriving DecidableEq, Repr

namespace RequirementId

def text : RequirementId → String
  | .valuationInputs => "VALUATION_INPUTS"
  | .businessQualityFacts => "BUSINESS_QUALITY_FACTS"
  | .growthFacts => "GROWTH_FACTS"
  | .balanceSheetFacts => "BALANCE_SHEET_FACTS"
  | .quarterlyFinancials => "QUARTERLY_FINANCIALS"
  | .orderBookCapexGuidance => "ORDER_BOOK_CAPEX_GUIDANCE"
  | .latestPrice => "LATEST_PRICE"
  | .historicalPriceSeries => "HISTORICAL_PRICE_SERIES"
  | .currentNews => "CURRENT_NEWS"
  | .shareholding => "SHAREHOLDING"
  | .governanceHistory => "GOVERNANCE_HISTORY"
  | .sectorMacro => "SECTOR_MACRO"

/-- In the order of the registry. -/
def all : List RequirementId :=
  [.valuationInputs, .businessQualityFacts, .growthFacts, .balanceSheetFacts,
    .quarterlyFinancials, .orderBookCapexGuidance, .latestPrice, .historicalPriceSeries,
    .currentNews, .shareholding, .governanceHistory, .sectorMacro]

end RequirementId

inductive Status
  | readyFresh | readyStale | partialEvidence | missing | conflicting | unsupported | notApplicable
  | refreshing | failed
  deriving DecidableEq, Repr

inductive SourceTier
  | official | regulatory | trustedMarketData | licensedStructured | approvedSecondary
  | approvedExternalTool | userUpload | unverified
  deriving DecidableEq, Repr

/-- A `ResearchRequirementReadiness`, with what the investigation reads of it. -/
structure Row where
  mandatory : Bool
  status : Status
  source : Option String
  sourceTier : Option SourceTier
  missingInputIds : List String
  applicability : String
  applicabilityReason : Option String
  classification : Option String
  classificationSource : Option String
  notApplicableInputReasons : List (String × String)
  /-- Of its freshness policy, in days. -/
  maximumAge : Option Nat
  scoringWindow : Option Nat
  deriving DecidableEq, Repr

/-- A `ResearchReadinessResult`: the registry's requirements, each with its row. -/
structure Readiness where
  row : RequirementId → Row
  generatedAt : Int

/-- A row of `acquisition_observations_for`. -/
structure Observation where
  requirementId : String
  provider : String
  outcome : String
  failureReason : Option String
  observedAt : Option String
  deriving DecidableEq, Repr

/-! ### The plan -/

structure DeepInvestigationPlan where
  requiredEvidence : List RequirementId
  optionalEvidence : List RequirementId
  notApplicableEvidence : List String
  alreadySatisfied : List RequirementId
  acquisitionNeeded : List RequirementId

/-- `build_plan` with `deep_selected`. -/
def buildPlan (readiness : Readiness) : DeepInvestigationPlan :=
  let required := RequirementId.all.filter fun id => (readiness.row id).mandatory
  let na := RequirementId.all.filter fun id => (readiness.row id).status = .notApplicable
  let excludedConcepts := RequirementId.all.flatMap fun id =>
    (Selection.sortOn (fun key : String => key)
      ((readiness.row id).notApplicableInputReasons.map Prod.fst)).map fun key =>
        id.text ++ "/" ++ key
  let satisfied := RequirementId.all.filter fun id => (readiness.row id).status = .readyFresh
  { requiredEvidence := required
    optionalEvidence := RequirementId.all.filter fun id => ¬ (readiness.row id).mandatory
    notApplicableEvidence := na.map RequirementId.text ++ excludedConcepts
    alreadySatisfied := satisfied
    acquisitionNeeded := RequirementId.all.filter fun id =>
      (id ∈ required ∨ id = .orderBookCapexGuidance) ∧ id ∉ na ∧ id ∉ satisfied }

/-- `selected`: what is needed, and the quarterly evidence where it is required. -/
def DeepInvestigationPlan.selected (plan : DeepInvestigationPlan) (id : RequirementId) : Bool :=
  id ∈ plan.acquisitionNeeded || (id = .quarterlyFinancials && id ∈ plan.requiredEvidence)

/-! ### The budget of an acquisition -/

def singletonMaxDocuments : Int := 4

def singletonMaxQueries : Int := 2

structure RequirementAcquisitionBudget where
  requirementId : String
  asOf : Int
  maxDocuments : Int
  maxQueries : Int
  lookback : Option Nat
  documentsAttempted : Int := 0
  queriesReserved : Int := 0
  stopped : Bool := false
  exhausted : Bool := false
  failures : List String := []
  requirementFailures : Dict RequirementId String := .empty
  discoveryOutcome : Dict String Nat := .empty
  discoveryAttempted : Bool := false
  memberRequirementIds : List RequirementId := []
  /-- The calls of `allow_document` that wait for `sufficient()`. -/
  waiting : Nat := 0

/-- What the tasks of an acquisition do with its budget, one step between awaits at a time. -/
inductive BudgetAction
  /-- A call of `allow_document` begins. -/
  | allowDocument
  /-- One of the calls has its answer from `sufficient()`. -/
  | sufficient (answer : Bool)
  /-- `sufficient()` raised, or the call was cancelled. -/
  | abandoned
  | reserveQueries (requested : Nat)
  | failed (reason : String)
  | requirementFailed (id : RequirementId) (reason : String)
  | discovered (category : String) (candidates : Nat)

namespace RequirementAcquisitionBudget

variable (budget : RequirementAcquisitionBudget)

/-- `allow_document`, up to its `await`. -/
def allowDocument : RequirementAcquisitionBudget :=
  if budget.stopped then budget else { budget with waiting := budget.waiting + 1 }

/-- `allow_document`, from the answer of `sufficient()` on. -/
def answered (answer : Bool) : RequirementAcquisitionBudget :=
  if answer then { budget with stopped := true }
  else if budget.maxDocuments ≤ budget.documentsAttempted then { budget with exhausted := true }
  else { budget with documentsAttempted := budget.documentsAttempted + 1 }

def reserveQueries (requested : Int) : RequirementAcquisitionBudget :=
  let allowed := min requested (budget.maxQueries - budget.queriesReserved)
  { budget with
    queriesReserved := budget.queriesReserved + allowed
    exhausted := budget.exhausted || allowed = 0 }

def act : BudgetAction → RequirementAcquisitionBudget
  | .allowDocument => budget.allowDocument
  | .sufficient answer =>
    if budget.waiting = 0 then budget
    else { budget with waiting := budget.waiting - 1 }.answered answer
  | .abandoned => { budget with waiting := budget.waiting - 1 }
  | .reserveQueries requested => budget.reserveQueries requested
  | .failed reason => { budget with failures := budget.failures ++ [reason] }
  | .requirementFailed id reason =>
    { budget with requirementFailures := budget.requirementFailures.set id reason }
  | .discovered category candidates =>
    { budget with
      discoveryOutcome := budget.discoveryOutcome.set category candidates
      discoveryAttempted := true }

def run (actions : List BudgetAction) : RequirementAcquisitionBudget := actions.foldl act budget

end RequirementAcquisitionBudget

/-! ### The runtime -/

structure TargetedEnsureResult where
  plannedRequirementIds : List RequirementId
  executedCapabilities : List String
  failures : Dict RequirementId String

/-- How a call of `runtime.ensure` ends, and what was done with the budget until then. -/
structure EnsureOutcome where
  during : List BudgetAction
  /-- An exception is known by the name of its type. -/
  result : Except String TargetedEnsureResult

structure Runtime (W : Type) where
  /-- `read`, with `evidence_only`. -/
  read : Bool → W → Readiness × W
  ensure : List RequirementId → RequirementAcquisitionBudget → W → EnsureOutcome × W
  acquisitionObservationsFor : W → List Observation
  /-- `record_acquisition_observation` of a failure, for `READINESS_EXECUTOR`. -/
  recordAcquisitionObservation : RequirementId → String → W → W
  /-- `financial_authority_upgrade_due`, where the repository has it. -/
  financialAuthorityUpgradeDue : Int → Row → W → Bool

def capabilityGroups : List (List RequirementId) :=
  [[.valuationInputs, .latestPrice, .sectorMacro],
    [.businessQualityFacts, .growthFacts, .balanceSheetFacts, .quarterlyFinancials],
    [.orderBookCapexGuidance, .shareholding, .governanceHistory]]

/-- `_GROUP_FOR_REQUIREMENT.get(requirement_id)`. -/
def groupForRequirement (id : RequirementId) : Option (List RequirementId) :=
  capabilityGroups.find? (id ∈ ·)

def noSharedBudgetFailureAttribution : List RequirementId := [.shareholding]

def budgetExhaustionConsequences : List String :=
  ["DOCUMENT_BUDGET_EXHAUSTED", "DISCOVERY_QUERY_BUDGET_EXHAUSTED", "BUDGET_EXHAUSTED"]

/-! ### Prior observations -/

/-- The latest of the rows, as `observed_at` reads. -/
def latestOf (rows : List Observation) : Option Observation :=
  Selection.firstMax (fun row => row.observedAt.getD "") rows

def providerRows (observations : List Observation) (id : RequirementId) : List Observation :=
  observations.filter fun row => row.requirementId = id.text ∧ row.provider ≠ "READINESS_EXECUTOR"

def priorFailure (observations : List Observation) (id : RequirementId) : Option String :=
  match latestOf (providerRows observations id) with
  | none => none
  | some latest =>
    if latest.outcome ≠ "FAILED" then none
    else
      match latest.failureReason with
      | none => some "PRIOR_ACQUISITION_FAILED"
      | some reason => if reason = "" then some "PRIOR_ACQUISITION_FAILED" else some reason

def priorReadinessExecutorVerdict (observations : List Observation) (id : RequirementId) :
    Option String :=
  match latestOf (observations.filter fun row =>
    row.requirementId = id.text ∧ row.provider = "READINESS_EXECUTOR") with
  | none => none
  | some latest =>
    if latest.outcome ≠ "FAILED" then none
    else
      match latest.failureReason with
      | none => none
      | some reason =>
        if reason = "" ∨ Stage2.classifyReason reason ≠ some .evidenceUnavailable then none
        else if Stage2.components reason |>.any (· = "EXTERNAL_CAPABILITY_UNSUPPORTED") then none
        else some reason

def priorSuccessEmpty (observations : List Observation) (id : RequirementId) : Bool :=
  match latestOf (providerRows observations id) with
  | none => false
  | some latest => latest.outcome = "SUCCESS_EMPTY"

/-! ### The investigation -/

/-- A row of the matrix that is returned. -/
structure MatrixRow where
  state : Status
  applicability : String
  applicabilityReason : Option String
  classification : Option String
  classificationSource : Option String
  excludedInputs : List (String × String)
  missing : List String
  source : Option String
  failure : Option String

/-- What was asked of the runtime, and answered. -/
inductive Event
  | visited (id : RequirementId) (row : Row)
  /-- The requirement is left alone for a verdict that is permanent. -/
  | skipped (id : RequirementId) (verdict : String)
  | ensured (ids : List RequirementId) (budget : RequirementAcquisitionBudget)
  /-- The look at a requirement after its own acquisition. -/
  | finalized (id : RequirementId) (look : Readiness)

structure Run (W : Type) where
  world : W
  failures : Dict RequirementId String := .empty
  attempted : List RequirementId := []
  capabilities : List String := []
  matrix : Dict RequirementId MatrixRow := .empty
  handled : List RequirementId := []
  log : List Event := []

/-- `_requirement_satisfied_from`, of the requirement's row. -/
def satisfiedRow (jurisdiction : String) (id : RequirementId) (row : Row) : Bool :=
  if row.status = .notApplicable then true
  else if row.status ≠ .readyFresh then false
  else if id = .quarterlyFinancials ∧ jurisdiction = "INDIA" then row.source = some "NSE"
  else true

def requirementSatisfiedFrom (jurisdiction : String) (readiness : Readiness)
    (id : RequirementId) : Bool :=
  satisfiedRow jurisdiction id (readiness.row id)

def lookbackFor (id : RequirementId) (row : Row) : Option Nat :=
  if id ∈ [RequirementId.quarterlyFinancials, .growthFacts, .businessQualityFacts,
      .balanceSheetFacts] then some 800
  else row.maximumAge.or row.scoringWindow

/-- The classification by what discovery found, where no technical failure is recorded. -/
def planReason (observations : List Observation) (id : RequirementId)
    (budget : RequirementAcquisitionBudget) : String :=
  let candidatesFound := budget.discoveryOutcome.values.foldl (· + ·) 0
  if ¬ budget.discoveryAttempted ∧ budget.documentsAttempted = 0 ∧ budget.queriesReserved = 0 then
    match priorFailure observations id with
    | some prior => "ACQUISITION_BACKOFF|" ++ prior
    | none =>
      if priorSuccessEmpty observations id then "PRIOR_ACQUISITION_EMPTY"
      else "ACQUISITION_NOT_DUE"
  else if candidatesFound = 0 then
    if id = .quarterlyFinancials then "DISCOVERY_NO_FINANCIAL_RESULTS_CANDIDATES"
    else "DISCOVERY_NO_CANDIDATES"
  else if budget.documentsAttempted = 0 then "DISCOVERY_ALL_CANDIDATES_REUSED_OR_UNSUPPORTED"
  else if budget.maxDocuments ≤ budget.documentsAttempted then "DOCUMENT_BUDGET_EXHAUSTED"
  else if budget.exhausted then "DISCOVERY_QUERY_BUDGET_EXHAUSTED"
  else "EVIDENCE_INSUFFICIENT_WITHIN_PLAN"

/-- The reason that `_finalize` gives for a requirement that is not satisfied. -/
def failureReason (observations : List Observation) (failures : Dict RequirementId String)
    (id : RequirementId) (budget : RequirementAcquisitionBudget) : String :=
  match budget.requirementFailures.get? id with
  | some reason => reason
  | none =>
    match budget.failures.getLast? with
    | some last =>
      if id ∈ noSharedBudgetFailureAttribution then recorded
      else
        -- a cause before what followed from it
        (budget.failures.find? (· ∉ budgetExhaustionConsequences)).getD last
    | none => recorded
where
  recorded : String :=
    match failures.get? id with
    | some reason => if reason = "" then planReason observations id budget else reason
    | none => planReason observations id budget

section

variable {W : Type} (runtime : Runtime W) (jurisdiction : String)

/-- `_finalize`. -/
def finalize (budget : RequirementAcquisitionBudget) (run : Run W) (id : RequirementId) : Run W :=
  let (look, world) := runtime.read true run.world
  let run := { run with world := world, log := run.log ++ [Event.finalized id look] }
  if requirementSatisfiedFrom jurisdiction look id then
    { run with failures := run.failures.pop id }
  else
    let reason := failureReason (runtime.acquisitionObservationsFor run.world) run.failures id budget
    { run with
      failures := run.failures.set id reason
      world := runtime.recordAcquisitionObservation id reason run.world }

/-- What is noted of a call of `ensure` when it has ended. -/
def Run.noted (run : Run W) (ids : List RequirementId) :
    Except String TargetedEnsureResult → Run W
  | .ok result =>
    { run with
      attempted := run.attempted ++ result.plannedRequirementIds
      capabilities := run.capabilities ++ result.executedCapabilities
      failures := result.failures.items.foldl (fun d item => d.set item.1 item.2) run.failures }
  | .error name => { run with failures := ids.foldl (fun d id => d.set id name) run.failures }

/-- The call of `ensure` for the requirements, and the look at each of them afterwards. -/
def acquireWith (budget : RequirementAcquisitionBudget) (ids : List RequirementId) (run : Run W) :
    Run W :=
  let (outcome, world) := runtime.ensure ids budget run.world
  let run := { run with world := world, log := run.log ++ [Event.ensured ids budget] }
  ids.foldl (finalize runtime jurisdiction (budget.run outcome.during)) (run.noted ids outcome.result)

/-- `_acquire`. -/
def acquire (id : RequirementId) (row : Row) (readiness : Readiness) (run : Run W) : Run W :=
  acquireWith runtime jurisdiction
    { requirementId := id.text
      asOf := readiness.generatedAt
      maxDocuments := singletonMaxDocuments
      maxQueries := singletonMaxQueries
      lookback := lookbackFor id row } [id] run

/-- The longest of the members' lookbacks, or none where one of them has none. -/
def groupLookback (rows : List (RequirementId × Row)) : Option Nat :=
  (rows.mapM fun member => lookbackFor member.1 member.2).bind List.max?

/-- `_acquire_group`. -/
def acquireGroup (rows : List (RequirementId × Row)) (readiness : Readiness) (run : Run W) :
    Run W :=
  let ids := rows.map Prod.fst
  acquireWith runtime jurisdiction
    { requirementId := "+".intercalate (ids.map RequirementId.text)
      asOf := readiness.generatedAt
      maxDocuments := singletonMaxDocuments * ids.length
      maxQueries := singletonMaxQueries * ids.length
      lookback := groupLookback rows
      memberRequirementIds := ids } ids run

/-- The reading of a requirement when its turn comes, with `_snapshot`. -/
def look (id : RequirementId) (run : Run W) : Readiness × Run W :=
  let (readiness, world) := runtime.read false run.world
  let row := readiness.row id
  (readiness,
    { run with
      world := world
      matrix := run.matrix.set id
        { state := row.status
          applicability := row.applicability
          applicabilityReason := row.applicabilityReason
          classification := row.classification
          classificationSource := row.classificationSource
          excludedInputs := row.notApplicableInputReasons
          missing := row.missingInputIds
          source := row.source
          failure := none }
      handled := run.handled ++ [id]
      log := run.log ++ [Event.visited id row] })

/-- A verdict that a newly eligible authority may still overturn. -/
def mayUpgrade (id : RequirementId) (row : Row) (verdict : Option String) : Bool :=
  ((verdict = some "PRIMARY_FINANCIAL_PROVIDER_RETURNED_NO_FACTS" &&
      id ∈ [RequirementId.businessQualityFacts, .growthFacts]) ||
    (verdict = some "DOCUMENT_SIZE_LIMIT_EXCEEDED" &&
      id ∈ [RequirementId.businessQualityFacts, .growthFacts, .balanceSheetFacts,
        .quarterlyFinancials])) &&
  jurisdiction = "INDIA" && row.missingInputIds ≠ []

/-- The requirement needs nothing, as its row has it when it is visited. -/
def restsAt (id : RequirementId) (row : Row) : Bool :=
  row.status = .notApplicable || (row.status = .readyFresh &&
    (id ≠ .quarterlyFinancials || jurisdiction ≠ "INDIA" ||
      (row.source = some "NSE" && row.sourceTier = some .official)))

variable (plan : DeepInvestigationPlan)

/-- `_requires_acquisition`. -/
def requiresAcquisition (id : RequirementId) (readiness : Readiness) (run : Run W) :
    Bool × Run W :=
  let row := readiness.row id
  if restsAt jurisdiction id row then (false, run)
  else if ¬ plan.selected id then (false, run)
  else
    let verdict := priorReadinessExecutorVerdict (runtime.acquisitionObservationsFor run.world) id
    if mayUpgrade jurisdiction id row verdict ∧
        runtime.financialAuthorityUpgradeDue readiness.generatedAt row run.world then (true, run)
    else
      match verdict with
      | some reason =>
        (false, { run with
          failures := run.failures.set id reason
          log := run.log ++ [Event.skipped id reason] })
      | none => (true, run)

/-- A member of the group of a requirement that is about to be acquired. -/
def lookAhead (members : List (RequirementId × Row) × Run W) (other : RequirementId) :
    List (RequirementId × Row) × Run W :=
  if other ∈ members.2.handled then members
  else
    let (readiness, run) := look runtime other members.2
    let (needed, run) := requiresAcquisition runtime jurisdiction plan other readiness run
    if needed then (members.1 ++ [(other, readiness.row other)], run) else (members.1, run)

/-- One turn of the loop over the requirements. -/
def visit (run : Run W) (id : RequirementId) : Run W :=
  if id ∈ run.handled then run
  else
    let (readiness, run) := look runtime id run
    let (needed, run) := requiresAcquisition runtime jurisdiction plan id readiness run
    if ¬ needed then run
    else
      match groupForRequirement id with
      | none => acquire runtime jurisdiction id (readiness.row id) readiness run
      | some group =>
        let (rows, run) :=
          group.foldl (lookAhead runtime jurisdiction plan) ([(id, readiness.row id)], run)
        acquireGroup runtime jurisdiction rows readiness run

structure Result where
  readiness : Readiness
  attempted : List RequirementId
  capabilities : List String
  failures : Dict RequirementId String
  plan : DeepInvestigationPlan
  matrix : Dict RequirementId MatrixRow
  log : List Event

/-- `matrix[requirement_id].update(..)`, which wants a row that is there. -/
def closeRow (readiness : Readiness) (failures : Dict RequirementId String)
    (matrix : Dict RequirementId MatrixRow) (id : RequirementId) :
    Option (Dict RequirementId MatrixRow) :=
  let row := readiness.row id
  (matrix.get? id).map fun old =>
    matrix.set id { old with
      state := row.status
      missing := row.missingInputIds
      source := row.source
      failure := failures.get? id }

/-- `investigate`, nothing where it raises a `KeyError`. -/
def investigate (world : W) : Option Result :=
  let (first, world) := runtime.read false world
  let plan := buildPlan first
  let run := (plan.requiredEvidence ++ plan.optionalEvidence).foldl
    (visit runtime jurisdiction plan) { world := world }
  let (readiness, _) := runtime.read false run.world
  (RequirementId.all.foldlM (closeRow readiness run.failures) run.matrix).map fun matrix =>
    { readiness := readiness
      attempted := run.attempted.eraseDups
      capabilities := run.capabilities.eraseDups
      failures := run.failures
      plan := plan
      matrix := matrix
      log := run.log }

end

end InvestmentPlatform.Evidence.Investigation
