/-
What readiness is judged by, `app/research_readiness.py`: evidence, how long it stays fresh, whose
word counts more, and where the evidence contradicts itself.

Times are aware datetimes, as microseconds of UTC.  `fold` is what is made of a fingerprint before
it is compared, `str(value).strip().casefold()`.
-/
import InvestmentPlatform.Lib.PyFloat
import InvestmentPlatform.Lib.Selection
import InvestmentPlatform.Rules.Input
import Mathlib.Data.Prod.Lex
import Mathlib.Data.String.Basic

namespace InvestmentPlatform.Readiness

open Rules (ResearchSourceTier)
open Selection (firstMin sortOn sortedSet)

/-- A datetime, in microseconds. -/
abbrev Time := Int

/-- `datetime.timestamp`, a float of seconds. -/
def timestamp (time : Time) : Rat :=
  if 0 ≤ time then nearestDouble ((time : Rat) / 1000000) else -nearestDouble (-(time : Rat) / 1000000)

/-- `ResearchEvidence`, of one requirement; its confidence is not read here. -/
structure ResearchEvidence where
  evidenceId : String
  source : String
  sourceTier : ResearchSourceTier
  retrievedAt : Time
  asOf : Option Time := none
  publishedAt : Option Time := none
  eventDate : Option Time := none
  validUntil : Option Time := none
  factKey : Option String := none
  valueFingerprint : Option String := none
  complete : Bool := true
  unresolved : Bool := false
  sourceUrl : Option String := none
  coveredInputIds : List String := []
  deriving DecidableEq, Repr

/-! ### Freshness -/

inductive FreshnessDateBasis
  | asOfOrRetrieved | eventOrPublication
  deriving DecidableEq, Repr

/-- `FreshnessPolicy`, without its mode and its description, which nothing here reads. -/
structure FreshnessPolicy where
  maximumAge : Option Int
  dateBasis : FreshnessDateBasis := .asOfOrRetrieved
  scoringWindow : Option Int := none
  retainWhileUnresolved : Bool := false
  deriving DecidableEq, Repr

namespace FreshnessPolicy

variable (policy : FreshnessPolicy) (evidence : ResearchEvidence) (now : Time)

def evidenceTime : Option Time :=
  match policy.dateBasis with
  | .eventOrPublication => evidence.eventDate.or evidence.publishedAt
  | .asOfOrRetrieved => some ((evidence.asOf.or evidence.publishedAt).getD evidence.retrievedAt)

def age : Option Int := (policy.evidenceTime evidence).map fun anchor => now - anchor

def isFresh : Bool :=
  if policy.retainWhileUnresolved && evidence.unresolved then true
  else
    match evidence.validUntil with
    | some valid => decide (now ≤ valid)
    | none =>
      match policy.age evidence now with
      | none => false
      | some age => decide (0 ≤ age) && policy.maximumAge.all fun maximum => decide (age ≤ maximum)

/-- `score_input_evidence`. -/
def scoreInputEvidence (evidence : List ResearchEvidence) : List ResearchEvidence :=
  match policy.scoringWindow with
  | none => evidence
  | some window => evidence.filter fun item =>
      (item.eventDate.or item.publishedAt).any fun event =>
        decide (now - window ≤ event) && decide (event ≤ now)

end FreshnessPolicy

/-! ### Authority -/

/-- `_SOURCE_TIER_AUTHORITY`. -/
def sourceTierAuthority : ResearchSourceTier → Nat
  | .official => 0
  | .regulatory => 1
  | .trustedMarketData => 2
  | .licensedStructured => 3
  | .approvedSecondary => 4
  | .approvedExternalTool => 5
  | .userUpload => 6
  | .unverified => 7

/-- `ProviderAuthorityPolicy`: its sources, in their order. -/
structure ProviderAuthorityPolicy where
  sources : List String
  deriving DecidableEq, Repr

namespace ProviderAuthorityPolicy

variable (authority : ProviderAuthorityPolicy) (evidence : ResearchEvidence)

def rank : Nat ×ₗ Nat :=
  match authority.sources.findIdx? (· = evidence.source) with
  | some index => toLex (index, sourceTierAuthority evidence.sourceTier)
  | none => toLex (authority.sources.length + 1, sourceTierAuthority evidence.sourceTier)

/-- The key by which evidence is put in order. -/
def orderKey : (Nat ×ₗ Nat) ×ₗ Rat ×ₗ Rat ×ₗ String :=
  toLex (authority.rank evidence,
    toLex (-timestamp ((evidence.asOf.or evidence.publishedAt).getD evidence.retrievedAt),
      toLex (-timestamp evidence.retrievedAt, evidence.evidenceId)))

end ProviderAuthorityPolicy

/-! ### Conflicts -/

structure ConflictResolution where
  selected : Option ResearchEvidence
  conflictReason : Option String
  deriving DecidableEq, Repr

/-- The evidence that names a fact and says what it is. -/
def keyedEvidence (evidence : List ResearchEvidence) : List ResearchEvidence :=
  evidence.filter fun item => item.factKey.any (· ≠ "") && item.valueFingerprint.isSome

/-- The conflict about one fact, among the evidence of the best rank. -/
def conflictAbout (fold : String → String) (authority : ProviderAuthorityPolicy)
    (keyed : List ResearchEvidence) (factKey : String) : Option String :=
  let candidates := keyed.filter fun item => item.factKey = some factKey
  let bestRank := (firstMin authority.rank candidates).map authority.rank
  let peers := candidates.filter fun item => some (authority.rank item) = bestRank
  let values := (peers.filterMap ResearchEvidence.valueFingerprint).map fold
  if 1 < values.dedup.length then
    some ("EQUAL_AUTHORITY_CONFLICT:" ++ factKey ++ ":" ++
      ",".intercalate (sortOn id (peers.map ResearchEvidence.evidenceId)))
  else none

/-- `ResearchConflictResolver.resolve`. -/
def resolve (fold : String → String) (authority : ProviderAuthorityPolicy)
    (evidence : List ResearchEvidence) : ConflictResolution :=
  let keyed := keyedEvidence evidence
  { selected := firstMin authority.orderKey evidence
    conflictReason :=
      (sortedSet (keyed.filterMap ResearchEvidence.factKey)).findSome? (conflictAbout fold authority keyed) }

end InvestmentPlatform.Readiness

/-!
The readiness of a requirement, `ResearchReadinessService._classify` of `app/research_readiness.py`.

A requirement asks for inputs, and evidence covers inputs; evidence that names none covers them all.
The freshness of an input is that of any complete evidence that covers it; the blockers of a stale
requirement are found by the most authoritative one.  What only annotates a result (its actions, its
applicability, its concepts) is left out.
-/

namespace InvestmentPlatform.Readiness

open Rules (ResearchRequirementStatus RuleEngineArea)
open Selection (firstMin sortOn)

inductive ResearchRequirementImportance
  | mandatory | important | supporting
  deriving DecidableEq, Repr

structure ResearchRequirementInput where
  inputId : String
  importance : ResearchRequirementImportance
  deriving DecidableEq, Repr

/-- `ResearchRequirement`; the ids of its inputs are unique. -/
structure ResearchRequirement where
  requirementId : String
  ruleEngineArea : RuleEngineArea
  mandatory : Bool
  freshnessPolicyId : String
  minimumEvidenceCount : Nat := 1
  inputs : List ResearchRequirementInput := []
  nodup : (inputs.map ResearchRequirementInput.inputId).Nodup

/-- What `RequirementApplicability` says of a requirement. -/
structure RequirementApplicability where
  state : String := "APPLICABLE"
  excludedInputs : List String := []
  deriving DecidableEq, Repr

/-- What a durable snapshot holds of one requirement. -/
structure RequirementSnapshot where
  evidence : List ResearchEvidence := []
  applicability : RequirementApplicability := {}
  newsReadiness : Option String := none
  /-- The outcomes of the recorded attempts. -/
  outcomes : List String := []
  supported : Bool := true
  refreshing : Bool := false
  failureReason : Option String := none
  deriving DecidableEq, Repr

structure ResearchRequirementReadiness where
  requirementId : String
  ruleEngineArea : RuleEngineArea
  mandatory : Bool
  status : ResearchRequirementStatus
  /-- The evidence whose source and dates are reported. -/
  selected : Option ResearchEvidence
  age : Option Int
  evidenceIds : List String
  missingReason : Option String
  conflictReason : Option String
  coveredInputIds : List String
  missingInputIds : List String
  coveragePct : Int
  criticalCoveragePct : Int
  deriving DecidableEq, Repr

/-! ### Inputs -/

def ResearchRequirement.inputIds (requirement : ResearchRequirement) : List String :=
  requirement.inputs.map ResearchRequirementInput.inputId

def ResearchRequirement.mandatoryInputs (requirement : ResearchRequirement) : List String :=
  (requirement.inputs.filter fun item => item.importance = .mandatory).map
    ResearchRequirementInput.inputId

/-- The requirement without the inputs that do not apply. -/
def ResearchRequirement.without (requirement : ResearchRequirement) (excluded : List String) :
    ResearchRequirement :=
  { requirement with
    inputs := requirement.inputs.filter fun item => item.inputId ∉ excluded
    nodup := requirement.nodup.sublist (List.filter_sublist.map _) }

/-- Evidence without inputs of its own covers them all. -/
def ResearchEvidence.covers (evidence : ResearchEvidence) (inputIds : List String)
    (inputId : String) : Bool :=
  if evidence.coveredInputIds = [] then decide (inputId ∈ inputIds)
  else decide (inputId ∈ evidence.coveredInputIds)

/-- The complete evidence that covers an input. -/
def candidates (inputIds : List String) (evidence : List ResearchEvidence) (inputId : String) :
    List ResearchEvidence :=
  evidence.filter fun item => item.complete && item.covers inputIds inputId

/-- `covered_input_ids`, in the order of the inputs. -/
def coveredInputIds (inputIds : List String) (evidence : List ResearchEvidence) : List String :=
  inputIds.filter fun inputId => !(candidates inputIds evidence inputId).isEmpty

/-- `round(100 * numerator / denominator)`. -/
def roundedPercentage (numerator denominator : Nat) : Int :=
  PyFloat.halfEven (nearestDouble (((100 * numerator : Nat) : Rat) / denominator))

def ResearchRequirementImportance.weight : ResearchRequirementImportance → Nat
  | .mandatory => 3
  | .important => 2
  | .supporting => 1

/-- The weight of the inputs that meet a test. -/
def weightOf (inputs : List ResearchRequirementInput) (p : String → Bool) : Nat :=
  inputs.foldr (fun item sum => (if p item.inputId then item.importance.weight else 0) + sum) 0

/-- `_requirement_coverage`: of all inputs by their weights, and of the mandatory ones. -/
def requirementCoverage (requirement : ResearchRequirement) (covered : List String)
    (hasEvidence : Bool) : Int × Int :=
  if requirement.inputs = [] then
    if hasEvidence then (100, 100) else (0, 0)
  else
    let denominator := weightOf requirement.inputs fun _ => true
    let numerator := weightOf requirement.inputs fun inputId => decide (inputId ∈ covered)
    let mandatory := requirement.mandatoryInputs
    let overall := if denominator = 0 then 0 else roundedPercentage numerator denominator
    (overall,
      if mandatory = [] then overall
      else roundedPercentage (mandatory.countP fun inputId => decide (inputId ∈ covered)) mandatory.length)

/-! ### Classification -/

/-- `_required_inputs_are_fresh`. -/
def requiredInputsAreFresh (fold : String → String) (requirement : ResearchRequirement)
    (authority : ProviderAuthorityPolicy) (policy : FreshnessPolicy) (now : Time)
    (evidence : List ResearchEvidence) : Bool :=
  if requirement.mandatoryInputs = [] then
    (resolve fold authority evidence).selected.any fun item => policy.isFresh item now
  else
    requirement.mandatoryInputs.all fun inputId =>
      (candidates requirement.inputIds evidence inputId).any fun item => policy.isFresh item now

/-- The mandatory inputs whose most authoritative evidence is stale, each with that evidence. -/
def blockers (requirement : ResearchRequirement) (authority : ProviderAuthorityPolicy)
    (policy : FreshnessPolicy) (now : Time) (evidence : List ResearchEvidence) :
    List (String × ResearchEvidence) :=
  requirement.mandatoryInputs.filterMap fun inputId =>
    match firstMin authority.orderKey (candidates requirement.inputIds evidence inputId) with
    | none => none
    | some chosen => if policy.isFresh chosen now then none else some (inputId, chosen)

/-- `min(.., key=(evidence_time, evidence_id))`; `None` and a time do not compare. -/
def oldest (policy : FreshnessPolicy) (evidence : List ResearchEvidence) : Option ResearchEvidence :=
  if evidence.all (fun item => (policy.evidenceTime item).isSome) ||
      evidence.all (fun item => (policy.evidenceTime item).isNone) then
    firstMin (fun item => toLex ((policy.evidenceTime item).getD 0, item.evidenceId)) evidence
  else none

/-- `_result`. -/
def result (requirement : ResearchRequirement) (status : ResearchRequirementStatus)
    (missingReason : Option String) : ResearchRequirementReadiness where
  requirementId := requirement.requirementId
  ruleEngineArea := requirement.ruleEngineArea
  mandatory := requirement.mandatory
  status := status
  selected := none
  age := none
  evidenceIds := []
  missingReason := missingReason
  conflictReason := none
  coveredInputIds := []
  missingInputIds := []
  coveragePct := (requirementCoverage requirement [] false).1
  criticalCoveragePct := (requirementCoverage requirement [] false).2

def newsStatus : String → Option ResearchRequirementStatus
  | "PARTIAL_SEARCH" => some .partialCoverage
  | "FAILED_SEARCH" => some .failed
  | "STALE_SEARCH" => some .readyStale
  | _ => none

/-- The evidence that is left where some inputs do not apply. -/
def durableEvidence (excluded : List String) (evidence : List ResearchEvidence) :
    List ResearchEvidence :=
  if excluded = [] then evidence
  else
    evidence.filter fun item =>
      item.coveredInputIds = [] ∨
        item.coveredInputIds.any fun inputId =>
          decide (inputId ∉ excluded) && inputId != "MATERIAL_CATALYST_EVIDENCE"

/-- The status of a requirement that is supported and applies, with its missing reason. -/
def evidenceStatus (fold : String → String) (requirement : ResearchRequirement)
    (authority : ProviderAuthorityPolicy) (policy : FreshnessPolicy) (now : Time)
    (snapshot : RequirementSnapshot) (durable eligible : List ResearchEvidence) :
    ResearchRequirementStatus × Option String :=
  let covered := coveredInputIds requirement.inputIds eligible
  let missingMandatory := requirement.mandatoryInputs.filter (· ∉ covered)
  if snapshot.refreshing then (.refreshing, none)
  else if (resolve fold authority eligible).conflictReason.any (· ≠ "") then (.conflicting, none)
  else if eligible = [] then
    match snapshot.failureReason.filter (· ≠ "") with
    | some failure => (.failed, some failure)
    | none =>
      (.missing,
        some (if snapshot.outcomes.any (· = "SUCCESS_EMPTY") then "NO_QUALIFYING_CURRENT_EVENTS"
          else if policy.scoringWindow.isSome ∧ durable ≠ [] then "NO_EVIDENCE_IN_CURRENT_NEWS_WINDOW"
          else "NO_DURABLE_EVIDENCE"))
  else if eligible.countP ResearchEvidence.complete < requirement.minimumEvidenceCount then
    (.partialCoverage, some "INSUFFICIENT_COMPLETE_EVIDENCE")
  else if missingMandatory ≠ [] then
    (.partialCoverage, some ("MISSING_REQUIRED_INPUTS:" ++ ",".intercalate missingMandatory))
  else if requiredInputsAreFresh fold requirement authority policy now eligible then
    (.readyFresh, none)
  else (.readyStale, some "FRESHNESS_POLICY_EXPIRED")

/-- The result of a stale requirement names its blockers. -/
def nameBlockers (policy : FreshnessPolicy) (now : Time)
    (blockers : List (String × ResearchEvidence)) (readiness : ResearchRequirementReadiness) :
    Option ResearchRequirementReadiness :=
  if blockers = [] then some readiness
  else
    (oldest policy (blockers.map Prod.snd)).map fun selected =>
      { readiness with
        selected := some selected
        age := policy.age selected now
        missingReason := readiness.missingReason.map fun reason =>
          reason ++ ":" ++ ",".intercalate (sortOn id (blockers.map Prod.fst)) }

/-- `_classify`; `none` where it raises. -/
def classify (fold : String → String) (requirement : ResearchRequirement)
    (authority : ProviderAuthorityPolicy) (policy : FreshnessPolicy)
    (snapshot : RequirementSnapshot) (now : Time) : Option ResearchRequirementReadiness :=
  match (if requirement.requirementId = "CURRENT_NEWS" then snapshot.newsReadiness.bind newsStatus
    else none) with
  | some status => some (result requirement status snapshot.newsReadiness)
  | none =>
    if snapshot.applicability.state = "NOT_APPLICABLE" then
      some (result requirement .notApplicable none)
    else
      let requirement := requirement.without snapshot.applicability.excludedInputs
      if ¬ snapshot.supported then
        some (result requirement .unsupported (some "REQUIREMENT_UNSUPPORTED_FOR_INSTRUMENT"))
      else
        let durable := durableEvidence snapshot.applicability.excludedInputs snapshot.evidence
        let eligible := policy.scoreInputEvidence now durable
        let resolution := resolve fold authority eligible
        let covered := coveredInputIds requirement.inputIds eligible
        let status := evidenceStatus fold requirement authority policy now snapshot durable eligible
        let coverage := requirementCoverage requirement covered (!eligible.isEmpty)
        let readiness : ResearchRequirementReadiness :=
          { requirementId := requirement.requirementId
            ruleEngineArea := requirement.ruleEngineArea
            mandatory := requirement.mandatory
            status := status.1
            selected := resolution.selected
            age := resolution.selected.bind fun selected => policy.age selected now
            evidenceIds := eligible.map ResearchEvidence.evidenceId
            missingReason := status.2
            conflictReason := resolution.conflictReason
            coveredInputIds := sortOn id covered
            missingInputIds := requirement.inputIds.filter (· ∉ covered)
            coveragePct := coverage.1
            criticalCoveragePct := coverage.2 }
        if status.1 = .readyStale then
          nameBlockers policy now (blockers requirement authority policy now eligible) readiness
        else some readiness

end InvestmentPlatform.Readiness
