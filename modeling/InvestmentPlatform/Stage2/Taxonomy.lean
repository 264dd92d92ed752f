/-
The classification of acquisition failures, `app/failure_taxonomy.py`.

The module answers one question: is a blocked candidate's gap technical, to be tried again
within a bounded budget, or is the evidence unavailable?  A reason the table does not name is
technical.
-/
import InvestmentPlatform.Lib.Dict
import InvestmentPlatform.Lib.Selection
import Mathlib.Data.String.Basic

namespace InvestmentPlatform.Stage2

open Selection

/-- The class of a failure, `None` where nothing was recorded. -/
inductive FailureClass
  | technicalRetryable | evidenceUnavailable
  deriving DecidableEq, Repr

/-- Why each requirement failed. -/
abbrev Failures := Dict String String

def permanentReasons : List String :=
  ["ROBOTS_OR_ACCESS_BLOCKED", "DOMAIN_BLOCKED", "DOMAIN_VALIDATION_FAILED",
    "SOURCE_QUALITY_REJECTED", "COMPANY_RELEVANCE_FAILED", "DOCUMENT_SIZE_LIMIT_EXCEEDED",
    "CONTENT_EMPTY", "CONTENT_TOO_SHORT", "UNSUPPORTED_CONTENT_TYPE", "RESULTS_REJECTED",
    "DISCOVERY_NO_FINANCIAL_RESULTS_CANDIDATES", "DISCOVERY_NO_CANDIDATES",
    "DISCOVERY_ALL_CANDIDATES_REUSED_OR_UNSUPPORTED", "EVIDENCE_INSUFFICIENT_WITHIN_PLAN",
    "PRIMARY_FINANCIAL_PROVIDER_RETURNED_NO_FACTS",
    "PARSER_FAILED:NO_SUPPORTED_FINANCIAL_FACTS",
    "PARSER_FAILED:NSE_SHAREHOLDING_XBRL_NO_SUPPORTED_VALUES", "NOT_APPLICABLE",
    "PRIOR_ACQUISITION_EMPTY", "EXTERNAL_CAPABILITY_UNSUPPORTED",
    "EXTERNAL_RESULT_INCOMPLETE:HISTORICAL_COVERAGE_INSUFFICIENT"]

/-- `str.isspace` of one character. -/
def isSpace (c : Char) : Bool :=
  (9 ≤ c.toNat && c.toNat ≤ 13) || (28 ≤ c.toNat && c.toNat ≤ 32) || c.toNat == 0x85 ||
    c.toNat == 0xA0 || c.toNat == 0x1680 || (0x2000 ≤ c.toNat && c.toNat ≤ 0x200A) ||
    c.toNat == 0x2028 || c.toNat == 0x2029 || c.toNat == 0x202F || c.toNat == 0x205F ||
    c.toNat == 0x3000

/-- `part.strip()`. -/
def strip (part : List Char) : List Char :=
  ((part.dropWhile isSpace).reverse.dropWhile isSpace).reverse

/-- `reason.split("|")`. -/
def splitBar (reason : String) : List String := (reason.toList.splitOn '|').map String.ofList

/-- `_components`. -/
def components (reason : String) : List String :=
  ((splitBar reason).map fun part => String.ofList (strip part.toList)).filter (· ≠ "")

def classifyReason (reason : String) : Option FailureClass :=
  match components reason with
  | [] => none
  | parts =>
      if parts.any (· ∉ permanentReasons) then some .technicalRetryable
      else some .evidenceUnavailable

/-- `not blocking or k in blocking`. -/
def relevant (blocking : List String) (requirement : String) : Bool :=
  blocking.isEmpty || decide (requirement ∈ blocking)

def classifyRequirementFailures (failures : Failures) (blocking : List String) :
    Option FailureClass :=
  let classes := (failures.items.filter fun item => relevant blocking item.1).filterMap fun item =>
    classifyReason item.2
  if classes.isEmpty then none
  else if .technicalRetryable ∈ classes then some .technicalRetryable
  else some .evidenceUnavailable

/-- The failures of the blocking requirements, in the order of the requirements. -/
def blockingFailures (failures : Failures) (blocking : List String) : Failures :=
  Dict.ofList Prod.fst Prod.snd
    ((sortOn Prod.fst failures.items).filter fun item => relevant blocking item.1)

end InvestmentPlatform.Stage2
