/-
How a Stage 2 candidate can end: the dispositions, the diagnostic that records one, and the
counters it implies, after `CandidateDiagnostic` and `_RESTORE_INCREMENTS` of
`app/global_opportunity_orchestration.py` and `DISPOSITION_STATE` of
`app/cycle_checkpoint.py`.
-/
import InvestmentPlatform.Cycle.Checkpoint
import InvestmentPlatform.Stage2.Taxonomy

namespace InvestmentPlatform.Stage2

open InvestmentPlatform.Cycle

/-- The dispositions the code gives a meaning to, and any other text. -/
inductive Disposition
  | analyzed | rankFiltered | deepReadinessNotMet | deepAcquisitionTimeout
  | deepSourceUnavailable | deepTechnicalFailure | ruleEngineException | stage2InternalError
  | profileHydrationFailed | profileIdentityMismatch | canonicalIneligible
  | baselineAcquisitionFailed | profileMissingAfterHydration | deferred
  | other (text : String)
  deriving DecidableEq, Repr

def Disposition.text : Disposition → String
  | analyzed => "ANALYZED"
  | rankFiltered => "RANK_FILTERED"
  | deepReadinessNotMet => "DEEP_READINESS_NOT_MET"
  | deepAcquisitionTimeout => "DEEP_ACQUISITION_TIMEOUT"
  | deepSourceUnavailable => "DEEP_SOURCE_UNAVAILABLE"
  | deepTechnicalFailure => "DEEP_TECHNICAL_FAILURE"
  | ruleEngineException => "RULE_ENGINE_EXCEPTION"
  | stage2InternalError => "STAGE2_INTERNAL_ERROR"
  | profileHydrationFailed => "PROFILE_HYDRATION_FAILED"
  | profileIdentityMismatch => "PROFILE_IDENTITY_MISMATCH"
  | canonicalIneligible => "CANONICAL_INELIGIBLE"
  | baselineAcquisitionFailed => "BASELINE_ACQUISITION_FAILED"
  | profileMissingAfterHydration => "PROFILE_MISSING_AFTER_HYDRATION"
  | deferred => "DEFERRED"
  | other text => text

/-- `DISPOSITION_STATE`, and what `state_for_disposition` takes for any other text. -/
def Disposition.state : Disposition → CandidateState
  | analyzed | rankFiltered => .completed
  | deepReadinessNotMet => .evidenceUnavailable
  | profileHydrationFailed | profileIdentityMismatch | canonicalIneligible => .terminalOutcome
  | deepAcquisitionTimeout | deepSourceUnavailable | deepTechnicalFailure | ruleEngineException
  | stage2InternalError | baselineAcquisitionFailed | profileMissingAfterHydration
  | deferred | other _ => .retryableFailure

def stateForDisposition : Option Disposition → CandidateState
  | some disposition => disposition.state
  | none => .retryableFailure

/-- `disposition = reason if reason in _KNOWN_STAGE2_FAILURE_REASONS else
"STAGE2_INTERNAL_ERROR"`. -/
def dispositionOfFailure (reason : String) : Disposition :=
  if reason = "PROFILE_HYDRATION_FAILED" then .profileHydrationFailed
  else if reason = "PROFILE_IDENTITY_MISMATCH" then .profileIdentityMismatch
  else if reason = "PROFILE_MISSING_AFTER_HYDRATION" then .profileMissingAfterHydration
  else .stage2InternalError

inductive DiagnosticStatus
  | rankEligible | suppressed | deferred
  deriving DecidableEq, Repr

/-- `CandidateDiagnostic`, without `cache_hit`. -/
structure CandidateDiagnostic where
  globalInstrumentId : InstrumentId
  status : DiagnosticStatus
  failureReason : Option String := none
  rankEligible : Bool := false
  suppressionReasons : List String := []
  disposition : Option Disposition := none
  failureClass : Option FailureClass := none
  acquisitionFailures : Failures := Dict.empty

/-! ### Counters -/

/-- The counters of Stage 2 that a disposition can imply. -/
inductive Counter
  | deepReady | deepReadinessFailed | deepTechnicalFailure | deepAcquisitionTimeout
  | deepSourceUnavailable | ruleAnalyzed | ruleException | stage2InternalError
  deriving DecidableEq, Repr

abbrev Counts := Counter → Int

/-- One for each time a counter is listed. -/
def tally (counters : List Counter) : Counts := fun counter => counters.count counter

/-- `_RESTORE_INCREMENTS`. -/
def Disposition.restoreIncrements : Disposition → List Counter
  | analyzed | rankFiltered => [.deepReady, .ruleAnalyzed]
  | deepReadinessNotMet | deepTechnicalFailure => [.deepReadinessFailed]
  | deepAcquisitionTimeout => [.deepAcquisitionTimeout]
  | deepSourceUnavailable => [.deepSourceUnavailable]
  | ruleEngineException => [.deepReady, .ruleException]
  | stage2InternalError => [.stage2InternalError]
  | profileHydrationFailed | profileIdentityMismatch | canonicalIneligible
  | baselineAcquisitionFailed | profileMissingAfterHydration | deferred | other _ => []

/-- `_RESTORE_INCREMENTS.get(disposition or "", {})`. -/
def restoreIncrements : Option Disposition → List Counter
  | some disposition => disposition.restoreIncrements
  | none => []

theorem nodup_restoreIncrements (disposition : Option Disposition) :
    (restoreIncrements disposition).Nodup := by
  cases disposition with
  | none => exact List.nodup_nil
  | some disposition => cases disposition <;> simp [restoreIncrements, Disposition.restoreIncrements]

/-- Only an analyzed candidate is counted as analyzed. -/
theorem state_of_ruleAnalyzed {disposition : Option Disposition}
    (h : Counter.ruleAnalyzed ∈ restoreIncrements disposition) :
    disposition = some .analyzed ∨ disposition = some .rankFiltered := by
  cases disposition with
  | none => exact absurd h List.not_mem_nil
  | some disposition =>
      cases disposition <;> simp [restoreIncrements, Disposition.restoreIncrements] at h ⊢

namespace CandidateDiagnostic

/-- A readiness shortfall that is technical. -/
def Technical (d : CandidateDiagnostic) : Prop :=
  d.disposition = some .deepReadinessNotMet ∧ d.failureClass = some .technicalRetryable

instance (d : CandidateDiagnostic) : Decidable d.Technical :=
  inferInstanceAs (Decidable (_ ∧ _))

/-- The counters the diagnostic implies. -/
def increments (d : CandidateDiagnostic) : List Counter :=
  restoreIncrements d.disposition ++ if d.Technical then [.deepTechnicalFailure] else []

/-- `_retryable`. -/
def Retryable (d : CandidateDiagnostic) : Prop :=
  if d.disposition = some .deepReadinessNotMet then d.failureClass = some .technicalRetryable
  else stateForDisposition d.disposition = .retryableFailure

instance (d : CandidateDiagnostic) : Decidable d.Retryable := by
  unfold Retryable
  infer_instance

/-- The state a candidate's row gets: a technical shortfall is not unavailable evidence. -/
def rowState (d : CandidateDiagnostic) : CandidateState :=
  if d.Technical then .retryableFailure else stateForDisposition d.disposition

theorem increments_of_technical {d : CandidateDiagnostic} (h : d.Technical) :
    d.increments = [.deepReadinessFailed, .deepTechnicalFailure] := by
  rw [increments, if_pos h, h.1]
  rfl

theorem increments_of_not_technical {d : CandidateDiagnostic} (h : ¬ d.Technical) :
    d.increments = restoreIncrements d.disposition := by
  rw [increments, if_neg h, List.append_nil]

/-- No diagnostic implies a counter twice. -/
theorem nodup_increments (d : CandidateDiagnostic) : d.increments.Nodup := by
  by_cases h : d.Technical
  · rw [increments_of_technical h]
    decide
  · rw [increments_of_not_technical h]
    exact nodup_restoreIncrements _

/-- What is tried again has not been counted as analyzed. -/
theorem ruleAnalyzed_notMem_of_retryable {d : CandidateDiagnostic} (h : d.Retryable) :
    Counter.ruleAnalyzed ∉ d.increments := by
  intro hmem
  by_cases htech : d.Technical
  · rw [increments_of_technical htech] at hmem
    exact absurd hmem (by decide)
  rw [increments_of_not_technical htech] at hmem
  unfold Retryable at h
  rcases state_of_ruleAnalyzed hmem with hd | hd
  · rw [hd, if_neg (by decide)] at h
    exact absurd h (by decide)
  · rw [hd, if_neg (by decide)] at h
    exact absurd h (by decide)

end CandidateDiagnostic

end InvestmentPlatform.Stage2
