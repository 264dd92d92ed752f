/-
The Stage 2 loop of `GlobalOpportunityOrchestrator.run`: the schedule of `_deep_schedule`, a
main pass over the admitted candidates and then bounded repair passes over those whose
outcome was a technical failure, and `_restore_deep_candidate`, which takes an outcome from
the checkpoint instead of evaluating.

The answers of the collaborators come from a script with one entry for each live evaluation,
in the order the loop makes them, so that a run is a function of its script.  Each live
evaluation starts its attempt once, ahead of its turn where `_prefetch_ahead` got to the
candidate first; the attempts are read again only when a pass is over, and the model starts
the attempt in its turn.  A store that fails ends the loop with an exception, which is not an
end this model has.
-/
import InvestmentPlatform.Stage2.Evaluate

namespace InvestmentPlatform.Stage2

open InvestmentPlatform.Cycle Rules

/-- What selection hands to Stage 2: the admitted candidates, and the diagnostics of the
candidates it sets aside. -/
structure Admission where
  deepCandidates : List Candidate
  selectedMissing : List InstrumentId
  ineligible : List (InstrumentId × List String)
  deferred : List InstrumentId
  /-- No candidate is admitted twice. -/
  distinct : (deepCandidates.map Candidate.globalInstrumentId).Nodup
  /-- What is set aside is not admitted. -/
  apart : ∀ c ∈ deepCandidates, c.globalInstrumentId ∉ selectedMissing ∧
    c.globalInstrumentId ∉ ineligible.map Prod.fst ∧ c.globalInstrumentId ∉ deferred

namespace Admission

def missingDiagnostic (key : InstrumentId) : CandidateDiagnostic :=
  { globalInstrumentId := key, status := .suppressed
    failureReason := some "SELECTED_CANDIDATE_NOT_IN_RESCAN"
    disposition := some .stage2InternalError }

def ineligibleDiagnostic (item : InstrumentId × List String) : CandidateDiagnostic :=
  { globalInstrumentId := item.1, status := .suppressed, suppressionReasons := item.2
    disposition := some .canonicalIneligible }

def deferredDiagnostic (key : InstrumentId) : CandidateDiagnostic :=
  { globalInstrumentId := key, status := .deferred, disposition := some .deferred }

/-- The diagnostics before the loop. -/
def diagnostics (a : Admission) (discoveryV2 : Bool) : List CandidateDiagnostic :=
  a.selectedMissing.map missingDiagnostic ++
    (if discoveryV2 then a.ineligible.map ineligibleDiagnostic else []) ++
    a.deferred.map deferredDiagnostic

/-- The variables before the loop. -/
def sheet (a : Admission) (discoveryV2 : Bool)
    (checkpoint : Option (CycleCheckpoint DeepPayload)) : Sheet where
  diagnostics := a.diagnostics discoveryV2
  counts := fun counter => if counter = .stage2InternalError then a.selectedMissing.length else 0
  evaluated := 0
  deepAttempted := 0
  deepRepairAttempted := 0
  deepRepairRecovered := 0
  rules := Table.empty
  byId := Table.empty
  stageB := []
  successful := []
  localAttempts := fun _ => 0
  repairing := []
  checkpoint := checkpoint

end Admission

/-! ### Restoring -/

/-- The parts of a payload, if all that are there are what they should be. -/
def DeepPayload.read (payload : DeepPayload) :
    Option (CandidateDiagnostic × Option StockRuleEngineResult × Option Candidate) :=
  match payload.diagnostic, payload.rule, payload.enriched with
  | .absent, _, _ | .invalid, _, _ | _, .invalid, _ | _, _, .invalid => none
  | .valid d, .absent, .absent => some (d, none, none)
  | .valid d, .valid rule, .absent => some (d, some rule, none)
  | .valid d, .absent, .valid enriched => some (d, none, some enriched)
  | .valid d, .valid rule, .valid enriched => some (d, some rule, some enriched)

/-- `_restore_deep_candidate`: the variables and the increments, or nothing where the payload
cannot be restored. -/
def restoreDeepCandidate (row : CheckpointRow DeepPayload) (key : InstrumentId) (s : Sheet) :
    Option (Sheet × List Counter) :=
  match row.payload.bind DeepPayload.read with
  | none => none
  | some (d, some rule, some enriched) =>
      some ({ s.record d with
        rules := s.rules.put key rule, byId := s.byId.put key enriched
        stageB := s.stageB ++ [enriched]
        successful := if d.rankEligible then s.successful ++ [enriched] else s.successful },
        d.increments)
  | some (d, _, _) => some (s.record d, d.increments)

/-- The restored outcome of a candidate, if the checkpoint has one. -/
def restored (key : InstrumentId) (s : Sheet) : Option Sheet :=
  match s.checkpoint with
  | none => none
  | some checkpoint =>
      if key ∈ s.repairing then none
      else
        match checkpoint.restorable .deep key with
        | none => none
        | some row =>
            match restoreDeepCandidate row key s with
            | none => none
            | some (s', increments) =>
                some { s'.count increments with
                  checkpoint := some (checkpoint.noteRestored .deep)
                  evaluated := s'.evaluated + tally increments .ruleAnalyzed }

/-! ### The loop -/

/-- How a part of the loop ends: whether a cancellation broke it off, the variables, and what
is left of the script. -/
structure Ending where
  cancelled : Bool
  sheet : Sheet
  script : List Calls

/-- The counts and the attempt of one turn of the loop. -/
def beginTurn (key : InstrumentId) (s : Sheet) : Sheet :=
  { s with
    deepAttempted := s.deepAttempted + 1
    localAttempts := Function.update s.localAttempts key (s.localAttempts key + 1) }

def startAttempt (key : InstrumentId) (s : Sheet) : Sheet :=
  { s with checkpoint := s.checkpoint.map fun checkpoint => checkpoint.start .deep key }

/-- The answer of `cycle_cancellation_requested` when the loop reaches a candidate. -/
abbrev Cancellations := InstrumentId → Bool

/-- One turn of the loop. -/
def turn (setup : Setup) (cancellations : Cancellations) (candidate : Candidate) (s : Sheet)
    (script : List Calls) : Option Ending :=
  let key := candidate.globalInstrumentId
  if s.checkpoint.isSome ∧ key ∉ s.repairing ∧ cancellations key then some ⟨true, s, script⟩
  else
    match restored key (beginTurn key s) with
    | some s' => some ⟨false, s', script⟩
    | none =>
        match script with
        | [] => none
        | calls :: script =>
            some ⟨false, evaluate setup calls candidate (startAttempt key (beginTurn key s)),
              script⟩

/-- A pass of the loop; the schedule prepares each candidate before it yields it. -/
def pass (setup : Setup) (cancellations : Cancellations)
    (prepare : InstrumentId → Sheet → Option Sheet) :
    List Candidate → Sheet → List Calls → Option Ending
  | [], s, script => some ⟨false, s, script⟩
  | candidate :: rest, s, script =>
      match prepare candidate.globalInstrumentId s with
      | none => none
      | some s =>
          match turn setup cancellations candidate s script with
          | none => none
          | some ending =>
              if ending.cancelled then some ending
              else pass setup cancellations prepare rest ending.sheet ending.script

/-- The counters a repair pass undoes. -/
def undone : List Counter :=
  [.deepReady, .deepReadinessFailed, .deepAcquisitionTimeout, .deepSourceUnavailable,
    .ruleException, .stage2InternalError, .deepTechnicalFailure]

/-- What a repair pass does to a candidate before it is evaluated again.  Without a previous
diagnostic the source would raise. -/
def withdraw (key : InstrumentId) (s : Sheet) : Option Sheet :=
  match s.lastDiagnostic key with
  | none => none
  | some previous =>
      some { s.uncount (previous.increments.filter (· ∈ undone)) with
        diagnostics := s.diagnostics.filter fun d => !decide (d.globalInstrumentId = key)
        deepAttempted := s.deepAttempted - 1
        deepRepairAttempted := s.deepRepairAttempted + 1
        repairing := key :: s.repairing }

def attempts (key : InstrumentId) (s : Sheet) : Nat :=
  match s.checkpoint with
  | some checkpoint => checkpoint.attempts .deep key
  | none => s.localAttempts key

def maxAttempts (setup : Setup) (s : Sheet) : Nat :=
  match s.checkpoint with
  | some checkpoint => checkpoint.maxAttempts
  | none => 1 + setup.repairPasses

/-- Another attempt is left and the last outcome is a technical failure. -/
def Repairable (setup : Setup) (s : Sheet) (candidate : Candidate) : Prop :=
  attempts candidate.globalInstrumentId s < maxAttempts setup s ∧
    ∃ d ∈ s.lastDiagnostic candidate.globalInstrumentId, d.Retryable

instance (setup : Setup) (s : Sheet) (candidate : Candidate) :
    Decidable (Repairable setup s candidate) :=
  inferInstanceAs (Decidable (_ ∧ ∃ d ∈ s.lastDiagnostic _, d.Retryable))

/-- The repair passes that are left. -/
def repairLoop (setup : Setup) (cancellations : Cancellations) (deepCandidates : List Candidate) :
    Nat → Sheet → List Calls → Option Ending
  | 0, s, script => some ⟨false, s, script⟩
  | n + 1, s, script =>
      let retry := deepCandidates.filter fun c => Repairable setup s c
      if retry = [] then some ⟨false, s, script⟩
      else
        match pass setup cancellations withdraw retry s script with
        | none => none
        | some ending =>
            if ending.cancelled then some ending
            else repairLoop setup cancellations deepCandidates n ending.sheet ending.script

/-- The Stage 2 loop. -/
def deepLoop (setup : Setup) (cancellations : Cancellations) (a : Admission)
    (checkpoint : Option (CycleCheckpoint DeepPayload)) (script : List Calls) : Option Ending :=
  match pass setup cancellations (fun _ s => some s) a.deepCandidates
      (a.sheet setup.discoveryV2 checkpoint) script with
  | none => none
  | some ending =>
      if ending.cancelled then some ending
      else repairLoop setup cancellations a.deepCandidates setup.repairPasses ending.sheet
        ending.script

end InvestmentPlatform.Stage2
