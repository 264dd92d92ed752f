/-
The handle a worker drives one owned cycle through, `CycleCheckpoint` of
`app/cycle_checkpoint.py`.

The handle keeps the progress rows it loaded in memory and changes them as it writes them to
the store.  Its copy of a started row keeps the old disposition and payload, which the
stored row loses; nothing reads them while the row is in progress.
-/
import InvestmentPlatform.Cycle.Store
import InvestmentPlatform.Lib.Dict
import InvestmentPlatform.Lib.PyFloat

namespace InvestmentPlatform.Cycle

/-- `FINAL_STATES`. -/
def finalStates : List CandidateState := [.completed, .evidenceUnavailable, .terminalOutcome]

/-- A progress row in memory, its payload read from the stored text. -/
structure CheckpointRow (P : Type) where
  state : CandidateState
  disposition : Option String
  failureReason : Option String
  attempts : Nat
  payload : Option P

/-- `DEFAULT_MAX_ATTEMPTS`. -/
def defaultMaxAttempts : Nat := 3

structure CycleCheckpoint (P : Type) where
  maxAttempts : Nat := defaultMaxAttempts
  progress : Table (Phase × InstrumentId) (CheckpointRow P)
  restored : Phase → Nat := fun _ => 0
  executed : Phase → Nat := fun _ => 0

namespace CycleCheckpoint

variable {P : Type}

def row (checkpoint : CycleCheckpoint P) (phase : Phase) (id : InstrumentId) :
    Option (CheckpointRow P) :=
  checkpoint.progress (phase, id)

/-- `row.get("attempts", 0)` of a row that may be missing. -/
def attempts (checkpoint : CycleCheckpoint P) (phase : Phase) (id : InstrumentId) : Nat :=
  ((checkpoint.row phase id).map CheckpointRow.attempts).getD 0

/-- A final outcome, or a retryable failure whose repair budget is spent. -/
def restorable (checkpoint : CycleCheckpoint P) (phase : Phase) (id : InstrumentId) :
    Option (CheckpointRow P) :=
  match checkpoint.row phase id with
  | none => none
  | some row =>
      if row.state ∈ finalStates then some row
      else if row.state = .retryableFailure ∧ checkpoint.maxAttempts ≤ row.attempts then some row
      else none

def noteRestored (checkpoint : CycleCheckpoint P) (phase : Phase) : CycleCheckpoint P :=
  { checkpoint with
    restored := Function.update checkpoint.restored phase (checkpoint.restored phase + 1) }

/-- What `start` does to the copy in memory. -/
def start (checkpoint : CycleCheckpoint P) (phase : Phase) (id : InstrumentId) :
    CycleCheckpoint P :=
  { checkpoint with
    executed := Function.update checkpoint.executed phase (checkpoint.executed phase + 1)
    progress := checkpoint.progress.put (phase, id)
      (match checkpoint.row phase id with
      | some row => { row with state := .inProgress, attempts := row.attempts + 1 }
      | none => ⟨.inProgress, none, none, 1, none⟩) }

/-- What `finish` does to the copy in memory. -/
def finish (checkpoint : CycleCheckpoint P) (phase : Phase) (id : InstrumentId)
    (state : CandidateState) (disposition failureReason : Option String) (payload : Option P) :
    CycleCheckpoint P :=
  { checkpoint with
    progress := checkpoint.progress.put (phase, id)
      { state := state, disposition := disposition, failureReason := failureReason,
        attempts := checkpoint.attempts phase id, payload := payload } }

/-! ### What the writes do to the rows -/

variable {checkpoint : CycleCheckpoint P} {phase : Phase} {id : InstrumentId}

theorem row_of_restorable {row : CheckpointRow P}
    (h : checkpoint.restorable phase id = some row) : checkpoint.row phase id = some row := by
  unfold restorable at h
  cases hrow : checkpoint.row phase id with
  | none =>
      rw [hrow] at h
      exact absurd h (by simp)
  | some found =>
      simp only [hrow] at h
      split at h
      · exact h
      · split at h
        · exact h
        · exact absurd h (by simp)

/-- Every payload of the phase is one `Q` holds of, under its key. -/
def PayloadsWhere (checkpoint : CycleCheckpoint P) (phase : Phase)
    (Q : InstrumentId → P → Prop) : Prop :=
  ∀ id row payload, checkpoint.row phase id = some row → row.payload = some payload → Q id payload

variable {Q : InstrumentId → P → Prop}

section

variable (h : checkpoint.PayloadsWhere phase Q)
include h

theorem PayloadsWhere.noteRestored : (checkpoint.noteRestored phase).PayloadsWhere phase Q := h

theorem PayloadsWhere.start (id : InstrumentId) :
    (checkpoint.start phase id).PayloadsWhere phase Q := by
  intro j row payload hrow hpayload
  change (checkpoint.progress.put (phase, id) _) (phase, j) = some row at hrow
  by_cases hj : j = id
  · subst hj
    rw [Table.put_self, Option.some.injEq] at hrow
    subst hrow
    cases hbefore : checkpoint.row phase j with
    | none =>
        rw [hbefore] at hpayload
        exact absurd hpayload (by simp)
    | some before =>
        rw [hbefore] at hpayload
        exact h j before payload hbefore hpayload
  · rw [Table.put_ne _ _ fun he => hj (Prod.mk.inj he).2] at hrow
    exact h j row payload hrow hpayload

theorem PayloadsWhere.finish (id : InstrumentId)
    (state : CandidateState) (disposition failureReason : Option String) (payload : P)
    (hQ : Q id payload) :
    (checkpoint.finish phase id state disposition failureReason (some payload)).PayloadsWhere
      phase Q := by
  intro j row stored hrow hstored
  change (checkpoint.progress.put (phase, id) _) (phase, j) = some row at hrow
  by_cases hj : j = id
  · subst hj
    rw [Table.put_self, Option.some.injEq] at hrow
    subst hrow
    rw [Option.some.injEq] at hstored
    exact hstored ▸ hQ
  · rw [Table.put_ne _ _ fun he => hj (Prod.mk.inj he).2] at hrow
    exact h j row stored hrow hstored

end

end CycleCheckpoint

end InvestmentPlatform.Cycle

/-!
The progress of a cycle as its callers see it, `cycle_status_snapshot` of `app/cycle_checkpoint.py`.

Everything is counted from the rows of the progress table and from what the run recorded of its
selection.  The rows of a phase are under the texts of their instruments' ids; the ids of a
selection may be any JSON values, and `str` is Python's text of one.
-/

namespace InvestmentPlatform.Cycle

structure SnapshotDiagnostic where
  disposition : Option String
  rankEligible : Bool
  deriving DecidableEq, Repr

structure SnapshotPayload where
  ready : Bool
  diagnostic : Option SnapshotDiagnostic
  deriving DecidableEq, Repr

/-- A progress row, with what the snapshot reads of its payload. -/
structure SnapshotRow where
  state : CandidateState
  attempts : Nat
  disposition : Option String
  payload : Option SnapshotPayload
  deriving DecidableEq, Repr

/-- What a run recorded of its selection. -/
structure RunSelection (Id : Type) where
  deepIds : Option (List Id) := none
  shortlistIds : Option (List Id) := none
  universeList : Option (List Id) := none
  baselineEvaluated : Option Int := none
  universeCount : Option Int := none
  phase : String := "BASELINE"
  deriving DecidableEq, Repr

/-- A run, with its parameters. -/
structure SnapshotRun (Id : Type) where
  status : Option RunStatus
  selection : RunSelection Id
  analysisScope : Option String
  shortlistLimit : Option Int

structure StageProgress where
  completed : Int
  total : Option Int
  percentage : Option Int
  deriving DecidableEq, Repr

structure StatusSnapshot where
  phase : String
  baselineEvaluated : Option Int
  baselineCompleted : Nat
  baselineFailed : Nat
  baselineInProgress : Nat
  baselineAwaitingRetry : Nat
  baselineNotStarted : Option Int
  universeCount : Option Int
  deepAttempted : Nat
  deepCompleted : Nat
  deepDenominator : Nat
  deepReady : Nat
  deepReadinessFailed : Nat
  deepTechnicalFailure : Nat
  ready : Nat
  failed : Nat
  technical : Nat
  eligible : Nat
  baselineStage : StageProgress
  deepStage : StageProgress
  overallPercentage : Option Int
  analysisScope : Option String
  requestedShortlistLimit : Option Int
  shortlistLimitApplied : Option Bool
  deriving DecidableEq, Repr

/-! ### Rows -/

namespace SnapshotRow

variable (row : SnapshotRow)

/-- A final outcome, or a retryable failure whose attempts are spent. -/
def terminal : Bool :=
  decide (row.state ∈ finalStates) ||
    decide (row.state = .retryableFailure) && decide (defaultMaxAttempts ≤ row.attempts)

def inProgress : Bool := row.state = .inProgress

def awaitingRetry : Bool :=
  decide (row.state = .retryableFailure) && decide (row.attempts < defaultMaxAttempts)

def failed : Bool := row.terminal && !(row.payload.any SnapshotPayload.ready)

def diagnostic : Option SnapshotDiagnostic := row.payload.bind SnapshotPayload.diagnostic

/-- `row.get("disposition") or diagnostic.get("disposition")`. -/
def effectiveDisposition : Option String :=
  (row.disposition.filter (· ≠ "")).or (row.diagnostic.bind SnapshotDiagnostic.disposition)

def isReady : Bool :=
  decide (row.effectiveDisposition = some "ANALYZED") ||
    decide (row.effectiveDisposition = some "RANK_FILTERED")

def isReadinessFailed : Bool := row.state = .evidenceUnavailable

def isTechnical : Bool := row.state = .retryableFailure

def rankEligible : Bool := row.diagnostic.any SnapshotDiagnostic.rankEligible

end SnapshotRow

/-! ### The snapshot -/

/-- `round(100 * completed / total)`, between 0 and 100. -/
def boundedPercentage (completed total : Int) : Int :=
  max 0 (min 100 (PyFloat.halfEven (nearestDouble ((100 * completed : Int) / (total : Rat)))))

/-- `_stage_percentage`. -/
def stagePercentage (completed : Int) (total : Option Int) : Option Int :=
  total.map fun total => if total ≤ 0 then 100 else boundedPercentage completed total

section

variable {Id : Type} [DecidableEq Id] (str : Id → String)

/-- `list(dict.fromkeys(deep_ids or shortlist_ids or []))`. -/
def RunSelection.admitted (selection : RunSelection Id) : List Id :=
  (((selection.deepIds.filter (· ≠ [])).or (selection.shortlistIds.filter (· ≠ []))).getD []).eraseDups

/-- The rows of the admitted instruments; all rows where none is admitted. -/
def scopedRows (selection : RunSelection Id) (rows : Dict InstrumentId SnapshotRow) :
    List SnapshotRow :=
  (rows.items.filter fun item =>
    selection.admitted.isEmpty || (selection.admitted.map str).any (· = item.1)).map Prod.snd

def RunSelection.knownUniverse (selection : RunSelection Id) : Option Int :=
  selection.universeCount.or (selection.universeList.map fun ids => (ids.length : Int))

/-- The text of a terminal status. -/
def terminalPhase : RunStatus → Option String
  | .completed => some "COMPLETED"
  | .failed => some "FAILED"
  | .cancelled => some "CANCELLED"
  | _ => none

def overallPercentage (status : Option RunStatus) (stages : List StageProgress) : Option Int :=
  if status = some .failed ∨ status = some .cancelled ∨
      stages.any (fun stage => stage.percentage.isNone) then none
  else
    let known := stages.filter fun stage => stage.total.any (0 < ·)
    let totalScope := (known.map fun stage => stage.total.getD 0).foldl (· + ·) 0
    if known.isEmpty ∨ totalScope ≤ 0 then some 100
    else some (boundedPercentage ((known.map StageProgress.completed).foldl (· + ·) 0) totalScope)

/-- `cycle_status_snapshot`, of the run and the rows of its two phases. -/
def cycleStatusSnapshot (run : SnapshotRun Id)
    (baselineRows deepRows : Dict InstrumentId SnapshotRow) : StatusSnapshot :=
  let selection := run.selection
  let admitted := selection.admitted
  let inScope := scopedRows str selection deepRows
  let terminal := inScope.filter SnapshotRow.terminal
  let universeCount := selection.knownUniverse
  let baselineCompleted := baselineRows.values.countP SnapshotRow.terminal
  let deepTotal : Option Int := if admitted.isEmpty then none else some admitted.length
  let baselineStage : StageProgress :=
    ⟨baselineCompleted, universeCount, stagePercentage baselineCompleted universeCount⟩
  let deepStage : StageProgress :=
    ⟨terminal.length, deepTotal, stagePercentage terminal.length deepTotal⟩
  { phase := (run.status.bind terminalPhase).getD
      (if selection.deepIds.isSome then "DEEP" else selection.phase)
    baselineEvaluated := selection.baselineEvaluated.or
      (selection.universeList.map fun _ => (baselineCompleted : Int))
    baselineCompleted := baselineCompleted
    baselineFailed := baselineRows.values.countP SnapshotRow.failed
    baselineInProgress := baselineRows.values.countP SnapshotRow.inProgress
    baselineAwaitingRetry := baselineRows.values.countP SnapshotRow.awaitingRetry
    baselineNotStarted := universeCount.map fun count => max (count - baselineRows.size) 0
    universeCount := universeCount
    deepAttempted := inScope.countP fun row => 0 < row.attempts
    deepCompleted := terminal.length
    deepDenominator := admitted.length
    deepReady := terminal.countP SnapshotRow.isReady
    deepReadinessFailed := terminal.countP SnapshotRow.isReadinessFailed
    deepTechnicalFailure := terminal.countP SnapshotRow.isTechnical
    ready := terminal.countP SnapshotRow.isReady
    failed := terminal.countP SnapshotRow.isReadinessFailed
    technical := inScope.countP SnapshotRow.isTechnical
    eligible := terminal.countP SnapshotRow.rankEligible
    baselineStage := baselineStage
    deepStage := deepStage
    overallPercentage := overallPercentage run.status [baselineStage, deepStage]
    analysisScope := run.analysisScope
    requestedShortlistLimit := run.shortlistLimit
    shortlistLimitApplied :=
      if admitted.isEmpty then none
      else run.shortlistLimit.map fun limit => (admitted.length : Int) ≤ limit }

end

end InvestmentPlatform.Cycle
