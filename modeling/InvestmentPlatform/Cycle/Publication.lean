/-
The publication of a cycle, `publish_opportunity_cycle` of `app/opportunity_persistence.py`.

One transaction inserts the cycle's snapshots, the recommendations and states that `build`
derives from them, and the selection row.  When the caller passes a fence, the run is
flipped to PUBLISHED before the first insert and its owner is checked again after the last.
The clock the two fences read is the database's, which moves on while the statements run.

Rows keep the columns a statement reads or constrains and the payload they carry; the
other columns are copies of payload fields.  A broken foreign key is one of the reasons a
statement may raise.
-/
import InvestmentPlatform.Cycle.Store
import InvestmentPlatform.Lib.Transaction
import InvestmentPlatform.Suggestions.Lifecycle
import Mathlib.Data.List.Sort

namespace InvestmentPlatform.Cycle

/-- A row of `global_opportunity_snapshot`. -/
structure Snapshot where
  snapshotId : String
  cycleId : CycleId
  globalInstrumentId : InstrumentId
  market : Market
  generatedAt : String
  payload : String
  deriving DecidableEq, Repr

/-- A row of `stock_recommendation_history`. -/
structure Recommendation where
  recommendationId : String
  snapshotId : String
  globalInstrumentId : InstrumentId
  generatedAt : String
  recommendationEngineVersion : String
  fingerprint : String
  payload : String
  deriving DecidableEq, Repr

/-- A row of `recommendation_current_state`. -/
structure RecommendationState where
  globalInstrumentId : InstrumentId
  latestRecommendationId : String
  updatedAt : String
  payload : String
  deriving DecidableEq, Repr

/-- A row of `global_opportunity_top_selection`. -/
structure Selection where
  cycleId : CycleId
  generatedAt : String
  market : Market
  controlledCandidateSet : Bool
  payload : String
  deriving DecidableEq, Repr

/-- The tables a publication writes. -/
structure Projection where
  snapshots : List Snapshot
  history : List Recommendation
  states : Table InstrumentId RecommendationState
  selections : Table CycleId Selection

def Projection.empty : Projection := ⟨[], [], Table.empty, Table.empty⟩

/-- The whole database: cycle runs, projections, suggestions. -/
structure Database where
  cycles : Store
  projection : Projection
  suggestions : Suggestions.Store

def Database.empty (clock : Instant) : Database :=
  ⟨Store.empty clock, Projection.empty, Suggestions.Store.empty⟩

/-- Time passes; nothing is written. -/
def Database.wait (elapsed : Nat) (db : Database) : Database :=
  { db with cycles := { db.cycles with clock := db.cycles.clock + elapsed } }

/-- The connection's context manager on an exception: the tables go back, the clock does not. -/
def Database.rollback (before reached : Database) : Database :=
  { before with cycles := { before.cycles with clock := reached.cycles.clock } }

/-- A statement or a body of statements on the database. -/
abbrev Body (A : Type) := Txn Database StoreError A

/-- A statement on the projection tables. -/
def onProjection (act : Projection → Except StoreError Projection) : Body Unit :=
  Txn.statement Database.wait fun db =>
    (act db.projection).map fun projection => ((), { db with projection })

/-- A statement on the cycle tables. -/
def onCycles (act : Store → Except StoreError Store) : Body Unit :=
  Txn.statement Database.wait fun db =>
    (act db.cycles).map fun cycles => ((), { db with cycles })

/-! ### The statements -/

/-- `INSERT`, under the primary key and `UNIQUE(cycle_id, global_instrument_id)`. -/
def insertSnapshot (row : Snapshot) (p : Projection) : Except StoreError Projection :=
  if ∃ other ∈ p.snapshots, other.snapshotId = row.snapshotId ∨
      (other.cycleId = row.cycleId ∧ other.globalInstrumentId = row.globalInstrumentId) then
    .error .integrityError
  else .ok { p with snapshots := p.snapshots ++ [row] }

def insertRecommendation (row : Recommendation) (p : Projection) :
    Except StoreError Projection :=
  if ∃ other ∈ p.history, other.recommendationId = row.recommendationId then
    .error .integrityError
  else .ok { p with history := p.history ++ [row] }

def upsertState (row : RecommendationState) (p : Projection) : Except StoreError Projection :=
  .ok { p with states := p.states.put row.globalInstrumentId row }

def insertSelection (row : Selection) (p : Projection) : Except StoreError Projection :=
  match p.selections.insert row.cycleId row with
  | none => .error .integrityError
  | some selections => .ok { p with selections }

/-- `opportunity_snapshots`: `WHERE cycle_id = ? ORDER BY global_instrument_id`. -/
def opportunitySnapshots (cycleId : CycleId) (p : Projection) : List Snapshot :=
  (p.snapshots.filter fun row => row.cycleId = cycleId).insertionSort fun a b =>
    a.globalInstrumentId ≤ b.globalInstrumentId

/-! ### The transaction -/

/-- What a publication writes beside the snapshots. -/
structure Assembled where
  recommendations : List Recommendation
  states : List RecommendationState
  selection : Selection
  deriving DecidableEq, Repr

/-- The arguments of `publish_opportunity_cycle`.  `build` reads the projection tables as the
transaction sees them and the snapshots just persisted, and may raise. -/
structure Publishing where
  snapshots : List Snapshot
  assembled : Assembled
  build : Option (Projection → List Snapshot → Except StoreError Assembled)
  fence : Option (CycleId × OwnerId)

/-- A fence when the caller passed one, nothing otherwise. -/
def fenced (check : CycleId → OwnerId → Store → Except StoreError Store) :
    Option (CycleId × OwnerId) → Body Unit
  | some (cycleId, ownerId) => onCycles (check cycleId ownerId)
  | none => Txn.ret ()

/-- The assembled rows, rebuilt from what was persisted when a `build` is given. -/
def assemble (p : Publishing) : Body Assembled :=
  match p.build with
  | none => Txn.ret p.assembled
  | some build =>
      Txn.statement Database.wait fun db =>
        (build db.projection
          (opportunitySnapshots p.assembled.selection.cycleId db.projection)).map fun a => (a, db)

/-- The inserts between the two fences. -/
def writeProjection (p : Publishing) : Body Selection := do
  Txn.each (fun row => onProjection (insertSnapshot row)) p.snapshots
  let a ← assemble p
  Txn.each (fun row => onProjection (insertRecommendation row)) a.recommendations
  -- A controlled candidate set never replaces the shared states.
  Txn.each (fun row => onProjection (upsertState row))
    (if a.selection.controlledCandidateSet then [] else a.states)
  onProjection (insertSelection a.selection)
  pure a.selection

def publishBody (p : Publishing) : Body Selection := do
  fenced fenceCyclePublication p.fence
  let selection ← writeProjection p
  fenced fencePublishedOwner p.fence
  pure selection

def publishOpportunityCycle (p : Publishing) (hiccups : List (Hiccup StoreError))
    (db : Database) : Except StoreError Selection × Database :=
  Txn.transact Database.rollback (publishBody p) hiccups db

/-! ### The suggestions of a published cycle -/

/-- `persist_global_suggestion_lifecycle`: fenced on the published run's owner before and, unless
the scan is controlled or not completed, after. -/
def suggestionBody (uuid4 : Nat → Suggestions.Uuid) (scan : Suggestions.Scan)
    (cards : List Suggestions.Card) (fence : Option (CycleId × OwnerId)) : Body Unit := do
  fenced fencePublishedOwner fence
  Txn.statement Database.wait fun db =>
    .ok ((), { db with
      suggestions := Suggestions.persistGlobalSuggestionLifecycle uuid4 scan cards db.suggestions })
  if scan.controlled = true ∨ scan.status ≠ .completed then pure ()
  else fenced fencePublishedOwner fence

def persistGlobalSuggestionLifecycle (uuid4 : Nat → Suggestions.Uuid) (scan : Suggestions.Scan)
    (cards : List Suggestions.Card) (fence : Option (CycleId × OwnerId))
    (hiccups : List (Hiccup StoreError)) (db : Database) : Except StoreError Unit × Database :=
  Txn.transact Database.rollback (suggestionBody uuid4 scan cards fence) hiccups db

end InvestmentPlatform.Cycle

/-!
The cycle store as a machine.

Workers and operators share one database.  Each method call is one transaction, any caller
may make any call at any time with any arguments, and a worker that dies simply makes no
further call.  A label is a call with its answer, so that a trace is what an observer of
all the callers sees.

Two calls read the clock in a transaction of their own before the update: `now` is what
they read, and the only thing known of it later is that the clock has not gone back.
-/

namespace InvestmentPlatform.Cycle

/-- A call on the shared database. -/
inductive Call
  | tick (elapsed : Nat)
  | createCycleRun (cycleId : CycleId) (parameters : String) (market : Market)
  | claimCycleRun (cycleId : CycleId) (ownerId : OwnerId) (leaseSeconds : Int) (now : Instant)
  | renewCycleLease (cycleId : CycleId) (ownerId : OwnerId) (leaseSeconds : Int) (now : Instant)
  | releaseCycleRun (cycleId : CycleId) (ownerId : OwnerId)
  | updateCycleRun (cycleId : CycleId) (ownerId : OwnerId) (fields : RunFields)
  | failUnownedCycleRun (cycleId : CycleId) (errorCode : String)
  | requestCycleCancel (cycleId : CycleId) (errorCode : String)
  | cancelCycleRun (cycleId : CycleId) (ownerId : OwnerId) (errorCode : String)
  | cancelCycleRunUnowned (cycleId : CycleId) (reason : Option String)
  | fenceCyclePublication (cycleId : CycleId) (ownerId : OwnerId)
  | recordCycleProgress (cycleId : CycleId) (ownerId : OwnerId) (phase : Phase)
      (instrument : InstrumentId) (write : ProgressWrite) (startAttempt : Bool)
  | publishOpportunityCycle (p : Publishing) (hiccups : List (Hiccup StoreError))
  | persistGlobalSuggestionLifecycle (scan : Suggestions.Scan) (cards : List Suggestions.Card)
      (fence : Option (CycleId × OwnerId)) (hiccups : List (Hiccup StoreError))

/-- What a call answers. -/
inductive Answer
  | cycle (reply : Reply)
  | published (selection : Selection)
  deriving DecidableEq, Repr

/-- Run a method of the cycle store on the database. -/
def Database.onStore (db : Database) (result : Reply × Store) : Answer × Database :=
  (.cycle result.1, { db with cycles := result.2 })

/-- A method that only raises or succeeds, in a transaction of its own. -/
def committed (s : Store) : Except StoreError Store → Reply × Store
  | .ok s' => (.done, s')
  | .error error => (.raised error, s)

variable (uuid4 : Nat → Suggestions.Uuid)

/-- One call; `none` where the clock would have gone back. -/
def exec (db : Database) : Call → Option (Answer × Database)
  | .tick elapsed => some (.cycle .done, db.wait elapsed)
  | .createCycleRun cycleId parameters market =>
      some (db.onStore (createCycleRun cycleId parameters market db.cycles))
  | .claimCycleRun cycleId ownerId leaseSeconds now =>
      if now ≤ db.cycles.clock then
        some (db.onStore (claimCycleRun cycleId ownerId leaseSeconds now db.cycles))
      else none
  | .renewCycleLease cycleId ownerId leaseSeconds now =>
      if now ≤ db.cycles.clock then
        some (db.onStore (renewCycleLease cycleId ownerId leaseSeconds now db.cycles))
      else none
  | .releaseCycleRun cycleId ownerId =>
      some (db.onStore (releaseCycleRun cycleId ownerId db.cycles))
  | .updateCycleRun cycleId ownerId fields =>
      some (db.onStore (updateCycleRun cycleId ownerId fields db.cycles))
  | .failUnownedCycleRun cycleId errorCode =>
      some (db.onStore (failUnownedCycleRun cycleId errorCode db.cycles))
  | .requestCycleCancel cycleId errorCode =>
      some (db.onStore (requestCycleCancel cycleId errorCode db.cycles))
  | .cancelCycleRun cycleId ownerId errorCode =>
      some (db.onStore (cancelCycleRun cycleId ownerId errorCode db.cycles))
  | .cancelCycleRunUnowned cycleId reason =>
      some (db.onStore (cancelCycleRunUnowned cycleId reason db.cycles))
  | .fenceCyclePublication cycleId ownerId =>
      some (db.onStore (committed db.cycles (fenceCyclePublication cycleId ownerId db.cycles)))
  | .recordCycleProgress cycleId ownerId phase instrument write startAttempt =>
      some (db.onStore
        (recordCycleProgress cycleId ownerId phase instrument write startAttempt db.cycles))
  | .publishOpportunityCycle p hiccups =>
      match publishOpportunityCycle p hiccups db with
      | (.ok selection, db') => some (.published selection, db')
      | (.error error, db') => some (.cycle (.raised error), db')
  | .persistGlobalSuggestionLifecycle scan cards fence hiccups =>
      match persistGlobalSuggestionLifecycle uuid4 scan cards fence hiccups db with
      | (.ok _, db') => some (.cycle .done, db')
      | (.error error, db') => some (.cycle (.raised error), db')

/-- The shared database from its empty state. -/
def system (start : Instant) : Machine Database (Call × Answer) :=
  Machine.ofStep (Database.empty start) (exec uuid4)

/-! ### Reading a label -/

/-- The run and the owner a call is fenced on. -/
def Call.fence : Call → Option (CycleId × OwnerId)
  | .renewCycleLease cycleId ownerId _ _ => some (cycleId, ownerId)
  | .releaseCycleRun cycleId ownerId => some (cycleId, ownerId)
  | .updateCycleRun cycleId ownerId _ => some (cycleId, ownerId)
  | .cancelCycleRun cycleId ownerId _ => some (cycleId, ownerId)
  | .fenceCyclePublication cycleId ownerId => some (cycleId, ownerId)
  | .recordCycleProgress cycleId ownerId _ _ _ _ => some (cycleId, ownerId)
  | .publishOpportunityCycle p _ => p.fence
  | .persistGlobalSuggestionLifecycle _ _ fence _ => fence
  | _ => none

/-- A committed publication of the cycle. -/
def Publishes (cycleId : CycleId) : Call × Answer → Prop
  | (.publishOpportunityCycle p _, .published _) => p.fence.map Prod.fst = some cycleId
  | _ => False

instance (cycleId : CycleId) : DecidablePred (Publishes cycleId) := fun label =>
  match label with
  | (.publishOpportunityCycle p _, .published _) =>
      inferInstanceAs (Decidable (p.fence.map Prod.fst = some cycleId))
  | (.publishOpportunityCycle _ _, .cycle _) => isFalse id
  | (.tick _, _) | (.createCycleRun .., _) | (.claimCycleRun .., _) | (.renewCycleLease .., _)
  | (.releaseCycleRun .., _) | (.updateCycleRun .., _) | (.failUnownedCycleRun .., _)
  | (.requestCycleCancel .., _) | (.cancelCycleRun .., _) | (.cancelCycleRunUnowned .., _)
  | (.fenceCyclePublication .., _) | (.recordCycleProgress .., _)
  | (.persistGlobalSuggestionLifecycle .., _) => isFalse id

/-- Who holds the run: the owner, while the lease has not expired. -/
def HoldsLease (s : Store) (cycleId : CycleId) (ownerId : OwnerId) : Prop :=
  ∃ row, s.runs cycleId = some row ∧ row.OwnedBy ownerId ∧ row.LeaseLive s.clock

end InvestmentPlatform.Cycle
