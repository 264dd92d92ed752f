/-
Compact nominations and the discovery of deep candidates, `app/opportunity_discovery.py`.

`nominate_compact` says why a scan candidate deserves a deep look: a market signal, a change
in its fundamentals, a dated catalyst.  `discover` keeps the best nominations of each kind,
fills a budget from them, holds a part of it back for a rotation through the whole universe,
and says in a cursor where the next rotation goes on.

An instrument id is the text of its UUID.  A date-time keeps its instant, whether it has a
time zone, and its ISO text.  The events of an instrument come from the repository, which may
fail; logging is left out.
-/
import InvestmentPlatform.Lib.Dict
import InvestmentPlatform.Lib.PyFloat
import InvestmentPlatform.Lib.RoundRobin
import InvestmentPlatform.Lib.Selection
import InvestmentPlatform.Rules.Input
import Mathlib.Data.Prod.Lex
import Mathlib.Data.String.Basic

namespace InvestmentPlatform.Discovery

open Rules (Instant SourceMode SourceClassification ResearchLifecycleStatus)

/-! ### What is read -/

structure Moment where
  instant : Instant
  aware : Bool
  isoformat : String
  deriving DecidableEq, Repr

structure ResearchEvent where
  eventId : String
  eventType : String
  eventDate : Option Moment
  publishedAt : Option Moment
  sourceMode : SourceMode
  sourceClassification : SourceClassification
  status : ResearchLifecycleStatus
  sourceUrl : String
  deriving DecidableEq, Repr

/-- The `EvidenceState` of the scanner. -/
inductive EvidenceState
  | available | partialCoverage | stale | missing | conflicting | notApplicable
  deriving DecidableEq, Repr

structure PreScoreDimension (F : Type) where
  state : EvidenceState
  score : Option F

/-- What discovery reads of a `GlobalScanCandidate`. -/
structure Candidate (F : Type) where
  globalInstrumentId : String
  eligibleForAcquisition : Bool
  preScore : Option F
  dimensions : Dict String (PreScoreDimension F)

/-- `PATHS`. -/
inductive Path
  | marketTechnical | fundamentalChange | eventCatalyst | rotationExploration
  deriving DecidableEq, Repr

/-- `PATHS[:-1]`. -/
def nominationPaths : List Path := [.marketTechnical, .fundamentalChange, .eventCatalyst]

structure CandidateNomination (F : Type) where
  instrumentId : String
  path : Path
  reasons : List String
  score : Option F := none
  evidenceTimestamp : Option String := none
  source : Option String := none
  deriving DecidableEq, Repr

/-! ### Nominations -/

/-- `event_concept`. -/
def eventConcept (eventType : String) : Option String :=
  if eventType ∈ ["NEW_ORDER", "ORDER_BACKLOG_CHANGE", "MAJOR_CONTRACT", "GOVERNMENT_CONTRACT",
      "ORDER_CANCELLED"] then
    some "ORDER_BOOK"
  else if eventType ∈ ["CAPEX", "FACTORY_EXPANSION", "CAPACITY_EXPANSION", "NEW_FACILITY",
      "PROJECT_DELAY"] then
    some "CAPEX"
  else if "GUIDANCE_".toList.isPrefixOf eventType.toList then
    some "GUIDANCE"
  else none

/-- `_CATALYST_WINDOW`, thirty days. -/
def catalystWindow : Int := 30 * 24 * 60 * 60 * 1000000

variable {F : Type}

/-- The date of an authoritative catalyst of the window. -/
def catalystDate (asOf : Instant) (event : ResearchEvent) : Option Moment :=
  (event.eventDate.or event.publishedAt).filter fun moment =>
    event.sourceMode = .real ∧ event.sourceClassification = .exchange ∧
      event.status ≠ .rejected ∧ (eventConcept event.eventType).isSome ∧ moment.aware ∧
      0 ≤ asOf - moment.instant ∧ asOf - moment.instant ≤ catalystWindow

/-- The latest catalyst; of one instant, the event with the greatest id. -/
def latestCatalyst (asOf : Instant) (events : List ResearchEvent) :
    Option (Moment × ResearchEvent) :=
  Selection.firstMax (fun dated => toLex (dated.1.instant, dated.2.eventId))
    (events.filterMap fun event => (catalystDate asOf event).map fun moment => (moment, event))

def nominateMarket (candidate : Candidate F) (marketIds : List String) :
    Option (CandidateNomination F) :=
  if candidate.globalInstrumentId ∈ marketIds then
    some { instrumentId := candidate.globalInstrumentId
           path := .marketTechnical
           reasons := ["EXISTING_PRELIMINARY_SIGNAL"]
           score := candidate.preScore }
  else none

def nominateGrowth (candidate : Candidate F) : Option (CandidateNomination F) :=
  match candidate.dimensions.get? "GROWTH_QUALITY" with
  | some growth =>
      if growth.state ∈ [.available, .partialCoverage] ∧ growth.score.isSome then
        some { instrumentId := candidate.globalInstrumentId
               path := .fundamentalChange
               reasons := ["DURABLE_REVENUE_OR_EARNINGS_CHANGE"]
               score := growth.score }
      else none
  | none => none

def nominateCatalyst (candidate : Candidate F) (events : List ResearchEvent) (asOf : Instant) :
    Option (CandidateNomination F) :=
  (latestCatalyst asOf events).map fun (moment, event) =>
    { instrumentId := candidate.globalInstrumentId
      path := .eventCatalyst
      reasons := [event.eventType]
      evidenceTimestamp := some moment.isoformat
      source := some event.sourceUrl }

def nominateCompact (candidate : Candidate F) (marketIds : List String)
    (events : List ResearchEvent) (asOf : Instant) : List (CandidateNomination F) :=
  if candidate.eligibleForAcquisition then
    (nominateMarket candidate marketIds).toList ++ (nominateGrowth candidate).toList ++
      (nominateCatalyst candidate events asOf).toList
  else []

/-! ### Discovery -/

variable [PyFloat F]

/-- `int(timestamp[:10].replace('-', ''))`. -/
def dateNumber (timestamp : String) : Int :=
  ((timestamp.toList.take 10).filter (· ≠ '-')).foldl
    (fun number c => 10 * number + ((c.toNat : Int) - '0'.toNat)) 0

abbrev PoolKey (F : Type) := Fᵒᵈ ×ₗ Int ×ₗ String

/-- Best score first, then the newest evidence, then the id. -/
def poolKey (nomination : CandidateNomination F) : PoolKey F :=
  toLex (OrderDual.toDual (nomination.score.getD 0),
    toLex (-((nomination.evidenceTimestamp.filter (· ≠ "")).map dateNumber).getD 0,
      nomination.instrumentId))

abbrev Pools (F : Type) := Path → List (CandidateNomination F)

/-- Append, sort, truncate. -/
def pool (budget : Nat) (pools : Pools F) (nomination : CandidateNomination F) : Pools F :=
  Function.update pools nomination.path
    ((Selection.sortOn poolKey (pools nomination.path ++ [nomination])).take budget)

/-- The nominations of each selected instrument, by path. -/
abbrev Selected (F : Type) := Dict String (Dict Path (CandidateNomination F))

def add (selected : Selected F) (nomination : CandidateNomination F) : Selected F :=
  let values := (selected.get? nomination.instrumentId).getD Dict.empty
  selected.set nomination.instrumentId (values.set nomination.path nomination)

/-- The arguments of `discover`, without the cursor. -/
structure Request (F : Type) where
  candidates : List (Candidate F)
  marketPool : List (Candidate F)
  budget : Nat
  asOf : Instant
  /-- `repository.events_for`; `none` where it raises. -/
  eventsFor : String → Option (List ResearchEvent)
  excludeIds : List String := []
  fullUniverse : Bool := false

namespace Request

variable (request : Request F)

def eligibleCandidates : List (Candidate F) :=
  request.candidates.filter fun c =>
    c.eligibleForAcquisition ∧ c.globalInstrumentId ∉ request.excludeIds

def eligible : Dict String (Candidate F) :=
  Dict.ofList Candidate.globalInstrumentId id request.eligibleCandidates

def marketIds : List String := request.marketPool.map Candidate.globalInstrumentId

def readNominations (candidate : Candidate F) : List (CandidateNomination F) :=
  nominateCompact candidate request.marketIds
    ((request.eventsFor candidate.globalInstrumentId).getD []) request.asOf

def pools : Pools F :=
  (request.eligible.values.flatMap request.readNominations).foldl (pool request.budget) fun _ => []

/-- The part of the budget held back for the rotation. -/
def reserve : Nat :=
  if request.eligible.size = 0 then 0
  else min request.budget (max 1 (request.budget / 4))

/-- One step of the admission by priority: the `i`-th nomination of a path. -/
def admitStep (i : Nat) (selected : Selected F) (path : Path) : Selected F :=
  match (request.pools path)[i]? with
  | none => selected
  | some nomination =>
      if selected.size < request.budget - request.reserve ∨
          nomination.instrumentId ∈ selected.keys then
        add selected nomination
      else selected

def priority : Selected F :=
  (List.range request.budget).foldl
    (fun selected i => nominationPaths.foldl (request.admitStep i) selected) Dict.empty

def ids : List String := Selection.sortOn id request.eligible.keys

def rotationNomination (key : String) : CandidateNomination F :=
  { instrumentId := key, path := .rotationExploration, reasons := ["CANONICAL_ROTATION"] }

/-- The rotation: the selection and the cursor when it stops. -/
def explore : List String → Selected F → Nat → Option String → Selected F × Option String
  | [], selected, _, cursor => (selected, cursor)
  | key :: rest, selected, explored, cursor =>
      if request.reserve ≤ explored ∧ request.budget ≤ selected.size then (selected, cursor)
      else if key ∈ selected.keys then explore rest selected explored (some key)
      else
        explore rest (add selected (rotationNomination key)) (explored + 1) (some key)

def explored (rotationAfter : Option String) : Selected F × Option String :=
  request.explore (RoundRobin.turn request.ids rotationAfter) request.priority 0 rotationAfter

/-- With `full_universe` the rest of the eligible candidates, without nominations. -/
def completed (selected : Selected F) : Selected F :=
  if request.fullUniverse then
    request.eligible.keys.foldl (fun selected key => selected.setDefault key Dict.empty) selected
  else selected

/-- The nominations once more, so that no truncated pool hides one. -/
def renominated (selected : Selected F) : Selected F :=
  selected.keys.foldl (fun selected key =>
    match request.eligible.get? key with
    | some candidate => (request.readNominations candidate).foldl add selected
    | none => selected) selected

end Request

/-- A nomination as it is returned. -/
structure NominationRecord (F : Type) where
  path : Path
  reasons : List String
  score : Option F
  evidenceTimestamp : Option String
  source : Option String
  deriving DecidableEq, Repr

def CandidateNomination.toRecord (n : CandidateNomination F) : NominationRecord F :=
  { path := n.path, reasons := n.reasons, score := n.score
    evidenceTimestamp := n.evidenceTimestamp, source := n.source }

structure Discovered (F : Type) where
  candidates : List (Candidate F)
  nominations : Dict String (List (NominationRecord F))
  cursor : Option String

def discover (request : Request F) (rotationAfter : Option String) : Discovered F :=
  let (explored, cursor) := request.explored rotationAfter
  let selected := request.renominated (request.completed explored)
  { candidates := selected.keys.filterMap request.eligible.get?
    nominations := Dict.ofList Prod.fst
      (fun item => item.2.values.map CandidateNomination.toRecord) selected.items
    cursor }

/-- Calls one after the other, each from the cursor the one before returned. -/
def discoverRuns : List (Request F) → Option String → List (Discovered F)
  | [], _ => []
  | request :: rest, rotationAfter =>
      let discovered := discover request rotationAfter
      discovered :: discoverRuns rest discovered.cursor

end InvestmentPlatform.Discovery
