/-
One production cycle over a list of snapshots, `prepare_cycle` of
`app/global_opportunity_cycle.py`, and the store it carries from one cycle to the next.

Every snapshot is compared with its instrument's original recommendation.  A recommendation
is recorded when its fingerprint differs from that of the instrument's latest; the state row
is written in any case.  Publication appends the recorded recommendations to the history and
puts the rows in place, all at once.  The cards of the selection are derived from these rows
and change nothing in the store.

A snapshot is unique for its cycle and instrument, so a list with two snapshots of one
instrument never gets here.  `uuid4` is a stream of identifiers.
-/
import InvestmentPlatform.Opportunity.Engine
import InvestmentPlatform.Suggestions.Lifecycle

namespace InvestmentPlatform.Opportunity

variable {F D : Type}

/-- A row of `stock_recommendation_history`. -/
structure Recommendation (F D : Type) extends Evaluation F D where
  recommendationId : RecommendationId
  snapshotId : String

structure Store (F D : Type) where
  history : List (Recommendation F D)
  states : Table InstrumentId (State F)
  /-- How many identifiers `uuid4` has handed out. -/
  drawn : Nat

def Store.empty : Store F D := ⟨[], Table.empty, 0⟩

/-- `histories.get(recommendation_id)`; the id is the table's key. -/
def Store.recorded (db : Store F D) (recommendationId : RecommendationId) :
    Option (Recommendation F D) :=
  db.history.find? fun r => r.recommendationId = recommendationId

/-- The latest and the original recommendation an old state names, where they are recorded. -/
def Store.previous (db : Store F D) (old : Option (State F)) : Option (Recommendation F D) :=
  old.bind fun state => db.recorded state.latestRecommendationId

def Store.anchor (db : Store F D) (old : Option (State F)) : Option (Recommendation F D) :=
  old.bind fun state => state.anchorRecommendationId.bind db.recorded

/-- `anchor or previous`. -/
def Store.reference (db : Store F D) (old : Option (State F)) : Option (Evaluation F D) :=
  ((db.anchor old).or (db.previous old)).map Recommendation.toEvaluation

/-- The two digests of a recommendation: of the evaluation's payload, and of the evaluation's
fingerprint together with the final actions. -/
structure Digests (F D : Type) where
  hash : Payload F → D
  review : D → ShortAction → LongAction → D

/-- Different actions have different digests, and the second digest loses nothing. -/
structure Digests.Faithful (digests : Digests F D) : Prop where
  hash : ∀ payload payload', digests.hash payload = digests.hash payload' →
    payload.actions = payload'.actions
  review : ∀ base base' short short' long long',
    digests.review base short long = digests.review base' short' long' →
      base = base' ∧ short = short' ∧ long = long'

section
variable [PyFloat F] (digests : Digests F D)

/-- The comparison a cycle stores for a snapshot. -/
def reviewState (s : Snapshot F) (reference : Option (Evaluation F D))
    (old : Option (State F)) : Lifecycle F :=
  let recommendation := evaluate digests.hash s reference
  lifecycle (reference.getD recommendation) recommendation s.currentPrice
    (old.map PreviousState.stored)

/-- The recommendation of a snapshot with its final actions and fingerprint. -/
def finalRecommendation (s : Snapshot F) (reference : Option (Evaluation F D))
    (old : Option (State F)) : Evaluation F D :=
  let recommendation := evaluate digests.hash s reference
  let state := reviewState digests s reference old
  { recommendation with
    shortTermAction := state.currentShortAction
    longTermAction := state.currentLongAction
    fingerprint := digests.review recommendation.fingerprint state.currentShortAction
      state.currentLongAction }

/-- What a cycle makes of one snapshot: a recommendation to record, if any, and the state. -/
structure Prepared (F D : Type) where
  recommendation : Option (Recommendation F D)
  state : State F

variable [DecidableEq D]

def prepareSnapshot (db : Store F D) (now : String) (freshId : RecommendationId)
    (s : Snapshot F) : Prepared F D :=
  let old := db.states s.globalInstrumentId
  let reference := db.reference old
  let final := finalRecommendation digests s reference old
  let kept := (db.previous old).filter fun r => r.fingerprint = final.fingerprint
  let latestId := match kept with
    | some previous => previous.recommendationId
    | none => freshId
  { recommendation := match kept with
      | some _ => none
      | none => some { final with recommendationId := freshId, snapshotId := s.snapshotId }
    state :=
      { reviewState digests s reference old with
        globalInstrumentId := s.globalInstrumentId
        latestRecommendationId := latestId
        anchorRecommendationId := match old with
          | some state =>
              some (state.anchorRecommendationId.getD state.latestRecommendationId)
          | none => some latestId
        updatedAt := now
        symbol := s.carried.symbol
        companyName := s.carried.companyName } }

/-- The loop of `prepare_cycle`; an identifier is drawn for each recorded recommendation. -/
def prepareAll (uuid4 : Nat → RecommendationId) (db : Store F D) (now : String) :
    Nat → List (Snapshot F) → List (Prepared F D)
  | _, [] => []
  | drawn, s :: rest =>
      let prepared := prepareSnapshot digests db now (uuid4 drawn) s
      prepared :: prepareAll uuid4 db now
        (drawn + (if prepared.recommendation.isSome then 1 else 0)) rest

/-- `INSERT` the recommendations, then upsert the states. -/
def publish (db : Store F D) (prepared : List (Prepared F D)) : Store F D where
  history := db.history ++ prepared.filterMap Prepared.recommendation
  states := prepared.foldl (fun states p => states.put p.state.globalInstrumentId p.state)
    db.states
  drawn := db.drawn + (prepared.filterMap Prepared.recommendation).length

/-- The snapshots of one cycle and its time stamp. -/
structure ProductionCycle (F : Type) where
  now : String
  snapshots : List (Snapshot F)

def runCycle (uuid4 : Nat → RecommendationId) (db : Store F D) (cycle : ProductionCycle F) : Store F D :=
  publish db (prepareAll digests uuid4 db cycle.now db.drawn cycle.snapshots)

/-- No instrument has two snapshots. -/
def ProductionCycle.Distinct (cycle : ProductionCycle F) : Prop :=
  (cycle.snapshots.map Snapshot.globalInstrumentId).Nodup

instance (cycle : ProductionCycle F) : Decidable cycle.Distinct :=
  inferInstanceAs (Decidable (cycle.snapshots.map Snapshot.globalInstrumentId).Nodup)

def exec (uuid4 : Nat → RecommendationId) (db : Store F D) (cycle : ProductionCycle F) :
    Option (Unit × Store F D) :=
  if cycle.Distinct then some ((), runCycle digests uuid4 db cycle) else none

/-- Production cycles, one after the other, from the empty store. -/
def system (uuid4 : Nat → RecommendationId) : Machine (Store F D) (ProductionCycle F × Unit) :=
  Machine.ofStep Store.empty (exec digests uuid4)

end

end InvestmentPlatform.Opportunity

/-!
The public cards of a production cycle, `public_action` and `public_horizon` of
`app/global_opportunity_cycle.py`.

Every snapshot of a cycle becomes a card with the state its review left.  Two cascades over the
pair of its actions name what the radar shows: the public action, and the horizon it is shown
for.  The suggestion lifecycle records the action on that horizon.
-/

namespace InvestmentPlatform.Opportunity

open PyFloat
open Suggestions (PublicAction Horizon)

variable {F D : Type}

def publicAction (short : ShortAction) (long : LongAction)
    (newInvestorAction : Option NewInvestorAction) : Option PublicAction :=
  if short = .exit ∨ long = .exitReview then some .sell
  else if short = .partialExit ∨ long = .reduce then some .partialExit
  else if short = .buy ∨ long ∈ [.accumulate, .topUp] then
    if newInvestorAction = some .strongBuyCandidate then some .strongBuy else some .buy
  else none

def publicHorizon (short : ShortAction) (long : LongAction) : Option Horizon :=
  if short = .exit ∨ short = .partialExit ∨ short = .buy then some .shortTerm
  else if long = .exitReview ∨ long = .reduce ∨ long ∈ [.accumulate, .topUp] then some .longTerm
  else none

/-- What the cards are published by: the state, and the two public fields. -/
structure Card (F : Type) where
  state : State F
  newInvestorAction : Option NewInvestorAction
  publicAction : Option PublicAction
  horizon : Option Horizon

/-- The card of a prepared snapshot; `latest` is the recommendation its state names. -/
def makeCard (latest : Option (Recommendation F D)) (state : State F) : Card F :=
  let newInvestorAction := latest.map fun r => r.newInvestorAction
  { state, newInvestorAction
    publicAction := publicAction state.currentShortAction state.currentLongAction newInvestorAction
    horizon := publicHorizon state.currentShortAction state.currentLongAction }

/-- The loop of `prepare_cycle`, for its cards. -/
def prepareCards [PyFloat F] [DecidableEq D] (digests : Digests F D)
    (uuid4 : Nat → RecommendationId) (db : Store F D) (cycle : ProductionCycle F) :
    List (Card F) :=
  (prepareAll digests uuid4 db cycle.now db.drawn cycle.snapshots).map fun prepared =>
    makeCard (prepared.recommendation.or
      (db.previous (db.states prepared.state.globalInstrumentId))) prepared.state

/-! ### Whose action a card shows -/

/-- The lifecycle of this horizon asked for this public action. -/
def Asked (card : Card F) : Horizon → PublicAction → Prop
  | .shortTerm, .sell => card.state.currentShortAction = .exit
  | .shortTerm, .partialExit => card.state.currentShortAction = .partialExit
  | .shortTerm, _ => card.state.currentShortAction = .buy
  | .longTerm, .sell => card.state.currentLongAction = .exitReview
  | .longTerm, .partialExit => card.state.currentLongAction = .reduce
  | .longTerm, _ => card.state.currentLongAction ∈ [.accumulate, .topUp]

instance (card : Card F) : (horizon : Horizon) → (action : PublicAction) →
    Decidable (Asked card horizon action)
  | .shortTerm, .sell => inferInstanceAs (Decidable (_ = _))
  | .shortTerm, .partialExit => inferInstanceAs (Decidable (_ = _))
  | .shortTerm, .buy => inferInstanceAs (Decidable (_ = _))
  | .shortTerm, .strongBuy => inferInstanceAs (Decidable (_ = _))
  | .longTerm, .sell => inferInstanceAs (Decidable (_ = _))
  | .longTerm, .partialExit => inferInstanceAs (Decidable (_ = _))
  | .longTerm, .buy => inferInstanceAs (Decidable (_ ∈ _))
  | .longTerm, .strongBuy => inferInstanceAs (Decidable (_ ∈ _))

/-- The published horizon owns the published action. -/
def Card.Owns (card : Card F) : Prop :=
  ∀ action ∈ card.publicAction, ∃ horizon ∈ card.horizon, Asked card horizon action

/-- A card of the suggestion lifecycle that publishes one of these. -/
def Publishes (cards : List (Card F)) (published : Suggestions.Card) : Prop :=
  ∃ card ∈ cards, published.globalInstrumentId = card.state.globalInstrumentId ∧
    card.horizon = some published.horizon ∧ published.publicAction = card.publicAction

/-- What the suggestion lifecycle makes of any selection of the cards: it opens suggestions and
appends events only where the horizon's own lifecycle asked for the action. -/
def RecordsAsked (cards : List (Card F)) : Prop :=
  ∀ (uuid4 : Nat → Suggestions.Uuid) (scan : Suggestions.Scan)
    (published : List Suggestions.Card) (s : Suggestions.Store),
    (∀ card ∈ published, Publishes cards card) →
    (∀ event ∈ (Suggestions.persistGlobalSuggestionLifecycle uuid4 scan published s).history,
      event ∈ s.history ∨ ∃ card ∈ cards,
        event.globalInstrumentId = card.state.globalInstrumentId ∧
          Asked card event.horizon event.action) ∧
    ∀ id row,
      (Suggestions.persistGlobalSuggestionLifecycle uuid4 scan published s).suggestions id =
        some row →
      s.suggestions id = some row ∨ ∃ card ∈ cards,
        row.globalInstrumentId = card.state.globalInstrumentId ∧
          Asked card row.horizon row.initialAction

/-! ### When the horizons cross -/

section
variable [PyFloat F]

/-- The levels a snapshot is compared with: the reference's, or its own. -/
def anchorLevels (s : Snapshot F) (reference : Option (Evaluation F D)) : Levels F :=
  match reference with
  | some anchor => anchor.levels
  | none => ranges s

/-- The price has fallen to a level. -/
def AtOrBelow (level price : Option F) : Prop :=
  ∃ p, price = some p ∧ Truthy level fun v => p ≤ v

/-- The price has risen to the first short-term target, clear of the invalidation. -/
def FirstTarget (levels : Levels F) (price : Option F) : Prop :=
  ∃ p, price = some p ∧ ¬ (Truthy levels.shortInvalidation fun v => p ≤ v * lit 1.03) ∧
    Truthy levels.shortTarget1 fun t => t ≤ p

instance (level price : Option F) : Decidable (AtOrBelow level price) :=
  inferInstanceAs (Decidable (∃ p, price = some p ∧ Truthy level fun v => p ≤ v))

instance (levels : Levels F) (price : Option F) : Decidable (FirstTarget levels price) :=
  inferInstanceAs (Decidable (∃ p, price = some p ∧
    ¬ (Truthy levels.shortInvalidation fun v => p ≤ v * lit 1.03) ∧
    Truthy levels.shortTarget1 fun t => t ≤ p))

/-- The long horizon is invalidated, by the price or since an earlier cycle. -/
def LongBroken (s : Snapshot F) (levels : Levels F) (old : Option (State F)) : Prop :=
  AtOrBelow levels.longInvalidation s.currentPrice ∨
    ∃ state, old = some state ∧ state.longTermState = .invalidated

/-- The short horizon is closed, by the price or since an earlier cycle. -/
def ShortBroken (s : Snapshot F) (levels : Levels F) (old : Option (State F)) : Prop :=
  AtOrBelow levels.shortInvalidation s.currentPrice ∨
    ∃ state, old = some state ∧ state.currentShortAction = .exit

instance (s : Snapshot F) (levels : Levels F) (old : Option (State F)) :
    Decidable (LongBroken s levels old) :=
  inferInstanceAs (Decidable (_ ∨ ∃ state, old = some state ∧ state.longTermState = .invalidated))

instance (s : Snapshot F) (levels : Levels F) (old : Option (State F)) :
    Decidable (ShortBroken s levels old) :=
  inferInstanceAs (Decidable (_ ∨ ∃ state, old = some state ∧ state.currentShortAction = .exit))

/-- The thesis and the short horizon stand, and the long horizon wants out: either the short one
books a part of its profit against a broken long horizon, or it buys against a broken or a
weakening one. -/
def Crossed (s : Snapshot F) (levels : Levels F) (old : Option (State F)) : Prop :=
  ¬ ThesisBroken s ∧ ¬ ShortBroken s levels old ∧
    if FirstTarget levels s.currentPrice then
      LongBroken s levels old ∧ ¬ SecondTarget levels s.currentPrice true
    else
      ShortBuy s ∧ (LongBroken s levels old ∨ ¬ LongBuy s ∧ weakAreas s.evidence.rule ≠ [])

instance (s : Snapshot F) (levels : Levels F) (old : Option (State F)) :
    Decidable (Crossed s levels old) :=
  inferInstanceAs (Decidable (_ ∧ _ ∧ ite _ _ _))

end

end InvestmentPlatform.Opportunity
