/-
The global suggestion lifecycle of `app/opportunity_persistence.py`.

A completed production scan brings a list of cards.  `global_stock_suggestion` keeps one
immutable row for each episode, `global_stock_suggestion_history` the events of the
episodes in the order they were appended, and `global_stock_suggestion_current` the one
mutable projection for each (instrument, horizon).  `_persist_single_suggestion` finds
the episode a card belongs to twice over: through the projection when there is one, and
through the newest history event when there is not.

`uuid4` is a stream of identifiers, the n-th draw being `uuid4 n`; a UUID's text is the
fixed-width form of a number, so the numbers stand for the texts in `ORDER BY event_id`.
REAL columns hold numbers the code copies and never computes with.
-/
import InvestmentPlatform.Lib.Machine
import InvestmentPlatform.Lib.Table

namespace InvestmentPlatform.Suggestions

abbrev InstrumentId := String
abbrev ScanId := String
abbrev Uuid := Nat

/-- `completed_at`, as a point in time. -/
abbrev Instant := Int

inductive Horizon
  | shortTerm | longTerm
  deriving DecidableEq, Repr

/-- The four actions the public radar shows. -/
inductive PublicAction
  | strongBuy | buy | partialExit | sell
  deriving DecidableEq, Repr

/-- `action in ('STRONG_BUY', 'BUY')`. -/
def PublicAction.IsBuy (action : PublicAction) : Prop := action = .strongBuy ∨ action = .buy

instance (action : PublicAction) : Decidable action.IsBuy :=
  inferInstanceAs (Decidable (_ ∨ _))

/-- The price levels of both horizons a card carries. -/
structure TradeLevels where
  shortEntryLow : Option Rat := none
  shortEntryHigh : Option Rat := none
  shortTarget1 : Option Rat := none
  shortTarget2 : Option Rat := none
  shortInvalidation : Option Rat := none
  longEntryLow : Option Rat := none
  longEntryHigh : Option Rat := none
  longFairValue : Option Rat := none
  longTarget : Option Rat := none
  longInvalidation : Option Rat := none
  deriving DecidableEq, Repr

/-- The score, evidence and state columns a card hands on unchanged. -/
structure CardDetail where
  rankPosition : Option Int := none
  opportunityScore : Option Rat := none
  confidence : Option Rat := none
  coverage : Option Rat := none
  dataState : Option String := none
  topPositiveReasons : Option String := none
  topNegativeReasons : Option String := none
  evidenceSnapshot : Option String := none
  missingAreas : Option String := none
  staleAreas : Option String := none
  shortTermState : Option String := none
  longTermState : Option String := none
  newInvestorAction : Option String := none
  existingHolderAction : Option String := none
  currentShortAction : Option String := none
  currentLongAction : Option String := none
  deriving DecidableEq, Repr

/-- A card of the published selection; `publicAction` is `none` for any other value. -/
structure Card where
  globalInstrumentId : InstrumentId
  horizon : Horizon
  publicAction : Option PublicAction
  fingerprint : String := ""
  symbol : Option String := none
  companyName : Option String := none
  priceAtRecommendation : Option Rat := none
  currentPrice : Option Rat := none
  levels : TradeLevels := {}
  detail : CardDetail := {}
  deriving DecidableEq, Repr

inductive ScanStatus
  | completed | failed | inProgress
  deriving DecidableEq, Repr

/-- A row of `global_market_scan`. -/
structure Scan where
  scanId : ScanId
  startedAt : Instant
  completedAt : Instant
  status : ScanStatus
  market : String
  exchange : Option String
  universeCount : Int
  shortlistCount : Int
  evaluatedCount : Int
  rankEligibleCount : Int
  suppressedCount : Int
  engineVersion : String
  controlled : Bool
  failureReasonCode : Option String
  deriving DecidableEq, Repr

/-- `_suggest_ranges`: the levels of the card's own horizon. -/
structure Ranges where
  entryRangeLow : Option Rat
  entryRangeHigh : Option Rat
  fairValue : Option Rat
  target1 : Option Rat
  target2 : Option Rat
  invalidationPrice : Option Rat
  deriving DecidableEq, Repr

def suggestRanges (card : Card) : Ranges :=
  match card.horizon with
  | .shortTerm =>
      { entryRangeLow := card.levels.shortEntryLow, entryRangeHigh := card.levels.shortEntryHigh,
        fairValue := none, target1 := card.levels.shortTarget1,
        target2 := card.levels.shortTarget2, invalidationPrice := card.levels.shortInvalidation }
  | .longTerm =>
      { entryRangeLow := card.levels.longEntryLow, entryRangeHigh := card.levels.longEntryHigh,
        fairValue := card.levels.longFairValue, target1 := card.levels.longTarget,
        target2 := none, invalidationPrice := card.levels.longInvalidation }

/-- A row of `global_stock_suggestion`; the suggestion id is its key. -/
structure Suggestion where
  scanId : ScanId
  globalInstrumentId : InstrumentId
  symbol : Option String
  companyName : Option String
  horizon : Horizon
  initialAction : PublicAction
  suggestedAt : Instant
  suggestedPrice : Option Rat
  detail : CardDetail
  ranges : Ranges
  engineVersion : String
  recommendationFingerprint : String
  deriving DecidableEq, Repr

/-- A row of `global_stock_suggestion_history`. -/
structure Event where
  eventId : Uuid
  suggestionId : Uuid
  scanId : ScanId
  globalInstrumentId : InstrumentId
  horizon : Horizon
  action : PublicAction
  actionAt : Instant
  actionPrice : Option Rat
  detail : CardDetail
  engineVersion : String
  eventFingerprint : String
  deriving DecidableEq, Repr

/-- A row of `global_stock_suggestion_current`; (instrument, horizon) is its key. -/
structure Current where
  suggestionId : Uuid
  latestAction : PublicAction
  latestActionAt : Instant
  latestPrice : Option Rat
  originalSuggestedAt : Instant
  originalSuggestedPrice : Option Rat
  detail : CardDetail
  ranges : Ranges
  engineVersion : String
  lastScanId : ScanId
  deriving DecidableEq, Repr

abbrev EpisodeKey := InstrumentId × Horizon

structure Store where
  scans : Table ScanId Scan
  suggestions : Table Uuid Suggestion
  history : List Event
  current : Table EpisodeKey Current
  /-- How many identifiers `uuid4` has handed out. -/
  drawn : Nat

def Store.empty : Store := ⟨Table.empty, Table.empty, [], Table.empty, 0⟩

def Card.key (card : Card) : EpisodeKey := (card.globalInstrumentId, card.horizon)

def Event.key (event : Event) : EpisodeKey := (event.globalInstrumentId, event.horizon)

/-! ### Reading the history -/

/-- `a` comes before `b` in `ORDER BY action_at DESC, event_id DESC`. -/
def Event.Newer (a b : Event) : Prop :=
  b.actionAt < a.actionAt ∨ (a.actionAt = b.actionAt ∧ b.eventId < a.eventId)

instance (a b : Event) : Decidable (a.Newer b) := inferInstanceAs (Decidable (_ ∨ (_ ∧ _)))

/-- `ORDER BY action_at DESC, event_id DESC LIMIT 1`. -/
def newest : List Event → Option Event
  | [] => none
  | event :: rest =>
      match newest rest with
      | none => some event
      | some best => if best.Newer event then some best else some event

/-- The newest event of an (instrument, horizon). -/
def latestOfKey (s : Store) (key : EpisodeKey) : Option Event :=
  newest (s.history.filter fun event => event.key = key)

/-- The newest event of an episode. -/
def latestOfEpisode (s : Store) (suggestionId : Uuid) : Option Event :=
  newest (s.history.filter fun event => event.suggestionId = suggestionId)

/-! ### One card -/

section
variable (uuid4 : Nat → Uuid)

/-- `INSERT OR IGNORE INTO global_market_scan`. -/
def recordGlobalMarketScan (scan : Scan) (s : Store) : Store :=
  match s.scans scan.scanId with
  | some _ => s
  | none => { s with scans := s.scans.put scan.scanId scan }

/-- `_insert_global_suggestion` under a freshly drawn id. -/
def openEpisode (scan : Scan) (card : Card) (action : PublicAction) (s : Store) : Uuid × Store :=
  (uuid4 s.drawn,
    { s with
      suggestions := s.suggestions.put (uuid4 s.drawn)
        { scanId := scan.scanId, globalInstrumentId := card.globalInstrumentId,
          symbol := card.symbol, companyName := card.companyName, horizon := card.horizon,
          initialAction := action, suggestedAt := scan.completedAt,
          suggestedPrice := card.priceAtRecommendation, detail := card.detail,
          ranges := suggestRanges card, engineVersion := scan.engineVersion,
          recommendationFingerprint := card.fingerprint }
      drawn := s.drawn + 1 })

/-- The branch for a key without a projection: the newest history event names the episode. -/
def episodeFromHistory (scan : Scan) (card : Card) (action : PublicAction) (s : Store) :
    Option (Uuid × Store) :=
  match latestOfKey s card.key with
  | some latest =>
      if latest.action = .sell then
        if action.IsBuy then some (openEpisode uuid4 scan card action s) else none
      else some (latest.suggestionId, s)
  | none => if action.IsBuy then some (openEpisode uuid4 scan card action s) else none

/-- The episode a card belongs to, opened when need be; `none` where the card is ignored. -/
def chooseEpisode (scan : Scan) (card : Card) (action : PublicAction) (s : Store) :
    Option (Uuid × Store) :=
  match s.current card.key with
  | some current =>
      if current.latestAction = .sell ∧ action.IsBuy then
        some (openEpisode uuid4 scan card action s)
      else some (current.suggestionId, s)
  | none => episodeFromHistory uuid4 scan card action s

/-- `_insert_global_history_event`. -/
def insertGlobalHistoryEvent (suggestionId : Uuid) (scan : Scan) (card : Card)
    (action : PublicAction) (s : Store) : Store :=
  { s with
    history := s.history ++
      [{ eventId := uuid4 s.drawn, suggestionId, scanId := scan.scanId,
         globalInstrumentId := card.globalInstrumentId, horizon := card.horizon, action,
         actionAt := scan.completedAt, actionPrice := card.currentPrice, detail := card.detail,
         engineVersion := scan.engineVersion, eventFingerprint := card.fingerprint }]
    drawn := s.drawn + 1 }

/-- Append the event unless the episode's newest one already carries the card's fingerprint. -/
def appendDeduplicated (suggestionId : Uuid) (scan : Scan) (card : Card) (action : PublicAction)
    (s : Store) : Store :=
  match latestOfEpisode s suggestionId with
  | some last =>
      if last.eventFingerprint = card.fingerprint then s
      else insertGlobalHistoryEvent uuid4 suggestionId scan card action s
  | none => insertGlobalHistoryEvent uuid4 suggestionId scan card action s

/-- `_upsert_global_current`: the original date and price are read back from the immutable row. -/
def upsertGlobalCurrent (suggestionId : Uuid) (scan : Scan) (card : Card) (action : PublicAction)
    (s : Store) : Store :=
  let original := match s.suggestions suggestionId with
    | some row => (row.suggestedAt, row.suggestedPrice)
    | none => (scan.completedAt, card.priceAtRecommendation)
  { s with
    current := s.current.put card.key
      { suggestionId, latestAction := action, latestActionAt := scan.completedAt,
        latestPrice := card.currentPrice, originalSuggestedAt := original.1,
        originalSuggestedPrice := original.2, detail := card.detail,
        ranges := suggestRanges card, engineVersion := scan.engineVersion,
        lastScanId := scan.scanId } }

/-- What `_persist_single_suggestion` does once the episode is known. -/
def recordOnEpisode (scan : Scan) (card : Card) (action : PublicAction) (episode : Uuid × Store) :
    Store :=
  upsertGlobalCurrent episode.1 scan card action
    (appendDeduplicated uuid4 episode.1 scan card action episode.2)

def persistSingleSuggestion (scan : Scan) (card : Card) (action : PublicAction) (s : Store) :
    Store :=
  match chooseEpisode uuid4 scan card action s with
  | none => s
  | some episode => recordOnEpisode uuid4 scan card action episode

/-! ### One scan -/

/-- The cards the loop persists: a public action, and the first card of its key. -/
def admittedCards : List EpisodeKey → List Card → List (PublicAction × Card)
  | _, [] => []
  | seen, card :: cards =>
      match card.publicAction with
      | none => admittedCards seen cards
      | some action =>
          if card.key ∈ seen then admittedCards seen cards
          else (action, card) :: admittedCards (card.key :: seen) cards

def persistCards (scan : Scan) (cards : List (PublicAction × Card)) (s : Store) : Store :=
  cards.foldl (fun s entry => persistSingleSuggestion uuid4 scan entry.2 entry.1 s) s

def persistGlobalSuggestionLifecycle (scan : Scan) (cards : List Card) (s : Store) : Store :=
  let recorded := recordGlobalMarketScan scan s
  if scan.controlled = true ∨ scan.status ≠ .completed then recorded
  else persistCards uuid4 scan (admittedCards [] cards) recorded

end

end InvestmentPlatform.Suggestions

/-!
The suggestion store as a machine, and the law of its episodes.

A label is one call of `persist_global_suggestion_lifecycle` for a completed production scan
that finished after every scan before it.  An episode is a suggestion id: the events that
carry it, in the order they were appended, are what a back-test replays.
-/

namespace InvestmentPlatform.Suggestions

/-- The store and the completion time of its newest scan. -/
structure Radar where
  store : Store
  lastCompletedAt : Option Instant

def Radar.empty : Radar := ⟨Store.empty, none⟩

abbrev ScanCall := Scan × List Card

/-- A completed, non-controlled scan that finished after the last one. -/
def Admissible (r : Radar) (scan : Scan) : Prop :=
  scan.controlled = false ∧ scan.status = .completed ∧
    ∀ last ∈ r.lastCompletedAt, last < scan.completedAt

instance (r : Radar) (scan : Scan) : Decidable (Admissible r scan) :=
  inferInstanceAs (Decidable (_ ∧ _ ∧ ∀ last ∈ r.lastCompletedAt, last < scan.completedAt))

variable (uuid4 : Nat → Uuid)

def exec (r : Radar) (call : ScanCall) : Option (Unit × Radar) :=
  if Admissible r call.1 then
    some ((), { store := persistGlobalSuggestionLifecycle uuid4 call.1 call.2 r.store,
                lastCompletedAt := some call.1.completedAt })
  else none

def system : Machine Radar (ScanCall × Unit) := Machine.ofStep Radar.empty (exec uuid4)

/-! ### The projection -/

/-- The newest event of the key's episode carries the projection's action. -/
def AgreesAt (s : Store) (key : EpisodeKey) : Prop :=
  ∀ current, s.current key = some current →
    ∃ event, latestOfEpisode s current.suggestionId = some event ∧
      event.action = current.latestAction

/-- A card that carries the fingerprint of its episode's newest event carries its action. -/
def Covers (s : Store) (card : Card) (action : PublicAction) : Prop :=
  ∀ current, s.current card.key = some current →
    ¬ (current.latestAction = .sell ∧ action.IsBuy) →
    ∀ event, latestOfEpisode s current.suggestionId = some event →
      event.eventFingerprint = card.fingerprint → event.action = action

/-- No card the loop persists is deduplicated against an event of another action. -/
def FingerprintsCover (s : Store) (cards : List Card) : Prop :=
  ∀ entry ∈ admittedCards [] cards, Covers s entry.2 entry.1

/-- The machine of the calls whose fingerprints cover their actions. -/
def covered : Machine Radar (ScanCall × Unit) :=
  (system uuid4).restrict fun r label => FingerprintsCover r.store label.1.2

/-- What every sequence of scans keeps of the projection, whatever its cards. -/
structure ProjectionLaw (r : Radar) : Prop where
  /-- A projection stands for an immutable row and carries its date and price. -/
  owned : ∀ key current, r.store.current key = some current →
    ∃ row, r.store.suggestions current.suggestionId = some row ∧
      current.originalSuggestedAt = row.suggestedAt ∧
      current.originalSuggestedPrice = row.suggestedPrice
  /-- The last call made again changes nothing. -/
  replayed : ∀ (call : ScanCall) r', exec uuid4 r call = some ((), r') →
    persistGlobalSuggestionLifecycle uuid4 call.1 call.2 r'.store = r'.store

/-! ### The law -/

/-- The newest event of the key is a SELL. -/
def EpisodeClosed (s : Store) (key : EpisodeKey) : Prop :=
  ∃ event, latestOfKey s key = some event ∧ event.action = .sell

instance (s : Store) (key : EpisodeKey) : Decidable (EpisodeClosed s key) :=
  inferInstanceAs (Decidable (∃ event, latestOfKey s key = some event ∧ event.action = .sell))

/-- No card the loop persists is an exit on a closed episode. -/
def ExitsOpenEpisodes (s : Store) (cards : List Card) : Prop :=
  ∀ entry ∈ admittedCards [] cards, EpisodeClosed s entry.2.key → entry.1.IsBuy

instance (s : Store) (cards : List Card) : Decidable (ExitsOpenEpisodes s cards) :=
  inferInstanceAs (Decidable (∀ entry ∈ admittedCards [] cards,
    EpisodeClosed s entry.2.key → entry.1.IsBuy))

/-- After a SELL no further event carries the same suggestion id. -/
def ClosedForGood (history : List Event) : Prop :=
  history.Pairwise fun sold later => sold.action = .sell → later.suggestionId ≠ sold.suggestionId

instance (history : List Event) : Decidable (ClosedForGood history) :=
  inferInstanceAs (Decidable (history.Pairwise _))

/-- The first event of every suggestion id is a BUY or a STRONG_BUY. -/
def OpensWithBuy (history : List Event) : Prop :=
  ∀ front event back, history = front ++ event :: back →
    (∀ earlier ∈ front, earlier.suggestionId ≠ event.suggestionId) → event.action.IsBuy

/-- `s'` has, for the card, a suggestion that `s` did not have, with the card's own price and the
scan's own date, its opening event, and the projection pointing to it. -/
def OpensFresh (s : Store) (scan : Scan) (action : PublicAction) (card : Card) (s' : Store) :
    Prop :=
  ∃ suggestionId row current event,
    s.suggestions suggestionId = none ∧
    (∀ earlier ∈ s.history, earlier.suggestionId ≠ suggestionId) ∧
    s'.suggestions suggestionId = some row ∧ row.initialAction = action ∧
    row.suggestedAt = scan.completedAt ∧ row.suggestedPrice = card.priceAtRecommendation ∧
    s'.current card.key = some current ∧ current.suggestionId = suggestionId ∧
    current.originalSuggestedAt = scan.completedAt ∧
    current.originalSuggestedPrice = card.priceAtRecommendation ∧
    event ∈ s'.history ∧ event.suggestionId = suggestionId ∧ event.action = action

/-- The machine of the calls that bring no exit on a closed episode. -/
def conforming : Machine Radar (ScanCall × Unit) :=
  (system uuid4).restrict fun r label => ExitsOpenEpisodes r.store label.1.2

/-- The episode law of a state: what its history looks like, and what the next call does. -/
structure EpisodeLaw (r : Radar) : Prop where
  closed : ClosedForGood r.store.history
  opened : OpensWithBuy r.store.history
  /-- A card on a closed episode is a BUY or STRONG_BUY, and opens a fresh suggestion. -/
  reopens : ∀ (call : ScanCall) r', exec uuid4 r call = some ((), r') →
    ExitsOpenEpisodes r.store call.2 → ∀ entry ∈ admittedCards [] call.2,
      EpisodeClosed r.store entry.2.key →
        OpensFresh r.store call.1 entry.1 entry.2 r'.store
  /-- On a closed episode the branch with a projection is the branch without one. -/
  agrees : ∀ call : ScanCall, ExitsOpenEpisodes r.store call.2 → ∀ entry ∈ admittedCards [] call.2,
    EpisodeClosed r.store entry.2.key →
      chooseEpisode uuid4 call.1 entry.2 entry.1 r.store
        = episodeFromHistory uuid4 call.1 entry.2 entry.1 r.store
  /-- The condition is exact: any exit on a closed episode separates the two branches. -/
  differs : ∀ scan card (action : PublicAction), EpisodeClosed r.store card.key →
    ¬ action.IsBuy → chooseEpisode uuid4 scan card action r.store
      ≠ episodeFromHistory uuid4 scan card action r.store

end InvestmentPlatform.Suggestions
