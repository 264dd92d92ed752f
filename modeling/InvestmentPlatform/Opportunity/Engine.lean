/-
The recommendation policy of `app/recommendation_engine.py`.

`evaluate` turns one opportunity snapshot into four actions and the price levels they rest
on; `lifecycle` compares a recommendation with the levels of the instrument's original one.
`evaluate` itself runs the comparison once when there is something to compare with, and the
fingerprint it ends with covers the actions the comparison has rewritten.

Numbers are floats through the interface `PyFloat`; a snapshot is stored as JSON without NaN
or infinity, so every number that reaches these functions is finite.  JSON fragments the
policy only hands on are texts.  The hash of the fingerprints is a parameter.
-/
import InvestmentPlatform.Lib.PyFloat
import Mathlib.Data.List.Dedup

namespace InvestmentPlatform.Opportunity

open PyFloat

abbrev InstrumentId := String
abbrev RecommendationId := Nat

/-- A fragment of canonical JSON. -/
abbrev Json := String

/-! ### What goes in -/

/-- One entry of the rule engine's `area_scores`. -/
structure Area (F : Type) where
  area : String
  rawScore : Option F
  metrics : Json
  deriving DecidableEq, Repr

/-- One entry of `risk_overrides`, whole in `detail`. -/
structure RiskOverride where
  severity : String
  detail : Json
  deriving DecidableEq, Repr

structure Rule (F : Type) where
  areaScores : List (Area F)
  riskOverrides : List RiskOverride
  evidenceReferences : List Json
  deriving DecidableEq, Repr

structure Technical (F : Type) where
  technicalState : Option String
  supportLevel : Option F
  resistanceLevel : Option F
  atr14 : Option F
  deriving DecidableEq, Repr

structure Valuation (F : Type) where
  fairValue : Option F
  bullTarget : Option F
  invalidation : Option F
  deriving DecidableEq, Repr

/-- `evidence_state`. -/
structure Evidence (F : Type) where
  rule : Rule F
  technical : Technical F
  valuation : Valuation F
  sectorState : Option String
  missingInputs : List String
  staleInputs : List String
  deriving DecidableEq, Repr

/-- The fields a recommendation copies from its snapshot and nothing decides on. -/
structure Carried where
  market : String
  symbol : Option String
  companyName : Option String
  generatedAt : String
  ruleEngineVersion : Option String
  rankerVersion : Option String
  topPositiveReasons : List String
  deriving DecidableEq, Repr

/-- A persisted opportunity snapshot. -/
structure Snapshot (F : Type) where
  snapshotId : String
  globalInstrumentId : InstrumentId
  carried : Carried
  rankEligible : Bool
  opportunityScore : Option F
  opportunityConfidence : F
  scoreCoverage : F
  currentPrice : Option F
  topNegativeReasons : List String
  evidence : Evidence F
  deriving DecidableEq, Repr

/-! ### The actions -/

inductive NewInvestorAction
  | avoid | strongBuyCandidate | buyCandidate | watchWait
  deriving DecidableEq, Repr

inductive HolderAction
  | exitReview | topUp | holdNoNewMoney | hold | reduce | partialExit
  deriving DecidableEq, Repr

inductive ShortAction
  | exit | buy | wait | hold | partialExit | partialProfit
  deriving DecidableEq, Repr

inductive LongAction
  | exitReview | accumulate | reduce | hold | topUp
  deriving DecidableEq, Repr

/-- The states of a horizon. -/
inductive PositionState
  | new | holding | invalidated | invalidationApproaching | targetReached | targetApproaching
  | inEntryZone | entryApproaching | partialProfit | exitReview | thesisWeakening
  deriving DecidableEq, Repr

/-! ### Scores by area -/

variable {F : Type}

/-- Look a key up in a dict given by its writes, the last of which wins. -/
def dictGet {V : Type} (writes : List (String × V)) (key : String) : Option V :=
  (writes.reverse.find? fun entry => entry.1 = key).map Prod.snd

/-- `AREA_NAMES`: the policy's short names for the rule engine's areas. -/
def areaNames : List (String × String) :=
  [("QUALITY", "FUNDAMENTAL_BUSINESS_QUALITY"), ("QUARTERLY", "QUARTERLY_EARNINGS_TREND"),
    ("CATALYST", "ORDER_BOOK_CAPACITY_CATALYSTS"), ("NEWS", "NEWS_GEOPOLITICAL_EVENTS"),
    ("GOVERNANCE", "MANAGEMENT_GOVERNANCE")]

/-- `area_scores`: the raw scores under their own names and under the short ones. -/
def areaScores (rule : Rule F) : List (String × Option F) :=
  let raw := rule.areaScores.map fun a => (a.area, a.rawScore)
  raw ++ areaNames.map fun name => (name.1, (dictGet raw name.2).join)

/-- `dimensions.get(name)`. -/
def dimension (rule : Rule F) (name : String) : Option F := (dictGet (areaScores rule) name).join

/-! ### Price levels -/

/-- The values under `RANGE_KEYS`. -/
structure Levels (F : Type) where
  shortEntryLow : Option F := none
  shortEntryHigh : Option F := none
  shortTarget1 : Option F := none
  shortTarget2 : Option F := none
  shortInvalidation : Option F := none
  longEntryLow : Option F := none
  longEntryHigh : Option F := none
  longFairValue : Option F := none
  longTarget : Option F := none
  longInvalidation : Option F := none
  deriving DecidableEq, Repr

/-- `result[k] is None` for one of the `RANGE_KEYS`. -/
def Levels.Incomplete (l : Levels F) : Prop :=
  none ∈ [l.shortEntryLow, l.shortEntryHigh, l.shortTarget1, l.shortTarget2, l.shortInvalidation,
    l.longEntryLow, l.longEntryHigh, l.longFairValue, l.longTarget, l.longInvalidation]

variable [PyFloat F]

instance (l : Levels F) : Decidable l.Incomplete :=
  inferInstanceAs (Decidable (none ∈ [_, _, _, _, _, _, _, _, _, _]))

/-- The short-term levels: a price between support and resistance. -/
def shortLevels (price : Option F) (technical : Technical F) (levels : Levels F) : Levels F :=
  match truthy price, truthy technical.supportLevel, truthy technical.resistanceLevel with
  | some p, some support, some resistance =>
      if 0 < support ∧ support ≤ p ∧ p < resistance then
        let entry : Levels F := { levels with
          shortEntryLow := some support
          shortEntryHigh := some (min p (support * lit 1.03))
          shortTarget1 := some resistance }
        match truthy technical.atr14 with
        | some atr =>
            if 0 < atr ∧ atr < support then
              { entry with
                shortTarget2 := some (resistance + atr)
                shortInvalidation := some (support - atr) }
            else entry
        | none => entry
      else levels
  | _, _, _ => levels

/-- The long-term levels: explicit fair-value evidence only. -/
def longLevels (valuation : Valuation F) (levels : Levels F) : Levels F :=
  match truthy valuation.fairValue with
  | some fair =>
      if 0 < fair then
        { levels with
          longEntryLow := some (fair * lit 0.8)
          longEntryHigh := some (fair * lit 0.9)
          longFairValue := some fair
          longTarget := (truthy valuation.bullTarget).filter fun bull => fair ≤ bull
          longInvalidation := (truthy valuation.invalidation).filter fun invalidation =>
            0 < invalidation ∧ invalidation < fair * lit 0.8 }
      else levels
  | none => levels

def Levels.map (f : F → F) (l : Levels F) : Levels F where
  shortEntryLow := l.shortEntryLow.map f
  shortEntryHigh := l.shortEntryHigh.map f
  shortTarget1 := l.shortTarget1.map f
  shortTarget2 := l.shortTarget2.map f
  shortInvalidation := l.shortInvalidation.map f
  longEntryLow := l.longEntryLow.map f
  longEntryHigh := l.longEntryHigh.map f
  longFairValue := l.longFairValue.map f
  longTarget := l.longTarget.map f
  longInvalidation := l.longInvalidation.map f

def ranges (s : Snapshot F) : Levels F :=
  (longLevels s.evidence.valuation (shortLevels s.currentPrice s.evidence.technical {})).map
    fun v => roundTo v 4

/-! ### The policy's tests -/

/-- `weak`: the areas of the four that score at most 30. -/
def weakAreas (rule : Rule F) : List String :=
  ["QUALITY", "GROWTH", "BALANCE_SHEET", "QUARTERLY"].filter fun area =>
    ∃ score, dimension rule area = some score ∧ score ≤ lit 30

/-- `thesis_broken`. -/
def ThesisBroken (s : Snapshot F) : Prop :=
  (∃ r ∈ s.evidence.rule.riskOverrides, r.severity = "CRITICAL") ∨
    (∃ score, dimension s.evidence.rule "GOVERNANCE" = some score ∧ score ≤ lit 20) ∨
    2 ≤ (weakAreas s.evidence.rule).length

instance (s : Snapshot F) : Decidable (ThesisBroken s) := inferInstanceAs (Decidable (_ ∨ _ ∨ _))

/-- `qualified`. -/
def Qualified (s : Snapshot F) : Prop :=
  s.rankEligible = true ∧ (∃ score, s.opportunityScore = some score ∧ lit 65 ≤ score) ∧
    lit 60 ≤ s.opportunityConfidence ∧ lit 60 ≤ s.scoreCoverage ∧ ¬ ThesisBroken s

instance (s : Snapshot F) : Decidable (Qualified s) :=
  inferInstanceAs (Decidable (_ ∧ _ ∧ _ ∧ _ ∧ _))

/-- `short_buy`. -/
def ShortBuy (s : Snapshot F) : Prop :=
  Qualified s ∧ ∃ state, s.evidence.technical.technicalState = some state ∧
    state ∈ ["UPTREND", "BREAKOUT", "PULLBACK_IN_UPTREND", "REVERSAL_CANDIDATE"]

instance (s : Snapshot F) : Decidable (ShortBuy s) := inferInstanceAs (Decidable (_ ∧ _))

/-- `long_buy`. -/
def LongBuy (s : Snapshot F) : Prop :=
  Qualified s ∧ ∀ area ∈ ["QUALITY", "VALUATION"],
    ∃ score, dimension s.evidence.rule area = some score ∧ lit 60 ≤ score

instance (s : Snapshot F) : Decidable (LongBuy s) := inferInstanceAs (Decidable (_ ∧ _))

def newInvestorAction (s : Snapshot F) : NewInvestorAction :=
  if ThesisBroken s then .avoid
  else if Qualified s then
    if ∃ score, s.opportunityScore = some score ∧ lit 80 ≤ score then .strongBuyCandidate
    else .buyCandidate
  else .watchWait

def existingHolderAction (s : Snapshot F) : HolderAction :=
  if ThesisBroken s then .exitReview
  else if LongBuy s then .topUp
  else if ¬ Qualified s then .holdNoNewMoney
  else .hold

def shortTermAction (s : Snapshot F) : ShortAction :=
  if ThesisBroken s then .exit else if ShortBuy s then .buy else .wait

def longTermAction (s : Snapshot F) : LongAction :=
  if ThesisBroken s then .exitReview
  else if LongBuy s then .accumulate
  else if weakAreas s.evidence.rule ≠ [] then .reduce
  else .hold

/-- `sorted(set(reasons))`. -/
def sortedSet (reasons : List String) : List String := reasons.dedup.insertionSort (· ≤ ·)

/-! ### Evaluations and states -/

/-- What `evaluate` returns; `D` is the type of fingerprints. -/
structure Evaluation (F D : Type) where
  globalInstrumentId : InstrumentId
  carried : Carried
  opportunityScore : Option F
  confidence : F
  coverage : F
  priceAtRecommendation : Option F
  levels : Levels F
  newInvestorAction : NewInvestorAction
  existingHolderAction : HolderAction
  shortTermAction : ShortAction
  longTermAction : LongAction
  topNegativeReasons : List String
  evidenceSnapshot : Evidence F
  fingerprint : D

/-- What `lifecycle` returns. -/
structure Lifecycle (F : Type) where
  shortTermState : PositionState
  longTermState : PositionState
  currentShortAction : ShortAction
  currentLongAction : LongAction
  lifecycleStatus : PositionState
  priceAtRecommendation : Option F
  currentPrice : Option F
  shortTargetDistancePct : Option F
  longTargetDistancePct : Option F
  lifecycleReasons : List String
  deriving DecidableEq, Repr

/-- A row of the current-state table. -/
structure State (F : Type) extends Lifecycle F where
  globalInstrumentId : InstrumentId
  latestRecommendationId : RecommendationId
  anchorRecommendationId : Option RecommendationId
  updatedAt : String
  symbol : Option String
  companyName : Option String
  deriving DecidableEq, Repr

/-- The `previous_state` of a comparison: the bare `{'review': True}` of `evaluate`, or a row. -/
inductive PreviousState (F : Type)
  | review
  | stored (state : State F)

/-- The short-term state to keep when the previous state had closed the short horizon. -/
def closedShort : Option (PreviousState F) → Option PositionState
  | some (.stored state) =>
      if state.currentShortAction = .exit then some state.shortTermState else none
  | _ => none

/-- The previous state had invalidated the long horizon. -/
def ClosedLong : Option (PreviousState F) → Prop
  | some (.stored state) => state.longTermState = .invalidated
  | _ => False

instance (previous : Option (PreviousState F)) : Decidable (ClosedLong previous) :=
  match previous with
  | some (.stored state) => inferInstanceAs (Decidable (state.longTermState = .invalidated))
  | some .review => isFalse id
  | none => isFalse id

/-! ### The comparison with the original trade levels -/

/-- Where a price stands among the levels of a horizon. -/
def zone (reviewing : Bool) (invalidation low high target price : Option F) : PositionState :=
  let held := if reviewing then PositionState.holding else .new
  match price with
  | none => held
  | some p =>
      if Truthy invalidation fun v => p ≤ v then .invalidated
      else if Truthy invalidation fun v => p ≤ v * lit 1.03 then .invalidationApproaching
      else if Truthy target fun t => t ≤ p then .targetReached
      else if Truthy target fun t => t * lit 0.97 ≤ p then .targetApproaching
      else if ∃ l, low = some l ∧ ∃ h, high = some h ∧ l ≤ p ∧ p ≤ h then .inEntryZone
      else if Truthy high fun h => h < p ∧ p ≤ h * lit 1.03 then .entryApproaching
      else held

def shortZone (levels : Levels F) (reviewing : Bool) (price : Option F) : PositionState :=
  zone reviewing levels.shortInvalidation levels.shortEntryLow levels.shortEntryHigh
    levels.shortTarget1 price

def longZone (levels : Levels F) (reviewing : Bool) (price : Option F) : PositionState :=
  zone reviewing levels.longInvalidation levels.longEntryLow levels.longEntryHigh
    levels.longTarget price

/-- The second short-term target is near, or reached as well. -/
def SecondTarget (levels : Levels F) (price : Option F) (reached : Bool) : Prop :=
  ∃ p, price = some p ∧ Truthy levels.shortTarget2 fun t =>
    t * lit 0.97 ≤ p ∧ (reached = true → t ≤ p)

instance (levels : Levels F) (price : Option F) (reached : Bool) :
    Decidable (SecondTarget levels price reached) :=
  inferInstanceAs (Decidable (∃ p, price = some p ∧ Truthy levels.shortTarget2 fun t =>
    t * lit 0.97 ≤ p ∧ (reached = true → t ≤ p)))

/-- The short-term pass of the loop. -/
def shortHorizon (levels : Levels F) (anchorAction action : ShortAction) (reviewing : Bool)
    (price : Option F) : PositionState × ShortAction × List String :=
  match shortZone levels reviewing price with
  | .invalidated => (.invalidated, .exit, ["SHORT_INVALIDATION_REACHED"])
  | .targetReached =>
      let reasons := ["TARGET_1_REACHED", "SHORT_TERM_RISK_REWARD_COMPRESSED"]
      if SecondTarget levels price true then
        (.targetReached, .exit, reasons ++ ["TARGET_2_REACHED"])
      else if SecondTarget levels price false then
        (.partialProfit, .partialExit, reasons ++ ["TARGET_2_APPROACHING"])
      else (.partialProfit, .partialExit, reasons)
  | state =>
      if reviewing = true ∧ action = .wait ∧
          anchorAction ∈ [.buy, .hold, .partialProfit, .partialExit] then (state, .hold, [])
      else (state, action, [])

/-- The price has fallen three percent below the anchor's. -/
def Dipped (anchorPrice price : Option F) : Prop :=
  ∃ p, price = some p ∧ Truthy anchorPrice fun a => p ≤ a * lit 0.97

instance (anchorPrice price : Option F) : Decidable (Dipped anchorPrice price) :=
  inferInstanceAs (Decidable (∃ p, price = some p ∧ Truthy anchorPrice fun a => p ≤ a * lit 0.97))

/-- The long-term pass of the loop. -/
def longHorizon (levels : Levels F) (anchorPrice : Option F) (action : LongAction)
    (reviewing : Bool) (price : Option F) : PositionState × LongAction :=
  match longZone levels reviewing price with
  | .invalidated => (.invalidated, .exitReview)
  | state =>
      if state ∈ [.targetReached, .targetApproaching] ∧ action ∉ [.reduce, .exitReview] then
        (state, .hold)
      else if reviewing = true ∧ action = .accumulate ∧ Dipped anchorPrice price then
        (state, .topUp)
      else (state, action)

/-- `distance`: how far the anchor's level is from the price, in percent. -/
def distance (level price : Option F) : Option F :=
  (truthy price).bind fun p => (truthy level).map fun v =>
    roundTo ((v / p - lit 1) * lit 100) 4

def lifecycle {D D' : Type} (anchor : Evaluation F D) (recommendation : Evaluation F D')
    (price : Option F) (previous : Option (PreviousState F)) : Lifecycle F :=
  let reviewing := previous.isSome
  let short := shortHorizon anchor.levels anchor.shortTermAction recommendation.shortTermAction
    reviewing price
  let long := longHorizon anchor.levels anchor.priceAtRecommendation
    recommendation.longTermAction reviewing price
  -- The recommendation's own exit review wins over the loop; a reduction marks the thesis.
  let thesis :=
    if recommendation.longTermAction = .exitReview then
      (PositionState.exitReview, LongAction.exitReview, ["LONG_TERM_THESIS_BROKEN"])
    else if long.2 = .reduce then (.thesisWeakening, long.2, [])
    else (long.1, long.2, [])
  let longAction :=
    if short.2.1 = .partialExit ∧ thesis.2.1 = .accumulate then .hold else thesis.2.1
  let exited :=
    if recommendation.shortTermAction = .exit ∧
        short.1 ∉ [PositionState.invalidated, .targetReached] then
      (PositionState.exitReview, ShortAction.exit)
    else (short.1, short.2.1)
  -- Closed horizons do not reopen because the other horizon is reviewed.
  let shortFinal := match closedShort previous with
    | some state => (state, ShortAction.exit)
    | none => exited
  let longFinal := if ClosedLong previous then (.invalidated, .exitReview)
    else (thesis.1, longAction)
  { shortTermState := shortFinal.1
    longTermState := longFinal.1
    currentShortAction := shortFinal.2
    currentLongAction := longFinal.2
    lifecycleStatus :=
      if longFinal.1 ∈ [PositionState.exitReview, .invalidated, .thesisWeakening] then longFinal.1
      else shortFinal.1
    priceAtRecommendation := anchor.priceAtRecommendation
    currentPrice := price
    shortTargetDistancePct := distance anchor.levels.shortTarget2 price
    longTargetDistancePct := distance anchor.levels.longTarget price
    lifecycleReasons := short.2.2 ++ thesis.2.2 }

/-! ### The evaluation -/

/-- `evidence_key`. -/
structure EvidenceKey (F : Type) where
  references : List Json
  dimensions : List (String × Option F)
  metrics : List Json
  risk : List RiskOverride
  technicalState : Option String
  sectorState : Option String
  missing : List String
  stale : List String
  deriving DecidableEq, Repr

/-- The value `evaluate` hashes, without the constant engine version. -/
structure Payload (F : Type) where
  instrument : InstrumentId
  actions : NewInvestorAction × HolderAction × ShortAction × LongAction
  referenceBucket : Option F
  ranges : Levels F
  evidence : EvidenceKey F
  scoreState : List (Option Int)
  deriving DecidableEq, Repr

def evidenceKey (evidence : Evidence F) : EvidenceKey F where
  references := evidence.rule.evidenceReferences
  dimensions := areaScores evidence.rule
  metrics := evidence.rule.areaScores.map Area.metrics
  risk := evidence.rule.riskOverrides
  technicalState := evidence.technical.technicalState
  sectorState := evidence.sectorState
  missing := evidence.missingInputs
  stale := evidence.staleInputs

/-- `round(v / 5) * 5`. -/
def scoreBucket (v : F) : Int := roundInt (v / lit 5) * 5

/-- The payload of an evaluation, from its own fields. -/
def Evaluation.payload {D : Type} (e : Evaluation F D) : Payload F where
  instrument := e.globalInstrumentId
  actions := (e.newInvestorAction, e.existingHolderAction, e.shortTermAction, e.longTermAction)
  referenceBucket := e.priceAtRecommendation.map fun p => roundTo p (-1)
  ranges := e.levels
  evidence := evidenceKey e.evidenceSnapshot
  scoreState :=
    [e.opportunityScore.map scoreBucket, some (scoreBucket e.confidence),
      some (scoreBucket e.coverage)]

/-- The policy's own verdict on a snapshot, before any comparison and without a fingerprint. -/
def verdict (s : Snapshot F) : Evaluation F Unit where
  globalInstrumentId := s.globalInstrumentId
  carried := s.carried
  opportunityScore := s.opportunityScore
  confidence := s.opportunityConfidence
  coverage := s.scoreCoverage
  priceAtRecommendation := s.currentPrice
  levels := ranges s
  newInvestorAction := newInvestorAction s
  existingHolderAction := existingHolderAction s
  shortTermAction := shortTermAction s
  longTermAction := longTermAction s
  topNegativeReasons := sortedSet (s.topNegativeReasons ++
    (if (ranges s).Incomplete then ["PRICE_RANGE_EVIDENCE_INSUFFICIENT"] else []) ++
    (if ThesisBroken s then ["LONG_TERM_THESIS_BROKEN"] else []))
  evidenceSnapshot := s.evidence
  fingerprint := ()

/-- What the comparison makes of the verdict's actions. -/
def compared {D : Type} (e : Evaluation F D) (comparison : Lifecycle F) : Evaluation F D :=
  let rewritten : Evaluation F D := { e with
    shortTermAction := comparison.currentShortAction
    longTermAction := comparison.currentLongAction
    topNegativeReasons := sortedSet (e.topNegativeReasons ++ comparison.lifecycleReasons) }
  if comparison.currentLongAction = .exitReview then
    { rewritten with existingHolderAction := .exitReview }
  else if comparison.currentLongAction = .reduce ∨ comparison.currentShortAction = .exit then
    { rewritten with existingHolderAction := .reduce }
  else if comparison.currentShortAction = .partialExit then
    { rewritten with
      existingHolderAction := .partialExit
      newInvestorAction :=
        if comparison.currentLongAction ≠ .topUp then .watchWait else e.newInvestorAction }
  else rewritten

variable {D : Type}

/-- The verdict, compared with the previous recommendation when there is one. -/
def reviewed (s : Snapshot F) : Option (Evaluation F D) → Evaluation F Unit
  | some previous =>
      compared (verdict s) (lifecycle previous (verdict s) s.currentPrice (some .review))
  | none => verdict s

/-- `RecommendationEngineV1.evaluate`; `hash` is the digest of the payload. -/
def evaluate (hash : Payload F → D) (s : Snapshot F) (previous : Option (Evaluation F D)) :
    Evaluation F D :=
  { reviewed s previous with fingerprint := hash (reviewed s previous).payload }

end InvestmentPlatform.Opportunity
