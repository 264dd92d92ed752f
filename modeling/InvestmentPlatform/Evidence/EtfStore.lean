/-
The ETF evidence store: `_insert_etf_evidence`, `save_etf_acquisition` and the readers.

Evidence is stored under a hash of its content that leaves `retrieved_at` out, and an insert that
finds its key does nothing.  The hash is a parameter.  Dates count days from `date.min`, and
timestamps microseconds from `datetime.min`.
-/
import InvestmentPlatform.Lib.Dict
import InvestmentPlatform.Lib.Fallible
import InvestmentPlatform.Lib.Selection
import Mathlib.Data.Multiset.Basic
import Mathlib.Data.Prod.Lex

namespace InvestmentPlatform.Evidence.Etf

open Selection

/-! ### Evidence -/

inductive Metric
  | identity
  | subtype
  | assetClass
  | underlyingReference
  | benchmarkIndex
  | nav
  | aum
  | expenseRatio
  | marketPrice
  | tradingVolume
  | bid
  | ask
  | bidAskSpread
  | trackingError
  | trackingDifference
  | amcFundHouse
  | fundInceptionDate
  | replicationMethod
  | underlyingHoldings
  deriving DecidableEq, Repr

inductive Authority
  | officialExchange
  | officialFund
  | otherAuthoritative
  | secondary
  deriving DecidableEq, Repr

/-- Exchange and fund are equally primary. -/
def Authority.tier : Authority → Nat
  | .officialExchange => 3
  | .officialFund => 3
  | .otherAuthoritative => 2
  | .secondary => 1

inductive SourceMode
  | demo
  | real
  deriving DecidableEq, Repr

/-- A finite `Decimal`. -/
structure Decimal where
  negative : Bool
  coefficient : Nat
  exponent : Int
  deriving DecidableEq, Repr

namespace Decimal

/-- To 28 digits, half to even. -/
def round (d : Decimal) : Decimal :=
  let digits := (Nat.toDigits 10 d.coefficient).length
  if digits ≤ 28 then d
  else
    let unit := Nat.pow 10 (digits - 28)
    let quotient := d.coefficient / unit
    let rest := d.coefficient % unit
    let up := decide (unit < 2 * rest) || (decide (unit = 2 * rest) && decide (quotient % 2 = 1))
    { d with
      coefficient := if up then quotient + 1 else quotient
      exponent := d.exponent + Int.ofNat (digits - 28) }

/-- Trailing zeros, as many as `fuel`, go into the exponent. -/
def strip : Nat → Decimal → Decimal
  | 0, d => d
  | fuel + 1, d =>
    if d.coefficient % 10 = 0 then
      strip fuel { d with coefficient := d.coefficient / 10, exponent := d.exponent + 1 }
    else d

def normalize (d : Decimal) : Decimal :=
  if d.coefficient = 0 then { d with exponent := 0 } else strip 28 d.round

end Decimal

/-- `Decimal | str`. -/
inductive Value
  | number (value : Decimal)
  | text (value : String)
  deriving DecidableEq, Repr

def Value.normalize : Value → Value
  | .number value => .number value.normalize
  | .text value => .text value

/-- What of the provenance the hash covers. -/
structure Origin where
  provider : String
  sourceType : String
  sourceIdentity : String
  sourceUrl : String
  sourceMetadata : Option String
  sourceLocator : Option String
  authority : Authority
  publishedAt : Option Nat
  confidence : Option Rat
  reliabilityLevel : Option String
  sourceMode : SourceMode
  deriving DecidableEq

structure Provenance extends Origin where
  retrievedAt : Nat
  deriving DecidableEq

structure Fact where
  instrumentId : String
  metric : Metric
  value : Value
  unit : Option String
  asOfDate : Option Nat
  provenance : Provenance
  /-- The others have models of their own. -/
  plain : metric ≠ .nav ∧ metric ≠ .underlyingHoldings ∧ metric ≠ .identity
  deriving DecidableEq

structure NavObservation where
  instrumentId : String
  nav : Decimal
  currency : String
  navDate : Nat
  provenance : Provenance
  deriving DecidableEq

structure Holding where
  constituentIdentifier : Option String
  constituentSymbol : Option String
  constituentIsin : Option String
  constituentName : Option String
  weightPercentage : Option Decimal
  quantity : Option Decimal
  value : Option Decimal
  valueCurrency : Option String
  sourceLocator : Option String
  evidenceReference : Option String
  confidence : Option Rat
  reliabilityLevel : Option String
  deriving DecidableEq

def Holding.normalize (holding : Holding) : Holding :=
  { holding with
    weightPercentage := holding.weightPercentage.map Decimal.normalize
    quantity := holding.quantity.map Decimal.normalize
    value := holding.value.map Decimal.normalize }

/-- The instrument, the date and the provider of every position are those of the snapshot. -/
structure HoldingsSnapshot where
  instrumentId : String
  asOfDate : Nat
  provenance : Provenance
  holdings : List Holding
  deriving DecidableEq

/-- An ETF of the NSE. -/
structure Listing where
  isin : String
  symbol : String
  name : String
  underlyingReference : Option String
  instrumentId : Option String
  provenance : Provenance
  deriving DecidableEq

inductive EtfEvidence
  | fact (fact : Fact)
  | nav (nav : NavObservation)
  | holdings (snapshot : HoldingsSnapshot)
  | listing (listing : Listing)
  deriving DecidableEq

/-- A table of the store. -/
inductive Kind
  | fact
  | nav
  | holdings
  | listing
  deriving DecidableEq, Repr

namespace EtfEvidence

def kind : EtfEvidence → Kind
  | .fact _ => .fact
  | .nav _ => .nav
  | .holdings _ => .holdings
  | .listing _ => .listing

def instrumentId : EtfEvidence → Option String
  | .fact f => some f.instrumentId
  | .nav n => some n.instrumentId
  | .holdings s => some s.instrumentId
  | .listing l => l.instrumentId

def provenance : EtfEvidence → Provenance
  | .fact f => f.provenance
  | .nav n => n.provenance
  | .holdings s => s.provenance
  | .listing l => l.provenance

def metric : EtfEvidence → Metric
  | .fact f => f.metric
  | .nav _ => .nav
  | .holdings _ => .underlyingHoldings
  | .listing _ => .identity

def asOf : EtfEvidence → Option Nat
  | .fact f => f.asOfDate
  | .nav n => some n.navDate
  | .holdings s => some s.asOfDate
  | .listing _ => none

def retrievedAt (evidence : EtfEvidence) : Nat := evidence.provenance.retrievedAt

end EtfEvidence

/-! ### The hash -/

/-- What the hash covers: the numbers are normalized, and the positions are sorted by their JSON,
so that only how often each of them occurs is left. -/
inductive Payload
  | fact (instrumentId : String) (metric : Metric) (value : Value) (unit : Option String)
    (asOfDate : Option Nat) (origin : Origin)
  | nav (instrumentId : String) (nav : Decimal) (currency : String) (navDate : Nat)
    (origin : Origin)
  | holdings (instrumentId : String) (asOfDate : Nat) (origin : Origin)
    (holdings : Multiset Holding)
  | listing (isin symbol name : String) (underlyingReference instrumentId : Option String)
    (origin : Origin)
  deriving DecidableEq

def EtfEvidence.payload : EtfEvidence → Payload
  | .fact f =>
    .fact f.instrumentId f.metric f.value.normalize f.unit f.asOfDate f.provenance.toOrigin
  | .nav n => .nav n.instrumentId n.nav.normalize n.currency n.navDate n.provenance.toOrigin
  | .holdings s =>
    .holdings s.instrumentId s.asOfDate s.provenance.toOrigin (s.holdings.map Holding.normalize)
  | .listing l =>
    .listing l.isin l.symbol l.name l.underlyingReference l.instrumentId l.provenance.toOrigin

/-- The hash of a payload, and the JSON of a position as it is written. -/
structure Codec (I : Type) where
  digest : Payload → I
  dump : Holding → String

variable {I : Type}

def evidenceId (codec : Codec I) (evidence : EtfEvidence) : I := codec.digest evidence.payload

/-- The key that the readers sort on, the highest first. -/
def evidencePrecedence (codec : Codec I) (evidence : EtfEvidence) :
    Nat ×ₗ Nat ×ₗ Nat ×ₗ Nat ×ₗ I :=
  toLex (evidence.provenance.authority.tier,
    toLex (evidence.asOf.getD 0,
      toLex (evidence.provenance.publishedAt.getD 0,
        toLex (evidence.retrievedAt, evidenceId codec evidence))))

/-! ### The store -/

inductive Outcome
  | successWithData
  | successEmpty
  | genuinelyUnavailable
  | technicalFailure
  | notImplemented
  deriving DecidableEq, Repr

structure Attempt (I : Type) where
  attemptId : String
  instrumentId : Option String
  metric : String
  provider : String
  attemptedAt : Nat
  outcome : Outcome
  reason : String
  evidenceIds : List I
  /-- Only `SUCCESS_WITH_DATA` has evidence ids. -/
  consistent : outcome = .successWithData ↔ evidenceIds ≠ []

structure Store (I : Type) where
  tables : Kind → Dict I EtfEvidence
  /-- The rows of `etf_holdings_positions`, by snapshot and position. -/
  positions : Dict (I × Nat) Holding
  attempts : Dict String (Attempt I)

def Store.empty : Store I := ⟨fun _ => Dict.empty, Dict.empty, Dict.empty⟩

inductive SaveError
  /-- "Attempt must identify exactly the evidence being persisted". -/
  | identifies
  /-- "Acquisition instrument mismatch". -/
  | instrument
  | cycleOwnershipLost
  deriving DecidableEq, Repr

section

variable [DecidableEq I] (codec : Codec I)

/-- The positions of a snapshot in the order of their JSON. -/
def positionsOf (evidence : EtfEvidence) : List Holding :=
  match evidence with
  | .holdings s => s.holdings.mergeSort fun a b => decide (codec.dump a ≤ codec.dump b)
  | _ => []

namespace Store

variable (store : Store I)

/-- `_insert_etf_evidence`. -/
def insertEtfEvidence (evidence : EtfEvidence) : Store I :=
  let key := evidenceId codec evidence
  { store with
    tables := Function.update store.tables evidence.kind
      ((store.tables evidence.kind).setDefault key evidence)
    positions := (positionsOf codec evidence).zipIdx.foldl
      (fun positions row => positions.setDefault (key, row.2) row.1) store.positions }

def saveEtfEvidence (evidence : EtfEvidence) : Store I := store.insertEtfEvidence codec evidence

/-- The fence, where there is one, is asked before and after the writes; an error rolls them
back. -/
def saveEtfAcquisition (evidence : List EtfEvidence) (attempt : Attempt I)
    (fence : Option (Bool × Bool)) : Except SaveError (Store I) :=
  if attempt.evidenceIds ≠ evidence.map (evidenceId codec) then .error .identifies
  else if (∃ e ∈ evidence, e.instrumentId ≠ attempt.instrumentId) ∧ attempt.metric ≠ "DISCOVERY" then
    .error .instrument
  else if fence.any fun owned => !(owned.1 && owned.2) then .error .cycleOwnershipLost
  else
    let saved := evidence.foldl (fun store e => store.insertEtfEvidence codec e) store
    .ok { saved with attempts := saved.attempts.setDefault attempt.attemptId attempt }

end Store

/-- A call that saves. -/
inductive Save (I : Type)
  | evidence (evidence : EtfEvidence)
  | acquisition (evidence : List EtfEvidence) (attempt : Attempt I) (fence : Option (Bool × Bool))

/-- The store after a call; one that raises leaves it as it is. -/
def Store.save (store : Store I) : Save I → Store I
  | .evidence evidence => store.saveEtfEvidence codec evidence
  | .acquisition evidence attempt fence =>
    match store.saveEtfAcquisition codec evidence attempt fence with
    | .ok saved => saved
    | .error _ => store

/-- The store after a sequence of calls. -/
def run (saves : List (Save I)) : Store I := saves.foldl (fun store s => store.save codec s) Store.empty

end

/-! ### The readers -/

section

variable [LinearOrder I] (codec : Codec I) (store : Store I)

/-- `sorted(..., key=evidence_precedence, reverse=True)`. -/
def etfRows (table : Kind) (instrumentId : String) (sourceMode : SourceMode)
    (metric : Option Metric) : List EtfEvidence :=
  sortOn (fun e => OrderDual.toDual (evidencePrecedence codec e))
    ((store.tables table).values.filter fun e =>
      e.instrumentId = some instrumentId ∧ e.provenance.sourceMode = sourceMode ∧
        ∀ m ∈ metric, e.metric = m)

def etfFacts (instrumentId : String) (metric : Option Metric) (sourceMode : SourceMode) :
    List EtfEvidence := etfRows codec store .fact instrumentId sourceMode metric

def etfNavs (instrumentId : String) (sourceMode : SourceMode) : List EtfEvidence :=
  etfRows codec store .nav instrumentId sourceMode none

def etfHoldings (instrumentId : String) (sourceMode : SourceMode) : List EtfEvidence :=
  etfRows codec store .holdings instrumentId sourceMode none

end

end InvestmentPlatform.Evidence.Etf
