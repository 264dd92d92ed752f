/-
The store of financial facts: precedence, reconciliation of a document, upsert.

The table is a map from the identity of a fact to its row.  A row does not keep everything as it
was given: an empty part of the identity and a missing one are the same there, a value is read
back from its text as a decimal, a time without a zone is read back as UTC, and the transient
fields of a value are not kept at all.
-/
import InvestmentPlatform.Lib.Fallible
import InvestmentPlatform.Lib.Machine
import InvestmentPlatform.Stage2.Taxonomy
import Mathlib.Data.Rat.Defs

namespace InvestmentPlatform.Evidence

open Fallible

/-! ### Facts -/

/-- `FactSourceTier`. -/
inductive FactSourceTier
  | userUpload
  | search
  | yahoo
  | officialNse
  | structuredFundamentals
  | officialRegulatory
  deriving DecidableEq, Repr

/-- `fact_source_authority`. -/
def factSourceAuthority : FactSourceTier → Nat
  | .userUpload => 0
  | .search => 1
  | .yahoo => 2
  | .structuredFundamentals => 3
  | .officialNse => 4
  | .officialRegulatory => 5

inductive SourceMode
  | real
  | demo
  deriving DecidableEq, Repr

/-- A `datetime`: its instant (in UTC where it has no time zone), and whether it has a zone. -/
structure Timestamp where
  instant : Int
  aware : Bool
  deriving DecidableEq, Repr

/-- A number as an object holds it, and the decimal its text stands for.  The two differ where
the object is a float. -/
structure FactNumber where
  number : Rat
  written : Rat
  deriving DecidableEq, Repr

structure FinancialFactKey where
  instrumentId : String
  metric : String
  periodEnd : Option String
  periodType : String
  reportingBasis : Option String
  deriving DecidableEq, Repr

/-- A value that is `None` or a blank text is missing. -/
structure ProvenancedValue where
  value : Option FactNumber
  unit : Option String
  asOfDate : Option Timestamp
  period : Option String
  sourceUrl : String
  sourceName : String
  sourceType : Option String
  publishedAt : Option Timestamp
  retrievedAt : Timestamp
  confidence : Option Rat
  calculationBasis : Option String
  deriving DecidableEq, Repr

structure FinancialFact where
  key : FinancialFactKey
  value : ProvenancedValue
  sourceTier : FactSourceTier
  sourceProvider : String
  sourceIdentity : String
  sourceMode : SourceMode
  deriving DecidableEq, Repr

/-- `_parse_dt(_dt(value))`. -/
def Timestamp.persisted (time : Timestamp) : Timestamp := { time with aware := true }

/-- `Decimal(str(value))`. -/
def FactNumber.persisted (value : FactNumber) : FactNumber := ⟨value.written, value.written⟩

/-- `(value or "") or None`. -/
def persistedText (text : Option String) : Option String := text.filter (· ≠ "")

/-- The identity as its row gives it back. -/
def FinancialFactKey.persisted (key : FinancialFactKey) : FinancialFactKey :=
  { key with
    periodEnd := persistedText key.periodEnd
    reportingBasis := persistedText key.reportingBasis }

namespace FinancialFact

/-- The fact as its row gives it back. -/
def persisted (fact : FinancialFact) : FinancialFact :=
  { fact with
    key := fact.key.persisted
    value :=
      { fact.value with
        value := fact.value.value.map FactNumber.persisted
        publishedAt := fact.value.publishedAt.map Timestamp.persisted
        retrievedAt := fact.value.retrievedAt.persisted
        asOfDate := none
        period := none
        calculationBasis := none } }

/-- What a fact is compared by: numbers by what they are, and no transient field. -/
def compared (fact : FinancialFact) : FinancialFact :=
  { fact with
    value :=
      { fact.value with
        value := fact.value.value.map fun value => ⟨value.number, value.number⟩
        asOfDate := none
        period := none
        calculationBasis := none } }

/-- The row gives the fact back as it was: its value is a decimal, its times have a zone, and
what its identity leaves open is `None`. -/
def IsDurable (fact : FinancialFact) : Prop := fact.persisted = fact.compared

instance (fact : FinancialFact) : Decidable fact.IsDurable :=
  inferInstanceAs (Decidable (_ = _))

/-- An official fact of NSE, read for real. -/
def isOfficialNse (fact : FinancialFact) : Bool :=
  fact.sourceTier = .officialNse && fact.sourceProvider = "NSE" && fact.sourceMode = .real

end FinancialFact

/-! ### Precedence -/

/-- The exceptions of the store. -/
inductive FactError
  | differentIdentities
  | noSource
  | foreignFacts
  | duplicateFacts
  deriving DecidableEq, Repr

/-- Which of the two facts `merge_fact` returns. -/
inductive Accepted
  | existing
  | incoming
  deriving DecidableEq, Repr

/-- `merge_fact`. -/
def mergeFact (existing : Option FinancialFact) (incoming : FinancialFact)
    (allowSameTierCorrection : Bool) : Except FactError Accepted :=
  if incoming.value.value = none then .ok .existing
  else
    match existing with
    | none => .ok .incoming
    | some existing =>
      if existing.value.value = none then .ok .incoming
      else if existing.key ≠ incoming.key then .error .differentIdentities
      else if factSourceAuthority existing.sourceTier < factSourceAuthority incoming.sourceTier then
        .ok .incoming
      else if factSourceAuthority incoming.sourceTier < factSourceAuthority existing.sourceTier then
        .ok .existing
      else if allowSameTierCorrection ∧ incoming.sourceTier = .officialNse then .ok .incoming
      else .ok .existing

/-- `newer_official_disclosure`. -/
def newerOfficialDisclosure (existing incoming : FinancialFact) : Bool :=
  existing.key = incoming.key && existing.isOfficialNse && incoming.isOfficialNse &&
    match existing.value.publishedAt, incoming.value.publishedAt with
    | some previous, some revised =>
      previous.aware && revised.aware && incoming.value.retrievedAt.aware &&
        decide (previous.instant < revised.instant) &&
        decide (revised.instant ≤ incoming.value.retrievedAt.instant)
    | _, _ => false

/-! ### Scopes -/

inductive Completeness
  | partialForSourceScope
  | completeForSourceScope
  | invalidatedForSourceScope
  deriving DecidableEq, Repr

/-- `FinancialReconciliationScope`. -/
structure FinancialReconciliationScope where
  metric : String
  reportingBasis : Option String
  periodEnds : List String
  periodTypes : List String
  completeness : Completeness := .partialForSourceScope
  deriving DecidableEq, Repr

namespace FinancialReconciliationScope

variable (scope : FinancialReconciliationScope) (key : FinancialFactKey)

/-- The metric, the basis, one of the dates and one of the period types. -/
def covers : Bool :=
  key.metric = scope.metric && key.reportingBasis = scope.reportingBasis &&
    (key.periodEnd.any fun periodEnd => periodEnd ∈ scope.periodEnds) &&
    decide (key.periodType ∈ scope.periodTypes)

/-- `contains`. -/
def contains : Bool := scope.completeness = .completeForSourceScope && scope.covers key

/-- `invalidates`. -/
def invalidates : Bool := scope.completeness = .invalidatedForSourceScope && scope.covers key

end FinancialReconciliationScope

/-- A column of a statement, as `project_semantic_financial_facts` reads its header. -/
structure Column where
  periodEnd : String
  periodType : String
  deriving DecidableEq, Repr

/-- The scope `project_semantic_financial_facts` makes of a row and the columns of its
statement. -/
def scopeOfStatement (metric : String) (basis : Option String) (balanceSheet : Bool)
    (columns : List Column) (completeness : Completeness) : FinancialReconciliationScope where
  metric := metric
  reportingBasis := basis
  periodEnds := columns.map Column.periodEnd
  periodTypes := if balanceSheet then ["AS_AT"] else ["QUARTERLY", "ANNUAL"]
  completeness := completeness

/-- The identity of the fact in one column of the row. -/
def columnKey (instrumentId metric : String) (basis : Option String) (balanceSheet : Bool)
    (column : Column) : FinancialFactKey :=
  ⟨instrumentId, metric, some column.periodEnd, if balanceSheet then "AS_AT" else column.periodType,
    basis⟩

/-! ### The store -/

/-- `global_financial_facts`. -/
abbrev FactStore := Dict FinancialFactKey FinancialFact

namespace FactStore

/-- `_write_financial_fact`. -/
def writeFinancialFact (store : FactStore) (fact : FinancialFact) : FactStore :=
  store.set fact.key.persisted fact.persisted

/-- `upsert_financial_fact`. -/
def upsertFinancialFact (store : FactStore) (fact : FinancialFact)
    (allowSameTierCorrection : Bool) : Except FactError (Bool × FactStore) := do
  match ← mergeFact (store.get? fact.key.persisted) fact allowSameTierCorrection with
  | .existing => .ok (false, store)
  | .incoming => .ok (true, store.writeFinancialFact fact)

/-- The arguments of `reconcile_financial_facts_for_source`. -/
structure Reconciliation where
  instrumentId : String
  sourceIdentity : String
  facts : List FinancialFact
  allowOfficialRevision : Bool
  completeScopes : List FinancialReconciliationScope
  deriving DecidableEq, Repr

namespace Reconciliation

variable (call : Reconciliation)

/-- Whether an official fact may be corrected by one of its tier. -/
def allowsCorrection (existing : Option FinancialFact) (fact : FinancialFact) : Bool :=
  existing.any fun existing => existing.sourceTier = .officialNse &&
    (existing.sourceIdentity = call.sourceIdentity ||
      (call.allowOfficialRevision && newerOfficialDisclosure existing fact))

/-- One incoming fact: what was written so far, and the rows. -/
def reconcileFact (state : Nat × FactStore) (fact : FinancialFact) :
    Except FactError (Nat × FactStore) := do
  let existing := state.2.get? fact.key.persisted
  match ← mergeFact existing fact (call.allowsCorrection existing fact) with
  | .existing => .ok state
  | .incoming =>
    if existing.map FinancialFact.compared = some fact.compared then .ok state
    else .ok (state.1 + 1, state.2.writeFinancialFact fact)

/-- A scope that is complete and has an official incoming fact in it. -/
def isAuthorized (scope : FinancialReconciliationScope) : Bool :=
  call.facts.any fun fact => scope.contains fact.key && fact.isOfficialNse

/-- A scope authorises the deletion of a key. -/
def releases (key : FinancialFactKey) : Bool :=
  call.completeScopes.any fun scope =>
    call.isAuthorized scope && scope.contains key || scope.invalidates key

/-- The keys of the owned rows that are obsolete. -/
def obsolete (owned : List (FinancialFactKey × FinancialFact)) : List FinancialFactKey :=
  (owned.filter fun row => row.1 ∉ call.facts.map FinancialFact.key ∧ row.2.isOfficialNse ∧
    call.releases row.1).map Prod.fst

/-- `DELETE ... WHERE ... AND source_identity=?`. -/
def deleteRow (store : FactStore) (key : FinancialFactKey) : FactStore :=
  if (store.get? key).any fun row => row.sourceIdentity = call.sourceIdentity then store.pop key
  else store

def hasInvalidationScope : Bool :=
  call.completeScopes.any fun scope => scope.completeness = .invalidatedForSourceScope

/-- The rows of the source. -/
def owned (store : FactStore) : List (FinancialFactKey × FinancialFact) :=
  store.items.filter fun row =>
    row.1.instrumentId = call.instrumentId ∧ row.2.sourceIdentity = call.sourceIdentity

end Reconciliation

/-- `reconcile_financial_facts_for_source`. -/
def reconcileFinancialFactsForSource (store : FactStore) (call : Reconciliation) :
    Except FactError (Nat × FactStore) := do
  raiseIf (call.sourceIdentity = "") .noSource
  if call.facts = [] ∧ call.hasInvalidationScope = false then .ok (0, store)
  else
    raiseIf (∃ fact ∈ call.facts, fact.key.instrumentId ≠ call.instrumentId ∨
      fact.sourceIdentity ≠ call.sourceIdentity) .foreignFacts
    raiseIf (¬ (call.facts.map FinancialFact.key).Nodup) .duplicateFacts
    let reconciled ← call.facts.foldlM call.reconcileFact (0, store)
    let obsolete := call.obsolete (call.owned store)
    .ok (reconciled.1 + obsolete.length, obsolete.foldl call.deleteRow reconciled.2)

/-! ### Runs -/

inductive Op
  | reconcile (call : Reconciliation)
  | upsert (fact : FinancialFact) (allowSameTierCorrection : Bool)
  deriving DecidableEq, Repr

inductive Result
  | raised (error : FactError)
  | reconciled (written : Nat)
  | upserted (written : Bool)
  deriving DecidableEq, Repr

/-- A call in its own transaction: one that raises is rolled back. -/
def exec (store : FactStore) : Op → Result × FactStore
  | .reconcile call =>
    match store.reconcileFinancialFactsForSource call with
    | .error e => (.raised e, store)
    | .ok (written, store) => (.reconciled written, store)
  | .upsert fact allowSameTierCorrection =>
    match store.upsertFinancialFact fact allowSameTierCorrection with
    | .error e => (.raised e, store)
    | .ok (written, store) => (.upserted written, store)

/-- Rows stand under their keys and hold a value, as they come from the store. -/
def WellFormed (store : FactStore) : Prop :=
  ∀ key fact, store.get? key = some fact →
    fact.key = key ∧ fact.value.value ≠ none ∧ fact.persisted = fact

def machine : Machine FactStore (Op × Result) where
  init store := WellFormed store
  step store l store' := store.exec l.1 = (l.2, store')

end FactStore

end InvestmentPlatform.Evidence

/-!
Which of two facts stands, `app/fact_precedence.py`.

The store of `Evidence/FinancialFacts.lean` merges the facts of one document, whose values are
numbers.  Here a value is any object, as the callers of `merge_fact` may give it, and what the
merge does not read of a fact is left open.
-/

namespace InvestmentPlatform.Evidence.Precedence

variable {K V R : Type}

/-- The value of a fact: nothing, a text, or any other object. -/
inductive FactValue (V : Type)
  | none
  | text (words : String)
  | other (value : V)
  deriving DecidableEq, Repr

/-- `_missing`. -/
def FactValue.missing : FactValue V → Bool
  | .none => true
  | .text words => words.toList.all Stage2.isSpace
  | .other _ => false

/-- A `FinancialFact`; `rest` is what `merge_fact` does not read. -/
structure Fact (K V R : Type) where
  key : K
  value : FactValue V
  sourceTier : FactSourceTier
  rest : R
  deriving DecidableEq, Repr

def Fact.authority (fact : Fact K V R) : Nat := factSourceAuthority fact.sourceTier

/-- `merge_fact`. -/
def mergeFact [DecidableEq K] (existing incoming : Option (Fact K V R))
    (allowSameTierCorrection : Bool) : Except FactError (Option (Fact K V R)) :=
  match incoming with
  | none => .ok existing
  | some fact =>
    if fact.value.missing then .ok existing
    else
      match existing with
      | none => .ok incoming
      | some held =>
        if held.value.missing then .ok incoming
        else if held.key ≠ fact.key then .error .differentIdentities
        else if held.authority < fact.authority then .ok incoming
        else if fact.authority < held.authority then .ok existing
        else if allowSameTierCorrection ∧ fact.sourceTier = .officialNse then .ok incoming
        else .ok existing

/-- The facts merged from left to right, each with its correction flag, from nothing on. -/
def mergeAll [DecidableEq K] (facts : List (Fact K V R × Bool)) :
    Except FactError (Option (Fact K V R)) :=
  facts.foldlM (fun existing given => mergeFact existing (some given.1) given.2) none

end InvestmentPlatform.Evidence.Precedence
