/-
`InstrumentMasterService.resolveAndAttach`, over the masters, the provider mappings and the rows
it attaches.

A generated identifier is the place of what it identifies in its table, which nothing is deleted
from.  The advisory lock lets one caller through at a time, so a call is one step.  The columns
that only record when something happened are left out.
-/
import InvestmentPlatform.Lib.Dict
import InvestmentPlatform.Lib.Fallible
import InvestmentPlatform.Lib.JavaText
import Mathlib.Algebra.Order.Field.Rat

namespace InvestmentPlatform.Portfolio

open Fallible JavaText

/-! ### Tables -/

/-- An `InstrumentEntity`, with what the broker sync or the import passes along for it. -/
structure Row where
  isin : Option String
  canonicalName : Option String := none
  companyName : Option String := none
  tradingCurrency : Option String := none
  provider : String
  providerId : Option String
  symbol : Option String
  exchange : Option String
  source : String
  confidence : ℚ
  deriving DecidableEq, Repr

/-- `InstrumentMasterEntity`. -/
structure Master where
  normalizedIsin : Option String
  canonicalName : String
  currency : Option String
  primaryExchange : Option String
  primarySymbol : Option String
  deriving DecidableEq, Repr

/-- `InstrumentProviderMappingEntity`. -/
structure ProviderMapping where
  mappingId : Nat
  instrumentId : Nat
  provider : String
  providerSymbol : Option String
  providerInstrumentId : Option String
  exchange : Option String
  currency : Option String
  status : String
  resolutionSource : String
  confidence : ℚ
  deriving DecidableEq, Repr

/-- The tables, and the master that each row has been attached to. -/
structure MasterStore where
  masters : List Master
  mappings : List ProviderMapping
  attached : Dict Row Nat

def MasterStore.empty : MasterStore := ⟨[], [], Dict.empty⟩

inductive ResolveError
  | ambiguousProviderMapping
  | dataIntegrityViolation
  deriving DecidableEq, Repr

/-! ### Texts -/

variable [Casing]

/-- Not null, and not blank. -/
def present : Option String → Bool
  | none => false
  | some text => !isBlank text

/-- `upper`, and `normalizeExchange`. -/
def upper (value : Option String) : Option String :=
  value.map fun text => Casing.toUpperCase (trim text)

/-- `\s` of a regular expression. -/
def isRegexSpace (c : Char) : Bool := (9 ≤ c.toNat && c.toNat ≤ 13) || c = ' '

def isUpperLetter (c : Char) : Bool := 'A' ≤ c && c ≤ 'Z'

def isDigit (c : Char) : Bool := '0' ≤ c && c ≤ '9'

/-- `[A-Z]{2}[A-Z0-9]{9}[0-9]`. -/
def isIsin (text : String) : Bool :=
  let letters := text.toList
  letters.length = 12 && (letters.take 2).all isUpperLetter &&
    ((letters.drop 2).take 9).all (fun c => isUpperLetter c || isDigit c) &&
    (letters.drop 11).all isDigit

/-- `normalizeIsin`. -/
def normalizeIsin (value : Option String) : Option String :=
  (value.filter fun text => !isBlank text).bind fun text =>
    let normalized := Casing.toUpperCase
      (String.ofList (text.toList.filter fun c => !isRegexSpace c))
    if isIsin normalized then some normalized else none

/-- `firstText`. -/
def firstText (values : List (Option String)) : String :=
  ((values.find? present).bind fun value => value).getD "Unresolved instrument"

/-! ### Queries -/

namespace MasterStore

variable (store : MasterStore)

/-- `masters.findByNormalizedIsin`. -/
def findByNormalizedIsin (isin : String) : Option Nat :=
  store.masters.findIdx? fun master => master.normalizedIsin = some isin

/-- `masters.findById`. -/
def findById (id : Nat) : Option Nat := if id < store.masters.length then some id else none

/-- `mappings.findByProviderAndProviderInstrumentId`. -/
def findByProviderAndProviderInstrumentId (provider : String) (providerId : Option String) :
    Option ProviderMapping :=
  store.mappings.find? fun m => m.provider = provider && m.providerInstrumentId = providerId

/-- The column has this value in some case; a null has not. -/
def equalsIgnoreCase (column value : Option String) : Bool :=
  column.isSome && column.map Casing.toUpperCase = value.map Casing.toUpperCase

/-- `mappings.findByProviderAndExchangeIgnoreCaseAndProviderSymbolIgnoreCase`. -/
def findByProviderAndExchangeAndProviderSymbol (provider : String)
    (exchange symbol : Option String) : Option ProviderMapping :=
  store.mappings.find? fun m => m.provider = provider && equalsIgnoreCase m.exchange exchange &&
    equalsIgnoreCase m.providerSymbol symbol

/-- Another mapping than this one has a key of it, of those with no null in them. -/
def violatesUnique (mapping : ProviderMapping) : Bool :=
  store.mappings.any fun m => m.mappingId ≠ mapping.mappingId && m.provider = mapping.provider &&
    ((m.providerInstrumentId.isSome && m.providerInstrumentId = mapping.providerInstrumentId) ||
      (m.exchange.isSome && m.exchange = mapping.exchange && m.providerSymbol.isSome &&
        m.providerSymbol = mapping.providerSymbol))

end MasterStore

/-! ### Resolving -/

def newMaster (row : Row) (isin : Option String) : Master where
  normalizedIsin := isin
  canonicalName := firstText [row.canonicalName, row.companyName, row.symbol]
  currency := row.tradingCurrency
  primaryExchange := upper row.exchange
  primarySymbol := row.symbol

/-- `createConcurrentlySafe`: the identifier of the new master, and the masters with it. -/
def createConcurrentlySafe (store : MasterStore) (row : Row) (isin : Option String) :
    Except ResolveError (Nat × List Master) :=
  if isin.isSome && store.masters.any fun other => other.normalizedIsin = isin then
    match isin.bind store.findByNormalizedIsin with
    | some id => .ok (id, store.masters)
    | none => .error .dataIntegrityViolation
  else .ok (store.masters.length, store.masters ++ [newMaster row isin])

/-- `markVerified`. -/
def ProviderMapping.markVerified (mapping : ProviderMapping) (row : Row) : ProviderMapping :=
  { mapping with
    providerSymbol := upper row.symbol
    providerInstrumentId :=
      if present row.providerId then row.providerId else mapping.providerInstrumentId
    exchange := if present (upper row.exchange) then upper row.exchange else mapping.exchange
    currency := if present row.tradingCurrency then row.tradingCurrency else mapping.currency
    status := "VERIFIED"
    resolutionSource := row.source
    confidence := row.confidence }

/-- `mappings.save` of a mapping that is new or replaces the one of its identifier. -/
def saveMapping (store : MasterStore) (mapping : ProviderMapping) :
    Except ResolveError (List ProviderMapping) := do
  raiseIf (store.violatesUnique mapping) .dataIntegrityViolation
  if store.mappings.any fun m => m.mappingId = mapping.mappingId then
    return store.mappings.map fun m => if m.mappingId = mapping.mappingId then mapping else m
  else return store.mappings ++ [mapping]

def status (row : Row) : String := if 9 / 10 ≤ row.confidence then "VERIFIED" else "RESOLVED"

def newMapping (store : MasterStore) (id : Nat) (row : Row) : ProviderMapping where
  mappingId := store.mappings.length
  instrumentId := id
  provider := row.provider
  providerSymbol := upper row.symbol
  providerInstrumentId := row.providerId
  exchange := upper row.exchange
  currency := row.tradingCurrency
  status := status row
  resolutionSource := row.source
  confidence := row.confidence

/-- The mapping `persistMapping` finds for a row. -/
def existingMapping (store : MasterStore) (row : Row) : Option ProviderMapping :=
  (if present row.providerId then
    store.findByProviderAndProviderInstrumentId row.provider row.providerId else none).or
  (if present row.symbol && present row.exchange then
    store.findByProviderAndExchangeAndProviderSymbol row.provider (upper row.exchange) row.symbol
    else none)

/-- `persistMapping`. -/
def persistMapping (store : MasterStore) (id : Nat) (row : Row) :
    Except ResolveError (List ProviderMapping) :=
  match existingMapping store row with
  | some mapping => do
      raiseIf (mapping.instrumentId ≠ id) .ambiguousProviderMapping
      if status row = "VERIFIED" then saveMapping store (mapping.markVerified row)
      else return store.mappings
  | none => saveMapping store (newMapping store id row)

/-- The master `resolveAndAttach` finds for a row. -/
def foundMaster (store : MasterStore) (row : Row) : Option Nat :=
  ((normalizeIsin row.isin).bind store.findByNormalizedIsin).or
  ((if present row.providerId then
    (store.findByProviderAndProviderInstrumentId row.provider row.providerId).bind
      fun m => store.findById m.instrumentId else none).or
  (if present row.symbol && present row.exchange then
    (store.findByProviderAndExchangeAndProviderSymbol row.provider row.exchange row.symbol).bind
      fun m => store.findById m.instrumentId else none))

/-- `found.orElseGet`: the identifier of the row's master, and the masters with it. -/
def findOrCreate (store : MasterStore) (row : Row) : Except ResolveError (Nat × List Master) :=
  match foundMaster store row with
  | some id => .ok (id, store.masters)
  | none => createConcurrentlySafe store row (normalizeIsin row.isin)

/-- `resolveAndAttach`. -/
def resolveAndAttach (store : MasterStore) (row : Row) : Except ResolveError MasterStore := do
  let master ← findOrCreate store row
  let mappings ← persistMapping store master.1 row
  return ⟨master.2, mappings, store.attached.set row master.1⟩

/-- `resolveAndAttach` of each row in turn. -/
def resolveAll (store : MasterStore) (rows : List Row) : Except ResolveError MasterStore :=
  rows.foldlM resolveAndAttach store

end InvestmentPlatform.Portfolio
