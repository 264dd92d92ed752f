/-
The parser of the `ICICI_DIRECT` portfolio export, and what it passes on.

The CSV reader and the decimal digits of a character are the library's.  A row that cannot be
read is an issue of its own; a file whose header lacks a column cannot be read at all.
-/
import InvestmentPlatform.Portfolio.InstrumentMaster

namespace InvestmentPlatform.Portfolio

open Fallible JavaText

inductive BrokerType
  | mock | ibkr | iciciDirect | hdfcSecurities
  deriving DecidableEq, Repr

def BrokerType.name : BrokerType → String
  | .mock => "MOCK"
  | .ibkr => "IBKR"
  | .iciciDirect => "ICICI_DIRECT"
  | .hdfcSecurities => "HDFC_SECURITIES"

structure ImportedHolding where
  securityKey : String
  isin : Option String
  symbol : Option String
  companyName : String
  quantity : ℚ
  longTermQuantity : Option ℚ
  averageCost : ℚ
  importedCurrentPrice : Option ℚ
  valueAtCost : Option ℚ
  importedMarketValue : Option ℚ
  realizedPnl : Option ℚ
  unrealizedPnl : Option ℚ
  unrealizedPnlPercent : Option ℚ
  totalPnl : Option ℚ
  todayPnl : Option ℚ
  currency : String
  deriving DecidableEq, Repr

/-- The columns it maps are named to the reader only and left out. -/
structure PortfolioImportParseResult where
  parserType : String
  accountReference : String
  rowCount : Nat
  holdings : List ImportedHolding
  issues : List String
  sourceSnapshotAt : Option Nat
  deriving DecidableEq, Repr

/-- `IllegalArgumentException`, by its message. -/
abbrev IllegalArgument := String

/-- `PortfolioImportParser`: `parse(filename, content, requestedPortfolioName)`. -/
structure PortfolioImportParser where
  brokerType : BrokerType
  supported : Bool
  parse : String → List UInt8 → Option String → Except IllegalArgument PortfolioImportParseResult

/-! ### The reader of the library -/

structure CsvRecord where
  number : Nat
  values : List String
  deriving DecidableEq, Repr

structure CsvFile where
  headers : List String
  records : List CsvRecord
  deriving DecidableEq, Repr

structure CsvLibrary where
  /-- The file that the format reads from the content, or the exception it ends in. -/
  read : List UInt8 → Except String CsvFile
  /-- What `record.get` says of a column the record does not reach. -/
  missingValue : CsvRecord → String → String
  /-- `Character.digit(c, 10)` -/
  digit : Char → Option Nat

variable (library : CsvLibrary)

/-- `record.get(header)` -/
def CsvFile.get (file : CsvFile) (record : CsvRecord) (header : String) :
    Except IllegalArgument String :=
  match record.values[file.headers.idxOf header]? with
  | some value => .ok value
  | none => .error (library.missingValue record header)

/-! ### Numbers and texts -/

/-- A number in digits, and how many there are. -/
def digits (text : List Char) : Option (Nat × Nat) :=
  text.foldlM (fun read c => (library.digit c).map fun d => (read.1 * 10 + d, read.2 + 1)) (0, 0)

/-- An optional sign. -/
def signed (text : List Char) : ℤ × List Char :=
  match text with
  | '-' :: rest => (-1, rest)
  | '+' :: rest => (1, rest)
  | rest => (1, rest)

/-- `new BigDecimal(text)`, none where it throws. -/
def bigDecimal (text : String) : Option ℚ := do
  let (sign, rest) := signed text.toList
  let isExponent := fun c => c = 'e' || c = 'E'
  let significand := rest.takeWhile fun c => !isExponent c
  let whole := significand.takeWhile (· ≠ '.')
  let fraction := (significand.dropWhile (· ≠ '.')).drop 1
  let (value, count) ← digits library (whole ++ fraction)
  let exponent ← match rest.dropWhile fun c => !isExponent c with
    | [] => some 0
    | _ :: power => do
        let (sign, power) := signed power
        let (value, count) ← digits library power
        if count = 0 then none else some (sign * value)
  let scale : ℤ := fraction.length - exponent
  if count = 0 ∨ scale < -2 ^ 31 ∨ 2 ^ 31 ≤ scale then none
  else some (sign * value * (10 : ℚ) ^ (-scale))

def number (raw : String) : Except IllegalArgument (Option ℚ) :=
  if isBlank raw then .ok none
  else
    let value := ((trim raw).toList.filter (· ≠ ',')).filter fun c => !isRegexSpace c
    let parentheses := value.head? = some '(' ∧ value.getLast? = some ')'
    match bigDecimal library (String.ofList
        (if parentheses then (value.drop 1).dropLast else value)) with
    | some parsed => .ok (some (if parentheses then -parsed else parsed))
    | none => .error "Malformed numeric value"

def requiredNumber (raw field : String) : Except IllegalArgument ℚ := do
  match ← number library raw with
  | some value => return value
  | none => throw (field ++ " is required")

def nullableText (raw : String) : Option String := if isBlank raw then none else some (trim raw)

def requiredText (raw field : String) : Except IllegalArgument String :=
  match nullableText raw with
  | some value => .ok value
  | none => .error (field ++ " is required")

def isAlphanumeric (c : Char) : Bool :=
  isUpperLetter c || isDigit c || ('a' ≤ c && c ≤ 'z')

/-- `[A-Za-z0-9][A-Za-z0-9 ._-]{0,79}` of the trimmed text. -/
def safeName (value : Option String) : Bool :=
  match value.map fun text => (trim text).toList with
  | some (first :: rest) => isAlphanumeric first && rest.length ≤ 79 &&
      rest.all fun c => isAlphanumeric c || c = ' ' || c = '.' || c = '_' || c = '-'
  | _ => false

/-- The text without an ending, whatever the case of its ASCII letters. -/
def dropEnding (ending text : List Char) : Option (List Char) :=
  let n := text.length - ending.length
  if (text.drop n).map Char.toLower = ending.map Char.toLower then some (text.take n) else none

/-- The text without an ending ` (12)`, where it has one. -/
def dropCopy (text : List Char) : List Char :=
  match dropEnding [')'] text with
  | none => text
  | some inner =>
      let stem := (inner.reverse.dropWhile isDigit).reverse
      if stem.length = inner.length then text else (dropEnding [' ', '('] stem).getD text

/-- The account of a file name `12_PortFolioEqtSummary (1).csv`; a name of one line. -/
def filenameAccount (filename : String) : Option String := do
  let stem ← dropEnding ".csv".toList filename.toList
  let account ← dropEnding "_PortFolioEqtSummary".toList (dropCopy stem)
  if account = [] ∨ account.any (fun c => c = '\n' || c = '\r') then none
  else some (String.ofList account)

def deriveAccountName (filename : String) (requestedName : Option String) :
    Except IllegalArgument String :=
  match (filenameAccount filename).filter fun account => safeName (some account) with
  | some account => .ok (trim account)
  | none =>
      match requestedName.filter fun name => safeName (some name) with
      | some name => .ok (trim name)
      | none => .error
          "A portfolio name is required because the filename does not identify an ICICI account"

/-! ### The parser -/

def requiredHeaders : List String :=
  ["Stock Symbol", "Company Name", "ISIN Code", "Qty", "Average Cost Price",
    "Current Market Price", "Value At Cost", "Value At Market Price", "Realized Profit / Loss",
    "Unrealized Profit/Loss", "Unrealized Profit/Loss %"]

variable [Casing]

/-- `normalizeIsin` of the parser, which refuses what is malformed. -/
def parsedIsin (raw : String) : Except IllegalArgument String := do
  let text ← requiredText raw "ISIN"
  let isin := Casing.toUpperCase (String.ofList (text.toList.filter fun c => !isRegexSpace c))
  raiseIf (isIsin isin = false) "ISIN is malformed"
  return isin

/-- One row of the file. -/
def iciciHolding (file : CsvFile) (record : CsvRecord) : Except IllegalArgument ImportedHolding := do
  let get := file.get library record
  let isin ← parsedIsin (← get "ISIN Code")
  let quantity ← requiredNumber library (← get "Qty") "Qty"
  let averageCost ← requiredNumber library (← get "Average Cost Price") "Average Cost Price"
  let companyName ← requiredText (← get "Company Name") "Company Name"
  let symbol := nullableText (← get "Stock Symbol")
  return {
    securityKey := "ISIN:" ++ isin
    isin := some isin
    symbol, companyName, quantity, averageCost
    longTermQuantity := none
    importedCurrentPrice := ← number library (← get "Current Market Price")
    valueAtCost := ← number library (← get "Value At Cost")
    importedMarketValue := ← number library (← get "Value At Market Price")
    realizedPnl := ← number library (← get "Realized Profit / Loss")
    unrealizedPnl := ← number library (← get "Unrealized Profit/Loss")
    unrealizedPnlPercent := ← number library (← get "Unrealized Profit/Loss %")
    totalPnl := none
    todayPnl := none
    currency := "INR" }

def rowIssue (record : CsvRecord) (message : IllegalArgument) : String :=
  "Row " ++ toString record.number ++ ": " ++ message

def parseIcici (filename : String) (content : List UInt8) (requestedName : Option String) :
    Except IllegalArgument PortfolioImportParseResult := do
  let account ← deriveAccountName filename requestedName
  let file ← (library.read content).mapError fun _ => "Unable to parse ICICI portfolio CSV"
  match requiredHeaders.find? (· ∉ file.headers) with
  | some header => throw ("Unsupported ICICI CSV: missing column " ++ header)
  | none =>
      let rows := file.records.map fun record => (record, iciciHolding library file record)
      return {
        parserType := "ICICI_DIRECT_PORTFOLIO_EQT_SUMMARY_V1"
        accountReference := account
        rowCount := rows.length
        holdings := rows.filterMap fun row => row.2.toOption
        issues := rows.filterMap fun row =>
          match row.2 with
          | .ok _ => none
          | .error message => some (rowIssue row.1 message)
        sourceSnapshotAt := none }

def iciciParser : PortfolioImportParser where
  brokerType := .iciciDirect
  supported := true
  parse := parseIcici library

end InvestmentPlatform.Portfolio

/-!
`PortfolioImportService.confirm`, over the tables it reads and writes.

A confirmation is one transaction: what throws leaves the tables as they were.  Rows are only
added and changed, so the identifier of a row is its place in its table.  The broker account that
an import names, and that nothing here reads back, is left out.
-/

namespace InvestmentPlatform.Portfolio

open Fallible JavaText

/-! ### The upload -/

structure MultipartFile where
  originalFilename : Option String
  content : List UInt8
  deriving DecidableEq, Repr

structure Upload where
  filename : String
  content : List UInt8
  deriving DecidableEq, Repr

def maxFileBytes : Nat := 5 * 1024 * 1024

/-- What follows the last slash. -/
def baseName (text : List Char) : List Char := (text.reverse.takeWhile (· ≠ '/')).reverse

/-- `[A-Za-z0-9][A-Za-z0-9 ._()\-]{0,254}\.csv` -/
def safeFilename (filename : List Char) : Bool :=
  let stem := filename.take (filename.length - 4)
  filename.drop (filename.length - 4) = ".csv".toList &&
    (match stem with
    | [] => false
    | first :: rest => isAlphanumeric first && rest.length ≤ 254 &&
        rest.all fun c => isAlphanumeric c || c = ' ' || c = '.' || c = '_' || c = '(' ||
          c = ')' || c = '-')

def validate (file : Option MultipartFile) : Except IllegalArgument Upload := do
  match file.filter fun file => file.content ≠ [] with
  | none => throw "A CSV file is required"
  | some file =>
      raiseIf (maxFileBytes < file.content.length) "CSV file exceeds the 5 MB limit"
      let raw := (file.originalFilename.getD "").toList.map fun c => if c = '\\' then '/' else c
      let filename := trim (String.ofList (baseName raw))
      raiseIf (safeFilename filename.toList = false) "A safe .csv filename is required"
      raiseIf (file.content.take 2 = [77, 90] ∨ file.content.take 2 = [80, 75])
        "Executable or archive content is not accepted"
      raiseIf (0 ∈ file.content) "Binary content is not accepted"
      return ⟨filename, file.content⟩

/-! ### Tables -/

/-- What a manual portfolio is found by. -/
structure PortfolioKey where
  userId : Nat
  broker : BrokerType
  accountReference : String
  deriving DecidableEq, Repr

structure ManualPortfolio where
  lastImportedAt : Nat
  lastImportedFilename : String
  deriving DecidableEq, Repr

/-- The metadata of a broker's instrument that an import writes. -/
structure ImportedInstrument where
  isin : Option String
  ticker : Option String
  companyName : String
  symbol : Option String
  deriving DecidableEq, Repr

/-- A position of a manual portfolio. -/
structure ManualPosition where
  positionId : Nat
  portfolio : PortfolioKey
  externalInstrumentProvider : String
  externalInstrumentId : String
  quantity : ℚ
  averageCostAmount : ℚ
  averageCostCurrency : String
  importedPriceAmount : Option ℚ
  importedMarketValueAmount : Option ℚ
  importedUnrealizedPnlAmount : Option ℚ
  importedUnrealizedPnlPercent : Option ℚ
  syncGenerationId : Nat
  observedAt : Nat
  dataFreshness : String
  active : Bool
  deriving DecidableEq, Repr

structure ImportHistory where
  importId : Nat
  portfolio : PortfolioKey
  uploadedFilename : String
  importedAt : Nat
  rowCount : Nat
  acceptedCount : Nat
  rejectedCount : Nat
  parserType : String
  fileSha256 : String
  deriving DecidableEq, Repr

structure HoldingSnapshot where
  importId : Nat
  portfolio : PortfolioKey
  holding : ImportedHolding
  observedAt : Nat
  deriving DecidableEq, Repr

structure ImportStore where
  portfolios : Dict PortfolioKey ManualPortfolio
  instruments : Dict (String × String) ImportedInstrument
  masters : MasterStore
  positions : List ManualPosition
  history : List ImportHistory
  snapshots : List HoldingSnapshot
  /-- The next generation, different from all before. -/
  generations : Nat

inductive ImportError
  | illegalArgument (message : IllegalArgument)
  | resolve (error : ResolveError)
  deriving DecidableEq, Repr

structure ImportResult where
  portfolio : PortfolioKey
  importedAt : Nat
  rowCount : Nat
  acceptedCount : Nat
  rejectedCount : Nat
  updatedExistingPortfolio : Bool
  deriving DecidableEq, Repr

/-! ### One holding -/

/-- The position of a portfolio with that instrument of its broker. -/
def ManualPosition.isFor (row : ManualPosition) (key : PortfolioKey) (securityKey : String) : Bool :=
  row.portfolio = key ∧ row.externalInstrumentProvider = key.broker.name ∧
    row.externalInstrumentId = securityKey

/-- `replaceManualImportValues` -/
def replaceManualImportValues (key : PortfolioKey) (holding : ImportedHolding)
    (generation observedAt : Nat) (row : ManualPosition) : ManualPosition :=
  { row with
    quantity := holding.quantity
    averageCostAmount := holding.averageCost
    averageCostCurrency := "INR"
    importedPriceAmount := holding.importedCurrentPrice.filter (0 < ·)
    importedMarketValueAmount := holding.importedMarketValue
    importedUnrealizedPnlAmount := holding.unrealizedPnl
    importedUnrealizedPnlPercent := holding.unrealizedPnlPercent
    externalInstrumentProvider := key.broker.name
    externalInstrumentId := holding.securityKey
    syncGenerationId := generation
    observedAt := observedAt
    dataFreshness := "IMPORTED_SNAPSHOT"
    active := true }

/-- The position a new holding gets. -/
def newPosition (key : PortfolioKey) (holding : ImportedHolding) (positionId generation
    observedAt : Nat) : ManualPosition :=
  replaceManualImportValues key holding generation observedAt
    { positionId := positionId
      portfolio := key
      externalInstrumentProvider := key.broker.name
      externalInstrumentId := holding.securityKey
      quantity := holding.quantity
      averageCostAmount := holding.averageCost
      averageCostCurrency := "INR"
      importedPriceAmount := none
      importedMarketValueAmount := none
      importedUnrealizedPnlAmount := none
      importedUnrealizedPnlPercent := none
      syncGenerationId := generation
      observedAt := observedAt
      dataFreshness := "IMPORTED_SNAPSHOT"
      active := true }

/-- Change the first row that is meant, or add one. -/
def changeOrAdd {R : Type} (meant : R → Bool) (change : R → R) (added : R) : List R → List R
  | [] => [added]
  | row :: rows =>
      if meant row then change row :: rows else row :: changeOrAdd meant change added rows

/-- `markStale` -/
def ManualPosition.markStale (generation : Nat) (row : ManualPosition) : ManualPosition :=
  { row with active := false, syncGenerationId := generation, dataFreshness := "STALE_BROKER" }

variable [Casing]

/-- What the instrument master is asked for. -/
def masterRow (broker : BrokerType) (holding : ImportedHolding) : Row where
  isin := holding.isin
  canonicalName := some holding.companyName
  companyName := some holding.companyName
  tradingCurrency := some "INR"
  provider := broker.name
  providerId := some holding.securityKey
  symbol := holding.symbol
  exchange := some "UNKNOWN"
  source := "MANUAL_CSV_IMPORT"
  confidence := if holding.isin = none then 85 / 100 else 99 / 100

/-- The body of the loop over the holdings. -/
def importHolding (key : PortfolioKey) (generation observedAt : Nat) (s : ImportStore)
    (holding : ImportedHolding) : Except ImportError ImportStore := do
  let masters ← (resolveAndAttach s.masters (masterRow key.broker holding)).mapError .resolve
  return { s with
    instruments := s.instruments.set (key.broker.name, holding.securityKey)
      { isin := holding.isin
        ticker := holding.symbol.or holding.isin
        companyName := holding.companyName
        symbol := holding.symbol }
    masters := masters
    positions := changeOrAdd (·.isFor key holding.securityKey)
      (replaceManualImportValues key holding generation observedAt)
      (newPosition key holding s.positions.length generation observedAt) s.positions }

/-! ### The confirmation -/

structure ConfirmCall where
  userId : Nat
  broker : BrokerType
  file : Option MultipartFile
  name : Option String
  /-- The clock. -/
  now : Nat
  deriving DecidableEq, Repr

variable (parsers : List PortfolioImportParser) (sha256 : List UInt8 → String)

/-- `parser(broker)` -/
def parserFor (broker : BrokerType) : Except IllegalArgument PortfolioImportParser :=
  match parsers.find? fun candidate => candidate.brokerType = broker with
  | none => .error "Manual import is unavailable for this broker"
  | some parser =>
      if parser.supported then .ok parser
      else .error ("The " ++ broker.name ++ " portfolio file format is not yet supported")

omit [Casing] in
/-- The upload and what its parser makes of it. -/
def readFile (call : ConfirmCall) : Except IllegalArgument (Upload × PortfolioImportParseResult) := do
  let upload ← validate call.file
  let parser ← parserFor parsers call.broker
  let parsed ← parser.parse upload.filename upload.content call.name
  raiseIf (parsed.holdings = []) "The CSV contains no valid holdings"
  return (upload, parsed)

def ConfirmCall.key (call : ConfirmCall) (parsed : PortfolioImportParseResult) : PortfolioKey :=
  ⟨call.userId, call.broker, parsed.accountReference⟩

/-- The portfolio exists, and a file with that hash has been imported into it. -/
def alreadyImported (s : ImportStore) (key : PortfolioKey) (hash : String) : Bool :=
  (s.portfolios.get? key).isSome &&
    s.history.any fun row => row.portfolio = key ∧ row.fileSha256 = hash

/-- `confirm`, with what the file has been read to. -/
def importFile (call : ConfirmCall) (upload : Upload) (parsed : PortfolioImportParseResult)
    (s : ImportStore) : Except ImportError (ImportResult × ImportStore) := do
  let key := call.key parsed
  let existing := s.portfolios.get? key
  let result := fun importedAt updated => ImportResult.mk key importedAt parsed.rowCount
    parsed.holdings.length parsed.issues.length updated
  if alreadyImported s key (sha256 upload.content) then
    return (result (existing.elim call.now ManualPortfolio.lastImportedAt) true, s)
  else
    let observedAt := parsed.sourceSnapshotAt.getD call.now
    let imported ← parsed.holdings.foldlM (importHolding key s.generations observedAt) s
    let importId := s.history.length
    return (result call.now existing.isSome, { imported with
      portfolios := s.portfolios.set key ⟨call.now, upload.filename⟩
      -- what the loop has not touched is as it was when the active positions were read
      positions := imported.positions.map fun row =>
        if row.portfolio = key ∧ row.active = true ∧ row.syncGenerationId ≠ s.generations
        then row.markStale s.generations else row
      history := s.history ++ [⟨importId, key, upload.filename, call.now, parsed.rowCount,
        parsed.holdings.length, parsed.issues.length, parsed.parserType,
        sha256 upload.content⟩]
      snapshots := s.snapshots ++ parsed.holdings.map fun holding =>
        ⟨importId, key, holding, observedAt⟩
      generations := s.generations + 1 })

def confirm (call : ConfirmCall) (s : ImportStore) :
    Except ImportError (ImportResult × ImportStore) := do
  let read ← (readFile parsers call).mapError .illegalArgument
  importFile sha256 call read.1 read.2 s

end InvestmentPlatform.Portfolio
