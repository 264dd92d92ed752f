/-
`acquire_news` of `app/news_acquisition.py`: one explicit, bounded search for the news of a company,
with `aggregate_search` of `app/news_intelligence.py` and what it reuses of earlier discoveries.

The providers, the steps on a document and the clock are what they answer: a provider the answers to
the planned queries, a document the outcome of each of its steps, where `none` is an exception.  A
call of `acquire_news` is a function of them, `none` where it raises.  Beside its result it keeps a
log of the calls to the providers, of the addresses it fetched and of those it looked at.

The company's exposure profile is on file before the search; the budget of a deep investigation,
which only reads the result, and the timing of the pauses are left out.
-/
import InvestmentPlatform.News.CanonicalUrl
import Mathlib.Algebra.GroupWithZero.Nat
import Mathlib.Data.Prod.Lex
import Mathlib.Data.Rat.Defs

namespace InvestmentPlatform.News

open Selection UrlText

/-- Microseconds since the epoch. -/
abbrev Moment := Int

def dayLength : Int := 86400000000

/-! ### Candidates -/

structure CandidateSearchResult where
  title : Text
  url : Text
  snippet : Text
  discoveredAt : Moment
  provider : String
  queryId : String
  query : String
  category : String
  deriving DecidableEq, Repr

/-- `needle in text`. -/
def within (text : Text) (needle : String) : Bool := decide (needle.toList <:+: text)

def exchangeTokens : List String :=
  ["nseindia", "bseindia", "euronext", "deutsche-boerse", "londonstockexchange", "sec.gov"]

def filingTerms : List String :=
  ["quarterly result", "financial result", "unaudited result", "audited result",
    "earnings release", "results for quarter", "quarter ended", "financial statement"]

def ownershipTerms : List String :=
  ["shareholding pattern", "shareholder pattern", "promoter", "fii", "fpi", "dii"]

abbrev CandidateRank := Nat ×ₗ Nat ×ₗ Nat ×ₗ Moment

/-- `_candidate_rank`; `none` where `urlparse` raises. -/
def candidateRank (unicode : Unicode) (knownDomains : List Text)
    (candidate : CandidateSearchResult) : Option CandidateRank :=
  (urlparse unicode candidate.url).map fun url =>
    let haystack := unicode.lower
      (candidate.title ++ ' ' :: candidate.snippet ++ ' ' :: candidate.url)
    let host := unicode.lower ((url.toSplit.hostname unicode).getD [])
    let official := knownDomains.any fun domain =>
      host = unicode.lower domain || ('.' :: unicode.lower domain).isSuffixOf host
    let exchange := exchangeTokens.any (within host)
    let isPdf := within (unicode.lower candidate.url) ".pdf" || within haystack " pdf"
    let relevant := (candidate.category = "FINANCIAL_RESULTS" && filingTerms.any (within haystack)) ||
      (["Ownership", "INSTITUTIONAL_ACTIVITY"].contains candidate.category &&
        ownershipTerms.any (within haystack))
    toLex (if exchange then 3 else if official then 2 else 0,
      toLex (relevant.toNat, toLex ((!isPdf).toNat, candidate.discoveredAt)))

/-! ### Outcomes of a search -/

inductive SearchState
  | successWithResults | successEmpty | partialCoverage | failed | degraded
  deriving DecidableEq, Repr

structure ProviderOutcome where
  provider : String
  outcome : SearchState
  candidateCount : Nat
  queriesPlanned : Nat
  queriesCompleted : Nat
  failureCode : Option String
  degradedQueries : Nat := 0
  deriving DecidableEq, Repr

inductive RunOutcome
  | completeWithEvents | completeNoEvents | partialCoverage | failed
  deriving DecidableEq, Repr

structure SearchRun where
  instrumentId : String
  startedAt : Moment
  completedAt : Moment
  outcome : RunOutcome
  coverage : ℚ
  qualifyingEvents : Nat
  providers : List ProviderOutcome
  queryPlan : List (Nat × String)

/-- `p.outcome in {'FAILED', 'DEGRADED'}`. -/
def ProviderOutcome.Down (p : ProviderOutcome) : Prop := p.outcome = .failed ∨ p.outcome = .degraded

instance (p : ProviderOutcome) : Decidable p.Down := inferInstanceAs (Decidable (_ ∨ _))

/-- `p.outcome.startswith('SUCCESS')`. -/
def ProviderOutcome.Successful (p : ProviderOutcome) : Prop :=
  p.outcome = .successWithResults ∨ p.outcome = .successEmpty

instance (p : ProviderOutcome) : Decidable p.Successful := inferInstanceAs (Decidable (_ ∨ _))

/-- All of its plan is completed. -/
def ProviderOutcome.Complete (p : ProviderOutcome) : Prop :=
  p.Successful ∧ p.queriesCompleted = p.queriesPlanned ∧ 0 < p.queriesPlanned

instance (p : ProviderOutcome) : Decidable p.Complete := inferInstanceAs (Decidable (_ ∧ _ ∧ _))

/-- `aggregate_search`; `none` where it raises. -/
def aggregateSearch (instrumentId : String) (providers : List ProviderOutcome)
    (startedAt completedAt : Moment) (qualifyingEvents : Nat) (queryPlan : List (Nat × String)) :
    Option SearchRun :=
  let total := (providers.map ProviderOutcome.queriesPlanned).sum
  let up := providers.filter fun p => ¬ p.Down
  let completed := (up.map ProviderOutcome.queriesCompleted).sum
  if ¬ (providers.map ProviderOutcome.provider).Nodup ∨ completedAt < startedAt then none
  else some
    { instrumentId, startedAt, completedAt, qualifyingEvents, providers, queryPlan
      outcome :=
        if providers ≠ [] ∧ 0 < total ∧ ∀ p ∈ providers, p.Complete then
          if 0 < qualifyingEvents then .completeWithEvents else .completeNoEvents
        else if up.any fun p => decide (0 < p.queriesCompleted ∨ 0 < p.candidateCount) then
          .partialCoverage
        else .failed
      coverage := if total = 0 then 0 else (completed : ℚ) / total }

/-! ### Providers -/

/-- What a query raised: an error of a search provider with its text, or another by its class. -/
inductive QueryError
  | search (text : String) | other (className : String)
  deriving DecidableEq, Repr

/-- The answer to one query. -/
inductive Answer
  | raised (error : QueryError)
  | rows (rows : List CandidateSearchResult) (degraded : Bool)
  deriving DecidableEq, Repr

/-- A provider, with its answers to the planned queries. -/
structure Provider where
  providerName : String
  answers : Nat → Answer

def startsWith (text start : String) : Bool := start.toList.isPrefixOf text.toList

/-- `_query_failure_code`. -/
def queryFailureCode : QueryError → String
  | .search text =>
      let stripped := String.ofList (Stage2.strip text.toList)
      let code := if stripped = "" then "SEARCH_PROVIDER_UNAVAILABLE" else stripped
      let wrapped := "SEARCH_PROVIDER_UNAVAILABLE:"
      let inner := String.ofList (code.toList.drop wrapped.toList.length)
      if startsWith code wrapped && startsWith inner "SEARCH_PROVIDER_" then inner else code
  | .other className => "SEARCH_QUERY_FAILED:" ++ className

/-- `_join_codes`. -/
def joinCodes (codes : List String) : Option String :=
  let parts := sortedSet (codes.flatMap fun code =>
    ((code.toList.splitOn '|').map String.ofList).filter (· ≠ ""))
  if parts = [] then none else some ("|".intercalate parts)

/-- What the queries to one provider have brought so far. -/
structure Asked where
  candidates : Dict Text CandidateSearchResult
  completed : Nat := 0
  count : Nat := 0
  degradedQueries : Nat := 0
  codes : List String := []
  consecutiveDegraded : Nat := 0
  calls : List Nat := []

section

variable (canonicalize : Text → Option Text)

/-- `candidates.setdefault(canonicalize_url(row.url), row)` for each row. -/
def addRows (candidates : Dict Text CandidateSearchResult) :
    List CandidateSearchResult → Option (Dict Text CandidateSearchResult) :=
  List.foldlM (fun d row => (canonicalize row.url).map fun url => d.setDefault url row) candidates

/-- One query. -/
def askOne (answers : Nat → Answer) (index : Nat) (s : Asked) : Option Asked :=
  let s := { s with calls := s.calls ++ [index] }
  match answers index with
  | .raised error =>
      some { s with codes := s.codes ++ [queryFailureCode error], consecutiveDegraded := 0 }
  | .rows rows degraded =>
      if degraded ∧ rows = [] then
        some { s with
          codes := s.codes ++ ["SEARCH_PROVIDER_DEGRADED"]
          consecutiveDegraded := s.consecutiveDegraded + 1 }
      else (addRows canonicalize s.candidates rows).map fun candidates =>
        { s with
          candidates
          completed := s.completed + 1
          count := s.count + rows.length
          degradedQueries := s.degradedQueries + degraded.toNat
          consecutiveDegraded := 0 }

/-- `_MAX_CONSECUTIVE_DEGRADED_QUERIES`. -/
def maxConsecutiveDegraded : Nat := 3

/-- The queries of the plan, until the provider has been degraded too often in a row. -/
def askAll (answers : Nat → Answer) : List Nat → Asked → Option Asked
  | [], s => some s
  | index :: rest, s => (askOne canonicalize answers index s).bind fun s =>
      if maxConsecutiveDegraded ≤ s.consecutiveDegraded ∧ rest ≠ [] then some s
      else askAll answers rest s

/-- The outcome of a provider that was asked. -/
def outcomeOf (name : String) (planned : Nat) (s : Asked) : ProviderOutcome where
  provider := name
  outcome :=
    if 0 < s.completed then
      if s.codes ≠ [] then .partialCoverage
      else if 0 < s.count then .successWithResults else .successEmpty
    else .failed
  candidateCount := s.count
  queriesPlanned := planned
  queriesCompleted := s.completed
  failureCode := joinCodes s.codes
  degradedQueries := s.degradedQueries

/-- What all the providers have brought so far. -/
structure Gathered where
  candidates : Dict Text CandidateSearchResult
  outcomes : List ProviderOutcome
  calls : List (String × Nat) := []

/-- `provider_name.lower() == 'disabled'`. -/
def disabled (unicode : Unicode) (provider : Provider) : Bool :=
  unicode.lower provider.providerName.toList = "disabled".toList

def askProvider (unicode : Unicode) (planned : Nat) (provider : Provider) (g : Gathered) :
    Option Gathered :=
  if disabled unicode provider then
    some { g with outcomes := g.outcomes ++
      [{ provider := provider.providerName
         outcome := .failed
         candidateCount := 0
         queriesPlanned := planned
         queriesCompleted := 0
         failureCode := some "SEARCH_PROVIDER_DISABLED" }] }
  else
    (askAll canonicalize provider.answers (List.range planned) { candidates := g.candidates }).map
      fun s =>
        { candidates := s.candidates
          outcomes := g.outcomes ++ [outcomeOf provider.providerName planned s]
          calls := g.calls ++ s.calls.map fun index => (provider.providerName, index) }

end

/-! ### Reuse of what is on file -/

/-- An observation of an earlier acquisition; its time where it names one with a zone. -/
structure AcquisitionObservation where
  requirementId : String
  provider : String
  observedAt : Option Moment
  outcome : String
  deriving DecidableEq, Repr

/-- A document on file, as far as a search reads it. -/
structure ResearchDocument where
  title : Option Text
  canonicalUrl : Text
  discoveredAt : Option Moment
  retrievedAt : Moment
  discoveryProvider : Option String
  sourceClassification : String
  normalizedText : String
  deriving DecidableEq, Repr

/-- `persisted_yahoo_discovery`. -/
def persistedYahooDiscovery (observations : List AcquisitionObservation)
    (documents : List ResearchDocument) (now : Moment) :
    List ProviderOutcome × List CandidateSearchResult :=
  let checks := observations.filterMap fun row =>
    if row.requirementId ≠ "CURRENT_NEWS" ∨ row.provider ≠ "YAHOO_FINANCE_MCP" then none
    else (row.observedAt.filter fun stamp => 0 ≤ now - stamp ∧ now - stamp ≤ dayLength).map
      fun stamp => (stamp, row)
  match firstMax Prod.fst checks with
  | none => ([], [])
  | some (stamp, row) =>
      let success := row.outcome = "SUCCESS" ∨ row.outcome = "SUCCESS_EMPTY"
      let candidates :=
        if row.outcome = "SUCCESS" then
          (documents.filter fun doc =>
            doc.discoveryProvider = some "YAHOO_FINANCE_MCP" ∧ doc.retrievedAt ≤ stamp).map
            fun doc =>
              { title := doc.title.getD []
                url := doc.canonicalUrl
                snippet := []
                discoveredAt := doc.discoveredAt.getD doc.retrievedAt
                provider := "YAHOO_FINANCE_MCP"
                queryId := "persisted-company-news"
                query := "persisted company news"
                category := "CURRENT_NEWS" }
        else []
      ([{ provider := "YAHOO_FINANCE_MCP"
          outcome :=
            if row.outcome = "SUCCESS" ∧ candidates = [] then .partialCoverage
            else if success then
              if candidates ≠ [] then .successWithResults else .successEmpty
            else .failed
          candidateCount := candidates.length
          queriesPlanned := 1
          queriesCompleted := if success then 1 else 0
          failureCode := if success then none else some "PERSISTED_YAHOO_SEARCH_FAILED" }],
        candidates)

/-- `persisted_official_discovery`. -/
def persistedOfficialDiscovery (documents : List ResearchDocument) :
    List ProviderOutcome × List CandidateSearchResult :=
  let candidates := (documents.filter fun doc =>
    doc.sourceClassification = "EXCHANGE" ∧ doc.normalizedText ≠ "").map fun doc =>
      { title := doc.title.getD []
        url := doc.canonicalUrl
        snippet := []
        discoveredAt := doc.discoveredAt.getD doc.retrievedAt
        provider := (doc.discoveryProvider.filter (· ≠ "")).getD "NSE_OFFICIAL_API"
        queryId := "persisted-official-filing"
        query := "persisted official filing"
        category := "CURRENT_NEWS" : CandidateSearchResult }
  if candidates = [] then ([], [])
  else
    ([{ provider := "OFFICIAL_FILING_REUSE"
        outcome := .successWithResults
        candidateCount := candidates.length
        queriesPlanned := 1
        queriesCompleted := 1
        failureCode := none }], candidates)

/-! ### Documents -/

inductive Stage
  | documentFetchFailed | extractionFailed | documentPersistFailed
  deriving DecidableEq, Repr

def Stage.code : Stage → String
  | .documentFetchFailed => "DOCUMENT_FETCH_FAILED"
  | .extractionFailed => "EXTRACTION_FAILED"
  | .documentPersistFailed => "DOCUMENT_PERSIST_FAILED"

/-- What the steps on one candidate do; `F` is the type of a feature.  `none` and `false` are
exceptions. -/
structure DocumentSteps (F : Type) where
  /-- The documents on file: the text of the one with the address, if there is one. -/
  onFile : Option (Option String)
  fetched : Bool
  /-- `extract_text` and the document built from it. -/
  extracted : Option String
  persisted : Bool
  /-- `extract_impacts`. -/
  impacts : Option (List F)
  /-- `append_news_record`: the record as it is stored. -/
  appended : F → Option F

/-- What the loop over the candidates has done so far. -/
structure Examined (F : Type) where
  features : List F := []
  documentCodes : List Stage := []
  usableDocuments : Nat := 0
  fetchedUrls : List Text := []
  lookedAt : List Text := []

variable {F : Type}

def Examined.fail (s : Examined F) (stage : Stage) : Examined F :=
  { s with documentCodes := s.documentCodes ++ [stage] }

/-- `for feature in extracted: features.append(await append_news_record(feature))`. -/
def appendAll (appended : F → Option F) : List F → Examined F → Examined F
  | [], s => s
  | feature :: rest, s =>
      match appended feature with
      | none => s.fail .extractionFailed
      | some record => appendAll appended rest { s with features := s.features ++ [record] }

/-- The document is there: its impacts are extracted and written. -/
def readDocument (steps : DocumentSteps F) (text : String) (s : Examined F) : Examined F :=
  if text = "" then s.fail .extractionFailed
  else
    match steps.impacts with
    | none => s.fail .extractionFailed
    | some [] => s
    | some extracted =>
        appendAll steps.appended extracted { s with usableDocuments := s.usableDocuments + 1 }

/-- One candidate. -/
def examineOne (steps : DocumentSteps F) (url : Text) (s : Examined F) : Examined F :=
  let s := { s with lookedAt := s.lookedAt ++ [url] }
  match steps.onFile with
  | none => s.fail .documentFetchFailed
  | some (some text) => readDocument steps text s
  | some none =>
      let s := { s with fetchedUrls := s.fetchedUrls ++ [url] }
      if ¬ steps.fetched then s.fail .documentFetchFailed
      else
        match steps.extracted with
        | none => s.fail .extractionFailed
        | some text =>
            if text = "" then s.fail .extractionFailed
            else if ¬ steps.persisted then s.fail .documentPersistFailed
            else readDocument steps text s

/-- The loop over the ranked candidates, within its budgets. -/
def examineAll (steps : Text → DocumentSteps F) (maxDocuments maxAttempts : Nat) :
    List Text → Examined F → Examined F
  | [], s => s
  | url :: rest, s =>
      if maxDocuments ≤ s.usableDocuments then s
      else if maxAttempts ≤ s.fetchedUrls.length then s
      else examineAll steps maxDocuments maxAttempts rest (examineOne (steps url) url s)

/-! ### One company -/

/-- What a call is given and what its surroundings answer. -/
structure NewsInput (F : Type) where
  instrumentId : String
  knownDomains : List Text
  providers : List Provider
  /-- `query_plan` of the exposure profile. -/
  queryPlan : List (Nat × String)
  maxQueries : Nat
  maxDocuments : Nat
  startedAt : Moment
  completedAt : Moment
  observations : List AcquisitionObservation
  documents : List ResearchDocument
  steps : Text → DocumentSteps F
  eventKey : F → String

variable (unicode : Unicode) (quoting : Quoting) (input : NewsInput F)

/-- A fair share of the tiers, `plan[:max_queries]`. -/
def fairPlan (plan : List (Nat × String)) (maxQueries : Nat) : List (Nat × String) :=
  let buckets := [1, 2, 3, 4].map fun tier => plan.filter fun q => q.1 = tier
  ((List.range ((buckets.map List.length).max?.getD 0)).flatMap fun i =>
    buckets.filterMap fun bucket => bucket[i]?).take maxQueries

def NewsInput.plan : List (Nat × String) := fairPlan input.queryPlan input.maxQueries

/-- `{canonicalize_url(row.url): row for row in rows}`. -/
def keyedRows (canonicalize : Text → Option Text) (rows : List CandidateSearchResult) :
    Option (Dict Text CandidateSearchResult) :=
  rows.foldlM (fun d row => (canonicalize row.url).map fun url => d.set url row) Dict.empty

/-- The candidates and outcomes of everything that was searched. -/
def gather : Option Gathered :=
  let canonicalize := canonicalizeUrl unicode quoting
  let yahoo := persistedYahooDiscovery input.observations input.documents input.startedAt
  let official := persistedOfficialDiscovery input.documents
  (keyedRows canonicalize yahoo.2).bind fun supplemental =>
    (addRows canonicalize supplemental official.2).bind fun candidates =>
      (sortOn (fun p : Provider => p.providerName) input.providers).foldlM
        (fun g provider => askProvider canonicalize unicode input.plan.length provider g)
        { candidates, outcomes := yahoo.1 ++ official.1 }

/-- `sorted(candidates.items(), key=.., reverse=True)`, the addresses; `none` where a rank raises. -/
def rankedUrls (candidates : Dict Text CandidateSearchResult) : Option (List Text) :=
  (candidates.items.mapM fun item =>
    (candidateRank unicode input.knownDomains item.2).map fun rank => (rank, item.1)).map
      fun ranked => (ranked.insertionSort fun a b => b.1 ≤ a.1).map Prod.snd

/-- What a call returns, and what it did. -/
structure Acquired (F : Type) where
  run : SearchRun
  features : List F
  calls : List (String × Nat)
  fetchedUrls : List Text
  lookedAt : List Text
  candidates : List Text

/-- A successful outcome rewritten as incomplete. -/
def demoted (stages : List Stage) (p : ProviderOutcome) : ProviderOutcome :=
  if p.Successful then
    { p with
      outcome := .partialCoverage
      failureCode := joinCodes (p.failureCode.toList ++ stages.map Stage.code ++
        ["DOCUMENT_BUDGET_EXHAUSTED"]) }
  else p

/-- `acquire_news`; `none` where it raises. -/
def acquireNews : Option (Acquired F) :=
  if ¬ (1 ≤ input.providers.length ∧ input.providers.length ≤ 3) ∨
      ¬ (1 ≤ input.maxQueries ∧ input.maxQueries ≤ 20) ∨
      ¬ (1 ≤ input.maxDocuments ∧ input.maxDocuments ≤ 20) then none
  else
    (gather unicode quoting input).bind fun gathered =>
      (rankedUrls unicode input gathered.candidates).bind fun urls =>
        let examined := examineAll input.steps input.maxDocuments
          (min urls.length (input.maxDocuments * 2)) urls {}
        let incomplete := (examined.documentCodes ≠ [] ∨ input.maxDocuments < urls.length) ∧
          examined.usableDocuments = 0
        let outcomes := if incomplete then
            gathered.outcomes.map (demoted examined.documentCodes)
          else gathered.outcomes
        (aggregateSearch input.instrumentId outcomes input.startedAt input.completedAt
          (examined.features.map input.eventKey).dedup.length input.plan).map fun run =>
            { run
              features := examined.features
              calls := gathered.calls
              fetchedUrls := examined.fetchedUrls
              lookedAt := examined.lookedAt
              candidates := urls }

end InvestmentPlatform.News
