/-
The backfill of daily bars.

`run_backfill` goes over the selected instruments, plans which windows of days are still missing of
each, and asks the provider for one window after the other.  What is outside, the metadata, the
stored rows, the provider and the clock, is a world that may answer or raise as it likes.  A date is
the number of its day and an instant a number of microseconds.
-/
import InvestmentPlatform.Lib.Selection
import InvestmentPlatform.Lib.Spans
import Mathlib.Data.Prod.Lex
import Mathlib.Data.Rat.Defs

namespace InvestmentPlatform.Backfill

open Spans (Span)

def hour : ℤ := 3600000000

def dayLength : ℤ := 24 * hour

/-- The settings, within the bounds that their validators keep. -/
structure Settings where
  requestWindowDays : Nat
  freshnessHours : Nat
  retryCooldownHours : Nat
  initialLookbackDays : Nat
  batchSize : Nat
  window_pos : 1 ≤ requestWindowDays
  freshness_pos : 1 ≤ freshnessHours
  cooldown_pos : 1 ≤ retryCooldownHours

inductive SourceMode where
  | demo | real
  deriving DecidableEq

structure DailyMarketBar (K : Type) where
  globalInstrumentId : K
  tradingDate : ℤ
  openPrice : Option ℚ
  high : Option ℚ
  low : Option ℚ
  close : Option ℚ
  currency : String
  provider : String
  providerSymbol : Option String
  sourceMode : SourceMode
  retrievedAt : ℤ
  deriving DecidableEq

variable {K : Type}

/-! ### Planning -/

/-- The first and the last day of a request. -/
structure Window where
  first : ℤ
  last : ℤ
  ordered : first ≤ last

def Window.span (w : Window) : Span := (w.first, w.last)

def planWindows (start stop : ℤ) (size : ℤ) : Except String (List Window) :=
  if stop < start ∨ size < 1 then .error "WINDOW_PLANNING_FAILURE"
  else
    let step := (size - 1).toNat
    .ok ((Spans.windows step stop start).attach.map fun w =>
      ⟨w.1.1, w.1.2, (Spans.windows_spec step stop start).1.tidy.nonempty w.1 w.2⟩)

/-- The row can be used as history of the instrument. -/
def Usable (key : K) (symbol currency : String) (stop : ℤ) (b : DailyMarketBar K) : Prop :=
  b.globalInstrumentId = key ∧ b.provider = "NSE" ∧ b.sourceMode = .real ∧
    b.providerSymbol = some symbol ∧ b.currency = currency ∧ b.tradingDate ≤ stop ∧
    b.openPrice.isSome ∧ b.high.isSome ∧ b.low.isSome ∧ b.close.isSome

instance [DecidableEq K] (key : K) (symbol currency : String) (stop : ℤ)
    (b : DailyMarketBar K) : Decidable (Usable key symbol currency stop b) :=
  inferInstanceAs (Decidable (_ ∧ _))

def usableBars [DecidableEq K] (rows : List (DailyMarketBar K)) (key : K)
    (symbol currency : String) (stop : ℤ) : List (DailyMarketBar K) :=
  Selection.sortOn DailyMarketBar.tradingDate
    (rows.filter fun b => Usable key symbol currency stop b)

inductive CoverageState where
  | noHistory | partialHistory | staleHistory | currentHistory
  deriving DecidableEq

/-- The last bar is old, or is long before the end. -/
def Stale (freshness now : ℤ) (stop : ℤ) (last : DailyMarketBar K) : Prop :=
  freshness ≤ now - last.retrievedAt ∨ freshness ≤ (stop - last.tradingDate) * dayLength

instance (freshness now : ℤ) (stop : ℤ) (last : DailyMarketBar K) :
    Decidable (Stale freshness now stop last) :=
  inferInstanceAs (Decidable (_ ∨ _))

def coveragePlan (rows : List (DailyMarketBar K)) (start stop : ℤ) (now : ℤ)
    (freshnessHours : Nat) (force : Bool) : CoverageState × List Span :=
  match rows.head?, rows.getLast? with
  | some first, some last =>
      let freshness := freshnessHours * hour
      let state : CoverageState :=
        if start < first.tradingDate then .partialHistory
        else if Stale freshness now stop last then .staleHistory
        else .currentHistory
      if force then (state, [(start, stop)])
      else
        -- the last bar is asked for again only when there is no later date
        let tail := if last.tradingDate < stop then min stop (last.tradingDate + 1) else stop
        (state,
          (if start < first.tradingDate then [(start, min stop (first.tradingDate - 1))] else []) ++
          (if Stale freshness now stop last then [(max start tail, stop)] else []))
  | _, _ => (.noHistory, [(start, stop)])

/-- The ranges without those that have been completed. -/
def uncovered (intervals : List Span) (completed : List Window) : List Span :=
  (Selection.sortOn (fun w : Window => toLex w.span) completed).foldl
    (fun remaining cut => remaining.flatMap (Spans.takeOut cut.span)) intervals

/-! ### Failures -/

/-- `part in text`. -/
def within (part text : String) : Bool :=
  text.toList.tails.any fun rest => part.toList.isPrefixOf rest

def failureClass (reason : String) : String :=
  if reason = "DAILY_BAR_PERSISTENCE_UNAVAILABLE" then "PERSISTENCE_FAILURE"
  else if within "429" reason then "THROTTLED"
  else if within "HTTP_" reason then "HTTP_ERROR"
  else if reason = "EMPTY_RESPONSE" ∨ reason = "NO_VALID_HISTORY" then "EMPTY_RESPONSE"
  else if ["CSV", "HEADERS", "REJECTED_ROWS"].any (within · reason) then "PARSER_FAILURE"
  else if ["MAPPING", "CURRENCY", "UNSUPPORTED_INSTRUMENT", "IDENTITY_MISMATCH"].any
      (within · reason) then "NO_TRUSTED_MAPPING"
  else if "IDENTITY".toList.isPrefixOf reason.toList then "IDENTITY_UNAVAILABLE"
  else if within "WINDOW" reason || within "DATE_RANGE" reason then "WINDOW_PLANNING_FAILURE"
  else "PROVIDER_UNAVAILABLE"

/-- An exception: whether it is a plain `ValueError`, and its text. -/
structure Raised where
  isValueError : Bool
  text : String

def safeReasons : List String :=
  ["IDENTITY_MISMATCH", "UNSUPPORTED_INSTRUMENT", "NO_UNAMBIGUOUS_NSE_MAPPING",
    "NO_TRUSTED_NSE_MAPPING", "INVALID_NSE_MAPPING", "MISSING_OR_AMBIGUOUS_CURRENCY",
    "WINDOW_PLANNING_FAILURE"]

/-! ### The world -/

structure NseHistoricalResult (K : Type) where
  httpStatus : Option Nat
  success : Bool
  failureReason : Option String
  rowsParsed : Nat
  rowsRejected : Nat
  bars : List (DailyMarketBar K)
  persistedRows : Nat

/-- A value of the universe, as far as it is looked at. -/
structure UniverseValue (K : Type) where
  status : Option String
  assetType : Option String
  country : Option String
  exchange : Option String
  globalInstrumentId : Option K

structure World (K : Type) where
  clock : Nat → ℤ
  /-- The date of an instant in Kolkata. -/
  today : ℤ → ℤ
  activeEquities : Except Raised (List (Option (UniverseValue K)))
  /-- The metadata of an instrument and what `verified_identity` makes of it. -/
  identity : K → Except Raised (String × String)
  /-- What reading the stored rows raises, if anything. -/
  unreadable : K → Option Raised
  /-- What making the provider raises, if anything. -/
  noProvider : Option Raised
  fetch : K → Window → Except Raised (NseHistoricalResult K)
  persists : K → Window → Bool
  closes : Bool

abbrev CacheKey (K : Type) := K × String × String

/-- What the jobs remember, the stored bars, and how often the clock was read. -/
structure Jobs (K : Type) where
  completed : CacheKey K → List (Window × ℤ)
  failures : K → Option ℤ
  throttledAt : Option ℤ
  bars : List (DailyMarketBar K)
  ticks : Nat

def Jobs.now (jobs : Jobs K) (world : World K) : ℤ := world.clock jobs.ticks

def Jobs.tick (jobs : Jobs K) : Jobs K := { jobs with ticks := jobs.ticks + 1 }

variable [DecidableEq K]

/-- `jobs._daily_bar_failures[key] = jobs._clock()`. -/
def Jobs.fail (jobs : Jobs K) (world : World K) (key : K) : Jobs K :=
  { jobs with failures := Function.update jobs.failures key (some (jobs.now world)) }.tick

/-- `jobs._daily_bar_throttled_at = jobs._clock()`. -/
def Jobs.throttle (jobs : Jobs K) (world : World K) : Jobs K :=
  { jobs with throttledAt := some (jobs.now world) }.tick

/-- `jobs._daily_bar_completed_ranges[cache_key].append((a, b, jobs._clock()))`. -/
def Jobs.complete (jobs : Jobs K) (world : World K) (cacheKey : CacheKey K) (w : Window) : Jobs K :=
  let ranges := jobs.completed cacheKey ++ [(w, jobs.now world)]
  { jobs with completed := Function.update jobs.completed cacheKey ranges }.tick

def identityOf (bar : DailyMarketBar K) : K × ℤ × String :=
  (bar.globalInstrumentId, bar.tradingDate, bar.provider)

/-- `daily_market_bars_for_instruments({key}, end_date=end, provider='NSE')`. -/
def Jobs.stored (jobs : Jobs K) (key : K) (stop : ℤ) : List (DailyMarketBar K) :=
  jobs.bars.filter fun b =>
    b.globalInstrumentId = key ∧ b.tradingDate ≤ stop ∧ b.provider = "NSE"

/-- A stored row gives way to the one that has its identity. -/
def upsert (bars : List (DailyMarketBar K)) (bar : DailyMarketBar K) : List (DailyMarketBar K) :=
  (bars.filter fun b => identityOf b ≠ identityOf bar) ++ [bar]

def persistDailyResult (persists : Bool) (bars : List (DailyMarketBar K))
    (result : NseHistoricalResult K) : NseHistoricalResult K × List (DailyMarketBar K) :=
  if result.success then
    if persists then
      ({ result with persistedRows := (result.bars.map identityOf).dedup.length },
        result.bars.foldl upsert bars)
    else
      ({ result with success := false, failureReason := some "DAILY_BAR_PERSISTENCE_UNAVAILABLE" },
        bars)
  else (result, bars)

/-! ### Items -/

inductive ItemStatus where
  | success | failed | skippedCurrent | skippedCooldown
  deriving DecidableEq

structure WindowDetail where
  window : Window
  success : Bool
  failureReason : Option String
  httpStatus : Option Nat

structure Item (K : Type) where
  key : K
  nseSymbol : Option String
  coverageStateBefore : Option CoverageState
  requestedWindows : Nat
  successfulWindows : Nat
  failedWindows : Nat
  rowsReceived : Nat
  rowsAccepted : Nat
  rowsPersisted : Nat
  status : ItemStatus
  failureReason : Option String
  failureClass : Option String
  earliestPersistedDate : Option ℤ
  latestPersistedDate : Option ℤ
  windows : List WindowDetail

/-- `_item(key)`. -/
def newItem (key : K) : Item K :=
  ⟨key, none, none, 0, 0, 0, 0, 0, 0, .failed, none, none, none, none, []⟩

/-- What is carried through a run besides the summary. -/
structure RunState (K : Type) where
  jobs : Jobs K
  throttled : Bool
  opened : Bool
  firstRequestedDate : Option ℤ
  lastRequestedDate : Option ℤ

/-- An item and the state of the run it is worked on in. -/
structure Progress (K : Type) where
  item : Item K
  run : RunState K

def Progress.jobs (p : Progress K) : Jobs K := p.run.jobs

/-- `min(held or value, value)`. -/
def earlier (held : Option ℤ) (value : ℤ) : Option ℤ := some (min (held.getD value) value)

/-- `max(held or value, value)`. -/
def later (held : Option ℤ) (value : ℤ) : Option ℤ := some (max (held.getD value) value)

/-! ### One window -/

/-- The window is counted and noted before it is asked for. -/
def Progress.request (p : Progress K) (w : Window) : Progress K :=
  { item := { p.item with requestedWindows := p.item.requestedWindows + 1 }
    run := { p.run with
      firstRequestedDate := earlier p.run.firstRequestedDate w.first
      lastRequestedDate := later p.run.lastRequestedDate w.last } }

/-- The window failed, for what the answer gives as its reason. -/
def Progress.windowFailed (p : Progress K) (world : World K) (key : K) (w : Window)
    (httpStatus : Option Nat) (reason : String) : Progress K :=
  let jobs := p.jobs.fail world key
  { item := { p.item with
      failedWindows := p.item.failedWindows + 1
      failureReason := some reason
      failureClass := some (failureClass reason)
      windows := p.item.windows ++ [⟨w, false, some reason, httpStatus⟩] }
    run := { p.run with
      jobs := if within "429" reason then jobs.throttle world else jobs
      throttled := p.run.throttled || within "429" reason } }

/-- Something was raised while the window was worked on. -/
def Progress.windowRaised (p : Progress K) (world : World K) (key : K) (w : Window)
    (httpStatus : Option Nat) : Progress K :=
  { item := { p.item with
      failedWindows := p.item.failedWindows + 1
      failureReason := some "PROVIDER_UNAVAILABLE"
      failureClass := some "PROVIDER_UNAVAILABLE"
      windows := p.item.windows ++ [⟨w, false, some "PROVIDER_UNAVAILABLE", httpStatus⟩] }
    run := { p.run with jobs := p.jobs.fail world key } }

def Progress.windowSucceeded (p : Progress K) (world : World K) (cacheKey : CacheKey K)
    (w : Window) (httpStatus : Option Nat) : Progress K :=
  { item := { p.item with
      successfulWindows := p.item.successfulWindows + 1
      windows := p.item.windows ++ [⟨w, true, none, httpStatus⟩] }
    run := { p.run with jobs := p.jobs.complete world cacheKey w } }

/-- The answer is counted and its bars are stored. -/
def Progress.receive (p : Progress K) (persists : Bool) (result : NseHistoricalResult K) :
    NseHistoricalResult K × Progress K :=
  let stored := persistDailyResult persists p.jobs.bars result
  (stored.1,
    { item := { p.item with
        rowsReceived := p.item.rowsReceived + result.rowsParsed
        rowsAccepted := p.item.rowsAccepted + result.bars.length
        rowsPersisted := p.item.rowsPersisted + stored.1.persistedRows }
      run := { p.run with jobs := { p.jobs with bars := stored.2 } } })

/-- The dates of the item after the rows were stored; without bars there is nothing to compare. -/
def Progress.dated (p : Progress K) (result : NseHistoricalResult K) : Option (Progress K) :=
  if result.persistedRows = 0 then some p
  else
    match result.bars.head?, result.bars.getLast? with
    | some first, some last => some { p with item := { p.item with
        earliestPersistedDate := earlier p.item.earliestPersistedDate first.tradingDate
        latestPersistedDate := later p.item.latestPersistedDate last.tradingDate } }
    | _, _ => none

/-- Why the window counts as failed, if it does. -/
def windowReason (result : NseHistoricalResult K) : Option String :=
  let reason :=
    if result.rowsRejected ≠ 0 ∧
        (result.failureReason = none ∨ result.failureReason = some "NO_VALID_HISTORY") then
      some "REJECTED_ROWS"
    else result.failureReason
  reason.filter fun text => text ≠ ""

/-- One window: whether the loop goes on, and what has become of the item and the run. -/
def requestWindow (world : World K) (key : K) (cacheKey : CacheKey K) (p : Progress K)
    (w : Window) : Bool × Progress K :=
  let p := p.request w
  match world.fetch key w with
  | .error _ => (false, p.windowRaised world key w none)
  | .ok result =>
      let (stored, p) := p.receive (world.persists key w) result
      match p.dated stored with
      | none => (false, p.windowRaised world key w result.httpStatus)
      | some p =>
          match windowReason stored with
          | none => (true, p.windowSucceeded world cacheKey w result.httpStatus)
          | some reason =>
              -- an empty window may be before the listing, so the loop goes on after it
              (failureClass reason = "EMPTY_RESPONSE",
                p.windowFailed world key w result.httpStatus reason)

def requestWindows (world : World K) (key : K) (cacheKey : CacheKey K) :
    Progress K → List Window → Progress K
  | p, [] => p
  | p, w :: rest =>
      match requestWindow world key cacheKey p w with
      | (true, p) => requestWindows world key cacheKey p rest
      | (false, p) => p

/-! ### One instrument -/

/-- Something was raised at a stage of the instrument. -/
def Progress.raised (p : Progress K) (world : World K) (key : K) (stage : String)
    (exc : Raised) : Progress K :=
  let reason := if exc.isValueError ∧ exc.text ∈ safeReasons then exc.text else stage
  { item := { p.item with
      failureReason := some reason
      failureClass := some
        (if stage = "IDENTITY_UNAVAILABLE" then failureClass reason else stage) }
    run := { p.run with jobs := p.jobs.fail world key } }

/-- The attempts of the instrument that were completed not long ago. -/
def freshRanges (settings : Settings) (now : ℤ) (ranges : List (Window × ℤ)) :
    List (Window × ℤ) :=
  ranges.filter fun r => now - r.2 < settings.freshnessHours * hour

/-- The ranges to ask for. -/
def plannedIntervals (settings : Settings) (start stop : ℤ) (now : ℤ) (force : Bool)
    (rows : List (DailyMarketBar K)) (fresh : List (Window × ℤ)) : List Span :=
  let intervals := (coveragePlan rows start stop now settings.freshnessHours force).2
  if !force && !rows.isEmpty then uncovered intervals (fresh.map Prod.fst) else intervals

/-- The windows of the ranges, in their order. -/
def plannedWindows (settings : Settings) (intervals : List Span) : Except String (List Window) :=
  (intervals.mapM fun s => planWindows s.1 s.2 settings.requestWindowDays).map List.flatten

/-- The instrument failed not long ago. -/
def coolingDown (settings : Settings) (now : ℤ) (at_ : Option ℤ) : Bool :=
  at_.any fun failedAt => now - failedAt < settings.retryCooldownHours * hour

/-- The windows of an instrument, once they are planned. -/
def requestPlanned (world : World K) (key : K) (cacheKey : CacheKey K) (p : Progress K)
    (windows : List Window) : Progress K :=
  let p := requestWindows world key cacheKey { p with run := { p.run with opened := true } } windows
  if p.item.failedWindows = 0 then
    { item := { p.item with status := .success }
      run := { p.run with
        jobs := { p.jobs with failures := Function.update p.jobs.failures key none } } }
  else p

def processInstrument (world : World K) (settings : Settings) (start stop : ℤ) (now : ℤ)
    (force : Bool) (run : RunState K) (key : K) : Progress K :=
  let p : Progress K := ⟨newItem key, run⟩
  match world.identity key with
  | .error exc => p.raised world key "IDENTITY_UNAVAILABLE" exc
  | .ok (symbol, currency) =>
      let p := { p with item := { p.item with nseSymbol := some symbol } }
      match world.unreadable key with
      | some exc => p.raised world key "PERSISTENCE_FAILURE" exc
      | none =>
          let rows := usableBars (run.jobs.stored key stop) key symbol currency stop
          let cacheKey : CacheKey K := (key, symbol, currency)
          let fresh := freshRanges settings now (run.jobs.completed cacheKey)
          let p : Progress K :=
            { item := { p.item with
                earliestPersistedDate := rows.head?.map DailyMarketBar.tradingDate
                latestPersistedDate := rows.getLast?.map DailyMarketBar.tradingDate
                coverageStateBefore := some
                  (coveragePlan rows start stop now settings.freshnessHours force).1 }
              run := { run with jobs := { run.jobs with
                completed := Function.update run.jobs.completed cacheKey fresh } } }
          let intervals := plannedIntervals settings start stop now force rows fresh
          if run.throttled || coolingDown settings now (run.jobs.failures key) then
            { p with item := { p.item with
              status := .skippedCooldown
              failureReason := some (if run.throttled then "JOB_THROTTLED" else "RETRY_COOLDOWN") } }
          else if intervals.isEmpty then
            { p with item := { p.item with status := .skippedCurrent } }
          else
            match plannedWindows settings intervals with
            | .error text => p.raised world key "WINDOW_PLANNING_FAILURE" ⟨true, text⟩
            | .ok windows =>
                match (if run.opened then none else world.noProvider) with
                | some exc => p.raised world key "PROVIDER_UNAVAILABLE" exc
                | none => requestPlanned world key cacheKey p windows

/-! ### The run -/

inductive RunStatus where
  | running | completed | completedWithErrors | failed
  deriving DecidableEq

structure Summary (K : Type) where
  jobStartedAt : ℤ
  jobFinishedAt : Option ℤ
  status : RunStatus
  failureReason : Option String
  requestedInstruments : Nat
  processedInstruments : Nat
  succeededInstruments : Nat
  failedInstruments : Nat
  skippedCurrent : Nat
  skippedCooldown : Nat
  requestedWindows : Nat
  successfulWindows : Nat
  failedWindows : Nat
  rowsReceived : Nat
  rowsAccepted : Nat
  rowsPersisted : Nat
  firstRequestedDate : Option ℤ
  lastRequestedDate : Option ℤ
  targetStart : ℤ
  targetEnd : ℤ
  offset : ℤ
  nextOffset : Option ℤ
  candidateInstruments : Nat
  instruments : List (Item K)

def newSummary (startedAt : ℤ) (start stop : ℤ) (offset : ℤ) : Summary K :=
  ⟨startedAt, none, .running, none, 0, 0, 0, 0, 0, 0, 0, 0, 0, 0, 0, 0, none, none, start, stop,
    offset, none, 0, []⟩

/-- The item is counted, however its work ended. -/
def Summary.count (summary : Summary K) (item : Item K) : Summary K :=
  { summary with
    instruments := summary.instruments ++ [item]
    processedInstruments := summary.processedInstruments + 1
    requestedWindows := summary.requestedWindows + item.requestedWindows
    successfulWindows := summary.successfulWindows + item.successfulWindows
    failedWindows := summary.failedWindows + item.failedWindows
    rowsReceived := summary.rowsReceived + item.rowsReceived
    rowsAccepted := summary.rowsAccepted + item.rowsAccepted
    rowsPersisted := summary.rowsPersisted + item.rowsPersisted
    succeededInstruments :=
      summary.succeededInstruments + (if item.status = .success then 1 else 0)
    failedInstruments := summary.failedInstruments + (if item.status = .failed then 1 else 0)
    skippedCurrent := summary.skippedCurrent + (if item.status = .skippedCurrent then 1 else 0)
    skippedCooldown := summary.skippedCooldown + (if item.status = .skippedCooldown then 1 else 0) }

/-- The value is an active Indian equity of the NSE. -/
def eligible (value : UniverseValue K) : Bool :=
  value.status = some "ACTIVE" && value.assetType = some "EQUITY" &&
    ["IN", "IND", "INDIA"].any (fun c => value.country = some c) &&
    ["NSE", "XNSE"].any (fun e => value.exchange = some e)

def candidates (values : List (Option (UniverseValue K))) (instrumentIds : Option (List K)) :
    List K :=
  values.filterMap fun value => do
    let value ← value
    guard (eligible value)
    let key ← value.globalInstrumentId
    guard (instrumentIds.all fun ids => key ∈ ids)
    return key

structure Request (K : Type) where
  offset : ℤ
  instrumentIds : Option (List K)
  start : Option ℤ
  stop : Option ℤ
  force : Bool

/-- The instruments one after the other. -/
def processAll (world : World K) (settings : Settings) (start stop : ℤ) (now : ℤ)
    (force : Bool) : Summary K × RunState K → List K → Summary K × RunState K :=
  List.foldl fun state key =>
    let p := processInstrument world settings start stop now force state.2 key
    (state.1.count p.item, p.run)

/-- The provider is closed and the end of the job noted. -/
def finish (world : World K) (summary : Summary K) (run : RunState K) : Summary K × Jobs K :=
  let summary :=
    if run.opened && !world.closes then
      { summary with status := .failed, failureReason := some "SESSION_CLOSE_FAILURE" }
    else summary
  ({ summary with
      firstRequestedDate := run.firstRequestedDate
      lastRequestedDate := run.lastRequestedDate
      jobFinishedAt := some (run.jobs.now world) }, run.jobs.tick)

def runBackfill [LinearOrder K] (world : World K) (settings : Settings) (jobs : Jobs K)
    (request : Request K) : Summary K × Jobs K :=
  let now := jobs.now world
  let jobs := jobs.tick
  let today := world.today now
  let stop := request.stop.getD today
  let earliest := today - settings.initialLookbackDays
  let start := request.start.getD earliest
  let summary := newSummary now start stop request.offset
  let idle : RunState K := ⟨jobs, false, false, none, none⟩
  if request.offset < 0 ∨ stop < start ∨ today < stop ∨ start < earliest then
    finish world { summary with
      status := .failed, failureReason := some "WINDOW_PLANNING_FAILURE" } idle
  else
    match world.activeEquities with
    | .error _ => finish world { summary with
        status := .failed, failureReason := some "UNIVERSE_UNAVAILABLE" } idle
    | .ok values =>
        let ordered := Selection.sortedSet (candidates values request.instrumentIds)
        let offset := request.offset.toNat
        let selected := (ordered.drop offset).take settings.batchSize
        let summary := { summary with
          candidateInstruments := ordered.length
          requestedInstruments := selected.length
          nextOffset := if offset + selected.length < ordered.length then
            some (offset + selected.length : Nat) else none }
        let throttled := coolingDown settings now jobs.throttledAt
        let (summary, run) := processAll world settings start stop now request.force
          (summary, ⟨jobs, throttled, false, none, none⟩) selected
        finish world { summary with
          status := if summary.failedInstruments = 0 then .completed else .completedWithErrors } run

end InvestmentPlatform.Backfill
