/-
The reuse of Yahoo tickers and the backoff of their session, `YahooTickerContexts` of
`app/yahoo_ticker_context.py`.

The calls come one after the other, and between them the event loop does its part: tasks end, and
what was handed to the loop for them is called.  Every call is given the clock as it reads it, and
`random_fn` and the refresh hook as they answer.  A float is the number it stands for; the one thing
that a float cannot do is to hold an int that is too large for it.
-/
import InvestmentPlatform.Lib.Machine
import InvestmentPlatform.Lib.OrderedDict
import Mathlib.Tactic.NormNum

namespace InvestmentPlatform.Market.YahooTickerContexts

/-! ### The object -/

/-- What asks for a ticker: a task of the event loop, or another object. -/
inductive Context (Task Obj : Type)
  | task (owner : Task)
  | object (other : Obj)
  deriving DecidableEq

/-- What the object is made with. -/
structure Settings where
  maxContexts : ℕ
  /-- A `session_refresh` hook is given. -/
  hooked : Bool
  cooldownSeconds : ℚ
  backoffMaxSeconds : ℚ
  jitterFraction : ℚ
  cooldown_pos : 0 < cooldownSeconds
  backoffMax_pos : 0 < backoffMaxSeconds
  jitter_nonneg : 0 ≤ jitterFraction
  jitter_le_one : jitterFraction ≤ 1

/-- The fields of the object, and what the event loop has yet to do for it.  An access is its
number. -/
structure Contexts (Task Obj Symbol : Type) where
  entries : Dict (Context Task Obj × Symbol) ℕ
  lastSessionRefresh : Option ℚ
  consecutiveFailures : ℕ
  backoffUntil : ℚ
  /-- How many accesses were made. -/
  made : ℕ
  /-- The tasks that are done. -/
  ended : List Task
  /-- The calls of `_watch_owner` that the loop has yet to make. -/
  watching : List Task
  /-- The tasks with `_release_owner` as a done callback. -/
  watched : List Task
  /-- The calls of `_release_owner` that the loop has yet to make. -/
  releasing : List Task
  /-- The last reading of the clock. -/
  clock : ℚ

inductive Outcome
  /-- When the window ends, when the hook ran, and what is returned. -/
  | reported (windowEnd : ℚ) (refreshedAt : Option ℚ) (answer : Bool)
  /-- `OverflowError` -/
  | overflow
  | available
  /-- `YahooSessionBackoffActive` -/
  | refused
  | yielded (access : ℕ)
  /-- The loop of the task is closed. -/
  | loopClosed
  /-- The loop did its part. -/
  | done
  deriving DecidableEq

/-- The calls, with what they read, and what the loop does. -/
inductive Call (Task Obj Symbol : Type)
  | unavailable (random now later : ℚ) (hookRaises : Bool)
  | available
  | acquire (symbol : Symbol) (context : Option (Context Task Obj)) (now : ℚ) (loopOpen : Bool)
  | taskEnds (owner : Task)
  | watchOwner (owner : Task)
  | releaseOwner (owner : Task)

variable {Task Obj Symbol : Type} [DecidableEq Task] [DecidableEq Obj] [DecidableEq Symbol]

def start (first : ℚ) : Contexts Task Obj Symbol :=
  ⟨Dict.empty, none, 0, 0, 0, [], [], [], [], first⟩

/-! ### The backoff -/

/-- The float of an int, where one can hold it: a power of two is held exactly. -/
def floatOfInt (n : ℕ) : Option ℚ := if n < 2 ^ 1024 then some n else none

/-- `min(cooldown * 2 ** (failures - 1), backoff_max)`, which raises where the power is too large
for a float. -/
def backoffWindow (settings : Settings) (failures : ℕ) : Option ℚ :=
  (floatOfInt (2 ^ (failures - 1))).map fun power =>
    min (settings.cooldownSeconds * power) settings.backoffMaxSeconds

/-- How long a window is with its jitter. -/
def jittered (settings : Settings) (window random : ℚ) : ℚ :=
  max 0 (window + window * settings.jitterFraction * (2 * random - 1))

/-- `in_backoff` -/
def inBackoff (s : Contexts Task Obj Symbol) (now : ℚ) : Bool := now < s.backoffUntil

/-- The refresh after a report, at most once in a cooldown. -/
def refreshSession (settings : Settings) (s : Contexts Task Obj Symbol) (now : ℚ) :
    Option ℚ × Contexts Task Obj Symbol :=
  if settings.hooked = false then (none, s)
  else if s.lastSessionRefresh.any (now - · < settings.cooldownSeconds) then (none, s)
  else (some now, { s with lastSessionRefresh := some now })

def noteIdentityMetadataUnavailable (settings : Settings) (s : Contexts Task Obj Symbol)
    (random now later : ℚ) (hookRaises : Bool) : Outcome × Contexts Task Obj Symbol :=
  let counted := { s with consecutiveFailures := s.consecutiveFailures + 1 }
  match backoffWindow settings counted.consecutiveFailures with
  | none => (.overflow, counted)
  | some window =>
    let windowEnd := now + jittered settings window random
    let (refreshedAt, s') :=
      refreshSession settings { counted with backoffUntil := windowEnd } later
    (.reported windowEnd refreshedAt (refreshedAt.isSome && !hookRaises), s')

def noteIdentityMetadataAvailable (s : Contexts Task Obj Symbol) : Contexts Task Obj Symbol :=
  { s with consecutiveFailures := 0, backoffUntil := 0 }

/-! ### The registry -/

/-- An access is put last, and the first ones go where there are too many. -/
def keep (settings : Settings) (s : Contexts Task Obj Symbol) (key : Context Task Obj × Symbol)
    (access : ℕ) : Contexts Task Obj Symbol :=
  let entries := (Dict.evict (fun entries _ => settings.maxContexts < entries.size)
    (fun _ _ => ()) (s.entries.setLast key access) ()).1
  { s with entries := entries }

/-- `isinstance(context, asyncio.Task) and context.done()` -/
def hasEnded (s : Contexts Task Obj Symbol) : Context Task Obj → Bool
  | .task owner => owner ∈ s.ended
  | .object _ => false

/-- What a new access asks of the loop. -/
def watch (s : Contexts Task Obj Symbol) : Context Task Obj → Contexts Task Obj Symbol
  | .task owner => { s with watching := owner :: s.watching }
  | .object _ => s

def isTask : Context Task Obj → Bool
  | .task _ => true
  | .object _ => false

def acquire (settings : Settings) (s : Contexts Task Obj Symbol) (symbol : Symbol)
    (context : Option (Context Task Obj)) (now : ℚ) (loopOpen : Bool) :
    Outcome × Contexts Task Obj Symbol :=
  if inBackoff s now then (.refused, s)
  else
    match context.filter fun context => !hasEnded s context with
    | none => (.yielded s.made, { s with made := s.made + 1 })
    | some context =>
      match s.entries.get? (context, symbol) with
      | some access => (.yielded access, keep settings s (context, symbol) access)
      | none =>
        if isTask context && !loopOpen then (.loopClosed, s)
        else
          (.yielded s.made,
            keep settings { watch s context with made := s.made + 1 } (context, symbol) s.made)

/-! ### The event loop -/

/-- `_release_owner` -/
def release (s : Contexts Task Obj Symbol) (owner : Task) : Contexts Task Obj Symbol :=
  { s with entries :=
      (s.entries.keys.filter fun key => key.1 = .task owner).foldl Dict.pop s.entries }

/-- `_watch_owner` -/
def watchOwner (s : Contexts Task Obj Symbol) (owner : Task) : Contexts Task Obj Symbol :=
  if owner ∈ s.ended then release s owner else { s with watched := owner :: s.watched }

/-- A task ends, and its done callbacks are handed to the loop. -/
def taskEnds (s : Contexts Task Obj Symbol) (owner : Task) : Contexts Task Obj Symbol :=
  { s with
    ended := owner :: s.ended
    watched := s.watched.filter (· ≠ owner)
    releasing := s.releasing ++ s.watched.filter (· = owner) }

/-! ### Runs -/

/-- A call, where the clock does not go back, `random_fn` answers from the unit interval, and the
loop calls what it was handed. -/
def exec (settings : Settings) (s : Contexts Task Obj Symbol) :
    Call Task Obj Symbol → Option (Outcome × Contexts Task Obj Symbol)
  | .unavailable random now later hookRaises =>
    if 0 ≤ random ∧ random < 1 ∧ s.clock ≤ now ∧ now ≤ later then
      some (noteIdentityMetadataUnavailable settings { s with clock := later } random now later
        hookRaises)
    else none
  | .available => some (.available, noteIdentityMetadataAvailable s)
  | .acquire symbol context now loopOpen =>
    if s.clock ≤ now then some (acquire settings { s with clock := now } symbol context now loopOpen)
    else none
  | .taskEnds owner => if owner ∈ s.ended then none else some (.done, taskEnds s owner)
  | .watchOwner owner =>
    if owner ∈ s.watching then
      some (.done, watchOwner { s with watching := s.watching.erase owner } owner)
    else none
  | .releaseOwner owner =>
    if owner ∈ s.releasing then
      some (.done, release { s with releasing := s.releasing.erase owner } owner)
    else none

abbrev machine (settings : Settings) (first : ℚ) :
    Machine (Contexts Task Obj Symbol) (Call Task Obj Symbol × Outcome) :=
  Machine.ofStep (start first) (exec settings)

end InvestmentPlatform.Market.YahooTickerContexts
