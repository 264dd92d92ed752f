/-
`BoundedEventStore`: the research events that stay in memory, instrument by instrument.

The buckets stand in the order of their last use, the most recent one last.  What the loader
answers, rows or an exception, is given with the access that asks it.  Persistence is durable, so
every first access asks.
-/
import InvestmentPlatform.Lib.Dict
import InvestmentPlatform.Lib.Machine
import InvestmentPlatform.Lib.Table
import Mathlib.Data.Finset.Basic

namespace InvestmentPlatform.Evidence

/-- A research event, with the key `_event_key` gives it. -/
structure Event (E I K C : Type) where
  eventId : E
  instrumentId : I
  key : K
  content : C
  deriving DecidableEq, Repr

/-- `_Bucket`. -/
structure Bucket (E I K C : Type) where
  events : Dict E (Event E I K C)
  keys : Finset K
  loaded : Bool
  pinned : Bool

/-- What the loader comes back with. -/
inductive Loaded (E I K C : Type)
  | raised
  | rows (events : List (Event E I K C))

/-- `BoundedEventStore`, without its loader and its functions. -/
structure EventStore (E I K C : Type) where
  maxInstruments : Nat
  buckets : Dict I (Bucket E I K C)
  instrumentOf : Dict E I
  applied : Nat := 0
  loads : Nat := 0
  evictions : Nat := 0

variable {E I K C : Type}

namespace Bucket

def empty : Bucket E I K C := ⟨Dict.empty, ∅, false, false⟩

variable [DecidableEq E] [DecidableEq K]

/-- Register an event, with its key. -/
def register (bucket : Bucket E I K C) (eventId : E) (event : Event E I K C) : Bucket E I K C :=
  { bucket with
    events := bucket.events.set eventId event
    keys := insert event.key bucket.keys }

/-- Take an event out, and its key. -/
def discard (bucket : Bucket E I K C) (eventId : E) (event : Event E I K C) : Bucket E I K C :=
  { bucket with
    events := bucket.events.pop eventId
    keys := bucket.keys.erase event.key }

end Bucket

namespace EventStore

variable [DecidableEq E] [DecidableEq I] [DecidableEq K]

/-- `__init__`, with `max(1, int(max_instruments))`. -/
def new (maxInstruments : Int) : EventStore E I K C where
  maxInstruments := (max 1 maxInstruments).toNat
  buckets := Dict.empty
  instrumentOf := Dict.empty

variable (store : EventStore E I K C)

/-- The instrument's bucket, an empty one where there is none. -/
def bucketAt (instrumentId : I) : Bucket E I K C :=
  (store.buckets.get? instrumentId).getD Bucket.empty

def setBucket (instrumentId : I) (bucket : Bucket E I K C) : EventStore E I K C :=
  { store with buckets := store.buckets.set instrumentId bucket }

/-- The instrument's bucket at the end, a new one if it has none. -/
def touch (instrumentId : I) : EventStore E I K C :=
  { store with
    buckets := (store.buckets.pop instrumentId).set instrumentId (store.bucketAt instrumentId) }

/-- `bucket.loaded = True`, before the loader is asked. -/
def markLoaded (instrumentId : I) : EventStore E I K C :=
  { store.setBucket instrumentId { store.bucketAt instrumentId with loaded := true } with
    loads := store.loads + 1 }

/-- One event of the loader, unless its id is in the bucket. -/
def loadEvent (instrumentId : I) (event : Event E I K C) : EventStore E I K C :=
  if event.eventId ∈ (store.bucketAt instrumentId).events.keys then store
  else
    { store.setBucket instrumentId
        ((store.bucketAt instrumentId).register event.eventId event) with
      instrumentOf := store.instrumentOf.set event.eventId instrumentId }

/-- `del self._buckets[instrument_id]`, with the events it holds. -/
def drop (instrumentId : I) : EventStore E I K C :=
  { store with
    buckets := store.buckets.pop instrumentId
    instrumentOf :=
      (store.bucketAt instrumentId).events.keys.foldl (fun d eventId => d.pop eventId)
        store.instrumentOf
    evictions := store.evictions + 1 }

/-- The loop of `_evict` over the instruments that are left to look at. -/
def evictFrom (store : EventStore E I K C) : List I → EventStore E I K C
  | [] => store
  | instrumentId :: rest =>
    if store.buckets.size ≤ store.maxInstruments then store
    else if (store.bucketAt instrumentId).pinned ∨
        store.buckets.keys.getLast? = some instrumentId then evictFrom store rest
    else evictFrom (store.drop instrumentId) rest

/-- `_evict`. -/
def evict : EventStore E I K C :=
  if store.buckets.size ≤ store.maxInstruments then store
  else store.evictFrom store.buckets.keys

/-- `bucket`: whether it returned, and the store it left behind. -/
def bucket (instrumentId : I) (answer : Loaded E I K C) : Bool × EventStore E I K C :=
  let store := store.touch instrumentId
  if (store.bucketAt instrumentId).loaded then (true, store.evict)
  else
    match answer with
    | .raised => (false, store.markLoaded instrumentId)
    | .rows events =>
      (true, (events.foldl (fun store event => store.loadEvent instrumentId event)
        (store.markLoaded instrumentId)).evict)

/-- The result of a call. -/
inductive Result (E I K C : Type)
  | raised
  | events (events : List (Event E I K C))
  | added (new : Bool)
  | done
  | found (event : Event E I K C)

/-- `for_instrument`. -/
def forInstrument (instrumentId : I) (answer : Loaded E I K C) :
    Result E I K C × EventStore E I K C :=
  match store.bucket instrumentId answer with
  | (false, store) => (.raised, store)
  | (true, store) => (.events (store.bucketAt instrumentId).events.values, store)

/-- `add`. -/
def add (event : Event E I K C) (durable : Bool) (answer : Loaded E I K C) :
    Result E I K C × EventStore E I K C :=
  match store.bucket event.instrumentId answer with
  | (false, store) => (.raised, store)
  | (true, store) =>
    let bucket := store.bucketAt event.instrumentId
    if event.key ∈ bucket.keys then (.added false, store)
    else
      let bucket := bucket.register event.eventId event
      (.added true,
        { store.setBucket event.instrumentId
            { bucket with pinned := bucket.pinned || !durable } with
          instrumentOf := store.instrumentOf.set event.eventId event.instrumentId
          applied := store.applied + 1 })

/-- `store[event.event_id] = event`. -/
def setItem (event : Event E I K C) : EventStore E I K C :=
  let bucket := (store.bucketAt event.instrumentId).register event.eventId event
  { store.setBucket event.instrumentId { bucket with pinned := true } with
    instrumentOf := store.instrumentOf.set event.eventId event.instrumentId }

/-- `store[event_id]`. -/
def getItem (eventId : E) : Option (Event E I K C) := do
  let instrumentId ← store.instrumentOf.get? eventId
  let bucket ← store.buckets.get? instrumentId
  bucket.events.get? eventId

/-- `del store[event_id]`. -/
def delItem (eventId : E) : Result E I K C × EventStore E I K C :=
  match store.instrumentOf.get? eventId with
  | none => (.raised, store)
  | some instrumentId =>
    let popped := { store with instrumentOf := store.instrumentOf.pop eventId }
    let bucket := store.bucketAt instrumentId
    match bucket.events.get? eventId with
    | none => (.raised, popped)
    | some event => (.done, popped.setBucket instrumentId (bucket.discard eventId event))

/-- The instruments with events that are nowhere else. -/
def pinnedInstruments : Nat := store.buckets.values.countP (·.pinned)

end EventStore

/-! ### The store with its database -/

/-- The store, the durable events, and the events that were written to the store alone. -/
structure World (E I K C : Type) where
  store : EventStore E I K C
  durable : Table E (Event E I K C)
  written : Table E (Event E I K C)

inductive Op (E I K C : Type)
  | forInstrument (instrumentId : I) (answer : Loaded E I K C)
  | add (event : Event E I K C) (durable : Bool) (answer : Loaded E I K C)
  | setItem (event : Event E I K C)
  | delItem (eventId : E)
  | getItem (eventId : E)

namespace World

variable [DecidableEq E] [DecidableEq I] [DecidableEq K]

/-- The events of an instrument that an unbounded store would hold: the ones written to the store
alone, and the durable ones. -/
def Holds (w : World E I K C) (instrumentId : I) (event : Event E I K C) : Prop :=
  (w.written event.eventId <|> w.durable event.eventId) = some event ∧
    event.instrumentId = instrumentId

/-- An operation, with what it leaves in the database and in memory alone. -/
def exec (w : World E I K C) : Op E I K C → EventStore.Result E I K C × World E I K C
  | .forInstrument instrumentId answer =>
    let (result, store) := w.store.forInstrument instrumentId answer
    (result, { w with store })
  | .add event durable answer =>
    let (result, store) := w.store.add event durable answer
    match result, durable with
    | .added true, true =>
      (result, ⟨store, w.durable.put event.eventId event,
        Function.update w.written event.eventId none⟩)
    | .added true, false => (result, ⟨store, w.durable, w.written.put event.eventId event⟩)
    | _, _ => (result, { w with store })
  | .setItem event =>
    (.done, ⟨w.store.setItem event, w.durable, w.written.put event.eventId event⟩)
  | .delItem eventId =>
    let (result, store) := w.store.delItem eventId
    match result with
    | .done => (result, ⟨store, w.durable, Function.update w.written eventId none⟩)
    | _ => (result, { w with store })
  | .getItem eventId =>
    (match w.store.getItem eventId with
      | some event => .found event
      | none => .raised, w)

/-- The rows are the durable events of the instrument, one per id. -/
def IsRows (w : World E I K C) (instrumentId : I) : Loaded E I K C → Prop
  | .raised => True
  | .rows events => (events.map Event.eventId).Nodup ∧
      ∀ event, event ∈ events ↔ w.durable event.eventId = some event ∧
        event.instrumentId = instrumentId

/-- What the callers and the database keep to: an event stays with the instrument of its id, and
the loader answers with the durable events or raises. -/
def Admits (home : E → I) (w : World E I K C) : Op E I K C → Prop
  | .forInstrument instrumentId answer => w.IsRows instrumentId answer
  | .add event _ answer =>
    event.instrumentId = home event.eventId ∧ w.IsRows event.instrumentId answer
  | .setItem event => event.instrumentId = home event.eventId
  | .delItem _ => True
  | .getItem _ => True

/-- The store over its database, started empty over any durable events. -/
def machine (home : E → I) (maxInstruments : Int) :
    Machine (World E I K C) (Op E I K C × EventStore.Result E I K C) where
  init w := w.store = EventStore.new maxInstruments ∧ (∀ eventId, w.written eventId = none) ∧
    ∀ eventId event, w.durable eventId = some event →
      event.eventId = eventId ∧ event.instrumentId = home eventId
  step w l w' := Admits home w l.1 ∧ w.exec l.1 = (l.2, w')

end World

end InvestmentPlatform.Evidence
