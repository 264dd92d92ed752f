/-
`ConnectorManager` of the IBKR connector: its sessions, the Gateway processes they started, and
the coroutines of the requests.

A session is an object that several coroutines may hold at once, so the sessions are a table of
references.  A coroutine runs without interruption from one await to the next, and its steps here
are these stretches.  It awaits only the lock and the answers of the Gateway: stopping a process
blocks, and the lock is handed on in the order it was asked for.  What the operating system and
the Gateway do is given with each step.
-/
import InvestmentPlatform.Lib.Dict
import InvestmentPlatform.Lib.Machine

namespace InvestmentPlatform.Connector

/-! ### Sessions -/

inductive ConnectorState
  | starting
  | authenticationRequired
  | authenticating
  | connected
  | sessionExpired
  | degraded
  | stopping
  | stopped
  | error
  deriving DecidableEq, Repr

/-- `ConnectorSession`, without the login token and the cookies of the browser. -/
structure Session where
  connectorId : String
  userId : String
  runtimeStatus : ConnectorState := .starting
  authStatus : ConnectorState := .authenticationRequired
  /-- `authenticated_at is not None`. -/
  authenticatedAt : Bool := false
  process : Option Nat := none
  code : String := "STARTING"
  message : String := "IBKR connector runtime is starting."
  deriving DecidableEq, Repr

namespace Session

variable (session : Session)

def packageMissing : Session :=
  { session with
    runtimeStatus := .error
    authStatus := .sessionExpired
    code := "GATEWAY_PACKAGE_MISSING"
    message := "AIP_IBKR_GATEWAY_PACKAGE_PATH must point to the official extracted IBKR " ++
      "Gateway package." }

def packageInvalid : Session :=
  { session with
    runtimeStatus := .error
    authStatus := .sessionExpired
    code := "GATEWAY_PACKAGE_INVALID"
    message := "IBKR Gateway package must contain bin/run.sh and root/conf.yaml." }

def spawned (pid : Nat) : Session :=
  { session with
    process := some pid
    runtimeStatus := .starting
    authStatus := .authenticationRequired
    code := "STARTING"
    message := "IBKR Gateway process was started." }

def processExited : Session :=
  { session with
    runtimeStatus := .error
    authStatus := .sessionExpired
    code := "GATEWAY_PROCESS_EXITED"
    message := "IBKR Gateway process exited unexpectedly." }

def baseUrlMissing : Session :=
  { session with
    runtimeStatus := .degraded
    authStatus := .authenticationRequired
    code := "GATEWAY_BASE_URL_MISSING"
    message := "AIP_IBKR_GATEWAY_BASE_URL must be configured." }

def markStopping : Session :=
  { session with
    runtimeStatus := .stopping
    code := "STOPPING"
    message := "IBKR Gateway process is stopping." }

def markStopped : Session :=
  { session with
    runtimeStatus := .stopped
    authStatus := .sessionExpired
    process := none
    code := "STOPPED"
    message := "IBKR connector runtime is stopped." }

end Session

/-- `ConnectorError`. -/
structure ConnectorError where
  code : String
  message : String
  deriving DecidableEq, Repr

/-- What starting the Gateway meets. -/
inductive Startup
  | packageMissing
  | packageInvalid
  | raised
  | spawned
  deriving DecidableEq, Repr

/-- What terminating the Gateway comes to: it is gone, or waiting for it raised. -/
inductive Termination
  | gone
  | raised
  deriving DecidableEq, Repr

/-- What a request to the Gateway comes back with. -/
inductive Answer
  | connectorError (error : ConnectorError)
  | raised
  | payload (authenticated competing disconnected : Bool)
  deriving DecidableEq, Repr

/-- The manager's sessions, the processes alive, and, for the record, the sessions a stop request
has returned for. -/
structure Manager where
  objects : Nat → Session
  nextObject : Nat
  sessions : Dict String Nat
  live : List Nat
  nextPid : Nat
  stopsReturned : List Nat

namespace Manager

/-- A manager without sessions. -/
def empty : Manager where
  objects _ := { connectorId := "", userId := "" }
  nextObject := 0
  sessions := Dict.empty
  live := []
  nextPid := 0
  stopsReturned := []

variable (m : Manager)

def modify (ref : Nat) (f : Session → Session) : Manager :=
  { m with objects := fun r => if r = ref then f (m.objects r) else m.objects r }

/-- `process.poll() is None`. -/
def alive (session : Session) : Bool := session.process.any m.live.contains

def requireOwner (ref : Nat) (userId : String) : Except ConnectorError Nat :=
  if (m.objects ref).userId ≠ userId then
    .error ⟨"CONNECTOR_FORBIDDEN", "Connector belongs to a different user."⟩
  else .ok ref

/-- `get`. -/
def get (connectorId userId : String) : Except ConnectorError Nat :=
  match m.sessions.get? connectorId with
  | none => .error ⟨"CONNECTOR_NOT_FOUND", "Connector runtime was not found."⟩
  | some ref => m.requireOwner ref userId

/-- A new session under the connector's identifier. -/
def newSession (connectorId userId : String) : Manager :=
  { m with
    objects := fun r =>
      if r = m.nextObject then { connectorId := connectorId, userId := userId } else m.objects r
    nextObject := m.nextObject + 1
    sessions := m.sessions.set connectorId m.nextObject }

/-- `_start_gateway`, and whether it raised. -/
def startGateway (ref : Nat) : Startup → Manager × Bool
  | .packageMissing => (m.modify ref Session.packageMissing, false)
  | .packageInvalid => (m.modify ref Session.packageInvalid, false)
  | .raised => (m, true)
  | .spawned => ({ m.modify ref fun session => session.spawned m.nextPid with
      live := m.nextPid :: m.live
      nextPid := m.nextPid + 1 }, false)

/-- `refresh_status` up to its await, and whether it came to it. -/
def refreshStart (baseUrl : Bool) (ref : Nat) : Manager × Bool :=
  let session := m.objects ref
  if session.runtimeStatus = .stopped ∨ session.runtimeStatus = .stopping then (m, false)
  else if session.process.isSome && !m.alive session then
    (m.modify ref Session.processExited, false)
  else if !baseUrl then (m.modify ref Session.baseUrlMissing, false)
  else (m, true)

/-- What the answer of the Gateway makes of the session. -/
def answered (session : Session) : Answer → Session
  | .connectorError error =>
      if session.runtimeStatus = .starting ∨ session.authenticatedAt = false then
        { session with
          runtimeStatus := .authenticationRequired
          authStatus := .authenticationRequired
          code := error.code
          message := error.message }
      else
        { session with
          runtimeStatus := .degraded
          authStatus := .sessionExpired
          code := error.code
          message := error.message }
  | .raised => session
  | .payload authenticated competing disconnected =>
      if authenticated then
        { session with
          runtimeStatus := .connected
          authStatus := .connected
          authenticatedAt := true
          code := "CONNECTED"
          message := "IBKR Gateway session is authenticated." }
      else if competing || disconnected then
        { session with
          runtimeStatus := .degraded
          authStatus := .sessionExpired
          code := "SESSION_EXPIRED"
          message := "IBKR Gateway reports the session is not connected." }
      else
        { session with
          runtimeStatus := .authenticationRequired
          authStatus := .authenticationRequired
          code := "AUTHENTICATION_REQUIRED"
          message := "Interactive IBKR authentication is required." }

/-- `refresh_status` from its await on. -/
def refreshFinish (ref : Nat) (answer : Answer) : Manager :=
  m.modify ref fun session => answered session answer

/-- `stop` of a session, and whether it returned. -/
def stopSession (ref : Nat) (termination : Termination) : Manager × Bool :=
  let session := m.objects ref
  if m.alive session ∧ termination = .raised then (m.modify ref Session.markStopping, false)
  else
    ({ m.modify ref Session.markStopped with
      live := m.live.filter fun pid => session.process ≠ some pid }, true)

end Manager

/-! ### Coroutines -/

/-- What a request does when the status has been refreshed. -/
inductive Then
  | respond
  | fetch
  | login (connectorId userId : String)
  deriving DecidableEq, Repr

/-- Where a coroutine awaits. -/
inductive Task
  | lockToCreate (connectorId userId : String)
  | lockToRestart (connectorId userId : String)
  | probingLocked (ref : Nat)
  | probing (ref : Nat) (next : Then)
  | fetching (ref : Nat)
  | finished
  deriving DecidableEq, Repr

namespace Manager

variable (baseUrl : Bool) (m : Manager)

/-- A refresh whose coroutine is at `probing` when it awaits the Gateway. -/
def refreshTo (ref : Nat) (probing : Task) : Manager × Task :=
  match m.refreshStart baseUrl ref with
  | (m, true) => (m, probing)
  | (m, false) => (m, .finished)

/-- A new session with its Gateway started, and its first refresh unless that failed. -/
def launch (connectorId userId : String) (startup : Startup) (probing : Nat → Task) :
    Manager × Task :=
  match (m.newSession connectorId userId).startGateway m.nextObject startup with
  | (m', true) => (m', .finished)
  | (m', false) =>
      if (m'.objects m.nextObject).runtimeStatus = .error then (m', .finished)
      else m'.refreshTo baseUrl m.nextObject (probing m.nextObject)

/-- `create` from where it has the lock. -/
def createLocked (connectorId userId : String) (startup : Startup) : Manager × Task :=
  match m.sessions.get? connectorId with
  | some ref =>
      match m.requireOwner ref userId with
      | .error _ => (m, .finished)
      | .ok _ =>
          if (m.objects ref).runtimeStatus = .stopped then
            m.launch baseUrl connectorId userId startup .probingLocked
          else if (m.objects ref).runtimeStatus = .error then (m, .finished)
          else m.refreshTo baseUrl ref (.probingLocked ref)
  | none =>
      -- DEV_SINGLE_CONNECTOR_LIMIT
      if m.sessions.values.any fun ref => (m.objects ref).runtimeStatus ≠ .stopped then
        (m, .finished)
      else m.launch baseUrl connectorId userId startup .probingLocked

/-- `restart` from where it has the lock. -/
def restartLocked (connectorId userId : String) (startup : Startup) : Manager × Task :=
  match m.get connectorId userId with
  | .error _ => (m, .finished)
  | .ok _ => m.launch baseUrl connectorId userId startup fun ref => .probing ref .respond

/-- `restart`, up to its first await; `free` says whether the lock is to be had at once. -/
def restart (free : Bool) (connectorId userId : String) (termination : Termination)
    (startup : Startup) : Manager × Task :=
  match m.get connectorId userId with
  | .error _ => (m, .finished)
  | .ok ref =>
      match m.stopSession ref termination with
      | (m, false) => (m, .finished)
      | (m, true) =>
          if free then m.restartLocked baseUrl connectorId userId startup
          else (m, .lockToRestart connectorId userId)

/-- `create`, up to its first await. -/
def create (free : Bool) (connectorId userId : String) (startup : Startup) : Manager × Task :=
  if free then m.createLocked baseUrl connectorId userId startup
  else (m, .lockToCreate connectorId userId)

/-- `stop`; it awaits nothing. -/
def stop (connectorId userId : String) (termination : Termination) : Manager × Task :=
  match m.get connectorId userId with
  | .error _ => (m, .finished)
  | .ok ref =>
      match m.stopSession ref termination with
      | (m, false) => (m, .finished)
      | (m, true) => ({ m with stopsReturned := ref :: m.stopsReturned }, .finished)

/-- `connector_login` restarts the connector of such a session. -/
def needsRestart (session : Session) : Bool :=
  session.authStatus = .sessionExpired ||
    (session.authStatus = .authenticationRequired && session.authenticatedAt)

/-- What comes after a refresh that returned: the response, the request for data of
`gateway_get`, or the restart that `connector_login` decides on. -/
def proceed (free : Bool) (ref : Nat) (termination : Termination) (startup : Startup) :
    Then → Manager × Task
  | .respond => (m, .finished)
  | .fetch =>
      (m, if (m.objects ref).authStatus = .connected then .fetching ref else .finished)
  | .login connectorId userId =>
      if needsRestart (m.objects ref) then
        m.restart baseUrl free connectorId userId termination startup
      else (m, .finished)

/-- `refresh_status` of a session, and what comes after it. -/
def refreshThen (free : Bool) (ref : Nat) (next : Then) (termination : Termination)
    (startup : Startup) : Manager × Task :=
  match m.refreshStart baseUrl ref with
  | (m, true) => (m, .probing ref next)
  | (m, false) => m.proceed baseUrl free ref termination startup next

/-- `status`, and what comes after it. -/
def statusThen (free : Bool) (connectorId userId : String) (next : Then)
    (termination : Termination) (startup : Startup) : Manager × Task :=
  match m.get connectorId userId with
  | .error _ => (m, .finished)
  | .ok ref => m.refreshThen baseUrl free ref next termination startup

end Manager

/-! ### The system -/

inductive Request
  | create (connectorId userId : String)
  | stop (connectorId userId : String)
  | restart (connectorId userId : String)
  | status (connectorId userId : String)
  | gatewayGet (connectorId userId : String)
  | login (connectorId userId : String)
  /-- `browser_auth_status`, with the session's login token. -/
  | authStatus (connectorId : String)
  deriving DecidableEq, Repr

/-- One stretch of a coroutine, or a process that exits by itself. -/
inductive Action
  | arrive (request : Request) (termination : Termination) (startup : Startup)
  | wake (startup : Startup)
  | answer (task : Nat) (answer : Answer) (termination : Termination) (startup : Startup)
  | exit (pid : Nat)
  deriving DecidableEq, Repr

/-- The manager, its lock and the coroutines in the order they came. -/
structure System where
  manager : Manager
  locked : Bool
  waiters : List Nat
  tasks : List Task

def System.empty : System := ⟨Manager.empty, false, [], []⟩

def Task.awaitsLock : Task → Bool
  | .lockToCreate _ _ => true
  | .lockToRestart _ _ => true
  | _ => false

def Task.holdsLock : Task → Bool
  | .probingLocked _ => true
  | _ => false

namespace System

/-- Asking for the lock now gets it at once. -/
def free (s : System) : Bool := !s.locked && s.waiters.isEmpty

/-- The system when a coroutine has come to its next await. -/
def settle (s : System) (task : Nat) (next : Manager × Task) : System where
  manager := next.1
  locked := s.locked || next.2.holdsLock
  waiters := if next.2.awaitsLock then s.waiters ++ [task] else s.waiters
  tasks := s.tasks.set task next.2

/-- A request up to its first await. -/
def handle (baseUrl : Bool) (m : Manager) (free : Bool) (termination : Termination)
    (startup : Startup) : Request → Manager × Task
  | .create connectorId userId => m.create baseUrl free connectorId userId startup
  | .stop connectorId userId => m.stop connectorId userId termination
  | .restart connectorId userId =>
      m.restart baseUrl free connectorId userId termination startup
  | .status connectorId userId =>
      m.statusThen baseUrl free connectorId userId .respond termination startup
  | .gatewayGet connectorId userId =>
      m.statusThen baseUrl free connectorId userId .fetch termination startup
  | .login connectorId userId =>
      m.statusThen baseUrl free connectorId userId (.login connectorId userId) termination startup
  | .authStatus connectorId =>
      match m.sessions.get? connectorId with
      | none => (m, .finished)
      | some ref => m.refreshThen baseUrl free ref .respond termination startup

/-- A coroutine whose request to the Gateway is answered, up to its next await. -/
def resume (baseUrl : Bool) (m : Manager) (free : Bool) (answer : Answer)
    (termination : Termination) (startup : Startup) : Task → Option (Manager × Task)
  | .probingLocked ref => some (m.refreshFinish ref answer, .finished)
  | .probing ref next =>
      let m := m.refreshFinish ref answer
      if answer = .raised then some (m, .finished)
      else some (m.proceed baseUrl free ref termination startup next)
  | .fetching _ => some (m, .finished)
  | _ => none

/-- The coroutine that was first to ask for the lock gets it. -/
def takeLock (baseUrl : Bool) (m : Manager) (startup : Startup) : Task → Option (Manager × Task)
  | .lockToCreate connectorId userId =>
      some (m.createLocked baseUrl connectorId userId startup)
  | .lockToRestart connectorId userId =>
      some (m.restartLocked baseUrl connectorId userId startup)
  | _ => none

/-- One step of the connector. -/
def exec (baseUrl : Bool) (s : System) : Action → Option (Unit × System)
  | .arrive request termination startup =>
      let s' := { s with tasks := s.tasks ++ [Task.finished] }
      some ((), s'.settle s.tasks.length
        (handle baseUrl s.manager s.free termination startup request))
  | .wake startup =>
      match s.locked, s.waiters with
      | false, task :: waiters => do
          let next ← takeLock baseUrl s.manager startup (← s.tasks[task]?)
          return ((), { s with waiters := waiters }.settle task next)
      | _, _ => none
  | .answer task answer termination startup => do
      let awaiting ← s.tasks[task]?
      let s' := if awaiting.holdsLock then { s with locked := false } else s
      let next ← resume baseUrl s.manager s'.free answer termination startup awaiting
      return ((), s'.settle task next)
  | .exit pid =>
      some ((), { s with
        manager := { s.manager with live := s.manager.live.filter (· ≠ pid) } })

/-- The connector, from its start. -/
def machine (baseUrl : Bool) : Machine System (Action × Unit) :=
  Machine.ofStep System.empty (exec baseUrl)

end System

end InvestmentPlatform.Connector
