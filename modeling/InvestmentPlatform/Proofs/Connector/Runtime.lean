/-
One Gateway, no orphan, and a stop that sticks.

The manager refuses a second connector while one is active, but it starts the Gateway of a
stopped session, and restarts a session, whatever else runs; and an answer that comes back to a
refresh is written down even when the session was stopped meanwhile.  Each of these is a step,
and where none is taken the connector keeps to its one Gateway.
-/
import InvestmentPlatform.Connector.Runtime

namespace InvestmentPlatform.Connector

open Manager List Dict Session

/-! ### What is to hold -/

/-- At most one Gateway is alive, it is that of a session which can be stopped, and a session for
which a stop request has returned stays stopped. -/
structure GatewayLaw (m : Manager) : Prop where
  one : m.live.length ≤ 1
  owned : ∀ pid ∈ m.live, ∃ connectorId ref, m.sessions.get? connectorId = some ref ∧
    (m.objects ref).process = some pid ∧ (m.objects ref).runtimeStatus ≠ .stopped
  stopped : ∀ connectorId ref, m.sessions.get? connectorId = some ref → ref ∈ m.stopsReturned →
    (m.objects ref).runtimeStatus = .stopped

/-- The law, that a reference not given out yet is nowhere, and that a stopped session has let go
of its process. -/
structure Inv (m : Manager) : Prop extends GatewayLaw m where
  placed : ∀ connectorId ref, m.sessions.get? connectorId = some ref → ref < m.nextObject
  recorded : ∀ ref ∈ m.stopsReturned, ref < m.nextObject
  idle : ∀ ref, (m.objects ref).runtimeStatus = .stopped → (m.objects ref).process = none

theorem Inv.empty : Inv Manager.empty where
  one := Nat.zero_le _
  owned := fun pid hpid => by cases hpid
  stopped := fun connectorId ref h => by cases h
  placed := fun connectorId ref h => by cases h
  recorded := fun ref href => by cases href
  idle := fun ref h => by cases h

/-! ### The steps that go wrong -/

/-- Creating over a stopped session: no Gateway runs when its own starts. -/
def CreateFits (m : Manager) (connectorId userId : String) (startup : Startup) : Prop :=
  ∀ ref, m.get connectorId userId = .ok ref → (m.objects ref).runtimeStatus = .stopped →
    startup = .spawned → m.live = []

/-- Restarting with the lock in hand: the session that is replaced has no Gateway, and none runs
when the new one starts. -/
def RestartFits (m : Manager) (connectorId userId : String) (startup : Startup) : Prop :=
  ∀ ref, m.get connectorId userId = .ok ref →
    m.alive (m.objects ref) = false ∧ (startup = .spawned → m.live = [])

/-- Restarting at once: no Gateway runs but that of the session. -/
def RestartAlone (m : Manager) (connectorId userId : String) (startup : Startup) : Prop :=
  ∀ ref, m.get connectorId userId = .ok ref → startup = .spawned →
    ∀ pid ∈ m.live, (m.objects ref).process = some pid

/-- An answer that is written down: no stop request has returned for the session. -/
def AnswerFits (m : Manager) (ref : Nat) (answer : Answer) : Prop :=
  answer ≠ .raised → ∀ connectorId, m.sessions.get? connectorId = some ref →
    ref ∉ m.stopsReturned

/-- What comes after a refresh: a login that restarts at once does so alone. -/
def ProceedFits (m : Manager) (free : Bool) (ref : Nat) (startup : Startup) : Then → Prop
  | .login connectorId userId => free = true → needsRestart (m.objects ref) = true →
      RestartAlone m connectorId userId startup
  | _ => True

def RefreshFits (baseUrl : Bool) (m : Manager) (free : Bool) (ref : Nat) (startup : Startup)
    (next : Then) : Prop :=
  ∀ m', m.refreshStart baseUrl ref = (m', false) → ProceedFits m' free ref startup next

def StatusFits (baseUrl : Bool) (m : Manager) (free : Bool) (connectorId userId : String)
    (startup : Startup) (next : Then) : Prop :=
  ∀ ref, m.get connectorId userId = .ok ref → RefreshFits baseUrl m free ref startup next

/-- A request that goes wrong nowhere up to its first await. -/
def ArriveFits (baseUrl : Bool) (m : Manager) (free : Bool) (startup : Startup) : Request → Prop
  | .create connectorId userId => free = true → CreateFits m connectorId userId startup
  | .restart connectorId userId => free = true → RestartAlone m connectorId userId startup
  | .login connectorId userId =>
      StatusFits baseUrl m free connectorId userId startup (.login connectorId userId)
  | _ => True

/-- A coroutine that goes wrong nowhere when it gets the lock. -/
def WakeFits (m : Manager) (startup : Startup) : Task → Prop
  | .lockToCreate connectorId userId => CreateFits m connectorId userId startup
  | .lockToRestart connectorId userId => RestartFits m connectorId userId startup
  | _ => True

/-- A coroutine that goes wrong nowhere when it is answered. -/
def ResumeFits (m : Manager) (free : Bool) (answer : Answer) (startup : Startup) : Task → Prop
  | .probingLocked ref => AnswerFits m ref answer
  | .probing ref next => AnswerFits m ref answer ∧
      (answer ≠ .raised → ProceedFits (m.refreshFinish ref answer) free ref startup next)
  | _ => True

/-- The step goes wrong nowhere. -/
def Conforms (baseUrl : Bool) (s : System) : Action → Prop
  | .arrive request _ startup => ArriveFits baseUrl s.manager s.free startup request
  | .wake startup => ∀ task ∈ s.waiters.head?, ∀ awaiting, s.tasks[task]? = some awaiting →
      WakeFits s.manager startup awaiting
  | .answer task answer _ startup => ∀ awaiting, s.tasks[task]? = some awaiting →
      ResumeFits s.manager
        (if awaiting.holdsLock then { s with locked := false } else s : System).free answer startup
        awaiting
  | .exit _ => True

/-- The connector as long as no step goes wrong. -/
def conforming (baseUrl : Bool) : Machine System (Action × Unit) :=
  (System.machine baseUrl).restrict fun s l => Conforms baseUrl s l.1

/-! ### Parts of a step -/

variable {m : Manager} {baseUrl : Bool} {connectorId userId : String} {ref : Nat}

@[simp] theorem objects_modify (f : Session → Session) (r : Nat) : (m.modify ref f).objects r
    = if r = ref then f (m.objects r) else m.objects r := rfl

/-- A change of a session that keeps its process and leaves a stopped one stopped. -/
theorem Inv.modify (inv : Inv m) {f : Session → Session}
    (hprocess : (f (m.objects ref)).process = (m.objects ref).process)
    (hnot : (f (m.objects ref)).runtimeStatus = .stopped → (m.objects ref).runtimeStatus = .stopped)
    (hstopped : ∀ connectorId, m.sessions.get? connectorId = some ref → ref ∈ m.stopsReturned →
      (f (m.objects ref)).runtimeStatus = .stopped) : Inv (m.modify ref f) where
  one := inv.one
  owned := by
    intro pid hpid
    obtain ⟨connectorId, r, hsession, hown, hstatus⟩ := inv.owned pid hpid
    refine ⟨connectorId, r, hsession, ?_⟩
    rw [objects_modify]
    by_cases hr : r = ref
    · subst hr
      rw [if_pos rfl, hprocess]
      exact ⟨hown, mt hnot hstatus⟩
    · rw [if_neg hr]
      exact ⟨hown, hstatus⟩
  stopped := by
    intro connectorId r hsession hreturned
    rw [objects_modify]
    by_cases hr : r = ref
    · subst hr
      rw [if_pos rfl]
      exact hstopped connectorId hsession hreturned
    · rw [if_neg hr]
      exact inv.stopped connectorId r hsession hreturned
  placed := inv.placed
  recorded := inv.recorded
  idle := by
    intro r hstatus
    rw [objects_modify] at hstatus ⊢
    by_cases hr : r = ref
    · subst hr
      rw [if_pos rfl] at hstatus ⊢
      rw [hprocess]
      exact inv.idle r (hnot hstatus)
    · rw [if_neg hr] at hstatus ⊢
      exact inv.idle r hstatus

/-- What `refresh_status` does before its await. -/
theorem refreshStart_cases (baseUrl : Bool) (m : Manager) (ref : Nat) :
    (m.refreshStart baseUrl ref).1 = m ∨
      (m.objects ref).runtimeStatus ≠ .stopped ∧ ∃ f : Session → Session,
        (m.refreshStart baseUrl ref).1 = m.modify ref f ∧
        (∀ session, (f session).process = session.process) ∧
        ∀ session, (f session).runtimeStatus ≠ .stopped := by
  rw [refreshStart]
  by_cases hstopped : (m.objects ref).runtimeStatus = .stopped ∨
      (m.objects ref).runtimeStatus = .stopping
  · exact Or.inl (by rw [if_pos hstopped])
  · rw [not_or] at hstopped
    simp only [hstopped, or_self, if_false]
    split
    · exact Or.inr ⟨hstopped.1, processExited, rfl, fun _ => rfl, fun _ => nofun⟩
    · split
      · exact Or.inr ⟨hstopped.1, baseUrlMissing, rfl, fun _ => rfl, fun _ => nofun⟩
      · exact Or.inl rfl

theorem Inv.refreshStart (inv : Inv m) (baseUrl : Bool) (ref : Nat) :
    Inv (m.refreshStart baseUrl ref).1 := by
  rcases refreshStart_cases baseUrl m ref with h | ⟨hstatus, f, h, hprocess, hnot⟩
  · rw [h]
    exact inv
  · rw [h]
    refine inv.modify (hprocess _) (fun hf => absurd hf (hnot _)) fun connectorId hsession hmem => ?_
    exact absurd (inv.stopped connectorId ref hsession hmem) hstatus

theorem process_answered (session : Session) (answer : Answer) :
    (answered session answer).process = session.process := by
  cases answer with
  | connectorError error =>
      rw [answered]
      split
      · rfl
      · rfl
  | raised => rfl
  | payload authenticated competing disconnected =>
      rw [answered]
      split
      · rfl
      · split
        · rfl
        · rfl

/-- An answer that is written down leaves the session in another state than stopped. -/
theorem runtimeStatus_answered (session : Session) {answer : Answer} (h : answer ≠ .raised) :
    (answered session answer).runtimeStatus ≠ .stopped := by
  cases answer with
  | connectorError error =>
      rw [answered]
      split
      · exact nofun
      · exact nofun
  | raised => exact absurd rfl h
  | payload authenticated competing disconnected =>
      rw [answered]
      split
      · exact nofun
      · split
        · exact nofun
        · exact nofun

section

variable (inv : Inv m)
include inv

theorem Inv.refreshFinish {answer : Answer} (hfits : AnswerFits m ref answer) :
    Inv (m.refreshFinish ref answer) := by
  by_cases hraised : answer = .raised
  · subst hraised
    exact inv.modify rfl (fun h => h) fun connectorId hsession hmem =>
      inv.stopped connectorId ref hsession hmem
  · refine inv.modify (process_answered _ _)
      (fun h => absurd h (runtimeStatus_answered _ hraised)) fun connectorId hsession hmem => ?_
    exact absurd hmem (hfits hraised connectorId hsession)

/-- A stop that raised leaves the process with its session. -/
theorem Inv.markStopping (hlive : m.alive (m.objects ref) = true) :
    Inv (m.modify ref markStopping) := by
  refine inv.modify rfl nofun fun connectorId hsession hmem => ?_
  have hnone := inv.idle ref (inv.stopped connectorId ref hsession hmem)
  rw [alive, hnone] at hlive
  cases hlive

/-- A stop takes the process of the session with it, and leaves the others to their sessions. -/
theorem Inv.markStopped (ref : Nat) : Inv { m.modify ref markStopped with
      live := m.live.filter fun pid => (m.objects ref).process ≠ some pid } where
  one := Nat.le_trans (length_filter_le _ _) inv.one
  owned := by
    intro pid hpid
    rw [mem_filter, decide_eq_true_eq] at hpid
    obtain ⟨connectorId, r, hsession, hown, hstatus⟩ := inv.owned pid hpid.1
    have hr : r ≠ ref := by
      rintro rfl
      exact hpid.2 hown
    refine ⟨connectorId, r, hsession, ?_⟩
    simp only [objects_modify, if_neg hr]
    exact ⟨hown, hstatus⟩
  stopped := by
    intro connectorId r hsession hmem
    simp only [objects_modify]
    split
    · rfl
    · exact inv.stopped connectorId r hsession hmem
  placed := inv.placed
  recorded := inv.recorded
  idle := by
    intro r
    simp only [objects_modify]
    split
    · exact fun _ => rfl
    · exact inv.idle r

theorem Inv.stopSession (ref : Nat) (termination : Termination) :
    Inv (m.stopSession ref termination).1 := by
  rw [Manager.stopSession]
  by_cases h : m.alive (m.objects ref) = true ∧ termination = .raised
  · rw [if_pos h]
    exact inv.markStopping h.1
  · rw [if_neg h]
    exact inv.markStopped ref

/-- A session takes the place of one without a Gateway. -/
theorem Inv.newSession (connectorId userId : String)
    (hidle : ∀ ref, m.sessions.get? connectorId = some ref → m.alive (m.objects ref) = false) :
    Inv (m.newSession connectorId userId) where
  one := inv.one
  owned := by
    intro pid hpid
    obtain ⟨other, r, hsession, hown, hstatus⟩ := inv.owned pid hpid
    have hother : other ≠ connectorId := by
      rintro rfl
      have hdead := hidle r hsession
      rw [alive, hown, Option.any_some, contains_eq_mem, decide_eq_false_iff_not] at hdead
      exact hdead hpid
    have hr : r ≠ m.nextObject := Nat.ne_of_lt (inv.placed other r hsession)
    refine ⟨other, r, ?_, ?_⟩
    · simp only [Manager.newSession, get?_set, if_neg hother]
      exact hsession
    · simp only [Manager.newSession, if_neg hr]
      exact ⟨hown, hstatus⟩
  stopped := by
    intro other r hsession hmem
    simp only [Manager.newSession, get?_set] at hsession ⊢
    have hr : r ≠ m.nextObject := Nat.ne_of_lt (inv.recorded r hmem)
    split at hsession
    · exact absurd (Option.some.inj hsession).symm hr
    · rw [if_neg hr]
      exact inv.stopped other r hsession hmem
  placed := by
    intro other r hsession
    simp only [Manager.newSession, get?_set] at hsession ⊢
    split at hsession
    · rw [← Option.some.inj hsession]
      exact Nat.lt_succ_self _
    · exact Nat.lt_succ_of_lt (inv.placed other r hsession)
  recorded := fun r hr => Nat.lt_succ_of_lt (inv.recorded r hr)
  idle := by
    intro r
    simp only [Manager.newSession]
    split
    · intro hstatus
      cases hstatus
    · exact inv.idle r

/-- A Gateway that is started where none runs is the one of its session. -/
theorem Inv.startGateway {startup : Startup}
    (hsession : m.sessions.get? connectorId = some ref) (hnew : ref ∉ m.stopsReturned)
    (halone : startup = .spawned → m.live = []) : Inv (m.startGateway ref startup).1 := by
  have hnone : ∀ {P : Prop} (connectorId : String), m.sessions.get? connectorId = some ref →
      ref ∈ m.stopsReturned → P := fun _ _ hmem => absurd hmem hnew
  cases startup with
  | packageMissing => exact inv.modify rfl nofun hnone
  | packageInvalid => exact inv.modify rfl nofun hnone
  | raised => exact inv
  | spawned =>
      have hlive := halone rfl
      constructor
      · constructor
        · rw [Manager.startGateway, hlive]
          exact Nat.le_refl 1
        · intro pid hpid
          rw [Manager.startGateway, hlive, mem_singleton] at hpid
          refine ⟨connectorId, ref, hsession, ?_⟩
          simp only [Manager.startGateway, objects_modify, if_pos]
          exact ⟨by rw [hpid, spawned], nofun⟩
        · intro other r hother hmem
          have hr : r ≠ ref := by
            rintro rfl
            exact hnew hmem
          simp only [Manager.startGateway, objects_modify, if_neg hr]
          exact inv.stopped other r hother hmem
      · exact inv.placed
      · exact inv.recorded
      · intro r
        simp only [Manager.startGateway, objects_modify]
        split
        · exact nofun
        · exact inv.idle r

end

/-! ### Stretches -/

variable {startup : Startup} {termination : Termination} {free : Bool} {next : Then}

theorem Inv.refreshTo (inv : Inv m) (baseUrl : Bool) (ref : Nat) (probing : Task) :
    Inv (m.refreshTo baseUrl ref probing).1 := by
  have hstart := inv.refreshStart baseUrl ref
  rw [Manager.refreshTo]
  split
  · rename_i m' heq
    rw [heq] at hstart
    exact hstart
  · rename_i m' heq
    rw [heq] at hstart
    exact hstart

theorem Inv.launch (inv : Inv m) (probing : Nat → Task)
    (hidle : ∀ ref, m.sessions.get? connectorId = some ref → m.alive (m.objects ref) = false)
    (halone : startup = .spawned → m.live = []) :
    Inv (m.launch baseUrl connectorId userId startup probing).1 := by
  have hstart : Inv ((m.newSession connectorId userId).startGateway m.nextObject startup).1 := by
    refine (inv.newSession connectorId userId hidle).startGateway (get?_set_self _ _ _) ?_ halone
    exact fun hmem => Nat.lt_irrefl _ (inv.recorded _ hmem)
  rw [Manager.launch]
  split
  · rename_i m' heq
    rw [heq] at hstart
    exact hstart
  · rename_i m' heq
    rw [heq] at hstart
    split
    · exact hstart
    · exact hstart.refreshTo baseUrl _ _

theorem requireOwner_eq_ok {r : Nat} (h : m.requireOwner ref userId = .ok r) : r = ref := by
  rw [requireOwner] at h
  split at h
  · cases h
  · cases h
    rfl

theorem get_eq_ok (h : m.get connectorId userId = .ok ref) :
    m.sessions.get? connectorId = some ref := by
  rw [Manager.get] at h
  split at h
  · cases h
  · rename_i r hsession
    rw [hsession, requireOwner_eq_ok h]

/-- A session that is not alive in the table of processes: it has none, or one that is gone. -/
theorem alive_eq_false_of_stopped (inv : Inv m) (h : (m.objects ref).runtimeStatus = .stopped) :
    m.alive (m.objects ref) = false := by
  rw [alive, inv.idle ref h]
  rfl

/-- Where every session is stopped, no Gateway runs. -/
theorem Inv.live_eq_nil (inv : Inv m)
    (h : (m.sessions.values.any fun ref => (m.objects ref).runtimeStatus ≠ .stopped) = false) :
    m.live = [] := by
  rw [eq_nil_iff_forall_not_mem]
  intro pid hpid
  obtain ⟨connectorId, ref, hsession, -, hstatus⟩ := inv.owned pid hpid
  rw [any_eq_false] at h
  apply h ref
  · exact mem_map.mpr ⟨(connectorId, ref), mem_items_of_get? hsession, rfl⟩
  · rw [decide_eq_true_eq]
    exact hstatus

theorem Inv.createLocked (inv : Inv m) (hfits : CreateFits m connectorId userId startup) :
    Inv (m.createLocked baseUrl connectorId userId startup).1 := by
  rw [Manager.createLocked]
  split
  · rename_i ref hsession
    split
    · exact inv
    · rename_i r howner
      have hget : m.get connectorId userId = .ok ref := by
        rw [Manager.get, hsession]
        exact (requireOwner_eq_ok howner) ▸ howner
      split
      · rename_i hstopped
        refine inv.launch _ (fun r hr => ?_) (hfits ref hget hstopped)
        rw [hsession, Option.some.injEq] at hr
        rw [← hr]
        exact alive_eq_false_of_stopped inv hstopped
      · split
        · exact inv
        · exact inv.refreshTo baseUrl ref _
  · rename_i hsession
    split
    · exact inv
    · rename_i hactive
      rw [Bool.not_eq_true] at hactive
      refine inv.launch _ (fun r hr => ?_) fun _ => inv.live_eq_nil hactive
      rw [hsession] at hr
      cases hr

theorem Inv.restartLocked (inv : Inv m) (hfits : RestartFits m connectorId userId startup) :
    Inv (m.restartLocked baseUrl connectorId userId startup).1 := by
  rw [Manager.restartLocked]
  split
  · exact inv
  · rename_i ref hget
    obtain ⟨hidle, halone⟩ := hfits ref hget
    refine inv.launch _ (fun r hr => ?_) halone
    rw [get_eq_ok hget, Option.some.injEq] at hr
    rw [← hr]
    exact hidle

/-- A stop that returned leaves the session without a Gateway, and the others as they were. -/
theorem restartFits_of_stopSession {m' : Manager} (hget : m.get connectorId userId = .ok ref)
    (hstop : m.stopSession ref termination = (m', true))
    (halone : RestartAlone m connectorId userId startup) :
    RestartFits m' connectorId userId startup := by
  rw [Manager.stopSession] at hstop
  split at hstop
  · cases hstop
  · cases hstop
    intro r hr
    have hsession := get_eq_ok hr
    have hmine := get_eq_ok hget
    have href : r = ref := by
      rw [← Option.some.injEq, ← hsession, ← hmine]
      rfl
    subst href
    refine ⟨?_, fun hspawned => ?_⟩
    · simp [alive, Manager.modify, markStopped]
    · rw [filter_eq_nil_iff]
      intro pid hpid
      rw [decide_eq_true_eq, not_not]
      exact halone r hget hspawned pid hpid

section

variable (inv : Inv m)
include inv

theorem Inv.restart (hfits : free = true → RestartAlone m connectorId userId startup) :
    Inv (m.restart baseUrl free connectorId userId termination startup).1 := by
  rw [Manager.restart]
  split
  · exact inv
  · rename_i ref hget
    have hstopped := inv.stopSession ref termination
    split
    · rename_i m' hstop
      rw [hstop] at hstopped
      exact hstopped
    · rename_i m' hstop
      rw [hstop] at hstopped
      split
      · rename_i hfree
        exact hstopped.restartLocked (restartFits_of_stopSession hget hstop (hfits hfree))
      · exact hstopped

theorem Inv.stop : Inv (m.stop connectorId userId termination).1 := by
  rw [Manager.stop]
  split
  · exact inv
  · rename_i ref hget
    have hstopped := inv.stopSession ref termination
    split
    · rename_i m' hstop
      rw [hstop] at hstopped
      exact hstopped
    · rename_i m' hstop
      rw [hstop] at hstopped
      rw [Manager.stopSession] at hstop
      split at hstop
      · cases hstop
      · cases hstop
        refine { hstopped with stopped := ?_, recorded := ?_ }
        · intro other r hsession hmem
          rcases mem_cons.mp hmem with rfl | hmem
          · simp only [objects_modify, if_pos]
            rfl
          · exact hstopped.stopped other r hsession hmem
        · intro r hmem
          rcases mem_cons.mp hmem with rfl | hmem
          · exact inv.placed connectorId r (get_eq_ok hget)
          · exact hstopped.recorded r hmem

theorem Inv.proceed (hfits : ProceedFits m free ref startup next) :
    Inv (m.proceed baseUrl free ref termination startup next).1 := by
  cases next with
  | respond => exact inv
  | fetch => exact inv
  | login connectorId userId =>
      rw [Manager.proceed]
      split
      · rename_i hneeds
        exact inv.restart fun hfree => hfits hfree hneeds
      · exact inv

theorem Inv.refreshThen (hfits : RefreshFits baseUrl m free ref startup next) :
    Inv (m.refreshThen baseUrl free ref next termination startup).1 := by
  have hstart := inv.refreshStart baseUrl ref
  rw [Manager.refreshThen]
  split
  · rename_i m' heq
    rw [heq] at hstart
    exact hstart
  · rename_i m' heq
    rw [heq] at hstart
    exact hstart.proceed (hfits m' heq)

theorem Inv.statusThen (hfits : StatusFits baseUrl m free connectorId userId startup next) :
    Inv (m.statusThen baseUrl free connectorId userId next termination startup).1 := by
  rw [Manager.statusThen]
  split
  · exact inv
  · rename_i ref hget
    exact inv.refreshThen (hfits ref hget)

/-! ### Steps -/

theorem Inv.handle {request : Request} (hfits : ArriveFits baseUrl m free startup request) :
    Inv (System.handle baseUrl m free termination startup request).1 := by
  cases request with
  | create connectorId userId =>
      rw [System.handle, Manager.create]
      split
      · rename_i hfree
        exact inv.createLocked (hfits hfree)
      · exact inv
  | stop connectorId userId => exact inv.stop
  | restart connectorId userId => exact inv.restart hfits
  | status connectorId userId => exact inv.statusThen fun _ _ _ _ => trivial
  | gatewayGet connectorId userId => exact inv.statusThen fun _ _ _ _ => trivial
  | login connectorId userId => exact inv.statusThen hfits
  | authStatus connectorId =>
      rw [System.handle]
      split
      · exact inv
      · exact inv.refreshThen fun _ _ => trivial

theorem Inv.takeLock {task : Task} {result : Manager × Task}
    (hfits : WakeFits m startup task) (h : System.takeLock baseUrl m startup task = some result) :
    Inv result.1 := by
  cases task with
  | lockToCreate connectorId userId =>
      cases h
      exact inv.createLocked hfits
  | lockToRestart connectorId userId =>
      cases h
      exact inv.restartLocked hfits
  | probingLocked ref => cases h
  | probing ref next => cases h
  | fetching ref => cases h
  | finished => cases h

theorem Inv.resume {answer : Answer} {task : Task} {result : Manager × Task}
    (hfits : ResumeFits m free answer startup task)
    (h : System.resume baseUrl m free answer termination startup task = some result) :
    Inv result.1 := by
  cases task with
  | probingLocked ref =>
      cases h
      exact inv.refreshFinish hfits
  | probing ref next =>
      rw [System.resume] at h
      split at h
      · cases h
        exact inv.refreshFinish hfits.1
      · rename_i hraised
        cases h
        exact (inv.refreshFinish hfits.1).proceed (hfits.2 hraised)
  | fetching ref =>
      cases h
      exact inv
  | lockToCreate connectorId userId => cases h
  | lockToRestart connectorId userId => cases h
  | finished => cases h

/-- A process that exits leaves the law as it was. -/
theorem Inv.exit (pid : Nat) : Inv { m with live := m.live.filter (· ≠ pid) } where
  one := Nat.le_trans (length_filter_le _ _) inv.one
  owned := fun p hp => inv.owned p (mem_of_mem_filter hp)
  stopped := inv.stopped
  placed := inv.placed
  recorded := inv.recorded
  idle := inv.idle

end

/-- **A step that conforms keeps the invariant.** -/
theorem Inv.exec {s s' : System} {action : Action} (inv : Inv s.manager)
    (hfits : Conforms baseUrl s action) (h : System.exec baseUrl s action = some ((), s')) :
    Inv s'.manager := by
  cases action with
  | arrive request termination startup =>
      cases h
      exact inv.handle hfits
  | wake startup =>
      rw [System.exec] at h
      split at h
      · rename_i task waiters hlocked hwaiters
        simp only [Option.bind_eq_bind, Option.bind_eq_some_iff] at h
        obtain ⟨awaiting, hawaiting, result, hresult, hs⟩ := h
        cases hs
        refine inv.takeLock (hfits task ?_ awaiting hawaiting) hresult
        rw [hwaiters]
        exact rfl
      · cases h
  | answer task answer termination startup =>
      simp only [System.exec, Option.bind_eq_bind, Option.bind_eq_some_iff] at h
      obtain ⟨awaiting, hawaiting, result, hresult, hs⟩ := h
      cases hs
      exact inv.resume (hfits awaiting hawaiting) hresult
  | exit pid =>
      cases h
      exact inv.exit pid

/-- **As long as no step goes wrong, at most one Gateway is alive, none is an orphan, and a
session that was stopped stays stopped.** -/
theorem gatewayLaw_of_conforming (baseUrl : Bool) {s : System}
    (h : (conforming baseUrl).Reachable s) : GatewayLaw s.manager := by
  have hinv : Inv s.manager := by
    refine h.invariant (I := fun s => Inv s.manager) ?_ ?_
    · rintro _ rfl
      exact Inv.empty
    · intro s l s' inv hstep
      exact inv.exec hstep.1 hstep.2
  exact hinv.toGatewayLaw

/-! ### Runs -/

def createA : Action := .arrive (.create "A" "u") .gone .spawned

/-- A connector that is created, with its first refresh still to be answered. -/
def afterCreate : System := ((System.exec true System.empty createA).get rfl).2

theorem gatewayLaw_of_create : afterCreate.manager.live = [0] ∧ GatewayLaw afterCreate.manager := by
  refine ⟨rfl, gatewayLaw_of_conforming true (.step (l := (createA, ())) (.init rfl) ⟨?_, rfl⟩)⟩
  intro _ ref hget
  cases hget

/-- What a run of the connector ends in. -/
def ended (actions : List Action) : Option System :=
  (Machine.replay (System.exec true) System.empty actions).map Prod.snd

theorem reachable_of_ended {actions : List Action} {s : System} (h : ended actions = some s) :
    (System.machine true).Reachable s := by
  obtain ⟨r, hr, rfl⟩ := Option.map_eq_some_iff.mp h
  exact Machine.replay_reachable hr

/-- A connector that is created and found to be unauthenticated. -/
def created (connectorId : String) (task : Nat) : List Action :=
  [.arrive (.create connectorId "u") .gone .spawned,
    .answer task (.connectorError ⟨"SESSION_EXPIRED", ""⟩) .gone .spawned]

/-- Another connector is created once the first is stopped, and then the first again. -/
def createdAgain : List Action :=
  created "A" 0 ++ [.arrive (.stop "A" "u") .gone .spawned] ++ created "B" 2 ++ [createA]

/-- Two restarts wait while a connector is being created; the second finds no Gateway package. -/
def restartedTwice : List Action :=
  [createA, .arrive (.restart "A" "u") .gone .spawned, .arrive (.restart "A" "u") .gone .spawned,
    .answer 0 .raised .gone .spawned, .wake .spawned, .wake .packageMissing]

/-- A connector is stopped while a status request awaits the Gateway. -/
def stoppedMeanwhile : List Action :=
  created "A" 0 ++ [.arrive (.status "A" "u") .gone .spawned,
    .arrive (.stop "A" "u") .gone .spawned, .answer 1 (.payload true false false) .gone .spawned]

/-- Two Gateways, a Gateway that no session has, and a stopped session that is connected. -/
theorem gatewayLaw_fails :
    (¬ ∀ s, (System.machine true).Reachable s → s.manager.live.length ≤ 1) ∧
    (¬ ∀ s, (System.machine true).Reachable s → ∀ pid ∈ s.manager.live, ∃ connectorId ref,
      s.manager.sessions.get? connectorId = some ref ∧
      (s.manager.objects ref).process = some pid ∧
      (s.manager.objects ref).runtimeStatus ≠ .stopped) ∧
    ¬ ∀ s, (System.machine true).Reachable s → ∀ connectorId ref,
      s.manager.sessions.get? connectorId = some ref → ref ∈ s.manager.stopsReturned →
      (s.manager.objects ref).runtimeStatus = .stopped := by
  refine ⟨fun h => ?_, fun h => ?_, fun h => ?_⟩
  · have hlive : ∃ s, ended createdAgain = some s ∧ s.manager.live = [2, 1] := ⟨_, rfl, rfl⟩
    obtain ⟨s, hs, hlive⟩ := hlive
    have hone := h s (reachable_of_ended hs)
    rw [hlive] at hone
    exact absurd hone (by decide)
  · have horphan : ∃ s, ended restartedTwice = some s ∧ s.manager.live = [1] ∧
        s.manager.sessions.items.map (fun item => (item.1, (s.manager.objects item.2).process))
          = [("A", none)] := ⟨_, rfl, rfl, rfl⟩
    obtain ⟨s, hs, hlive, hsessions⟩ := horphan
    obtain ⟨connectorId, ref, hsession, hprocess, -⟩ :=
      h s (reachable_of_ended hs) 1 (by rw [hlive]; exact List.mem_singleton_self 1)
    have hmem := List.mem_map_of_mem (f := fun item : String × Nat =>
      (item.1, (s.manager.objects item.2).process)) (Dict.mem_items_of_get? hsession)
    rw [hsessions, List.mem_singleton, Prod.mk.injEq, hprocess] at hmem
    cases hmem.2
  · have hstatus : ∃ s, ended stoppedMeanwhile = some s ∧ s.manager.sessions.get? "A" = some 0 ∧
        0 ∈ s.manager.stopsReturned ∧ (s.manager.objects 0).runtimeStatus = .connected :=
      ⟨_, rfl, rfl, by decide, rfl⟩
    obtain ⟨s, hs, hsession, hmem, hconnected⟩ := hstatus
    have hstopped := h s (reachable_of_ended hs) "A" 0 hsession hmem
    rw [hconnected] at hstopped
    cases hstopped

end InvestmentPlatform.Connector
