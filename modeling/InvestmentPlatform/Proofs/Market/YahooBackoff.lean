/-
The backoff of the Yahoo session, over every run.

The log of a run says what the fields of the object are: how many reports there were since the last
one that data came, when the window ends that the last report opened, and when the hook ran.  From
that, what every call does can be read off the log before it.  A report opens a window of the length
that is meant, unless there were too many before it: the power of two of the report after 1024
others is no float, and that report raises before it opens a window.  And a window that was ended
is taken for one that ends at time zero, so a clock that shows less than zero is still within it.
-/
import InvestmentPlatform.Market.YahooTickerContexts
import Mathlib.Tactic.Linarith
import Mathlib.Tactic.Positivity

namespace InvestmentPlatform.Market.YahooTickerContexts

open History List Dict Nat Option

variable {Task Obj Symbol : Type} {settings : Settings}

/-! ### What a log says -/

/-- A call and its outcome. -/
abbrev Event (Task Obj Symbol : Type) := Call Task Obj Symbol × Outcome

/-- How many reports there were since the last one that data came. -/
def streak (log : List (Event Task Obj Symbol)) : ℕ :=
  log.foldl (fun n event => match event.1 with
    | .unavailable .. => n + 1
    | .available => 0
    | _ => n) 0

/-- When the window ends that is in force. -/
def windowEnd (log : List (Event Task Obj Symbol)) : Option ℚ :=
  log.foldl (fun window event => match event with
    | (.available, _) => none
    | (_, .reported windowEnd _ _) => some windowEnd
    | _ => window) none

/-- When the hook ran. -/
def refreshes (log : List (Event Task Obj Symbol)) : List ℚ :=
  log.filterMap fun event => match event.2 with
    | .reported _ refreshedAt _ => refreshedAt
    | _ => none

/-- How long the window of a report is meant to be, which is the `n`-th since data came. -/
def meantWindow (settings : Settings) (n : ℕ) : ℚ :=
  min (settings.cooldownSeconds * 2 ^ (n - 1)) settings.backoffMaxSeconds

/-- What is promised of an event after a log. -/
def Kept (settings : Settings) (log : List (Event Task Obj Symbol)) : Event Task Obj Symbol → Prop
  | (.unavailable _ now _ _, outcome) => ∃ windowEnd refreshedAt answer,
      outcome = .reported windowEnd refreshedAt answer ∧
        now + (1 - settings.jitterFraction) * meantWindow settings (streak log + 1) ≤ windowEnd ∧
        windowEnd ≤ now + (1 + settings.jitterFraction) * meantWindow settings (streak log + 1)
  | (.acquire _ _ now _, outcome) => outcome = .refused ↔ ∃ last ∈ windowEnd log, now < last
  | _ => True

/-- Where the promise is kept: at most 1024 reports come in a row, and where there were none, the
clock shows no time before zero. -/
def Permits (log : List (Event Task Obj Symbol)) : Event Task Obj Symbol → Prop
  | (.unavailable .., _) => streak log < 1024
  | (.acquire _ _ now _, _) => streak log = 0 → 0 ≤ now
  | _ => True

section

variable (log : List (Event Task Obj Symbol)) (event : Event Task Obj Symbol)

theorem streak_concat : streak (log ++ [event]) = match event.1 with
    | .unavailable .. => streak log + 1
    | .available => 0
    | _ => streak log := by
  rw [streak, foldl_concat]
  rfl

theorem windowEnd_concat : windowEnd (log ++ [event]) = match event with
    | (.available, _) => none
    | (_, .reported windowEnd _ _) => some windowEnd
    | _ => windowEnd log := by
  rw [windowEnd, foldl_concat]
  rfl

theorem refreshes_concat : refreshes (log ++ [event]) = refreshes log ++ (match event.2 with
    | .reported _ refreshedAt _ => refreshedAt
    | _ => none).toList := by
  unfold refreshes
  rw [filterMap_append, filterMap_cons]
  split
  · rename_i hnone
    rw [hnone, filterMap_nil]
    rfl
  · rename_i hsome
    rw [hsome, filterMap_nil]
    rfl

end

/-! ### The window of a report -/

theorem floatOfInt_pow {n : ℕ} :
    floatOfInt (2 ^ n) = if n < 1024 then some ((2 : ℚ) ^ n) else none := by
  unfold floatOfInt
  rw [if_congr (Nat.pow_lt_pow_iff_right (by decide)) rfl rfl, cast_pow, cast_ofNat]

/-- A report raises where more than 1024 reports have come since data came. -/
theorem backoffWindow_succ (n : ℕ) : backoffWindow settings (n + 1) =
    if n < 1024 then some (meantWindow settings (n + 1)) else none := by
  unfold backoffWindow meantWindow
  rw [Nat.add_sub_cancel, floatOfInt_pow]
  split
  · rfl
  · rfl

variable (settings) in
theorem meantWindow_nonneg (n : ℕ) : 0 ≤ meantWindow settings n := by
  have hpower : 0 < settings.cooldownSeconds * 2 ^ (n - 1) :=
    mul_pos settings.cooldown_pos (by positivity)
  exact le_min hpower.le settings.backoffMax_pos.le

variable (settings) in
/-- The jitter takes at most its fraction from a window, or adds it. -/
theorem jittered_bounds {window random : ℚ} (hwindow : 0 ≤ window) (hrandom : 0 ≤ random)
    (hrandom' : random < 1) :
    (1 - settings.jitterFraction) * window ≤ jittered settings window random ∧
      jittered settings window random ≤ (1 + settings.jitterFraction) * window := by
  have hjitter : 0 ≤ window * settings.jitterFraction :=
    mul_nonneg hwindow settings.jitter_nonneg
  have hlow : -(window * settings.jitterFraction) ≤
      window * settings.jitterFraction * (2 * random - 1) := by nlinarith
  have hhigh : window * settings.jitterFraction * (2 * random - 1) ≤
      window * settings.jitterFraction := by nlinarith
  unfold jittered
  constructor
  · refine le_trans ?_ (le_max_right _ _)
    linarith
  · refine max_le ?_ ?_
    · linarith
    · linarith

/-! ### The fields and the log -/

/-- What a log says of the fields. -/
structure Logged (settings : Settings) (log : List (Event Task Obj Symbol))
    (s : Contexts Task Obj Symbol) : Prop where
  failures : s.consecutiveFailures = streak log
  window : s.backoffUntil = (windowEnd log).getD 0
  /-- A window is in force after a report, until data comes. -/
  opened : windowEnd log = none ↔ streak log = 0
  last : s.lastSessionRefresh = (refreshes log).getLast?
  spaced : (refreshes log).Pairwise fun earlier later =>
    settings.cooldownSeconds ≤ later - earlier
  rule : Always (fun past event => Kept settings past event ↔ Permits past event) log

theorem logged_start (first : ℚ) :
    Logged settings ([] : List (Event Task Obj Symbol)) (start first) :=
  ⟨rfl, rfl, ⟨fun _ => rfl, fun _ => rfl⟩, rfl, List.Pairwise.nil, always_nil⟩

variable {log : List (Event Task Obj Symbol)} {s s' : Contexts Task Obj Symbol}

/-- What leaves the fields of the backoff alone is not in the log. -/
theorem Logged.frame (h : Logged settings log s)
    (hfailures : s'.consecutiveFailures = s.consecutiveFailures)
    (hwindow : s'.backoffUntil = s.backoffUntil)
    (hlast : s'.lastSessionRefresh = s.lastSessionRefresh) : Logged settings log s' :=
  ⟨hfailures.trans h.failures, hwindow.trans h.window, h.opened, hlast.trans h.last, h.spaced,
    h.rule⟩

/-- An event that is no report, and does not say that data came, changes nothing the log says. -/
theorem Logged.concat (h : Logged settings log s) (event : Event Task Obj Symbol)
    (hstreak : streak (log ++ [event]) = streak log)
    (hwindow : windowEnd (log ++ [event]) = windowEnd log)
    (hrefreshes : refreshes (log ++ [event]) = refreshes log)
    (hrule : Kept settings log event ↔ Permits log event) :
    Logged settings (log ++ [event]) s :=
  ⟨h.failures.trans hstreak.symm, h.window.trans (by rw [hwindow]), by rw [hwindow, hstreak]; exact h.opened,
    h.last.trans (by rw [hrefreshes]), by rw [hrefreshes]; exact h.spaced,
    always_concat.mpr ⟨h.rule, hrule⟩⟩

/-! ### Reports -/

/-- Times that are a cooldown apart stay so when one comes that is a cooldown after the last. -/
theorem spaced_concat {cooldown later : ℚ} (hpos : 0 < cooldown) {times : List ℚ}
    (h : times.Pairwise fun earlier later => cooldown ≤ later - earlier)
    (hlast : ∀ last ∈ times.getLast?, cooldown ≤ later - last) :
    (times ++ [later]).Pairwise fun earlier later => cooldown ≤ later - earlier := by
  refine pairwise_append.mpr ⟨h, pairwise_singleton _ _, fun time htime other hother => ?_⟩
  rw [mem_singleton.mp hother]
  rcases times.eq_nil_or_concat' with rfl | ⟨front, last, rfl⟩
  · exact absurd htime not_mem_nil
  · have hfrom : cooldown ≤ later - last := hlast last getLast?_concat
    rcases mem_append.mp htime with hfront | hsame
    · have hbefore : cooldown ≤ last - time :=
        (pairwise_append.mp h).2.2 time hfront last (mem_singleton_self last)
      linarith
    · rw [mem_singleton.mp hsame]
      exact hfrom

variable (settings) in
/-- The hook runs where the last time it ran is a cooldown ago. -/
theorem refreshSession_cases (s : Contexts Task Obj Symbol) (later : ℚ) :
    refreshSession settings s later = (none, s) ∨
      refreshSession settings s later = (some later, { s with lastSessionRefresh := some later }) ∧
        ∀ last ∈ s.lastSessionRefresh, settings.cooldownSeconds ≤ later - last := by
  unfold refreshSession
  split
  · exact Or.inl rfl
  · split
    · exact Or.inl rfl
    · rename_i hago
      refine Or.inr ⟨rfl, fun last hlast => ?_⟩
      rw [mem_def.mp hlast, any_some, decide_eq_true_eq] at hago
      exact not_lt.mp hago

/-- The report as it counts, opens the window and refreshes the session. -/
theorem noteIdentityMetadataUnavailable_eq (s : Contexts Task Obj Symbol) (random now later : ℚ)
    (hookRaises : Bool) :
    noteIdentityMetadataUnavailable settings s random now later hookRaises =
      let counted := { s with consecutiveFailures := s.consecutiveFailures + 1 }
      let windowEnd :=
        now + jittered settings (meantWindow settings (s.consecutiveFailures + 1)) random
      let refreshed := refreshSession settings { counted with backoffUntil := windowEnd } later
      if s.consecutiveFailures < 1024 then
        (.reported windowEnd refreshed.1 (refreshed.1.isSome && !hookRaises), refreshed.2)
      else (.overflow, counted) := by
  unfold noteIdentityMetadataUnavailable
  dsimp only
  rw [backoffWindow_succ]
  by_cases hfew : s.consecutiveFailures < 1024
  · rw [if_pos hfew, if_pos hfew]
  · rw [if_neg hfew, if_neg hfew]

theorem Logged.unavailable (h : Logged settings log s) {random : ℚ} (hrandom : 0 ≤ random)
    (hrandom' : random < 1) (now later : ℚ) (hookRaises : Bool) :
    Logged settings (log ++ [(.unavailable random now later hookRaises,
        (noteIdentityMetadataUnavailable settings s random now later hookRaises).1)])
      (noteIdentityMetadataUnavailable settings s random now later hookRaises).2 := by
  rw [noteIdentityMetadataUnavailable_eq]
  dsimp only
  by_cases hfew : s.consecutiveFailures < 1024
  · rw [if_pos hfew]
    have hbounds := jittered_bounds settings
      (meantWindow_nonneg settings (s.consecutiveFailures + 1)) hrandom hrandom'
    revert hbounds
    generalize jittered settings (meantWindow settings (s.consecutiveFailures + 1)) random = length
    intro hbounds
    have hkept : ∀ refreshedAt answer, Kept settings log (.unavailable random now later hookRaises,
          .reported (now + length) refreshedAt answer) ↔
        Permits log ((.unavailable random now later hookRaises : Call Task Obj Symbol),
          .reported (now + length) refreshedAt answer) := by
      intro refreshedAt answer
      have hlow := hbounds.1
      have hhigh := hbounds.2
      rw [h.failures] at hfew hlow hhigh
      refine ⟨fun _ => hfew, fun _ => ⟨now + length, refreshedAt, answer, rfl, ?_, ?_⟩⟩
      · linarith
      · linarith
    have hopened : ∀ refreshedAt answer, windowEnd (log ++
          [(.unavailable random now later hookRaises,
            .reported (now + length) refreshedAt answer)]) = some (now + length) :=
      fun refreshedAt answer => windowEnd_concat log _
    rcases refreshSession_cases settings
      { s with consecutiveFailures := s.consecutiveFailures + 1, backoffUntil := now + length } later
      with hrefresh | ⟨hrefresh, hago⟩
    · rw [hrefresh]
      refine ⟨?_, ?_, ?_, ?_, ?_, always_concat.mpr ⟨h.rule, hkept _ _⟩⟩
      · rw [streak_concat]
        exact congrArg (· + 1) h.failures
      · rw [hopened]
        rfl
      · rw [hopened, streak_concat]
        exact ⟨nofun, fun hzero => absurd hzero (succ_ne_zero _)⟩
      · rw [refreshes_concat]
        exact h.last.trans (by rw [toList_none, append_nil])
      · rw [refreshes_concat]
        exact (append_nil (refreshes log)).symm ▸ h.spaced
    · rw [hrefresh]
      refine ⟨?_, ?_, ?_, ?_, ?_, always_concat.mpr ⟨h.rule, hkept _ _⟩⟩
      · rw [streak_concat]
        exact congrArg (· + 1) h.failures
      · rw [hopened]
        rfl
      · rw [hopened, streak_concat]
        exact ⟨nofun, fun hzero => absurd hzero (succ_ne_zero _)⟩
      · rw [refreshes_concat]
        exact getLast?_concat.symm
      · rw [refreshes_concat]
        refine spaced_concat settings.cooldown_pos h.spaced fun last hlast => hago last ?_
        rw [← h.last] at hlast
        exact hlast
  · rw [if_neg hfew]
    have hmany := hfew
    rw [h.failures] at hmany
    refine ⟨?_, ?_, ?_, ?_, ?_, always_concat.mpr ⟨h.rule, ?_⟩⟩
    · rw [streak_concat]
      exact congrArg (· + 1) h.failures
    · rw [windowEnd_concat]
      exact h.window
    · rw [windowEnd_concat, streak_concat]
      refine ⟨fun hnone => absurd (h.opened.mp hnone) (by omega), fun hzero => ?_⟩
      exact absurd hzero (succ_ne_zero _)
    · rw [refreshes_concat]
      exact h.last.trans (by rw [toList_none, append_nil])
    · rw [refreshes_concat]
      exact (append_nil (refreshes log)).symm ▸ h.spaced
    · constructor
      · intro hkept
        obtain ⟨_, _, _, houtcome, -⟩ := hkept
        cases houtcome
      · intro hpermits
        exact absurd hpermits hmany

/-! ### The other calls -/

theorem Logged.available (h : Logged settings log s) :
    Logged settings (log ++ [(.available, .available)]) (noteIdentityMetadataAvailable s) := by
  refine ⟨?_, ?_, ?_, ?_, ?_, always_concat.mpr ⟨h.rule, Iff.rfl⟩⟩
  · rw [streak_concat]
    rfl
  · rw [windowEnd_concat]
    rfl
  · rw [windowEnd_concat, streak_concat]
    exact ⟨fun _ => rfl, fun _ => rfl⟩
  · rw [refreshes_concat]
    exact h.last.trans (by rw [toList_none, append_nil])
  · rw [refreshes_concat]
    exact (append_nil (refreshes log)).symm ▸ h.spaced

section

variable [DecidableEq Task] [DecidableEq Obj] [DecidableEq Symbol]

variable (settings) in
/-- What an acquisition answers: it is refused within the window only. -/
theorem acquire_outcome (s : Contexts Task Obj Symbol) (symbol : Symbol)
    (context : Option (Context Task Obj)) (now : ℚ) (loopOpen : Bool) :
    now < s.backoffUntil ∧ (acquire settings s symbol context now loopOpen).1 = .refused ∨
      ¬ now < s.backoffUntil ∧ ((acquire settings s symbol context now loopOpen).1 = .loopClosed ∨
          ∃ access, (acquire settings s symbol context now loopOpen).1 = .yielded access) := by
  unfold acquire inBackoff
  by_cases hwithin : now < s.backoffUntil
  · rw [if_pos (decide_eq_true hwithin)]
    exact Or.inl ⟨hwithin, rfl⟩
  · rw [if_neg (by simpa using hwithin)]
    refine Or.inr ⟨hwithin, ?_⟩
    split
    · exact Or.inr ⟨_, rfl⟩
    · split
      · exact Or.inr ⟨_, rfl⟩
      · split
        · exact Or.inl rfl
        · exact Or.inr ⟨_, rfl⟩

variable (settings) in
/-- An acquisition leaves the backoff alone. -/
theorem acquire_frame (s : Contexts Task Obj Symbol) (symbol : Symbol)
    (context : Option (Context Task Obj)) (now : ℚ) (loopOpen : Bool) :
    let s' := (acquire settings s symbol context now loopOpen).2
    s'.consecutiveFailures = s.consecutiveFailures ∧ s'.backoffUntil = s.backoffUntil ∧
      s'.lastSessionRefresh = s.lastSessionRefresh := by
  unfold acquire
  dsimp only
  split
  · exact ⟨rfl, rfl, rfl⟩
  · split
    · exact ⟨rfl, rfl, rfl⟩
    · rename_i context _
      split
      · exact ⟨rfl, rfl, rfl⟩
      · split
        · exact ⟨rfl, rfl, rfl⟩
        · cases context with
          | task owner => exact ⟨rfl, rfl, rfl⟩
          | object other => exact ⟨rfl, rfl, rfl⟩

theorem Logged.acquire (h : Logged settings log s) (symbol : Symbol)
    (context : Option (Context Task Obj)) (now : ℚ) (loopOpen : Bool) :
    Logged settings (log ++ [(.acquire symbol context now loopOpen,
        (acquire settings s symbol context now loopOpen).1)])
      (acquire settings s symbol context now loopOpen).2 := by
  obtain ⟨hfailures, hwindow, hlast⟩ :=
    acquire_frame settings s symbol context now loopOpen
  refine Logged.frame ?_ hfailures hwindow hlast
  -- Within the window the log says when it ends, and elsewhere the field is zero.
  have hwithin : ∀ outcome, (outcome = Outcome.refused ↔ now < s.backoffUntil) →
      (Kept settings log (.acquire symbol context now loopOpen, outcome) ↔
        Permits log (.acquire symbol context now loopOpen, outcome)) := by
    intro outcome houtcome
    show (outcome = .refused ↔ ∃ last ∈ windowEnd log, now < last) ↔ (streak log = 0 → 0 ≤ now)
    rw [houtcome, h.window, ← h.opened]
    cases windowEnd log with
    | none =>
      rw [getD_none]
      refine ⟨fun hkept _ => not_lt.mp fun hneg => ?_, fun hpermits => ?_⟩
      · obtain ⟨last, hlast, -⟩ := hkept.mp hneg
        cases hlast
      · refine ⟨fun hneg => absurd (hpermits rfl) (not_le.mpr hneg), fun hexists => ?_⟩
        obtain ⟨last, hlast, -⟩ := hexists
        cases hlast
    | some last =>
      rw [getD_some]
      refine ⟨fun _ hnone => absurd hnone (some_ne_none last), fun _ => ?_⟩
      refine ⟨fun hlt => ⟨last, rfl, hlt⟩, fun hexists => ?_⟩
      obtain ⟨last', hsame, hlt⟩ := hexists
      cases hsame
      exact hlt
  rcases acquire_outcome settings s symbol context now loopOpen with
    ⟨hlt, hrefused⟩ | ⟨hnot, hclosed | ⟨access, hyielded⟩⟩
  · rw [hrefused]
    exact h.concat _ (streak_concat ..) (windowEnd_concat ..)
      ((refreshes_concat ..).trans (append_nil _))
      (hwithin _ ⟨fun _ => hlt, fun _ => rfl⟩)
  · rw [hclosed]
    exact h.concat _ (streak_concat ..) (windowEnd_concat ..)
      ((refreshes_concat ..).trans (append_nil _))
      (hwithin _ ⟨nofun, fun hlt => absurd hlt hnot⟩)
  · rw [hyielded]
    exact h.concat _ (streak_concat ..) (windowEnd_concat ..)
      ((refreshes_concat ..).trans (append_nil _))
      (hwithin _ ⟨nofun, fun hlt => absurd hlt hnot⟩)

/-! ### The registry -/

/-- The registry is small, and what it holds for a task will be released. -/
structure Registered (settings : Settings) (s : Contexts Task Obj Symbol) : Prop where
  bounded : s.entries.size ≤ settings.maxContexts
  owned : ∀ owner symbol, s.entries.get? (.task owner, symbol) ≠ none →
    owner ∈ s.watching ∨ owner ∈ s.watched ∨ owner ∈ s.releasing
  alive : ∀ owner ∈ s.watched, owner ∉ s.ended

theorem registered_start (first : ℚ) :
    Registered settings (start first : Contexts Task Obj Symbol) :=
  ⟨Nat.zero_le _, fun _ _ hentry => absurd rfl hentry, fun _ howner => absurd howner not_mem_nil⟩

variable (settings) in
/-- What is kept is the new entry, or was there before; and there is not too much of it. -/
theorem keep_entries (s : Contexts Task Obj Symbol) (key : Context Task Obj × Symbol)
    (access : ℕ) : (keep settings s key access).entries.size ≤ settings.maxContexts ∧
      ∀ other, (keep settings s key access).entries.get? other ≠ none →
        other = key ∨ s.entries.get? other ≠ none := by
  have hset : ∀ other, (s.entries.setLast key access).get? other ≠ none →
      other = key ∨ s.entries.get? other ≠ none := by
    intro other hother
    rw [get?_setLast] at hother
    by_cases hsame : other = key
    · exact Or.inl hsame
    · rw [if_neg hsame] at hother
      exact Or.inr hother
  obtain ⟨hentries, hfull⟩ := @evict_spec (Context Task Obj × Symbol) ℕ Unit
    (fun entries _ => settings.maxContexts < entries.size) (fun _ _ => ())
    (fun entries _ => ∀ other, entries.get? other ≠ none →
      other = key ∨ s.entries.get? other ≠ none)
    (by
      intro entries _ item rest hitems hkeep other hother
      rw [get?_tail hitems] at hother
      by_cases hsame : other = item.1
      · rw [if_pos hsame] at hother
        exact absurd rfl hother
      · rw [if_neg hsame] at hother
        exact hkeep other hother)
    (by
      intro entries _ hitems _
      rw [Dict.size, hitems]
      exact decide_eq_false (Nat.not_lt_zero _)) _ () hset
  exact ⟨not_lt.mp (of_decide_eq_false hfull), hentries⟩

theorem release_entries (s : Contexts Task Obj Symbol) (owner : Task) :
    (release s owner).entries.size ≤ s.entries.size ∧
      ∀ key, (release s owner).entries.get? key ≠ none →
        key.1 ≠ .task owner ∧ s.entries.get? key ≠ none := by
  refine ⟨size_foldl_pop_le _ _, fun key hkey => ?_⟩
  have hget := get?_foldl_pop
    (s.entries.keys.filter fun key => key.1 = .task owner) s.entries key
  unfold release at hkey
  rw [hget] at hkey
  split at hkey
  · exact absurd rfl hkey
  · rename_i hkept
    refine ⟨fun hof => hkept (mem_filter.mpr ⟨?_, decide_eq_true hof⟩), hkey⟩
    by_contra hgone
    exact hkey (get?_eq_none.mpr hgone)

/-- What leaves the registry alone leaves it as it should be. -/
theorem Registered.frame (h : Registered settings s) (hentries : s'.entries = s.entries)
    (hwatching : s'.watching = s.watching) (hwatched : s'.watched = s.watched)
    (hreleasing : s'.releasing = s.releasing) (hended : s'.ended = s.ended) :
    Registered settings s' := by
  refine ⟨hentries ▸ h.bounded, fun owner symbol hentry => ?_, fun owner howner => ?_⟩
  · rw [hwatching, hwatched, hreleasing]
    exact h.owned owner symbol (hentries ▸ hentry)
  · rw [hended]
    exact h.alive owner (hwatched ▸ howner)

omit [DecidableEq Task] [DecidableEq Obj] [DecidableEq Symbol] in
variable (settings) in
theorem noteIdentityMetadataUnavailable_frame (s : Contexts Task Obj Symbol)
    (random now later : ℚ) (hookRaises : Bool) :
    let s' := (noteIdentityMetadataUnavailable settings s random now later hookRaises).2
    s'.entries = s.entries ∧ s'.watching = s.watching ∧ s'.watched = s.watched ∧
      s'.releasing = s.releasing ∧ s'.ended = s.ended := by
  rw [noteIdentityMetadataUnavailable_eq]
  dsimp only
  split
  · rcases refreshSession_cases settings
      { s with
        consecutiveFailures := s.consecutiveFailures + 1
        backoffUntil :=
          now + jittered settings (meantWindow settings (s.consecutiveFailures + 1)) random } later
      with hrefresh | ⟨hrefresh, -⟩
    · rw [hrefresh]
      exact ⟨rfl, rfl, rfl, rfl, rfl⟩
    · rw [hrefresh]
      exact ⟨rfl, rfl, rfl, rfl, rfl⟩
  · exact ⟨rfl, rfl, rfl, rfl, rfl⟩

section

variable (h : Registered settings s)
include h

/-- An access that is kept for a task is watched. -/
theorem Registered.keep (key : Context Task Obj × Symbol)
    (access : ℕ) (howned : ∀ owner, key.1 = .task owner →
      owner ∈ s.watching ∨ owner ∈ s.watched ∨ owner ∈ s.releasing) :
    Registered settings (YahooTickerContexts.keep settings s key access) := by
  obtain ⟨hbounded, hentries⟩ := keep_entries settings s key access
  refine ⟨hbounded, fun owner symbol hentry => ?_, h.alive⟩
  rcases hentries _ hentry with hsame | hold
  · exact howned owner (congrArg Prod.fst hsame).symm
  · exact h.owned owner symbol hold

theorem Registered.acquire (symbol : Symbol)
    (context : Option (Context Task Obj)) (now : ℚ) (loopOpen : Bool) :
    Registered settings (acquire settings s symbol context now loopOpen).2 := by
  unfold YahooTickerContexts.acquire
  split
  · exact h
  · split
    · exact h.frame rfl rfl rfl rfl rfl
    · rename_i context _
      split
      · rename_i access hfound
        refine h.keep _ access fun owner howner => h.owned owner symbol ?_
        rw [← howner, hfound]
        exact some_ne_none access
      · split
        · exact h
        · cases context with
          | task owner =>
            have hmade : Registered settings { watch s (.task owner) with made := s.made + 1 } :=
              ⟨h.bounded, fun other symbol hentry =>
                (h.owned other symbol hentry).imp_left (mem_cons_of_mem owner), h.alive⟩
            refine hmade.keep (.task owner, symbol) s.made fun other hother => ?_
            cases hother
            exact Or.inl mem_cons_self
          | object other =>
            have hmade : Registered settings { watch s (.object other) with made := s.made + 1 } :=
              h.frame rfl rfl rfl rfl rfl
            refine hmade.keep (.object other, symbol) s.made fun owner howner => ?_
            cases howner

theorem Registered.taskEnds (owner : Task) : Registered settings (taskEnds s owner) := by
  refine ⟨h.bounded, fun other symbol hentry => ?_, fun other hother => ?_⟩
  · rcases h.owned other symbol hentry with hwatching | hwatched | hreleasing
    · exact Or.inl hwatching
    · refine Or.inr ?_
      by_cases hsame : other = owner
      · exact Or.inr (mem_append_right _ (mem_filter.mpr ⟨hwatched, decide_eq_true hsame⟩))
      · exact Or.inl (mem_filter.mpr ⟨hwatched, decide_eq_true hsame⟩)
    · exact Or.inr (Or.inr (mem_append_left _ hreleasing))
  · obtain ⟨hwatched, hne⟩ := mem_filter.mp hother
    intro hended
    rcases mem_cons.mp hended with hsame | hold
    · exact of_decide_eq_true hne hsame
    · exact h.alive other hwatched hold

/-- Nothing is left of a task whose entries were released. -/
theorem Registered.release (owner : Task)
    (hwatching : ∀ other ≠ owner, other ∈ s.watching → other ∈ s'.watching)
    (hwatched : s'.watched = s.watched) (hended : s'.ended = s.ended)
    (hreleasing : ∀ other ≠ owner, other ∈ s.releasing → other ∈ s'.releasing)
    (hentries : s'.entries = s.entries) :
    Registered settings (YahooTickerContexts.release s' owner) := by
  obtain ⟨hsize, hkept⟩ := release_entries s' owner
  refine ⟨hsize.trans (hentries ▸ h.bounded), fun other symbol hentry => ?_, ?_⟩
  · obtain ⟨hne, hold⟩ := hkept _ hentry
    have hother : other ≠ owner := fun hsame => hne (congrArg Context.task hsame)
    rw [hentries] at hold
    show other ∈ s'.watching ∨ other ∈ s'.watched ∨ other ∈ s'.releasing
    rw [hwatched]
    exact (h.owned other symbol hold).imp (hwatching other hother)
      (Or.imp_right (hreleasing other hother))
  · show ∀ other ∈ s'.watched, other ∉ s'.ended
    rw [hwatched, hended]
    exact h.alive

theorem Registered.watchOwner (owner : Task) : Registered settings
      (watchOwner { s with watching := s.watching.erase owner } owner) := by
  unfold YahooTickerContexts.watchOwner
  split
  · exact h.release owner (fun other hne hin => (mem_erase_of_ne hne).mpr hin) rfl rfl
      (fun _ _ hin => hin) rfl
  · rename_i halive
    refine ⟨h.bounded, fun other symbol hentry => ?_, fun other hother => ?_⟩
    · by_cases hsame : other = owner
      · exact Or.inr (Or.inl (hsame ▸ mem_cons_self))
      · exact (h.owned other symbol hentry).imp (mem_erase_of_ne hsame).mpr
          (Or.imp_left (mem_cons_of_mem owner))
    · rcases mem_cons.mp hother with hsame | hold
      · exact hsame ▸ halive
      · exact h.alive other hold

theorem Registered.releaseOwner (owner : Task) : Registered settings
      (YahooTickerContexts.release { s with releasing := s.releasing.erase owner } owner) :=
  h.release owner (fun _ _ hin => hin) rfl rfl (fun _ hne hin => (mem_erase_of_ne hne).mpr hin) rfl

end

/-! ### Runs -/

/-- Every call keeps what the log says, and what the registry owes. -/
theorem exec_keeps {call : Call Task Obj Symbol} {outcome : Outcome}
    (hexec : exec settings s call = some (outcome, s')) (hlogged : Logged settings log s)
    (hregistered : Registered settings s) :
    Logged settings (log ++ [(call, outcome)]) s' ∧ Registered settings s' := by
  cases call with
  | unavailable random now later hookRaises =>
    rw [exec, ite_none_right_eq_some] at hexec
    obtain ⟨hguard, hsame⟩ := hexec
    have hpair := some.inj hsame
    have houtcome := congrArg Prod.fst hpair
    have hstate := congrArg Prod.snd hpair
    dsimp only at houtcome hstate
    obtain ⟨hentries, hwatching, hwatched, hreleasing, hended⟩ :=
      noteIdentityMetadataUnavailable_frame settings { s with clock := later } random
        now later hookRaises
    rw [← houtcome, ← hstate]
    have hclock : Logged settings log { s with clock := later } := hlogged.frame rfl rfl rfl
    exact ⟨hclock.unavailable hguard.1 hguard.2.1 now later hookRaises,
      hregistered.frame hentries hwatching hwatched hreleasing hended⟩
  | available =>
    cases hexec
    exact ⟨hlogged.available, hregistered.frame rfl rfl rfl rfl rfl⟩
  | acquire symbol context now loopOpen =>
    rw [exec, ite_none_right_eq_some] at hexec
    obtain ⟨-, hsame⟩ := hexec
    have hpair := some.inj hsame
    have houtcome := congrArg Prod.fst hpair
    have hstate := congrArg Prod.snd hpair
    dsimp only at houtcome hstate
    rw [← houtcome, ← hstate]
    have hclock : Logged settings log { s with clock := now } := hlogged.frame rfl rfl rfl
    have hrows : Registered settings { s with clock := now } :=
      hregistered.frame rfl rfl rfl rfl rfl
    exact ⟨hclock.acquire symbol context now loopOpen, hrows.acquire symbol context now loopOpen⟩
  | taskEnds owner =>
    rw [exec, ite_none_left_eq_some] at hexec
    obtain ⟨-, hsame⟩ := hexec
    cases hsame
    refine ⟨?_, hregistered.taskEnds owner⟩
    exact (hlogged.concat _ (streak_concat ..) (windowEnd_concat ..)
      ((refreshes_concat ..).trans (append_nil _)) Iff.rfl).frame rfl rfl rfl
  | watchOwner owner =>
    rw [exec, ite_none_right_eq_some] at hexec
    obtain ⟨-, hsame⟩ := hexec
    cases hsame
    refine ⟨?_, hregistered.watchOwner owner⟩
    refine (hlogged.concat _ (streak_concat ..) (windowEnd_concat ..)
      ((refreshes_concat ..).trans (append_nil _)) Iff.rfl).frame ?_ ?_ ?_
    all_goals
      unfold YahooTickerContexts.watchOwner
      split
      all_goals rfl
  | releaseOwner owner =>
    rw [exec, ite_none_right_eq_some] at hexec
    obtain ⟨-, hsame⟩ := hexec
    cases hsame
    refine ⟨?_, hregistered.releaseOwner owner⟩
    exact (hlogged.concat _ (streak_concat ..) (windowEnd_concat ..)
      ((refreshes_concat ..).trans (append_nil _)) Iff.rfl).frame rfl rfl rfl

/-- **The backoff of the session.**  A run keeps what is promised of each call exactly where every
call comes as the promise permits: reports open a window of the meant length, and acquisitions are
refused within the window and only there.  In every run the hook runs at most once in a cooldown,
the registry holds no more than it may, and nothing of a task that ended once its callbacks ran. -/
theorem backoff_sound {first : ℚ} {trace : List (Event Task Obj Symbol)}
    (hrun : (machine settings first).Run (start first) trace s) :
    (Always (Kept settings) trace ↔ Always Permits trace) ∧
      ((refreshes trace).Pairwise fun earlier later =>
        settings.cooldownSeconds ≤ later - earlier) ∧
      s.entries.size ≤ settings.maxContexts ∧
      ∀ owner ∈ s.ended, owner ∉ s.watching → owner ∉ s.releasing →
        ∀ symbol, s.entries.get? (.task owner, symbol) = none := by
  have hkeeps := hrun.logged (I := fun log s => Logged settings log s ∧ Registered settings s)
    (fun past s call s' h hstep => exec_keeps hstep h.1 h.2)
    ⟨logged_start first, registered_start first⟩
  rw [List.nil_append] at hkeeps
  obtain ⟨hlogged, hregistered⟩ := hkeeps
  refine ⟨?_, hlogged.spaced, hregistered.bounded, fun owner hended hwatching hreleasing symbol => ?_⟩
  · constructor
    · intro hkept past event rest htrace
      exact (hlogged.rule past event rest htrace).mp (hkept past event rest htrace)
    · intro hpermits past event rest htrace
      exact (hlogged.rule past event rest htrace).mpr (hpermits past event rest htrace)
  · by_contra hentry
    rcases hregistered.owned owner symbol hentry with hin | hwatched | hin
    · exact hwatching hin
    · exact hregistered.alive owner hwatched hended
    · exact hreleasing hin

end

/-! ### Where the backoff ends -/

/-- The object as the provider makes it. -/
def yahooSettings : Settings where
  maxContexts := 64
  hooked := true
  cooldownSeconds := 60
  backoffMaxSeconds := 900
  jitterFraction := 1 / 5
  cooldown_pos := by norm_num
  backoffMax_pos := by norm_num
  jitter_nonneg := by norm_num
  jitter_le_one := by norm_num

/-- A report when the clock shows zero. -/
def earlyReport : Call ℕ ℕ ℕ := .unavailable (1 / 2) 0 0 false

/-- A report, an acquisition within its window, and one after it. -/
def sampleCalls : List (Call ℕ ℕ ℕ) :=
  [.unavailable (1 / 2) 5 5 false, .acquire 7 (some (.task 1)) 60 true,
    .acquire 7 (some (.task 1)) 70 true]

theorem backoff_sound_sample : ∃ trace, ∃ s : Contexts ℕ ℕ ℕ,
    (machine yahooSettings 0).Run (start 0) trace s ∧
      trace.map Prod.snd = [.reported 65 (some 5) true, .refused, .yielded 0] ∧
      s.entries.size ≤ 64 := by
  have hanswers : (Machine.replay (exec yahooSettings) (start 0) sampleCalls).map
      (fun result => result.1.map Prod.snd) =
        some [.reported 65 (some 5) true, .refused, .yielded 0] := by decide +kernel
  obtain ⟨result, hreplay, houtcomes⟩ := Option.map_eq_some_iff.mp hanswers
  have hrun : (machine yahooSettings 0).Run (start 0) result.1 result.2 :=
    Machine.replay_run hreplay
  exact ⟨result.1, result.2, hrun, houtcomes, (backoff_sound hrun).2.2.1⟩

/-- So many reports come in a row without an error. -/
theorem exists_reports {n : ℕ} (hn : n ≤ 1024) : ∃ trace, ∃ s : Contexts ℕ ℕ ℕ,
    (machine yahooSettings 0).Run (start 0) trace s ∧ trace.map Prod.fst = replicate n earlyReport ∧
      s.consecutiveFailures = n ∧ s.clock = 0 := by
  induction n with
  | zero => exact ⟨[], start 0, Machine.Run.nil _, rfl, rfl, rfl⟩
  | succ n ih =>
    obtain ⟨trace, s, hrun, hcalls, hcount, hclock⟩ := ih (by omega)
    have hexec : exec yahooSettings s earlyReport = some (noteIdentityMetadataUnavailable
        yahooSettings { s with clock := 0 } (1 / 2) 0 0 false) := by
      rw [earlyReport, exec, if_pos]
      rw [hclock]
      norm_num
    have hmany : s.consecutiveFailures < 1024 := by omega
    rw [noteIdentityMetadataUnavailable_eq] at hexec
    dsimp only at hexec
    rw [if_pos hmany] at hexec
    have hstep : (machine yahooSettings 0).step s (earlyReport, _) _ := hexec
    refine ⟨_, _, hrun.append (Machine.Run.cons hstep (Machine.Run.nil _)), ?_, ?_, ?_⟩
    · rw [map_append, hcalls, replicate_succ']
      rfl
    all_goals
      rcases refreshSession_cases yahooSettings
        { s with
          clock := 0
          consecutiveFailures := s.consecutiveFailures + 1
          backoffUntil :=
            0 + jittered yahooSettings (meantWindow yahooSettings (s.consecutiveFailures + 1))
              (1 / 2) } 0 with hrefresh | ⟨hrefresh, -⟩
    · rw [hrefresh, hcount]
    · rw [hrefresh, hcount]
    · rw [hrefresh]
    · rw [hrefresh]

/-- The report after 1024 others raises, as the power of two is no float. -/
theorem long_outage_overflows : ∃ trace, ∃ s : Contexts ℕ ℕ ℕ,
    (machine yahooSettings 0).Run (start 0) (trace ++ [(earlyReport, .overflow)]) s ∧
      trace.map Prod.fst = List.replicate 1024 earlyReport := by
  obtain ⟨trace, s, hrun, hcalls, hcount, hclock⟩ := exists_reports (Nat.le_refl 1024)
  have hexec : exec yahooSettings s earlyReport = some (noteIdentityMetadataUnavailable
      yahooSettings { s with clock := 0 } (1 / 2) 0 0 false) := by
    rw [earlyReport, exec, if_pos]
    rw [hclock]
    norm_num
  have hmany : ¬ s.consecutiveFailures < 1024 := by omega
  rw [noteIdentityMetadataUnavailable_eq] at hexec
  dsimp only at hexec
  rw [if_neg hmany] at hexec
  have hstep : (machine yahooSettings 0).step s (earlyReport, _) _ := hexec
  exact ⟨trace, _, hrun.append (Machine.Run.cons hstep (Machine.Run.nil _)), hcalls⟩

end InvestmentPlatform.Market.YahooTickerContexts
