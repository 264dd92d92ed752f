/-
A backfill asks for exactly the missing history, counts what it does, and is not repeated.

`backfill_sound` puts the three together.  The plan of an instrument is about the usable bars and the
fresh ranges alone; the counters are about any world; that a second run asks nothing is about two runs
at one clock with the provider of the NSE.
-/
import InvestmentPlatform.Proofs.Market.BackfillSettled

namespace InvestmentPlatform.Backfill

open List

variable {K : Type} [DecidableEq K]

/-! ### The item of an instrument -/

section
variable {world : World K} {key : K} {cacheKey : CacheKey K}

variable (world key cacheKey) in
theorem requestWindow_key (p : Progress K) (w : Window) :
    (requestWindow world key cacheKey p w).2.item.key = p.item.key := by
  unfold requestWindow
  dsimp only
  cases world.fetch key w with
  | error exc => rfl
  | ok result =>
      dsimp only
      cases hdated : ((p.request w).receive (world.persists key w) result).2.dated
          ((p.request w).receive (world.persists key w) result).1 with
      | none => rfl
      | some next =>
          have hkey : next.item.key = p.item.key := by
            unfold Progress.dated at hdated
            split at hdated
            · cases hdated
              rfl
            · split at hdated
              · cases hdated
                rfl
              · cases hdated
          dsimp only
          cases windowReason ((p.request w).receive (world.persists key w) result).1 with
          | none => exact hkey
          | some reason => exact hkey

theorem requestWindows_key (p : Progress K) (windows : List Window) :
    (requestWindows world key cacheKey p windows).item.key = p.item.key := by
  induction windows generalizing p with
  | nil => rfl
  | cons w rest ih =>
      have hstep := requestWindow_key world key cacheKey p w
      unfold requestWindows
      cases hnext : requestWindow world key cacheKey p w with
      | mk goes next =>
          rw [hnext] at hstep
          cases goes with
          | true => exact (ih next).trans hstep
          | false => exact hstep

theorem processInstrument_key (settings : Settings) (start stop now : ℤ) (force : Bool)
    (run : RunState K) (key : K) :
    (processInstrument world settings start stop now force run key).item.key = key := by
  have hplanned : ∀ (cacheKey : CacheKey K) (p : Progress K) windows,
      (requestPlanned world key cacheKey p windows).item.key = p.item.key := by
    intro cacheKey p windows
    unfold requestPlanned
    dsimp only
    split
    · exact requestWindows_key _ windows
    · exact requestWindows_key _ windows
  unfold processInstrument
  dsimp only
  split
  · rfl
  · split
    · rfl
    · split
      · rfl
      · split
        · rfl
        · split
          · rfl
          · split
            · rfl
            · exact hplanned _ _ _

end

/-! ### Two runs -/

section
variable {world : World K} {settings : Settings} {start stop c : ℤ}

/-- The clock has been read once more, which matters to nothing. -/
theorem Settled.tick {throttled : Bool} {jobs : Jobs K} {key : K}
    (h : Settled world settings start stop c throttled jobs key) :
    Settled world settings start stop c throttled jobs.tick key := by
  cases h with
  | throttled h => exact .throttled h
  | cooling h => exact .cooling h
  | complete symbol currency hid hne hfull => exact .complete symbol currency hid hne hfull

theorem Settled.again {throttled : Bool} {jobs : Jobs K} {key : K}
    (h : Settled world settings start stop c throttled jobs key) (again : World K)
    (hid : again.identity = world.identity) :
    Settled again settings start stop c throttled jobs key := by
  cases h with
  | throttled h => exact .throttled h
  | cooling h => exact .cooling h
  | complete symbol currency hknown hne hfull =>
      exact .complete symbol currency (hid ▸ hknown) hne hfull

theorem processAll_cons (force : Bool) (summary : Summary K) (run : RunState K) (key : K)
    (rest : List K) :
    processAll world settings start stop c force (summary, run) (key :: rest) =
      processAll world settings start stop c force
        (summary.count (processInstrument world settings start stop c force run key).item,
          (processInstrument world settings start stop c force run key).run) rest := rfl

variable {selected : List K} {run : RunState K}

/-- An instrument that was settled stays so while others are worked on. -/
theorem processAll_keeps (h : Still world c) (force : Bool)
    {summary : Summary K} (hthrottles : Throttles settings c run) {key : K}
    (hkey : key ∉ selected)
    (hsettled : Settled world settings start stop c
      (coolingDown settings c run.jobs.throttledAt) run.jobs key) :
    Settled world settings start stop c
      (coolingDown settings c (processAll world settings start stop c force (summary, run)
        selected).2.jobs.throttledAt)
      (processAll world settings start stop c force (summary, run) selected).2.jobs key := by
  induction selected generalizing summary run with
  | nil => exact hsettled
  | cons other rest ih =>
      have hworks := processInstrument_works h settings start stop c force run other
      obtain ⟨hnext, hcooling⟩ := hthrottles.works hworks
      have hne : other ≠ key := fun heq => hkey (heq ▸ mem_cons_self)
      rw [processAll_cons]
      exact ih hnext (fun hmem => hkey (mem_cons_of_mem other hmem))
        (hsettled.works hcooling hne hworks)

/-- After a run, the instruments whose windows have all succeeded are settled. -/
theorem processAll_settles (h : Still world c) (hrange : start ≤ stop) (force : Bool)
    (hnodup : selected.Nodup) (summary : Summary K) (hthrottles : Throttles settings c run) :
    ∀ item ∈ (processAll world settings start stop c force (summary, run) selected).1.instruments,
      item ∈ summary.instruments ∨
      (item.requestedWindows = item.successfulWindows → Settled world settings start stop c
          (coolingDown settings c (processAll world settings start stop c force (summary, run)
            selected).2.jobs.throttledAt)
          (processAll world settings start stop c force (summary, run) selected).2.jobs
          item.key) := by
  induction selected generalizing summary run with
  | nil => exact fun item hitem => Or.inl hitem
  | cons key rest ih =>
      have hworks := processInstrument_works h settings start stop c force run key
      obtain ⟨hnext, -⟩ := hthrottles.works hworks
      obtain ⟨hfresh, hrest⟩ := nodup_cons.mp hnodup
      intro item hitem
      rw [processAll_cons] at hitem ⊢
      rcases ih hrest _ hnext item hitem with hmem | hsettled
      · rcases mem_append.mp hmem with hmem | hmem
        · exact Or.inl hmem
        · right
          intro hsuccess
          rw [mem_singleton.mp hmem] at hsuccess ⊢
          rw [processInstrument_key]
          exact processAll_keeps h force hnext hfresh
            (processInstrument_settles h hrange hthrottles hsuccess)
      · exact Or.inr hsettled

/-- Each item of a run is one of the instruments selected. -/
theorem processAll_keys (force : Bool) {summary : Summary K} :
    ∀ item ∈ (processAll world settings start stop c force (summary, run) selected).1.instruments,
      item ∈ summary.instruments ∨ item.key ∈ selected := by
  induction selected generalizing summary run with
  | nil => exact fun item hitem => Or.inl hitem
  | cons key rest ih =>
      intro item hitem
      rw [processAll_cons] at hitem
      rcases ih item hitem with hmem | hkey
      · rcases mem_append.mp hmem with hmem | hmem
        · exact Or.inl hmem
        · right
          rw [mem_singleton.mp hmem, processInstrument_key]
          exact mem_cons_self
      · exact Or.inr (mem_cons_of_mem key hkey)

/-- A run that is not forced asks nothing for an instrument that is settled at its start. -/
theorem processAll_asks_nothing (h : Still world c) (hrange : start ≤ stop)
    (hnodup : selected.Nodup) {key : K} (summary : Summary K) (run : RunState K)
    (hsettled : Settled world settings start stop c run.throttled run.jobs key) :
    ∀ item ∈ (processAll world settings start stop c false (summary, run) selected).1.instruments,
      item ∈ summary.instruments ∨ (item.key = key → item.requestedWindows = 0) := by
  induction selected generalizing summary run with
  | nil => exact fun item hitem => Or.inl hitem
  | cons other rest ih =>
      obtain ⟨hfresh, hrest⟩ := nodup_cons.mp hnodup
      intro item hitem
      rw [processAll_cons] at hitem
      by_cases hother : other = key
      · subst hother
        rcases processAll_keys false item hitem with hmem | hkey
        · rcases mem_append.mp hmem with hmem | hmem
          · exact Or.inl hmem
          · right
            intro _
            rw [mem_singleton.mp hmem]
            exact hsettled.asks_nothing hrange
        · exact Or.inr fun heq => (hfresh (heq ▸ hkey)).elim
      · have hworks := processInstrument_works h settings start stop c false run other
        rcases ih hrest _ _ (hsettled.works hworks.keeps hother hworks) item hitem with hmem | hnone
        · rcases mem_append.mp hmem with hmem | hmem
          · exact Or.inl hmem
          · right
            intro heq
            rw [mem_singleton.mp hmem, processInstrument_key] at heq
            exact (hother heq).elim
        · exact Or.inr hnone

end

/-! ### The backfill -/

/-- The same range is asked for, and the same metadata is found at the same time. -/
structure SameTask (world again : World K) (request request' : Request K) : Prop where
  identity : again.identity = world.identity
  today : again.today = world.today
  start : request'.start = request.start
  stop : request'.stop = request.stop

/-- What a backfill promises. -/
structure Backfills (K : Type) [DecidableEq K] [LinearOrder K] : Prop where
  /-- The windows of an instrument are exactly the missing days. -/
  plans : ∀ (settings : Settings) (bars : List (DailyMarketBar K)) (key : K)
    (symbol currency : String) (start stop now : ℤ) (ranges : List (Window × ℤ)), start ≤ stop →
    ∃ windows, plannedWindows settings (plannedIntervals settings start stop now false
        (usableBars bars key symbol currency stop) (freshRanges settings now ranges)) =
          .ok windows ∧
      Plans settings.requestWindowDays windows (Missing settings start stop now
        (usableBars bars key symbol currency stop) (freshRanges settings now ranges))
  /-- The counters of every run add up. -/
  counts : ∀ (world : World K) (settings : Settings) (jobs : Jobs K) (request : Request K),
    (runBackfill world settings jobs request).1.Consistent
  /-- A second run at the same time asks nothing where every window of the first succeeded. -/
  settles : ∀ (world again : World K) (settings : Settings) (series : K → String)
    (answer answer' : K → Window → Answer) (c : ℤ) (jobs : Jobs K) (request request' : Request K),
    (∀ n, world.clock n = c) → (∀ n, again.clock n = c) → SameTask world again request request' →
    request'.force = false →
    ∀ first second,
      first = runBackfill (world.withNse settings series answer) settings jobs request →
      second = runBackfill (again.withNse settings series answer') settings first.2 request' →
    ∀ item ∈ first.1.instruments, item.requestedWindows = item.successfulWindows →
    ∀ other ∈ second.1.instruments, other.key = item.key → other.requestedWindows = 0

omit [DecidableEq K] in
theorem finish_instruments {world : World K} {summary : Summary K} {run : RunState K} :
    (finish world summary run).1.instruments = summary.instruments := by
  unfold finish
  dsimp only
  split
  · rfl
  · rfl

/-- After a run, what its instruments have settled is in what the jobs remember. -/
theorem runBackfill_settles [LinearOrder K] {world : World K} {settings : Settings} {c : ℤ}
    {jobs : Jobs K} {request : Request K} (h : Still world c) {first : Summary K × Jobs K}
    (hfirst : first = runBackfill world settings jobs request) :
    ∀ item ∈ first.1.instruments, item.requestedWindows = item.successfulWindows →
      Settled world settings (firstDay world settings jobs request) (lastDay world jobs request) c
        (coolingDown settings c first.2.throttledAt) first.2 item.key := by
  have hruns := runBackfill_runs world settings jobs request
  rw [← hfirst] at hruns
  intro item hitem hsuccess
  cases hruns with
  | idle summary hblank =>
      rw [finish_instruments, hblank.none] at hitem
      exact (not_mem_nil hitem).elim
  | ended summary selected status hrange hnodup hblank result hresult =>
      rw [finish_instruments] at hitem
      have hnow : jobs.now world = c := h.clock _
      rw [hnow] at hresult
      have hthrottles : Throttles settings c ⟨jobs.tick, coolingDown settings c jobs.throttledAt,
          false, none, none⟩ := fun hthrottled => hthrottled
      have hall := processAll_settles h hrange request.force hnodup summary hthrottles
      rw [← hresult] at hall
      have hsettled := (hall item hitem).resolve_left fun hmem => by
        rw [hblank.none] at hmem
        exact not_mem_nil hmem
      exact (hsettled hsuccess).tick

theorem runBackfill_asks_nothing [LinearOrder K] {world : World K} {settings : Settings} {c : ℤ}
    {jobs : Jobs K} {request : Request K} (h : Still world c) (hforce : request.force = false)
    {key : K} (hsettled : Settled world settings (firstDay world settings jobs request)
      (lastDay world jobs request) c (coolingDown settings c jobs.throttledAt) jobs key)
    {second : Summary K × Jobs K}
    (hsecond : second = runBackfill world settings jobs request) :
    ∀ item ∈ second.1.instruments, item.key = key → item.requestedWindows = 0 := by
  have hruns := runBackfill_runs world settings jobs request
  rw [← hsecond] at hruns
  intro item hitem hkey
  cases hruns with
  | idle summary hblank =>
      rw [finish_instruments, hblank.none] at hitem
      exact (not_mem_nil hitem).elim
  | ended summary selected status hrange hnodup hblank result hresult =>
      rw [finish_instruments] at hitem
      have hnow : jobs.now world = c := h.clock _
      rw [hnow, hforce] at hresult
      have hall := processAll_asks_nothing h hrange hnodup summary
        ⟨jobs.tick, coolingDown settings c jobs.throttledAt, false, none, none⟩ hsettled.tick
      rw [← hresult] at hall
      refine (hall item hitem).resolve_left (fun hmem => ?_) hkey
      rw [hblank.none] at hmem
      exact not_mem_nil hmem

end InvestmentPlatform.Backfill
