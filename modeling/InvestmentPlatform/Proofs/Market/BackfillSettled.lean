/-
A backfill that went through is not repeated.

At a fixed clock, every instrument that a run has worked on is settled afterwards: it is cooling down
after a failure, or its history lacks no day that was not completed.  Work on other instruments leaves
it settled, and a settled instrument is asked nothing.
-/
import InvestmentPlatform.Proofs.Market.BackfillStore

namespace InvestmentPlatform.Backfill

open Spans List Function

variable {K : Type} [DecidableEq K]

/-- The clock stands still, and the provider's results are genuine. -/
structure Still (world : World K) (c : ℤ) : Prop where
  clock : ∀ n, world.clock n = c
  keyed : ∀ key w result, world.fetch key w = .ok result →
    ∀ b ∈ result.bars, b.globalInstrumentId = key
  genuine : ∀ key symbol currency w result, world.identity key = .ok (symbol, currency) →
    world.fetch key w = .ok result → Genuine key symbol currency w result

omit [DecidableEq K] in
theorem still_withNse {world : World K} {c : ℤ} (h : ∀ n, world.clock n = c)
    (settings : Settings) (series : K → String) (answer : K → Window → Answer) :
    Still (world.withNse settings series answer) c := by
  refine ⟨h, fun key w result hresult b hb => ?_, fun key symbol currency w result hid hresult => ?_⟩
  · cases hresult
    exact nseFetch_key w hb
  · cases hresult
    exact nseFetch_genuine hid w

/-! ### What the work on an instrument leaves alone -/

/-- The work on an instrument touches its own entries and the throttle. -/
structure Works (key : K) (c : ℤ) (run run' : RunState K) : Prop where
  failures : ∀ other, other ≠ key → run'.jobs.failures other = run.jobs.failures other
  completed : ∀ cacheKey : CacheKey K, cacheKey.1 ≠ key →
    run'.jobs.completed cacheKey = run.jobs.completed cacheKey
  bars : ∃ new : List (DailyMarketBar K), (∀ b ∈ new, b.globalInstrumentId = key) ∧
    run'.jobs.bars = new.foldl upsert run.jobs.bars
  throttledAt : run'.jobs.throttledAt = run.jobs.throttledAt ∨ run'.jobs.throttledAt = some c
  keeps : run.throttled = true → run'.throttled = true
  throttled : run'.throttled = true → run.throttled = true ∨ run'.jobs.throttledAt = some c

namespace Works

variable {key : K} {c : ℤ}

theorem refl (run : RunState K) : Works key c run run :=
  ⟨fun _ _ => rfl, fun _ _ => rfl, ⟨[], fun _ h => (not_mem_nil h).elim, rfl⟩, Or.inl rfl, id,
    Or.inl⟩

theorem trans {run run' run'' : RunState K} (h : Works key c run run')
    (h' : Works key c run' run'') : Works key c run run'' := by
  obtain ⟨new, hnew, hbars⟩ := h.bars
  obtain ⟨new', hnew', hbars'⟩ := h'.bars
  refine ⟨fun k hk => (h'.failures k hk).trans (h.failures k hk),
    fun k hk => (h'.completed k hk).trans (h.completed k hk), ⟨new ++ new', ?_, ?_⟩, ?_,
    fun hthrottled => h'.keeps (h.keeps hthrottled), ?_⟩
  · intro b hb
    rcases mem_append.mp hb with hb | hb
    · exact hnew b hb
    · exact hnew' b hb
  · rw [foldl_append, ← hbars, hbars']
  · rcases h'.throttledAt with hsame | hsome
    · rw [hsame]
      exact h.throttledAt
    · exact Or.inr hsome
  · intro hthrottled
    rcases h'.throttled hthrottled with hmid | hsome
    · rcases h.throttled hmid with hfirst | hsome
      · exact Or.inl hfirst
      · rcases h'.throttledAt with hsame | hsome'
        · exact Or.inr (hsame.trans hsome)
        · exact Or.inr hsome'
    · exact Or.inr hsome

end Works

section
variable {world : World K} {c : ℤ} {key : K} {cacheKey : CacheKey K}

variable (world) in
/-- A note of a failure touches the instrument's own entry. -/
theorem fail_works (run : RunState K) : Works key c run
    { run with jobs := run.jobs.fail world key } := by
  refine ⟨fun k hk => ?_, fun _ _ => rfl, ⟨[], fun _ h => (not_mem_nil h).elim, rfl⟩,
    Or.inl rfl, id, Or.inl⟩
  exact update_of_ne hk _ _

theorem windowFailed_works (h : Still world c) (p : Progress K) (w : Window)
    (httpStatus : Option Nat) (reason : String) :
    Works key c p.run (p.windowFailed world key w httpStatus reason).run := by
  refine (fail_works world p.run).trans ?_
  unfold Progress.windowFailed
  dsimp only
  by_cases hthrottle : within "429" reason = true
  · rw [if_pos hthrottle, hthrottle, Bool.or_true]
    have hnow : (p.jobs.fail world key).now world = c := h.clock _
    refine ⟨fun _ _ => rfl, fun _ _ => rfl, ⟨[], fun _ h => (not_mem_nil h).elim, rfl⟩,
      Or.inr (congrArg some hnow), fun _ => rfl, fun _ => Or.inr (congrArg some hnow)⟩
  · rw [if_neg hthrottle, Bool.eq_false_iff.mpr hthrottle, Bool.or_false]
    exact Works.refl _

theorem receive_works {result : NseHistoricalResult K}
    (hresult : ∀ b ∈ result.bars, b.globalInstrumentId = key) (p : Progress K) (persists : Bool) :
    Works key c p.run (p.receive persists result).2.run := by
  refine ⟨fun _ _ => rfl, fun _ _ => rfl, ?_, Or.inl rfl, id, Or.inl⟩
  show ∃ new, _ ∧ (persistDailyResult persists p.jobs.bars result).2 = _
  unfold persistDailyResult
  split
  · split
    · exact ⟨result.bars, hresult, rfl⟩
    · exact ⟨[], fun _ h => (not_mem_nil h).elim, rfl⟩
  · exact ⟨[], fun _ h => (not_mem_nil h).elim, rfl⟩

omit [DecidableEq K] in
theorem dated_run {p p' : Progress K} {result : NseHistoricalResult K}
    (h : p.dated result = some p') : p'.run = p.run ∧
      p'.item.failedWindows = p.item.failedWindows := by
  unfold Progress.dated at h
  split at h
  · cases h
    exact ⟨rfl, rfl⟩
  · split at h
    · cases h
      exact ⟨rfl, rfl⟩
    · cases h

/-- A window touches the instrument's own entries. -/
theorem requestWindow_works (h : Still world c) (hcache : cacheKey.1 = key) (p : Progress K)
    (w : Window) : Works key c p.run (requestWindow world key cacheKey p w).2.run := by
  have hrequest : Works key c p.run (p.request w).run :=
    ⟨fun _ _ => rfl, fun _ _ => rfl, ⟨[], fun _ h => (not_mem_nil h).elim, rfl⟩, Or.inl rfl,
      id, Or.inl⟩
  refine hrequest.trans ?_
  unfold requestWindow
  dsimp only
  cases hfetch : world.fetch key w with
  | error exc => exact fail_works world _
  | ok result =>
      dsimp only
      have hreceive := receive_works (c := c) (h.keyed key w result hfetch) (p.request w)
        (world.persists key w)
      refine hreceive.trans ?_
      cases hdated : ((p.request w).receive (world.persists key w) result).2.dated
          ((p.request w).receive (world.persists key w) result).1 with
      | none => exact fail_works world _
      | some next =>
          obtain ⟨hrun, -⟩ := dated_run hdated
          rw [← hrun]
          dsimp only
          cases windowReason ((p.request w).receive (world.persists key w) result).1 with
          | some reason => exact windowFailed_works h next w _ reason
          | none =>
              refine ⟨fun _ _ => rfl, fun k hk => ?_, ⟨[], fun _ h => (not_mem_nil h).elim, rfl⟩,
                Or.inl rfl, id, Or.inl⟩
              refine update_of_ne (fun heq => hk ?_) _ _
              rw [heq, hcache]

theorem requestWindows_works (h : Still world c) (hcache : cacheKey.1 = key) (p : Progress K)
    (windows : List Window) :
    Works key c p.run (requestWindows world key cacheKey p windows).run := by
  induction windows generalizing p with
  | nil => exact Works.refl _
  | cons w rest ih =>
      have hstep := requestWindow_works h hcache p w
      unfold requestWindows
      cases hnext : requestWindow world key cacheKey p w with
      | mk goes next =>
          rw [hnext] at hstep
          cases goes with
          | true => exact hstep.trans (ih next)
          | false => exact hstep

theorem requestPlanned_works (h : Still world c) (hcache : cacheKey.1 = key) (p : Progress K)
    (windows : List Window) :
    Works key c p.run (requestPlanned world key cacheKey p windows).run := by
  have hopen : Works key c p.run { p.run with opened := true } :=
    ⟨fun _ _ => rfl, fun _ _ => rfl, ⟨[], fun _ h => (not_mem_nil h).elim, rfl⟩, Or.inl rfl,
      id, Or.inl⟩
  have hloop := requestWindows_works h hcache { p with run := { p.run with opened := true } } windows
  refine (hopen.trans hloop).trans ?_
  unfold requestPlanned
  dsimp only
  split
  · refine ⟨fun k hk => ?_, fun _ _ => rfl, ⟨[], fun _ h => (not_mem_nil h).elim, rfl⟩,
      Or.inl rfl, id, Or.inl⟩
    exact update_of_ne hk _ _
  · exact Works.refl _

theorem processInstrument_works (h : Still world c) (settings : Settings) (start stop now : ℤ)
    (force : Bool) (run : RunState K) (key : K) :
    Works key c run (processInstrument world settings start stop now force run key).run := by
  unfold processInstrument
  dsimp only
  cases world.identity key with
  | error exc => exact fail_works world _
  | ok known =>
      dsimp only
      cases world.unreadable key with
      | some exc => exact fail_works world _
      | none =>
          have hfresh : ∀ fresh, Works key c run { run with jobs := { run.jobs with
              completed := update run.jobs.completed (key, known.1, known.2) fresh } } := by
            intro fresh
            refine ⟨fun _ _ => rfl, fun k hk => ?_, ⟨[], fun _ h => (not_mem_nil h).elim, rfl⟩,
              Or.inl rfl, id, Or.inl⟩
            refine update_of_ne (fun heq => hk ?_) _ _
            rw [heq]
          dsimp only
          refine (hfresh (freshRanges settings now
            (run.jobs.completed (key, known.1, known.2)))).trans ?_
          split
          · exact Works.refl _
          · split
            · exact Works.refl _
            · split
              · exact fail_works world _
              · split
                · exact fail_works world _
                · have hcache : ((key, known.1, known.2) : CacheKey K).1 = key := rfl
                  exact requestPlanned_works h hcache ⟨_, _⟩ _

end

/-! ### What windows that succeeded leave behind -/

/-- The windows are noted as completed, and their bars are stored. -/
structure Fetched (c : ℤ) (key : K) (symbol currency : String) (windows : List Window)
    (jobs jobs' : Jobs K) : Prop where
  completed : jobs'.completed (key, symbol, currency) =
    jobs.completed (key, symbol, currency) ++ windows.map fun w => (w, c)
  bars : ∃ new, jobs'.bars = new.foldl upsert jobs.bars ∧
    (∀ b ∈ new, ∃ w ∈ windows, InWindow key symbol currency w b) ∧ (windows ≠ [] → new ≠ [])

section
variable {world : World K} {c : ℤ} {key : K} {symbol currency : String}

theorem Fetched.cons {w : Window} {rest : List Window} {jobs jobs' jobs'' : Jobs K}
    (h : Fetched c key symbol currency [w] jobs jobs')
    (h' : Fetched c key symbol currency rest jobs' jobs'') :
    Fetched c key symbol currency (w :: rest) jobs jobs'' := by
  obtain ⟨new, hbars, hnew, hne⟩ := h.bars
  obtain ⟨new', hbars', hnew', -⟩ := h'.bars
  refine ⟨?_, new ++ new', ?_, fun b hb => ?_, fun _ => ?_⟩
  · rw [h'.completed, h.completed, List.append_assoc]
    rfl
  · rw [foldl_append, ← hbars, hbars']
  · rcases mem_append.mp hb with hb | hb
    · obtain ⟨v, hv, hin⟩ := hnew b hb
      exact ⟨v, mem_cons.mpr (Or.inl (mem_singleton.mp hv)), hin⟩
    · obtain ⟨v, hv, hin⟩ := hnew' b hb
      exact ⟨v, mem_cons_of_mem w hv, hin⟩
  · intro hnil
    exact hne (cons_ne_nil w []) (append_eq_nil_iff.mp hnil).1

/-- A window fails, and is counted so, or it is fetched. -/
theorem requestWindow_fetched (h : Still world c)
    (hid : world.identity key = .ok (symbol, currency)) (p : Progress K) (w : Window) :
    p.item.failedWindows <
        (requestWindow world key (key, symbol, currency) p w).2.item.failedWindows ∨
      (requestWindow world key (key, symbol, currency) p w).1 = true ∧
      (requestWindow world key (key, symbol, currency) p w).2.item.failedWindows =
        p.item.failedWindows ∧
      Fetched c key symbol currency [w] p.jobs
        (requestWindow world key (key, symbol, currency) p w).2.jobs := by
  unfold requestWindow
  dsimp only
  cases hfetch : world.fetch key w with
  | error exc => exact Or.inl (Nat.lt_succ_self _)
  | ok result =>
      dsimp only
      cases hdated : ((p.request w).receive (world.persists key w) result).2.dated
          ((p.request w).receive (world.persists key w) result).1 with
      | none => exact Or.inl (Nat.lt_succ_self _)
      | some next =>
          obtain ⟨hrun, hfailed⟩ := dated_run hdated
          have hsame : next.item.failedWindows = p.item.failedWindows := hfailed
          dsimp only
          cases hreason : windowReason ((p.request w).receive (world.persists key w) result).1 with
          | some reason =>
              left
              show p.item.failedWindows < next.item.failedWindows + 1
              omega
          | none =>
              right
              have hgenuine := h.genuine key symbol currency w result hid hfetch
              obtain ⟨hne, hstored⟩ := hgenuine.persisted hreason
              have hbars : next.jobs.bars = result.bars.foldl upsert p.jobs.bars := by
                show next.run.jobs.bars = _
                rw [hrun]
                exact hstored
              have hcompleted : next.jobs.completed = p.jobs.completed := by
                show next.run.jobs.completed = _
                rw [hrun]
                rfl
              refine ⟨rfl, hsame, ?_, result.bars, hbars, fun b hb => ?_, fun _ => hne⟩
              · show update next.jobs.completed (key, symbol, currency)
                  (next.jobs.completed (key, symbol, currency) ++ [(w, next.jobs.now world)])
                  (key, symbol, currency) = _
                rw [update_self, hcompleted]
                have hnow : next.jobs.now world = c := h.clock _
                rw [hnow]
                rfl
              · exact ⟨w, mem_singleton_self w, hgenuine.bars b hb⟩

theorem requestWindows_fetched (h : Still world c)
    (hid : world.identity key = .ok (symbol, currency)) (p : Progress K)
    (windows : List Window) :
    p.item.failedWindows <
        (requestWindows world key (key, symbol, currency) p windows).item.failedWindows ∨
      (requestWindows world key (key, symbol, currency) p windows).item.failedWindows =
        p.item.failedWindows ∧
      Fetched c key symbol currency windows p.jobs
        (requestWindows world key (key, symbol, currency) p windows).jobs := by
  induction windows generalizing p with
  | nil =>
      refine Or.inr ⟨rfl, (append_nil _).symm, [], rfl, fun _ hb => ?_, fun hne => (hne rfl).elim⟩
      exact (not_mem_nil hb).elim
  | cons w rest ih =>
      have hstep := requestWindow_fetched h hid p w
      unfold requestWindows
      cases hnext : requestWindow world key (key, symbol, currency) p w with
      | mk goes next =>
          rw [hnext] at hstep
          cases goes with
          | false =>
              left
              exact hstep.resolve_right fun hok => Bool.false_ne_true hok.1
          | true =>
              dsimp only at hstep ⊢
              rcases hstep with hfailed | ⟨-, hsame, hfetched⟩
              · rcases ih next with hrest | ⟨hrest, -⟩
                · exact Or.inl (hfailed.trans hrest)
                · left
                  rw [hrest]
                  exact hfailed
              · rcases ih next with hrest | ⟨hrest, hlater⟩
                · left
                  rw [← hsame]
                  exact hrest
                · exact Or.inr ⟨hrest.trans hsame, hfetched.cons hlater⟩

end

/-! ### What is missing afterwards -/

section
variable {settings : Settings} {start stop c : ℤ} {key : K} {symbol currency : String}
  {bars new : List (DailyMarketBar K)} {fresh : List (Window × ℤ)} {windows : List Window}

omit [DecidableEq K] in
/-- The windows of a plan, whether it was forced or not. -/
theorem plannedWindows_of (settings : Settings) (c : ℤ) (fresh : List (Window × ℤ)) (hrange : start ≤ stop) {rows : List (DailyMarketBar K)}
    (hrows : History stop rows) (force : Bool) :
    ∃ windows, plannedWindows settings
        (plannedIntervals settings start stop c force rows fresh) = .ok windows ∧
      (Plans settings.requestWindowDays windows (fun d => start ≤ d ∧ d ≤ stop) ∨
        force = false ∧ rows ≠ [] ∧
        Plans settings.requestWindowDays windows (Missing settings start stop c rows fresh)) := by
  have hwhole : Tidy [(start, stop)] := Tidy.single hrange
  have hcovers : ∀ d, Covers [(start, stop)] d ↔ start ≤ d ∧ d ≤ stop := by
    intro d
    rw [covers_cons]
    simp only [covers_nil, or_false]
  obtain ⟨whole, hok, hplans⟩ := plans_of_tidy hwhole settings
  have hplans' : Plans settings.requestWindowDays whole fun d => start ≤ d ∧ d ≤ stop :=
    ⟨hplans.ascending, hplans.short, fun d => (hplans.exact d).trans (hcovers d)⟩
  by_cases hnil : rows = []
  · subst hnil
    refine ⟨whole, ?_, Or.inl hplans'⟩
    have hplanned : plannedIntervals settings start stop c force ([] : List (DailyMarketBar K))
        fresh = [(start, stop)] := by
      unfold plannedIntervals
      rw [isEmpty_nil, Bool.not_true, Bool.and_false, if_neg Bool.false_ne_true]
      rfl
    rw [hplanned, hok]
  · cases force with
    | false =>
        obtain ⟨windows, hwindows, hmissing⟩ := plans_missing hrange hrows settings c fresh
        exact ⟨windows, hwindows, Or.inr ⟨rfl, hnil, hmissing⟩⟩
    | true =>
        refine ⟨whole, ?_, Or.inl hplans'⟩
        have hplanned : plannedIntervals settings start stop c true rows fresh =
            [(start, stop)] := by
          obtain ⟨first, last, hfirst, hlast⟩ := head?_isSome_iff_getLast?.mpr hnil
          unfold plannedIntervals coveragePlan
          rw [hfirst, hlast]
          rfl
        rw [hplanned, hok]

/-- The history with the new bars lacks no more days than it did. -/
theorem lacking_of_lacking (husable : ∀ b ∈ new, Usable key symbol currency stop b)
    (hnew : ∀ b ∈ new, Lacking settings start stop c (historyOf bars key symbol currency stop)
      b.tradingDate) {d : ℤ}
    (h : Lacking settings start stop c
      (historyOf (new.foldl upsert bars) key symbol currency stop) d) :
    Lacking settings start stop c (historyOf bars key symbol currency stop) d := by
  refine ⟨h.1, fun first hfirst last hlast => ?_⟩
  have hold := historyOf_history bars key symbol currency stop
  have hnow := historyOf_history (new.foldl upsert bars) key symbol currency stop
  have hfirstMem : first ∈ historyOf bars key symbol currency stop :=
    mem_of_mem_head? hfirst
  have hlastMem : last ∈ historyOf bars key symbol currency stop := mem_of_getLast? hlast
  obtain ⟨first', hfirst', hfirstDate⟩ := exists_in_history bars husable (Or.inl hfirstMem)
  obtain ⟨last', hlast', hlastDate⟩ := exists_in_history bars husable (Or.inl hlastMem)
  obtain ⟨head, tail, hhead, htail⟩ :=
    head?_isSome_iff_getLast?.mpr (ne_nil_of_mem hfirst')
  have hheadLe := (hnow.le hhead htail hfirst').1
  have htailLe := (hnow.le hhead htail hlast').2
  rcases h.2 head hhead tail htail with hd | ⟨hstale, hd⟩
  · left
    omega
  · by_cases hstaleOld : Stale (settings.freshnessHours * hour) c stop last
    · right
      refine ⟨hstaleOld, ?_⟩
      have hbound := hold.bounded last hlastMem
      omega
    · -- the new bars are all earlier than the first one, so the last one is the old one
      have hbefore : ∀ b ∈ new, b.tradingDate < first.tradingDate := by
        intro b hb
        exact ((hnew b hb).2 first hfirst last hlast).resolve_right fun hlate => hstaleOld hlate.1
      have hfrom := history_from key symbol currency stop bars hbefore
      have htailDay : first.tradingDate ≤ tail.tradingDate := by
        have hle := (hold.le hfirst hlast hlastMem).1
        omega
      have hlastDay : first.tradingDate ≤ last.tradingDate := (hold.le hfirst hlast hlastMem).1
      have hsame : tail = last := by
        have hnewLast := getLast?_filter (p := fun b => decide (first.tradingDate ≤ b.tradingDate))
          htail (decide_eq_true htailDay)
        have holdLast := getLast?_filter (p := fun b => decide (first.tradingDate ≤ b.tradingDate))
          hlast (decide_eq_true hlastDay)
        rw [hfrom, holdLast] at hnewLast
        exact (Option.some.inj hnewLast).symm
      exact (hstaleOld (hsame ▸ hstale)).elim

/-- After its windows have all succeeded nothing of an instrument is missing. -/
theorem nothing_missing (hrange : start ≤ stop) {force : Bool}
    (hplan : plannedWindows settings (plannedIntervals settings start stop c force
      (historyOf bars key symbol currency stop) fresh) = .ok windows)
    (hnew : ∀ b ∈ new, ∃ w ∈ windows, InWindow key symbol currency w b) (hne : new ≠ []) :
    historyOf (new.foldl upsert bars) key symbol currency stop ≠ [] ∧
    ∀ d, ¬ Missing settings start stop c
      (historyOf (new.foldl upsert bars) key symbol currency stop)
      (fresh ++ windows.map fun w => (w, c)) d := by
  obtain ⟨windows', hplan', hcases⟩ := plannedWindows_of settings c fresh hrange
    (historyOf_history bars key symbol currency stop) force
  have hwindows : windows = windows' := Except.ok.inj (hplan.symm.trans hplan')
  subst hwindows
  have hdays : ∀ w ∈ windows, w.last ≤ stop := by
    intro w hw
    have hin : ∃ v ∈ windows, v.first ≤ w.last ∧ w.last ≤ v.last :=
      ⟨w, hw, w.ordered, le_refl _⟩
    rcases hcases with hplans | ⟨-, -, hplans⟩
    · exact ((hplans.exact w.last).mp hin).2
    · exact ((hplans.exact w.last).mp hin).1.1.2
  have husable : ∀ b ∈ new, Usable key symbol currency stop b := by
    intro b hb
    obtain ⟨w, hw, hin⟩ := hnew b hb
    exact hin.usable stop (hdays w hw)
  have hhistory : historyOf (new.foldl upsert bars) key symbol currency stop ≠ [] := by
    obtain ⟨b, hb⟩ := exists_mem_of_ne_nil new hne
    obtain ⟨b', hmem, -⟩ := exists_in_history bars husable (Or.inr hb)
    exact ne_nil_of_mem hmem
  refine ⟨hhistory, fun d hd => ?_⟩
  obtain ⟨hlacking, hout⟩ := hd
  have hnot := hout hhistory
  have hnoWindow : ¬ ∃ w ∈ windows, w.first ≤ d ∧ d ≤ w.last := by
    rintro ⟨w, hw, hin⟩
    exact hnot ⟨(w, c), mem_append_right fresh (mem_map_of_mem hw), hin⟩
  rcases hcases with hplans | ⟨-, -, hplans⟩
  · exact hnoWindow ((hplans.exact d).mpr hlacking.1)
  · refine hnoWindow ((hplans.exact d).mpr ⟨?_, fun _ => ?_⟩)
    · refine lacking_of_lacking husable (fun b hb => ?_) hlacking
      obtain ⟨w, hw, hin⟩ := hnew b hb
      exact ((hplans.exact b.tradingDate).mp ⟨w, hw, hin.inside⟩).1
    · rintro ⟨r, hr, hin⟩
      exact hnot ⟨r, mem_append_left _ hr, hin⟩

end

/-! ### Settled instruments -/

/-- The instrument is not asked anything: the job is throttled, the instrument is cooling down, or
nothing of its history is missing. -/
inductive Settled (world : World K) (settings : Settings) (start stop c : ℤ) (throttled : Bool)
    (jobs : Jobs K) (key : K) : Prop where
  | throttled (h : throttled = true)
  | cooling (h : coolingDown settings c (jobs.failures key) = true)
  | complete (symbol currency : String) (hid : world.identity key = .ok (symbol, currency))
      (hne : historyOf jobs.bars key symbol currency stop ≠ [])
      (hfull : ∀ d, ¬ Missing settings start stop c (historyOf jobs.bars key symbol currency stop)
        (freshRanges settings c (jobs.completed (key, symbol, currency))) d)

section
variable {world : World K} {settings : Settings} {start stop c : ℤ} {key : K}

theorem coolingDown_self (settings : Settings) (c : ℤ) : coolingDown settings c (some c) = true := by
  have hpos := settings.cooldown_pos
  have hlt : c - c < (settings.retryCooldownHours : ℤ) * hour := by
    rw [Int.sub_self]
    unfold hour
    omega
  exact decide_eq_true hlt

theorem settled_of_fail (h : Still world c) (throttled : Bool) (jobs : Jobs K) :
    Settled world settings start stop c throttled (jobs.fail world key) key := by
  refine .cooling ?_
  show coolingDown settings c (update jobs.failures key (some (jobs.now world)) key) = true
  rw [update_self]
  have hnow : jobs.now world = c := h.clock _
  rw [hnow]
  exact coolingDown_self settings c

/-- Work on another instrument leaves an instrument settled. -/
theorem Settled.works {throttled throttled' : Bool} {run run' : RunState K}
    (h : Settled world settings start stop c throttled run.jobs key)
    (hthrottled : throttled = true → throttled' = true) {other : K} (hother : other ≠ key)
    (hworks : Works other c run run') :
    Settled world settings start stop c throttled' run'.jobs key := by
  cases h with
  | throttled h => exact .throttled (hthrottled h)
  | cooling h =>
      refine .cooling ?_
      rw [hworks.failures key (Ne.symm hother)]
      exact h
  | complete symbol currency hid hne hfull =>
      obtain ⟨new, hnew, hbars⟩ := hworks.bars
      have hhistory : historyOf run'.jobs.bars key symbol currency stop =
          historyOf run.jobs.bars key symbol currency stop := by
        unfold historyOf
        rw [hbars, filter_other hother hnew fun b hb => (of_decide_eq_true hb).1]
      refine .complete symbol currency hid ?_ ?_
      · rw [hhistory]
        exact hne
      · rw [hhistory, hworks.completed (key, symbol, currency) (Ne.symm hother)]
        exact hfull

omit [DecidableEq K] in
theorem isEmpty_of_not_covers {intervals : List Span} (h : Tidy intervals)
    (hnone : ∀ d, ¬ Covers intervals d) : intervals.isEmpty = true := by
  cases intervals with
  | nil => rfl
  | cons s rest =>
      exact (hnone s.1 ⟨s, mem_cons_self, le_refl _, h.nonempty s mem_cons_self⟩).elim

/-- A settled instrument is asked nothing. -/
theorem Settled.asks_nothing (hrange : start ≤ stop) {run : RunState K}
    (h : Settled world settings start stop c run.throttled run.jobs key) :
    (processInstrument world settings start stop c false run key).item.requestedWindows = 0 := by
  unfold processInstrument
  dsimp only
  cases hid : world.identity key with
  | error exc => rfl
  | ok known =>
      dsimp only
      cases world.unreadable key with
      | some exc => rfl
      | none =>
          dsimp only
          split
          · rfl
          · rename_i hgoes
            rw [Bool.or_eq_true, not_or] at hgoes
            cases h with
            | throttled h => exact (hgoes.1 h).elim
            | cooling h => exact (hgoes.2 h).elim
            | complete symbol currency hknown hne hfull =>
                rw [hknown] at hid
                cases hid
                obtain ⟨htidy, hcovers⟩ := plannedIntervals_spec settings c
                  hrange (historyOf_history run.jobs.bars key symbol currency stop)
                  (freshRanges settings c (run.jobs.completed (key, symbol, currency)))
                have hempty := isEmpty_of_not_covers htidy fun d hd => hfull d ((hcovers d).mp hd)
                split
                · rfl
                · rename_i hnot
                  exact (hnot hempty).elim

/-! ### The first run settles -/

/-- The run is throttled only after a failure that is not long ago. -/
def Throttles (settings : Settings) (c : ℤ) (run : RunState K) : Prop :=
  run.throttled = true → coolingDown settings c run.jobs.throttledAt = true

omit [DecidableEq K] in
theorem Throttles.works [DecidableEq K] {run run' : RunState K} (h : Throttles settings c run)
    (hworks : Works key c run run') :
    Throttles settings c run' ∧ (coolingDown settings c run.jobs.throttledAt = true →
      coolingDown settings c run'.jobs.throttledAt = true) := by
  have hkeeps : coolingDown settings c run.jobs.throttledAt = true →
      coolingDown settings c run'.jobs.throttledAt = true := by
    intro hcooling
    rcases hworks.throttledAt with hsame | hsome
    · rw [hsame]
      exact hcooling
    · rw [hsome]
      exact coolingDown_self settings c
  refine ⟨fun hthrottled => ?_, hkeeps⟩
  rcases hworks.throttled hthrottled with hbefore | hsome
  · exact hkeeps (h hbefore)
  · rw [hsome]
    exact coolingDown_self settings c

theorem freshRanges_freshRanges (settings : Settings) (c : ℤ) (ranges : List (Window × ℤ)) :
    freshRanges settings c (freshRanges settings c ranges) = freshRanges settings c ranges := by
  unfold freshRanges
  rw [filter_filter]
  simp only [Bool.and_self]

theorem freshRanges_completed (settings : Settings) (c : ℤ) (ranges : List (Window × ℤ))
    (windows : List Window) :
    freshRanges settings c (freshRanges settings c ranges ++ windows.map fun w => (w, c)) =
      freshRanges settings c ranges ++ windows.map fun w => (w, c) := by
  have hpos := settings.freshness_pos
  have hnow : freshRanges settings c (windows.map fun w => (w, c)) =
      windows.map fun w => (w, c) := by
    refine filter_eq_self.mpr fun r hr => ?_
    obtain ⟨w, -, rfl⟩ := mem_map.mp hr
    refine decide_eq_true ?_
    dsimp only
    rw [Int.sub_self]
    unfold hour
    omega
  have happend : ∀ a b : List (Window × ℤ), freshRanges settings c (a ++ b) =
      freshRanges settings c a ++ freshRanges settings c b := fun a b => filter_append a b
  rw [happend, freshRanges_freshRanges, hnow]

/-- The windows of an instrument, when none of them has failed. -/
theorem requestPlanned_settles (h : Still world c) {symbol currency : String}
    (hid : world.identity key = .ok (symbol, currency)) (hrange : start ≤ stop) {force : Bool}
    {p : Progress K} {ranges : List (Window × ℤ)} {windows : List Window}
    (hnone : p.item.failedWindows = 0)
    (hfresh : p.run.jobs.completed (key, symbol, currency) = freshRanges settings c ranges)
    (hplan : plannedWindows settings (plannedIntervals settings start stop c force
      (historyOf p.run.jobs.bars key symbol currency stop) (freshRanges settings c ranges)) =
        .ok windows) (hwindows : windows ≠ [])
    (hzero : (requestPlanned world key (key, symbol, currency) p windows).item.failedWindows = 0)
    (throttled : Bool) :
    Settled world settings start stop c throttled
      (requestPlanned world key (key, symbol, currency) p windows).run.jobs key := by
  have hloop := requestWindows_fetched h hid { p with run := { p.run with opened := true } } windows
  unfold requestPlanned at hzero ⊢
  dsimp only at hzero hloop ⊢
  generalize requestWindows world key (key, symbol, currency)
    { p with run := { p.run with opened := true } } windows = done at hloop hzero ⊢
  have hdone : done.item.failedWindows = 0 := by
    split at hzero
    · assumption
    · exact hzero
  rw [if_pos hdone]
  obtain ⟨-, hfetched⟩ := hloop.resolve_left (by rw [hnone, hdone]; exact Nat.lt_irrefl 0)
  obtain ⟨new, hbars, hnew, hne⟩ := hfetched.bars
  obtain ⟨hhistory, hfull⟩ := nothing_missing hrange hplan hnew (hne hwindows)
  have hbars' : done.run.jobs.bars = new.foldl upsert p.run.jobs.bars := hbars
  have hcompleted : done.run.jobs.completed (key, symbol, currency) =
      freshRanges settings c ranges ++ windows.map fun w => (w, c) := by
    rw [← hfresh]
    exact hfetched.completed
  refine .complete symbol currency hid ?_ ?_
  · show historyOf done.run.jobs.bars key symbol currency stop ≠ []
    rw [hbars']
    exact hhistory
  · show ∀ d, ¬ Missing settings start stop c
      (historyOf done.run.jobs.bars key symbol currency stop)
      (freshRanges settings c (done.run.jobs.completed (key, symbol, currency))) d
    rw [hbars', hcompleted, freshRanges_completed]
    exact hfull

omit [DecidableEq K] in
/-- Where a range is asked for, there is a window. -/
theorem windows_ne_nil (hrange : start ≤ stop) {rows : List (DailyMarketBar K)}
    (hrows : History stop rows) {force : Bool} {fresh : List (Window × ℤ)} {windows : List Window}
    (hplan : plannedWindows settings (plannedIntervals settings start stop c force rows fresh) =
      .ok windows)
    (hsome : ¬ (plannedIntervals settings start stop c force rows fresh).isEmpty = true) :
    windows ≠ [] := by
  rintro rfl
  obtain ⟨windows, hplan', hcases⟩ := plannedWindows_of settings c fresh hrange hrows force
  rw [hplan] at hplan'
  cases hplan'
  rcases hcases with hplans | ⟨hforce, -, hplans⟩
  · obtain ⟨w, hw, -⟩ := (hplans.exact start).mpr ⟨le_refl _, hrange⟩
    exact not_mem_nil hw
  · subst hforce
    obtain ⟨htidy, hcovers⟩ :=
      plannedIntervals_spec settings c hrange hrows fresh
    refine hsome (isEmpty_of_not_covers htidy fun d hd => ?_)
    obtain ⟨w, hw, -⟩ := (hplans.exact d).mpr ((hcovers d).mp hd)
    exact not_mem_nil hw

/-- Where no range is asked for, nothing is missing. -/
theorem settled_of_noIntervals {symbol currency : String}
    (hid : world.identity key = .ok (symbol, currency)) (hrange : start ≤ stop) (force : Bool)
    {jobs : Jobs K} {ranges : List (Window × ℤ)}
    (hempty : (plannedIntervals settings start stop c force
      (historyOf jobs.bars key symbol currency stop) (freshRanges settings c ranges)).isEmpty = true)
    (throttled : Bool)
    (hfresh : jobs.completed (key, symbol, currency) = freshRanges settings c ranges) :
    Settled world settings start stop c throttled jobs key := by
  have hnil := List.isEmpty_iff.mp hempty
  have hhistory := historyOf_history jobs.bars key symbol currency stop
  obtain ⟨windows, hplan, hcases⟩ := plannedWindows_of settings c
    (freshRanges settings c ranges) hrange hhistory force
  rw [hnil] at hplan
  cases hplan
  rcases hcases with hplans | ⟨-, hne, hplans⟩
  · obtain ⟨w, hw, -⟩ := (hplans.exact start).mpr ⟨le_refl _, hrange⟩
    exact (not_mem_nil hw).elim
  · refine .complete symbol currency hid hne fun d hd => ?_
    rw [hfresh, freshRanges_freshRanges] at hd
    obtain ⟨w, hw, -⟩ := (hplans.exact d).mpr hd
    exact (not_mem_nil hw).elim

/-- An instrument whose windows have all succeeded is settled. -/
theorem processInstrument_settles (h : Still world c) (hrange : start ≤ stop) {force : Bool}
    {run : RunState K} (hthrottles : Throttles settings c run)
    (hsuccess :
      (processInstrument world settings start stop c force run key).item.requestedWindows =
      (processInstrument world settings start stop c force run key).item.successfulWindows) :
    Settled world settings start stop c (coolingDown settings c
      (processInstrument world settings start stop c force run key).run.jobs.throttledAt)
      (processInstrument world settings start stop c force run key).run.jobs key := by
  have hbalanced := processInstrument_balanced world settings start stop c force run key
  have hzero :
      (processInstrument world settings start stop c force run key).item.failedWindows = 0 := by
    have hsum : _ = _ + _ := hbalanced
    omega
  clear hsuccess hbalanced
  unfold processInstrument at hzero ⊢
  dsimp only at hzero ⊢
  cases hid : world.identity key with
  | error exc => exact settled_of_fail h _ run.jobs
  | ok known =>
      obtain ⟨symbol, currency⟩ := known
      rw [hid] at hzero
      dsimp only at hzero ⊢
      cases hread : world.unreadable key with
      | some exc => exact settled_of_fail h _ run.jobs
      | none =>
          rw [hread] at hzero
          dsimp only at hzero ⊢
          have hhistory := historyOf_history run.jobs.bars key symbol currency stop
          obtain ⟨windows, hplan, -⟩ := plannedWindows_of settings c
            (freshRanges settings c (run.jobs.completed (key, symbol, currency))) hrange hhistory
            force
          by_cases hcool : (run.throttled || coolingDown settings c (run.jobs.failures key)) = true
          · rw [if_pos hcool]
            rcases Bool.or_eq_true_iff.mp hcool with hthrottled | hcooling
            · exact .throttled (hthrottles hthrottled)
            · exact .cooling hcooling
          · rw [if_neg hcool] at hzero ⊢
            by_cases hempty : (plannedIntervals settings start stop c force
                (usableBars (run.jobs.stored key stop) key symbol currency stop)
                (freshRanges settings c
                  (run.jobs.completed (key, symbol, currency)))).isEmpty = true
            · rw [if_pos hempty]
              refine settled_of_noIntervals hid hrange force ?_ _ (update_self _ _ _)
              exact hempty
            · rw [if_neg hempty] at hzero ⊢
              have hplanned : plannedWindows settings (plannedIntervals settings start stop c force
                  (usableBars (run.jobs.stored key stop) key symbol currency stop)
                  (freshRanges settings c (run.jobs.completed (key, symbol, currency)))) =
                    .ok windows := hplan
              rw [hplanned] at hzero ⊢
              dsimp only at hzero ⊢
              cases hprovider : (if run.opened = true then none else world.noProvider) with
              | some exc => exact settled_of_fail h _ _
              | none =>
                  rw [hprovider] at hzero
                  exact requestPlanned_settles h hid hrange rfl (update_self _ _ _) hplan
                    (windows_ne_nil hrange hhistory hplan hempty) hzero _

end

end InvestmentPlatform.Backfill
