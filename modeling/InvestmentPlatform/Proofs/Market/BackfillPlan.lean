/-
The windows that are planned for an instrument are the missing days.

The plan is a tidy list of ranges: one before the first bar, one after the last, and from those the
completed ranges taken out one by one.  Splitting it into windows keeps it tidy and covers the same
days.
-/
import InvestmentPlatform.Lib.Fallible
import InvestmentPlatform.Market.DailyBackfill

namespace InvestmentPlatform.Backfill

open Spans List
open Fallible

variable {K : Type} {settings : Settings} {start stop : ℤ} {now : ℤ}

/-! ### What is missing -/

/-- The history does not reach to the day, at its beginning or at its end. -/
def Lacking (settings : Settings) (start stop : ℤ) (now : ℤ)
    (rows : List (DailyMarketBar K)) (d : ℤ) : Prop :=
  (start ≤ d ∧ d ≤ stop) ∧ ∀ first ∈ rows.head?, ∀ last ∈ rows.getLast?,
    d < first.tradingDate ∨ Stale (settings.freshnessHours * hour) now stop last ∧
      (last.tradingDate < d ∨ d = stop ∧ last.tradingDate = stop)

/-- The day is in one of the ranges. -/
def InRanges (ranges : List (Window × ℤ)) (d : ℤ) : Prop :=
  ∃ r ∈ ranges, r.1.first ≤ d ∧ d ≤ r.1.last

/-- The day is missing: where there are bars, days that were completed do not count. -/
def Missing (settings : Settings) (start stop : ℤ) (now : ℤ)
    (rows : List (DailyMarketBar K)) (fresh : List (Window × ℤ)) (d : ℤ) : Prop :=
  Lacking settings start stop now rows d ∧ (rows ≠ [] → ¬ InRanges fresh d)

/-! ### Rows -/

section
variable [DecidableEq K] {stored : List (DailyMarketBar K)} {key : K} {symbol currency : String}

theorem mem_usableBars {b : DailyMarketBar K} : b ∈ usableBars stored key symbol currency stop ↔
      b ∈ stored ∧ Usable key symbol currency stop b := by
  unfold usableBars
  rw [(Selection.sortOn_perm _ _).mem_iff, mem_filter, decide_eq_true_eq]

theorem usableBars_sorted : (usableBars stored key symbol currency stop).Pairwise fun a b =>
      a.tradingDate ≤ b.tradingDate :=
  Selection.sortOn_pairwise _ _

end

/-- The rows are in the order of their dates, and none is later than the end. -/
structure History (stop : ℤ) (rows : List (DailyMarketBar K)) : Prop where
  sorted : rows.Pairwise fun a b => a.tradingDate ≤ b.tradingDate
  bounded : ∀ b ∈ rows, b.tradingDate ≤ stop

theorem usableBars_history [DecidableEq K] (stored : List (DailyMarketBar K)) (key : K)
    (symbol currency : String) (stop : ℤ) :
    History stop (usableBars stored key symbol currency stop) :=
  ⟨usableBars_sorted, fun _ hb => (mem_usableBars.mp hb).2.2.2.2.2.2.1⟩

variable {rows : List (DailyMarketBar K)}

/-- The first row is the earliest and the last one the latest. -/
theorem History.le (h : History stop rows)
    {first last : DailyMarketBar K} (hfirst : rows.head? = some first)
    (hlast : rows.getLast? = some last) {b : DailyMarketBar K} (hb : b ∈ rows) :
    first.tradingDate ≤ b.tradingDate ∧ b.tradingDate ≤ last.tradingDate := by
  constructor
  · obtain ⟨rest, rfl⟩ := head?_eq_some_iff.mp hfirst
    rcases mem_cons.mp hb with rfl | hb
    · exact le_refl _
    · exact (pairwise_cons.mp h.sorted).1 b hb
  · obtain ⟨rest, rfl⟩ := getLast?_eq_some_iff.mp hlast
    rcases mem_append.mp hb with hb | hb
    · exact (pairwise_append.mp h.sorted).2.2 b hb last (mem_singleton_self last)
    · rw [mem_singleton.mp hb]

theorem head?_isSome_iff_getLast? {α : Type} {l : List α} :
    (∃ a b, l.head? = some a ∧ l.getLast? = some b) ↔ l ≠ [] := by
  constructor
  · rintro ⟨a, b, ha, -⟩ rfl
    cases ha
  · intro hne
    exact ⟨l.head hne, l.getLast hne, head?_eq_some_head hne, getLast?_eq_some_getLast hne⟩

/-! ### The ranges -/

variable (settings now) in
/-- The plan of the coverage is a tidy list of the days that are lacking. -/
theorem coveragePlan_spec (hrange : start ≤ stop) (hrows : History stop rows) :
    Tidy (coveragePlan rows start stop now settings.freshnessHours false).2 ∧
    ∀ d, Covers (coveragePlan rows start stop now settings.freshnessHours false).2 d ↔
      Lacking settings start stop now rows d := by
  unfold coveragePlan Lacking
  cases hfirst : rows.head? with
  | none =>
      refine ⟨Tidy.single hrange, fun d => ?_⟩
      rw [covers_cons]
      simp [covers_nil]
  | some first =>
      cases hlast : rows.getLast? with
      | none =>
          rw [getLast?_eq_none_iff] at hlast
          rw [hlast] at hfirst
          cases hfirst
      | some last =>
          have hle := (hrows.le hfirst hlast (mem_of_mem_head? hfirst)).2
          have hbound := hrows.bounded last (mem_of_getLast? hlast)
          dsimp only
          rw [if_neg Bool.false_ne_true]
          have hfront : PartsOf (start, stop) (if start < first.tradingDate then
              [(start, min stop (first.tradingDate - 1))] else []) := by
            split
            · refine PartsOf.single ?_ (le_refl _) ?_
              · dsimp only
                omega
              · dsimp only
                omega
            · exact PartsOf.nil _
          have hback : PartsOf (start, stop)
              (if Stale (settings.freshnessHours * hour) now stop last then
                [(max start (if last.tradingDate < stop then min stop (last.tradingDate + 1)
                  else stop), stop)] else []) := by
            split
            · refine PartsOf.single ?_ ?_ (le_refl _)
              · dsimp only
                split <;> omega
              · dsimp only
                omega
            · exact PartsOf.nil _
          refine ⟨hfront.tidy.append hback.tidy ?_, fun d => ?_⟩
          · intro s hs t ht
            split at hs
            · split at ht
              · rw [mem_singleton.mp hs, mem_singleton.mp ht]
                dsimp only
                split <;> omega
              · cases ht
            · cases hs
          · simp only [Option.mem_def, Option.some.injEq, forall_eq']
            rw [covers_append]
            by_cases hstale : Stale (settings.freshnessHours * hour) now stop last
            · rw [if_pos hstale]
              split <;> split <;>
                simp only [covers_cons, covers_nil, or_false, false_or, hstale, true_and] <;> omega
            · rw [if_neg hstale]
              split <;>
                simp only [covers_cons, covers_nil, or_false, hstale, false_and, false_iff] <;> omega

variable {intervals : List Span}

theorem uncovered_spec (h : Tidy intervals) (completed : List Window) :
    Tidy (uncovered intervals completed) ∧ ∀ d, Covers (uncovered intervals completed) d ↔
      Covers intervals d ∧ ∀ w ∈ completed, ¬ (w.first ≤ d ∧ d ≤ w.last) := by
  have hloop : ∀ cuts : List Window, ∀ spans : List Span, Tidy spans →
      Tidy (cuts.foldl (fun remaining cut => remaining.flatMap (takeOut cut.span)) spans) ∧
      ∀ d, Covers (cuts.foldl (fun remaining cut => remaining.flatMap (takeOut cut.span)) spans) d ↔
        Covers spans d ∧ ∀ w ∈ cuts, ¬ (w.first ≤ d ∧ d ≤ w.last) := by
    intro cuts
    induction cuts with
    | nil =>
        intro spans hspans
        refine ⟨hspans, fun d => ⟨fun hd => ⟨hd, ?_⟩, fun hd => hd.1⟩⟩
        intro w hw
        cases hw
    | cons cut cuts ih =>
        intro spans hspans
        have htidy : Tidy (spans.flatMap (takeOut cut.span)) :=
          hspans.flatMap fun s hs => takeOut_parts cut.ordered (hspans.nonempty s hs)
        have hcovers : ∀ d, Covers (spans.flatMap (takeOut cut.span)) d ↔
            Covers spans d ∧ ¬ (cut.first ≤ d ∧ d ≤ cut.last) := by
          intro d
          rw [covers_flatMap]
          constructor
          · rintro ⟨s, hs, hd⟩
            obtain ⟨hin, hout⟩ := (covers_takeOut cut.ordered).mp hd
            exact ⟨⟨s, hs, hin⟩, hout⟩
          · rintro ⟨⟨s, hs, hin⟩, hout⟩
            exact ⟨s, hs, (covers_takeOut cut.ordered).mpr ⟨hin, hout⟩⟩
        obtain ⟨hrest, hall⟩ := ih _ htidy
        refine ⟨hrest, fun d => ?_⟩
        rw [foldl_cons, hall, hcovers, and_assoc]
        simp only [forall_mem_cons]
  obtain ⟨htidy, hcovers⟩ := hloop (Selection.sortOn (fun w : Window => toLex w.span) completed)
    intervals h
  refine ⟨htidy, fun d => ?_⟩
  rw [uncovered, hcovers]
  simp only [(Selection.sortOn_perm (fun w : Window => toLex w.span) completed).mem_iff]

variable (settings now) in
/-- The ranges to ask for are a tidy list of the missing days. -/
theorem plannedIntervals_spec (hrange : start ≤ stop)
    (hrows : History stop rows) (fresh : List (Window × ℤ)) :
    Tidy (plannedIntervals settings start stop now false rows fresh) ∧
    ∀ d, Covers (plannedIntervals settings start stop now false rows fresh) d ↔
      Missing settings start stop now rows fresh d := by
  obtain ⟨htidy, hcovers⟩ := coveragePlan_spec settings now hrange hrows
  unfold plannedIntervals Missing
  cases hempty : rows.isEmpty with
  | true =>
      have hnil : rows = [] := List.isEmpty_iff.mp hempty
      refine ⟨htidy, fun d => (hcovers d).trans ⟨fun hd => ⟨hd, fun hne => (hne hnil).elim⟩, ?_⟩⟩
      exact fun hd => hd.1
  | false =>
      have hne : rows ≠ [] := fun hnil => by
        rw [hnil] at hempty
        cases hempty
      obtain ⟨hrest, hall⟩ := uncovered_spec htidy (fresh.map Prod.fst)
      refine ⟨hrest, fun d => (hall d).trans ?_⟩
      rw [hcovers]
      refine and_congr_right fun _ => ⟨fun hd _ => ?_, fun hd w hw hin => ?_⟩
      · rintro ⟨r, hr, hin⟩
        exact hd r.1 (mem_map_of_mem hr) hin
      · obtain ⟨r, hr, rfl⟩ := mem_map.mp hw
        exact hd hne ⟨r, hr, hin⟩

/-! ### The windows -/

/-- What a plan promises of its windows. -/
structure Plans (size : Nat) (windows : List Window) (missing : ℤ → Prop) : Prop where
  /-- The windows are in order, and no day is in two of them. -/
  ascending : windows.Pairwise fun v w => v.last < w.first
  short : ∀ w ∈ windows, w.last - w.first + 1 ≤ size
  exact : ∀ d, (∃ w ∈ windows, w.first ≤ d ∧ d ≤ w.last) ↔ missing d

theorem planWindows_spec {s : Span} (hs : s.1 ≤ s.2) (settings : Settings) :
    ∃ windows, planWindows s.1 s.2 settings.requestWindowDays = .ok windows ∧
      windows.map Window.span = Spans.windows (settings.requestWindowDays - 1) s.2 s.1 := by
  unfold planWindows
  have hpos := settings.window_pos
  rw [if_neg (by omega)]
  refine ⟨_, rfl, ?_⟩
  rw [map_map]
  have hsize : ((settings.requestWindowDays : ℤ) - 1).toNat = settings.requestWindowDays - 1 := by
    omega
  show ((Spans.windows _ s.2 s.1).attach.map fun w => w.1) = _
  rw [attach_map_subtype_val, hsize]

/-- Tidy ranges are split into tidy windows. -/
theorem plannedWindows_spec (h : Tidy intervals) (settings : Settings) :
    ∃ windows, plannedWindows settings intervals = .ok windows ∧ windows.map Window.span =
        intervals.flatMap fun s => Spans.windows (settings.requestWindowDays - 1) s.2 s.1 := by
  have hloop : ∀ spans : List Span, (∀ s ∈ spans, s.1 ≤ s.2) → ∃ parts,
      (spans.mapM fun s => planWindows s.1 s.2 settings.requestWindowDays) = .ok parts ∧
      parts.flatten.map Window.span =
        spans.flatMap fun s => Spans.windows (settings.requestWindowDays - 1) s.2 s.1 := by
    intro spans
    induction spans with
    | nil => exact fun _ => ⟨[], rfl, rfl⟩
    | cons s spans ih =>
        intro hspans
        obtain ⟨windows, hwindows, hspan⟩ := planWindows_spec (hspans s mem_cons_self) settings
        obtain ⟨parts, hparts, hrest⟩ := ih fun t ht => hspans t (mem_cons_of_mem s ht)
        refine ⟨windows :: parts, ?_, ?_⟩
        · rw [mapM_cons, hwindows, hparts]
          rfl
        · rw [flatten_cons, map_append, flatMap_cons, hspan, hrest]
  obtain ⟨parts, hparts, hspan⟩ := hloop intervals h.nonempty
  refine ⟨parts.flatten, ?_, hspan⟩
  unfold plannedWindows
  rw [hparts]
  rfl

theorem plans_of_tidy (h : Tidy intervals) (settings : Settings) :
    ∃ windows, plannedWindows settings intervals = .ok windows ∧
      Plans settings.requestWindowDays windows (Covers intervals) := by
  obtain ⟨windows, hwindows, hspan⟩ := plannedWindows_spec h settings
  have hpos := settings.window_pos
  have htidy : Tidy (windows.map Window.span) := by
    rw [hspan]
    exact h.flatMap fun s _ => (windows_spec _ s.2 s.1).1
  refine ⟨windows, hwindows, ?_, fun w hw => ?_, fun d => ?_⟩
  · exact pairwise_map.mp htidy.ascending
  · have hmem : w.span ∈ windows.map Window.span := mem_map_of_mem hw
    rw [hspan] at hmem
    obtain ⟨s, -, hs⟩ := mem_flatMap.mp hmem
    have hsize := (windows_spec _ s.2 s.1).2.2 w.span hs
    have hlength : w.last - w.first ≤ ((settings.requestWindowDays - 1 : Nat) : ℤ) := hsize
    omega
  · have hcovers : Covers (windows.map Window.span) d ↔ Covers intervals d := by
      rw [hspan, covers_flatMap]
      simp only [(windows_spec _ _ _).2.1]
      exact Iff.rfl
    rw [← hcovers]
    constructor
    · rintro ⟨w, hw, hin⟩
      exact ⟨w.span, mem_map_of_mem hw, hin⟩
    · rintro ⟨s, hs, hin⟩
      obtain ⟨w, hw, rfl⟩ := mem_map.mp hs
      exact ⟨w, hw, hin⟩

/-- The windows of an instrument are the missing days. -/
theorem plans_missing (hrange : start ≤ stop) (hrows : History stop rows) (settings : Settings)
    (now : ℤ) (fresh : List (Window × ℤ)) :
    ∃ windows, plannedWindows settings
        (plannedIntervals settings start stop now false rows fresh) = .ok windows ∧
      Plans settings.requestWindowDays windows (Missing settings start stop now rows fresh) := by
  obtain ⟨htidy, hcovers⟩ :=
    plannedIntervals_spec settings now hrange hrows fresh
  obtain ⟨windows, hwindows, hplans⟩ := plans_of_tidy htidy settings
  exact ⟨windows, hwindows, hplans.ascending, hplans.short,
    fun d => (hplans.exact d).trans (hcovers d)⟩

end InvestmentPlatform.Backfill

/-!
The counters of a backfill add up.

A window that is counted as requested is counted once more, as successful or as failed, whatever the
provider answers or raises.  An item is counted when its work ends, under the one status it has then,
so the counters of the summary are those of its items.
-/

namespace InvestmentPlatform.Backfill

variable {K : Type}

/-! ### Items -/

/-- Every requested window has succeeded or failed. -/
def Item.Balanced (item : Item K) : Prop :=
  item.requestedWindows = item.successfulWindows + item.failedWindows

theorem newItem_balanced (key : K) : (newItem key).Balanced := rfl

variable [DecidableEq K] {world : World K} {key : K} {cacheKey : CacheKey K}

/-- The window has been counted, and its outcome not yet. -/
def Open (p : Progress K) : Prop :=
  p.item.requestedWindows = p.item.successfulWindows + p.item.failedWindows + 1

variable {p : Progress K}

theorem Open.windowRaised (h : Open p) (w : Window) (httpStatus : Option Nat) :
    (p.windowRaised world key w httpStatus).item.Balanced := by
  show p.item.requestedWindows = p.item.successfulWindows + (p.item.failedWindows + 1)
  have hopen : p.item.requestedWindows = _ := h
  omega

theorem Open.windowFailed (h : Open p) (w : Window) (httpStatus : Option Nat)
    (reason : String) : (p.windowFailed world key w httpStatus reason).item.Balanced := by
  show p.item.requestedWindows = p.item.successfulWindows + (p.item.failedWindows + 1)
  have hopen : p.item.requestedWindows = _ := h
  omega

theorem Open.windowSucceeded (h : Open p) (w : Window) (httpStatus : Option Nat) :
    (p.windowSucceeded world cacheKey w httpStatus).item.Balanced := by
  show p.item.requestedWindows = p.item.successfulWindows + 1 + p.item.failedWindows
  have hopen : p.item.requestedWindows = _ := h
  omega

omit [DecidableEq K] in
theorem Open.dated {p' : Progress K} (h : Open p) {result : NseHistoricalResult K}
    (hdated : p.dated result = some p') : Open p' := by
  unfold Progress.dated at hdated
  split at hdated
  · cases hdated
    exact h
  · split at hdated
    · cases hdated
      exact h
    · cases hdated

variable (world key cacheKey) in
/-- One window is counted twice, as requested and by its outcome. -/
theorem requestWindow_balanced (h : p.item.Balanced) (w : Window) :
    (requestWindow world key cacheKey p w).2.item.Balanced := by
  have hopen : Open (p.request w) := congrArg (· + 1) h
  unfold requestWindow
  dsimp only
  cases world.fetch key w with
  | error exc => exact hopen.windowRaised w none
  | ok result =>
      have hreceived : Open ((p.request w).receive (world.persists key w) result).2 := hopen
      dsimp only
      cases hdated : ((p.request w).receive (world.persists key w) result).2.dated
          ((p.request w).receive (world.persists key w) result).1 with
      | none => exact hreceived.windowRaised w _
      | some next =>
          have hnext := hreceived.dated hdated
          dsimp only
          cases windowReason ((p.request w).receive (world.persists key w) result).1 with
          | none => exact hnext.windowSucceeded w _
          | some reason => exact hnext.windowFailed w _ reason

variable (world key cacheKey) in
theorem requestWindows_balanced (h : p.item.Balanced) (windows : List Window) :
    (requestWindows world key cacheKey p windows).item.Balanced := by
  induction windows generalizing p with
  | nil => exact h
  | cons w rest ih =>
      have hnext := requestWindow_balanced world key cacheKey h w
      unfold requestWindows
      cases hstep : requestWindow world key cacheKey p w with
      | mk goes next =>
          rw [hstep] at hnext
          cases goes with
          | true => exact ih hnext
          | false => exact hnext

theorem requestPlanned_balanced (h : p.item.Balanced) (windows : List Window) :
    (requestPlanned world key cacheKey p windows).item.Balanced := by
  unfold requestPlanned
  have hloop := requestWindows_balanced world key cacheKey
    (p := { p with run := { p.run with opened := true } }) h windows
  dsimp only
  split
  · exact hloop
  · exact hloop

variable (world) in
theorem processInstrument_balanced (settings : Settings) (start stop now : ℤ) (force : Bool)
    (run : RunState K) (key : K) :
    (processInstrument world settings start stop now force run key).item.Balanced := by
  unfold processInstrument
  dsimp only
  split
  · rfl
  · split
    · rfl
    · split
      · rfl
      · split
        · rfl
        · split
          · rfl
          · split
            · rfl
            · exact requestPlanned_balanced (newItem_balanced key) _

/-! ### The summary -/

/-- The counters of the summary are those of its items, each counted under one status. -/
structure Summary.Adds (summary : Summary K) : Prop where
  processed : summary.processedInstruments = summary.instruments.length
  statuses : summary.processedInstruments = summary.succeededInstruments +
    summary.failedInstruments + summary.skippedCurrent + summary.skippedCooldown
  windows : summary.requestedWindows = summary.successfulWindows + summary.failedWindows
  items : ∀ item ∈ summary.instruments, item.Balanced

variable {summary : Summary K}

omit [DecidableEq K] in
theorem Summary.Adds.count (h : summary.Adds) {item : Item K}
    (hitem : item.Balanced) : (summary.count item).Adds := by
  refine ⟨?_, ?_, ?_, ?_⟩
  · show summary.processedInstruments + 1 = (summary.instruments ++ [item]).length
    rw [List.length_append, h.processed, List.length_singleton]
  · have hstatuses := h.statuses
    have hone : (if item.status = .success then 1 else 0) +
        (if item.status = .failed then 1 else 0) +
        (if item.status = .skippedCurrent then 1 else 0) +
        (if item.status = .skippedCooldown then 1 else 0) = 1 := by
      cases item.status <;> rfl
    show summary.processedInstruments + 1 =
      summary.succeededInstruments + (if item.status = .success then 1 else 0) +
      (summary.failedInstruments + (if item.status = .failed then 1 else 0)) +
      (summary.skippedCurrent + (if item.status = .skippedCurrent then 1 else 0)) +
      (summary.skippedCooldown + (if item.status = .skippedCooldown then 1 else 0))
    omega
  · have hwindows := h.windows
    have hbalanced : item.requestedWindows = _ := hitem
    show summary.requestedWindows + item.requestedWindows =
      summary.successfulWindows + item.successfulWindows +
      (summary.failedWindows + item.failedWindows)
    omega
  · intro other hother
    rcases List.mem_append.mp hother with hother | hother
    · exact h.items other hother
    · rw [List.mem_singleton.mp hother]
      exact hitem

variable (world) in
/-- A run over some instruments has one item for each of them, in their order. -/
theorem processAll_adds (settings : Settings) (start stop now : ℤ) (force : Bool)
    (h : summary.Adds) (run : RunState K) (selected : List K) :
    (processAll world settings start stop now force (summary, run) selected).1.Adds ∧
    (processAll world settings start stop now force (summary, run) selected).1.instruments.length
      = summary.instruments.length + selected.length ∧
    (processAll world settings start stop now force (summary, run) selected).1.requestedInstruments
      = summary.requestedInstruments := by
  induction selected generalizing summary run with
  | nil => exact ⟨h, rfl, rfl⟩
  | cons key rest ih =>
      have hitem := processInstrument_balanced world settings start stop now force run key
      obtain ⟨hadds, hlength, hrequested⟩ := ih (h.count hitem)
        (processInstrument world settings start stop now force run key).run
      refine ⟨hadds, hlength.trans ?_, hrequested⟩
      show (summary.instruments ++ [_]).length + rest.length = _ + (rest.length + 1)
      rw [List.length_append, List.length_singleton]
      omega

/-- The counters add up, over as many items as instruments were selected. -/
structure Summary.Consistent (summary : Summary K) : Prop where
  adds : summary.Adds
  selected : summary.processedInstruments = summary.requestedInstruments

omit [DecidableEq K] in
theorem Summary.Consistent.finish (h : summary.Consistent)
    (run : RunState K) : (finish world summary run).1.Consistent := by
  unfold Backfill.finish
  dsimp only
  split
  · exact ⟨⟨h.adds.processed, h.adds.statuses, h.adds.windows, h.adds.items⟩, h.selected⟩
  · exact ⟨⟨h.adds.processed, h.adds.statuses, h.adds.windows, h.adds.items⟩, h.selected⟩

/-! ### A run -/

/-- The last day of a run. -/
def lastDay (world : World K) (jobs : Jobs K) (request : Request K) : ℤ :=
  request.stop.getD (world.today (jobs.now world))

/-- The first day of a run. -/
def firstDay (world : World K) (settings : Settings) (jobs : Jobs K) (request : Request K) : ℤ :=
  request.start.getD (world.today (jobs.now world) - settings.initialLookbackDays)

/-- A summary before the first item. -/
structure Summary.Blank (summary : Summary K) (selected : List K) : Prop where
  adds : summary.Adds
  none : summary.instruments = []
  selected : summary.requestedInstruments = selected.length

/-- A run stops before the first item, or it goes over some instruments. -/
inductive Runs [LinearOrder K] (world : World K) (settings : Settings) (jobs : Jobs K)
    (request : Request K) : Summary K × Jobs K → Prop where
  | idle (summary : Summary K) (hblank : summary.Blank ([] : List K)) :
      Runs world settings jobs request (finish world summary ⟨jobs.tick, false, false, none, none⟩)
  | ended (summary : Summary K) (selected : List K) (status : Summary K → RunStatus)
      (hrange : firstDay world settings jobs request ≤ lastDay world jobs request)
      (hnodup : selected.Nodup) (hblank : summary.Blank selected)
      (result : Summary K × RunState K)
      (hresult : result = processAll world settings (firstDay world settings jobs request)
        (lastDay world jobs request) (jobs.now world) request.force
        (summary, ⟨jobs.tick, coolingDown settings (jobs.now world) jobs.throttledAt, false, none,
          none⟩) selected) :
      Runs world settings jobs request
        (finish world { result.1 with status := status result.1 } result.2)

theorem runBackfill_runs [LinearOrder K] (world : World K) (settings : Settings)
    (jobs : Jobs K) (request : Request K) :
    Runs world settings jobs request (runBackfill world settings jobs request) := by
  unfold runBackfill
  dsimp only
  split
  · exact .idle _ ⟨⟨rfl, rfl, rfl, fun _ h => (List.not_mem_nil h).elim⟩, rfl, rfl⟩
  · rename_i hvalid
    split
    · exact .idle _ ⟨⟨rfl, rfl, rfl, fun _ h => (List.not_mem_nil h).elim⟩, rfl, rfl⟩
    · rename_i values _
      refine .ended _ _
        (fun summary => if summary.failedInstruments = 0 then .completed else .completedWithErrors)
        (by unfold firstDay lastDay; omega) ?_
        ⟨⟨rfl, rfl, rfl, fun _ h => (List.not_mem_nil h).elim⟩, rfl, rfl⟩ _ rfl
      exact ((Selection.sortedSet_strict _).imp fun hlt => ne_of_lt hlt).drop.take

/-- The counters of a run add up. -/
theorem runBackfill_consistent [LinearOrder K] (world : World K) (settings : Settings)
    (jobs : Jobs K) (request : Request K) :
    (runBackfill world settings jobs request).1.Consistent := by
  have hruns := runBackfill_runs world settings jobs request
  generalize runBackfill world settings jobs request = outcome at hruns ⊢
  cases hruns with
  | idle summary hblank =>
      refine Summary.Consistent.finish ⟨hblank.adds, ?_⟩ _
      rw [hblank.adds.processed, hblank.none, hblank.selected, List.length_nil, List.length_nil]
  | ended summary selected status _ _ hblank result hresult =>
      obtain ⟨hadds, hlength, hrequested⟩ := processAll_adds world settings
        (firstDay world settings jobs request) (lastDay world jobs request) (jobs.now world)
        request.force hblank.adds
        ⟨jobs.tick, coolingDown settings (jobs.now world) jobs.throttledAt, false, none, none⟩
        selected
      rw [← hresult] at hadds hlength hrequested
      have hselected : result.1.processedInstruments = result.1.requestedInstruments := by
        rw [hadds.processed, hlength, hrequested, hblank.none, hblank.selected, List.length_nil,
          Nat.zero_add]
      have hstatus : Summary.Consistent { result.1 with status := status result.1 } :=
        ⟨⟨hadds.processed, hadds.statuses, hadds.windows, hadds.items⟩, hselected⟩
      exact hstatus.finish result.2

end InvestmentPlatform.Backfill
