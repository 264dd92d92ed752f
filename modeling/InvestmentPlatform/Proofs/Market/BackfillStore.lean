/-
What a backfill stores.

A bar that is stored takes the place of the one with its identity, so the history of an instrument
never loses a date.  A window of the exchange that counts as successful has at least one bar, and
all its bars are usable history of the instrument on days of the window.
-/
import InvestmentPlatform.Market.NseHistorical
import InvestmentPlatform.Proofs.Market.BackfillPlan

namespace InvestmentPlatform.Backfill

open List

variable {K : Type} [DecidableEq K]

/-! ### Storing bars -/

theorem mem_upsert {bars : List (DailyMarketBar K)} {bar b : DailyMarketBar K} :
    b ∈ upsert bars bar ↔ b ∈ bars ∧ identityOf b ≠ identityOf bar ∨ b = bar := by
  unfold upsert
  rw [mem_append, mem_filter, mem_singleton, decide_eq_true_eq]

/-- A bar that was stored, or one of the new ones, is there under each old or new identity. -/
theorem exists_of_upserts (new : List (DailyMarketBar K)) {bars : List (DailyMarketBar K)}
    {b : DailyMarketBar K} (h : b ∈ bars ∨ b ∈ new) :
    ∃ b' ∈ new.foldl upsert bars, identityOf b' = identityOf b ∧ (b' = b ∨ b' ∈ new) := by
  induction new generalizing bars b with
  | nil => exact ⟨b, h.resolve_right not_mem_nil, rfl, Or.inl rfl⟩
  | cons bar new ih =>
      by_cases hbar : identityOf b = identityOf bar
      · obtain ⟨b', hmem, hsame, heq⟩ := ih (Or.inl (mem_upsert.mpr (Or.inr (Eq.refl bar))))
        refine ⟨b', hmem, hsame.trans hbar.symm, Or.inr ?_⟩
        rcases heq with rfl | hnew
        · exact mem_cons_self
        · exact mem_cons_of_mem bar hnew
      · have hrest : b ∈ upsert bars bar ∨ b ∈ new := by
          rcases h with h | h
          · exact Or.inl (mem_upsert.mpr (Or.inl ⟨h, hbar⟩))
          · rcases mem_cons.mp h with rfl | h
            · exact (hbar rfl).elim
            · exact Or.inr h
        obtain ⟨b', hmem, hsame, heq⟩ := ih hrest
        exact ⟨b', hmem, hsame, heq.imp_right (mem_cons_of_mem bar)⟩

/-- Bars that are not looked at change nothing. -/
theorem filter_upserts {new : List (DailyMarketBar K)} {p : DailyMarketBar K → Bool}
    (h : ∀ bar ∈ new, ∀ b, identityOf b = identityOf bar → p b = false)
    (bars : List (DailyMarketBar K)) : (new.foldl upsert bars).filter p = bars.filter p := by
  induction new generalizing bars with
  | nil => rfl
  | cons bar new ih =>
      have hbar := h bar mem_cons_self
      rw [foldl_cons, ih fun other hother => h other (mem_cons_of_mem bar hother)]
      unfold upsert
      rw [filter_append, filter_filter, filter_singleton, hbar bar rfl, cond_false, append_nil]
      refine filter_congr fun b _ => ?_
      by_cases hsame : identityOf b = identityOf bar
      · rw [hbar b hsame, Bool.false_and]
      · simp [hsame]

/-! ### The history -/

section
variable {key : K} {symbol currency : String} {stop : ℤ} {bars new : List (DailyMarketBar K)}

/-- The usable rows among the stored bars. -/
def historyOf (bars : List (DailyMarketBar K)) (key : K) (symbol currency : String) (stop : ℤ) :
    List (DailyMarketBar K) :=
  usableBars (bars.filter fun b =>
    b.globalInstrumentId = key ∧ b.tradingDate ≤ stop ∧ b.provider = "NSE") key symbol currency stop

theorem mem_historyOf {b : DailyMarketBar K} : b ∈ historyOf bars key symbol currency stop ↔
      b ∈ bars ∧ Usable key symbol currency stop b := by
  unfold historyOf
  rw [mem_usableBars, mem_filter, decide_eq_true_eq]
  constructor
  · rintro ⟨⟨hmem, -⟩, husable⟩
    exact ⟨hmem, husable⟩
  · rintro ⟨hmem, husable⟩
    exact ⟨⟨hmem, husable.1, husable.2.2.2.2.2.1, husable.2.1⟩, husable⟩

theorem historyOf_history (bars : List (DailyMarketBar K)) (key : K) (symbol currency : String)
    (stop : ℤ) : History stop (historyOf bars key symbol currency stop) :=
  usableBars_history _ key symbol currency stop

variable (bars) in
/-- No date of the history is lost, and each new bar has its date there. -/
theorem exists_in_history (hnew : ∀ b ∈ new, Usable key symbol currency stop b)
    {b : DailyMarketBar K} (h : b ∈ historyOf bars key symbol currency stop ∨ b ∈ new) :
    ∃ b' ∈ historyOf (new.foldl upsert bars) key symbol currency stop,
      b'.tradingDate = b.tradingDate := by
  have husable : Usable key symbol currency stop b := by
    rcases h with h | h
    · exact (mem_historyOf.mp h).2
    · exact hnew b h
  obtain ⟨b', hmem, hsame, heq⟩ := exists_of_upserts new
    (h.imp_left fun hmem => (mem_historyOf.mp hmem).1)
  have hdate : b'.tradingDate = b.tradingDate := congrArg (fun id => id.2.1) hsame
  refine ⟨b', mem_historyOf.mpr ⟨hmem, ?_⟩, hdate⟩
  rcases heq with rfl | hin
  · exact husable
  · exact hnew b' hin

variable (key symbol currency stop bars) in
/-- New bars that are all earlier than a day leave the history from that day on as it is. -/
theorem history_from {day : ℤ} (hnew : ∀ b ∈ new, b.tradingDate < day) :
    (historyOf (new.foldl upsert bars) key symbol currency stop).filter
        (fun b => day ≤ b.tradingDate) =
      (historyOf bars key symbol currency stop).filter fun b => day ≤ b.tradingDate := by
  unfold historyOf usableBars
  rw [Selection.sortOn_filter, Selection.sortOn_filter]
  refine congrArg _ ?_
  rw [filter_filter, filter_filter, filter_filter, filter_filter]
  refine filter_upserts (fun bar hbar b hsame => ?_) bars
  have hdate : b.tradingDate = bar.tradingDate := congrArg (fun id => id.2.1) hsame
  have hlt := hnew bar hbar
  have hnot : ¬ day ≤ b.tradingDate := by omega
  simp [hnot]

/-- Bars of another instrument do not touch the history. -/
theorem filter_other {p : DailyMarketBar K → Bool} {other : K} (hother : other ≠ key)
    (hnew : ∀ b ∈ new, b.globalInstrumentId = other)
    (hp : ∀ b, p b = true → b.globalInstrumentId = key) :
    (new.foldl upsert bars).filter p = bars.filter p := by
  refine filter_upserts (fun bar hbar b hsame => ?_) bars
  rw [Bool.eq_false_iff]
  intro htrue
  have hkey : b.globalInstrumentId = bar.globalInstrumentId := congrArg (fun id => id.1) hsame
  exact hother ((hnew bar hbar).symm.trans (hkey.symm.trans (hp b htrue)))

end

omit [DecidableEq K] in
/-- The last element of a list is the last of those that are like it. -/
theorem getLast?_filter {p : DailyMarketBar K → Bool} {l : List (DailyMarketBar K)}
    {last : DailyMarketBar K} (hlast : l.getLast? = some last) (hp : p last = true) :
    (l.filter p).getLast? = some last := by
  obtain ⟨rest, rfl⟩ := getLast?_eq_some_iff.mp hlast
  rw [filter_append, filter_singleton, hp, cond_true, getLast?_concat]

/-! ### A window of the exchange -/

section
variable {settings : Settings} {series : K → String} {answer : K → Window → Answer}
  {identity : K → Except Raised (String × String)} {key : K} {symbol currency : String}

/-- The bar is of the instrument and on a day of the window. -/
structure InWindow (key : K) (symbol currency : String) (w : Window) (b : DailyMarketBar K) :
    Prop where
  usable : ∀ stop, w.last ≤ stop → Usable key symbol currency stop b
  inside : w.first ≤ b.tradingDate ∧ b.tradingDate ≤ w.last

omit [DecidableEq K] in
theorem Reading.bar_inWindow {r : Reading K} {row : CsvRow} {b : DailyMarketBar K}
    (h : r.bar row = some b) : InWindow r.key r.symbol r.currency r.window b := by
  unfold Reading.bar at h
  split at h
  · cases h
  · split at h
    · cases h
    · split at h
      · cases h
      · rename_i day _ hday
        obtain ⟨prices, hprices, rfl⟩ := Option.map_eq_some_iff.mp h
        refine ⟨fun stop hstop => ⟨rfl, rfl, rfl, rfl, rfl, ?_, rfl, rfl, rfl, rfl⟩, ?_⟩
        · show day ≤ stop
          omega
        · show r.window.first ≤ day ∧ day ≤ r.window.last
          omega

omit [DecidableEq K] in
theorem Reading.bars_inWindow {r : Reading K} {rows : List CsvRow} {b : DailyMarketBar K}
    (h : b ∈ r.bars rows) : InWindow r.key r.symbol r.currency r.window b := by
  unfold Reading.bars at h
  obtain ⟨day, -, hday⟩ := mem_filterMap.mp h
  split at hday
  · rename_i bar hone
    cases hday
    have hmem : b ∈ (rows.filterMap r.bar).filter fun c => c.tradingDate = day := by
      rw [hone]
      exact mem_singleton_self b
    obtain ⟨row, -, hrow⟩ := mem_filterMap.mp (mem_filter.mp hmem).1
    exact r.bar_inWindow hrow
  · cases hday

/-- A result that is not a failure has bars, and every bar is of its window. -/
structure Genuine (key : K) (symbol currency : String) (w : Window)
    (result : NseHistoricalResult K) : Prop where
  bars : ∀ b ∈ result.bars, InWindow key symbol currency w b
  reason : result.failureReason ≠ some ""
  nonempty : result.failureReason = none → result.success = true ∧ result.bars ≠ []

omit [DecidableEq K] in
theorem withoutBars_genuine {w : Window} {reason : String} (h : reason ≠ "")
    (httpStatus : Option Nat) (rowsParsed rowsRejected : Nat) :
    Genuine key symbol currency w
      (withoutBars reason httpStatus rowsParsed rowsRejected : NseHistoricalResult K) :=
  ⟨fun _ hb => (not_mem_nil hb).elim, fun heq => h (Option.some.inj heq), nofun⟩

theorem append_ne_empty {a b : String} (h : b ≠ "") : a ++ b ≠ "" := by
  intro heq
  have hlist := congrArg String.toList heq
  rw [String.toList_append] at hlist
  exact h (String.toList_inj.mp (append_eq_nil_iff.mp hlist).2)

theorem Fault.text_ne (fault : Fault) : fault.text ≠ "" := by
  cases fault <;> decide

omit [DecidableEq K] in
/-- What the provider of the NSE returns for an instrument with verified metadata is genuine. -/
theorem nseFetch_genuine (hidentity : identity key = .ok (symbol, currency)) (w : Window) :
    Genuine key symbol currency w (nseFetch identity settings series answer key w) := by
  unfold nseFetch
  split
  · exact withoutBars_genuine (by decide) _ _ _
  · rw [hidentity]
    dsimp only
    cases answer key w with
    | httpError stage status =>
        refine withoutBars_genuine ?_ _ _ _
        rw [String.append_assoc]
        intro heq
        have hlist := congrArg String.toList heq
        rw [String.toList_append, String.toList_append] at hlist
        have hmid := (append_eq_nil_iff.mp (append_eq_nil_iff.mp hlist).2).1
        cases hmid
    | timeout stage status => exact withoutBars_genuine (append_ne_empty (by decide)) _ _ _
    | connectionFailure stage status =>
        exact withoutBars_genuine (append_ne_empty (by decide)) _ _ _
    | unavailable stage status => exact withoutBars_genuine (append_ne_empty (by decide)) _ _ _
    | unusable fault status rowsParsed rowsRejected =>
        exact withoutBars_genuine fault.text_ne _ _ _
    | table status retrievedAt rows =>
        dsimp only
        split
        · exact withoutBars_genuine (by decide) _ _ _
        · rename_i hbars
          refine ⟨fun b hb => Reading.bars_inWindow hb, (nomatch ·), fun _ => ⟨rfl, ?_⟩⟩
          intro hnil
          exact hbars (List.isEmpty_iff.mpr hnil)

omit [DecidableEq K] in
/-- Whatever the provider of the NSE returns, its bars are of the instrument asked for. -/
theorem nseFetch_key (w : Window) {b : DailyMarketBar K}
    (hb : b ∈ (nseFetch identity settings series answer key w).bars) :
    b.globalInstrumentId = key := by
  cases hidentity : identity key with
  | ok known =>
      exact (((nseFetch_genuine hidentity w).bars b hb).usable w.last (le_refl _)).1
  | error exc =>
      unfold nseFetch at hb
      rw [hidentity] at hb
      split at hb <;> cases hb

/-- A genuine result that is stored without a failure has its bars stored. -/
theorem Genuine.persisted {w : Window} {result : NseHistoricalResult K}
    (h : Genuine key symbol currency w result) {persists : Bool} {bars : List (DailyMarketBar K)}
    (hreason : windowReason (persistDailyResult persists bars result).1 = none) :
    result.bars ≠ [] ∧ (persistDailyResult persists bars result).2 = result.bars.foldl upsert bars := by
  have hfilter : ∀ r : NseHistoricalResult K, r.failureReason ≠ some "" → windowReason r = none →
      r.failureReason = none := by
    intro r hr hnone
    unfold windowReason at hnone
    dsimp only at hnone
    split at hnone
    · cases hnone
    · cases hfail : r.failureReason with
      | none => rfl
      | some text =>
          rw [hfail] at hnone hr
          have htext : text ≠ "" := fun heq => hr (congrArg some heq)
          rw [Option.filter_some, if_pos (by simpa using htext)] at hnone
          cases hnone
  unfold persistDailyResult at hreason ⊢
  cases hsuccess : result.success with
  | false =>
      rw [hsuccess, if_neg Bool.false_ne_true] at hreason
      have hnone := hfilter _ h.reason hreason
      rw [(h.nonempty hnone).1] at hsuccess
      cases hsuccess
  | true =>
      rw [hsuccess, if_pos rfl] at hreason
      cases persists with
      | false => exact absurd (hfilter _ (by simp) hreason) (by simp)
      | true => exact ⟨(h.nonempty (hfilter _ h.reason hreason)).2, rfl⟩

end

end InvestmentPlatform.Backfill
