/-
The top-up of the daily history asks for little, and where it gets on.

A window that is asked for lies before the oldest usable date or after the newest, so it holds no
usable one, and the loop asks for three windows at most.  Which side is asked first depends on the
depth alone: before 200 sessions are stored the loop walks backward, and it stops at the first
window that is empty.  So a visit gets on exactly where the exchange offers a bar in the first
window; what it offers on the other side is never asked for.
-/
import InvestmentPlatform.Etf.HistoricalCoverage
import Mathlib.Tactic.NormNum

namespace InvestmentPlatform.Etf.HistoricalCoverage

open Selection List Dict Bool

variable {stored : Stored} {day today : ℤ} {windowDays : ℕ} {visit : Visit}

/-! ### Usable dates -/

/-- The usable closes of what is stored. -/
def series (stored : Stored) : List (ℤ × ℚ) := usableCloseSeries (loadDailyMarketBars stored)

/-- A usable bar of the date is stored. -/
def UsableOn (stored : Stored) (day : ℤ) : Prop :=
  ∃ provider close, stored.get? (toLex (day, provider)) = some (some close) ∧ 0 < close

theorem mem_usableCloseSeries {bars : List Bar} : day ∈ (usableCloseSeries bars).map Prod.fst ↔
      ∃ bar ∈ bars, bar.tradingDate = day ∧ ∃ close, bar.close = some close ∧ 0 < close := by
  unfold usableCloseSeries
  dsimp only
  rw [((sortOn_perm Prod.fst _).map Prod.fst).mem_iff]
  show day ∈ (Dict.ofList Prod.fst Prod.snd _).keys ↔ _
  rw [Dict.ofList, mem_keys_foldl_set, keys_empty]
  constructor
  · intro h
    obtain ⟨pair, hpair, hday⟩ := h.resolve_left not_mem_nil
    obtain ⟨bar, hbar, hsome⟩ := mem_filterMap.mp hpair
    obtain ⟨close, hclose, rfl⟩ := Option.map_eq_some_iff.mp hsome
    obtain ⟨hin, hpos⟩ := Option.filter_eq_some_iff.mp hclose
    exact ⟨bar, hbar, hday, close, hin, of_decide_eq_true hpos⟩
  · intro h
    obtain ⟨bar, hbar, hday, close, hclose, hpos⟩ := h
    refine Or.inr ⟨(bar.tradingDate, close), mem_filterMap.mpr ⟨bar, hbar, ?_⟩, hday⟩
    rw [hclose, Option.filter_some, if_pos (decide_eq_true hpos), Option.map_some]

theorem mem_series : day ∈ (series stored).map Prod.fst ↔ UsableOn stored day := by
  unfold series
  rw [mem_usableCloseSeries]
  unfold loadDailyMarketBars
  constructor
  · intro h
    obtain ⟨bar, hbar, hday, close, hclose, hpos⟩ := h
    obtain ⟨item, hitem, rfl⟩ := mem_map.mp hbar
    have hin := (sortOn_perm Prod.fst stored.items).mem_iff.mp hitem
    refine ⟨(ofLex item.1).2, close, ?_, hpos⟩
    have hget := get?_of_mem (k := item.1) (v := item.2) hin
    rw [show item.2 = some close from hclose] at hget
    rw [← show (ofLex item.1).1 = day from hday]
    exact hget
  · intro h
    obtain ⟨provider, close, hget, hpos⟩ := h
    refine ⟨⟨day, some close⟩, mem_map.mpr ⟨(toLex (day, provider), some close), ?_, rfl⟩, rfl,
      close, rfl, hpos⟩
    exact (sortOn_perm Prod.fst stored.items).mem_iff.mpr (mem_items_of_get? hget)

/-- The dates of the usable closes go up. -/
theorem series_strict (stored : Stored) :
    (series stored).Pairwise fun earlier later => earlier.1 < later.1 := by
  unfold series usableCloseSeries
  dsimp only
  generalize (Dict.ofList Prod.fst Prod.snd ((loadDailyMarketBars stored).filterMap fun bar =>
      (bar.close.filter (0 < ·)).map fun close => (bar.tradingDate, close)) : Dict ℤ ℚ) = dated
  have hnodup : ((sortOn Prod.fst dated.items).map Prod.fst).Nodup :=
    ((sortOn_perm Prod.fst dated.items).map Prod.fst).nodup_iff.mpr dated.nodup
  have hsorted := sortOn_pairwise Prod.fst dated.items
  refine (hsorted.and (pairwise_map.mp hnodup)).imp fun {earlier later} h => ?_
  exact lt_of_le_of_ne h.1 h.2

theorem head_le {oldest : ℤ × ℚ} (hhead : (series stored).head? = some oldest)
    (h : UsableOn stored day) : oldest.1 ≤ day := by
  obtain ⟨pair, hpair, rfl⟩ := mem_map.mp (mem_series.mpr h)
  have hstrict := series_strict stored
  cases hseries : series stored with
  | nil =>
    rw [hseries] at hhead
    cases hhead
  | cons first rest =>
    rw [hseries] at hhead hpair hstrict
    cases hhead
    rcases mem_cons.mp hpair with rfl | hrest
    · exact le_refl _
    · exact ((pairwise_cons.mp hstrict).1 pair hrest).le

theorem le_getLast {newest : ℤ × ℚ} (hlast : (series stored).getLast? = some newest)
    (h : UsableOn stored day) : day ≤ newest.1 := by
  obtain ⟨pair, hpair, rfl⟩ := mem_map.mp (mem_series.mpr h)
  have hstrict := series_strict stored
  obtain ⟨front, hfront⟩ := getLast?_eq_some_iff.mp hlast
  rw [hfront] at hpair hstrict
  rcases mem_append.mp hpair with hin | hsame
  · exact ((pairwise_append.mp hstrict).2.2 pair hin newest mem_cons_self).le
  · rw [mem_singleton.mp hsame]

/-! ### What is stored -/

variable {bar : Offer}

/-- A bar that is stored can be used. -/
theorem usableOn_upsert_of_mem (stored : Stored) {bars : List Offer}
    (hbar : bar ∈ bars) : UsableOn (upsertDailyMarketBars stored bars) bar.tradingDate := by
  unfold UsableOn upsertDailyMarketBars
  cases hlast : (bars.filter fun other =>
      toLex (other.tradingDate, "NSE") = toLex (bar.tradingDate, "NSE")).getLast? with
  | none =>
    rw [getLast?_eq_none_iff] at hlast
    exact absurd (mem_filter.mpr ⟨hbar, decide_eq_true rfl⟩) (hlast ▸ not_mem_nil)
  | some last =>
    refine ⟨"NSE", last.close, ?_, last.close_pos⟩
    rw [get?_foldl_set, hlast]
    rfl

/-- What could be used before can be used after other bars are stored. -/
theorem UsableOn.upsert (h : UsableOn stored day) (bars : List Offer) :
    UsableOn (upsertDailyMarketBars stored bars) day := by
  obtain ⟨provider, close, hget, hpos⟩ := h
  unfold UsableOn upsertDailyMarketBars
  cases hlast : (bars.filter fun other =>
      toLex (other.tradingDate, "NSE") = toLex (day, provider)).getLast? with
  | none =>
    refine ⟨provider, close, ?_, hpos⟩
    rw [get?_foldl_set, hlast]
    exact hget
  | some last =>
    refine ⟨provider, last.close, ?_, last.close_pos⟩
    rw [get?_foldl_set, hlast]
    rfl

/-! ### Windows -/

theorem addDays_eq_some {n result : ℤ} (h : addDays day n = some result) : result = day + n :=
  (Option.some.inj (Option.ite_none_right_eq_some.mp h).2).symm

variable {window : ℤ × ℤ}

/-- The three ways in which a window is chosen. -/
theorem nextWindow_cases {usable : List (ℤ × ℚ)}
    (h : nextWindow windowDays today usable = some window) :
    (∃ newest, usable.getLast? = some newest ∧
        window = (newest.1 + 1, min today (newest.1 + windowDays))) ∨
      (∃ oldest, usable.head? = some oldest ∧ window = (oldest.1 - windowDays, oldest.1 - 1)) ∨
      usable = [] ∧ window = (today - windowDays + 1, today) := by
  unfold nextWindow at h
  split at h
  · obtain ⟨newest, hnewest, h⟩ := Option.bind_eq_some_iff.mp h
    obtain ⟨first, hfirst, h⟩ := Option.bind_eq_some_iff.mp h
    obtain ⟨last, hlast, rfl⟩ := Option.map_eq_some_iff.mp h
    refine Or.inl ⟨newest, hnewest, ?_⟩
    rw [addDays_eq_some hlast, addDays_eq_some hfirst]
    congr 2
    omega
  · obtain ⟨last, hlast, h⟩ := Option.bind_eq_some_iff.mp h
    obtain ⟨first, hfirst, rfl⟩ := Option.map_eq_some_iff.mp h
    rw [addDays_eq_some hfirst]
    refine Or.inr ?_
    cases hhead : usable.head? with
    | some oldest =>
      rw [hhead] at hlast
      rw [addDays_eq_some hlast]
      refine Or.inl ⟨oldest, rfl, ?_⟩
      congr 1
      omega
    | none =>
      rw [hhead] at hlast
      cases hlast
      refine Or.inr ⟨head?_eq_none_iff.mp hhead, ?_⟩
      congr 1
      omega

/-- A window has so many days at most, and no date with a usable bar. -/
theorem nextWindow_fresh (h : nextWindow windowDays today (series stored) = some window) :
    window.2 - window.1 + 1 ≤ windowDays ∧
      ∀ day, UsableOn stored day → ¬ (window.1 ≤ day ∧ day ≤ window.2) := by
  rcases nextWindow_cases h with ⟨newest, hnewest, rfl⟩ | ⟨oldest, holdest, rfl⟩ | ⟨hnil, rfl⟩
  · have hend := min_le_right today (newest.1 + windowDays)
    refine ⟨?_, fun day husable hin => ?_⟩
    · dsimp only
      omega
    · have hle := le_getLast hnewest husable
      dsimp only at hin
      omega
  · refine ⟨?_, fun day husable hin => ?_⟩
    · dsimp only
      omega
    · have hle := head_le holdest husable
      dsimp only at hin
      omega
  · refine ⟨?_, fun day husable _ => ?_⟩
    · dsimp only
      omega
    · have hmem := mem_series.mpr husable
      rw [hnil] at hmem
      exact not_mem_nil hmem

/-! ### The loop -/

theorem mem_offersIn {offers : List Offer} {first last : ℤ} : bar ∈ offersIn offers first last ↔
      bar ∈ offers ∧ first ≤ bar.tradingDate ∧ bar.tradingDate ≤ last := by
  unfold offersIn
  rw [mem_filter, decide_eq_true_eq]

/-- What is promised of a request. -/
def Request.Fresh (windowDays : ℕ) (request : Request) : Prop :=
  request.last - request.first + 1 ≤ windowDays ∧
    ∀ day, UsableOn request.held day → ¬ (request.first ≤ day ∧ day ≤ request.last)

/-- What holds of the loop with so many windows left: few requests are made, all of them fresh, and
what could be used still can. -/
structure Bounded (windowDays left : ℕ) (stored : Stored) (pass : Pass) : Prop where
  few : pass.requests.length ≤ left
  fresh : ∀ request ∈ pass.requests, request.Fresh windowDays
  kept : ∀ day, UsableOn stored day → UsableOn pass.stored day

variable {left used : ℕ}

theorem bounded_of_no_request (failure : Option String) (ending : Ending) :
    Bounded windowDays left stored ⟨stored, [], failure, ending⟩ :=
  ⟨Nat.zero_le left, fun _ hrequest => absurd hrequest not_mem_nil, fun _ husable => husable⟩

theorem bounded_of_request {request : Request} {stored' : Stored}
    (hfresh : request.Fresh windowDays) (hkept : ∀ day, UsableOn stored day → UsableOn stored' day)
    (failure : Option String) (ending : Ending) :
    Bounded windowDays (left + 1) stored ⟨stored', [request], failure, ending⟩ := by
  refine ⟨Nat.succ_le_succ (Nat.zero_le left), fun other hother => ?_, hkept⟩
  rw [mem_singleton.mp hother]
  exact hfresh

theorem runWindows_bounded (turns : ℕ → Turn) (left used : ℕ) (stored : Stored) :
    Bounded windowDays left stored
      (runWindows windowDays today turns left used stored (series stored)) := by
  induction left generalizing used stored with
  | zero => exact bounded_of_no_request none .finished
  | succ left ih =>
    rw [runWindows]
    split
    · exact bounded_of_no_request none _
    · rename_i first last hwindow
      split
      · exact bounded_of_no_request none _
      · have hfresh : Request.Fresh windowDays ⟨first, last, stored⟩ := nextWindow_fresh hwindow
        have hstored : ∀ day, UsableOn stored day → UsableOn (upsertDailyMarketBars stored
              (offersIn (turns used).offers first last)) day :=
          fun day husable => husable.upsert _
        have hkept : ∀ kept : Bool, ∀ day, UsableOn stored day →
            UsableOn (if kept then upsertDailyMarketBars stored
              (offersIn (turns used).offers first last) else stored) day := by
          intro kept
          cases kept with
          | true => exact hstored
          | false => exact fun day husable => husable
        dsimp only
        split
        · rename_i kept _
          exact bounded_of_request hfresh (hkept kept) none _
        · rename_i kept _
          exact bounded_of_request hfresh (hkept kept) none _
        · exact bounded_of_request hfresh (fun day husable => husable) _ _
        · split
          · exact bounded_of_request hfresh (fun day husable => husable) _ _
          · split
            · exact bounded_of_request hfresh hstored none _
            · exact bounded_of_request hfresh hstored none _
            · split
              · exact bounded_of_request hfresh hstored none _
              · obtain ⟨hfew, hall, hrest⟩ := ih (used + 1)
                  (upsertDailyMarketBars stored (offersIn (turns used).offers first last))
                refine ⟨Nat.succ_le_succ hfew, fun request hrequest => ?_,
                  fun day husable => hrest day (hstored day husable)⟩
                rcases mem_cons.mp hrequest with rfl | hin
                · exact hfresh
                · exact hall request hin

/-- No exception comes up in a turn. -/
structure Turn.Calm (turn : Turn) : Prop where
  reply : ∀ exception persisted, turn.reply ≠ .raised exception persisted
  read : ∀ exception, turn.read ≠ .raised exception

variable {turns : ℕ → Turn}

/-- A loop without exceptions from outside can only fail to find a date, and then the history is not
covered yet. -/
theorem uncovered_of_raised (hcalm : ∀ n, (turns n).Calm)
    (huncovered : isCovered (series stored) today = false) {exception : String}
    (hraised : (runWindows windowDays today turns left used stored (series stored)).ending =
      .raised exception) :
    isCovered (series (runWindows windowDays today turns left used stored
      (series stored)).stored) today = false := by
  induction left generalizing used stored with
  | zero => cases hraised
  | succ left ih =>
    rw [runWindows] at hraised ⊢
    split at hraised
    · exact huncovered
    · rename_i first last hwindow
      split at hraised
      · cases hraised
      · rename_i hordered
        dsimp only at hraised ⊢
        rw [if_neg hordered]
        split at hraised
        · rename_i exception kept hreply
          exact absurd hreply ((hcalm used).reply exception kept)
        · cases hraised
        · cases hraised
        · split at hraised
          · cases hraised
          · rename_i hsome
            rw [if_neg hsome]
            split at hraised
            · rename_i exception hread
              exact absurd hread ((hcalm used).read exception)
            · cases hraised
            · split at hraised
              · cases hraised
              · rename_i hnot
                dsimp only at hraised ⊢
                rw [if_neg hnot]
                exact ih (eq_false_iff.mpr hnot) hraised

/-- Where the exchange offers a bar in the first window, a new date can be used afterwards. -/
theorem exists_new (hreply : (turns used).reply = .offered)
    (hwindow : nextWindow windowDays today (series stored) = some window)
    (hbar : bar ∈ offersIn (turns used).offers window.1 window.2) :
    ∃ day, UsableOn (runWindows windowDays today turns (left + 1) used stored
      (series stored)).stored day ∧ ¬ UsableOn stored day := by
  obtain ⟨-, hfirst, hlast⟩ := mem_offersIn.mp hbar
  refine ⟨bar.tradingDate, ?_, fun hold => (nextWindow_fresh hwindow).2 _ hold ⟨hfirst, hlast⟩⟩
  have hnew : UsableOn (upsertDailyMarketBars stored
      (offersIn (turns used).offers window.1 window.2)) bar.tradingDate :=
    usableOn_upsert_of_mem stored hbar
  have hsome : (offersIn (turns used).offers window.1 window.2).isEmpty = false := by
    rw [isEmpty_eq_false_iff]
    exact ne_nil_of_mem hbar
  rw [runWindows, hwindow]
  dsimp only
  rw [if_neg (not_lt.mpr (hfirst.trans hlast)), hreply]
  dsimp only
  rw [if_neg (eq_false_iff.mp hsome)]
  split
  · exact hnew
  · exact hnew
  · split
    · exact hnew
    · exact (runWindows_bounded turns left (used + 1) _).kept _ hnew

/-- Where it offers none there, the loop stops, and nothing is stored. -/
theorem stored_of_miss (hreply : (turns used).reply = .offered)
    (hmiss : ∀ window, nextWindow windowDays today (series stored) = some window →
      offersIn (turns used).offers window.1 window.2 = []) :
    (runWindows windowDays today turns (left + 1) used stored (series stored)).stored = stored := by
  rw [runWindows]
  split
  · rfl
  · rename_i first last hwindow
    split
    · rfl
    · dsimp only
      rw [hreply, hmiss _ hwindow]
      rfl

/-! ### A visit -/

/-- No exception comes up in a visit. -/
structure Visit.Calm (visit : Visit) : Prop where
  firstRead : visit.firstRead = none
  turns : ∀ n, (visit.turns n).Calm
  lastRead : visit.lastRead = none

/-- A date that is near what is stored, on either side. -/
def Near (windowDays : ℕ) (today : ℤ) (usable : List (ℤ × ℚ)) (day : ℤ) : Prop :=
  match usable.head?, usable.getLast? with
  | some oldest, some newest =>
    (oldest.1 - windowDays ≤ day ∧ day < oldest.1) ∨
      (newest.1 < day ∧ day ≤ newest.1 + windowDays)
  | _, _ => today - windowDays < day ∧ day ≤ today

/-- What is promised of what a visit asks for. -/
structure Modest (windowDays : ℕ) (visit : Visit) (stored : Stored) (outcome : Outcome) : Prop where
  few : outcome.requests.length ≤ 3
  fresh : ∀ request ∈ outcome.requests, request.Fresh windowDays
  covered : isCovered (series stored) visit.today = true → outcome.requests = []

/-- What is promised of what a visit attains. -/
structure Attains (windowDays : ℕ) (visit : Visit) (stored : Stored) (outcome : Outcome) :
    Prop where
  failed : outcome.failure ≠ none → isCovered (series outcome.stored) visit.today = false
  advanced : (∀ n, (visit.turns n).reply = .offered) →
    isCovered (series outcome.stored) visit.today = false →
    (∃ bar ∈ (visit.turns 0).offers,
      Near windowDays visit.today (series stored) bar.tradingDate) →
    ∃ day, UsableOn outcome.stored day ∧ ¬ UsableOn stored day

/-- Where the exchange offers something near, it offers something in the window that is asked for
first. -/
def Reaches (windowDays : ℕ) (visit : Visit) (stored : Stored) : Prop :=
  (∀ n, (visit.turns n).reply = .offered) → isCovered (series stored) visit.today = false →
    (∃ bar ∈ (visit.turns 0).offers,
      Near windowDays visit.today (series stored) bar.tradingDate) →
    ∃ window ∈ nextWindow windowDays visit.today (series stored),
      ∃ bar ∈ (visit.turns 0).offers, window.1 ≤ bar.tradingDate ∧ bar.tradingDate ≤ window.2

/-- The loop of a visit. -/
def loopOf (windowDays : ℕ) (visit : Visit) (stored : Stored) : Pass :=
  runWindows windowDays visit.today visit.turns etfHistoryMaxWindowsPerCycle 0 stored (series stored)

/-- A visit makes no request, or those of its loop. -/
theorem visitInstrument_cases (windowDays : ℕ) (visit : Visit) (stored : Stored) :
    ((visitInstrument windowDays visit stored).stored = stored ∧
        (visitInstrument windowDays visit stored).requests = []) ∨
      (isCovered (series stored) visit.today = false ∧
        (visitInstrument windowDays visit stored).stored = (loopOf windowDays visit stored).stored ∧
        (visitInstrument windowDays visit stored).requests =
          (loopOf windowDays visit stored).requests) := by
  unfold visitInstrument
  split
  · exact Or.inl ⟨rfl, rfl⟩
  · dsimp only
    split
    · exact Or.inl ⟨rfl, rfl⟩
    · rename_i hnot
      refine Or.inr ⟨eq_false_iff.mpr hnot, ?_⟩
      split
      · exact ⟨rfl, rfl⟩
      · exact ⟨rfl, rfl⟩
      · exact ⟨rfl, rfl⟩

theorem visit_modest (windowDays : ℕ) (visit : Visit) (stored : Stored) :
    Modest windowDays visit stored (visitInstrument windowDays visit stored) := by
  rcases visitInstrument_cases windowDays visit stored with
    ⟨-, hnone⟩ | ⟨huncovered, -, hrequests⟩
  · refine ⟨?_, fun request hrequest => ?_, fun _ => hnone⟩
    · rw [hnone]
      exact Nat.zero_le 3
    · rw [hnone] at hrequest
      exact absurd hrequest not_mem_nil
  · have hbounded : Bounded windowDays 3 stored (loopOf windowDays visit stored) :=
      runWindows_bounded visit.turns 3 0 stored
    refine ⟨hrequests ▸ hbounded.few, fun request hrequest => ?_, fun hcovered => ?_⟩
    · exact hbounded.fresh request (hrequests ▸ hrequest)
    · rw [huncovered] at hcovered
      cases hcovered

variable (windowDays) in
/-- A visit without exceptions that is not done already leaves what its loop leaves, and its failure
is reported where that does not cover the history. -/
theorem visitInstrument_calm (hcalm : visit.Calm) (stored : Stored)
    (huncovered : isCovered (series stored) visit.today = false) :
    (visitInstrument windowDays visit stored).stored = (loopOf windowDays visit stored).stored ∧
      ((visitInstrument windowDays visit stored).failure ≠ none →
        isCovered (series (loopOf windowDays visit stored).stored) visit.today = false) := by
  have hnot : ¬ isCovered (series stored) visit.today = true := by
    rw [huncovered]
    exact Bool.false_ne_true
  unfold visitInstrument
  rw [hcalm.firstRead, hcalm.lastRead]
  dsimp only
  rw [← series, if_neg hnot]
  rw [← loopOf]
  cases hending : (loopOf windowDays visit stored).ending with
  | raised exception =>
    exact ⟨rfl, fun _ => uncovered_of_raised hcalm.turns huncovered hending⟩
  | finished =>
    refine ⟨rfl, fun hfailure => eq_false_iff.mpr fun hcovered => hfailure ?_⟩
    dsimp only
    rw [← series, if_pos hcovered]
  | timedOut =>
    refine ⟨rfl, fun hfailure => eq_false_iff.mpr fun hcovered => hfailure ?_⟩
    dsimp only
    rw [← series, if_pos hcovered]

/-- **A visit attains what it can exactly where the first window it asks for holds something.** -/
theorem visit_attains_iff (hcalm : visit.Calm) (stored : Stored) :
    Attains windowDays visit stored (visitInstrument windowDays visit stored) ↔
      Reaches windowDays visit stored := by
  constructor
  · intro hattains hoffered huncovered hnear
    by_contra hnone
    have hmiss : ∀ window, nextWindow windowDays visit.today (series stored) = some window →
        offersIn (visit.turns 0).offers window.1 window.2 = [] := by
      intro window hwindow
      refine eq_nil_iff_forall_not_mem.mpr fun bar hbar => hnone ?_
      obtain ⟨hoffer, hin⟩ := mem_offersIn.mp hbar
      exact ⟨window, hwindow, bar, hoffer, hin⟩
    have hstored : (visitInstrument windowDays visit stored).stored = stored :=
      (visitInstrument_calm windowDays hcalm stored huncovered).1.trans
        (stored_of_miss (hoffered 0) hmiss)
    obtain ⟨day, husable, hnew⟩ := hattains.advanced hoffered (by rw [hstored]; exact huncovered) hnear
    rw [hstored] at husable
    exact hnew husable
  · intro hreaches
    cases hcovered : isCovered (series stored) visit.today with
    | true =>
      have hdone : visitInstrument windowDays visit stored = ⟨stored, [], none⟩ := by
        unfold visitInstrument
        rw [hcalm.firstRead]
        exact if_pos hcovered
      rw [hdone]
      refine ⟨fun hfailure => absurd rfl hfailure, fun _ huncovered _ => ?_⟩
      rw [hcovered] at huncovered
      cases huncovered
    | false =>
      obtain ⟨hstored, hfailure⟩ := visitInstrument_calm windowDays hcalm stored hcovered
      refine ⟨fun hfailed => ?_, fun hoffered _ hnear => ?_⟩
      · rw [hstored]
        exact hfailure hfailed
      · obtain ⟨window, hwindow, bar, hoffer, hin⟩ := hreaches hoffered hcovered hnear
        rw [hstored]
        exact exists_new (hoffered 0) hwindow (mem_offersIn.mpr ⟨hoffer, hin⟩)

/-! ### The rows -/

section

variable {K : Type} [DecidableEq K] {key : K} {row : Row K} {rows : List (Row K)}

/-- What is left for an instrument. -/
def Coverage.resultOf (s : Coverage K) (key : K) : Outcome :=
  ⟨s.stored key, (s.requests.filter fun request => request.1 = key).map Prod.snd,
    s.failures.get? key⟩

theorem resultOf_visitRow_other (s : Coverage K) (hother : row.instrument ≠ some key) :
    (visitRow windowDays s row).resultOf key = s.resultOf key := by
  unfold visitRow
  split
  · rfl
  · rename_i own hown
    have hne : key ≠ own := fun hsame => hother (hown.trans (congrArg some hsame.symm))
    unfold Coverage.resultOf
    dsimp only
    congr 1
    · exact Function.update_of_ne hne _ _
    · have hnone : (((visitInstrument windowDays row.visit (s.stored own)).requests.map
          fun request => (own, request)).filter fun request => request.1 = key) = [] := by
        refine filter_eq_nil_iff.mpr fun request hrequest => ?_
        obtain ⟨_, -, rfl⟩ := mem_map.mp hrequest
        simpa using Ne.symm hne
      rw [filter_append, hnone, append_nil]
    · split
      · rfl
      · rw [get?_set, if_neg hne]

/-- An instrument that nothing was done for is left with the outcome of its visit. -/
theorem resultOf_visitRow_own (s : Coverage K) (hown : row.instrument = some key)
    (hrequests : (s.resultOf key).requests = []) (hfailure : (s.resultOf key).failure = none) :
    (visitRow windowDays s row).resultOf key =
      visitInstrument windowDays row.visit (s.stored key) := by
  unfold visitRow
  rw [hown]
  dsimp only
  generalize visitInstrument windowDays row.visit (s.stored key) = outcome
  obtain ⟨stored', requests', failure'⟩ := outcome
  unfold Coverage.resultOf at hrequests hfailure ⊢
  dsimp only at hrequests hfailure ⊢
  congr 1
  · exact Function.update_self _ _ _
  · have hall : (requests'.map fun request => (key, request)).filter (fun request => request.1 = key) =
        requests'.map fun request => (key, request) := by
      refine filter_eq_self.mpr fun request hrequest => ?_
      obtain ⟨_, -, rfl⟩ := mem_map.mp hrequest
      exact decide_eq_true rfl
    rw [filter_append, map_append, hrequests, nil_append, hall, map_map]
    exact map_id _
  · cases failure' with
    | none => exact hfailure
    | some failure => exact get?_set_self _ _ _

theorem resultOf_foldl_other (hother : key ∉ rows.filterMap Row.instrument) (s : Coverage K) :
    (rows.foldl (visitRow windowDays) s).resultOf key = s.resultOf key := by
  induction rows generalizing s with
  | nil => rfl
  | cons row rows ih =>
    have hfirst : row.instrument ≠ some key := fun hown =>
      hother (mem_filterMap.mpr ⟨row, mem_cons_self, hown⟩)
    have hrest : key ∉ rows.filterMap Row.instrument := by
      intro hin
      obtain ⟨row', hrow', hown⟩ := mem_filterMap.mp hin
      exact hother (mem_filterMap.mpr ⟨row', mem_cons_of_mem row hrow', hown⟩)
    rw [foldl_cons, ih hrest, resultOf_visitRow_other s hfirst]

/-- What is left for the instrument of a row is the outcome of the visit of that row, whatever
becomes of the other rows. -/
theorem resultOf_own (stored : K → Stored) (hdistinct : (rows.filterMap Row.instrument).Nodup)
    (hrow : row ∈ rows) (hown : row.instrument = some key) :
    (ensureEtfHistoricalCoverage windowDays rows stored).resultOf key =
      visitInstrument windowDays row.visit (stored key) := by
  obtain ⟨before, after, rfl⟩ := append_of_mem hrow
  rw [filterMap_append, filterMap_cons_some hown, nodup_append] at hdistinct
  obtain ⟨-, hcons, hdisjoint⟩ := hdistinct
  have hbefore : key ∉ before.filterMap Row.instrument := fun hin =>
    hdisjoint key hin key mem_cons_self rfl
  have hstart : (before.foldl (visitRow windowDays)
      (⟨stored, [], Dict.empty⟩ : Coverage K)).resultOf key = ⟨stored key, [], none⟩ :=
    resultOf_foldl_other hbefore _
  unfold ensureEtfHistoricalCoverage
  rw [foldl_append, foldl_cons, resultOf_foldl_other (nodup_cons.mp hcons).1,
    resultOf_visitRow_own _ hown (congrArg Outcome.requests hstart)
      (congrArg Outcome.failure hstart)]
  exact congrArg (visitInstrument windowDays row.visit) (congrArg Outcome.stored hstart)

/-- **The top-up of the history.**  Where every instrument has one row, what becomes of it depends
on its own row alone: at most three windows are asked for, each of so many days at most and without
a usable date, and none where the history is covered.  Without exceptions from outside, a failure is
reported only where the history is not covered, and a visit gets on where it could, exactly where
each first window holds a bar if anything near does. -/
theorem history_top_up (windowDays : ℕ) (stored : K → Stored)
    (hdistinct : (rows.filterMap Row.instrument).Nodup) :
    (∀ row ∈ rows, ∀ key ∈ row.instrument,
      (ensureEtfHistoricalCoverage windowDays rows stored).resultOf key =
          visitInstrument windowDays row.visit (stored key) ∧
        Modest windowDays row.visit (stored key)
          ((ensureEtfHistoricalCoverage windowDays rows stored).resultOf key)) ∧
      (∀ key ∉ rows.filterMap Row.instrument,
        (ensureEtfHistoricalCoverage windowDays rows stored).resultOf key =
          ⟨stored key, [], none⟩) ∧
      ((∀ row ∈ rows, row.visit.Calm) →
        ((∀ row ∈ rows, ∀ key ∈ row.instrument,
            Attains windowDays row.visit (stored key)
              ((ensureEtfHistoricalCoverage windowDays rows stored).resultOf key)) ↔
          ∀ row ∈ rows, ∀ key ∈ row.instrument,
            Reaches windowDays row.visit (stored key))) := by
  refine ⟨fun row hrow key hown => ?_, fun key hother => resultOf_foldl_other hother _,
    fun hcalm => ?_⟩
  · rw [resultOf_own stored hdistinct hrow hown]
    exact ⟨rfl, visit_modest windowDays row.visit (stored key)⟩
  · refine forall_congr' fun row => forall_congr' fun hrow => forall_congr' fun key =>
      forall_congr' fun hown => ?_
    rw [resultOf_own stored hdistinct hrow hown]
    exact visit_attains_iff (hcalm row hrow) (stored key)

end

/-! ### A fund that was listed lately -/

/-- A visit at which everything works, and these bars are offered. -/
def quietVisit (today : ℤ) (offers : List Offer) : Visit :=
  ⟨today, none, fun _ => ⟨offers, .offered, .ok⟩, none⟩

/-- The bar of the first day that the fund was traded is stored. -/
def firstDay : Stored := ⟨[(toLex (739000, "NSE"), some 100)], nodup_singleton _⟩

def secondDay : Offer := ⟨739001, 101, by norm_num⟩

def listedLately : List (Row ℕ) := [⟨some "ETF", some 7, quietVisit 739010 [secondDay]⟩]

theorem history_top_up_sample :
    Modest 30 (quietVisit 739010 [secondDay]) firstDay
      ((ensureEtfHistoricalCoverage 30 listedLately fun _ => firstDay).resultOf 7) := by
  have hdistinct : (listedLately.filterMap Row.instrument).Nodup := by decide
  obtain ⟨hown, -, -⟩ := history_top_up 30 (fun _ => firstDay) hdistinct
  exact (hown _ List.mem_cons_self 7 rfl).2

/-- Nothing older than the first day is there, so the first window is empty, and the loop ends
without the second day that the exchange offers. -/
theorem second_day_never_stored :
    (listedLately.filterMap Row.instrument).Nodup ∧
      ¬ Attains 30 (quietVisit 739010 [secondDay]) firstDay
        ((ensureEtfHistoricalCoverage 30 listedLately fun _ => firstDay).resultOf 7) := by
  refine ⟨by decide, fun hattains => ?_⟩
  have hitems : ((ensureEtfHistoricalCoverage 30 listedLately fun _ => firstDay).resultOf 7).stored.items =
      firstDay.items := by decide +kernel
  have hstored := Dict.eq_of_items hitems
  obtain ⟨day, husable, hnew⟩ := hattains.advanced (fun _ => rfl)
    (by rw [hstored]; decide +kernel)
    ⟨secondDay, List.mem_singleton_self _, by
      show Near 30 739010 (series firstDay) 739001
      have hseries : series firstDay = [(739000, 100)] := by decide +kernel
      rw [hseries]
      exact Or.inr ⟨by decide, by decide⟩⟩
  rw [hstored] at husable
  exact hnew husable

end InvestmentPlatform.Etf.HistoricalCoverage
