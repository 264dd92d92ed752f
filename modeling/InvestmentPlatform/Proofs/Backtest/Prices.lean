/-
What the normaliser returns, and what it cannot see.

The representatives come out in the order of their days, one for each day, and dropping spikes
keeps that order.  A row observed or retrieved after the as-of time is turned away by the filter
before anything else is asked of it, so two lists of rows that agree on what was known as of a
time normalise to the same history, up to the number of rejected rows.
-/
import InvestmentPlatform.Backtest.Values
import InvestmentPlatform.Lib.Fallible

namespace InvestmentPlatform.Backtest

open List

open Fallible (bind_eq_ok)

variable {F : Type} [PyDouble F]

/-! ### Selecting rows -/

section
variable {test : MarketPriceObservation → Except Raised Bool}

/-- The rows that pass, once every row has been tested. -/
theorem selectRows_eq_ok {rows kept : List MarketPriceObservation} :
    selectRows test rows = .ok kept ↔ (∀ row ∈ rows, ∃ keep, test row = .ok keep) ∧
      kept = rows.filter fun row => (test row).toOption = some true := by
  induction rows generalizing kept with
  | nil =>
      rw [filter_nil, and_iff_right (fun _ h => absurd h not_mem_nil)]
      exact ⟨fun h => (Except.ok.inj h).symm, fun h => congrArg Except.ok h.symm⟩
  | cons row rows ih =>
      rw [selectRows, bind_eq_ok, forall_mem_cons]
      constructor
      · rintro ⟨keep, hkeep, h⟩
        cases keep with
        | false =>
            obtain ⟨htested, rfl⟩ := ih.mp h
            rw [filter_cons_of_neg (by simp [hkeep, Except.toOption])]
            exact ⟨⟨⟨_, hkeep⟩, htested⟩, rfl⟩
        | true =>
            obtain ⟨rest, hrest, h⟩ := bind_eq_ok.mp h
            obtain ⟨htested, rfl⟩ := ih.mp hrest
            rw [filter_cons_of_pos (by simp [hkeep, Except.toOption])]
            exact ⟨⟨⟨_, hkeep⟩, htested⟩, (Except.ok.inj h).symm⟩
      · rintro ⟨⟨⟨keep, hkeep⟩, htested⟩, rfl⟩
        have hrest := ih.mpr ⟨htested, rfl⟩
        refine ⟨keep, hkeep, ?_⟩
        cases keep with
        | false =>
            rw [filter_cons_of_neg (by simp [hkeep, Except.toOption])]
            exact hrest
        | true =>
            rw [filter_cons_of_pos (by simp [hkeep, Except.toOption])]
            exact bind_eq_ok.mpr ⟨_, hrest, rfl⟩

/-- The kept rows are the ones that pass. -/
theorem mem_selectRows {rows kept : List MarketPriceObservation}
    (h : selectRows test rows = .ok kept) {row : MarketPriceObservation} :
    row ∈ kept ↔ row ∈ rows ∧ test row = .ok true := by
  rw [(selectRows_eq_ok.mp h).2, mem_filter, decide_eq_true_iff]
  cases test row <;> simp [Except.toOption]

/-- Rows that fail the test may as well not be there. -/
theorem selectRows_filter (p : MarketPriceObservation → Bool) {rows : List MarketPriceObservation}
    (h : ∀ row ∈ rows, ¬ p row → test row = .ok false) :
    selectRows test (rows.filter p) = selectRows test rows := by
  induction rows with
  | nil => rfl
  | cons row rows ih =>
      have hrest := ih fun r hr => h r (mem_cons_of_mem _ hr)
      by_cases hp : p row
      · rw [filter_cons_of_pos hp, selectRows, selectRows, hrest]
      · rw [filter_cons_of_neg hp, hrest, selectRows, h row mem_cons_self hp]
        rfl

end

/-! ### One row a day, in order -/

variable {rows : List MarketPriceObservation} {row : MarketPriceObservation}

theorem representative_mem (h : representative rows = some row) : row ∈ rows := by
  unfold representative at h
  dsimp only at h
  split at h
  · cases h
  · exact mem_of_mem_filter (Selection.firstMax_mem h).1

theorem sortedSet_pairwise (l : List Int) : (Selection.sortedSet l).Pairwise (· < ·) := by
  have hsorted : (Selection.sortedSet l).Pairwise (· ≤ ·) := by
    have : Std.Total fun a b : Int => a ≤ b := ⟨le_total⟩
    have : IsTrans Int fun a b => a ≤ b := ⟨fun _ _ _ => le_trans⟩
    exact pairwise_insertionSort _ _
  have hnodup : (Selection.sortedSet l).Nodup :=
    (perm_insertionSort _ _).nodup_iff.mpr (nodup_dedup l)
  exact (hsorted.and hnodup).imp fun ⟨hle, hne⟩ => lt_of_le_of_ne hle hne

theorem filter_zipIdx_sublist (p : MarketPriceObservation × Nat → Bool)
    (l : List MarketPriceObservation) : ((l.zipIdx.filter p).map Prod.fst).Sublist l := by
  have hsub := (filter_sublist (p := p) (l := l.zipIdx)).map Prod.fst
  rwa [zipIdx_map_fst] at hsub

/-- **The observations of a history are in the order of their days, one for each.** -/
theorem reduceHistory_pairwise (accepted : List MarketPriceObservation) (rejected : Nat)
    (currency : Option String) :
    (reduceHistory F accepted rejected currency).observations.Pairwise
      fun a b => a.observedDay < b.observedDay := by
  unfold reduceHistory
  dsimp only
  split
  · exact List.Pairwise.nil
  · refine List.Pairwise.sublist (filter_zipIdx_sublist _ _) ?_
    rw [filterMap_map]
    refine List.Pairwise.filterMap _ ?_ (sortedSet_pairwise _)
    intro d d' hlt a ha b hb
    have hday : ∀ {e : Int} {row : MarketPriceObservation},
        representative (accepted.filter fun row => row.observedDay = e) = some row →
          row.observedDay = e := fun h =>
      of_decide_eq_true (mem_filter.mp (representative_mem h)).2
    rw [hday ha, hday hb]
    exact hlt

variable {instrumentId : String} {asOf : Instant} {currency : Option String}

theorem normalizePriceHistory_ok {history : PriceHistory}
    (h : normalizePriceHistory F instrumentId rows asOf currency = .ok history) :
    ∃ accepted, selectRows (accepts F instrumentId asOf currency) rows = .ok accepted ∧
      history = reduceHistory F accepted (rows.length - accepted.length) currency := by
  unfold normalizePriceHistory at h
  obtain ⟨accepted, hrows, hdone⟩ := bind_eq_ok.mp h
  exact ⟨accepted, hrows, (Except.ok.inj hdone).symm⟩

theorem normalizePriceHistory_pairwise {history : PriceHistory}
    (h : normalizePriceHistory F instrumentId rows asOf currency = .ok history) :
    history.observations.Pairwise fun a b => a.observed < b.observed := by
  obtain ⟨accepted, -, rfl⟩ := normalizePriceHistory_ok h
  refine (reduceHistory_pairwise accepted _ currency).imp fun {a b} hlt => ?_
  by_contra hle
  exact absurd (Int.ediv_le_ediv (by decide) (not_lt.mp hle)) (not_le.mpr hlt)

/-! ### What was known -/

/-- The row was observed or retrieved after the time. -/
def MarketPriceObservation.After (row : MarketPriceObservation) (at' : Instant) : Prop :=
  at' < row.observed ∨ at' < row.retrieved

instance (row : MarketPriceObservation) (at' : Instant) : Decidable (row.After at') :=
  inferInstanceAs (Decidable (_ ∨ _))

/-- The rows that were there at a time, in order. -/
def knownAt (at' : Instant) (rows : List MarketPriceObservation) : List MarketPriceObservation :=
  rows.filter fun row => ¬ row.After at'

/-- The date-time exists in UTC: its conversion does not overflow. -/
def DateTime.Converts (t : DateTime) : Prop := t.offset.isSome → Representable t.instant

instance (t : DateTime) : Decidable t.Converts :=
  inferInstanceAs (Decidable (_ → _))

def MarketPriceObservation.Converts (row : MarketPriceObservation) : Prop :=
  row.observedAt.Converts ∧ row.retrievedAt.Converts

instance (row : MarketPriceObservation) : Decidable row.Converts :=
  inferInstanceAs (Decidable (_ ∧ _))

theorem asUtc_eq {t : DateTime} (h : t.Converts) : asUtc t = .ok t.instant := by
  unfold asUtc
  split
  · rfl
  · rename_i offset hoffset
    rw [represent, if_pos (h (by rw [hoffset]; rfl))]

theorem knownAt_of_le {at' now : Instant} (hle : at' ≤ now) {rows' : List MarketPriceObservation}
    (h : knownAt now rows = knownAt now rows') : knownAt at' rows = knownAt at' rows' := by
  have hsub : ∀ l, knownAt at' l = knownAt at' (knownAt now l) := by
    intro l
    rw [knownAt, knownAt, knownAt, filter_filter]
    refine filter_congr fun row _ => ?_
    have himp : ¬ row.After at' → ¬ row.After now := fun hnot hafter =>
      hnot (hafter.imp (lt_of_le_of_lt hle) (lt_of_le_of_lt hle))
    by_cases hafter : row.After at'
    · simp [hafter]
    · simp [hafter, himp hafter]
  rw [hsub rows, hsub rows', h]

/-- The filter on a convertible row, in closed form. -/
theorem accepts_eq (instrumentId : String) (asOf : Instant) (currency : Option String)
    (hconv : row.Converts) :
    accepts F instrumentId asOf currency row = .ok (decide (row.instrumentId = instrumentId) &&
      decide (¬ row.After asOf) && ((finiteNumber F row.price).any (0 < ·) &&
        currency.all fun c => row.currency = some c)) := by
  unfold accepts
  dsimp only
  rw [asUtc_eq hconv.1, asUtc_eq hconv.2]
  by_cases hid : row.instrumentId = instrumentId
  · by_cases hobserved : asOf < row.observedAt.instant
    · have hafter : row.After asOf := Or.inl hobserved
      simp [hid, hobserved, hafter, bind, Except.bind, pure, Except.pure]
    · by_cases hretrieved : asOf < row.retrievedAt.instant
      · have hafter : row.After asOf := Or.inr hretrieved
        simp [hid, hobserved, hretrieved, hafter, bind, Except.bind, pure, Except.pure]
      · have hafter : ¬ row.After asOf := not_or.mpr ⟨hobserved, hretrieved⟩
        simp [hid, hobserved, hretrieved, hafter, bind, Except.bind, pure, Except.pure]
  · simp [hid, pure, Except.pure]

/-- A row from after the as-of time fails the filter. -/
theorem accepts_after (hconv : row.Converts) (hafter : row.After asOf) :
    accepts F instrumentId asOf currency row = .ok false := by
  rw [accepts_eq _ _ _ hconv]
  simp [hafter]

/-- The history without the count of the rows that were turned away. -/
def PriceHistory.evidence (history : PriceHistory) : PriceHistory :=
  { history with rejectedCount := 0 }

theorem evidence_reduceHistory (accepted : List MarketPriceObservation) (rejected : Nat)
    (currency : Option String) :
    (reduceHistory F accepted rejected currency).evidence = reduceHistory F accepted 0 currency := by
  unfold reduceHistory
  dsimp only
  split
  · rfl
  · rfl

/-- Convertible rows never break the normaliser. -/
theorem normalizePriceHistory_returns (instrumentId : String)
    (asOf : Instant) (currency : Option String) (hconv : ∀ row ∈ rows, row.Converts) :
    ∃ history, normalizePriceHistory F instrumentId rows asOf currency = .ok history := by
  obtain ⟨accepted, haccepted⟩ :
      ∃ kept, selectRows (accepts F instrumentId asOf currency) rows = .ok kept :=
    ⟨_, selectRows_eq_ok.mpr ⟨fun row hr => ⟨_, accepts_eq _ _ _ (hconv row hr)⟩, rfl⟩⟩
  exact ⟨_, by rw [normalizePriceHistory, haccepted]; rfl⟩

/-- **No look-ahead in the normaliser.**  Two lists of rows that agree on what was known as of a
time have one history as of it, the number of rejected rows apart. -/
theorem normalizePriceHistory_known (instrumentId : String) {rows' : List MarketPriceObservation}
    (currency : Option String) (hconv : ∀ row ∈ rows, row.Converts)
    (hconv' : ∀ row ∈ rows', row.Converts) (hknown : knownAt asOf rows = knownAt asOf rows') :
    ∃ history history', normalizePriceHistory F instrumentId rows asOf currency = .ok history ∧
      normalizePriceHistory F instrumentId rows' asOf currency = .ok history' ∧
      history.evidence = history'.evidence := by
  have hfilter : ∀ {l : List MarketPriceObservation}, (∀ row ∈ l, row.Converts) →
      selectRows (accepts F instrumentId asOf currency) (knownAt asOf l) =
        selectRows (accepts F instrumentId asOf currency) l := fun hl =>
    selectRows_filter _ fun row hr hnot =>
      accepts_after (hl row hr) (by simpa using hnot)
  have hsame : selectRows (accepts F instrumentId asOf currency) rows =
      selectRows (accepts F instrumentId asOf currency) rows' := by
    rw [← hfilter hconv, hknown, hfilter hconv']
  obtain ⟨accepted, haccepted⟩ :
      ∃ kept, selectRows (accepts F instrumentId asOf currency) rows = .ok kept :=
    ⟨_, selectRows_eq_ok.mpr ⟨fun row hr => ⟨_, accepts_eq _ _ _ (hconv row hr)⟩, rfl⟩⟩
  refine ⟨reduceHistory F accepted (rows.length - accepted.length) currency,
    reduceHistory F accepted (rows'.length - accepted.length) currency, ?_, ?_, ?_⟩
  · rw [normalizePriceHistory, haccepted]
    rfl
  · rw [normalizePriceHistory, ← hsame, haccepted]
    rfl
  · rw [evidence_reduceHistory, evidence_reduceHistory]

end InvestmentPlatform.Backtest
