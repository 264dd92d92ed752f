/-
Every recommendation of a back-test has one sample in every bucket.

The rows file one sample each under every bucket, so a bucket is the history in the order of the
three loops.  What an evaluated sample rests on is read off the place that appended it.
-/
import InvestmentPlatform.Proofs.Backtest.Rows
import InvestmentPlatform.Backtest.Ascii

namespace InvestmentPlatform.Backtest

open Filing List PyDouble
open Fallible (mapM_eq_ok exists_of_forall₂)

variable {F : Type} [PyDouble F] [PyLibrary F] {normalize : Normalizer} {p : Parameters}

/-! ### The account -/

/-- The result has the buckets of the horizons, and in each of them one sample for each row of the
history, in an order that is the same in every bucket; `R` is what is known of a row's sample. -/
structure Partition (history : List (Recommendation F)) (horizons : List (String × Nat))
    (result : BacktestResult F) (R : String × Nat → Recommendation F → Sample F → Prop) :
    Prop where
  buckets : result.samples.map Prod.fst = horizons.map Prod.fst
  distinct : (horizons.map Prod.fst).Nodup
  samples : ∃ order : List (Recommendation F), order.Perm history ∧
    Forall₂ (fun horizon bucket => horizon.1 = bucket.1 ∧
      Forall₂ (R horizon) order bucket.2) horizons result.samples
  metrics : Forall₂ (fun horizon bucket => horizon.1 = bucket.1 ∧
    bucket.2.evaluatedCount + bucket.2.notMaturedCount + bucket.2.missingMarketDataCount +
      bucket.2.outsideEvaluationWindowCount + bucket.2.insufficientEvidenceCount +
      bucket.2.backendFailureCount = bucket.2.recommendationCount ∧
    bucket.2.recommendationCount = history.length) horizons result.metrics
  recommendationCount : result.recommendationCount = history.length

omit [PyDouble F] [PyLibrary F] in
theorem Partition.mono {history : List (Recommendation F)} {horizons : List (String × Nat)}
    {result : BacktestResult F} {R R' : String × Nat → Recommendation F → Sample F → Prop}
    (h : Partition history horizons result R) (himp : ∀ horizon r s, R horizon r s → R' horizon r s) :
    Partition history horizons result R' := by
  obtain ⟨order, hperm, hsamples⟩ := h.samples
  refine { h with samples := ⟨order, hperm, hsamples.imp fun horizon bucket hbucket => ?_⟩ }
  exact ⟨hbucket.1, hbucket.2.imp (himp horizon)⟩

omit [PyLibrary F] in
theorem metrics_counts (samples : List (Sample F)) :
    (metrics samples).evaluatedCount + (metrics samples).notMaturedCount +
      (metrics samples).missingMarketDataCount + (metrics samples).outsideEvaluationWindowCount +
      (metrics samples).insufficientEvidenceCount + (metrics samples).backendFailureCount =
      (metrics samples).recommendationCount := by
  simp only [metrics]
  induction samples with
  | nil => rfl
  | cons s samples ih =>
      simp only [countP_cons, length_cons]
      cases s.status <;> simp <;> omega

variable {prices : Dict String (List MarketPriceObservation)}

theorem partition_of_run {backtestId : String} {history : List (Recommendation F)}
    {start endAt now : PyValue F}
    {horizon : String} {benchmark : Option (List MarketPriceObservation)}
    {result : BacktestResult F}
    (h : evaluateBacktestWith normalize backtestId history prices start endAt horizon now
      benchmark = .ok result) :
    ∃ p, accept start endAt horizon now = .ok p ∧
      Partition history p.horizons result fun horizon r sample =>
        ∃ c, classify p r = .ok c ∧ SampleOf normalize p prices horizon c sample := by
  obtain ⟨p, classified, log, haccept, hclassified, hfiles, rfl⟩ := evaluateBacktestWith_ok.mp h
  have hp := (accept_valid haccept).1
  have hsamples := sampleOf_of_run hp hfiles
  have hrecommendations := map_recommendation hclassified
  have hperm := (inLoopOrder_perm classified).map fun c => c.2.recommendation
  rw [hrecommendations] at hperm
  have hlength : ∀ horizon ∈ p.horizons, (under horizon.1 log).length = history.length := by
    intro horizon hmem
    rw [← (hsamples horizon hmem).length_eq, ← hperm.length_eq, length_map]
  refine ⟨p, haccept, ?_, hp.nodup, ⟨_, hperm, ?_⟩, ?_, ?_⟩
  · simp [summarize]
  · rw [summarize, forall₂_map_right_iff, forall₂_same]
    refine fun horizon hmem => ⟨rfl, ?_⟩
    rw [forall₂_map_left_iff]
    refine forall₂_iff_zip.mpr ⟨(hsamples horizon hmem).length_eq, fun {c sample} hzip => ?_⟩
    have hc := (inLoopOrder_perm classified).mem_iff.mp (of_mem_zip hzip).1
    obtain ⟨r, -, hr⟩ := (exists_of_forall₂ (mapM_eq_ok.mp hclassified)).2 c hc
    have hsame : c.2.recommendation = r := by rw [(classify_ok hr).1]
    rw [hsame]
    exact ⟨c, hr, (forall₂_iff_zip.mp (hsamples horizon hmem)).2 hzip⟩
  · rw [summarize, forall₂_map_right_iff, forall₂_same]
    exact fun horizon hmem => ⟨rfl, metrics_counts _, hlength horizon hmem⟩
  · have hcount := hperm.length_eq
    simp only [inLoopOrder, map_append, length_append, length_map] at hcount
    simp only [summarize]
    omega

/-! ### Evaluated samples -/

variable {i : Instant}

theorem represent_ok {j : Instant} (h : represent i = .ok j) : j = i := by
  unfold represent at h
  split at h
  · cases h
    rfl
  · cases h

theorem aware_ok {t : DateTime} (h : aware t = .ok i) : i = t.instant := by
  unfold aware at h
  split at h
  · cases h
  · exact represent_ok h

theorem addDays_ok {j : Instant} {days : Nat} (h : addDays i days = .ok j) : j = i + days * day :=
  represent_ok h

/-- The window test, when it returns. -/
theorem inExitWindow_ok {target : Instant} {row : MarketPriceObservation} {keep : Bool}
    (h : inExitWindow target row = .ok keep) :
    keep = true ↔ target ≤ row.observed ∧ row.observed ≤ target + 7 * day := by
  unfold inExitWindow at h
  cases haware : aware row.observedAt with
  | error e =>
      rw [haware] at h
      cases h
  | ok observed =>
      have hobserved : observed = row.observed := aware_ok haware
      simp only [haware, bind, Except.bind] at h
      split at h
      · rename_i hlt
        cases h
        rw [hobserved] at hlt
        exact ⟨fun h => (by cases h), fun h => absurd h.1 (not_le.mpr hlt)⟩
      · rename_i hle
        cases hadd : addDays target 7 with
        | error e =>
            rw [hadd] at h
            cases h
        | ok last =>
            rw [hadd] at h
            cases h
            rw [decide_eq_true_eq, addDays_ok hadd, hobserved]
            rw [hobserved, not_lt] at hle
            exact ⟨fun h => ⟨hle, h⟩, fun h => h.2⟩

omit [PyLibrary F] in
theorem positive_eq_some {x y : F} (h : positive x = some y) :
    lt (ofRat 0) y = true := by
  unfold positive at h
  split at h
  · cases h
    assumption
  · cases h

variable {r : Recommendation F}

theorem positive_of_persisted {price : F} (h : persistedReferencePrice r = .ok (some price)) :
    lt (ofRat 0) price = true := by
  unfold persistedReferencePrice at h
  split at h
  · unfold positivePrice at h
    split at h
    · exact positive_eq_some (Except.ok.inj h)
    · cases h
    · cases h
    · cases h
  · cases h

/-- An entry price is the persisted one, or the price of the last observation known. -/
theorem references_ok {row : Row F} {rows : List MarketPriceObservation} {entry : Option F}
    {observed : PriceHistory} (h : references normalize p row rows = .ok (entry, observed)) :
    ∃ known persisted, normalize row.instrumentId rows row.generatedAt none = .ok known ∧
      persistedReferencePrice row.context.recommendation = .ok persisted ∧
      entry = persisted.or (known.knownEntry.bind MarketPriceObservation.positivePrice) ∧
      normalize row.instrumentId rows p.now
        (known.knownEntry.bind MarketPriceObservation.currency) = .ok observed := by
  unfold references at h
  cases hknown : normalize row.instrumentId rows row.generatedAt none with
  | error e =>
      rw [hknown] at h
      cases h
  | ok known =>
      cases hpersisted : persistedReferencePrice row.context.recommendation with
      | error e =>
          simp only [hknown, hpersisted, bind, Except.bind] at h
          cases h
      | ok persisted =>
          simp only [hknown, hpersisted, bind, Except.bind] at h
          split at h
          · cases h
          · rename_i observed' hobserved
            cases h
            exact ⟨known, persisted, rfl, rfl, rfl, hobserved⟩

/-- What an evaluated sample rests on: its dates, its two prices and the observation it exits on. -/
structure Evaluated (p : Parameters) (prices : Dict String (List MarketPriceObservation))
    (days : Nat) (r : Recommendation F) (s : Sample F) (row : Row F) (due : Instant)
    (observed : PriceHistory) (exit : MarketPriceObservation) (entry price : F) : Prop where
  reads : row.Reads ⟨r, persistedAction r p.horizon, canonicalDirection (persistedAction r p.horizon)⟩
  target : due = row.generatedAt + (days : Int) * day
  matured : due ≤ p.now
  evaluationDate : s.evaluationDate = some row.generatedAt
  requiredEvaluationDate : s.requiredEvaluationDate = some due
  entryPrice : s.entryPrice = some entry
  exitPrice : s.exitPrice = some price
  entry_positive : PyDouble.lt (PyDouble.ofRat 0) entry = true
  price_positive : PyDouble.lt (PyDouble.ofRat 0) price = true
  read : references (normalizePriceHistory F) p row ((prices.get? row.instrumentId).getD []) =
    .ok (some entry, observed)
  exit_mem : exit ∈ observed.observations
  exit_price : exit.positivePrice = some price
  exit_window : due ≤ exit.observed ∧ exit.observed ≤ due + 7 * day
  exit_earliest : ∀ other ∈ observed.observations, due ≤ other.observed →
    other.observed ≤ due + 7 * day → exit.observed ≤ other.observed
  signal : ∃ change, s.returnPct = some change ∧
    (s.direction = some .buy ∧ s.signalReturnPct = some change ∨
      s.direction = some .sell ∧ s.signalReturnPct = some (-change))

/-- The account of a recommendation under a horizon. -/
structure Accounted (p : Parameters) (prices : Dict String (List MarketPriceObservation))
    (horizon : String × Nat) (r : Recommendation F) (s : Sample F) : Prop where
  recommendationId : s.recommendationId = recommendationId r
  evaluated : s.status = .evaluated → ∃ row due observed exit entry price,
    Evaluated p prices horizon.2 r s row due observed exit entry price

omit [PyLibrary F] in
theorem signed_buy (x : F) : signed (some .buy) x = x := by
  rw [signed, if_pos rfl]
  exact one_mul x

omit [PyLibrary F] in
theorem signed_sell (x : F) : signed (some .sell) x = -x := by
  rw [signed, if_neg (by decide)]
  exact neg_one_mul x

variable {s : Sample F}

theorem evaluated_of_due {days : Nat} {row : Row F} {due : Instant} (hrow : row.Reads
      ⟨r, persistedAction r p.horizon, canonicalDirection (persistedAction r p.horizon)⟩)
    (hdirection : row.context.direction ≠ none)
    (hdue : addDays row.generatedAt days = .ok due) (hmatured : due ≤ p.now)
    (hs : DueSample (normalizePriceHistory F) p row ((prices.get? row.instrumentId).getD []) due s)
    (hstatus : s.status = .evaluated) :
    ∃ observed exit entry price, Evaluated p prices days r s row due observed exit entry price := by
  cases hs with
  | unread => cases hstatus
  | failed => cases hstatus
  | missing => cases hstatus
  | @evaluated entry price observed exit rest adverse excess hread hwindow hprice =>
      obtain ⟨known, persisted, -, hpersisted, hentry, hobserved⟩ := references_ok hread
      have hmem := (mem_selectRows hwindow).mp mem_cons_self
      refine ⟨observed, exit, entry, price, ?_⟩
      exact {
        reads := hrow
        target := addDays_ok hdue
        matured := hmatured
        evaluationDate := rfl
        requiredEvaluationDate := rfl
        entryPrice := rfl
        exitPrice := rfl
        entry_positive := by
          cases persisted with
          | some price =>
              cases hentry
              exact positive_of_persisted hpersisted
          | none =>
              obtain ⟨last, -, hlast⟩ := Option.bind_eq_some_iff.mp hentry.symm
              exact positive_eq_some hlast
        price_positive := positive_eq_some hprice
        read := hread
        exit_mem := hmem.1
        exit_price := hprice
        exit_window := (inExitWindow_ok hmem.2).mp rfl
        exit_earliest := by
          intro other hother hafter hbefore
          obtain ⟨keep, hkeep⟩ := (selectRows_eq_ok.mp hwindow).1 other hother
          have hin : inExitWindow due other = .ok true := by
            rw [hkeep, (inExitWindow_ok hkeep).mpr ⟨hafter, hbefore⟩]
          have hsub : (exit :: rest).Sublist observed.observations := by
            rw [(selectRows_eq_ok.mp hwindow).2]
            exact filter_sublist
          have hsorted := (normalizePriceHistory_pairwise hobserved).sublist hsub
          rcases mem_cons.mp ((mem_selectRows hwindow).mpr ⟨hother, hin⟩) with rfl | hrest
          · exact le_rfl
          · exact le_of_lt (rel_of_pairwise_cons hsorted hrest)
        signal := by
          refine ⟨_, rfl, ?_⟩
          cases hd : row.context.direction with
          | none => exact absurd hd hdirection
          | some direction =>
              cases direction with
              | buy => exact Or.inl ⟨hd, congrArg some (by rw [signed_buy])⟩
              | sell => exact Or.inr ⟨hd, congrArg some (by rw [signed_sell])⟩ }

theorem recommendationId_of_sample {horizon : String × Nat} {c : Verdict × Context F}
    (hc : classify p r = .ok c) (hs : SampleOf normalize p prices horizon c s) :
    s.recommendationId = recommendationId r := by
  have hsame : c.2.recommendation = r := by rw [(classify_ok hc).1]
  cases hs with
  | outside => exact congrArg recommendationId hsame
  | insufficient => exact congrArg recommendationId hsame
  | notMatured hrow =>
      refine (congrArg recommendationId ?_).trans (congrArg recommendationId hsame)
      rw [hrow.same]
  | due hrow _ _ hdue =>
      have hrecommendation := congrArg Context.recommendation hrow.same
      cases hdue <;> exact congrArg recommendationId (hrecommendation.trans hsame)

theorem accounted_of_sample {horizon : String × Nat} {c : Verdict × Context F}
    (hc : classify p r = .ok c) (hs : SampleOf (normalizePriceHistory F) p prices horizon c s) :
    Accounted p prices horizon r s := by
  refine ⟨recommendationId_of_sample hc hs, fun hstatus => ?_⟩
  obtain ⟨hcontext, hcohort⟩ := classify_ok hc
  cases hs with
  | outside => cases hstatus
  | insufficient =>
      dsimp only [Context.sample] at hstatus
      split at hstatus
      · cases hstatus
      · cases hstatus
  | notMatured => cases hstatus
  | due hrow htarget hdue hsample =>
      obtain ⟨_, -, -, hdirection⟩ := hcohort fun h => Verdict.noConfusion h
      rw [← hrow.same] at hdirection
      dsimp only at hcontext
      rw [hcontext] at hrow
      obtain ⟨observed, exit, entry, price, h⟩ :=
        evaluated_of_due hrow hdirection htarget hdue hsample hstatus
      exact ⟨_, _, observed, exit, entry, price, h⟩

omit [PyDouble F] [PyLibrary F] in
/-- A run whose samples, read through `f`, come out as given. -/
theorem returns_of_samples {A : Type} {f : List (String × List (Sample F)) → A} {value : A}
    {run : Except Raised (BacktestResult F)}
    (h : run.toOption.map (fun result => f result.samples) = some value) :
    ∃ result, run = .ok result ∧ f result.samples = value := by
  cases run with
  | error e => cases h
  | ok result => exact ⟨result, rfl, Option.some.inj h⟩

/-- **Back-test accounting is a partition.**  Whatever the normaliser returns or raises, a run
returns if and only if its parameters and history can be read, and then every bucket of the chosen
type holds one sample for each recommendation and its six status counts add up to the length of the
history.  With the normaliser of the source, an evaluated sample is due, rests on two positive prices,
exits on the earliest observation of the week from its due date, and signs its return by its
direction. -/
theorem accounting_partition (backtestId : String) (history : List (Recommendation F))
    (prices : Dict String (List MarketPriceObservation)) (start endAt : PyValue F)
    (horizon : String) (now : PyValue F) (benchmark : Option (List MarketPriceObservation)) :
    (∀ normalize : Normalizer,
      ((∃ result, evaluateBacktestWith normalize backtestId history prices start endAt horizon now
        benchmark = .ok result) ↔ RunReadable history start endAt horizon now) ∧
      ∀ result, evaluateBacktestWith normalize backtestId history prices start endAt horizon now
        benchmark = .ok result →
        ∃ horizons, horizonsByRecommendationType horizon = some horizons ∧
          Partition history horizons result fun _ r s => s.recommendationId = recommendationId r) ∧
    ∀ result, evaluateBacktest backtestId history prices start endAt horizon now benchmark =
        .ok result →
      ∃ p, accept start endAt horizon now = .ok p ∧
        horizonsByRecommendationType horizon = some p.horizons ∧
        Partition history p.horizons result (Accounted p prices) := by
  refine ⟨fun normalize => ⟨evaluateBacktestWith_returns, fun result h => ?_⟩, fun result h => ?_⟩
  · obtain ⟨p, haccept, hpartition⟩ := partition_of_run h
    refine ⟨p.horizons, (accept_valid haccept).2.1, hpartition.mono ?_⟩
    rintro horizon r s ⟨c, hc, hs⟩
    exact recommendationId_of_sample hc hs
  · obtain ⟨p, haccept, hpartition⟩ := partition_of_run h
    refine ⟨p, haccept, (accept_valid haccept).2.1, hpartition.mono ?_⟩
    rintro horizon r s ⟨c, hc, hs⟩
    exact accounted_of_sample hc hs

attribute [local instance] asciiLibrary in
/-- One buy, one sale and one row that is neither, on a rise in the first week and a fall in the
first month. -/
theorem accounting_partition_of_three :
    ∃ result p,
      evaluateBacktest "run" [legacyRow "a" "X" 10 "BUY", legacyRow "b" "X" 10 "sell ",
        legacyRow "c" "X" 10 "HOLD"] (pricesOf "X" [quote "X" 9 100, quote "X" 18 110, quote "X" 41 90])
        (.datetime (noon 10)) (.datetime (noon 10)) "SHORT_TERM" (.datetime (noon 50)) none =
          .ok result ∧
      (result.samples.map fun bucket => (bucket.1, bucket.2.map fun s => (s.status, s.signalReturnPct))) =
        [("1W", [(.outsideEvaluationWindow, none), (.evaluated, some 10), (.evaluated, some (-10))]),
          ("1M", [(.outsideEvaluationWindow, none), (.evaluated, some (-10)), (.evaluated, some 10)]),
          ("3M", [(.outsideEvaluationWindow, none), (.notMatured, none), (.notMatured, none)]),
          ("6M", [(.outsideEvaluationWindow, none), (.notMatured, none), (.notMatured, none)])] ∧
      Partition [legacyRow "a" "X" 10 "BUY", legacyRow "b" "X" 10 "sell ", legacyRow "c" "X" 10 "HOLD"]
        p.horizons result (Accounted p
          (pricesOf "X" [quote "X" 9 100, quote "X" 18 110, quote "X" 41 90])) := by
  have hrun : ∃ result, evaluateBacktest "run" [legacyRow "a" "X" 10 "BUY",
      legacyRow "b" "X" 10 "sell ", legacyRow "c" "X" 10 "HOLD"]
      (pricesOf "X" [quote "X" 9 100, quote "X" 18 110, quote "X" 41 90])
      (.datetime (noon 10)) (.datetime (noon 10)) "SHORT_TERM" (.datetime (noon 50)) none =
        .ok result ∧
      (result.samples.map fun bucket => (bucket.1, bucket.2.map fun s => (s.status, s.signalReturnPct))) =
        [("1W", [(.outsideEvaluationWindow, none), (.evaluated, some 10), (.evaluated, some (-10))]),
          ("1M", [(.outsideEvaluationWindow, none), (.evaluated, some (-10)), (.evaluated, some 10)]),
          ("3M", [(.outsideEvaluationWindow, none), (.notMatured, none), (.notMatured, none)]),
          ("6M", [(.outsideEvaluationWindow, none), (.notMatured, none), (.notMatured, none)])] :=
    returns_of_samples (by decide +kernel)
  obtain ⟨result, h, hsamples⟩ := hrun
  obtain ⟨p, -, -, hpartition⟩ := (accounting_partition "run" _ _ _ _ _ _ none).2 result h
  exact ⟨result, p, h, hsamples, hpartition⟩

end InvestmentPlatform.Backtest
