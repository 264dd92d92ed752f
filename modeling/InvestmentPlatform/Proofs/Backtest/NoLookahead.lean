/-
A back-test does not look ahead.

A row of prices reaches a result only through the normaliser, and the normaliser sees the rows
that were known as of the time it is asked about.  So the entry of a recommendation rests on what
was known when it was generated, a run rests on what is known now, and the list a recommendation
is put on rests on the recommendation.

Two things stand in the way of saying so of every input.  A date-time whose UTC value is outside
the calendar breaks the normaliser before the row is turned away, and the benchmark is the
instrument of the first price of its list, whenever that price was observed.
-/
import InvestmentPlatform.Proofs.Backtest.Accounting

namespace InvestmentPlatform.Backtest

open Filing List
open Fallible (mapM_eq_ok exists_of_forall₂)

variable {F : Type} [PyDouble F] [PyLibrary F] {p : Parameters}

/-- `prices.get(instrument_id, [])`. -/
def rowsOf (prices : Dict String (List MarketPriceObservation)) (instrumentId : String) :
    List MarketPriceObservation := (prices.get? instrumentId).getD []

/-- Every row of the map has date-times that exist in UTC. -/
def PricesConvert (prices : Dict String (List MarketPriceObservation)) : Prop :=
  ∀ instrumentId, ∀ row ∈ rowsOf prices instrumentId, row.Converts

/-! ### What the normaliser returns for two lists of rows -/

theorem observations_of_evidence {h h' : PriceHistory} (heq : h.evidence = h'.evidence) :
    h.observations = h'.observations := by
  have hsame := congrArg PriceHistory.observations heq
  exact hsame

/-- Two histories that differ in the number of rejected rows at most have one last entry. -/
theorem knownEntry_of_evidence {h h' : PriceHistory} (heq : h.evidence = h'.evidence) :
    h.knownEntry = h'.knownEntry := by
  have hconflict := congrArg PriceHistory.currentConflict heq
  unfold PriceHistory.knownEntry
  rw [observations_of_evidence heq]
  exact congrArg (fun c => if c then none else h'.observations.getLast?) hconflict

variable {row : Row F} {rows rows' : List MarketPriceObservation}

/-- The entries read of two lists of rows that agree on what was known at the entry. -/
theorem references_entry (hconv : ∀ r ∈ rows, r.Converts) (hconv' : ∀ r ∈ rows', r.Converts)
    (hknown : knownAt row.generatedAt rows = knownAt row.generatedAt rows') :
    (∃ entry observed observed', references (normalizePriceHistory F) p row rows =
        .ok (entry, observed) ∧
      references (normalizePriceHistory F) p row rows' = .ok (entry, observed') ∧
      (knownAt p.now rows = knownAt p.now rows' → observed.evidence = observed'.evidence)) ∨
    ∃ e, references (normalizePriceHistory F) p row rows = .error e ∧
      references (normalizePriceHistory F) p row rows' = .error e := by
  obtain ⟨known, known', hread, hread', hevidence⟩ :=
    normalizePriceHistory_known (F := F) row.instrumentId none hconv hconv' hknown
  unfold references
  rw [hread, hread']
  cases hpersisted : persistedReferencePrice row.context.recommendation with
  | error e => exact Or.inr ⟨e, rfl, rfl⟩
  | ok persisted =>
      have hentry := knownEntry_of_evidence hevidence
      obtain ⟨observed, hobserved⟩ := normalizePriceHistory_returns (F := F) row.instrumentId
        p.now (known.knownEntry.bind MarketPriceObservation.currency) hconv
      obtain ⟨observed', hobserved'⟩ := normalizePriceHistory_returns (F := F) row.instrumentId
        p.now (known'.knownEntry.bind MarketPriceObservation.currency) hconv'
      refine Or.inl ⟨persisted.or (known.knownEntry.bind MarketPriceObservation.positivePrice),
        observed, observed', ?_, ?_, fun hnow => ?_⟩
      · simp only [bind, Except.bind, hobserved]
        rfl
      · simp only [bind, Except.bind, hobserved', hentry]
        rfl
      · obtain ⟨o, o', ho, ho', heq⟩ := normalizePriceHistory_known (F := F) row.instrumentId
          (known.knownEntry.bind MarketPriceObservation.currency) hconv hconv' hnow
        rw [hobserved] at ho
        rw [hentry, hobserved'] at ho'
        cases ho
        cases ho'
        exact heq

/-! ### The entry of a recommendation -/

/-- The two price maps agree on what was known of a recommendation's instrument when it was
generated. -/
def AgreeWhenGenerated (prices prices' : Dict String (List MarketPriceObservation))
    (r : Recommendation F) : Prop :=
  ∀ generatedAt instrumentId, (r.item "generated_at" >>= utc) = .ok generatedAt →
    (r.item "global_instrument_id" >>= PyLibrary.uuid) = .ok instrumentId →
    knownAt generatedAt (rowsOf prices instrumentId) =
      knownAt generatedAt (rowsOf prices' instrumentId)

variable {s : Sample F}

theorem entryPrice_of_due {normalize : Normalizer}
    {target : Instant} (h : DueSample normalize p row rows target s) :
    s.entryPrice = (references normalize p row rows).toOption.bind Prod.fst := by
  cases h with
  | unread hread => rw [hread]; rfl
  | failed hread => rw [hread]; rfl
  | missing hread => rw [hread]; rfl
  | evaluated hread => rw [hread]; rfl

omit [PyDouble F] in
theorem reads_unique {row' : Row F} {context : Context F} (h : row.Reads context)
    (h' : row'.Reads context) : row = row' := by
  obtain ⟨context₁, generatedAt, instrumentId⟩ := row
  obtain ⟨context₂, generatedAt', instrumentId'⟩ := row'
  have hsame : context₁ = context₂ := h.same.trans h'.same.symm
  have hgenerated := Except.ok.inj (h.generatedAt.symm.trans h'.generatedAt)
  have hid := Except.ok.inj (h.instrumentId.symm.trans h'.instrumentId)
  dsimp only at hgenerated hid
  rw [hsame, hgenerated, hid]

variable {prices prices' : Dict String (List MarketPriceObservation)} {r : Recommendation F}
  {c : Verdict × Context F}

/-- **The entry of a sample rests on what was known when the recommendation was generated.** -/
theorem entryPrice_eq (hconv : PricesConvert prices) (hconv' : PricesConvert prices')
    {horizon : String × Nat} {s' : Sample F} (hc : classify p r = .ok c)
    (hagree : AgreeWhenGenerated prices prices' r)
    (hs : SampleOf (normalizePriceHistory F) p prices horizon c s)
    (hs' : SampleOf (normalizePriceHistory F) p prices' horizon c s') :
    s.entryPrice = s'.entryPrice := by
  have hr : c.2.recommendation = r := by rw [(classify_ok hc).1]
  cases hs with
  | outside =>
      cases hs' with
      | outside => rfl
  | insufficient =>
      cases hs' with
      | insufficient => rfl
  | notMatured hrow htarget hlater hentry =>
      cases hs' with
      | notMatured hrow' htarget' hlater' hentry' => exact Except.ok.inj (hentry.symm.trans hentry')
      | due hrow' htarget' hdue' hsample' =>
          rw [reads_unique hrow hrow', htarget'] at htarget
          cases htarget
          exact absurd hlater (not_lt.mpr hdue')
  | due hrow htarget hdue hsample =>
      cases hs' with
      | notMatured hrow' htarget' hlater' hentry' =>
          rw [reads_unique hrow' hrow, htarget] at htarget'
          cases htarget'
          exact absurd hlater' (not_lt.mpr hdue)
      | due hrow' htarget' hdue' hsample' =>
          cases reads_unique hrow hrow'
          have hgenerated := hrow.generatedAt
          have hid := hrow.instrumentId
          dsimp only at hr
          rw [hr] at hgenerated hid
          rw [entryPrice_of_due hsample, entryPrice_of_due hsample']
          rcases references_entry (p := p) (hconv _) (hconv' _) (hagree _ _ hgenerated hid) with
            ⟨entry, observed, observed', hread, hread', -⟩ | ⟨e, hread, hread'⟩
          · rw [rowsOf] at hread hread'
            rw [hread, hread']
            rfl
          · rw [rowsOf] at hread hread'
            rw [hread, hread']

/-! ### The whole run -/

/-- All prices of the list are of one instrument, as the caller reads them, and convert. -/
structure BenchmarkOf (benchmarkId : String) (benchmark : Option (List MarketPriceObservation)) :
    Prop where
  instrument : ∀ row ∈ benchmark.getD [], row.instrumentId = benchmarkId
  converts : ∀ row ∈ benchmark.getD [], row.Converts

variable {benchmarkId : String}

theorem excessOver_eq (hconv : ∀ r ∈ rows, r.Converts) (hconv' : ∀ r ∈ rows', r.Converts)
    (hgenerated : row.generatedAt ≤ p.now) (hknown : knownAt p.now rows = knownAt p.now rows')
    (exit : MarketPriceObservation) (marketReturn : F) :
    excessOver (normalizePriceHistory F) p row benchmarkId rows exit marketReturn =
      excessOver (normalizePriceHistory F) p row benchmarkId rows' exit marketReturn := by
  obtain ⟨before, before', hbefore, hbefore', hentry⟩ := normalizePriceHistory_known (F := F)
    benchmarkId none hconv hconv' (knownAt_of_le hgenerated hknown)
  obtain ⟨after, after', hafter, hafter', hobservations⟩ := normalizePriceHistory_known (F := F)
    benchmarkId none hconv hconv' hknown
  unfold excessOver
  rw [hbefore, hbefore', hafter, hafter']
  simp only [bind, Except.bind]
  rw [knownEntry_of_evidence hentry, observations_of_evidence hobservations]

variable {benchmark benchmark' : Option (List MarketPriceObservation)}

/-- A benchmark without a price gives what an empty list of prices would. -/
theorem benchmarkExcess_eq_excessOver (h : BenchmarkOf benchmarkId benchmark)
    (exit : MarketPriceObservation) (marketReturn : F) :
    benchmarkExcess (normalizePriceHistory F) p row benchmark exit marketReturn =
      excessOver (normalizePriceHistory F) p row benchmarkId (benchmark.getD []) exit
        marketReturn := by
  have hempty : excessOver (normalizePriceHistory F) p row benchmarkId [] exit marketReturn =
      .ok none := rfl
  cases benchmark with
  | none => exact hempty.symm
  | some rows =>
      cases rows with
      | nil => exact hempty.symm
      | cons first rows =>
          rw [← h.instrument first mem_cons_self]
          rfl

theorem maturedHorizon_eq
    {observed observed' : PriceHistory} (hobserved : observed.evidence = observed'.evidence)
    (hexcess : ∀ exit marketReturn,
      benchmarkExcess (normalizePriceHistory F) p row benchmark exit marketReturn =
        benchmarkExcess (normalizePriceHistory F) p row benchmark' exit marketReturn)
    (entry : Option F) (bucket : String) (target : Instant) :
    maturedHorizon (normalizePriceHistory F) p row benchmark entry observed bucket target =
      maturedHorizon (normalizePriceHistory F) p row benchmark' entry observed' bucket target := by
  unfold maturedHorizon
  simp only [observations_of_evidence hobserved, hexcess]

theorem maturedRow_eq (row : Row F)
    (hconv : ∀ r ∈ rows, r.Converts) (hconv' : ∀ r ∈ rows', r.Converts)
    (hgenerated : row.generatedAt ≤ p.now) (hknown : knownAt p.now rows = knownAt p.now rows')
    (hexcess : ∀ exit marketReturn,
      benchmarkExcess (normalizePriceHistory F) p row benchmark exit marketReturn =
        benchmarkExcess (normalizePriceHistory F) p row benchmark' exit marketReturn) :
    maturedRow (normalizePriceHistory F) p row rows benchmark =
      maturedRow (normalizePriceHistory F) p row rows' benchmark' := by
  funext matured
  unfold maturedRow
  rcases references_entry (p := p) hconv hconv' (knownAt_of_le hgenerated hknown) with
    ⟨entry, observed, observed', hread, hread', hevidence⟩ | ⟨e, hread, hread'⟩
  · rw [hread, hread']
    simp only [maturedHorizon_eq (hevidence hknown) hexcess]
  · rw [hread, hread']

omit [PyDouble F] [PyLibrary F] in
theorem forM_congr {A : Type} {f g : A → Evaluation F Unit} {l : List A}
    (h : ∀ a ∈ l, f a = g a) : l.forM f = l.forM g := by
  induction l with
  | nil => rfl
  | cons a l ih =>
      show (f a >>= fun _ => l.forM f) = (g a >>= fun _ => l.forM g)
      rw [h a mem_cons_self, ih fun b hb => h b (mem_cons_of_mem _ hb)]

theorem cohortRow_eq {context : Context F}
    (hconv : PricesConvert prices) (hconv' : PricesConvert prices')
    (hgenerated : ∀ generatedAt, (context.recommendation.item "generated_at" >>= utc) =
      .ok generatedAt → generatedAt ≤ p.now)
    (hknown : ∀ id, knownAt p.now (rowsOf prices id) = knownAt p.now (rowsOf prices' id))
    (hexcess : ∀ row : Row F, row.generatedAt ≤ p.now → ∀ exit marketReturn,
      benchmarkExcess (normalizePriceHistory F) p row benchmark exit marketReturn =
        benchmarkExcess (normalizePriceHistory F) p row benchmark' exit marketReturn) :
    cohortRow (normalizePriceHistory F) p prices benchmark context =
      cohortRow (normalizePriceHistory F) p prices' benchmark' context := by
  unfold cohortRow
  cases hitem : context.recommendation.item "generated_at" with
  | error e => rw [lift_error_bind, lift_error_bind]
  | ok value =>
      rw [lift_ok_bind, lift_ok_bind]
      cases hutc : (utc value : Except Raised Instant) with
      | error e => rw [lift_error_bind, lift_error_bind]
      | ok generatedAt =>
          rw [lift_ok_bind, lift_ok_bind]
          have hle := hgenerated generatedAt (by rw [hitem]; exact hutc)
          cases hid : context.recommendation.item "global_instrument_id" with
          | error e => rw [lift_error_bind, lift_error_bind]
          | ok text =>
              rw [lift_ok_bind, lift_ok_bind]
              cases huuid : (PyLibrary.uuid text : Except Raised String) with
              | error e => rw [lift_error_bind, lift_error_bind]
              | ok instrumentId =>
                  rw [lift_ok_bind, lift_ok_bind]
                  have hrow := maturedRow_eq (p := p)
                    ⟨context, generatedAt, instrumentId⟩ (hconv instrumentId)
                    (hconv' instrumentId) hle (hknown instrumentId) (hexcess _ hle)
                  exact congrArg (splitHorizons p ⟨context, generatedAt, instrumentId⟩ p.horizons >>= ·)
                    hrow

variable {history : List (Recommendation F)}

/-- **Two inputs that agree on what is known now give one result.** -/
theorem evaluateBacktest_known {start endAt now : PyValue F} {horizon : String}
    (hconv : PricesConvert prices) (hconv' : PricesConvert prices')
    (hbenchmark : BenchmarkOf benchmarkId benchmark)
    (hbenchmark' : BenchmarkOf benchmarkId benchmark')
    (hknown : ∀ nowAt, utc now = .ok nowAt →
      (∀ id, knownAt nowAt (rowsOf prices id) = knownAt nowAt (rowsOf prices' id)) ∧
        knownAt nowAt (benchmark.getD []) = knownAt nowAt (benchmark'.getD []))
    (backtestId backtestId' : String) :
    (evaluateBacktest backtestId history prices start endAt horizon now benchmark).map
        (fun result => { result with backtestId := "" }) =
      (evaluateBacktest backtestId' history prices' start endAt horizon now benchmark').map
        (fun result => { result with backtestId := "" }) := by
  have hcohort : ∀ (p : Parameters) (classified : List (Verdict × Context F)), p.Valid →
      (∀ id, knownAt p.now (rowsOf prices id) = knownAt p.now (rowsOf prices' id)) →
      knownAt p.now (benchmark.getD []) = knownAt p.now (benchmark'.getD []) →
      history.mapM (classify p) = .ok classified → ∀ context ∈ onList .cohort classified,
      cohortRow (normalizePriceHistory F) p prices benchmark context =
        cohortRow (normalizePriceHistory F) p prices' benchmark' context := by
    intro p classified hp hprices hbenchmarks hclassified context hmem
    obtain ⟨c, hc, rfl⟩ := mem_map.mp hmem
    obtain ⟨hc, hverdict⟩ := mem_filter.mp hc
    obtain ⟨r, -, hr⟩ := (exists_of_forall₂ (mapM_eq_ok.mp hclassified)).2 c hc
    obtain ⟨hcontext, hin⟩ := classify_ok hr
    obtain ⟨generatedAt, hgenerated, hle, -⟩ := hin (by rw [of_decide_eq_true hverdict]; decide)
    refine cohortRow_eq hconv hconv' (fun g hg => ?_) hprices fun row hrow exit marketReturn => ?_
    · rw [hcontext] at hg
      rw [← Except.ok.inj (hgenerated.symm.trans hg)]
      exact hle.trans hp.ordered.2
    · rw [benchmarkExcess_eq_excessOver hbenchmark, benchmarkExcess_eq_excessOver hbenchmark',
        excessOver_eq hbenchmark.converts hbenchmark'.converts hrow hbenchmarks]
  unfold evaluateBacktest evaluateBacktestWith
  cases haccept : accept start endAt horizon now with
  | error e => simp only [bind, Except.bind, Except.map]
  | ok p =>
      obtain ⟨hp, -, -, -, -, hnow⟩ := accept_valid haccept
      obtain ⟨hprices, hbenchmarks⟩ := hknown p.now hnow
      cases hclassified : history.mapM (classify p) with
      | error e =>
          simp only [bind, Except.bind, hclassified, Except.map]
      | ok classified =>
          simp only [bind, Except.bind, hclassified]
          have hrows : evaluateRows (normalizePriceHistory F) p prices benchmark
                (onList .outsideWindow classified) (onList .insufficientEvidence classified)
                (onList .cohort classified) =
              evaluateRows (normalizePriceHistory F) p prices' benchmark'
                (onList .outsideWindow classified) (onList .insufficientEvidence classified)
                (onList .cohort classified) := by
            unfold evaluateRows
            rw [forM_congr (hcohort p classified hp hprices hbenchmarks hclassified)]
          rw [hrows]
          split
          · rfl
          · rfl

/-! ### The cohort -/

/-- The row is put on the list that is evaluated on prices. -/
def inCohort (p : Parameters) (r : Recommendation F) : Bool :=
  match classify p r with
  | .ok (.cohort, _) => true
  | _ => false

theorem inCohort_of_classify
    (hc : classify p r = .ok c) : inCohort p r = decide (c.1 = .cohort) := by
  obtain ⟨verdict, context⟩ := c
  unfold inCohort
  rw [hc]
  cases verdict <;> rfl

/-- What the status of a sample says of the cohort. -/
structure ToldByStatus (p : Parameters) (r : Recommendation F) (s : Sample F) : Prop where
  inside : s.status = .evaluated ∨ s.status = .missingMarketData ∨ s.status = .backendFailure →
    inCohort p r = true
  outside : s.status = .outsideEvaluationWindow ∨ s.status = .insufficientEvidence →
    inCohort p r = false

theorem told_by_status {normalize : Normalizer} {horizon : String × Nat} (hc : classify p r = .ok c)
    (hs : SampleOf normalize p prices horizon c s) :
    ToldByStatus p r s := by
  have hin := inCohort_of_classify hc
  cases hs with
  | outside =>
      refine ⟨fun h => ?_, fun _ => hin⟩
      rcases h with h | h | h <;> cases h
  | insufficient =>
      refine ⟨fun h => ?_, fun _ => hin⟩
      dsimp only [Context.sample] at h
      split at h
      · rcases h with h | h | h <;> cases h
      · rcases h with h | h | h <;> cases h
  | notMatured =>
      refine ⟨fun _ => hin, fun h => ?_⟩
      rcases h with h | h <;> cases h
  | due hrow htarget hdue hsample =>
      refine ⟨fun _ => hin, fun h => ?_⟩
      cases hsample <;> rcases h with h | h <;> cases h

theorem length_onList {classified : List (Verdict × Context F)}
    (h : history.mapM (classify p) = .ok classified) :
    (onList .cohort classified).length = history.countP (inCohort p) := by
  rw [onList, length_map]
  induction mapM_eq_ok.mp h with
  | nil => rfl
  | @cons r c history classified hc hrest ih =>
      rw [countP_cons, filter_cons, ← ih (mapM_eq_ok.mpr hrest), inCohort_of_classify hc]
      split <;> rfl

/-! ### No look-ahead -/

/-- The samples two runs hold for a recommendation in one bucket. -/
structure SameEntry (prices prices' : Dict String (List MarketPriceObservation))
    (r : Recommendation F) (pair : Sample F × Sample F) : Prop where
  first : pair.1.recommendationId = recommendationId r
  second : pair.2.recommendationId = recommendationId r
  entry : AgreeWhenGenerated prices prices' r → pair.1.entryPrice = pair.2.entryPrice

theorem forall₂_zip {A B C : Type} {R : A → B → Prop} {R' : A → C → Prop} {Q : A → B × C → Prop}
    {l : List A} {m : List B} {m' : List C} (h : Forall₂ R l m) (h' : Forall₂ R' l m')
    (himp : ∀ a ∈ l, ∀ b c, R a b → R' a c → Q a (b, c)) : Forall₂ Q l (m.zip m') := by
  induction h generalizing m' with
  | nil => exact Forall₂.nil
  | @cons a b l m hab _ ih =>
      cases h' with
      | @cons _ c _ m' hac hrest =>
          refine Forall₂.cons (himp a mem_cons_self b c hab hac) ?_
          exact ih hrest fun a ha => himp a (mem_cons_of_mem _ ha)

theorem sameEntry_of_runs {start endAt now : PyValue F} {horizon : String}
    (hconv : PricesConvert prices) (hconv' : PricesConvert prices') {backtestId backtestId' : String}
    {result : BacktestResult F}
    (h : evaluateBacktest backtestId history prices start endAt horizon now benchmark =
      .ok result) :
    ∃ result' order,
      evaluateBacktest backtestId' history prices' start endAt horizon now benchmark' =
        .ok result' ∧ order.Perm history ∧
      Forall₂ (fun bucket bucket' => bucket.1 = bucket'.1 ∧
        bucket.2.length = history.length ∧ bucket'.2.length = history.length ∧
        Forall₂ (SameEntry prices prices') order (bucket.2.zip bucket'.2))
        result.samples result'.samples := by
  obtain ⟨result', h'⟩ := evaluateBacktestWith_returns.mpr (evaluateBacktestWith_returns.mp ⟨_, h⟩)
  obtain ⟨p, classified, log, haccept, hclassified, hfiles, rfl⟩ := evaluateBacktestWith_ok.mp h
  obtain ⟨p', classified', log', haccept', hclassified', hfiles', rfl⟩ :=
    evaluateBacktestWith_ok.mp h'
  cases haccept.symm.trans haccept'
  cases hclassified.symm.trans hclassified'
  have hp := (accept_valid haccept).1
  have hperm := (inLoopOrder_perm classified).map fun c => c.2.recommendation
  rw [map_recommendation hclassified] at hperm
  refine ⟨_, _, h', hperm, ?_⟩
  rw [summarize, summarize, forall₂_map_left_iff, forall₂_map_right_iff, forall₂_same]
  intro horizon hmem
  have hsamples := sampleOf_of_run hp hfiles horizon hmem
  have hsamples' := sampleOf_of_run hp hfiles' horizon hmem
  have hlength : (inLoopOrder classified).length = history.length := by
    rw [← hperm.length_eq, length_map]
  refine ⟨rfl, hsamples.length_eq.symm.trans hlength, hsamples'.length_eq.symm.trans hlength, ?_⟩
  rw [forall₂_map_left_iff]
  refine forall₂_zip hsamples hsamples' fun c hc s s' hs hs' => ?_
  obtain ⟨r, -, hr⟩ := (exists_of_forall₂ (mapM_eq_ok.mp hclassified)).2 c
    ((inLoopOrder_perm classified).mem_iff.mp hc)
  have hsame : c.2.recommendation = r := by rw [(classify_ok hr).1]
  rw [hsame]
  exact ⟨recommendationId_of_sample hr hs, recommendationId_of_sample hr hs',
    fun hagree => entryPrice_eq hconv hconv' hr hagree hs hs'⟩

/-- **Back-tests have no look-ahead.**  With date-times that exist in UTC: what is added, removed or
altered after a recommendation was generated leaves its entry price alone; what is added or removed
after now leaves the whole result alone, its id apart, when the benchmark's prices are of one
instrument; and the cohort is read off each recommendation by itself. -/
theorem no_lookahead (history : List (Recommendation F))
    (prices prices' : Dict String (List MarketPriceObservation)) (start endAt now : PyValue F)
    (horizon : String) (benchmark benchmark' : Option (List MarketPriceObservation))
    (backtestId backtestId' : String) (hconv : PricesConvert prices)
    (hconv' : PricesConvert prices') :
    (∀ result, evaluateBacktest backtestId history prices start endAt horizon now benchmark =
        .ok result →
      ∃ result' order,
        evaluateBacktest backtestId' history prices' start endAt horizon now benchmark' =
          .ok result' ∧ order.Perm history ∧
        List.Forall₂ (fun bucket bucket' => bucket.1 = bucket'.1 ∧
          bucket.2.length = history.length ∧ bucket'.2.length = history.length ∧
          List.Forall₂ (SameEntry prices prices') order (bucket.2.zip bucket'.2))
          result.samples result'.samples) ∧
    (∀ benchmarkId, BenchmarkOf benchmarkId benchmark → BenchmarkOf benchmarkId benchmark' →
      (∀ nowAt, utc now = .ok nowAt →
        (∀ id, knownAt nowAt (rowsOf prices id) = knownAt nowAt (rowsOf prices' id)) ∧
          knownAt nowAt (benchmark.getD []) = knownAt nowAt (benchmark'.getD [])) →
      (evaluateBacktest backtestId history prices start endAt horizon now benchmark).map
          (fun result => { result with backtestId := "" }) =
        (evaluateBacktest backtestId' history prices' start endAt horizon now benchmark').map
          (fun result => { result with backtestId := "" })) ∧
    ∀ p, accept start endAt horizon now = .ok p → ∀ result,
      evaluateBacktest backtestId history prices start endAt horizon now benchmark = .ok result →
      result.excludedUnavailableEvidence + history.countP (inCohort p) =
        result.selectedRecommendationCount ∧
      Partition history p.horizons result fun _ => ToldByStatus p := by
  refine ⟨fun result h => sameEntry_of_runs hconv hconv' h, fun benchmarkId hb hb' hknown =>
    evaluateBacktest_known hconv hconv' hb hb' hknown _ _, fun p haccept result h => ?_⟩
  constructor
  · obtain ⟨p', classified, log, haccept', hclassified, -, rfl⟩ := evaluateBacktestWith_ok.mp h
    cases haccept.symm.trans haccept'
    rw [← length_onList hclassified]
    exact Nat.add_comm _ _
  · obtain ⟨p', haccept', hpartition⟩ := partition_of_run h
    cases haccept.symm.trans haccept'
    refine hpartition.mono ?_
    rintro horizon r s ⟨c, hc, hs⟩
    exact told_by_status hc hs

theorem pricesOf_convert {instrumentId : String}
    (h : ∀ row ∈ rows, row.Converts) : PricesConvert (pricesOf instrumentId rows) := by
  intro id row hrow
  by_cases hid : instrumentId = id
  · rw [← hid] at hrow
    exact h row (by simpa [rowsOf, pricesOf, Dict.get?] using hrow)
  · simp [rowsOf, pricesOf, Dict.get?, hid] at hrow

attribute [local instance] asciiLibrary in
/-- A quote and a benchmark price from after the run change nothing of it. -/
theorem no_lookahead_of_later_quotes :
    (evaluateBacktest "first" [legacyRow "a" "X" 10 "BUY"]
        (pricesOf "X" [quote "X" 9 100, quote "X" 18 110]) (.datetime (noon 10))
        (.datetime (noon 10)) "SHORT_TERM" (.datetime (noon 50))
        (some [quote "N" 9 1000, quote "N" 18 1100])).map
        (fun result => { result with backtestId := "" }) =
      (evaluateBacktest "second" [legacyRow "a" "X" 10 "BUY"]
        (pricesOf "X" [quote "X" 9 100, quote "X" 60 1, quote "X" 18 110]) (.datetime (noon 10))
        (.datetime (noon 10)) "SHORT_TERM" (.datetime (noon 50))
        (some [quote "N" 60 1, quote "N" 9 1000, quote "N" 18 1100])).map
        (fun result => { result with backtestId := "" }) := by
  refine (no_lookahead _ _ _ _ _ _ _ _ _ "first" "second" (pricesOf_convert (by decide))
    (pricesOf_convert (by decide))).2.1 "N" ⟨by decide, by decide⟩ ⟨by decide, by decide⟩ ?_
  intro nowAt hnow
  cases hnow
  refine ⟨fun id => ?_, by decide⟩
  by_cases hid : "X" = id
  · subst hid
    decide
  · simp [rowsOf, pricesOf, Dict.get?, hid]

/-! ### Where the code does look at later rows -/

/-- The last evening of the calendar, five hours west of Greenwich. -/
def pastTheCalendar : DateTime := ⟨253402297200000000, some (-18000000000)⟩

/-- The entry prices and benchmark excesses of a run's samples. -/
def entriesAndExcesses (run : Except Raised (BacktestResult ℚ)) :
    Option (List (List (Option ℚ × Option ℚ))) :=
  run.toOption.map fun result =>
    result.samples.map fun bucket => bucket.2.map fun s => (s.entryPrice, s.benchmarkExcessReturnPct)

attribute [local instance] asciiLibrary in
/-- A quote that is observed after the recommendation, on a date-time without a UTC value, takes the
entry price away; and a price of another instrument from after now, put first, takes the benchmark
away. -/
theorem later_rows_seen :
    (∃ row : MarketPriceObservation, row.After (noon 10).instant ∧
      entriesAndExcesses (evaluateBacktest "run" [legacyRow "a" "X" 10 "BUY"]
          (pricesOf "X" [quote "X" 9 100, quote "X" 18 110]) (.datetime (noon 10))
          (.datetime (noon 10)) "SHORT_TERM" (.datetime (noon 20)) none) =
        some [[(some 100, none)], [(none, none)], [(none, none)], [(none, none)]] ∧
      entriesAndExcesses (evaluateBacktest "run" [legacyRow "a" "X" 10 "BUY"]
          (pricesOf "X" [quote "X" 9 100, quote "X" 18 110, row]) (.datetime (noon 10))
          (.datetime (noon 10)) "SHORT_TERM" (.datetime (noon 20)) none) =
        some [[(none, none)], [(none, none)], [(none, none)], [(none, none)]]) ∧
    ∃ row : MarketPriceObservation, row.After (noon 20).instant ∧
      entriesAndExcesses (evaluateBacktest "run" [legacyRow "a" "X" 10 "BUY"]
          (pricesOf "X" [quote "X" 9 100, quote "X" 18 110]) (.datetime (noon 10))
          (.datetime (noon 10)) "SHORT_TERM" (.datetime (noon 20))
          (some [quote "N" 9 1000, quote "N" 18 1100])) =
        some [[(some 100, some 0)], [(none, none)], [(none, none)], [(none, none)]] ∧
      entriesAndExcesses (evaluateBacktest "run" [legacyRow "a" "X" 10 "BUY"]
          (pricesOf "X" [quote "X" 9 100, quote "X" 18 110]) (.datetime (noon 10))
          (.datetime (noon 10)) "SHORT_TERM" (.datetime (noon 20))
          (some [row, quote "N" 9 1000, quote "N" 18 1100])) =
        some [[(some 100, none)], [(none, none)], [(none, none)], [(none, none)]] :=
  ⟨⟨{ quote "X" 30 120 with observedAt := pastTheCalendar }, by decide, by rfl,
    by rfl⟩, quote "M" 60 5, by decide, by decide +kernel, by rfl⟩

end InvestmentPlatform.Backtest
