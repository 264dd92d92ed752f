/-
What each row of the history files.

`SampleOf` lists the places that append a sample, with what is known of the sample there.  Each
row of the history, whichever list it was put on, leaves exactly one value under each bucket's
key, also when an exception takes it into a handler: the two handlers run after nothing was
appended.  Only what is read of the recommendation itself, before any price, can end the run.
-/
import InvestmentPlatform.Backtest.Evaluate
import InvestmentPlatform.Lib.Fallible
import InvestmentPlatform.Proofs.Backtest.Prices

namespace InvestmentPlatform.Backtest

open Filing List
open Fallible (bind_eq_ok mapM_eq_ok exists_of_forall₂)

variable {F : Type} [PyDouble F] [PyLibrary F]

/-! ### The samples of a row -/

/-- The sample of a due horizon. -/
inductive DueSample (normalize : Normalizer) (p : Parameters) (row : Row F)
    (rows : List MarketPriceObservation) (target : Instant) : Sample F → Prop
  /-- The first `try` raised. -/
  | unread {e : Raised} (hread : references normalize p row rows = .error e) :
      DueSample normalize p row rows target (row.sample p .backendFailure target)
  /-- The second `try` raised. -/
  | failed {entry : Option F} {observed : PriceHistory}
      (hread : references normalize p row rows = .ok (entry, observed)) :
      DueSample normalize p row rows target
        { row.sample p .backendFailure target with entryPrice := entry }
  | missing {entry exitPrice : Option F} {observed : PriceHistory}
      (hread : references normalize p row rows = .ok (entry, observed)) :
      DueSample normalize p row rows target
        { row.sample p .missingMarketData target with entryPrice := entry, exitPrice := exitPrice }
  | evaluated {entry price : F} {observed : PriceHistory} {exit : MarketPriceObservation}
      {rest : List MarketPriceObservation} {adverse excess : Option F}
      (hread : references normalize p row rows = .ok (some entry, observed))
      (hwindow : selectRows (inExitWindow target) observed.observations = .ok (exit :: rest))
      (hprice : exit.positivePrice = some price) :
      DueSample normalize p row rows target
        { row.sample p .evaluated target with
          entryPrice := some entry
          exitPrice := some price
          returnPct := some (changePct price entry)
          signalReturnPct := some (signed row.context.direction (changePct price entry))
          success := some (PyDouble.lt (PyDouble.ofRat 0)
            (signed row.context.direction (changePct price entry)))
          maxAdverseExcursionPct := adverse
          benchmarkExcessReturnPct := excess }

/-- The row holds what is read of its context. -/
structure Row.Reads (row : Row F) (context : Context F) : Prop where
  same : row.context = context
  generatedAt : (context.recommendation.item "generated_at" >>= utc) = .ok row.generatedAt
  instrumentId : (context.recommendation.item "global_instrument_id" >>= PyLibrary.uuid) =
    .ok row.instrumentId

/-- The sample of a row of the history under a horizon. -/
inductive SampleOf (normalize : Normalizer) (p : Parameters)
    (prices : Dict String (List MarketPriceObservation)) (horizon : String × Nat) :
    Verdict × Context F → Sample F → Prop
  | outside {context : Context F} {id : PyValue F} :
      SampleOf normalize p prices horizon (.outsideWindow, context)
        (context.sample p.horizon .outsideEvaluationWindow id)
  | insufficient {context : Context F} {id : PyValue F} {generatedAt target : Instant} :
      SampleOf normalize p prices horizon (.insufficientEvidence, context)
        { context.sample p.horizon
            (if p.now < target then .notMatured else .insufficientEvidence) id with
          evaluationDate := some generatedAt
          requiredEvaluationDate := some target }
  | notMatured {context : Context F} {row : Row F} {target : Instant} {entry : Option F}
      (hrow : row.Reads context) (htarget : addDays row.generatedAt horizon.2 = .ok target)
      (hlater : p.now < target)
      (hentry : persistedReferencePrice context.recommendation = .ok entry) :
      SampleOf normalize p prices horizon (.cohort, context)
        { row.sample p .notMatured target with entryPrice := entry }
  | due {context : Context F} {row : Row F} {target : Instant} {sample : Sample F}
      (hrow : row.Reads context) (htarget : addDays row.generatedAt horizon.2 = .ok target)
      (hdue : target ≤ p.now)
      (hsample : DueSample normalize p row ((prices.get? row.instrumentId).getD []) target sample) :
      SampleOf normalize p prices horizon (.cohort, context) sample

/-! ### One due horizon -/

variable {normalize : Normalizer} {p : Parameters}

variable {row : Row F}

/-- The block under the second `try` appends last: it returns with one sample, or it raises with
none. -/
theorem files_maturedHorizon (benchmark : Option (List MarketPriceObservation))
    {rows : List MarketPriceObservation} {entry : Option F} {observed : PriceHistory}
    (hread : references normalize p row rows = .ok (entry, observed)) (bucket : String)
    (target : Instant) :
    (∃ sample, Files (maturedHorizon normalize p row benchmark entry observed bucket target)
        (.ok ()) [(bucket, sample)] ∧ DueSample normalize p row rows target sample) ∨
      ∃ e, Files (maturedHorizon normalize p row benchmark entry observed bucket target)
        (.error e) [] := by
  have hmissing : ∀ exitPrice : Option F,
      ∃ sample, Files (file bucket { row.sample p .missingMarketData target with
        entryPrice := entry, exitPrice := exitPrice } : Evaluation F Unit)
        (.ok ()) [(bucket, sample)] ∧ DueSample normalize p row rows target sample :=
    fun exitPrice => ⟨_, files_file _ _, .missing hread⟩
  unfold maturedHorizon
  cases hwindow : selectRows (inExitWindow target) observed.observations with
  | error e => exact Or.inr ⟨e, files_throw e⟩
  | ok future =>
      rw [lift_ok_bind]
      cases entry with
      | none => exact Or.inl (hmissing _)
      | some entry =>
          cases future with
          | nil => exact Or.inl (hmissing none)
          | cons exit rest =>
              simp only [head?_cons, Option.bind_some]
              cases hprice : (exit.positivePrice : Option F) with
              | none => exact Or.inl (hmissing none)
              | some price =>
                  dsimp only
                  cases hheld : selectRows (whileHeld F row.generatedAt exit)
                      observed.observations with
                  | error e => exact Or.inr ⟨e, files_throw e⟩
                  | ok held =>
                      rw [lift_ok_bind]
                      cases hexcess : benchmarkExcess normalize p row benchmark exit
                          (changePct price entry) with
                      | error e => exact Or.inr ⟨e, files_throw e⟩
                      | ok excess =>
                          rw [lift_ok_bind]
                          exact Or.inl ⟨_, files_file _ _, .evaluated hread hwindow hprice⟩

variable {benchmark : Option (List MarketPriceObservation)}

/-- The loop body of a due horizon files one sample, whatever is raised in it. -/
theorem settles_matured {rows : List MarketPriceObservation}
    {entry : Option F} {observed : PriceHistory}
    (hread : references normalize p row rows = .ok (entry, observed)) (due : String × Instant) :
    Settles (tryCatch (maturedHorizon normalize p row benchmark entry observed due.1 due.2)
      fun _ => file due.1 { row.sample p .backendFailure due.2 with entryPrice := entry }) True
      fun _ log => ∃ sample, log = [(due.1, sample)] ∧
        DueSample normalize p row rows due.2 sample := by
  rcases files_maturedHorizon benchmark hread due.1 due.2 with
    ⟨sample, hfiles, hsample⟩ | ⟨e, hfiles⟩
  · exact Or.inl ⟨trivial, (), _, files_tryCatch _ hfiles, sample, rfl, hsample⟩
  · exact Or.inl ⟨trivial, (), _, files_tryCatch_error hfiles (files_file _ _), _, rfl,
      .failed hread⟩

/-! ### One row -/

/-- The horizons are read under distinct keys. -/
structure Parameters.Valid (p : Parameters) : Prop where
  nodup : (p.horizons.map Prod.fst).Nodup
  nonempty : p.horizons ≠ []
  ordered : p.start ≤ p.endAt ∧ p.endAt ≤ p.now

variable {horizon : String}

theorem horizons_valid {horizons : List (String × Nat)}
    (h : horizonsByRecommendationType horizon = some horizons) :
    (horizons.map Prod.fst).Nodup ∧ horizons ≠ [] := by
  unfold horizonsByRecommendationType at h
  split at h
  · cases h
    decide
  · split at h
    · cases h
      decide
    · cases h

variable {start endAt now : PyValue F}

omit [PyDouble F] in
theorem accept_valid (h : accept start endAt horizon now = .ok p) :
    p.Valid ∧ horizonsByRecommendationType horizon = some p.horizons ∧ p.horizon = horizon ∧
      utc start = .ok p.start ∧ utc endAt = .ok p.endAt ∧ utc now = .ok p.now := by
  unfold accept at h
  obtain ⟨startAt, hstart, h⟩ := bind_eq_ok.mp h
  obtain ⟨endsAt, hend, h⟩ := bind_eq_ok.mp h
  obtain ⟨nowAt, hnow, h⟩ := bind_eq_ok.mp h
  cases hhorizons : horizonsByRecommendationType horizon with
  | none =>
      rw [hhorizons] at h
      cases h
  | some horizons =>
      rw [hhorizons] at h
      by_cases hbad : endsAt < startAt ∨ nowAt < endsAt
      · simp [hbad, bind, Except.bind, throw, throwThe, MonadExceptOf.throw] at h
      · simp only [hbad, bind, Except.bind, pure, Except.pure, if_false, Except.ok.injEq] at h
        subst h
        rw [not_or, not_lt, not_lt] at hbad
        have hvalid := horizons_valid hhorizons
        exact ⟨⟨hvalid.1, hvalid.2, hbad⟩, rfl, rfl, hstart, hend, hnow⟩

omit [PyDouble F] [PyLibrary F] in
/-- One sample under each horizon's key. -/
theorem Parameters.Valid.keyed (hp : p.Valid) {P : String × Nat → Sample F → Prop}
    {logs : List (List (String × Sample F))}
    (h : Forall₂ (fun (horizon : String × Nat) log =>
      ∃ sample, log = [(horizon.1, sample)] ∧ P horizon sample) p.horizons logs) :
    ∀ horizon ∈ p.horizons, ∃ sample, under horizon.1 logs.flatten = [sample] ∧
      P horizon sample := by
  intro horizon hmem
  have hunder := under_keyed (k := horizon.1) h
  rw [Selection.filter_key_singleton hp.nodup hmem] at hunder
  obtain ⟨sample, rest, hsample, hrest, heq⟩ := forall₂_cons_left_iff.mp hunder
  rw [forall₂_nil_left_iff.mp hrest] at heq
  exact ⟨sample, heq, hsample⟩

/-- What is read of a row, before any price, when the run survives it. -/
def Readable (p : Parameters) : Verdict × Context F → Prop
  | (.outsideWindow, context) =>
    ∃ id, context.recommendation.item "global_instrument_id" = .ok id
  | (.insufficientEvidence, context) =>
    ∃ generatedAt, (context.recommendation.item "generated_at" >>= utc) = .ok generatedAt ∧
      ∀ horizon ∈ p.horizons, ∃ target, addDays generatedAt horizon.2 = .ok target ∧
        ∃ id, context.recommendation.item "global_instrument_id" = .ok id
  | (.cohort, context) =>
    ∃ row : Row F, row.Reads context ∧
      ∀ horizon ∈ p.horizons, ∃ target, addDays row.generatedAt horizon.2 = .ok target ∧
        (p.now < target → ∃ entry, persistedReferencePrice context.recommendation = .ok entry)

/-- The row leaves one sample under each bucket. -/
def Sampled (normalize : Normalizer) (p : Parameters)
    (prices : Dict String (List MarketPriceObservation)) (classified : Verdict × Context F)
    (log : List (String × Sample F)) : Prop :=
  ∀ horizon ∈ p.horizons, ∃ sample, under horizon.1 log = [sample] ∧
    SampleOf normalize p prices horizon classified sample

variable {prices : Dict String (List MarketPriceObservation)}

/-- A loop over the horizons that files one sample in each turn. -/
theorem settles_horizons (hp : p.Valid)
    {classified : Verdict × Context F} {turn : String × Nat → Evaluation F Unit}
    {ok : String × Nat → Prop}
    (h : ∀ horizon ∈ p.horizons, Settles (turn horizon) (ok horizon) fun _ log =>
      ∃ sample, log = [(horizon.1, sample)] ∧
        SampleOf normalize p prices horizon classified sample) :
    Settles (p.horizons.forM turn) (∀ horizon ∈ p.horizons, ok horizon)
      fun _ => Sampled normalize p prices classified := by
  refine (settles_forM p.horizons h).mono Iff.rfl ?_
  rintro - log ⟨logs, rfl, hlogs⟩
  exact hp.keyed hlogs

theorem settles_outsideRow (hp : p.Valid) (prices : Dict String (List MarketPriceObservation))
    (context : Context F) :
    Settles (outsideRow p context) (Readable p (.outsideWindow, context))
      fun _ => Sampled normalize p prices (.outsideWindow, context) := by
  have hturn : ∀ horizon ∈ p.horizons, Settles
      (liftM (context.recommendation.item "global_instrument_id") >>= fun id =>
        file horizon.1 (context.sample p.horizon .outsideEvaluationWindow id) : Evaluation F Unit)
      (∃ id, context.recommendation.item "global_instrument_id" = .ok id ∧ True)
      fun _ log => ∃ sample, log = [(horizon.1, sample)] ∧
        SampleOf normalize p prices horizon (.outsideWindow, context) sample := by
    intro horizon _
    refine settles_lift fun id _ => (settles_file _ _).mono Iff.rfl fun _ log hlog => ?_
    exact ⟨_, hlog, .outside⟩
  refine (settles_horizons hp hturn).mono ?_ fun _ _ h => h
  obtain ⟨horizon, hmem⟩ := exists_mem_of_ne_nil _ hp.nonempty
  constructor
  · intro h
    obtain ⟨id, hid, -⟩ := h horizon hmem
    exact ⟨id, hid⟩
  · rintro ⟨id, hid⟩ _ -
    exact ⟨id, hid, trivial⟩

theorem settles_insufficientRow (hp : p.Valid)
    (prices : Dict String (List MarketPriceObservation)) (context : Context F) :
    Settles (insufficientRow p context) (Readable p (.insufficientEvidence, context))
      fun _ => Sampled normalize p prices (.insufficientEvidence, context) := by
  unfold insufficientRow
  refine (settles_read fun generatedAt _ => settles_horizons hp fun horizon _ =>
    settles_lift fun target _ => settles_lift fun id _ =>
      (settles_file _ _).mono Iff.rfl fun _ log hlog =>
        ⟨_, hlog, SampleOf.insufficient⟩).mono ?_ fun _ _ h => h
  simp [Readable]

/-- What `splitHorizons` does with a horizon: a sample now, or a place on the list of the due. -/
def Split (p : Parameters) (row : Row F) (matured : List (String × Instant))
    (log : List (String × Sample F)) (horizon : String × Nat) : Prop :=
  ∃ target, addDays row.generatedAt horizon.2 = .ok target ∧
    ((p.now < target ∧ (matured.filter fun due => due.1 = horizon.1) = [] ∧
        ∃ entry, persistedReferencePrice row.context.recommendation = .ok entry ∧
          under horizon.1 log = [{ row.sample p .notMatured target with entryPrice := entry }]) ∨
      (target ≤ p.now ∧ (matured.filter fun due => due.1 = horizon.1) = [(horizon.1, target)] ∧
        under horizon.1 log = []))

theorem Split.congr {matured matured' : List (String × Instant)}
    {log log' : List (String × Sample F)} {horizon : String × Nat}
    (h : Split p row matured log horizon)
    (hmatured : (matured'.filter fun due => due.1 = horizon.1) =
      matured.filter fun due => due.1 = horizon.1)
    (hlog : under horizon.1 log' = under horizon.1 log) : Split p row matured' log' horizon := by
  unfold Split at *
  rw [hmatured, hlog]
  exact h

theorem settles_splitHorizons (row : Row F) (horizons : List (String × Nat))
    (hnodup : (horizons.map Prod.fst).Nodup) :
    Settles (splitHorizons p row horizons)
      (∀ horizon ∈ horizons, ∃ target, addDays row.generatedAt horizon.2 = .ok target ∧
        (p.now < target → ∃ entry, persistedReferencePrice row.context.recommendation = .ok entry))
      fun matured log => (∀ horizon ∈ horizons, Split p row matured log horizon) ∧
        (∀ due ∈ matured, due.1 ∈ horizons.map Prod.fst) ∧
        ∀ entry ∈ log, entry.1 ∈ horizons.map Prod.fst := by
  induction horizons with
  | nil => exact Or.inl ⟨by simp, [], [], files_pure [], by simp, by simp, by simp⟩
  | cons horizon rest ih =>
      obtain ⟨bucket, days⟩ := horizon
      rw [map_cons, nodup_cons] at hnodup
      have hfresh : ∀ other ∈ rest, other.1 ≠ bucket := fun other hmem heq =>
        hnodup.1 (mem_map.mpr ⟨other, hmem, heq⟩)
      unfold splitHorizons
      cases htarget : addDays row.generatedAt days with
      | error e =>
          refine Or.inr ⟨fun h => ?_, e, [], files_throw e⟩
          obtain ⟨target, heq, -⟩ := h (bucket, days) mem_cons_self
          rw [htarget] at heq
          cases heq
      | ok target =>
          rw [lift_ok_bind]
          by_cases hlt : p.now < target
          · rw [if_pos hlt]
            cases hentry : persistedReferencePrice row.context.recommendation with
            | error e =>
                refine Or.inr ⟨fun h => ?_, e, [], files_throw e⟩
                obtain ⟨target', heq, h⟩ := h (bucket, days) mem_cons_self
                rw [htarget] at heq
                cases heq
                obtain ⟨entry, heq⟩ := h hlt
                cases heq
            | ok entry =>
                rw [lift_ok_bind]
                rcases ih hnodup.2 with ⟨hok, matured, log, hfiles, hsplit, hdue, hlog⟩ |
                  ⟨hno, e, log, hfiles⟩
                · refine Or.inl ⟨?_, matured, _, files_bind (files_file _ _) hfiles, ?_, ?_, ?_⟩
                  · rintro horizon (_ | ⟨_, hmem⟩)
                    · exact ⟨target, htarget, fun _ => ⟨entry, rfl⟩⟩
                    · simpa only [hentry] using hok horizon hmem
                  · rintro horizon (_ | ⟨_, hmem⟩)
                    · refine ⟨target, htarget, Or.inl ⟨hlt, ?_, entry, hentry, ?_⟩⟩
                      · exact filter_eq_nil_iff.mpr fun due hmem hkey =>
                          hnodup.1 (of_decide_eq_true hkey ▸ hdue due hmem)
                      · have hnone : under bucket log = [] := under_eq_nil fun entry hmem hkey =>
                          hnodup.1 (hkey ▸ hlog entry hmem)
                        rw [under_append, under_self, hnone]
                        rfl
                    · refine (hsplit horizon hmem).congr rfl ?_
                      rw [under_append, under_eq_nil, nil_append]
                      rintro _ (_ | ⟨_, ⟨⟩⟩)
                      exact (hfresh horizon hmem).symm
                  · exact fun due hmem => mem_cons_of_mem _ (hdue due hmem)
                  · rintro _ (_ | ⟨_, hmem⟩)
                    · exact mem_cons_self
                    · exact mem_cons_of_mem _ (hlog _ hmem)
                · refine Or.inr ⟨fun h => hno fun other hmem => ?_, e, _,
                    files_bind (files_file _ _) hfiles⟩
                  simpa only [hentry] using h other (mem_cons_of_mem _ hmem)
          · rw [if_neg hlt]
            rcases ih hnodup.2 with ⟨hok, matured, log, hfiles, hsplit, hdue, hlog⟩ |
              ⟨hno, e, log, hfiles⟩
            · refine Or.inl ⟨?_, (bucket, target) :: matured, log ++ [],
                files_bind hfiles (files_pure _), ?_, ?_, ?_⟩
              · rintro horizon (_ | ⟨_, hmem⟩)
                · exact ⟨target, htarget, fun h => absurd h hlt⟩
                · exact hok horizon hmem
              · rw [append_nil]
                rintro horizon (_ | ⟨_, hmem⟩)
                · refine ⟨target, htarget, Or.inr ⟨not_lt.mp hlt, ?_, ?_⟩⟩
                  · rw [filter_cons_of_pos (by simp), filter_eq_nil_iff.mpr]
                    exact fun due hmem hkey =>
                      hnodup.1 (of_decide_eq_true hkey ▸ hdue due hmem)
                  · exact under_eq_nil fun entry hmem hkey =>
                      hnodup.1 (hkey ▸ hlog entry hmem)
                · refine (hsplit horizon hmem).congr ?_ rfl
                  rw [filter_cons_of_neg]
                  simpa using (hfresh horizon hmem).symm
              · rintro _ (_ | ⟨_, hmem⟩)
                · exact mem_cons_self
                · exact mem_cons_of_mem _ (hdue _ hmem)
              · rw [append_nil]
                exact fun entry hmem => mem_cons_of_mem _ (hlog entry hmem)
            · exact Or.inr ⟨fun h => hno fun other hmem => h other (mem_cons_of_mem _ hmem),
                e, _, files_bind_error _ hfiles⟩

/-- The rest of the row, once the due horizons are known. -/
def maturedRow (normalize : Normalizer) (p : Parameters) (row : Row F)
    (rows : List MarketPriceObservation) (benchmark : Option (List MarketPriceObservation))
    (matured : List (String × Instant)) : Evaluation F Unit :=
  if matured.isEmpty then pure ()
  else match references normalize p row rows with
    | .error _ => matured.forM fun due => file due.1 (row.sample p .backendFailure due.2)
    | .ok (entryPrice, observed) =>
      matured.forM fun due =>
        tryCatch (maturedHorizon normalize p row benchmark entryPrice observed due.1 due.2)
          fun _ => file due.1 { row.sample p .backendFailure due.2 with entryPrice := entryPrice }

/-- **The due horizons of a row get one sample each, whatever the normaliser and the evaluation
raise.** -/
theorem settles_maturedRow (normalize : Normalizer) (p : Parameters) (row : Row F) (rows : List MarketPriceObservation)
    (benchmark : Option (List MarketPriceObservation)) (matured : List (String × Instant)) :
    Settles (maturedRow normalize p row rows benchmark matured) True fun _ log =>
      ∃ logs : List (List (String × Sample F)), log = logs.flatten ∧
        Forall₂ (fun due log => ∃ sample, log = [(due.1, sample)] ∧
          DueSample normalize p row rows due.2 sample) matured logs := by
  unfold maturedRow
  cases matured with
  | nil => exact Or.inl ⟨trivial, (), [], files_pure (), [], rfl, Forall₂.nil⟩
  | cons due rest =>
      rw [if_neg (by simp)]
      cases hread : references normalize p row rows with
      | error e =>
          refine (settles_forM (due :: rest) fun due _ => (settles_file due.1 _).mono Iff.rfl
            fun _ log hlog => ?_).mono (by simp) fun _ _ h => h
          exact ⟨_, hlog, .unread hread⟩
      | ok read =>
          exact (settles_forM (due :: rest) fun due _ => settles_matured hread due).mono (by simp)
            fun _ _ h => h

theorem settles_cohortRow (hp : p.Valid) (prices : Dict String (List MarketPriceObservation))
    (benchmark : Option (List MarketPriceObservation)) (context : Context F) :
    Settles (cohortRow normalize p prices benchmark context) (Readable p (.cohort, context))
      fun _ => Sampled normalize p prices (.cohort, context) := by
  have hrest : ∀ (row : Row F), row.Reads context → Settles
      (splitHorizons p row p.horizons >>= maturedRow normalize p row
        ((prices.get? row.instrumentId).getD []) benchmark)
      (∀ horizon ∈ p.horizons, ∃ target, addDays row.generatedAt horizon.2 = .ok target ∧
        (p.now < target → ∃ entry, persistedReferencePrice context.recommendation = .ok entry))
      fun _ => Sampled normalize p prices (.cohort, context) := by
    intro row hrow
    rcases settles_splitHorizons row p.horizons hp.nodup with
      ⟨hok, matured, log, hfiles, hsplit, -, -⟩ | ⟨hno, e, log, hfiles⟩
    · rw [hrow.same] at hok
      obtain ⟨⟨⟩, log', hfiles', logs, rfl, hlogs⟩ :=
        (settles_maturedRow normalize p row ((prices.get? row.instrumentId).getD []) benchmark
          matured).returns trivial
      refine Or.inl ⟨hok, (), _, files_bind hfiles hfiles', fun horizon hmem => ?_⟩
      have hunder := under_keyed (k := horizon.1) hlogs
      obtain ⟨target, htarget, ⟨hlt, hnone, entry, hentry, hlog⟩ | ⟨hle, hone, hlog⟩⟩ :=
        hsplit horizon hmem
      · rw [hnone, forall₂_nil_left_iff] at hunder
        refine ⟨_, by rw [under_append, hlog, hunder, append_nil], ?_⟩
        rw [hrow.same] at hentry
        exact .notMatured hrow htarget hlt hentry
      · rw [hone] at hunder
        obtain ⟨sample, rest, hsample, hrest, heq⟩ := forall₂_cons_left_iff.mp hunder
        rw [forall₂_nil_left_iff.mp hrest] at heq
        exact ⟨sample, by rw [under_append, hlog, heq, nil_append], .due hrow htarget hle hsample⟩
    · rw [hrow.same] at hno
      exact Or.inr ⟨hno, e, log, files_bind_error _ hfiles⟩
  have hread := settles_read fun generatedAt hgenerated => settles_read fun instrumentId hid =>
    hrest ⟨context, generatedAt, instrumentId⟩ ⟨rfl, hgenerated, hid⟩
  refine Settles.mono hread ⟨?_, ?_⟩ fun _ _ h => h
  · rintro ⟨generatedAt, hgenerated, instrumentId, hid, h⟩
    exact ⟨⟨context, generatedAt, instrumentId⟩, ⟨rfl, hgenerated, hid⟩, h⟩
  · rintro ⟨row, hrow, h⟩
    exact ⟨row.generatedAt, hrow.generatedAt, row.instrumentId, hrow.instrumentId, h⟩

/-! ### The run -/

theorem settles_evaluateRows (normalize : Normalizer) (hp : p.Valid)
    (prices : Dict String (List MarketPriceObservation))
    (benchmark : Option (List MarketPriceObservation))
    (outside insufficient cohort : List (Context F)) :
    Settles (evaluateRows normalize p prices benchmark outside insufficient cohort)
      (∀ c ∈ outside.map (Verdict.outsideWindow, ·) ++
        (insufficient.map (Verdict.insufficientEvidence, ·) ++ cohort.map (Verdict.cohort, ·)),
          Readable p c)
      fun _ log => ∀ horizon ∈ p.horizons, Forall₂ (SampleOf normalize p prices horizon)
        (outside.map (Verdict.outsideWindow, ·) ++
          (insufficient.map (Verdict.insufficientEvidence, ·) ++ cohort.map (Verdict.cohort, ·)))
        (under horizon.1 log) := by
  have hlist : ∀ {verdict : Verdict} {row : Context F → Evaluation F Unit} (l : List (Context F)),
      (∀ context, Settles (row context) (Readable p (verdict, context))
        fun _ => Sampled normalize p prices (verdict, context)) →
      Settles (l.forM row) (∀ c ∈ l.map (verdict, ·), Readable p c)
        fun _ log => ∀ horizon ∈ p.horizons, Forall₂ (SampleOf normalize p prices horizon)
          (l.map (verdict, ·)) (under horizon.1 log) := by
    intro verdict row l hrow
    refine (settles_forM l fun context _ => hrow context).mono (by simp) ?_
    rintro - log ⟨logs, rfl, hlogs⟩ horizon hmem
    rw [forall₂_map_left_iff]
    exact under_flatten (hlogs.imp fun context log hlog => hlog horizon hmem)
  refine (settles_seq (hlist outside (settles_outsideRow hp prices))
    (settles_seq (hlist insufficient (settles_insufficientRow hp prices))
      (hlist cohort (settles_cohortRow hp prices benchmark)))).mono ?_ ?_
  · simp only [forall_mem_append]
  · rintro - log ⟨first, second, rfl, hfirst, third, fourth, rfl, hthird, hfourth⟩ horizon hmem
    rw [under_append, under_append]
    exact rel_append (hfirst horizon hmem) (rel_append (hthird horizon hmem) (hfourth horizon hmem))

/-- The classified rows in the order the three loops take them. -/
def inLoopOrder (classified : List (Verdict × Context F)) : List (Verdict × Context F) :=
  (onList .outsideWindow classified).map (Verdict.outsideWindow, ·) ++
    ((onList .insufficientEvidence classified).map (Verdict.insufficientEvidence, ·) ++
      (onList .cohort classified).map (Verdict.cohort, ·))

omit [PyDouble F] [PyLibrary F] in
theorem inLoopOrder_perm (classified : List (Verdict × Context F)) :
    (inLoopOrder classified).Perm classified := by
  induction classified with
  | nil => exact List.Perm.nil
  | cons c classified ih =>
      obtain ⟨verdict, context⟩ := c
      cases verdict with
      | outsideWindow => exact ih.cons _
      | insufficientEvidence => exact perm_middle.trans (ih.cons _)
      | cohort =>
          unfold inLoopOrder at ih ⊢
          rw [← List.append_assoc] at ih ⊢
          exact perm_middle.trans (ih.cons _)

variable {history : List (Recommendation F)}

/-- A run, taken apart: what it reads of the history, and what it files. -/
theorem evaluateBacktestWith_ok {backtestId : String} {result : BacktestResult F} :
    evaluateBacktestWith normalize backtestId history prices start endAt horizon now benchmark =
        .ok result ↔
      ∃ p classified log, accept start endAt horizon now = .ok p ∧
        history.mapM (classify p) = .ok classified ∧
        Files (evaluateRows normalize p prices benchmark (onList .outsideWindow classified)
          (onList .insufficientEvidence classified) (onList .cohort classified)) (.ok ()) log ∧
        result = summarize backtestId p classified (fun bucket => under bucket log) := by
  have hempty : ∀ log : List (String × Sample F),
      (fileAll (fun _ => []) log) = fun bucket => under bucket log := fun log =>
    funext (fileAll_empty log)
  unfold evaluateBacktestWith
  constructor
  · intro h
    obtain ⟨p, haccept, h⟩ := bind_eq_ok.mp h
    obtain ⟨classified, hclassified, h⟩ := bind_eq_ok.mp h
    rcases settles_evaluateRows normalize (accept_valid haccept).1 prices benchmark
        (onList .outsideWindow classified) (onList .insufficientEvidence classified)
        (onList .cohort classified) with ⟨-, ⟨⟩, log, hfiles, -⟩ | ⟨-, e, log, hfiles⟩
    · dsimp only at h
      rw [hfiles.run, hempty] at h
      exact ⟨p, classified, log, haccept, hclassified, hfiles, (Except.ok.inj h).symm⟩
    · dsimp only at h
      rw [hfiles.run] at h
      cases h
  · rintro ⟨p, classified, log, haccept, hclassified, hfiles, rfl⟩
    refine bind_eq_ok.mpr ⟨p, haccept, bind_eq_ok.mpr ⟨classified, hclassified, ?_⟩⟩
    dsimp only
    rw [hfiles.run, hempty]
    rfl

/-! ### Reading the history -/

theorem mapM_total {A B : Type} {f : A → Except Raised B} {l : List A}
    (h : ∀ a ∈ l, ∃ b, f a = .ok b) : ∃ l', l.mapM f = .ok l' := by
  induction l with
  | nil => exact ⟨[], rfl⟩
  | cons a l ih =>
      obtain ⟨b, hb⟩ := h a mem_cons_self
      obtain ⟨rest, hrest⟩ := ih fun a ha => h a (mem_cons_of_mem _ ha)
      exact ⟨b :: rest, mapM_eq_ok.mpr (Forall₂.cons hb (mapM_eq_ok.mp hrest))⟩

/-- What a classified row keeps of its recommendation, and when it is on which list. -/
theorem classify_ok {r : Recommendation F} {c : Verdict × Context F} (h : classify p r = .ok c) :
    c.2 = ⟨r, persistedAction r p.horizon, canonicalDirection (persistedAction r p.horizon)⟩ ∧
      (c.1 ≠ .outsideWindow → ∃ generatedAt, (r.item "generated_at" >>= utc) = .ok generatedAt ∧
        generatedAt ≤ p.endAt ∧ c.2.direction ≠ none) := by
  unfold classify at h
  obtain ⟨value, hitem, h⟩ := bind_eq_ok.mp h
  obtain ⟨generatedAt, hutc, h⟩ := bind_eq_ok.mp h
  have hread : (r.item "generated_at" >>= utc) = .ok generatedAt := by
    rw [hitem]
    exact hutc
  dsimp only at h
  split at h
  · cases h
    exact ⟨rfl, fun hne => absurd rfl hne⟩
  · rename_i hin
    have hfacts : generatedAt ≤ p.endAt ∧
        canonicalDirection (persistedAction r p.horizon) ≠ none := by
      rw [not_or, not_or, not_or, not_not] at hin
      exact ⟨hin.1.2, hin.2.2.2⟩
    obtain ⟨available, -, h⟩ := bind_eq_ok.mp h
    split at h <;> cases h <;> exact ⟨rfl, fun _ => ⟨generatedAt, hread, hfacts⟩⟩

/-- The parameters are accepted and every row of the history can be read. -/
def RunReadable (history : List (Recommendation F)) (start endAt : PyValue F) (horizon : String)
    (now : PyValue F) : Prop :=
  ∃ p, accept start endAt horizon now = .ok p ∧
    ∀ r ∈ history, ∃ c, classify p r = .ok c ∧ Readable p c

/-- **Only the parameters and the history can end a run.**  No price, no normaliser and nothing
raised while a sample is computed does. -/
theorem evaluateBacktestWith_returns {backtestId : String} :
    (∃ result, evaluateBacktestWith normalize backtestId history prices start endAt horizon now
        benchmark = .ok result) ↔ RunReadable history start endAt horizon now := by
  constructor
  · rintro ⟨result, h⟩
    obtain ⟨p, classified, log, haccept, hclassified, hfiles, -⟩ := evaluateBacktestWith_ok.mp h
    refine ⟨p, haccept, ?_⟩
    rcases settles_evaluateRows normalize (accept_valid haccept).1 prices benchmark
      (onList .outsideWindow classified) (onList .insufficientEvidence classified)
      (onList .cohort classified) with ⟨hread, -⟩ | ⟨-, e, log', hfiles'⟩
    · intro r hr
      obtain ⟨c, hmem, hc⟩ := (exists_of_forall₂ (mapM_eq_ok.mp hclassified)).1 r hr
      exact ⟨c, hc, hread c ((inLoopOrder_perm classified).mem_iff.mpr hmem)⟩
    · have hsame := (hfiles.run fun _ => []).symm.trans (hfiles'.run fun _ => [])
      cases (Prod.mk.inj hsame).1
  · rintro ⟨p, haccept, hread⟩
    obtain ⟨classified, hclassified⟩ := mapM_total fun r hr => (hread r hr).imp fun _ h => h.1
    have hreadable : ∀ c ∈ inLoopOrder classified, Readable p c := by
      intro c hmem
      obtain ⟨r, hr, hc⟩ := (exists_of_forall₂ (mapM_eq_ok.mp hclassified)).2 c
        ((inLoopOrder_perm classified).mem_iff.mp hmem)
      obtain ⟨c', hc', hread'⟩ := hread r hr
      rw [hc] at hc'
      cases hc'
      exact hread'
    obtain ⟨⟨⟩, log, hfiles, -⟩ := (settles_evaluateRows normalize (accept_valid haccept).1 prices
      benchmark (onList .outsideWindow classified) (onList .insufficientEvidence classified)
      (onList .cohort classified)).returns hreadable
    exact ⟨_, evaluateBacktestWith_ok.mpr ⟨p, classified, log, haccept, hclassified, hfiles, rfl⟩⟩

theorem map_recommendation {classified : List (Verdict × Context F)}
    (h : history.mapM (classify p) = .ok classified) :
    (classified.map fun c => c.2.recommendation) = history := by
  induction mapM_eq_ok.mp h with
  | nil => rfl
  | cons hc hrest ih =>
      rw [map_cons, (classify_ok hc).1, ih (mapM_eq_ok.mpr hrest)]

/-- What a run filed, row by row. -/
theorem sampleOf_of_run {classified : List (Verdict × Context F)} {log : List (String × Sample F)}
    (hp : p.Valid)
    (hfiles : Files (evaluateRows normalize p prices benchmark (onList .outsideWindow classified)
      (onList .insufficientEvidence classified) (onList .cohort classified)) (.ok ()) log) :
    ∀ horizon ∈ p.horizons, Forall₂ (SampleOf normalize p prices horizon) (inLoopOrder classified)
        (under horizon.1 log) := by
  rcases settles_evaluateRows normalize hp prices benchmark (onList .outsideWindow classified)
    (onList .insufficientEvidence classified) (onList .cohort classified) with
    ⟨-, ⟨⟩, log', hfiles', hlog'⟩ | ⟨-, e, log', hfiles'⟩
  · have hsame := (hfiles.run fun _ => []).symm.trans (hfiles'.run fun _ => [])
    intro horizon hmem
    have hunder := congrFun (Prod.mk.inj hsame).2 horizon.1
    rw [fileAll_empty, fileAll_empty] at hunder
    rw [hunder]
    exact hlog' horizon hmem
  · have hsame := (hfiles.run fun _ => []).symm.trans (hfiles'.run fun _ => [])
    cases (Prod.mk.inj hsame).1

end InvestmentPlatform.Backtest
