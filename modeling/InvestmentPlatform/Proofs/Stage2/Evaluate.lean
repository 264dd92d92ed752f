/-
What one evaluation does to the accounts.

Every live evaluation files one diagnostic under its candidate and adds to the counters what
that diagnostic implies, with one exception: what raises after the readiness gate was counted
and outside the handler of the rules leaves its counts behind.  `residue` is what is left.
-/
import InvestmentPlatform.Lib.Ledger
import InvestmentPlatform.Stage2.Loop

namespace InvestmentPlatform.Stage2

open InvestmentPlatform.Cycle Rules

/-- The diagnostics with the counters that should account for them. -/
def Sheet.books (s : Sheet) : Ledger CandidateDiagnostic Counts := ⟨s.diagnostics, s.counts⟩

/-- What a diagnostic accounts for. -/
def charge (d : CandidateDiagnostic) : Counts := tally d.increments

theorem tally_nil : tally [] = 0 := by
  funext counter
  simp [tally]

theorem tally_append (l l' : List Counter) : tally (l ++ l') = tally l + tally l' := by
  funext counter
  simp [tally]

/-! ### Late failures -/

/-- The result of the rules an evaluation gets to, with the failures of its acquisition. -/
def analysisOf (setup : Setup) (calls : Calls) :
    Option (Failures × ResearchReadinessResult × StockRuleEngineResult) :=
  match calls.acquire with
  | .ok (some ensured) =>
      match readinessOf calls ensured, calls.eligibility with
      | .ok (some readiness), .ok eligibility =>
          if eligibility.fullAnalysisAllowed then
            match (if setup.discoveryV2 then calls.enrich else .ok []), calls.analyze with
            | .ok _, .ok result => some (ensured.failures, readiness, result)
            | _, _ => none
          else none
      | _, _ => none
  | _ => none

/-- Something raises once the rules have returned: the lookup of prior failures for a result
that is not full, or the ranker for one that is. -/
def LateFailure (setup : Setup) (calls : Calls) : Prop :=
  ∃ failures readiness result, analysisOf setup calls = some (failures, readiness, result) ∧
    ((∃ blocking e, incompleteAnalysis result readiness = some blocking ∧
        unscorableFailures calls blocking failures = .error e) ∨
      (incompleteAnalysis result readiness = none ∧ ∃ e, calls.score = .error e))

/-- The counters an evaluation leaves without a diagnostic that implies them. -/
def residue (setup : Setup) (calls : Calls) : List Counter :=
  match analysisOf setup calls with
  | none => []
  | some (failures, readiness, result) =>
      match incompleteAnalysis result readiness with
      | some blocking =>
          match unscorableFailures calls blocking failures with
          | .error _ => [.deepReady]
          | .ok _ => []
      | none =>
          match calls.score with
          | .error _ => [.deepReady, .ruleAnalyzed]
          | .ok _ => []

/-- Only late failures leave something, and each of them a candidate too many that is ready. -/
theorem residue_cases (setup : Setup) (calls : Calls) :
    (LateFailure setup calls ∧ tally (residue setup calls) .deepReady = 1) ∨
      (¬ LateFailure setup calls ∧ residue setup calls = []) := by
  unfold LateFailure residue
  cases hanalysis : analysisOf setup calls with
  | none => exact Or.inr ⟨by simp, rfl⟩
  | some reached =>
      obtain ⟨failures, readiness, result⟩ := reached
      cases hincomplete : incompleteAnalysis result readiness with
      | some blocking =>
          cases hlookup : unscorableFailures calls blocking failures with
          | error e =>
              exact Or.inl ⟨⟨failures, readiness, result, rfl,
                Or.inl ⟨blocking, e, hincomplete, hlookup⟩⟩, by simp [hincomplete, hlookup, tally]⟩
          | ok found =>
              refine Or.inr ⟨?_, by simp [hincomplete, hlookup]⟩
              rintro ⟨_, _, _, hsame, ⟨_, _, hblocking, hraise⟩ | ⟨hnone, -⟩⟩
              · obtain ⟨rfl, rfl, rfl⟩ : failures = _ ∧ readiness = _ ∧ result = _ := by
                  simpa using hsame
                rw [hincomplete, Option.some.injEq] at hblocking
                subst hblocking
                rw [hlookup] at hraise
                cases hraise
              · obtain ⟨rfl, rfl, rfl⟩ : failures = _ ∧ readiness = _ ∧ result = _ := by
                  simpa using hsame
                rw [hincomplete] at hnone
                cases hnone
      | none =>
          cases hscore : calls.score with
          | error e =>
              exact Or.inl ⟨⟨failures, readiness, result, rfl, Or.inr ⟨hincomplete, e, rfl⟩⟩,
                by simp [hincomplete, tally]⟩
          | ok ranked =>
              refine Or.inr ⟨?_, by simp [hincomplete]⟩
              rintro ⟨_, _, _, hsame, ⟨_, _, hblocking, -⟩ | ⟨-, _, hraise⟩⟩
              · obtain ⟨rfl, rfl, rfl⟩ : failures = _ ∧ readiness = _ ∧ result = _ := by
                  simpa using hsame
                rw [hincomplete] at hblocking
                cases hblocking
              · cases hraise

/-! ### What a body posts -/

/-- One diagnostic under the key, and what it implies; the checkpoint is as it was. -/
def Posted (key : InstrumentId) (s s' : Sheet) : Prop :=
  s'.checkpoint = s.checkpoint ∧
    ∃ d, d.globalInstrumentId = key ∧ s'.books = s.books.post d (charge d)

theorem posted_record {key : InstrumentId} {s s' : Sheet} {d : CandidateDiagnostic}
    (hd : s'.diagnostics = s.diagnostics ++ [d]) (hc : s'.counts = s.counts + charge d)
    (hkey : d.globalInstrumentId = key) (hs : s'.checkpoint = s.checkpoint) :
    Posted key s s' := by
  refine ⟨hs, d, hkey, ?_⟩
  rw [Sheet.books, hd, hc]
  rfl

theorem sourceUnavailable_posted (setup : Setup) (key : InstrumentId) (s : Sheet) :
    Posted key s (sourceUnavailable setup key s) :=
  posted_record rfl rfl rfl rfl

theorem notReady_posted (key : InstrumentId) (failures : Failures)
    (eligibility : AnalysisEligibility) (s : Sheet) :
    Posted key s (notReady key failures eligibility s) := by
  unfold notReady
  by_cases htimed : timedOut failures
  · simp only [htimed, if_true]
    refine posted_record rfl ?_ rfl rfl
    rw [charge, CandidateDiagnostic.increments_of_not_technical fun h => by cases h.1]
    rfl
  · by_cases hclass : classifyRequirementFailures failures eligibility.blockingRequirements =
      some .technicalRetryable
    · simp only [htimed, hclass, if_true, Bool.false_eq_true, if_false]
      refine posted_record rfl ?_ rfl rfl
      show s.counts + tally [.deepReadinessFailed] + tally [.deepTechnicalFailure] = _
      rw [add_assoc, ← tally_append]
      rfl
    · simp only [htimed, hclass, Bool.false_eq_true, if_false]
      refine posted_record rfl ?_ rfl rfl
      rw [charge, CandidateDiagnostic.increments_of_not_technical fun h => hclass h.2]
      rfl

theorem ruleEngineRaised_posted (key : InstrumentId) (s : Sheet) :
    Posted key s (ruleEngineRaised key (s.count [.deepReady])) := by
  refine posted_record rfl ?_ rfl rfl
  show s.counts + tally [.deepReady] + tally [.ruleException] = _
  rw [add_assoc, ← tally_append]
  rfl

/-- An evaluation that returns has posted, one that raises has left its residue. -/
def Leaves (key : InstrumentId) (s : Sheet) (left : List Counter) : Outcome → Prop
  | (.ok (), s') => Posted key s s' ∧ left = []
  | (.error _, s') => s'.checkpoint = s.checkpoint ∧ s'.diagnostics = s.diagnostics ∧
      s'.counts = s.counts + tally left

theorem unscorable_leaves (calls : Calls) (key : InstrumentId) (failures : Failures)
    (result : StockRuleEngineResult) (blocking : List String) (s : Sheet) :
    Leaves key s (match unscorableFailures calls blocking failures with
        | .error _ => [.deepReady]
        | .ok _ => [])
      (unscorable calls key failures result blocking (s.count [.deepReady])) := by
  unfold unscorable
  cases unscorableFailures calls blocking failures with
  | error e => exact ⟨rfl, rfl, rfl⟩
  | ok found =>
      -- The gate's own count is taken back before the shortfall is counted.
      have hback : s.counts + tally [.deepReady] - tally [.deepReady] = s.counts :=
        add_sub_cancel_right _ _
      refine ⟨?_, rfl⟩
      by_cases hclass : classifyRequirementFailures found blocking = some .technicalRetryable
      · simp only [hclass, if_true]
        refine posted_record rfl ?_ rfl rfl
        show s.counts + tally [.deepReady] - tally [.deepReady] + tally [.deepReadinessFailed] +
          tally [.deepTechnicalFailure] = _
        rw [hback, add_assoc, ← tally_append]
        rfl
      · simp only [hclass, if_false]
        refine posted_record rfl ?_ rfl rfl
        show s.counts + tally [.deepReady] - tally [.deepReady] + tally [.deepReadinessFailed] = _
        rw [hback, charge, CandidateDiagnostic.increments_of_not_technical fun h => hclass h.2]
        rfl

theorem rank_leaves (calls : Calls) (key : InstrumentId) (enriched : Candidate)
    (result : StockRuleEngineResult) (s : Sheet) :
    Leaves key s (match calls.score with
        | .error _ => [.deepReady, .ruleAnalyzed]
        | .ok _ => [])
      (rank calls key enriched result (s.count [.deepReady])) := by
  have hboth : s.counts + tally [.deepReady] + tally [.ruleAnalyzed] =
      s.counts + tally [.deepReady, .ruleAnalyzed] := by
    rw [add_assoc, ← tally_append]
    rfl
  unfold rank
  cases calls.score with
  | error e => exact ⟨rfl, rfl, hboth⟩
  | ok ranked =>
      simp only
      split
      · exact ⟨posted_record rfl hboth rfl rfl, rfl⟩
      · exact ⟨posted_record rfl hboth rfl rfl, rfl⟩

/-- The handler of the rules sees enrichment and analysis raise alike. -/
theorem runRules_cases (setup : Setup) (calls : Calls) (candidate : Candidate) :
    (∃ e, runRules setup calls candidate = .error e ∧
      ∀ result, ¬ ((∃ refreshed, (if setup.discoveryV2 then calls.enrich else .ok []) =
        .ok refreshed) ∧ calls.analyze = .ok result)) ∨
    (∃ enriched result refreshed, runRules setup calls candidate = .ok (enriched, result) ∧
      (if setup.discoveryV2 then calls.enrich else .ok []) = .ok refreshed ∧
      calls.analyze = .ok result) := by
  unfold runRules refresh
  cases setup.discoveryV2 with
  | false =>
      cases hanalyze : calls.analyze with
      | error e => exact Or.inl ⟨e, rfl, fun _ h => by cases h.2⟩
      | ok result => exact Or.inr ⟨_, result, [], rfl, rfl, rfl⟩
  | true =>
      cases henrich : calls.enrich with
      | error e =>
          refine Or.inl ⟨e, rfl, ?_⟩
          rintro result ⟨⟨refreshed, hr⟩, -⟩
          cases hr
      | ok refreshed =>
          cases hanalyze : calls.analyze with
          | error e => exact Or.inl ⟨e, rfl, fun _ h => by cases h.2⟩
          | ok result => exact Or.inr ⟨_, result, refreshed, rfl, rfl, rfl⟩

theorem analyzeReady_leaves (setup : Setup) (calls : Calls) (candidate : Candidate)
    {ensured : EnsureResult} {readiness : ResearchReadinessResult}
    {eligibility : AnalysisEligibility} (s : Sheet) (hacquire : calls.acquire = .ok (some ensured))
    (hread : readinessOf calls ensured = .ok (some readiness))
    (heligible : calls.eligibility = .ok eligibility)
    (hfull : eligibility.fullAnalysisAllowed = true) :
    Leaves candidate.globalInstrumentId s (residue setup calls)
      (analyzeReady setup calls candidate ensured.failures readiness s) := by
  unfold analyzeReady residue analysisOf
  simp only [hacquire, hread, heligible, hfull, if_true]
  rcases runRules_cases setup calls candidate with
    ⟨e, hrules, hnot⟩ | ⟨enriched, result, refreshed, hrules, henrich, hanalyze⟩
  · -- Nothing is left: the handler of the rules counts what they raise.
    simp only [hrules]
    refine ⟨ruleEngineRaised_posted _ s, ?_⟩
    cases henrich : (if setup.discoveryV2 = true then calls.enrich else .ok []) with
    | error _ => rfl
    | ok refreshed =>
        cases hanalyze : calls.analyze with
        | error _ => rfl
        | ok result => exact absurd ⟨⟨refreshed, henrich⟩, hanalyze⟩ (hnot result)
  · simp only [hrules, henrich, hanalyze]
    cases incompleteAnalysis result readiness with
    | some blocking => exact unscorable_leaves calls _ _ _ _ s
    | none => exact rank_leaves calls _ _ _ s

theorem body_leaves (setup : Setup) (calls : Calls) (candidate : Candidate) (s : Sheet) :
    Leaves candidate.globalInstrumentId s (residue setup calls) (body setup calls candidate s) := by
  have hraised : ∀ e : String, Leaves candidate.globalInstrumentId s [] (.error e, s) :=
    fun e => ⟨rfl, rfl, by rw [tally_nil, add_zero]⟩
  unfold body
  cases hacquire : calls.acquire with
  | error e =>
      rw [residue, analysisOf, hacquire]
      exact hraised e
  | ok answer =>
      cases answer with
      | none =>
          rw [residue, analysisOf, hacquire]
          exact ⟨sourceUnavailable_posted setup _ s, rfl⟩
      | some ensured =>
          cases hread : readinessOf calls ensured with
          | error e =>
              simp only [residue, analysisOf, hacquire, hread]
              exact hraised e
          | ok found =>
              cases found with
              | none =>
                  simp only [residue, analysisOf, hacquire, hread]
                  exact ⟨sourceUnavailable_posted setup _ s, rfl⟩
              | some readiness =>
                  cases heligible : calls.eligibility with
                  | error e =>
                      simp only [residue, analysisOf, hacquire, hread, heligible]
                      exact hraised e
                  | ok eligibility =>
                      by_cases hfull : eligibility.fullAnalysisAllowed = true
                      · simp only [hread, hfull, if_true]
                        exact analyzeReady_leaves setup calls candidate s hacquire hread
                          heligible hfull
                      · simp only [residue, analysisOf, hacquire, hread, heligible, hfull]
                        exact ⟨notReady_posted _ _ _ s, rfl⟩

/-! ### Handler and `finally` -/

/-- The handler's own diagnostic implies what the handler counts. -/
theorem handle_charge (reason : String) (d : CandidateDiagnostic)
    (hd : d.disposition = some (dispositionOfFailure reason)) :
    charge d = if dispositionOfFailure reason = .stage2InternalError then
      tally [.stage2InternalError] else 0 := by
  have hplain : ¬ d.Technical := by
    intro h
    have hsame := hd.symm.trans h.1
    unfold dispositionOfFailure at hsame
    split_ifs at hsame <;> exact absurd hsame (by decide)
  rw [charge, CandidateDiagnostic.increments_of_not_technical hplain, hd]
  unfold dispositionOfFailure
  split
  · exact tally_nil
  · split
    · exact tally_nil
    · split
      · exact tally_nil
      · rfl

/-- What the handler leaves files one diagnostic of the candidate, and adds what that implies
and the residue. -/
theorem handle_books (setup : Setup) (calls : Calls) (candidate : Candidate) (s : Sheet) :
    (handle candidate.globalInstrumentId (body setup calls candidate s)).checkpoint = s.checkpoint ∧
      ∃ d, d.globalInstrumentId = candidate.globalInstrumentId ∧
        (handle candidate.globalInstrumentId (body setup calls candidate s)).books =
          s.books.post d (charge d + tally (residue setup calls)) := by
  have hbody := body_leaves setup calls candidate s
  cases hout : body setup calls candidate s with
  | mk answer s' =>
      rw [hout] at hbody
      cases answer with
      | ok _ =>
          obtain ⟨⟨hcheckpoint, d, hkey, hbooks⟩, hleft⟩ := hbody
          refine ⟨hcheckpoint, d, hkey, ?_⟩
          rw [hleft, tally_nil, add_zero]
          exact hbooks
      | error reason =>
          obtain ⟨hcheckpoint, hdiagnostics, hcounts⟩ := hbody
          have hcharge := handle_charge reason
            { globalInstrumentId := candidate.globalInstrumentId, status := .suppressed,
              failureReason := some (dispositionOfFailure reason).text,
              disposition := some (dispositionOfFailure reason) } rfl
          constructor
          · simp only [handle]
            split
            · exact hcheckpoint
            · exact hcheckpoint
          · refine ⟨{ globalInstrumentId := candidate.globalInstrumentId, status := .suppressed,
                      failureReason := some (dispositionOfFailure reason).text,
                      disposition := some (dispositionOfFailure reason) }, rfl, ?_⟩
            rw [hcharge]
            simp only [handle, Sheet.books, Ledger.post]
            split
            · simp only [Sheet.record, Sheet.count, hdiagnostics, hcounts]
              rw [add_assoc, add_comm (tally (residue setup calls))]
            · simp only [Sheet.record, hdiagnostics, hcounts, zero_add]

/-! ### The rows an evaluation writes -/

/-- The stored diagnostic of a row is the row's own. -/
def OwnDiagnostic (key : InstrumentId) (payload : DeepPayload) : Prop :=
  ∀ d, payload.diagnostic = .valid d → d.globalInstrumentId = key

/-- The checkpoint, if there is one, stores the diagnostic of each candidate under its key. -/
def Sheet.Owned (s : Sheet) : Prop :=
  ∀ checkpoint ∈ s.checkpoint, checkpoint.PayloadsWhere .deep OwnDiagnostic

theorem lastDiagnostic_key {s : Sheet} {key : InstrumentId} {d : CandidateDiagnostic}
    (h : s.lastDiagnostic key = some d) : d.globalInstrumentId = key := by
  have hfound := List.find?_some h
  rwa [decide_eq_true_eq] at hfound

/-- What is stored of an outcome is the candidate's own. -/
theorem settle_owned {s : Sheet} (h : s.Owned) (key : InstrumentId) : (settle key s).Owned := by
  intro checkpoint hmem
  obtain ⟨before, hbefore, rfl⟩ := Option.map_eq_some_iff.mp (Option.mem_def.mp hmem)
  refine (h before hbefore).finish key _ _ _ _ ?_
  intro d hd
  cases hlast : s.lastDiagnostic key with
  | none =>
      rw [hlast] at hd
      cases hd
  | some last =>
      rw [hlast] at hd
      cases hd
      exact lastDiagnostic_key hlast

/-- **A live evaluation** files one diagnostic of its candidate, and adds what that implies
and its residue. -/
theorem evaluate_books (setup : Setup) (calls : Calls) (candidate : Candidate) (s : Sheet) :
    ∃ d, d.globalInstrumentId = candidate.globalInstrumentId ∧
      (evaluate setup calls candidate s).books =
        s.books.post d (charge d + tally (residue setup calls)) :=
  (handle_books setup calls candidate s).2

theorem evaluate_owned (setup : Setup) (calls : Calls) (candidate : Candidate) {s : Sheet}
    (h : s.Owned) : (evaluate setup calls candidate s).Owned := by
  refine settle_owned ?_ _
  intro checkpoint hmem
  rw [(handle_books setup calls candidate s).1] at hmem
  exact h checkpoint hmem

end InvestmentPlatform.Stage2
