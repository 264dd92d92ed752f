/-
Raising scores, and the order of the results.

Two inputs that differ only in scores that are there collect the same dimensions with the same
weights, each with a score at most the other's.  The loop of `rank` scores each candidate by
itself and raises on a repeated instrument, so another order of the candidates gives the same
results in another order; the last part of the sort key tells them apart.
-/
import InvestmentPlatform.Proofs.Ranker.Evidence

namespace InvestmentPlatform.Ranker

open Rules Selection WeightedMean Fallible List

variable {candidate candidate' : StageBCandidate} {rule rule' : Option RuleResult}
variable {evidence evidence' next next' : Evidence} {name : Dimension}
variable {result result' : GlobalOpportunityResult}

/-! ### Raised scores -/

/-- An area with its raw score raised. -/
structure RaisedArea (area area' : AreaScoreResult) : Prop where
  score : Option.Rel (· ≤ ·) area.rawScore area'.rawScore
  others : area' = { area with rawScore := area'.rawScore }

/-- A rule engine result with raw scores raised. -/
structure RaisedRule (rule rule' : RuleResult) : Prop where
  areas : Forall₂ RaisedArea rule.areaScores rule'.areaScores
  others : rule' = { rule with areaScores := rule'.areaScores }

/-- A candidate with its rule engine result, with scores raised and everything else as it is. -/
structure Raised (candidate : StageBCandidate) (rule : Option RuleResult)
    (candidate' : StageBCandidate) (rule' : Option RuleResult) : Prop where
  technical : Option.Rel (· ≤ ·) candidate.technicalScore candidate'.technicalScore
  sector : Option.Rel (· ≤ ·) candidate.sectorScore candidate'.sectorScore
  others : candidate' = { candidate with
    technicalScore := candidate'.technicalScore
    sectorScore := candidate'.sectorScore
    technicalFeatureSnapshot := { candidate.technicalFeatureSnapshot with
      technicalScore := candidate'.technicalScore }
    sectorRelativeStrengthSnapshot := { candidate.sectorRelativeStrengthSnapshot with
      relativeStrengthScore := candidate'.sectorScore } }
  rule : Option.Rel RaisedRule rule rule'

/-- The same dimensions are used, each with a score at most the other's. -/
def AtMost (evidence evidence' : Evidence) : Prop :=
  Forall₂ (fun used used' => used.dimension = used'.dimension ∧ used.value ≤ used'.value)
    evidence.values evidence'.values

theorem AtMost.below (h : AtMost evidence evidence') : Below evidence.scores evidence'.scores := by
  rw [Below, Evidence.scores, Evidence.scores, forall₂_map_left_iff, forall₂_map_right_iff]
  refine h.imp fun used used' hused => ⟨?_, hused.2⟩
  show used.dimension.weight = used'.dimension.weight
  rw [hused.1]

theorem AtMost.use (h : AtMost evidence evidence') {value value' confidence confidence' : ℚ}
    (hvalue : value ≤ value') (hnext : evidence.use name value confidence = .ok next)
    (hnext' : evidence'.use name value' confidence' = .ok next') : AtMost next next' := by
  obtain ⟨-, rfl⟩ := use_eq_ok hnext
  obtain ⟨-, rfl⟩ := use_eq_ok hnext'
  exact rel_append h (Forall₂.cons ⟨rfl, hvalue⟩ Forall₂.nil)

theorem find?_raised {areas areas' : List AreaScoreResult} (name : Dimension)
    (h : Forall₂ RaisedArea areas areas') :
    Option.Rel RaisedArea (areas.find? fun area => name.ruleArea = some area.area)
      (areas'.find? fun area => name.ruleArea = some area.area) := by
  induction h with
  | nil => exact Option.Rel.none
  | @cons area area' _ _ hhead _ ih =>
      have hsame : area'.area = area.area := by rw [hhead.others]
      rw [find?_cons, find?_cons, hsame]
      split
      · exact Option.Rel.some hhead
      · exact ih

theorem read_atMost {area area' : AreaScoreResult} (harea : RaisedArea area area')
    {confidence : ℚ} (h : AtMost evidence evidence')
    (hnext : evidence.read confidence name area = .ok next)
    (hnext' : evidence'.read confidence name area' = .ok next') : AtMost next next' := by
  have happlicable : area'.applicable = area.applicable := by rw [harea.others]
  have hstatus : area'.status = area.status := by rw [harea.others]
  rw [Evidence.read] at hnext hnext'
  rw [happlicable, hstatus] at hnext'
  split at hnext
  · rename_i hdropped
    rw [if_pos hdropped] at hnext'
    cases hnext
    cases hnext'
    exact h
  · rename_i hkept
    rw [if_neg hkept] at hnext'
    split at hnext
    · rename_i hdisputed
      rw [if_pos hdisputed] at hnext'
      cases hnext
      cases hnext'
      exact h
    · rename_i hsound
      rw [if_neg hsound] at hnext'
      split at hnext
      · rename_i hready
        rw [if_pos hready] at hnext'
        have hscore := harea.score
        generalize area.rawScore = raw at hscore hnext
        generalize area'.rawScore = raw' at hscore hnext'
        cases hscore with
        | none =>
            cases hnext
            cases hnext'
            exact h
        | some hvalue => exact h.use hvalue hnext hnext'
      · rename_i hlacking
        rw [if_neg hlacking] at hnext'
        cases hnext
        cases hnext'
        exact h

theorem readArea_atMost (hrule : Option.Rel RaisedRule rule rule') (h : AtMost evidence evidence')
    (hnext : readArea rule evidence name = .ok next)
    (hnext' : readArea rule' evidence' name = .ok next') : AtMost next next' := by
  cases hrule with
  | none =>
      cases hnext
      cases hnext'
      exact h
  | @some rule rule' hraised =>
      have hconfidence : rule'.confidenceScore = rule.confidenceScore := by rw [hraised.others]
      have harea := find?_raised name hraised.areas
      rw [← areaOf, ← areaOf] at harea
      rw [readArea] at hnext hnext'
      generalize areaOf rule name = found at harea hnext
      generalize areaOf rule' name = found' at harea hnext'
      cases harea with
      | none =>
          cases hnext
          cases hnext'
          exact h
      | some harea =>
          rw [hconfidence] at hnext'
          exact read_atMost harea h hnext hnext'

theorem stageB_atMost {value value' : Option ℚ} (hvalue : Option.Rel (· ≤ ·) value value')
    {confidence : ℚ} {usable : Bool} (h : AtMost evidence evidence')
    (hnext : evidence.stageB name value confidence usable = .ok next)
    (hnext' : evidence'.stageB name value' confidence usable = .ok next') : AtMost next next' := by
  cases hvalue with
  | none =>
      cases hnext
      cases hnext'
      exact h
  | some hle =>
      cases usable with
      | true => exact h.use hle hnext hnext'
      | false =>
          cases hnext
          cases hnext'
          exact h

/-- What decides whether the two Stage-B dimensions are used, apart from their scores. -/
structure SameStageB (candidate candidate' : StageBCandidate) : Prop where
  stale : stalePrice candidate' = stalePrice candidate
  conflicting : conflictingPrice candidate' = conflictingPrice candidate
  technical : candidate'.technicalFeatureSnapshot.confidence =
    candidate.technicalFeatureSnapshot.confidence
  sector : candidate'.sectorRelativeStrengthSnapshot.confidence =
    candidate.sectorRelativeStrengthSnapshot.confidence
  state : candidate'.sectorRelativeStrengthSnapshot.sectorState =
    candidate.sectorRelativeStrengthSnapshot.sectorState

theorem Raised.sameStageB (h : Raised candidate rule candidate' rule') :
    SameStageB candidate candidate' where
  stale := by rw [stalePrice, stalePrice, h.others]
  conflicting := by rw [conflictingPrice, conflictingPrice, h.others]
  technical := by rw [h.others]
  sector := by rw [h.others]
  state := by rw [h.others]

theorem readStageB_atMost (hsame : SameStageB candidate candidate')
    (htechnical : Option.Rel (· ≤ ·) candidate.technicalScore candidate'.technicalScore)
    (hsector : Option.Rel (· ≤ ·) candidate.sectorScore candidate'.sectorScore)
    (h : AtMost evidence evidence') (hnext : readStageB candidate evidence = .ok next)
    (hnext' : readStageB candidate' evidence' = .ok next') : AtMost next next' := by
  rw [readStageB, bind_eq_ok] at hnext hnext'
  obtain ⟨middle, hmiddle, hlast⟩ := hnext
  obtain ⟨middle', hmiddle', hlast'⟩ := hnext'
  rw [hsame.stale, hsame.conflicting, hsame.technical] at hmiddle'
  rw [hsame.stale, hsame.conflicting, hsame.sector, hsame.state] at hlast'
  exact stageB_atMost hsector (stageB_atMost htechnical h hmiddle hmiddle') hlast hlast'

theorem collect_atMost (hraised : Raised candidate rule candidate' rule')
    (h : collect candidate rule = .ok evidence) (h' : collect candidate' rule' = .ok evidence') :
    AtMost evidence evidence' := by
  obtain ⟨-, areas, hareas, hstage⟩ := collect_eq_ok h
  obtain ⟨-, areas', hareas', hstage'⟩ := collect_eq_ok h'
  have hstart : AtMost { gates := ruleGates rule } { gates := ruleGates rule' } :=
    Forall₂.nil
  have hread : AtMost areas areas' :=
    foldlM_rec₂ (f := readArea rule) (g := readArea rule') AtMost
      (fun _ _ _ _ _ hs hnext hnext' => readArea_atMost hraised.rule hs hnext hnext')
      hstart hareas hareas'
  have hpriced : AtMost (areas.withPrice candidate) (areas'.withPrice candidate') := hread
  exact readStageB_atMost hraised.sameStageB hraised.technical hraised.sector hpriced hstage hstage'

/-- Raising scores does not lower the opportunity. -/
theorem opportunity_mono (hraised : Raised candidate rule candidate' rule')
    (h : score candidate rule = .ok result) (h' : score candidate' rule' = .ok result') :
    Option.Rel (· ≤ ·) result.opportunityScore result'.opportunityScore := by
  obtain ⟨evidence, hcollect, hconclude⟩ := score_eq_ok.mp h
  obtain ⟨evidence', hcollect', hconclude'⟩ := score_eq_ok.mp h'
  have hbelow := (collect_atMost hraised hcollect hcollect').below
  have havailable : evidence'.availableWeight = evidence.availableWeight :=
    hbelow.totalWeight_eq.symm
  rw [(conclude_eq_ok hconclude).opportunity, (conclude_eq_ok hconclude').opportunity, havailable]
  split
  · exact Option.Rel.none
  · refine Option.Rel.some (round8_mono ?_)
    have hmean := hbelow.mean_le
    rwa [← Evidence.availableWeight, ← Evidence.availableWeight, havailable] at hmean

/-! ### The loop of `rank` -/

variable {rules : String → Option RuleResult} {candidates candidates' : List StageBCandidate}
variable {results : List GlobalOpportunityResult}

/-- The result is what scoring the candidate returns. -/
def Scores (rules : String → Option RuleResult) (candidate : StageBCandidate)
    (result : GlobalOpportunityResult) : Prop :=
  score candidate (rules candidate.globalInstrumentId) = .ok result

theorem Scores.instrument (h : Scores rules candidate result) :
    result.globalInstrumentId = candidate.globalInstrumentId := by
  obtain ⟨evidence, -, hconclude⟩ := score_eq_ok.mp h
  exact (conclude_eq_ok hconclude).instrument

/-- The loop returns one result for each candidate where no instrument comes twice. -/
theorem rankLoop_eq_ok {seen : List String} : rankLoop rules seen candidates = .ok results ↔
    (∀ c ∈ candidates, c.globalInstrumentId ∉ seen) ∧
      (candidates.map StageBCandidate.globalInstrumentId).Nodup ∧
      Forall₂ (Scores rules) candidates results := by
  induction candidates generalizing seen results with
  | nil => simp [rankLoop, eq_comm]
  | cons candidate rest ih =>
      simp only [rankLoop, bind_eq_ok, raiseIf_eq_ok, exists_and_left, exists_const, ih]
      constructor
      · rintro ⟨hfresh, result, hscore, tail, ⟨hseen, hnodup, hscores⟩, hresults⟩
        cases hresults
        refine ⟨?_, ?_, Forall₂.cons hscore hscores⟩
        · intro other hother
          rcases mem_cons.mp hother with rfl | hrest
          · exact hfresh
          · exact fun hin => hseen other hrest (mem_cons_of_mem _ hin)
        · rw [map_cons, nodup_cons]
          refine ⟨?_, hnodup⟩
          intro hrepeat
          obtain ⟨other, hother, hsame⟩ := mem_map.mp hrepeat
          exact hseen other hother (hsame ▸ mem_cons_self)
      · rintro ⟨hseen, hnodup, hscores⟩
        rw [map_cons, nodup_cons] at hnodup
        cases hscores with
        | @cons _ result _ tail hscore hscores =>
            refine ⟨hseen candidate mem_cons_self, result, hscore, tail, ⟨?_, hnodup.2, hscores⟩,
              rfl⟩
            intro other hother hin
            rcases mem_cons.mp hin with hsame | hin
            · exact hnodup.1 (hsame ▸ mem_map_of_mem hother)
            · exact hseen other (mem_cons_of_mem _ hother) hin

theorem rank_eq_ok : rank candidates rules = .ok results ↔
    (candidates.map StageBCandidate.globalInstrumentId).Nodup ∧
      ∃ scored, Forall₂ (Scores rules) candidates scored ∧ results = sortOn rankKey scored := by
  rw [rank, bind_eq_ok]
  simp only [rankLoop_eq_ok]
  constructor
  · rintro ⟨scored, ⟨-, hnodup, hscores⟩, hresults⟩
    cases hresults
    exact ⟨hnodup, scored, hscores, rfl⟩
  · rintro ⟨hnodup, scored, hscores, rfl⟩
    exact ⟨scored, ⟨by simp, hnodup, hscores⟩, rfl⟩

/-- The results of candidates with distinct instruments have distinct sort keys. -/
theorem rankKeys_nodup (hnodup : (candidates.map StageBCandidate.globalInstrumentId).Nodup)
    (hscores : Forall₂ (Scores rules) candidates results) :
    (results.map rankKey).Nodup := by
  have hinstruments : results.map GlobalOpportunityResult.globalInstrumentId =
      candidates.map StageBCandidate.globalInstrumentId := by
    induction hscores with
    | nil => rfl
    | cons hscore _ ih =>
        rw [map_cons, nodup_cons] at hnodup
        rw [map_cons, map_cons, Scores.instrument hscore, ih hnodup.2]
  have hlast : (results.map rankKey).map (fun key => (ofLex (ofLex (ofLex (ofLex key).2).2).2).2) =
      results.map GlobalOpportunityResult.globalInstrumentId := by
    rw [map_map]
    rfl
  refine Nodup.of_map (fun key => (ofLex (ofLex (ofLex (ofLex key).2).2).2).2) ?_
  rw [hlast, hinstruments]
  exact hnodup

/-- Another order of the candidates ranks the same. -/
theorem rank_perm (hperm : candidates'.Perm candidates) (h : rank candidates rules = .ok results) :
    rank candidates' rules = .ok results := by
  obtain ⟨hnodup, scored, hscores, rfl⟩ := rank_eq_ok.mp h
  obtain ⟨scored', hscores', hscored⟩ :=
    perm_comp_forall₂ hperm hscores
  have hnodup' : (candidates'.map StageBCandidate.globalInstrumentId).Nodup :=
    (hperm.map _).nodup_iff.mpr hnodup
  refine rank_eq_ok.mpr ⟨hnodup', scored', hscores', ?_⟩
  exact (sortOn_eq_of_perm hscored (rankKeys_nodup hnodup' hscores')).symm

/-! ### The laws -/

/-- What holds of the result of one candidate: its numbers are bounded, it is not eligible when
something disqualifies it, and raising scores does not lower its opportunity. -/
structure Lawful (candidate : StageBCandidate) (rule : Option RuleResult)
    (result : GlobalOpportunityResult) : Prop where
  bounded : ∃ evidence, collect candidate rule = .ok evidence ∧ Bounded evidence result
  eligible : Disqualified candidate rule → result.rankEligible = false
  raised : ∀ candidate' rule' result', Raised candidate rule candidate' rule' →
    score candidate' rule' = .ok result' →
    Option.Rel (· ≤ ·) result.opportunityScore result'.opportunityScore

theorem lawful_of_score (h : score candidate rule = .ok result) : Lawful candidate rule result := by
  obtain ⟨evidence, hcollect, hconclude⟩ := score_eq_ok.mp h
  have hconcludes := conclude_eq_ok hconclude
  exact ⟨⟨evidence, hcollect, bounded_of_collect hcollect hconcludes⟩,
    ineligible_of_disqualified hcollect hconcludes,
    fun _ _ _ hraised h' => opportunity_mono hraised h h'⟩

/-- A candidate that has only a technical score. -/
def technicalOnly (id : String) (value : ℚ) : StageBCandidate where
  globalInstrumentId := id
  technicalFeatureSnapshot := ⟨id, some value, "UPTREND", 50, [], []⟩
  sectorRelativeStrengthSnapshot := ⟨id, none, "INSUFFICIENT_DATA", 0, [], []⟩
  technicalScore := some value
  sectorScore := none

/-- A full result whose one unread area is stale, and not applicable. -/
def analyzed (id : String) : RuleResult where
  calculatedAt := 0
  globalInstrumentId := id
  inputAsOf := none
  overallScore := some 70
  qualityScore := some 70
  opportunityScore := some 70
  riskScore := some 30
  confidenceScore := 90
  confidence := .high
  decisionSignal := .accumulate
  isPartial := false
  eligibility := ⟨true, false, [], "FULL_CRITICAL_AND_MANDATORY_INPUTS_AVAILABLE"⟩
  areaScores := [
    { area := .valuation, weight := 18, rawScore := some 80, status := .readyFresh,
      applicable := true },
    { area := .managementGovernance, weight := 5, status := .readyStale, applicable := false }]
  riskOverrides := []
  missingInputs := []
  evidenceReferences := []

end InvestmentPlatform.Ranker
