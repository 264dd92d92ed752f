/-
What the ranker collects.

Reading one area does one of three things: it takes the area's weight off the applicable
weight, it adds one value, or it leaves both alone and at most adds reasons and gates.  So the
weight of the values together with the weight of what is still to be read never exceeds the
applicable weight, and at the end the technical and the sector weight are still in it.
-/
import InvestmentPlatform.Ranker.Score

namespace InvestmentPlatform.Ranker

open Rules Selection WeightedMean Fallible List

theorem checkedScore_eq_ok {value x : ℚ} (h : checkedScore value = .ok x) :
    (0 ≤ value ∧ value ≤ 100) ∧ x = value := by
  rw [checkedScore] at h
  split at h
  · rename_i hrange
    cases h
    exact ⟨hrange, rfl⟩
  · cases h

/-- The weight of some dimensions. -/
def weightOf (names : List Dimension) : Nat := (names.map Dimension.weight).sum

@[simp] theorem weightOf_cons (name : Dimension) (names : List Dimension) :
    weightOf (name :: names) = name.weight + weightOf names := by
  simp [weightOf]

theorem Evidence.availableWeight_eq (evidence : Evidence) :
    evidence.availableWeight = (evidence.values.map fun used => used.dimension.weight).sum := by
  simp [Evidence.availableWeight, Evidence.scores, totalWeight, Function.comp_def]

theorem Evidence.totalWeight_confidences (evidence : Evidence) :
    totalWeight evidence.confidences = evidence.availableWeight := by
  rw [Evidence.availableWeight_eq]
  simp [Evidence.confidences, totalWeight, Function.comp_def]

/-! ### One step -/

variable {candidate : StageBCandidate} {rule : Option RuleResult}
variable {evidence evidence' : Evidence} {name : Dimension}

/-- A value that may be used: its score and its confidence are percentages. -/
def Usable.InRange (used : Usable) : Prop :=
  (0 ≤ used.value ∧ used.value ≤ 100) ∧ 0 ≤ used.confidence ∧ used.confidence ≤ 100

theorem use_eq_ok {value confidence : ℚ} (h : evidence.use name value confidence = .ok evidence') :
    Usable.InRange ⟨name, value, confidence⟩ ∧
      evidence' = { evidence with values := evidence.values ++ [⟨name, value, confidence⟩] } := by
  rw [Evidence.use, bind_eq_ok] at h
  obtain ⟨v, hv, h⟩ := h
  rw [bind_eq_ok] at h
  obtain ⟨c, hc, h⟩ := h
  obtain ⟨hvalue, rfl⟩ := checkedScore_eq_ok hv
  obtain ⟨hconfidence, rfl⟩ := checkedScore_eq_ok hc
  cases h
  exact ⟨⟨hvalue, hconfidence⟩, rfl⟩

/-- What reading one dimension can do to the evidence. -/
inductive Reads (name : Dimension) (evidence : Evidence) : Evidence → Prop
  | drop : Reads name evidence
      { evidence with applicableWeight := evidence.applicableWeight - name.weight }
  | use (used : Usable) (hname : used.dimension = name) (hrange : used.InRange) :
      Reads name evidence { evidence with values := evidence.values ++ [used] }
  | note (evidence' : Evidence) (hvalues : evidence'.values = evidence.values)
      (hweight : evidence'.applicableWeight = evidence.applicableWeight)
      (hgates : evidence.gates ⊆ evidence'.gates) : Reads name evidence evidence'

theorem Reads.lack (name : Dimension) (evidence : Evidence) :
    Reads name evidence (evidence.lack name) :=
  .note _ rfl rfl (List.Subset.refl _)

theorem dispute_gates (evidence : Evidence) (name : Dimension) (code : String) :
    evidence.gates ⊆ (evidence.dispute name code).gates := by
  rw [Evidence.dispute]
  split
  · exact subset_append_left _ _
  · exact List.Subset.refl _

theorem reads_of_use {value confidence : ℚ}
    (h : evidence.use name value confidence = .ok evidence') : Reads name evidence evidence' := by
  obtain ⟨hrange, rfl⟩ := use_eq_ok h
  exact .use _ rfl hrange

theorem readArea_reads (h : readArea rule evidence name = .ok evidence') :
    Reads name evidence evidence' := by
  rw [readArea.eq_def] at h
  split at h
  · cases h
    exact Reads.lack name evidence
  · split at h
    · cases h
      exact Reads.lack name evidence
    · rename_i area _
      rw [Evidence.read] at h
      split at h
      · cases h
        exact .drop
      · split at h
        · cases h
          exact .note _ rfl rfl (dispute_gates evidence name _)
        · split at h
          · split at h
            · exact reads_of_use h
            · cases h
              exact .note _ rfl rfl (List.Subset.refl _)
          · cases h
            exact Reads.lack name evidence

theorem stageB_reads {value : Option ℚ} {confidence : ℚ} {usable : Bool}
    (h : evidence.stageB name value confidence usable = .ok evidence') :
    Reads name evidence evidence' := by
  rw [Evidence.stageB.eq_def] at h
  split at h
  · split at h
    · exact reads_of_use h
    · cases h
      exact .note _ rfl rfl (List.Subset.refl _)
  · cases h
    exact .note _ rfl rfl (List.Subset.refl _)

/-! ### The invariant -/

/-- Evidence with `rest` still to be read: the values are percentages, and they weigh at most
what is applicable beyond `rest`. -/
structure Accounted (rest : List Dimension) (evidence : Evidence) : Prop where
  inRange : ∀ used ∈ evidence.values, used.InRange
  weight : (evidence.availableWeight + weightOf rest : Nat) ≤ evidence.applicableWeight

theorem Accounted.start (gates : List String) : Accounted dimensions { gates } where
  inRange := by simp
  weight := by
    show ((0 + weightOf dimensions : Nat) : Int) ≤ (dimensions.map Dimension.weight).sum
    decide

theorem Accounted.step {rest : List Dimension} (hrest : Accounted (name :: rest) evidence)
    (h : Reads name evidence evidence') : Accounted rest evidence' := by
  have hweight := hrest.weight
  rw [weightOf_cons] at hweight
  cases h with
  | drop =>
      refine ⟨hrest.inRange, ?_⟩
      show ((evidence.availableWeight + weightOf rest : Nat) : Int) ≤ _ - _
      omega
  | use used hname hrange =>
      refine ⟨?_, ?_⟩
      · intro other hother
        rcases mem_append.mp hother with hold | hnew
        · exact hrest.inRange other hold
        · rw [mem_singleton.mp hnew]
          exact hrange
      · rw [Evidence.availableWeight_eq] at hweight ⊢
        subst hname
        simp only [map_append, map_cons, map_nil, sum_append, sum_cons, sum_nil]
        omega
  | note _ hvalues happlicable _ =>
      refine ⟨by rw [hvalues]; exact hrest.inRange, ?_⟩
      rw [Evidence.availableWeight_eq] at hweight ⊢
      rw [hvalues, happlicable]
      omega

theorem Reads.gates (h : Reads name evidence evidence') : evidence.gates ⊆ evidence'.gates := by
  cases h with
  | drop => exact List.Subset.refl _
  | use => exact List.Subset.refl _
  | note _ _ _ hgates => exact hgates

/-! ### The whole collection -/

/-- The evidence after the rule engine's areas, with the gates of the price. -/
def Evidence.withPrice (evidence : Evidence) (candidate : StageBCandidate) : Evidence :=
  { evidence with gates := evidence.gates ++ priceGates candidate }

/-- The two Stage-B dimensions, read after the areas. -/
def readStageB (candidate : StageBCandidate) (evidence : Evidence) :
    Except RankerError Evidence := do
  let sound := !(stalePrice candidate || conflictingPrice candidate)
  let evidence ← evidence.stageB .technical candidate.technicalScore
    candidate.technicalFeatureSnapshot.confidence sound
  evidence.stageB .sector candidate.sectorScore candidate.sectorRelativeStrengthSnapshot.confidence
    (candidate.sectorRelativeStrengthSnapshot.sectorState ≠ "INSUFFICIENT_DATA" && sound)

/-- What `collect` has done when it returns: no area comes twice, and it has read the areas,
and then Stage B. -/
theorem collect_eq_ok (h : collect candidate rule = .ok evidence) :
    (∀ result ∈ rule, (result.areaScores.map AreaScoreResult.area).Nodup) ∧
    ∃ areas, ruleDimensions.foldlM (readArea rule) { gates := ruleGates rule } = .ok areas ∧
      readStageB candidate (areas.withPrice candidate) = .ok evidence := by
  rw [collect] at h
  simp only [bind_eq_ok, raiseIf_eq_ok, exists_and_left, exists_const] at h
  obtain ⟨-, -, -, hunique, areas, hareas, -, h⟩ := h
  refine ⟨by simpa [Option.any_eq_true] using hunique, areas, hareas, ?_⟩
  rw [readStageB, bind_eq_ok]
  exact h

theorem stageB_applicable {value : Option ℚ} {confidence : ℚ} {usable : Bool}
    (h : evidence.stageB name value confidence usable = .ok evidence') :
    evidence'.applicableWeight = evidence.applicableWeight := by
  rw [Evidence.stageB.eq_def] at h
  split at h
  · split at h
    · obtain ⟨-, rfl⟩ := use_eq_ok h
      rfl
    · cases h
      rfl
  · cases h
    rfl

theorem readStageB_eq_ok (h : readStageB candidate evidence = .ok evidence') :
    ∃ middle, Reads .technical evidence middle ∧ Reads .sector middle evidence' ∧
      evidence'.applicableWeight = evidence.applicableWeight := by
  rw [readStageB, bind_eq_ok] at h
  obtain ⟨middle, htechnical, hsector⟩ := h
  refine ⟨middle, stageB_reads htechnical, stageB_reads hsector, ?_⟩
  rw [stageB_applicable hsector, stageB_applicable htechnical]

/-- **The values weigh at most the applicable weight, and the weights of the two Stage-B
dimensions stay in it whatever the areas are.** -/
theorem collect_accounted (h : collect candidate rule = .ok evidence) :
    Accounted [] evidence ∧ 10 ≤ evidence.applicableWeight := by
  obtain ⟨-, areas, hareas, hstage⟩ := collect_eq_ok h
  have hread : Accounted [.technical, .sector] areas :=
    foldlM_rec (fun rest evidence => Accounted (rest ++ [.technical, .sector]) evidence)
      (fun _ _ _ _ hrest hstep => hrest.step (readArea_reads hstep))
      (Accounted.start (ruleGates rule)) hareas
  have hpriced : Accounted [.technical, .sector] (areas.withPrice candidate) :=
    ⟨hread.inRange, hread.weight⟩
  obtain ⟨middle, htechnical, hsector, happlicable⟩ := readStageB_eq_ok hstage
  refine ⟨(hpriced.step htechnical).step hsector, ?_⟩
  have hweight := hpriced.weight
  have hten : weightOf [.technical, .sector] = 10 := rfl
  rw [hten] at hweight
  omega

/-! ### Gates -/

theorem ruleGates_kept (h : collect candidate rule = .ok evidence) :
    ruleGates rule ⊆ evidence.gates ∧ priceGates candidate ⊆ evidence.gates := by
  obtain ⟨-, areas, hareas, hstage⟩ := collect_eq_ok h
  have hread : ruleGates rule ⊆ areas.gates :=
    foldlM_rec (fun _ evidence => ruleGates rule ⊆ evidence.gates)
      (fun _ _ _ _ hkept hstep => List.Subset.trans hkept (readArea_reads hstep).gates)
      (List.Subset.refl _) hareas
  obtain ⟨middle, htechnical, hsector, -⟩ := readStageB_eq_ok hstage
  have hkept := List.Subset.trans htechnical.gates hsector.gates
  exact ⟨fun gate hgate => hkept (mem_append_left _ (hread hgate)),
    fun gate hgate => hkept (mem_append_right _ hgate)⟩

/-- A critical area that is stale or conflicting, and applicable. -/
def Disputed (rule : RuleResult) : Prop :=
  ∃ area ∈ rule.areaScores, ∃ name ∈ criticalAreas, name.ruleArea = some area.area ∧
    area.applicable = true ∧ (area.status = .readyStale ∨ area.status = .conflicting)

theorem areaOf_of_mem {rule : RuleResult} {area : AreaScoreResult}
    (hunique : (rule.areaScores.map AreaScoreResult.area).Nodup) (hmem : area ∈ rule.areaScores)
    (hname : name.ruleArea = some area.area) : areaOf rule name = some area := by
  rw [areaOf]
  cases hfind : rule.areaScores.find? fun area => name.ruleArea = some area.area with
  | none => simpa [hname] using find?_eq_none.mp hfind area hmem
  | some other =>
      have hother : name.ruleArea = some other.area := by simpa using find?_some hfind
      have hsame : other.area = area.area := Option.some.inj (hother.symm.trans hname)
      rw [inj_on_of_nodup_map hunique (mem_of_find?_eq_some hfind) hmem hsame]

theorem disputed_gates {result : RuleResult} (h : collect candidate (some result) = .ok evidence)
    (hdisputed : Disputed result) : evidence.gates ≠ [] := by
  obtain ⟨hunique, areas, hareas, hstage⟩ := collect_eq_ok h
  obtain ⟨area, hmem, name, hcritical, hname, happlicable, hstatus⟩ := hdisputed
  have harea := areaOf_of_mem (hunique result rfl) hmem hname
  have hscored : name ∈ ruleDimensions := by
    revert hcritical
    cases name <;> decide
  have hread : areas.gates ≠ [] := by
    refine foldlM_reaches (P := fun evidence => evidence.gates ≠ []) ?_ ?_ hscored hareas
    · intro other s s' hs hstep hnil
      exact hs (subset_nil.mp (hnil ▸ (readArea_reads hstep).gates))
    · intro s s' hstep
      have happlies : ¬ (area.applicable = false ∨ area.status = .notApplicable) := by
        rcases hstatus with hstatus | hstatus <;> simp [happlicable, hstatus]
      simp only [readArea, harea, Evidence.read, if_neg happlies, if_pos hstatus] at hstep
      cases hstep
      simp [Evidence.dispute, hcritical]
  obtain ⟨middle, htechnical, hsector, -⟩ := readStageB_eq_ok hstage
  intro hnil
  have hkept := List.Subset.trans htechnical.gates hsector.gates
  rw [hnil, subset_nil] at hkept
  exact hread (append_eq_nil_iff.mp hkept).1

end InvestmentPlatform.Ranker

/-!
The laws of the ranker.

A result is a weighted mean of percentages over a positive weight, so its numbers are bounded
by the numbers they are made of, as rounded; raising a score raises the mean; a gate makes the
result ineligible; and the sort key ends with the instrument, so that the order given does not
matter.
-/

namespace InvestmentPlatform.Ranker

open Rules Selection WeightedMean Fallible

variable {candidate candidate' : StageBCandidate} {rule rule' : Option RuleResult}
variable {evidence evidence' : Evidence} {name : Dimension}
variable {result result' : GlobalOpportunityResult}

/-! ### Divisions -/

theorem divide_eq_ok {a b c : ℚ} : divide a b = .ok c ↔ b ≠ 0 ∧ c = a / b := by
  rw [divide]
  split
  · rename_i hzero
    simp [hzero]
  · rename_i hzero
    simp [hzero, eq_comm]

theorem checkedScore_avoids (value : ℚ) : Avoids .zeroDivision (checkedScore value) := by
  rw [checkedScore]
  split <;> simp [Avoids]

theorem optionalScore_avoids (value : Option ℚ) : Avoids .zeroDivision (optionalScore value) := by
  cases value with
  | none => exact Avoids.ok none
  | some value => exact (checkedScore_avoids value).map some

theorem use_avoids (value confidence : ℚ) :
    Avoids .zeroDivision (evidence.use name value confidence) :=
  (checkedScore_avoids value).bind fun _ _ => (checkedScore_avoids confidence).bind fun _ _ =>
    Avoids.ok _

theorem readArea_avoids : Avoids .zeroDivision (readArea rule evidence name) := by
  rw [readArea.eq_def]
  split
  · exact Avoids.ok _
  · split
    · exact Avoids.ok _
    · rw [Evidence.read]
      split
      · exact Avoids.ok _
      · split
        · exact Avoids.ok _
        · split
          · split
            · exact use_avoids _ _
            · exact Avoids.ok _
          · exact Avoids.ok _

theorem stageB_avoids {value : Option ℚ} {confidence : ℚ} {usable : Bool} :
    Avoids .zeroDivision (evidence.stageB name value confidence usable) := by
  rw [Evidence.stageB.eq_def]
  split
  · split
    · exact use_avoids _ _
    · exact Avoids.ok _
  · exact Avoids.ok _

theorem collect_avoids : Avoids .zeroDivision (collect candidate rule) := by
  rw [collect]
  refine (Avoids.raiseIf (by decide)).bind fun _ _ => ?_
  refine (Avoids.raiseIf (by decide)).bind fun _ _ => ?_
  refine (Avoids.raiseIf (by decide)).bind fun _ _ => ?_
  refine (Avoids.raiseIf (by decide)).bind fun _ _ => ?_
  refine (Avoids.foldlM (fun _ _ => readArea_avoids) _ _).bind fun areas _ => ?_
  refine (Avoids.raiseIf (by decide)).bind fun _ _ => ?_
  exact stageB_avoids.bind fun _ _ => stageB_avoids

theorem opportunity_avoids : Avoids .zeroDivision evidence.opportunity := by
  rw [Evidence.opportunity]
  split
  · exact Avoids.ok none
  · rename_i havailable
    refine Avoids.map some ?_
    rw [divide, if_neg (by exact_mod_cast havailable)]
    exact Avoids.ok _

theorem conclude_avoids (happlicable : 0 < evidence.applicableWeight) :
    Avoids .zeroDivision (conclude candidate rule evidence) := by
  have hdivide : ∀ a, Avoids .zeroDivision (divide a evidence.applicableWeight) := by
    intro a
    rw [divide, if_neg (by exact_mod_cast happlicable.ne')]
    exact Avoids.ok _
  rw [conclude]
  refine opportunity_avoids.bind fun _ _ => ?_
  refine (hdivide _).bind fun _ _ => ?_
  refine (hdivide _).bind fun _ _ => ?_
  refine (optionalScore_avoids _).bind fun _ _ => ?_
  refine (optionalScore_avoids _).bind fun _ _ => ?_
  refine (optionalScore_avoids _).bind fun _ _ => ?_
  exact (optionalScore_avoids _).bind fun _ _ => Avoids.ok _

/-- Scoring never divides by zero. -/
theorem score_avoids (candidate : StageBCandidate) (rule : Option RuleResult) :
    Avoids .zeroDivision (score candidate rule) := by
  rw [score]
  refine collect_avoids.bind fun evidence hevidence => conclude_avoids ?_
  have hten := (collect_accounted hevidence).2
  omega

/-! ### What a result is made of -/

/-- The numbers of a result, computed from the evidence. -/
structure Concludes (candidate : StageBCandidate) (evidence : Evidence)
    (result : GlobalOpportunityResult) : Prop where
  instrument : result.globalInstrumentId = candidate.globalInstrumentId
  opportunity : result.opportunityScore =
    if evidence.availableWeight = 0 then none
    else some (round8 (weightedSum evidence.scores / evidence.availableWeight))
  confidence : result.opportunityConfidence =
    round8 (weightedSum evidence.confidences / evidence.applicableWeight)
  coverage : result.scoreCoverage =
    round8 (100 * evidence.availableWeight / evidence.applicableWeight)
  eligible : result.rankEligible = evidence.allGates.isEmpty

theorem conclude_eq_ok (h : conclude candidate rule evidence = .ok result) :
    Concludes candidate evidence result := by
  rw [conclude] at h
  simp only [bind_eq_ok, divide_eq_ok] at h
  obtain ⟨opportunity, hopportunity, confidence, ⟨-, rfl⟩, coverage, ⟨-, rfl⟩, ruleEngineScore, -,
    technicalScore, -, sectorScore, -, riskScore, -, h⟩ := h
  cases h
  refine ⟨rfl, ?_, rfl, rfl, rfl⟩
  rw [Evidence.opportunity] at hopportunity
  split at hopportunity
  · rename_i hnone
    cases hopportunity
    simp [hnone]
  · rename_i hsome
    obtain ⟨mean, hmean, rfl⟩ := map_eq_ok.mp hopportunity
    rw [divide_eq_ok] at hmean
    rw [if_neg hsome, hmean.2]
    rfl

theorem score_eq_ok : score candidate rule = .ok result ↔
    ∃ evidence, collect candidate rule = .ok evidence ∧
      conclude candidate rule evidence = .ok result := by
  rw [score, bind_eq_ok]

/-! ### Bounds -/

/-- The bounds of a result: the opportunity lies between the smallest and the largest score
used, as rounded; the coverage is a percentage; the confidence is at most the coverage. -/
structure Bounded (evidence : Evidence) (result : GlobalOpportunityResult) : Prop where
  applicable : 0 < evidence.applicableWeight
  opportunity : ∀ s, result.opportunityScore = some s →
    ∃ lo hi, (evidence.values.map Usable.value).min? = some lo ∧
      (evidence.values.map Usable.value).max? = some hi ∧ round8 lo ≤ s ∧ s ≤ round8 hi
  coverage : 0 ≤ result.scoreCoverage ∧ result.scoreCoverage ≤ 100
  confidence : 0 ≤ result.opportunityConfidence ∧
    result.opportunityConfidence ≤ result.scoreCoverage

theorem round8_mono {a b : ℚ} (h : a ≤ b) : round8 a ≤ round8 b := PyFloat.roundTo_mono 8 h

theorem round8_zero : round8 0 = 0 := PyFloat.roundTo_intCast 0 8

theorem round8_hundred : round8 100 = 100 := PyFloat.roundTo_intCast 100 8

theorem opportunity_bounds (hconcludes : Concludes candidate evidence result) {s : ℚ}
    (hs : result.opportunityScore = some s) :
    ∃ lo hi, (evidence.values.map Usable.value).min? = some lo ∧
      (evidence.values.map Usable.value).max? = some hi ∧ round8 lo ≤ s ∧ s ≤ round8 hi := by
  rw [hconcludes.opportunity] at hs
  split at hs
  · cases hs
  · rename_i havailable
    cases hs
    have hne : evidence.values.map Usable.value ≠ [] := by
      intro hnil
      have hvalues := List.map_eq_nil_iff.mp hnil
      exact havailable (by simp [Evidence.availableWeight_eq, hvalues])
    obtain ⟨lo, hlo⟩ := Option.ne_none_iff_exists'.mp (mt List.min?_eq_none_iff.mp hne)
    obtain ⟨hi, hhi⟩ := Option.ne_none_iff_exists'.mp (mt List.max?_eq_none_iff.mp hne)
    have hvalue : ∀ p ∈ evidence.scores, p.2 ∈ evidence.values.map Usable.value := by
      intro p hp
      obtain ⟨used, hused, rfl⟩ := List.mem_map.mp hp
      exact List.mem_map_of_mem hused
    have hmean := mean_mem (Nat.pos_of_ne_zero havailable)
      (fun p hp => (List.min?_eq_some_iff.mp hlo).2 p.2 (hvalue p hp))
      (fun p hp => (List.max?_eq_some_iff.mp hhi).2 p.2 (hvalue p hp))
    exact ⟨lo, hi, hlo, hhi, round8_mono hmean.1, round8_mono hmean.2⟩

theorem bounded_of_collect (hcollect : collect candidate rule = .ok evidence)
    (hconcludes : Concludes candidate evidence result) : Bounded evidence result := by
  obtain ⟨haccounted, hten⟩ := collect_accounted hcollect
  have happlicable : (0 : ℚ) < evidence.applicableWeight := by
    exact_mod_cast (show (0 : Int) < evidence.applicableWeight by omega)
  have hweight : (evidence.availableWeight : ℚ) ≤ evidence.applicableWeight := by
    have hle := haccounted.weight
    simp only [weightOf, List.map_nil, List.sum_nil, Nat.add_zero] at hle
    exact_mod_cast hle
  have hconfidence : ∀ p ∈ evidence.confidences, 0 ≤ p.2 ∧ p.2 ≤ 100 := by
    intro p hp
    obtain ⟨used, hused, rfl⟩ := List.mem_map.mp hp
    exact (haccounted.inRange used hused).2
  have hlow := le_weightedSum fun p hp => (hconfidence p hp).1
  have hhigh := weightedSum_le fun p hp => (hconfidence p hp).2
  rw [evidence.totalWeight_confidences] at hlow hhigh
  refine ⟨by omega, fun s => opportunity_bounds hconcludes, ?_, ?_⟩
  · rw [hconcludes.coverage]
    constructor
    · rw [← round8_zero]
      exact round8_mono (by positivity)
    · refine le_of_le_of_eq (round8_mono ?_) round8_hundred
      rw [div_le_iff₀ happlicable]
      linarith
  · rw [hconcludes.confidence, hconcludes.coverage]
    constructor
    · rw [← round8_zero]
      refine round8_mono (div_nonneg ?_ happlicable.le)
      linarith
    · refine round8_mono (div_le_div_of_nonneg_right ?_ happlicable.le)
      linarith

/-! ### Eligibility -/

/-- What keeps an instrument from being ranked as eligible. -/
def Disqualified (candidate : StageBCandidate) : Option RuleResult → Prop
  | none => True
  | some rule => rule.isPartial = true ∨ rule.eligibility.fullAnalysisAllowed = false ∨
      rule.overallScore = none ∨
      (∃ override ∈ rule.riskOverrides,
        override.effect = "BLOCK_BUY" ∨ override.severity = .critical) ∨
      Disputed rule ∨ stalePrice candidate = true ∨ conflictingPrice candidate = true

theorem gates_of_disqualified (hcollect : collect candidate rule = .ok evidence)
    (h : Disqualified candidate rule) : evidence.gates ≠ [] := by
  obtain ⟨hrule, hprice⟩ := ruleGates_kept hcollect
  have hmem : ∀ gate, gate ∈ ruleGates rule → evidence.gates ≠ [] := fun gate hgate =>
    List.ne_nil_of_mem (hrule hgate)
  cases rule with
  | none => exact hmem "V1_RESULT_MISSING" (by simp [ruleGates])
  | some rule =>
      rcases h with h | h | h | ⟨override, hoverride, hblocks⟩ | h | h | h
      · exact hmem "V1_ANALYSIS_NOT_ELIGIBLE" (by simp [ruleGates, h])
      · exact hmem "V1_ANALYSIS_NOT_ELIGIBLE" (by simp [ruleGates, h])
      · exact hmem "V1_ANALYSIS_NOT_ELIGIBLE" (by simp [ruleGates, h])
      · refine hmem ("V1_RISK_OVERRIDE:" ++ override.code) (List.mem_append_right _ ?_)
        exact List.mem_map_of_mem (List.mem_filter.mpr ⟨hoverride, by simpa [blocking] using hblocks⟩)
      · exact disputed_gates hcollect h
      · exact List.ne_nil_of_mem (hprice (by simp [priceGates, h] : "CRITICAL_STALE_PRICE" ∈ _))
      · exact List.ne_nil_of_mem
          (hprice (by simp [priceGates, h] : "CRITICAL_CONFLICTING_PRICE" ∈ _))

theorem ineligible_of_disqualified (hcollect : collect candidate rule = .ok evidence)
    (hconcludes : Concludes candidate evidence result) (h : Disqualified candidate rule) :
    result.rankEligible = false := by
  have hgates := gates_of_disqualified hcollect h
  rw [hconcludes.eligible, Evidence.allGates]
  split
  · simp
  · simpa using hgates

end InvestmentPlatform.Ranker
