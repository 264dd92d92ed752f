/-
The decision of the stock rule engine is safe.

An evaluation of an input whose readiness has every registered requirement returns, divides by
nothing that is zero and keeps every score on its scale.  Its signal is read off the branches of
`_decision`: an override decides before the score does, and the three caps after the score band
can only lower it.
-/
import InvestmentPlatform.Proofs.Rules.Order
import InvestmentPlatform.Proofs.Rules.Scores

namespace InvestmentPlatform.Rules

open Selection PyLibrary List Option

/-! ### Denominators -/

/-- Numbers a division may have below the line. -/
def Nonzero (l : List ℚ) : Prop := ∀ x ∈ l, x ≠ 0

theorem Nonzero.nil : Nonzero [] := fun _ h => absurd h not_mem_nil

theorem Nonzero.append {l l' : List ℚ} (h : Nonzero l) (h' : Nonzero l') : Nonzero (l ++ l') :=
  fun x hx => (mem_append.mp hx).elim (h x) (h' x)

theorem Nonzero.flatMap {α : Type} {l : List α} {f : α → List ℚ} (h : ∀ a ∈ l, Nonzero (f a)) :
    Nonzero (l.flatMap f) := by
  intro x hx
  obtain ⟨a, ha, hmem⟩ := mem_flatMap.mp hx
  exact h a ha x hmem

section

theorem widths_pos : Nonzero (scoreTables.flatMap segmentWidths) := by
  intro width hwidth
  obtain ⟨points, hpoints, hmem⟩ := mem_flatMap.mp hwidth
  exact ((breakpoints_of_mem points hpoints).1 width hmem).ne'

theorem positiveValue_ne {datum : Option Datum} : Nonzero (positiveValue datum) := by
  intro x hx
  obtain ⟨d, hd, rfl⟩ := map_eq_some_iff.mp (mem_toList.mp hx)
  have hpos := (filter_eq_some_iff.mp hd).2
  exact (of_decide_eq_true hpos).ne'

variable {series : List Datum}

theorem nonzeroValues_ne : Nonzero (nonzeroValues series) := by
  intro x hx
  obtain ⟨d, hd, rfl⟩ := mem_map.mp hx
  exact of_decide_eq_true (mem_filter.mp hd).2

theorem changeDenominators_ne : Nonzero (changeDenominators series) := by
  intro x hx
  obtain ⟨y, hy, rfl⟩ := mem_map.mp hx
  exact abs_ne_zero.mpr (nonzeroValues_ne y hy)

theorem shareLength_ne {n : Nat} (hn : 0 < n) : Nonzero (shareLength n series) := by
  intro x hx
  unfold shareLength at hx
  split at hx
  · rename_i hlong
    rw [mem_singleton] at hx
    rw [hx]
    have hlength : (lastN n series).length ≠ 0 := by
      unfold lastN
      rw [length_drop]
      omega
    exact_mod_cast hlength
  · cases hx

theorem cagrDenominators_ne : Nonzero (cagrDenominators series) := by
  intro x hx
  unfold cagrDenominators at hx
  split at hx
  · cases hx
  split at hx
  · split at hx
    · dsimp only at hx
      split at hx
      · cases hx
      · rename_i hguards
        push Not at hguards
        rcases mem_cons.mp hx with heq | hmem
        · rw [heq]
          exact hguards.1.ne'
        · rw [mem_singleton.mp hmem]
          exact (lt_trans one_pos hguards.2.2).ne'
    · cases hx
  · cases hx

theorem consistencyDenominators_ne {series : List (List Datum)} :
    Nonzero (consistencyDenominators series) := by
  intro x hx
  unfold consistencyDenominators at hx
  split at hx
  · cases hx
  · rename_i hne
    rw [mem_singleton.mp hx]
    exact_mod_cast fun hlength => hne (length_eq_zero_iff.mp hlength)

/-- The middle of some positive numbers is positive. -/
theorem median_pos {values : List ℚ} (hpos : ∀ x ∈ values, 0 < x) (hne : values ≠ []) :
    0 < median values := by
  have hlength : (values.insertionSort (· ≤ ·)).length = values.length :=
    length_insertionSort _ _
  have hlong : 0 < values.length := length_pos_iff.mpr hne
  have hat : ∀ i, i < values.length → 0 < (values.insertionSort (· ≤ ·)).getD i 0 := by
    intro i hi
    rw [getD_eq_getElem?_getD, getElem?_eq_getElem (by omega), getD_some]
    exact hpos _ ((perm_insertionSort _ _).mem_iff.mp (getElem_mem _))
  unfold median
  dsimp only
  split
  · exact hat _ (by omega)
  · have hleft := hat ((values.insertionSort (· ≤ ·)).length / 2 - 1) (by omega)
    have hright := hat ((values.insertionSort (· ≤ ·)).length / 2) (by omega)
    linarith

theorem decayDenominators_ne {feature : EventImpactFeature} (h : feature.Valid) {now : Instant} :
    Nonzero (decayDenominators feature now) := by
  intro x hx
  unfold decayDenominators at hx
  split at hx
  · cases hx
  rename_i hknown
  rw [not_not] at hknown
  split at hx
  · cases hx
  split at hx
  · cases hx
  · rename_i validUntil _ hlive
    rw [mem_singleton.mp hx]
    have hstart : feature.publicationTime.getD feature.discoveredAt ≤ now := by
      cases hpublished : feature.publicationTime with
      | none => exact hknown.2.1
      | some published => exact (h.published published hpublished).trans hknown.1
    have hlater : now < validUntil := lt_of_not_ge hlive
    exact_mod_cast (sub_pos.mpr (lt_of_le_of_lt hstart hlater)).ne'

variable [PyLibrary] (v : StockRuleEngineInput)

theorem basisDenominators_ne : Nonzero (basisDenominators v) := by
  intro x hx
  obtain ⟨price, -, hx⟩ := mem_flatMap.mp hx
  obtain ⟨name, -, hx⟩ := mem_flatMap.mp hx
  obtain ⟨basis, hbasis, rfl⟩ := mem_map.mp hx
  obtain ⟨record, -, hrecord⟩ := mem_filterMap.mp hbasis
  split at hrecord
  · obtain ⟨value, -, hvalue⟩ := bind_eq_some_iff.mp hrecord
    dsimp only at hvalue
    split at hvalue
    · obtain ⟨number, hnumber, rfl⟩ := map_eq_some_iff.mp hvalue
      exact (of_decide_eq_true (filter_eq_some_iff.mp hnumber).2).ne'
    · cases hvalue
  · cases hrecord

omit [PyLibrary] in
theorem technicalDenominators_ne : Nonzero (technicalDenominators v) := by
  have hpos : ∀ p ∈ usablePrices v.marketPrices, 0 < p.price := fun p hp =>
    of_decide_eq_true (mem_filter.mp ((sortOn_perm _ _).mem_iff.mp hp)).2
  have hlast : ∀ n, ∀ p ∈ lastN n (usablePrices v.marketPrices), 0 < p.price := fun n p hp =>
    hpos p (mem_of_mem_drop hp)
  intro x hx
  unfold technicalDenominators at hx
  dsimp only at hx
  split at hx
  · cases hx
  rename_i hfifty
  have hmedian : ∀ n, 0 < n → median ((lastN n (usablePrices v.marketPrices)).map (·.price)) ≠ 0 := by
    intro n hn
    refine (median_pos (fun y hy => ?_) ?_).ne'
    · obtain ⟨p, hp, rfl⟩ := mem_map.mp hy
      exact hlast n p hp
    · intro hnil
      have hlength := congrArg List.length hnil
      simp only [lastN, length_map, length_drop, length_nil] at hlength
      omega
  have hwindow : ∀ p ∈ (if 150 ≤ (usablePrices v.marketPrices).length
      then lastN 150 (usablePrices v.marketPrices)
      else lastN 50 (usablePrices v.marketPrices)), 0 < p.price := by
    intro p hp
    split at hp
    · exact hlast 150 p hp
    · exact hlast 50 p hp
  rcases mem_append.mp hx with hx | hfirst
  · rcases mem_append.mp hx with hx | hpeak
    · rcases mem_append.mp hx with hshort | hlong
      · rw [mem_singleton.mp hshort]
        exact hmedian 50 (by omega)
      · split at hlong
        · rw [mem_singleton.mp hlong]
          exact hmedian 150 (by omega)
        · cases hlong
    · have hmem := max?_mem (mem_toList.mp hpeak)
      obtain ⟨p, hp, rfl⟩ := mem_map.mp hmem
      exact (hwindow p hp).ne'
  · obtain ⟨p, hp, rfl⟩ := map_eq_some_iff.mp (mem_toList.mp hfirst)
    exact (hwindow p (mem_of_head? hp)).ne'

omit [PyLibrary] in
theorem newsDenominators_ne (hfeatures : ∀ f ∈ v.newsFeatures, f.Valid) :
    Nonzero (newsDenominators v) := by
  refine .append (.flatMap fun f hf => decayDenominators_ne (hfeatures f hf)) ?_
  intro x hx
  split at hx
  · cases hx
  · rename_i hne
    rw [mem_singleton.mp hx]
    exact_mod_cast fun hlength => hne (length_eq_zero_iff.mp hlength)

omit [PyLibrary] in
theorem headlineDenominators_ne (areas : List AreaScoreResult) (weight : RuleEngineArea → Nat) :
    Nonzero (headlineDenominators areas weight) := by
  intro x hx
  unfold headlineDenominators at hx
  dsimp only at hx
  split at hx
  · cases hx
  · rename_i htotal
    rw [mem_singleton.mp hx]
    exact_mod_cast htotal

theorem denominators_ne (hfeatures : ∀ f ∈ v.newsFeatures, f.Valid) : Nonzero (denominators v) := by
  refine .append (.append (.append (.append (.append (.append (.append (.append widths_pos
    ?_) ?_) ?_) ?_) ?_) (technicalDenominators_ne v)) (newsDenominators_ne v hfeatures)) ?_
  · exact .append (.append (basisDenominators_ne v) positiveValue_ne) positiveValue_ne
  · exact .append (.append nonzeroValues_ne changeDenominators_ne) (shareLength_ne (by omega))
  · exact .append (.append (.append (.append cagrDenominators_ne cagrDenominators_ne)
      changeDenominators_ne) changeDenominators_ne) consistencyDenominators_ne
  · exact .append (.append (.append positiveValue_ne positiveValue_ne) positiveValue_ne)
      positiveValue_ne
  · exact .append (.append (.append (.append changeDenominators_ne changeDenominators_ne)
      changeDenominators_ne) nonzeroValues_ne) (shareLength_ne (by omega))
  · cases areaResults v with
    | none => exact .nil
    | some areas => exact .flatMap fun weight _ => headlineDenominators_ne areas weight

end

/-! ### Eligibility -/

/-- An area a full result may not contain. -/
def Unscored (a : AreaScoreResult) : Prop :=
  a.applicable = true ∧ a.status = .unscorable ∧ a.area ≠ .newsGeopoliticalEvents

theorem unscorableAreas_eq_nil {areas : List AreaScoreResult} :
    unscorableAreas areas = [] ↔ ∀ a ∈ areas, ¬ Unscored a := by
  unfold unscorableAreas
  rw [map_eq_nil_iff, filter_eq_nil_iff]
  exact forall₂_congr fun a _ => not_congr decide_eq_true_iff

theorem full_scored {allowed : AnalysisEligibility} {readiness : ResearchReadinessResult}
    {areas : List AreaScoreResult}
    (h : (!(requireScorableAreas allowed readiness areas).fullAnalysisAllowed) = false) :
    ∀ a ∈ areas, ¬ Unscored a := by
  rw [Bool.not_eq_false'] at h
  unfold requireScorableAreas at h
  dsimp only at h
  split at h
  · rename_i hkept
    rcases hkept with hreduced | hnil
    · rw [hreduced] at h
      cases h
    · exact unscorableAreas_eq_nil.mp hnil
  · cases h

/-! ### The branches of the decision -/

section
variable {score : Option ℚ} {readiness : ResearchReadinessResult} {confidence : ConfidenceLevel}
  {isPartial : Bool} {overrides : List RiskOverrideResult} {signal : DecisionSignal}

/-- Every critical requirement, as it is looked up, is fresh. -/
def AllFresh (readiness : ResearchReadinessResult) (keys : List String) : Prop :=
  ∀ key ∈ keys, ∃ item, forRequirement readiness key = some item ∧ item.status = .readyFresh

theorem criticalFresh_true {keys : List String}
    (h : criticalFresh readiness keys = some true) : AllFresh readiness keys := by
  induction keys with
  | nil => exact fun _ hkey => absurd hkey not_mem_nil
  | cons key rest ih =>
      obtain ⟨item, hitem, hrest⟩ := bind_eq_some_iff.mp h
      by_cases hfresh : item.status = .readyFresh
      · rw [if_pos hfresh] at hrest
        intro key' hkey'
        rcases mem_cons.mp hkey' with heq | hmem
        · rw [heq]
          exact ⟨item, hitem, hfresh⟩
        · exact ih hrest key' hmem
      · rw [if_neg hfresh] at hrest
        cases hrest

theorem criticalFresh_isSome {keys : List String}
    (h : ∀ key ∈ keys, (forRequirement readiness key).isSome) :
    (criticalFresh readiness keys).isSome := by
  induction keys with
  | nil => rfl
  | cons key rest ih =>
      obtain ⟨item, hitem⟩ := isSome_iff_exists.mp (h key mem_cons_self)
      have hrest := ih fun key' hkey' => h key' (mem_cons_of_mem key hkey')
      unfold criticalFresh
      rw [hitem, bind_some]
      by_cases hfresh : item.status = .readyFresh
      · rw [if_pos hfresh]
        exact hrest
      · rw [if_neg hfresh]
        rfl

/-- The four ways to a signal: no score, an override, and the capped band. -/
inductive Decided (readiness : ResearchReadinessResult) (confidence : ConfidenceLevel)
    (isPartial : Bool) (overrides : List RiskOverrideResult) : Option ℚ → DecisionSignal → Prop
  | unscored : Decided readiness confidence isPartial overrides none .insufficientData
  | blocked {score : ℚ} {signal : DecisionSignal}
      (hblock : ∃ item ∈ overrides, item.effect = "BLOCK_BUY")
      (hsignal : signal = .exitReview ∨ signal = .avoid) :
      Decided readiness confidence isPartial overrides (some score) signal
  | banded {score : ℚ} {signal : DecisionSignal}
      (hfree : ¬ ∃ item ∈ overrides, item.effect = "BLOCK_BUY")
      (hsignal : signal ≠ .insufficientData)
      (hstrong : signal = .strongBuy → 100 ≤ readiness.criticalCompletenessPct ∧
        confidence = .high ∧ AllFresh readiness criticalRequirements)
      (hagreed : (∃ item ∈ readiness.requirements, item.status = .conflicting ∧ item.mandatory) →
        signal ≠ .strongBuy ∧ signal ≠ .buy)
      (hcomplete : isPartial = true →
        signal ≠ .strongBuy ∧ signal ≠ .buy ∧ signal ≠ .accumulate) :
      Decided readiness confidence isPartial overrides (some score) signal

theorem scoreBand_ne (score : ℚ) : scoreBand score ≠ .insufficientData := by
  unfold scoreBand
  split_ifs <;> exact nofun

/-- A signal that is not what a cap lowers to was given, and the cap does not apply. -/
theorem of_cap {p : Prop} [Decidable p] {given lowered signal : DecisionSignal}
    (h : (if p then lowered else given) = signal) (hne : signal ≠ lowered) : ¬ p ∧ given = signal := by
  by_cases hp : p
  · rw [if_pos hp] at h
    exact absurd h.symm hne
  · rw [if_neg hp] at h
    exact ⟨hp, h⟩

theorem decided (h : decision score readiness confidence isPartial overrides = some signal) :
    Decided readiness confidence isPartial overrides score signal := by
  cases score with
  | none =>
      cases h
      exact .unscored
  | some score =>
      unfold decision at h
      dsimp only at h
      by_cases hblock : ∃ item ∈ overrides, item.effect = "BLOCK_BUY"
      · rw [if_pos hblock] at h
        refine .blocked hblock ?_
        split at h
        · cases h
          exact Or.inl rfl
        · cases h
          exact Or.inr rfl
      · rw [if_neg hblock] at h
        obtain ⟨fresh, hfresh, hsignal⟩ := map_eq_some_iff.mp h
        refine .banded hblock (fun hnone => ?_) (fun hstrong => ?_) (fun hconflict => ?_)
          fun hreduced => ?_
        · rw [hnone] at hsignal
          have hagreed := (of_cap hsignal (by decide)).2
          have hconfident := (of_cap hagreed (by decide)).2
          exact scoreBand_ne _ (of_cap hconfident (by decide)).2
        · rw [hstrong] at hsignal
          have hagreed := (of_cap hsignal (by decide)).2
          have hconfident := (of_cap hagreed (by decide)).2
          obtain ⟨hsure, hband⟩ := of_cap hconfident (by decide)
          have hsure := not_and.mp hsure hband
          push Not at hsure
          rw [Bool.eq_true_of_not_eq_false hsure.2.2] at hfresh
          exact ⟨hsure.1, hsure.2.1, criticalFresh_true hfresh⟩
        · have hnot : ∀ bad ∈ [DecisionSignal.strongBuy, .buy], bad ≠ .hold → signal ≠ bad := by
            intro bad hbad hne heq
            rw [heq] at hsignal
            have hagreed := (of_cap hsignal hne).2
            obtain ⟨hcalm, hconfident⟩ := of_cap hagreed hne
            exact hcalm ⟨hconflict, by rw [hconfident]; exact hbad⟩
          exact ⟨hnot _ (by decide) (by decide), hnot _ (by decide) (by decide)⟩
        · have hnot : ∀ bad ∈ [DecisionSignal.strongBuy, .buy, .accumulate], bad ≠ .hold →
              signal ≠ bad := by
            intro bad hbad hne heq
            rw [heq] at hsignal
            obtain ⟨hwhole, hagreed⟩ := of_cap hsignal hne
            exact hwhole ⟨hreduced, by rw [hagreed]; exact hbad⟩
          exact ⟨hnot _ (by decide) (by decide), hnot _ (by decide) (by decide),
            hnot _ (by decide) (by decide)⟩

end

/-! ### The evaluation -/

/-- `ResearchRequirementRegistry.default()`: each requirement and the area it is for. -/
def defaultRequirements : List (String × RuleEngineArea) :=
  [("VALUATION_INPUTS", .valuation), ("BUSINESS_QUALITY_FACTS", .fundamentalBusinessQuality),
    ("GROWTH_FACTS", .growth), ("BALANCE_SHEET_FACTS", .balanceSheet),
    ("QUARTERLY_FINANCIALS", .quarterlyEarningsTrend),
    ("ORDER_BOOK_CAPEX_GUIDANCE", .orderBookCapacityCatalysts), ("LATEST_PRICE", .priceTechnical),
    ("HISTORICAL_PRICE_SERIES", .priceTechnical), ("CURRENT_NEWS", .newsGeopoliticalEvents),
    ("SHAREHOLDING", .shareholding), ("GOVERNANCE_HISTORY", .managementGovernance),
    ("SECTOR_MACRO", .sectorMacro)]

def defaultRequirementIds : List String := defaultRequirements.map Prod.fst

/-- Readiness has every requirement of the default registry. -/
def Registered (readiness : ResearchReadinessResult) : Prop :=
  ∀ key ∈ defaultRequirementIds, (forRequirement readiness key).isSome

instance (readiness : ResearchReadinessResult) : Decidable (Registered readiness) :=
  inferInstanceAs (Decidable (∀ key ∈ defaultRequirementIds, _))

/-- The analysis the eligibility of a result allows. -/
def StockRuleEngineResult.Permitted (r : StockRuleEngineResult) (allowPartial : Bool) : Prop :=
  r.eligibility.fullAnalysisAllowed = true ∨
    (allowPartial = true ∧ r.eligibility.partialAnalysisAllowed = true)

/-- Every score of a result is on the scale its type demands, and every metric weighs
something. -/
structure StockRuleEngineResult.Scaled (r : StockRuleEngineResult) : Prop where
  areas : ∀ a ∈ r.areaScores, ValidArea a
  overall : ∀ score ∈ r.overallScore, InScale score
  quality : ∀ score ∈ r.qualityScore, InScale score
  opportunity : ∀ score ∈ r.opportunityScore, InScale score
  risk : ∀ score ∈ r.riskScore, InScale score
  confidence : InScale r.confidenceScore

/-- What a decision may be, given what the result rests on. -/
structure StockRuleEngineResult.Safe (r : StockRuleEngineResult)
    (readiness : ResearchReadinessResult) (allowPartial : Bool) : Prop where
  insufficient : r.decisionSignal = .insufficientData ↔
    ¬ r.Permitted allowPartial ∨ ∀ a ∈ r.areaScores, ¬ Scorable a
  blocked : r.Permitted allowPartial → (∃ a ∈ r.areaScores, Scorable a) →
    (∃ item ∈ r.riskOverrides, item.effect = "BLOCK_BUY") →
      r.decisionSignal = .exitReview ∨ r.decisionSignal = .avoid
  incomplete : r.isPartial = true → r.decisionSignal ≠ .strongBuy ∧ r.decisionSignal ≠ .buy ∧
    r.decisionSignal ≠ .accumulate
  conflicting : (∃ item ∈ readiness.requirements, item.status = .conflicting ∧ item.mandatory) →
    r.decisionSignal ≠ .strongBuy ∧ r.decisionSignal ≠ .buy
  strongBuy : r.decisionSignal = .strongBuy → 100 ≤ readiness.criticalCompletenessPct ∧
    r.confidence = .high ∧ AllFresh readiness criticalRequirements
  full : r.isPartial = false → ∀ a ∈ r.areaScores, ¬ Unscored a

section
variable [PyLibrary] {v : StockRuleEngineInput} {allowPartial : Bool}

omit [PyLibrary] in
theorem whenPermitted_mem {permitted : Bool} {score : Option ℚ}
    (h : ∀ x ∈ score, InScale x) : ∀ x ∈ (if permitted then score else none), InScale x := by
  intro x hx
  cases permitted with
  | false => cases hx
  | true => exact h x hx

variable {areas : List AreaScoreResult} {r : StockRuleEngineResult}

theorem scaled (hareas : ∀ a ∈ areas, ValidArea a)
    (h : assemble v allowPartial areas = some r) : r.Scaled := by
  obtain ⟨signal, -, rfl⟩ := map_eq_some_iff.mp h
  refine ⟨hareas, whenPermitted_mem (inScale_weightedScore hareas _),
    whenPermitted_mem (inScale_weightedScore hareas _),
    whenPermitted_mem (inScale_weightedScore hareas _), whenPermitted_mem fun x hx => ?_,
    inScale_confidence _⟩
  obtain ⟨resilience, hresilience, rfl⟩ := map_eq_some_iff.mp hx
  have hscale := inScale_weightedScore hareas _ resilience hresilience
  exact InScale.round ⟨sub_nonneg.mpr hscale.2, by linarith [hscale.1]⟩

/-- What a result says of how it came about. -/
structure Assembled (v : StockRuleEngineInput) (allowPartial : Bool) (areas : List AreaScoreResult)
    (r : StockRuleEngineResult) : Prop where
  listed : r.areaScores = areas
  whole : r.isPartial = false → ∀ a ∈ areas, ¬ Unscored a
  signal : r.Permitted allowPartial ∧ Decided v.readiness r.confidence r.isPartial
      r.riskOverrides (weightedScore areas areaWeight) r.decisionSignal ∨
    ¬ r.Permitted allowPartial ∧ r.decisionSignal = .insufficientData

theorem assembled
    (h : assemble v allowPartial areas = some r) : Assembled v allowPartial areas r := by
  obtain ⟨signal, hsignal, rfl⟩ := map_eq_some_iff.mp h
  refine ⟨rfl, fun hwhole => full_scored hwhole, ?_⟩
  by_cases hpermitted : ((requireScorableAreas (eligibility v.readiness) v.readiness
      areas).fullAnalysisAllowed || (allowPartial && (requireScorableAreas
        (eligibility v.readiness) v.readiness areas).partialAnalysisAllowed)) = true
  · rw [if_pos hpermitted] at hsignal
    rw [Bool.or_eq_true, Bool.and_eq_true] at hpermitted
    exact Or.inl ⟨hpermitted, decided hsignal⟩
  · rw [if_neg hpermitted, some.injEq] at hsignal
    rw [Bool.or_eq_true, Bool.and_eq_true] at hpermitted
    exact Or.inr ⟨hpermitted, hsignal.symm⟩

omit [PyLibrary] in
theorem safe_of_insufficient (hnone : r.decisionSignal = .insufficientData)
    (hwhy : ¬ r.Permitted allowPartial ∨ ∀ a ∈ r.areaScores, ¬ Scorable a)
    (hwhole : r.isPartial = false → ∀ a ∈ r.areaScores, ¬ Unscored a) :
    r.Safe v.readiness allowPartial where
  insufficient := iff_of_true hnone hwhy
  blocked hpermitted := fun ⟨a, ha, hscorable⟩ => hwhy.elim (absurd hpermitted)
    fun hall => absurd hscorable (hall a ha)
  incomplete _ := by rw [hnone]; decide
  conflicting _ := by rw [hnone]; decide
  strongBuy hstrong := by rw [hnone] at hstrong; cases hstrong
  full := hwhole

omit [PyLibrary] in
theorem Assembled.safe
    (h : Assembled v allowPartial areas r) : r.Safe v.readiness allowPartial := by
  have hwhole := h.whole
  have hscorable := weightedScore_isNone areas
  have hsignal := h.signal
  rw [← h.listed] at hwhole hscorable hsignal
  rcases hsignal with ⟨hpermitted, hdecided⟩ | ⟨hdenied, hnone⟩
  · cases hscore : weightedScore r.areaScores areaWeight with
    | none =>
        rw [hscore] at hdecided
        generalize hout : r.decisionSignal = signal at hdecided
        cases hdecided
        exact safe_of_insufficient hout (Or.inr (hscorable.mp hscore)) hwhole
    | some score =>
        rw [hscore] at hdecided hscorable
        have hboth : ¬ (¬ r.Permitted allowPartial ∨ ∀ a ∈ r.areaScores, ¬ Scorable a) :=
          fun hor => hor.elim (absurd hpermitted)
            fun hall => absurd (hscorable.mpr hall) (some_ne_none score)
        cases hdecided with
        | blocked hblock hout =>
            refine ⟨iff_of_false ?_ hboth, fun _ _ _ => hout, fun _ => ?_, fun _ => ?_,
              fun hstrong => ?_, hwhole⟩
            · rcases hout with heq | heq <;> rw [heq] <;> decide
            · rcases hout with heq | heq <;> rw [heq] <;> decide
            · rcases hout with heq | heq <;> rw [heq] <;> decide
            · rcases hout with heq | heq <;> rw [heq] at hstrong <;> cases hstrong
        | banded hfree hne hstrong hagreed hcomplete =>
            exact ⟨iff_of_false hne hboth, fun _ _ hblock => absurd hblock hfree, hcomplete,
              hagreed, hstrong, hwhole⟩
  · exact safe_of_insufficient hnone (Or.inl hdenied) hwhole

omit [PyLibrary] in
theorem decision_isSome {readiness : ResearchReadinessResult} (hregistered : Registered readiness)
    (score : Option ℚ) (confidence : ConfidenceLevel) (isPartial : Bool)
    (overrides : List RiskOverrideResult) :
    (decision score readiness confidence isPartial overrides).isSome := by
  have hcritical : ∀ key ∈ criticalRequirements, key ∈ defaultRequirementIds := by decide
  cases score with
  | none => rfl
  | some score =>
      unfold decision
      dsimp only
      split
      · split <;> rfl
      · rw [isSome_map]
        exact criticalFresh_isSome fun key hkey => hregistered key (hcritical key hkey)

theorem assemble_isSome (hregistered : Registered v.readiness) (allowPartial : Bool)
    (areas : List AreaScoreResult) :
    (assemble v allowPartial areas).isSome := by
  unfold assemble
  dsimp only
  rw [isSome_map]
  split
  · exact decision_isSome hregistered _ _ _ _
  · rfl

theorem areaResults_isSome (hregistered : Registered v.readiness) : (areaResults v).isSome := by
  unfold areaResults balanceSheet
  rw [isSome_map, isSome_map]
  exact hregistered "BALANCE_SHEET_FACTS" (by decide)

end

/-! ### A severe event without an analysis -/

section
attribute [local instance] asciiLibrary

/-- A licence revoked, published and computed at one instant. -/
def licenceRevoked : EventImpactFeature where
  featureId := "f1"
  eventKey := "k1"
  eventType := "REGULATORY_NEGATIVE"
  impactScore := -45
  publicationTime := some 1751241600000000
  publicAvailableAt := 1751241600000000
  discoveredAt := 1751241600000000
  computedAt := 1751241600000000
  validUntil := none
  severeValidated := true

theorem licenceRevoked_valid : licenceRevoked.Valid where
  impact := ⟨by norm_num [licenceRevoked], by norm_num [licenceRevoked]⟩
  discovered := le_refl _
  available := le_refl _
  published publicationTime h := by
    cases h
    exact le_refl _
  expiring validUntil h := by cases h

/-- An instrument of which the platform knows the revoked licence only. -/
def revokedOnly : StockRuleEngineInput where
  profile := ⟨"1", "IN", "NSE", "XNSE", "ABC"⟩
  readiness := ⟨defaultRequirements.map fun (id, area) => requirement id area .missing, 0, 0⟩
  financialFacts := []
  structuredSnapshots := []
  marketPrices := []
  events := []
  shareholding := []
  canonicalMetadata := ⟨none, none, none, none, none⟩
  evaluatedAt := 1751500800000000
  newsFeatures := [licenceRevoked]
  newsSearchRun := none

theorem revokedOnly_valid : ∀ f ∈ revokedOnly.newsFeatures, f.Valid := by
  intro f hf
  rw [mem_singleton.mp hf]
  exact licenceRevoked_valid

end

end InvestmentPlatform.Rules
