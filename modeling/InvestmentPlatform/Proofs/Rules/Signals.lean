/-
The evaluators of events, features and holdings, with the rows in another order.

They keep the first report of an event, the latest revision of a feature and the newest
snapshot.  `governance` alone takes its pledge from the snapshot that is listed last.
-/
import InvestmentPlatform.Proofs.Rules.Readings

namespace InvestmentPlatform.Rules

open Selection PyLibrary Option List

variable {v w : StockRuleEngineInput}

/-! ### Areas that are ready without a score -/

theorem all_full_perm {items items' : List ResearchRequirementReadiness}
    (h : items.Perm items') : (∃ item ∈ items, item.status ∉ fullStatuses) ↔
      ∃ item ∈ items', item.status ∉ fullStatuses := by
  simp only [h.mem_iff]

theorem readyWithoutScore_perm {a b : AreaScoreResult} (h : SameArea a b)
    {items items' : List ResearchRequirementReadiness} (hitems : items.Perm items')
    (references references' : List String) :
    SameArea (readyWithoutScore a items references) (readyWithoutScore b items' references') := by
  refine ⟨h.area, h.rawScore, h.weightedContribution, ?_, h.applicable, h.scores⟩
  simp only [readyWithoutScore, hitems.mem_iff]

/-! ### Features -/

theorem latestKnownFeatures_perm {features features' : List EventImpactFeature}
    (h : features.Perm features')
    (hids : ∀ f ∈ features, ∀ g ∈ features, f.featureId = g.featureId → f = g) (now : Instant) :
    latestKnownFeatures features now = latestKnownFeatures features' now := by
  have hkept : (keepBest EventImpactFeature.eventKey featureRank
        (features.filter fun feature => feature.Known now)).Perm
      (keepBest EventImpactFeature.eventKey featureRank
        (features'.filter fun feature => feature.Known now)) := by
    have hties : ∀ k, Undisputed featureRank id
        ((features.filter fun feature => feature.Known now).filter (·.eventKey = k)) := by
      intro k f hf g hg htopf htopg
      have hrank : featureRank f = featureRank g := le_antisymm (htopg f hf) (htopf g hg)
      have hid : f.featureId = g.featureId := congrArg (fun rank => (ofLex rank).2) hrank
      exact hids f (mem_filter.mp (mem_filter.mp hf).1).1 g
        (mem_filter.mp (mem_filter.mp hg).1).1 hid
    simpa using keepBest_map_perm (h.filter _) hties
  exact sortOn_eq_of_perm hkept (keepBest_keys_nodup _)

theorem aggregateImpact_perm {features features' : List EventImpactFeature}
    (h : features.Perm features')
    (hids : ∀ f ∈ features, ∀ g ∈ features, f.featureId = g.featureId → f = g) (now : Instant) :
    aggregateImpact features now = aggregateImpact features' now := by
  rw [aggregateImpact, aggregateImpact, latestKnownFeatures_perm h hids now]

variable [PyLibrary]

/-! ### Catalysts -/

omit [PyLibrary] in
theorem excludedCatalystInputs_mem (h : Permuted v w) (input : String) :
    input ∈ excludedCatalystInputs v ↔ input ∈ excludedCatalystInputs w :=
  ((h.requirements.filter _).flatMap_right _).mem_iff

omit [PyLibrary] in
theorem relevantCatalysts_perm (h : Permuted v w) :
    (relevantCatalysts v).Perm (relevantCatalysts w) := by
  rw [relevantCatalysts, relevantCatalysts]
  simp only [excludedCatalystInputs_mem h]
  exact h.events.filter _

theorem completedCheckArea_perm (h : Permuted v w) (area : RuleEngineArea) (checkPrefix : String) :
    Option.Rel SameArea (completedCheckArea v area checkPrefix)
      (completedCheckArea w area checkPrefix) := by
  have hitems := areaReadiness_perm h area
  have hchecks := (hitems.flatMap_right ResearchRequirementReadiness.evidenceIds).filter
    fun reference => checkPrefix.toList.isPrefixOf reference.toList
  have hbase : SameArea (finish v area [] [] true) (finish w area [] [] true) :=
    finish_perm h .rfl Iff.rfl area true
  unfold completedCheckArea
  simp only [eq_nil_iff_of_perm hchecks, all_full_perm hitems, hbase.status]
  split
  · exact .none
  · split
    · exact .some hbase
    · exact .some (readyWithoutScore_perm hbase hitems _ _)

omit [PyLibrary] in
theorem getD_rel {a b : Option AreaScoreResult} {c d : AreaScoreResult}
    (h : Option.Rel SameArea a b) (hcd : SameArea c d) : SameArea (a.getD c) (b.getD d) := by
  cases h with
  | none => exact hcd
  | some hsame => exact hsame

theorem catalysts_perm (h : Permuted v w) : SameArea (catalysts v) (catalysts w) := by
  have hevents := relevantCatalysts_perm h
  have hscores : (scoresOf ((relevantCatalysts v).map fun event =>
        eventMetric event "MATERIAL_CATALYST_EVENT_V1" 1)).Perm
      (scoresOf ((relevantCatalysts w).map fun event =>
        eventMetric event "MATERIAL_CATALYST_EVENT_V1" 1)) := (hevents.map _).map _
  have hscored := finish_perm h hscores
    (missingWithout_perm hscores "MATERIAL_ISSUER_RELEVANT_CATALYST_EVIDENCE")
    .orderBookCapacityCatalysts true
  unfold catalysts
  simp only [scores_nil_iff hscores]
  split
  · exact getD_rel (completedCheckArea_perm h _ _) hscored
  · exact hscored

/-! ### News -/

/-- The reports of the news window that count. -/
def countedReports (v : StockRuleEngineInput) : List ResearchEvent :=
  v.events.filter fun event => event.status ≠ .rejected ∧ InNewsWindow event v.evaluatedAt ∧
    issuerOrProvenExposure event (sector v)

theorem currentEvents_scores (h : Permuted v w) (hsame : SameReadings v w)
    (hreports : ∀ a ∈ countedReports v, ∀ b ∈ countedReports v, newsKey a = newsKey b →
      eventMetricScore a = eventMetricScore b) :
    ((currentEvents v).map eventMetricScore).Perm ((currentEvents w).map eventMetricScore) := by
  have hcounted : (countedReports v).Perm (countedReports w) := by
    rw [countedReports, countedReports, hsame.sector, h.evaluatedAt]
    exact h.events.filter _
  refine keepBest_map_perm hcounted fun k a ha b hb _ _ => ?_
  obtain ⟨ha, hka⟩ := mem_filter.mp ha
  obtain ⟨hb, hkb⟩ := mem_filter.mp hb
  exact hreports a ha b hb ((of_decide_eq_true hka).trans (of_decide_eq_true hkb).symm)

theorem newsFromEvents_perm (h : Permuted v w) (hsame : SameReadings v w)
    (hreports : ∀ a ∈ countedReports v, ∀ b ∈ countedReports v, newsKey a = newsKey b →
      eventMetricScore a = eventMetricScore b) :
    SameArea (newsFromEvents v) (newsFromEvents w) := by
  have hevents := currentEvents_scores h hsame hreports
  have hscores : (scoresOf ((currentEvents v).map fun event =>
        eventMetric event "CURRENT_EVENT_IMPACT_V1" 1)).Perm
      (scoresOf ((currentEvents w).map fun event =>
        eventMetric event "CURRENT_EVENT_IMPACT_V1" 1)) := by
    have hmap : ∀ l : List ResearchEvent,
        scoresOf (l.map fun event => eventMetric event "CURRENT_EVENT_IMPACT_V1" 1)
          = (l.map eventMetricScore).map fun score => (roundScore score, 1) := fun l => by
      rw [scoresOf, List.map_map, List.map_map]
      rfl
    rw [hmap, hmap]
    exact hevents.map _
  have hscored := finish_perm h hscores
    (missingWithout_perm hscores "RELEVANT_CURRENT_EVENT_WITHIN_30_DAYS")
    .newsGeopoliticalEvents true
  have hbase : SameArea (finish v .newsGeopoliticalEvents [] [] true)
      (finish w .newsGeopoliticalEvents [] [] true) := finish_perm h .rfl Iff.rfl _ true
  have hitems := areaReadiness_perm h .newsGeopoliticalEvents
  unfold newsFromEvents
  rw [← h.newsSearchRun]
  cases v.newsSearchRun with
  | none => exact hscored
  | some run =>
      simp only [scores_nil_iff hscores, h.evaluatedAt, hbase.status, eq_nil_iff_of_perm hitems,
        all_full_perm hitems]
      split
      · split
        · exact hbase
        · exact readyWithoutScore_perm hbase hitems _ _
      · exact hscored

theorem news_perm (h : Permuted v w) (hsame : SameReadings v w)
    (hids : ∀ f ∈ v.newsFeatures, ∀ g ∈ v.newsFeatures, f.featureId = g.featureId → f = g)
    (hreports : aggregateImpact v.newsFeatures v.evaluatedAt = none →
      ∀ a ∈ countedReports v, ∀ b ∈ countedReports v, newsKey a = newsKey b →
        eventMetricScore a = eventMetricScore b) :
    SameArea (news v) (news w) := by
  have himpact : aggregateImpact v.newsFeatures v.evaluatedAt
      = aggregateImpact w.newsFeatures w.evaluatedAt := by
    rw [aggregateImpact_perm h.newsFeatures hids, h.evaluatedAt]
  unfold news
  rw [← himpact]
  cases haggregate : aggregateImpact v.newsFeatures v.evaluatedAt with
  | none => exact newsFromEvents_perm h hsame (hreports haggregate)
  | some impact =>
      have hevidence := insertionSort_congr (h.newsFeatures.map EventImpactFeature.featureId)
      simp only [h.newsSearchRun, h.evaluatedAt, hevidence]
      split
      · exact finish_perm h .rfl Iff.rfl _ true
      · exact (finish_perm h .rfl Iff.rfl _ true).withStatus .partialCoverage

/-! ### Shareholding and governance -/

theorem shareholdingArea_perm (h : Permuted v w)
    (hdistinct : (v.shareholding.map ShareholdingSnapshot.periodEnd).Nodup) :
    SameArea (shareholdingArea v) (shareholdingArea w) := by
  unfold shareholdingArea
  simp only [← sortOn_eq_of_perm h.shareholding hdistinct, ← h.profile]
  split
  · exact finish_perm h .rfl Iff.rfl _ _
  · split
    · exact finish_perm h .rfl Iff.rfl _ _
    · exact finish_perm h .rfl Iff.rfl _ _

/-- The pledge of the snapshot listed last, where it states one. -/
def listedPledge (snapshots : List ShareholdingSnapshot) : Option ℚ :=
  snapshots.getLast?.bind fun latest =>
    (latest.values.find? fun entry => entry.category = .promoterPledge).map
      ShareholdingSnapshotValue.percentage

/-- The governance area reads no more of the snapshots than the pledge listed last. -/
theorem pledgeMetrics_scores (snapshots : List ShareholdingSnapshot) :
    scoresOf (pledgeMetrics snapshots) = (listedPledge snapshots).elim [] fun pledge =>
      [(roundScore (piecewise pledge [(0, 95), (5, 75), (15, 45), (30, 18), (50, 5)]), 1)] := by
  rw [pledgeMetrics, listedPledge]
  cases snapshots.getLast? with
  | none => rfl
  | some latest =>
      rw [elim_some, bind_some]
      cases latest.values.find? fun entry => entry.category = .promoterPledge with
      | none => rfl
      | some pledge => rfl

theorem governance_perm (h : Permuted v w)
    (hpledge : listedPledge v.shareholding = listedPledge w.shareholding) :
    SameArea (governance v) (governance w) := by
  have hscores : (scoresOf ((v.events.filter fun event => governanceEvent event).map
        governanceMetric ++ pledgeMetrics v.shareholding)).Perm
      (scoresOf ((w.events.filter fun event => governanceEvent event).map
        governanceMetric ++ pledgeMetrics w.shareholding)) := by
    have hsplit : ∀ l l' : List Weighted, scoresOf (l ++ l') = scoresOf l ++ scoresOf l' :=
      fun l l' => map_append
    rw [hsplit, hsplit, pledgeMetrics_scores, pledgeMetrics_scores, hpledge]
    exact (((h.events.filter _).map _).map _).append_right _
  have hbase : SameArea (finish v .managementGovernance [] [] true)
      (finish w .managementGovernance [] [] true) := finish_perm h .rfl Iff.rfl _ true
  have hitems := areaReadiness_perm h .managementGovernance
  have hfull : (∀ item ∈ areaReadiness v .managementGovernance, item.status ∈ fullStatuses) ↔
      ∀ item ∈ areaReadiness w .managementGovernance, item.status ∈ fullStatuses := by
    simp only [hitems.mem_iff]
  unfold governance
  simp only [scores_nil_iff hscores, hbase.status, ne_eq, eq_nil_iff_of_perm hitems, hfull]
  split
  · exact readyWithoutScore_perm hbase hitems _ _
  · exact finish_perm h hscores (missingWithout_perm hscores _) _ true

/-! ### Sector and macro -/

theorem sectorMacro_perm (h : Permuted v w) (hsame : SameReadings v w) :
    SameArea (sectorMacro v) (sectorMacro w) := by
  have hperformance : sectorPerformance v = sectorPerformance w := by
    rw [sectorPerformance, sectorPerformance, hsame.summary (by decide)]
  have hevents : (exposedMacroEvents v).Perm (exposedMacroEvents w) := by
    rw [exposedMacroEvents, exposedMacroEvents, hsame.sector]
    exact h.events.filter _
  have hscores : (scoresOf (sectorBasis v ++ sectorPerformance v ++ (exposedMacroEvents v).map
        fun event => eventMetric event "PROVEN_MACRO_EXPOSURE_IMPACT_V1" 35)).Perm
      (scoresOf (sectorBasis w ++ sectorPerformance w ++ (exposedMacroEvents w).map
        fun event => eventMetric event "PROVEN_MACRO_EXPOSURE_IMPACT_V1" 35)) := by
    rw [hsame.basis h, hperformance]
    exact ((hevents.map _).append_left _).map _
  exact finish_perm h hscores (missingWithout_perm hscores _) _ true

/-! ### Balance sheet -/

omit [PyLibrary] in
theorem forRequirement_perm {β : Type} (h : Permuted v w) (key : String)
    (f : ResearchRequirementReadiness → β) (hties : ∀ a ∈ v.readiness.requirements, ∀ b ∈ v.readiness.requirements,
      a.requirementId = key → b.requirementId = key → f a = f b) :
    (forRequirement v.readiness key).map f = (forRequirement w.readiness key).map f :=
  find?_perm h.requirements fun a ha b hb hka hkb =>
    hties a ha b hb (of_decide_eq_true hka) (of_decide_eq_true hkb)

theorem balanceSheet_perm (h : Permuted v w) (hsame : SameReadings v w)
    (hties : ∀ a ∈ v.readiness.requirements, ∀ b ∈ v.readiness.requirements,
      a.requirementId = "BALANCE_SHEET_FACTS" → b.requirementId = "BALANCE_SHEET_FACTS" →
      (lenderBalanceSheetInput ∉ excludedBalanceSheetInputs v a ↔
        lenderBalanceSheetInput ∉ excludedBalanceSheetInputs v b)) :
    Option.Rel SameArea (balanceSheet v) (balanceSheet w) := by
  have hexcluded : excludedBalanceSheetInputs w = excludedBalanceSheetInputs v := by
    funext item
    rw [excludedBalanceSheetInputs, excludedBalanceSheetInputs, h.canonicalMetadata, hsame.sector]
  have hlookup := forRequirement_perm h "BALANCE_SHEET_FACTS"
    (fun item => decide (lenderBalanceSheetInput ∉ excludedBalanceSheetInputs v item))
    fun a ha b hb hka hkb => decide_eq_decide.mpr (hties a ha b hb hka hkb)
  unfold balanceSheet
  cases hv : forRequirement v.readiness "BALANCE_SHEET_FACTS" with
  | none =>
      rw [hv] at hlookup
      rw [map_eq_none_iff.mp hlookup.symm]
      exact .none
  | some a =>
      cases hw : forRequirement w.readiness "BALANCE_SHEET_FACTS" with
      | none =>
          rw [hv, hw] at hlookup
          cases hlookup
      | some b =>
          rw [hv, hw, map_some, map_some, some.injEq, decide_eq_decide] at hlookup
          refine .some ?_
          simp only [hexcluded, hlookup]
          split
          · exact finish_same h (lenderMetrics_same hsame) _ _
          · exact finish_same h (corporateMetrics_same hsame) _ _

end InvestmentPlatform.Rules
