/-
The rule engine and the order of its rows.

Eligibility, headline scores, overrides and decision are built from the areas by sums, tests
and look-ups, so two orders of the same rows lead to the same outcome as soon as no look-up
is decided by the order.  `Unambiguous` says when that is.  The pledge of the governance area
is such a look-up, and the one that fails on ordinary rows: it is taken from the snapshot
that stands last, where the shareholding area sorts the snapshots first.
-/
import InvestmentPlatform.Proofs.Rules.Signals
import InvestmentPlatform.Rules.Ascii
import InvestmentPlatform.Rules.Fingerprint

namespace InvestmentPlatform.Rules

open Selection PyLibrary List MarketPriceObservation

variable {v w : StockRuleEngineInput}

/-! ### Looking a requirement up -/

/-- Requirements of one id have one status. -/
def OneStatus (readiness : ResearchReadinessResult) : Prop :=
  ∀ a ∈ readiness.requirements, ∀ b ∈ readiness.requirements,
    a.requirementId = b.requirementId → a.status = b.status

theorem requirementById_perm (h : Permuted v w) (hstatus : OneStatus v.readiness) (key : String) :
    (requirementById v.readiness key).map ResearchRequirementReadiness.status
      = (requirementById w.readiness key).map ResearchRequirementReadiness.status := by
  have hperm : v.readiness.requirements.reverse.Perm w.readiness.requirements.reverse :=
    (reverse_perm _).trans (h.requirements.trans (reverse_perm _).symm)
  refine find?_perm hperm fun a ha b hb hka hkb => hstatus a (mem_reverse.mp ha) b
    (mem_reverse.mp hb) ((of_decide_eq_true hka).trans (of_decide_eq_true hkb).symm)

variable {α : Type}

theorem forall_mem_of_map_eq {β : Type} {f : α → β} {o o' : Option α} (h : o.map f = o'.map f)
    (p : β → Prop) : (∀ a ∈ o, p (f a)) ↔ ∀ a ∈ o', p (f a) := by
  have hmap : ∀ o : Option α, (∀ a ∈ o, p (f a)) ↔ ∀ b ∈ o.map f, p b := fun o => by
    cases o <;> simp
  rw [hmap, hmap, h]

theorem exists_mem_of_map_eq {β : Type} {f : α → β} {o o' : Option α} (h : o.map f = o'.map f)
    (p : β → Prop) : (∃ a ∈ o, p (f a)) ↔ ∃ a ∈ o', p (f a) := by
  have hmap : ∀ o : Option α, (∃ a ∈ o, p (f a)) ↔ ∃ b ∈ o.map f, p b := fun o => by
    cases o <;> simp
  rw [hmap, hmap, h]

/-! ### Eligibility -/

theorem criticalBlocking_perm (h : Permuted v w) (hstatus : OneStatus v.readiness) :
    criticalBlocking v.readiness = criticalBlocking w.readiness := by
  refine filter_congr fun key _ => decide_eq_decide.mpr ?_
  exact forall_mem_of_map_eq (requirementById_perm h hstatus key) fun status =>
    status ∉ fullStatuses ∧ status ≠ .notApplicable

theorem mandatoryBlocking_perm (h : Permuted v w) :
    (mandatoryBlocking v.readiness).Perm (mandatoryBlocking w.readiness) :=
  (h.requirements.filter _).map _

/-- The statuses of the critical requirements that readiness has. -/
theorem criticalStatuses_perm (h : Permuted v w) (hstatus : OneStatus v.readiness) :
    (criticalRequirements.filterMap (requirementById v.readiness)).map
        ResearchRequirementReadiness.status
      = (criticalRequirements.filterMap (requirementById w.readiness)).map
        ResearchRequirementReadiness.status := by
  rw [map_filterMap, map_filterMap]
  exact filterMap_congr fun key _ => requirementById_perm h hstatus key

theorem eligibility_perm (h : Permuted v w) (hstatus : OneStatus v.readiness) :
    eligibility v.readiness = eligibility w.readiness := by
  have hcritical := criticalStatuses_perm h hstatus
  have husable : ((criticalRequirements.filterMap (requirementById v.readiness)).filter
        fun item => item.status ∈ usableStatuses).length
      = ((criticalRequirements.filterMap (requirementById w.readiness)).filter
        fun item => item.status ∈ usableStatuses).length := by
    have hcount : ∀ l : List ResearchRequirementReadiness,
        (l.filter fun item => item.status ∈ usableStatuses).length
          = ((l.map ResearchRequirementReadiness.status).filter (· ∈ usableStatuses)).length :=
      fun l => by
        rw [filter_map, length_map]
        rfl
    rw [hcount, hcount, hcritical]
  have hconflict : (∀ item ∈ criticalRequirements.filterMap (requirementById v.readiness),
        item.status ≠ .conflicting) ↔
      ∀ item ∈ criticalRequirements.filterMap (requirementById w.readiness),
        item.status ≠ .conflicting := by
    have hforall : ∀ l : List ResearchRequirementReadiness,
        (∀ item ∈ l, item.status ≠ .conflicting) ↔
          ∀ status ∈ l.map ResearchRequirementReadiness.status, status ≠ .conflicting :=
      fun l => by simp
    rw [hforall, hforall, hcritical]
  have hlatest := exists_mem_of_map_eq (requirementById_perm h hstatus "LATEST_PRICE")
    (· ∈ usableStatuses)
  have hblockers : (mandatoryBlocking v.readiness ++ criticalBlocking v.readiness).Perm
      (mandatoryBlocking w.readiness ++ criticalBlocking w.readiness) := by
    rw [criticalBlocking_perm h hstatus]
    exact (mandatoryBlocking_perm h).append_right _
  have hsorted := sortedSet_congr fun key => hblockers.mem_iff (a := key)
  simp only [eligibility, h.criticalCompleteness, eq_nil_iff_of_perm hblockers, husable, hlatest,
    hconflict, hsorted]

/-! ### What the areas decide -/

variable {areas areas' : List AreaScoreResult}

theorem unscorableAreas_congr (h : Forall₂ SameArea areas areas') :
    unscorableAreas areas = unscorableAreas areas' := by
  rw [unscorableAreas, unscorableAreas]
  induction h with
  | nil => rfl
  | cons hsame _ ih =>
      rw [filter_cons, filter_cons, hsame.applicable, hsame.status, hsame.area]
      split
      · rw [map_cons, map_cons, ih, hsame.area]
      · exact ih

theorem weightedScore_congr (h : Forall₂ SameArea areas areas') (weight : RuleEngineArea → Nat) :
    weightedScore areas weight = weightedScore areas' weight := by
  have hincluded : (areas.filterMap fun item => item.rawScore.bind fun raw =>
        if item.applicable ∧ weight item.area ≠ 0 then some (raw, weight item.area) else none)
      = areas'.filterMap fun item => item.rawScore.bind fun raw =>
        if item.applicable ∧ weight item.area ≠ 0 then some (raw, weight item.area) else none := by
    induction h with
    | nil => rfl
    | cons hsame _ ih =>
        rw [filterMap_cons, filterMap_cons, hsame.rawScore, hsame.applicable, hsame.area, ih]
  simp only [weightedScore, hincluded]

theorem requireScorableAreas_perm (h : Permuted v w)
    (hareas : Forall₂ SameArea areas areas') (allowed : AnalysisEligibility) :
    requireScorableAreas allowed v.readiness areas
      = requireScorableAreas allowed w.readiness areas' := by
  have hnamed := (h.requirements.filter fun item =>
    item.ruleEngineArea ∈ unscorableAreas areas').map ResearchRequirementReadiness.requirementId
  unfold requireScorableAreas
  simp only [unscorableAreas_congr hareas, eq_nil_iff_of_perm hnamed]
  split
  · rfl
  · split
    · rfl
    · rw [sortedSet_congr fun key => (hnamed.append_left _).mem_iff (a := key)]

/-! ### Confidence -/

theorem mean_perm {values values' : List ℚ} (h : values.Perm values') :
    mean values = mean values' := by
  simp only [mean, eq_nil_iff_of_perm h, h.sum_eq, h.length_eq]

theorem confidenceScore_perm (h : Permuted v w) :
    confidenceScore v.readiness = confidenceScore w.readiness := by
  have hsupported := h.requirements.filter fun item => item.status ∉ exemptStatuses
  simp only [confidenceScore, h.criticalCompleteness, h.overallCompleteness,
    mean_perm ((hsupported.filterMap ResearchRequirementReadiness.sourceTier).map authorityPoints),
    mean_perm (hsupported.map fun item => freshnessPoints item.status),
    (hsupported.filter fun item => item.status = .conflicting).length_eq]

/-! ### Decision -/

theorem criticalFresh_perm (h : Permuted v w) (hstatus : OneStatus v.readiness)
    (keys : List String) :
    criticalFresh v.readiness keys = criticalFresh w.readiness keys := by
  induction keys with
  | nil => rfl
  | cons key keys ih =>
      have hlookup := forRequirement_perm h key ResearchRequirementReadiness.status
        fun a ha b hb hka hkb => hstatus a ha b hb (hka.trans hkb.symm)
      rw [criticalFresh, criticalFresh, ih]
      cases hv : forRequirement v.readiness key <;> cases hw : forRequirement w.readiness key
      · rfl
      · rw [hv, hw] at hlookup
        cases hlookup
      · rw [hv, hw] at hlookup
        cases hlookup
      · rw [hv, hw, Option.map_some, Option.map_some, Option.some.injEq] at hlookup
        rw [Option.bind_some, Option.bind_some, hlookup]

theorem decision_perm (h : Permuted v w) (hstatus : OneStatus v.readiness)
    {overrides overrides' : List RiskOverrideResult}
    (hoverrides : ∀ o, o ∈ overrides ↔ o ∈ overrides') (score : Option ℚ)
    (confidence : ConfidenceLevel) (isPartial : Bool) :
    decision score v.readiness confidence isPartial overrides
      = decision score w.readiness confidence isPartial overrides' := by
  unfold decision
  simp only [hoverrides, criticalFresh_perm h hstatus, h.criticalCompleteness,
    h.requirements.mem_iff]

/-! ### Overrides -/

theorem mem_keepFirst {K : Type} [DecidableEq K] {key : α → K} {l : List α} {a : α} :
    a ∈ keepFirst key l ↔ l.find? (key · = key a) = some a := by
  rw [keepFirst, mem_keepBest, ← head?_filter]
  cases hl : l.filter fun b => key b = key a with
  | nil => rfl
  | cons b rest =>
      have hfirst : ∀ rest : List α, rest.foldl (fun best _ : α => best) b = b := fun rest => by
        induction rest with
        | nil => rfl
        | cons _ _ ih => exact ih
      simp [firstMax, hfirst]

section
variable [PyLibrary]

/-- Two unresolved events of authority that give one override give it with one evidence. -/
def OneEvidence (v : StockRuleEngineInput) : Prop :=
  ∀ a ∈ authoritativeEvents v, ∀ b ∈ authoritativeEvents v,
    ∀ o ∈ eventOverride a, ∀ p ∈ eventOverride b, o.code = p.code → o = p

theorem negativeGuidance_perm (h : Permuted v w) :
    (negativeGuidance v).Perm (negativeGuidance w) := (h.events.filter _).filter _

theorem extremeBalanceSheetEvidence_same (hsame : SameReadings v w) :
    extremeBalanceSheetEvidence v = extremeBalanceSheetEvidence w := by
  rw [extremeBalanceSheetEvidence, extremeBalanceSheetEvidence, hsame.debtEquity,
    hsame.latest (by decide), hsame.latest (by decide)]

theorem riskOverrides_mem (h : Permuted v w) (hsame : SameReadings v w)
    (hids : ∀ f ∈ v.newsFeatures, ∀ g ∈ v.newsFeatures, f.featureId = g.featureId → f = g)
    (hevidence : OneEvidence v) (o : RiskOverrideResult) :
    o ∈ riskOverrides v ↔ o ∈ riskOverrides w := by
  have hguidance := negativeGuidance_perm h
  have hsources := ((hguidance.map fun event =>
    (nonEmpty event.independenceKey).getD event.sourceUrl).dedup).length_eq
  have hbroken := insertionSort_congr (hguidance.map governanceEvidenceId)
  have hevents : ((authoritativeEvents v).filterMap eventOverride).find? (·.code = o.code)
      = ((authoritativeEvents w).filterMap eventOverride).find? (·.code = o.code) := by
    have hperm : ((authoritativeEvents v).filterMap eventOverride).Perm
        ((authoritativeEvents w).filterMap eventOverride) := (h.events.filter _).filterMap _
    have hfound := find?_perm (f := id) (p := fun p => decide (p.code = o.code)) hperm
      fun p hp q hq hpo hqo => by
        obtain ⟨a, ha, hpa⟩ := mem_filterMap.mp hp
        obtain ⟨b, hb, hqb⟩ := mem_filterMap.mp hq
        exact hevidence a ha b hb p hpa q hqb
          ((of_decide_eq_true hpo).trans (of_decide_eq_true hqo).symm)
    rwa [Option.map_id, id_eq, id_eq] at hfound
  simp only [riskOverrides, mem_keepFirst, find?_append, hevents, h.evaluatedAt,
    latestKnownFeatures_perm h.newsFeatures hids, hsame.financial h,
    extremeBalanceSheetEvidence_same hsame, hsources, hbroken]

/-! ### The payload -/

/-- The sort key of a fact, read from its entry. -/
def FactEntry.order (entry : FactEntry) : FactOrder :=
  toLex (metricKey entry.metric,
    toLex (entry.periodType, toLex (entry.periodEnd.getD "", entry.basis.getD "")))

theorem factEntry_order (fact : FinancialFact) : (factEntry fact).order = factOrder fact := rfl

/-- Rows that the payload lists under one sort key are listed alike. -/
structure OneListing (v : StockRuleEngineInput) : Prop where
  requirements : ∀ a ∈ v.readiness.requirements, ∀ b ∈ v.readiness.requirements,
    a.requirementId = b.requirementId → readinessEntry a = readinessEntry b
  facts : ∀ a ∈ v.financialFacts, ∀ b ∈ v.financialFacts, a.sourceMode = .real →
    b.sourceMode = .real → factOrder a = factOrder b → factEntry a = factEntry b
  structured : ∀ a ∈ v.structuredSnapshots, ∀ b ∈ v.structuredSnapshots,
    a.provider = b.provider → structuredEntry a = structuredEntry b
  events : ∀ a ∈ v.events, ∀ b ∈ v.events, a.eventId = b.eventId → eventEntry a = eventEntry b
  features : ∀ f ∈ v.newsFeatures, ∀ g ∈ v.newsFeatures, f.featureId = g.featureId → f = g

theorem OneListing.oneStatus (h : OneListing v) : OneStatus v.readiness := fun a ha b hb hid =>
  congrArg ReadinessEntry.status (h.requirements a ha b hb hid)

theorem fingerprintPayload_perm (h : Permuted v w) (hlisting : OneListing v)
    (hprices : (v.marketPrices.map observedAt).Nodup)
    (hholdings : (v.shareholding.map ShareholdingSnapshot.periodEnd).Nodup)
    (hsector : sector v = sector w) (allowPartial : Bool) :
    fingerprintPayload v allowPartial = fingerprintPayload w allowPartial := by
  have hfeatures : sortOn EventImpactFeature.featureId v.newsFeatures
      = sortOn EventImpactFeature.featureId w.newsFeatures := by
    simpa using sortOn_map_perm id h.newsFeatures hlisting.features
  have hfacts : ((sortOn factOrder v.financialFacts).filter fun fact =>
        fact.sourceMode = .real).map factEntry
      = ((sortOn factOrder w.financialFacts).filter fun fact =>
        fact.sourceMode = .real).map factEntry := by
    rw [sortOn_filter, sortOn_filter]
    refine sortOn_map_perm factEntry (h.financialFacts.filter _) fun a ha b hb => ?_
    obtain ⟨ha, hra⟩ := mem_filter.mp ha
    obtain ⟨hb, hrb⟩ := mem_filter.mp hb
    exact hlisting.facts a ha b hb (of_decide_eq_true hra) (of_decide_eq_true hrb)
  simp only [fingerprintPayload, hfeatures, eq_nil_iff_of_perm h.newsFeatures, ne_eq,
    h.newsSearchRun, h.evaluatedAt, h.profile, hsector, hfacts,
    sortOn_map_perm readinessEntry h.requirements hlisting.requirements,
    sortOn_map_perm structuredEntry h.structuredSnapshots hlisting.structured,
    usablePrices_perm h.marketPrices hprices,
    sortOn_map_perm eventEntry h.events hlisting.events,
    sortOn_eq_of_perm h.shareholding hholdings]

variable {allowPartial : Bool}

/-- A listing that every order of the rows shares shows rows of one key alike. -/
theorem oneListing_of_perm (h : ∀ w, Permuted v w →
    fingerprintPayload v allowPartial = fingerprintPayload w allowPartial) : OneListing v where
  requirements := by
    refine agree_of_sortOn_perm ReadinessEntry.id (fun _ => rfl) fun items hitems => ?_
    exact congrArg FingerprintPayload.readiness
      (h { v with readiness := { v.readiness with requirements := items } }
        ⟨rfl, rfl, rfl, rfl, rfl, rfl, hitems, .rfl, .rfl, .rfl, .rfl, .rfl, .rfl⟩)
  facts a ha b hb hra hrb := by
    obtain ⟨others, hall, hnone⟩ : ∃ others,
        v.financialFacts.Perm ((v.financialFacts.filter fun fact => fact.sourceMode = .real)
          ++ others) ∧ (others.filter fun fact => fact.sourceMode = .real) = [] :=
      ⟨v.financialFacts.filter (fun fact => !decide (fact.sourceMode = .real)),
        (filter_append_perm _ _).symm, by simp⟩
    have hreal : ∀ l', (v.financialFacts.filter fun fact => fact.sourceMode = .real).Perm l' →
        (sortOn factOrder (v.financialFacts.filter fun fact => fact.sourceMode = .real)).map
          factEntry = (sortOn factOrder l').map factEntry := by
      intro l' hl'
      have hkept : (l' ++ others).filter (fun fact => fact.sourceMode = .real) = l' := by
        have hl : l'.filter (fun fact => fact.sourceMode = .real) = l' :=
          filter_eq_self.mpr fun fact hfact =>
            (mem_filter.mp (hl'.mem_iff.mpr hfact)).2
        rw [filter_append, hl, hnone, append_nil]
      have hpayload := congrArg FingerprintPayload.financialFacts
        (h { v with financialFacts := l' ++ others } ⟨rfl, rfl, rfl, rfl, rfl, rfl, .rfl,
          hall.trans (hl'.append_right _), .rfl, .rfl, .rfl, .rfl, .rfl⟩)
      simp only [fingerprintPayload, sortOn_filter, hkept] at hpayload
      exact hpayload
    exact agree_of_sortOn_perm FactEntry.order factEntry_order hreal a (mem_filter.mpr ⟨ha, decide_eq_true hra⟩) b
      (mem_filter.mpr ⟨hb, decide_eq_true hrb⟩)
  structured := by
    refine agree_of_sortOn_perm StructuredEntry.provider (fun _ => rfl) fun records hrecords => ?_
    exact congrArg FingerprintPayload.structured (h { v with structuredSnapshots := records }
      ⟨rfl, rfl, rfl, rfl, rfl, rfl, .rfl, .rfl, hrecords, .rfl, .rfl, .rfl, .rfl⟩)
  events := by
    refine agree_of_sortOn_perm EventEntry.id (fun _ => rfl) fun events hevents => ?_
    exact congrArg FingerprintPayload.events (h { v with events }
      ⟨rfl, rfl, rfl, rfl, rfl, rfl, .rfl, .rfl, .rfl, .rfl, hevents, .rfl, .rfl⟩)
  features := by
    refine agree_of_sortOn_perm (f := id) EventImpactFeature.featureId (fun _ => rfl)
      fun features hfeatures => ?_
    rw [map_id, map_id]
    exact congrArg FingerprintPayload.newsFeatures (h { v with newsFeatures := features }
      ⟨rfl, rfl, rfl, rfl, rfl, rfl, .rfl, .rfl, .rfl, .rfl, .rfl, .rfl, hfeatures⟩)

/-- The payload is blind to the order of the rows exactly when rows of one sort key are listed
alike and every order names one sector. -/
theorem payload_perm_iff (hprices : (v.marketPrices.map observedAt).Nodup)
    (hholdings : (v.shareholding.map ShareholdingSnapshot.periodEnd).Nodup) (allowPartial : Bool) :
    (∀ w, Permuted v w → fingerprintPayload v allowPartial = fingerprintPayload w allowPartial) ↔
      OneListing v ∧ ∀ w, Permuted v w → sector v = sector w := by
  constructor
  · intro h
    refine ⟨oneListing_of_perm h, fun w hw => ?_⟩
    exact congrArg (fun payload : FingerprintPayload => payload.profile.2.2.2.2) (h w hw)
  · rintro ⟨hlisting, hsector⟩ w hw
    exact fingerprintPayload_perm hw hlisting hprices hholdings (hsector w hw) allowPartial

/-! ### The evaluation -/

/-- Two results agree on every score, the decision, the areas and the set of overrides. -/
structure SameOutcome (r s : StockRuleEngineResult) : Prop where
  overallScore : r.overallScore = s.overallScore
  qualityScore : r.qualityScore = s.qualityScore
  opportunityScore : r.opportunityScore = s.opportunityScore
  riskScore : r.riskScore = s.riskScore
  confidenceScore : r.confidenceScore = s.confidenceScore
  confidence : r.confidence = s.confidence
  decisionSignal : r.decisionSignal = s.decisionSignal
  isPartial : r.isPartial = s.isPartial
  eligibility : r.eligibility = s.eligibility
  areaScores : Forall₂ SameArea r.areaScores s.areaScores
  riskOverrides : ∀ o, o ∈ r.riskOverrides ↔ o ∈ s.riskOverrides

/-- No row of the input is chosen over one that differs from it by its place in a list. -/
structure Unambiguous (v : StockRuleEngineInput) : Prop extends OneListing v where
  series : ∀ metrics period, (metrics, period) ∈ seriesReads →
    SeriesUndisputed ((selectedFacts v metrics period).filterMap factDatum)
  summaries : ∀ key ∈ summaryKeys, Undisputed structuredRank Prod.snd
    ((structuredEntries v).filter (·.1 = metricKey key))
  exclusions : ∀ a ∈ v.readiness.requirements, ∀ b ∈ v.readiness.requirements,
    a.requirementId = "BALANCE_SHEET_FACTS" → b.requirementId = "BALANCE_SHEET_FACTS" →
    (lenderBalanceSheetInput ∉ excludedBalanceSheetInputs v a ↔
      lenderBalanceSheetInput ∉ excludedBalanceSheetInputs v b)
  reports : aggregateImpact v.newsFeatures v.evaluatedAt = none →
    ∀ a ∈ countedReports v, ∀ b ∈ countedReports v, newsKey a = newsKey b →
      eventMetricScore a = eventMetricScore b
  overrides : OneEvidence v

theorem sameReadings_of_unambiguous (h : Permuted v w) (hv : Unambiguous v)
    (hprices : (v.marketPrices.map observedAt).Nodup)
    (hsector : sector v = sector w) : SameReadings v w where
  series metrics period hread := factSeries_perm h (hv.series metrics period hread)
  figures := structuredData_perm h.structuredSnapshots hv.summaries
  materialized := by rw [materializeValuation_perm h hprices, h.evaluatedAt]
  prices := usablePrices_perm h.marketPrices hprices
  sector := hsector

theorem areaResults_perm (h : Permuted v w) (hv : Unambiguous v) (hsame : SameReadings v w)
    (hholdings : (v.shareholding.map ShareholdingSnapshot.periodEnd).Nodup)
    (hpledge : listedPledge v.shareholding = listedPledge w.shareholding) :
    Option.Rel (Forall₂ SameArea) (areaResults v) (areaResults w) := by
  have hbalance := balanceSheet_perm h hsame hv.exclusions
  rw [areaResults, areaResults]
  generalize balanceSheet v = balance at hbalance ⊢
  generalize balanceSheet w = balance' at hbalance ⊢
  cases hbalance with
  | none => exact .none
  | some hbalance =>
      exact .some (.cons (valuation_perm h hsame) (.cons (quality_perm h hsame)
        (.cons (growth_perm h hsame) (.cons hbalance (.cons (quarterly_perm h hsame)
        (.cons (catalysts_perm h) (.cons (technical_perm h hsame)
        (.cons (news_perm h hsame hv.features hv.reports)
        (.cons (shareholdingArea_perm h hholdings) (.cons (governance_perm h hpledge)
        (.cons (sectorMacro_perm h hsame) .nil)))))))))))

omit [PyLibrary] in
theorem map_rel {f g : DecisionSignal → StockRuleEngineResult} (signal : Option DecisionSignal)
    (h : ∀ s, SameOutcome (f s) (g s)) :
    Option.Rel SameOutcome (signal.map f) (signal.map g) := by
  cases signal with
  | none => exact .none
  | some s => exact .some (h s)

theorem assemble_perm (h : Permuted v w) (hv : Unambiguous v) (hsame : SameReadings v w)
    {areas areas' : List AreaScoreResult} (hareas : Forall₂ SameArea areas areas')
    (allowPartial : Bool) :
    Option.Rel SameOutcome (assemble v allowPartial areas) (assemble w allowPartial areas') := by
  have hstatus := hv.oneStatus
  have hoverrides := riskOverrides_mem h hsame hv.features hv.overrides
  unfold assemble
  simp only [requireScorableAreas_perm h hareas, eligibility_perm h hstatus,
    weightedScore_congr hareas, confidenceScore_perm h, decision_perm h hstatus hoverrides]
  exact map_rel _ fun _ => ⟨rfl, rfl, rfl, rfl, rfl, rfl, rfl, rfl, rfl, hareas, hoverrides⟩

/-- The outcome is the same in another order, as long as no look-up is decided by the order. -/
theorem evaluate_perm (h : Permuted v w)
    (hprices : (v.marketPrices.map observedAt).Nodup)
    (hholdings : (v.shareholding.map ShareholdingSnapshot.periodEnd).Nodup)
    (hv : Unambiguous v) (hsector : sector v = sector w)
    (hpledge : listedPledge v.shareholding = listedPledge w.shareholding) (allowPartial : Bool) :
    Option.Rel SameOutcome (evaluate v allowPartial) (evaluate w allowPartial) := by
  have hsame := sameReadings_of_unambiguous h hv hprices hsector
  have hareas := areaResults_perm h hv hsame hholdings hpledge
  rw [evaluate, evaluate]
  generalize areaResults v = areas at hareas ⊢
  generalize areaResults w = areas' at hareas ⊢
  cases hareas with
  | none => exact .none
  | some hareas => exact assemble_perm h hv hsame hareas allowPartial

/-- The areas of a result stand in the engine's order. -/
theorem areaScores_of_evaluate {r : StockRuleEngineResult}
    (h : evaluate v allowPartial = some r) : ∃ balance, balanceSheet v = some balance ∧
      r.areaScores = [valuation v, quality v, growth v, balance, quarterly v, catalysts v,
        technical v, news v, shareholdingArea v, governance v, sectorMacro v] := by
  rw [evaluate, areaResults, Option.bind_map] at h
  obtain ⟨balance, hbalance, h⟩ := Option.bind_eq_some_iff.mp h
  obtain ⟨signal, -, rfl⟩ := Option.map_eq_some_iff.mp h
  exact ⟨balance, hbalance, rfl⟩

theorem governance_of_sameOutcome
    (h : Option.Rel SameOutcome (evaluate v allowPartial) (evaluate w allowPartial))
    (hv : (evaluate v allowPartial).isSome) : SameArea (governance v) (governance w) := by
  obtain ⟨r, hr⟩ := Option.isSome_iff_exists.mp hv
  rw [hr] at h
  cases hs : evaluate w allowPartial with
  | none =>
      rw [hs] at h
      cases h
  | some s =>
      rw [hs] at h
      obtain ⟨balance, -, hareas⟩ := areaScores_of_evaluate hr
      obtain ⟨balance', -, hareas'⟩ := areaScores_of_evaluate hs
      cases h with
      | some hsame =>
          have hall := hsame.areaScores
          rw [hareas, hareas'] at hall
          simp only [forall₂_cons] at hall
          exact hall.2.2.2.2.2.2.2.2.2.1

end

/-! ### Snapshots as the repository lists them -/

section
attribute [local instance] asciiLibrary

def pledged (id : String) (periodEnd : Instant) (pledge : ℚ) : ShareholdingSnapshot where
  id
  periodEnd
  sourceProvider := "NSE"
  sourceUrl := "https://www.nseindia.com/shareholding"
  values := [⟨.promoter, 50, none⟩, ⟨.promoterPledge, pledge, none⟩]

def requirement (id : String) (area : RuleEngineArea) (status : ResearchRequirementStatus) :
    ResearchRequirementReadiness where
  requirementId := id
  ruleEngineArea := area
  mandatory := true
  status
  source := none
  sourceTier := none
  asOf := none
  retrievedAt := none
  evidenceIds := []
  conflictReason := none
  sourceUrl := none
  missingInputIds := []
  coveragePct := 0
  criticalCoveragePct := 0
  applicabilityReason := none
  notApplicableInputs := []
  conceptEvidenceStates := []

/-- Two quarters with a new pledge, newest first. -/
def newestFirst : StockRuleEngineInput where
  profile := ⟨"1", "IN", "NSE", "XNSE", "ABC"⟩
  readiness := ⟨[requirement "BALANCE_SHEET_FACTS" .balanceSheet .missing], 0, 0⟩
  financialFacts := []
  structuredSnapshots := []
  marketPrices := []
  events := []
  shareholding := [pledged "q2" 1751241600000000 40, pledged "q1" 1743379200000000 0]
  canonicalMetadata := ⟨none, none, none, none, none⟩
  evaluatedAt := 1751500800000000
  newsFeatures := []
  newsSearchRun := none

def oldestFirst : StockRuleEngineInput :=
  { newestFirst with shareholding := newestFirst.shareholding.reverse }

def heldAt (observedAt : Instant) (price : ℚ) : MarketPriceObservation where
  instrumentId := "1"
  observedAt
  price
  currency := some "INR"
  provider := "NSE"
  sourceUrl := "https://www.nseindia.com/quote"
  retrievedAt := observedAt

def orderBook (id title : String) : ResearchEvent where
  eventId := id
  eventType := .newOrder
  eventDate := some 1751241600000000
  publishedAt := none
  detectedAt := 1751241600000000
  title
  summary := "order book grows"
  sourceUrl := "https://www.nseindia.com/announcements"
  sourceClassification := .exchange
  reliability := .levelB
  sourceMode := .real
  confidence := 4 / 5
  impact := .positive
  timeHorizon := .mediumTerm
  monetaryValue := some 100
  percentageValue := none
  capacityValue := none
  customer := none
  counterparty := none
  location := none
  status := .validated
  independenceKey := none

/-- Two rows of most kinds, with an unchanged pledge. -/
def steadyPledge : StockRuleEngineInput where
  profile := ⟨"1", "IN", "NSE", "XNSE", "ABC"⟩
  readiness := ⟨[requirement "BALANCE_SHEET_FACTS" .balanceSheet .readyFresh,
    requirement "LATEST_PRICE" .priceTechnical .readyStale], 60, 40⟩
  financialFacts := [
    { metric := "revenue"
      periodEnd := none
      periodType := "ANNUAL"
      reportingBasis := some "CONSOLIDATED"
      value := some ⟨"100", true⟩
      unit := some "INR"
      asOfDate := some 1743379200000000
      sourceUrl := "https://www.nseindia.com/results"
      sourceTier := .officialNse
      sourceProvider := "NSE"
      sourceIdentity := "results"
      sourceMode := .real }]
  structuredSnapshots := []
  marketPrices := [heldAt 1751414400000000 101, heldAt 1751328000000000 100]
  events := [orderBook "e1" "first order", orderBook "e2" "second order"]
  shareholding := [pledged "q2" 1751241600000000 5, pledged "q1" 1743379200000000 5]
  canonicalMetadata := ⟨some "industrial", none, none, none, none⟩
  evaluatedAt := 1751500800000000
  newsFeatures := []
  newsSearchRun := none

def steadyPledgeReversed : StockRuleEngineInput :=
  { steadyPledge with
    readiness := { steadyPledge.readiness with
      requirements := steadyPledge.readiness.requirements.reverse }
    marketPrices := steadyPledge.marketPrices.reverse
    events := steadyPledge.events.reverse
    shareholding := steadyPledge.shareholding.reverse }

theorem undisputed_of_length {α β R : Type} [LinearOrder R] {rank : α → R} {f : α → β} {l : List α}
    (h : l.length ≤ 1) : Undisputed rank f l := by
  intro a ha b hb _ _
  rcases l with - | ⟨c, - | ⟨d, l⟩⟩
  · cases ha
  · rw [mem_singleton.mp ha, mem_singleton.mp hb]
  · simp at h

theorem seriesUndisputed_of_length {data : List Datum} (h : data.length ≤ 1) :
    SeriesUndisputed data where
  observation k := undisputed_of_length ((length_filter_le _ _).trans h)
  group := by
    refine undisputed_of_length ?_
    rcases data with - | ⟨d, - | ⟨e, l⟩⟩
    · exact Nat.zero_le 1
    · exact Nat.le_refl 1
    · simp at h

theorem steadyPledge_unambiguous : Unambiguous steadyPledge where
  requirements := by decide
  facts := by decide
  structured := by decide
  events := by decide +kernel
  features := by decide
  series metrics period _ := seriesUndisputed_of_length
    ((length_filterMap_le _ _).trans (length_filter_le _ _))
  summaries key _ := undisputed_of_length (Nat.zero_le 1)
  exclusions := by decide +kernel
  reports _ := by decide +kernel
  overrides := by
    have hnone : authoritativeEvents steadyPledge = [] := by rfl
    intro a ha
    rw [hnone] at ha
    cases ha

end

end InvestmentPlatform.Rules
