/-
The scores of the stock rule engine: on a scale from 0 to 100, and over no zero denominator.

Every metric is scored on one of the listed tables, or with a share, a clamped event impact or
a constant, and weighs something.  An area's score is a weighted mean of such metrics, and a
headline score one of such areas.
-/
import InvestmentPlatform.Lib.Piecewise
import InvestmentPlatform.Lib.WeightedMean
import InvestmentPlatform.Rules.Denominators
import Mathlib.Algebra.Order.BigOperators.Group.List

namespace InvestmentPlatform.Rules

open Selection PyLibrary List Nat Function WeightedMean PyFloat

/-! ### The scale -/

/-- A score the result types accept. -/
def InScale (score : ℚ) : Prop := 0 ≤ score ∧ score ≤ 100

instance (score : ℚ) : Decidable (InScale score) := inferInstanceAs (Decidable (_ ∧ _))

theorem InScale.round {score : ℚ} (h : InScale score) : InScale (roundScore score) := by
  have hzero : roundScore ((0 : Int) : ℚ) = (0 : Int) := roundTo_intCast 0 2
  have hhundred : roundScore ((100 : Int) : ℚ) = (100 : Int) := roundTo_intCast 100 2
  push_cast at hzero hhundred
  constructor
  · rw [← hzero]
    exact roundTo_mono 2 h.1
  · rw [← hhundred]
    exact roundTo_mono 2 h.2

theorem inScale_middle : InScale 50 := by decide +kernel

theorem inScale_clamp (value : ℚ) : InScale (clamp value) :=
  ⟨le_max_left _ _, max_le (by norm_num) (min_le_left _ _)⟩

/-- A share of things, in percent. -/
theorem inScale_share {part whole : Nat} (h : part ≤ whole) :
    InScale ((part : ℚ) / whole * 100) := by
  have hle : (part : ℚ) / whole ≤ 1 := div_le_one_of_le₀ (by exact_mod_cast h) (cast_nonneg _)
  have hnonneg : 0 ≤ (part : ℚ) / whole := div_nonneg (cast_nonneg _) (cast_nonneg _)
  exact ⟨by linarith, by linarith⟩

/-! ### Tables -/

/-- The values ascend and the scores are on the scale. -/
def Breakpoints (points : List (ℚ × ℚ)) : Prop :=
  (∀ width ∈ segmentWidths points, 0 < width) ∧ ∀ point ∈ points, InScale point.2

instance (points : List (ℚ × ℚ)) : Decidable (Breakpoints points) :=
  inferInstanceAs (Decidable (_ ∧ _))

theorem breakpoints_of_mem : ∀ points ∈ scoreTables, Breakpoints points := by decide +kernel

theorem ascending_of_mem : ∀ points ∈ scoreTables, Piecewise.Ascending points := by
  decide +kernel

theorem findSome?_within {p : ℚ × ℚ} {rest : List (ℚ × ℚ)}
    (h : (p :: rest).Pairwise fun p q => p.1 < q.1) (hne : rest ≠ []) {v : ℚ}
    (hfrom : p.1 ≤ v) (hto : v ≤ ((p :: rest).getLast (cons_ne_nil _ _)).1) :
    (((p :: rest).zip rest).findSome? fun segment =>
      if segment.1.1 ≤ v ∧ v ≤ segment.2.1 then
        some (roundScore (segment.1.2 +
          (v - segment.1.1) / (segment.2.1 - segment.1.1) * (segment.2.2 - segment.1.2)))
      else none) = some (roundScore (Piecewise.within v (p :: rest))) := by
  induction rest generalizing p with
  | nil => exact absurd rfl hne
  | cons q rest ih =>
      obtain ⟨hhead, htail⟩ := pairwise_cons.mp h
      have hlt := hhead q mem_cons_self
      rw [zip_cons_cons, findSome?_cons, Piecewise.within, if_neg hlt.ne']
      by_cases hv : v ≤ q.1
      · rw [if_pos ⟨hfrom, hv⟩, if_pos ⟨hfrom, hv⟩]
        have hline : p.2 + (v - p.1) / (q.1 - p.1) * (q.2 - p.2) = Piecewise.line p q v := by
          unfold Piecewise.line
          ring
        rw [hline]
      · rw [if_neg (fun hc => hv hc.2), if_neg (fun hc : p.1 ≤ v ∧ v ≤ q.1 => hv hc.2)]
        have hmore : rest ≠ [] := by
          rintro rfl
          exact hv hto
        exact ih htail hmore (not_le.mp hv).le (by rwa [getLast_cons (cons_ne_nil _ _)] at hto)

/-- `_piecewise` is the rounded interpolation. -/
theorem piecewise_eq {points : List (ℚ × ℚ)} (h : Piecewise.Ascending points) (v : ℚ) :
    piecewise v points = roundScore (Piecewise.piecewise v points) := by
  obtain ⟨hne, hpoints⟩ := h
  obtain ⟨first, rest, rfl⟩ := exists_cons_of_ne_nil hne
  unfold piecewise Piecewise.piecewise
  rw [head?_cons, getLast?_eq_some_getLast hne]
  dsimp only
  by_cases hfirst : v ≤ first.1
  · rw [if_pos hfirst, if_pos hfirst]
  · rw [if_neg hfirst, if_neg hfirst]
    by_cases hlast : ((first :: rest).getLast hne).1 ≤ v
    · rw [if_pos hlast, if_pos hlast]
    · rw [if_neg hlast, if_neg hlast]
      have hmore : rest ≠ [] := by
        rintro rfl
        exact hfirst (not_le.mp hlast).le
      rw [tail_cons, findSome?_within hpoints hmore (not_le.mp hfirst).le (not_le.mp hlast).le]
      rfl

/-- A value strictly between the first and the last point is enclosed by two neighbours. -/
theorem segment_of_between {first : ℚ × ℚ} {rest : List (ℚ × ℚ)}
    (h : Piecewise.Ascending (first :: rest)) {v : ℚ} (hfirst : first.1 < v)
    (hlast : v < ((first :: rest).getLast h.1).1) :
    ∃ segment ∈ (first :: rest).zip rest, segment.1.1 ≤ v ∧ v ≤ segment.2.1 := by
  have hmore : rest ≠ [] := by
    rintro rfl
    exact absurd hlast (not_lt.mpr hfirst.le)
  obtain ⟨segment, hmem, hsegment⟩ := exists_of_findSome?_eq_some
    (findSome?_within h.2 hmore hfirst.le hlast.le)
  refine ⟨segment, hmem, ?_⟩
  split at hsegment
  · assumption
  · cases hsegment

theorem inScale_piecewise {points : List (ℚ × ℚ)} (table : Nat)
    (hpoints : scoreTables[table]? = some points) (value : ℚ) :
    InScale (piecewise value points) := by
  have hmem := mem_of_getElem? hpoints
  have hscores := (breakpoints_of_mem points hmem).2
  have hascending := ascending_of_mem points hmem
  rw [piecewise_eq hascending]
  exact InScale.round ⟨Piecewise.le_piecewise hascending.1 (fun p hp => (hscores p hp).1) value,
    Piecewise.piecewise_le hascending.1 (fun p hp => (hscores p hp).2) value⟩

theorem inScale_growth (value : ℚ) : InScale (growthScore value) :=
  inScale_piecewise 25 rfl value

theorem inScale_trend (value : ℚ) : InScale (trendScore value) :=
  inScale_piecewise 26 rfl value

theorem inScale_event (event : ResearchEvent) : InScale (eventMetricScore event) :=
  (inScale_clamp _).round

/-! ### Metrics -/

/-- The metric weighs something and is scored on the scale. -/
def ValidMetrics (weighted : List Weighted) : Prop :=
  ∀ m ∈ weighted, 0 < m.2 ∧ InScale m.1.score

namespace ValidMetrics

theorem nil : ValidMetrics [] := fun _ h => absurd h not_mem_nil

theorem append {l l' : List Weighted} (h : ValidMetrics l) (h' : ValidMetrics l') :
    ValidMetrics (l ++ l') := fun m hm => (mem_append.mp hm).elim (h m) (h' m)

theorem cons {m : Weighted} {l : List Weighted} (hm : 0 < m.2 ∧ InScale m.1.score)
    (h : ValidMetrics l) : ValidMetrics (m :: l) := by
  intro m' hm'
  rcases mem_cons.mp hm' with heq | hmem
  · rw [heq]
    exact hm
  · exact h m' hmem

theorem map {α : Type} {metric : α → Weighted}
    (h : ∀ a, 0 < (metric a).2 ∧ InScale (metric a).1.score) (l : List α) :
    ValidMetrics (l.map metric) := by
  intro m hm
  obtain ⟨a, -, rfl⟩ := mem_map.mp hm
  exact h a

theorem elim {α : Type} {metrics : α → List Weighted} (h : ∀ a, ValidMetrics (metrics a))
    (o : Option α) : ValidMetrics (o.elim [] metrics) := by
  cases o with
  | none => exact nil
  | some a => exact h a

theorem ite {p : Prop} [Decidable p] {l l' : List Weighted} (h : ValidMetrics l)
    (h' : ValidMetrics l') : ValidMetrics (if p then l else l') := by
  by_cases hp : p
  · rw [if_pos hp]
    exact h
  · rw [if_neg hp]
    exact h'

end ValidMetrics

section
variable {points : List (ℚ × ℚ)} {weight : Nat}

theorem valid_metricOf (name : String) (value : MetricValue) (datum : Datum) {score : ℚ}
    (hscore : InScale score) (rule unit : String) (hweight : 0 < weight) :
    ValidMetrics [metricOf name value datum score rule unit weight] :=
  .cons ⟨hweight, hscore.round⟩ .nil

theorem valid_scored (table : Nat) (x : ℚ) (name : String) (datum : Datum) (rule unit : String)
    (hpoints : scoreTables[table]? = some points)
    (hweight : 0 < weight) :
    ValidMetrics [metricResult name datum (piecewise x points) rule unit weight] :=
  valid_metricOf name _ datum (inScale_piecewise table hpoints x) rule unit hweight

theorem valid_metricsOf {metrics : Datum → List Weighted} (h : ∀ d, ValidMetrics (metrics d))
    (datum : Option Datum) : ValidMetrics (metricsOf datum metrics) := .elim h datum

theorem valid_positive {metrics : Datum → List Weighted} (h : ∀ d, ValidMetrics (metrics d))
    (datum : Option Datum) : ValidMetrics (positiveMetrics datum metrics) := .elim h _

theorem inScale_positiveShare (data : List Datum) : InScale (positiveShare data) :=
  inScale_share (length_filter_le _ _)

theorem inScale_consistency {series : List (List Datum)} {score : ℚ} {data : List Datum}
    (h : growthConsistency series = some (score, data)) : InScale score := by
  unfold growthConsistency at h
  split at h
  · cases h
  · cases h
    exact inScale_share (length_filter_le _ _)

theorem valid_percent (table : Nat) (name : String) (datum : Option Datum)
    (rule evidenceId : String) (hpoints : scoreTables[table]? = some points)
    (hweight : 0 < weight) :
    ValidMetrics (percentMetric name datum rule weight points evidenceId) :=
  valid_metricsOf (fun _ => valid_scored table _ _ _ _ _ hpoints hweight) datum

theorem valid_ratio (table : Nat) (numerator denominator : Option Datum)
    (name rule evidenceId : String) (hpoints : scoreTables[table]? = some points)
    (hweight : 0 < weight) :
    ValidMetrics (statementRatio numerator denominator name rule evidenceId weight points) :=
  valid_metricsOf (fun _ => valid_positive (fun _ =>
    .ite (valid_scored table _ _ _ _ _ hpoints hweight) .nil) denominator) numerator

theorem valid_change (change : Option Change) (name evidenceId rule : String)
    (hweight : 0 < weight) :
    ValidMetrics (changeMetrics change name evidenceId rule weight) :=
  .elim (fun _ => valid_metricOf _ _ _ (inScale_growth _) _ _ hweight) change

theorem valid_cagr [PyLibrary] (series : List Datum) (name evidenceId rule : String) :
    ValidMetrics (cagrMetrics series name evidenceId rule) :=
  .elim (fun _ => valid_metricsOf (fun _ =>
    valid_metricOf _ _ _ (inScale_growth _) _ _ (succ_pos _)) _) _

theorem valid_event (event : ResearchEvent) (rule : String) (hweight : 0 < weight) :
    0 < (eventMetric event rule weight).2 ∧ InScale (eventMetric event rule weight).1.score :=
  ⟨hweight, (inScale_event event).round⟩

/-! ### The metrics of each area -/

variable [PyLibrary] (v : StockRuleEngineInput)

theorem valid_valuation : ValidMetrics (valuationMetrics v) := by
  refine .append (.append (.append (.append (.append ?_ ?_) ?_) ?_) ?_) ?_
  · exact valid_positive (fun _ => (valid_scored 0 _ _ _ _ _ rfl (succ_pos _)).append
      (valid_scored 1 _ _ _ _ _ rfl (succ_pos _))) _
  · exact valid_positive (fun _ => valid_scored 2 _ _ _ _ _ rfl (succ_pos _)) _
  · refine valid_positive (fun _ => ?_) _
    -- banks and industrials are scored on different tables
    by_cases hfinancial : isFinancial v
    · rw [if_pos hfinancial]
      exact valid_scored 3 _ _ _ _ _ rfl (succ_pos _)
    · rw [if_neg hfinancial]
      exact valid_scored 4 _ _ _ _ _ rfl (succ_pos _)
  · exact .ite .nil (valid_positive (fun _ => valid_scored 5 _ _ _ _ _ rfl (succ_pos _)) _)
  · exact valid_positive (fun _ => valid_scored 6 _ _ _ _ _ rfl (succ_pos _)) _
  · exact valid_metricsOf (fun _ => valid_positive (fun _ =>
      .ite (valid_scored 7 _ _ _ _ _ rfl (succ_pos _)) .nil) _) _

theorem valid_quality : ValidMetrics (qualityMetrics v) := by
  refine .append (.append (.append (.append (.append (.append (.append ?_ ?_) ?_) ?_) ?_) ?_) ?_) ?_
  · exact valid_percent 8 _ _ _ _ rfl (succ_pos _)
  · exact valid_percent 8 _ _ _ _ rfl (succ_pos _)
  · exact valid_percent 8 _ _ _ _ rfl (succ_pos _)
  · exact valid_percent 8 _ _ _ _ rfl (succ_pos _)
  · exact .ite (valid_metricsOf (fun _ => valid_metricOf _ _ _
      (inScale_piecewise 9 rfl _) _ _ (succ_pos _)) _) .nil
  · exact valid_metricsOf (fun _ => valid_metricsOf (fun _ =>
      .ite (valid_scored 10 _ _ _ _ _ rfl (succ_pos _)) .nil) _) _
  · exact valid_metricsOf (fun _ => valid_metricsOf (fun _ =>
      .ite (valid_scored 11 _ _ _ _ _ rfl (succ_pos _)) .nil) _) _
  · exact .ite (valid_metricsOf (fun _ => valid_metricOf _ _ _ (inScale_positiveShare _) _ _
      (succ_pos _)) _)
      .nil

theorem valid_growth : ValidMetrics (growthMetrics v) := by
  refine .append (.append (.append (.append (.append ?_ ?_) ?_) ?_) ?_) ?_
  · exact valid_cagr _ _ _ _
  · exact valid_cagr _ _ _ _
  · exact valid_change _ _ _ _ (succ_pos _)
  · exact valid_change _ _ _ _ (succ_pos _)
  · exact valid_change _ _ _ _ (succ_pos _)
  · cases hconsistency : growthConsistency
        [factSeries v revenueMetrics (some "ANNUAL"), earningsSeries v "ANNUAL"] with
    | none => exact .nil
    | some found =>
        exact valid_metricsOf (fun _ =>
          valid_metricOf _ _ _ (inScale_consistency hconsistency) _ _ (succ_pos _)) _

theorem valid_lender : ValidMetrics (lenderMetrics v) :=
  .append (.append (valid_percent 12 _ _ _ _ rfl (succ_pos _))
    (valid_percent 13 _ _ _ _ rfl (succ_pos _))) (valid_percent 13 _ _ _ _ rfl (succ_pos _))

theorem valid_corporate : ValidMetrics (corporateMetrics v) := by
  refine .append (.append (.append (.append ?_ ?_) ?_) ?_) ?_
  · exact valid_metricsOf (fun _ => valid_scored 14 _ _ _ _ _ rfl (succ_pos _)) _
  · exact valid_metricsOf (fun _ => valid_metricsOf (fun _ => valid_positive (fun _ =>
      .ite (valid_scored 15 _ _ _ _ _ rfl (succ_pos _)) .nil) _) _) _
  · exact valid_ratio 16 _ _ _ _ _ rfl (succ_pos _)
  · exact valid_ratio 17 _ _ _ _ _ rfl (succ_pos _)
  · exact valid_metricsOf (fun _ => valid_positive (fun _ =>
      valid_scored 18 _ _ _ _ _ rfl (succ_pos _)) _) _

theorem valid_quarterly : ValidMetrics (quarterlyMetrics v) := by
  refine .append (.append (.append (.append (.append (.append ?_ ?_) ?_) ?_) ?_) ?_) ?_
  · exact valid_change _ _ _ _ (succ_pos _)
  · exact valid_change _ _ _ _ (succ_pos _)
  · exact valid_change _ _ _ _ (succ_pos _)
  · exact valid_change _ _ _ _ (succ_pos _)
  · exact valid_change _ _ _ _ (succ_pos _)
  · split
    · exact valid_metricsOf (fun _ => valid_scored 19 _ _ _ _ _ rfl (succ_pos _)) _
    · exact .nil
  · exact .ite (valid_metricsOf (fun _ => valid_metricOf _ _ _ (inScale_positiveShare _) _ _
      (succ_pos _)) _)
      .nil

theorem valid_median (latest : MarketPriceObservation) (window : List MarketPriceObservation)
    (name rule evidenceId : String) :
    ValidMetrics (priceVsMedian latest window name rule evidenceId) :=
  valid_metricOf _ _ _ (inScale_trend _) _ _ (succ_pos _)

theorem valid_technical (prices : List MarketPriceObservation) :
    ValidMetrics (technicalMetrics prices) := by
  unfold technicalMetrics
  dsimp only
  split
  · refine .append (.append (valid_median _ _ _ _ _) (.ite (valid_median _ _ _ _ _) .nil)) ?_
    exact (valid_scored 20 _ _ _ _ _ rfl (succ_pos _)).append
      (valid_metricOf _ _ _ (inScale_trend _) _ _ (succ_pos _))
  · exact .nil

theorem valid_trend (latest previous : ShareholdingSnapshot) (category : ShareholdingCategory)
    (name rule : String) (hweight : 0 < weight) :
    ValidMetrics (holdingTrend latest previous category name rule weight) := by
  unfold holdingTrend
  split
  · exact valid_scored 24 _ _ _ _ _ rfl hweight
  · exact .nil

theorem valid_shareholding (latest : ShareholdingSnapshot)
    (previous : Option ShareholdingSnapshot) :
    ValidMetrics (shareholdingMetrics latest previous) := by
  refine .append (.append ?_ ?_) ?_
  · exact .elim (fun _ => valid_scored 21 _ _ _ _ _ rfl (succ_pos _)) _
  · exact .elim (fun _ => valid_scored 22 _ _ _ _ _ rfl (succ_pos _)) _
  · exact .elim (fun _ => .append (.append (valid_trend _ _ _ _ _ (succ_pos _))
      (valid_trend _ _ _ _ _ (succ_pos _)))
      (valid_trend _ _ _ _ _ (succ_pos _))) _

theorem valid_governance (event : ResearchEvent) :
    0 < (governanceMetric event).2 ∧ InScale (governanceMetric event).1.score := by
  have hresolved : InScale (if event.status = .rejected then 65 else 60) := by
    by_cases h : event.status = .rejected
    · rw [if_pos h]
      exact ⟨by norm_num, by norm_num⟩
    · rw [if_neg h]
      exact ⟨by norm_num, by norm_num⟩
  unfold governanceMetric
  by_cases h : isResolved event ∨ event.status = .rejected
  · rw [if_pos h]
    exact ⟨Nat.one_pos, hresolved.round⟩
  · rw [if_neg h]
    exact ⟨Nat.one_pos, (inScale_event event).round⟩

theorem valid_pledge (snapshots : List ShareholdingSnapshot) :
    ValidMetrics (pledgeMetrics snapshots) :=
  .elim (fun _ => .elim (fun _ => valid_scored 23 _ _ _ _ _ rfl (succ_pos _)) _) _

theorem valid_sectorMacro : ValidMetrics (sectorBasis v ++ sectorPerformance v ++
    (exposedMacroEvents v).map fun event =>
      eventMetric event "PROVEN_MACRO_EXPOSURE_IMPACT_V1" 35) := by
  refine .append (.append ?_ ?_) (.map (fun event => valid_event event _ (succ_pos _)) _)
  · exact .elim (fun _ => valid_metricOf _ _ _ inScale_middle _ _ (succ_pos _)) _
  · exact valid_metricsOf (fun _ => valid_metricOf _ _ _ (inScale_trend _) _ _ (succ_pos _)) _

/-! ### News -/

/-- What the validators of a feature promise. -/
structure EventImpactFeature.Valid (feature : EventImpactFeature) : Prop where
  impact : -100 ≤ feature.impactScore ∧ feature.impactScore ≤ 100
  discovered : feature.discoveredAt ≤ feature.computedAt
  available : feature.publicAvailableAt ≤ feature.computedAt
  published : ∀ publicationTime ∈ feature.publicationTime,
    publicationTime ≤ feature.publicAvailableAt
  expiring : ∀ validUntil ∈ feature.validUntil, feature.publicAvailableAt ≤ validUntil

omit [PyLibrary] in
/-- Rounding keeps an impact between -100 and 100. -/
theorem impact_round {x : ℚ} (h : -100 ≤ x ∧ x ≤ 100) :
    -100 ≤ roundTo x 8 ∧ roundTo x 8 ≤ 100 := by
  have hlow : roundTo ((-100 : Int) : ℚ) 8 = (-100 : Int) := roundTo_intCast _ 8
  have hhigh : roundTo ((100 : Int) : ℚ) 8 = (100 : Int) := roundTo_intCast _ 8
  push_cast at hlow hhigh
  constructor
  · rw [← hlow]
    exact roundTo_mono 8 h.1
  · rw [← hhigh]
    exact roundTo_mono 8 h.2

omit [PyLibrary] in
theorem mul_unit_mem {x part : ℚ} (hx : -100 ≤ x ∧ x ≤ 100) (hpart : 0 ≤ part ∧ part ≤ 1) :
    -100 ≤ x * part ∧ x * part ≤ 100 := by
  have hlow := mul_le_mul_of_nonneg_right hx.1 hpart.1
  have hhigh := mul_le_mul_of_nonneg_right hx.2 hpart.1
  constructor <;> linarith [hpart.2]

omit [PyLibrary] in
theorem impactAt_mem {feature : EventImpactFeature} (h : feature.Valid) {now : Instant} {x : ℚ}
    (hx : impactAt feature now = some x) : -100 ≤ x ∧ x ≤ 100 := by
  have hdecay : ∀ y : ℚ, 0 ≤ max 0 (min 1 y) ∧ max 0 (min 1 y) ≤ 1 := fun y =>
    ⟨le_max_left _ _, max_le (by norm_num) (min_le_left _ _)⟩
  unfold impactAt at hx
  split at hx
  · cases hx
  split at hx
  · cases hx
    exact h.impact
  split at hx
  · cases hx
  · cases hx
    exact impact_round (mul_unit_mem h.impact (hdecay _))

omit [PyLibrary] in
theorem aggregateImpact_mem {features : List EventImpactFeature} (h : ∀ f ∈ features, f.Valid)
    {now : Instant} {x : ℚ} (hx : aggregateImpact features now = some x) :
    -100 ≤ x ∧ x ≤ 100 := by
  have hknown : ∀ f ∈ latestKnownFeatures features now, f.Valid := fun f hf =>
    h f (mem_filter.mp (mem_of_mem_keepBest ((sortOn_perm _ _).mem_iff.mp hf))).1
  have hvalues : ∀ y ∈ (latestKnownFeatures features now).filterMap (impactAt · now),
      -100 ≤ y ∧ y ≤ 100 := by
    intro y hy
    obtain ⟨f, hf, hy⟩ := mem_filterMap.mp hy
    exact impactAt_mem (hknown f hf) hy
  unfold aggregateImpact at hx
  split at hx
  · cases hx
  · rename_i hne
    cases hx
    revert hvalues hne
    generalize (latestKnownFeatures features now).filterMap (impactAt · now) = values
    intro hvalues hne
    have hlength : (0 : ℚ) < values.length := by
      exact_mod_cast length_pos_iff.mpr hne
    have hupper := sum_le_card_nsmul values 100 fun y hy => (hvalues y hy).2
    have hlower := card_nsmul_le_sum values (-100) fun y hy => (hvalues y hy).1
    rw [nsmul_eq_mul] at hupper hlower
    exact impact_round ⟨by rw [le_div_iff₀ hlength]; linarith,
      by rw [div_le_iff₀ hlength]; linarith⟩

end

/-! ### Areas -/

/-- What the result types demand of an area. -/
structure ValidArea (a : AreaScoreResult) : Prop where
  rawScore : ∀ raw ∈ a.rawScore, InScale raw
  contribution : InScale a.weightedContribution
  metrics : ∀ m ∈ a.metrics,
    0 < m.configuredSubruleWeight ∧ InScale m.score ∧ InScale m.appliedWeightPct

theorem inScale_mean {l : List (Nat × ℚ)} (h : ∀ p ∈ l, InScale p.2) :
    InScale (weightedSum l / (totalWeight l : Nat)) := by
  have hlower := le_weightedSum fun p hp => (h p hp).1
  have hupper := weightedSum_le fun p hp => (h p hp).2
  have htotal : (0 : ℚ) ≤ (totalWeight l : Nat) := cast_nonneg _
  rw [mul_zero] at hlower
  exact ⟨div_nonneg hlower htotal, div_le_of_le_mul₀ htotal (by norm_num) (by linarith)⟩

/-- An area's score is a mean of its metrics' scores. -/
theorem rawAreaScore_eq (weighted : List Weighted) : rawAreaScore weighted =
      roundScore (weightedSum (weighted.map fun m => (m.2, m.1.score)) /
        (totalWeight (weighted.map fun m => (m.2, m.1.score)) : Nat)) := by
  have hsum : weightedSum (weighted.map fun m => (m.2, m.1.score)) =
      (weighted.map fun m => m.1.score * (m.2 : ℚ)).sum := by
    simp [weightedSum, comp_def, mul_comm]
  have htotal : totalWeight (weighted.map fun m => (m.2, m.1.score)) =
      (weighted.map Prod.snd).sum := by
    simp [totalWeight, comp_def]
  rw [hsum, htotal]
  rfl

theorem inScale_rawAreaScore {weighted : List Weighted} (h : ValidMetrics weighted) :
    InScale (rawAreaScore weighted) := by
  rw [rawAreaScore_eq]
  refine (inScale_mean fun p hp => ?_).round
  obtain ⟨m, hm, rfl⟩ := mem_map.mp hp
  exact (h m hm).2

/-- The score is at most a hundredth outside any range of the values. -/
def NearRange (values : List ℚ) (score : ℚ) : Prop :=
  ∀ lo hi, (∀ x ∈ values, lo ≤ x ∧ x ≤ hi) → lo - 1 / 100 ≤ score ∧ score ≤ hi + 1 / 100

theorem nearRange_mean {l : List (Nat × ℚ)} (hpos : 0 < totalWeight l) :
    NearRange (l.map Prod.snd) (roundScore (weightedSum l /
      (totalWeight l : Nat))) := by
  intro lo hi h
  have hvalue : ∀ p ∈ l, lo ≤ p.2 ∧ p.2 ≤ hi := fun p hp => h p.2 (mem_map_of_mem hp)
  obtain ⟨hlow, hhigh⟩ := mean_mem hpos (fun p hp => (hvalue p hp).1)
    (fun p hp => (hvalue p hp).2)
  obtain ⟨hdown, hup⟩ := abs_le.mp (abs_roundTo_sub_le (weightedSum l /
    (totalWeight l : Nat)) 2)
  norm_num at hdown hup
  unfold roundScore
  constructor <;> linarith

/-- The score of an area is near the range of the scores of its metrics. -/
def AreaScoreResult.Balanced (a : AreaScoreResult) : Prop :=
  ∀ raw ∈ a.rawScore, NearRange (a.metrics.map RuleMetricResult.score) raw

theorem inScale_part {part whole : ℚ} (hpart : 0 ≤ part) (h : part ≤ whole) :
    InScale (part * 100 / whole) := by
  have hwhole : 0 ≤ whole := hpart.trans h
  exact ⟨div_nonneg (by linarith) hwhole, div_le_of_le_mul₀ hwhole (by norm_num) (by linarith)⟩

theorem valid_appliedMetrics {weighted : List Weighted} (h : ValidMetrics weighted) :
    ∀ m ∈ appliedMetrics weighted,
      0 < m.configuredSubruleWeight ∧ InScale m.score ∧ InScale m.appliedWeightPct := by
  intro applied happlied
  obtain ⟨m, hm, rfl⟩ := mem_map.mp happlied
  have hle : m.2 ≤ (weighted.map Prod.snd).sum :=
    le_sum_of_mem (mem_map.mpr ⟨m, hm, rfl⟩)
  exact ⟨(h m hm).1, (h m hm).2, (inScale_part (cast_nonneg _) (by exact_mod_cast hle)).round⟩

section
variable [PyLibrary] (v : StockRuleEngineInput)

theorem valid_finish (area : RuleEngineArea) {weighted : List Weighted}
    (h : ValidMetrics weighted) (missing : List String) (applicable : Bool) :
    ValidArea (finish v area weighted missing applicable) := by
  have hzero : InScale 0 := by decide
  have hblank : ∀ raw ∈ (none : Option ℚ), InScale raw := fun _ hraw => by cases hraw
  have hempty : ∀ m ∈ ([] : List RuleMetricResult),
      0 < m.configuredSubruleWeight ∧ InScale m.score ∧ InScale m.appliedWeightPct :=
    fun _ hm => by cases hm
  have hweight : ∀ area, areaWeight area ≤ 100 := fun area => by cases area <;> decide
  unfold finish
  dsimp only
  split
  · exact ⟨hblank, hzero, hempty⟩
  split
  · exact ⟨hblank, hzero, hempty⟩
  split
  · exact ⟨hblank, hzero, hempty⟩
  · have hraw := inScale_rawAreaScore h
    refine ⟨fun raw hmem => ?_, ?_, valid_appliedMetrics h⟩
    · cases hmem
      exact hraw
    · have hshare : ((areaWeight area : Nat) : ℚ) ≤ 100 := by exact_mod_cast hweight area
      have hnonneg : (0 : ℚ) ≤ (areaWeight area : Nat) := cast_nonneg _
      refine InScale.round ⟨div_nonneg (mul_nonneg hraw.1 hnonneg) (by norm_num), ?_⟩
      rw [div_le_iff₀ (by norm_num)]
      nlinarith [hraw.1, hraw.2]

omit [PyLibrary] in
theorem ValidArea.withStatus {base : AreaScoreResult} (h : ValidArea base)
    (status : AreaScoreStatus) : ValidArea { base with status } :=
  ⟨h.rawScore, h.contribution, h.metrics⟩

omit [PyLibrary] in
theorem ValidArea.ready {base : AreaScoreResult} (h : ValidArea base)
    (readiness : List ResearchRequirementReadiness) (references : List String) :
    ValidArea (readyWithoutScore base readiness references) :=
  ⟨h.rawScore, h.contribution, h.metrics⟩

/-- Metrics of which one weighs something give a score near their range. -/
theorem balanced_finish (area : RuleEngineArea) {weighted : List Weighted}
    (hpos : 0 < (weighted.map Prod.snd).sum) (missing : List String) (applicable : Bool) :
    (finish v area weighted missing applicable).Balanced := by
  have hblank : ∀ values, ∀ raw ∈ (none : Option ℚ), NearRange values raw := fun _ _ hraw => by
    cases hraw
  unfold finish AreaScoreResult.Balanced
  dsimp only
  split
  · exact hblank _
  split
  · exact hblank _
  split
  · exact hblank _
  · intro raw hraw
    cases hraw
    have hscores : (appliedMetrics weighted).map RuleMetricResult.score =
        (weighted.map fun m => (m.2, m.1.score)).map Prod.snd := by
      rw [appliedMetrics, map_map, map_map]
      rfl
    have htotal : totalWeight (weighted.map fun m => (m.2, m.1.score)) =
        (weighted.map Prod.snd).sum := by
      simp [totalWeight, comp_def]
    rw [hscores, rawAreaScore_eq]
    exact nearRange_mean (htotal ▸ hpos)

/-- The area has the scores `finish` gives some metrics on the scale. -/
inductive Finished : AreaScoreResult → Prop
  | scored (area : RuleEngineArea) {weighted : List Weighted} (h : ValidMetrics weighted)
      (missing : List String) (applicable : Bool) :
      Finished (finish v area weighted missing applicable)
  | withStatus {base : AreaScoreResult} (h : Finished base) (status : AreaScoreStatus) :
      Finished { base with status }
  | ready {base : AreaScoreResult} (h : Finished base)
      (readiness : List ResearchRequirementReadiness) (references : List String) :
      Finished (readyWithoutScore base readiness references)

theorem Finished.valid {a : AreaScoreResult} (h : Finished v a) : ValidArea a := by
  induction h with
  | scored area h missing applicable => exact valid_finish v area h missing applicable
  | withStatus _ status ih => exact ih.withStatus status
  | ready _ readiness references ih => exact ih.ready readiness references

theorem Finished.balanced {a : AreaScoreResult} (h : Finished v a) : a.Balanced := by
  induction h with
  | scored area h missing applicable =>
      rename_i weighted
      cases weighted with
      | nil =>
          -- without metrics there is no score
          intro raw hraw
          unfold finish at hraw
          dsimp only at hraw
          rw [if_pos rfl] at hraw
          split_ifs at hraw <;> cases hraw
      | cons m rest =>
          refine balanced_finish v area ?_ missing applicable
          rw [map_cons, sum_cons]
          exact Nat.add_pos_left (h m mem_cons_self).1 _
  | withStatus _ _ ih => exact ih
  | ready _ _ _ ih => exact ih

theorem finished_balanceSheet {a : AreaScoreResult} (h : balanceSheet v = some a) :
    Finished v a := by
  obtain ⟨readiness, -, rfl⟩ := Option.map_eq_some_iff.mp h
  dsimp only
  split
  · exact Finished.scored _ (valid_lender v) _ _
  · exact Finished.scored _ (valid_corporate v) _ _

theorem finished_catalysts : Finished v (catalysts v) := by
  have hscored : ∀ missing, Finished v (finish v .orderBookCapacityCatalysts
      ((relevantCatalysts v).map fun event => eventMetric event "MATERIAL_CATALYST_EVENT_V1" 1)
      missing true) := fun missing =>
    Finished.scored _ (.map (fun event => valid_event event _ (succ_pos _)) _) _ _
  unfold catalysts
  dsimp only
  split
  · cases hchecked : completedCheckArea v .orderBookCapacityCatalysts catalystCheckPrefix with
    | none => exact hscored _
    | some checked =>
        show Finished v checked
        unfold completedCheckArea at hchecked
        dsimp only at hchecked
        split at hchecked
        · cases hchecked
        split at hchecked
        · cases hchecked
          exact Finished.scored _ .nil _ _
        · cases hchecked
          exact (Finished.scored _ .nil _ _).ready _ _
  · exact hscored _

theorem finished_technicalArea : Finished v (technical v) := by
  unfold technical
  dsimp only
  split
  · exact Finished.scored _ .nil _ _
  · exact Finished.scored _ (valid_technical _) _ _

theorem finished_newsFromEvents : Finished v (newsFromEvents v) := by
  have hscored : ∀ missing, Finished v (finish v .newsGeopoliticalEvents
      ((currentEvents v).map fun event => eventMetric event "CURRENT_EVENT_IMPACT_V1" 1)
      missing true) := fun missing =>
    Finished.scored _ (.map (fun event => valid_event event _ (succ_pos _)) _) _ _
  unfold newsFromEvents
  dsimp only
  split
  · split
    · split
      · exact Finished.scored _ .nil _ _
      · exact (Finished.scored _ .nil _ _).ready _ _
    · exact hscored _
  · exact hscored _

theorem finished_news (hfeatures : ∀ f ∈ v.newsFeatures, f.Valid) : Finished v (news v) := by
  unfold news
  split
  · rename_i impact himpact
    have hmem := aggregateImpact_mem hfeatures himpact
    have hscore : InScale (50 + impact / 2) := ⟨by linarith, by linarith⟩
    dsimp only
    split
    · exact Finished.scored _ (.cons ⟨Nat.one_pos, hscore⟩ .nil) _ _
    · exact (Finished.scored _ (.cons ⟨Nat.one_pos, hscore⟩ .nil) _ _).withStatus _
  · exact finished_newsFromEvents v

theorem finished_shareholdingArea : Finished v (shareholdingArea v) := by
  unfold shareholdingArea
  split
  · exact Finished.scored _ .nil _ _
  dsimp only
  split
  · exact Finished.scored _ .nil _ _
  · exact Finished.scored _ (valid_shareholding _ _) _ _

theorem finished_governanceArea : Finished v (governance v) := by
  unfold governance
  dsimp only
  split
  · exact (Finished.scored _ .nil _ _).ready _ _
  · exact Finished.scored _ (.append (.map valid_governance _) (valid_pledge _)) _ _

theorem finished_areaResults (hfeatures : ∀ f ∈ v.newsFeatures, f.Valid)
    {areas : List AreaScoreResult} (h : areaResults v = some areas) :
    ∀ a ∈ areas, Finished v a := by
  obtain ⟨balance, hbalance, rfl⟩ := Option.map_eq_some_iff.mp h
  intro a ha
  simp only [mem_cons, not_mem_nil, or_false] at ha
  rcases ha with rfl | rfl | rfl | rfl | rfl | rfl | rfl | rfl | rfl | rfl | rfl
  · exact Finished.scored _ (valid_valuation v) _ _
  · exact Finished.scored _ (valid_quality v) _ _
  · exact Finished.scored _ (valid_growth v) _ _
  · exact finished_balanceSheet v hbalance
  · exact Finished.scored _ (valid_quarterly v) _ _
  · exact finished_catalysts v
  · exact finished_technicalArea v
  · exact finished_news v hfeatures
  · exact finished_shareholdingArea v
  · exact finished_governanceArea v
  · exact Finished.scored _ (valid_sectorMacro v) _ _

/-- Every area an evaluation returns is one the result types accept. -/
theorem valid_areaResults (hfeatures : ∀ f ∈ v.newsFeatures, f.Valid)
    {areas : List AreaScoreResult} (h : areaResults v = some areas) :
    ∀ a ∈ areas, ValidArea a := fun a ha => (finished_areaResults v hfeatures h a ha).valid

end

/-! ### Headline scores -/

/-- The raw scores that count with the weights they count with. -/
def counted (areas : List AreaScoreResult) (weight : RuleEngineArea → Nat) : List (Nat × ℚ) :=
  areas.filterMap fun item => item.rawScore.bind fun raw =>
    if item.applicable ∧ weight item.area ≠ 0 then some (weight item.area, raw) else none

theorem weightedScore_eq (areas : List AreaScoreResult) (weight : RuleEngineArea → Nat) :
    weightedScore areas weight = if totalWeight (counted areas weight) = 0 then none
      else some (roundScore (weightedSum (counted areas weight) /
        (totalWeight (counted areas weight) : Nat))) := by
  have hincluded : (areas.filterMap fun item => item.rawScore.bind fun raw =>
      if item.applicable ∧ weight item.area ≠ 0 then some (raw, weight item.area) else none) =
      (counted areas weight).map Prod.swap := by
    rw [counted, map_filterMap]
    congr 1
    funext item
    cases item.rawScore with
    | none => rfl
    | some raw => by_cases h : item.applicable ∧ weight item.area ≠ 0 <;> simp [h]
  unfold weightedScore
  rw [hincluded]
  simp [totalWeight, weightedSum, comp_def, mul_comm]

theorem inScale_weightedScore {areas : List AreaScoreResult} (h : ∀ a ∈ areas, ValidArea a)
    (weight : RuleEngineArea → Nat) : ∀ score ∈ weightedScore areas weight, InScale score := by
  have hcounted : ∀ p ∈ counted areas weight, InScale p.2 := by
    intro p hp
    obtain ⟨a, ha, hbind⟩ := mem_filterMap.mp hp
    obtain ⟨raw, hraw, hsome⟩ := Option.bind_eq_some_iff.mp hbind
    split at hsome
    · cases hsome
      exact (h a ha).rawScore raw hraw
    · cases hsome
  intro score hscore
  rw [weightedScore_eq] at hscore
  split at hscore
  · cases hscore
  · cases hscore
    exact (inScale_mean hcounted).round

/-- A headline score is near the range of the scores that count. -/
theorem nearRange_weightedScore (areas : List AreaScoreResult) (weight : RuleEngineArea → Nat) :
    ∀ score ∈ weightedScore areas weight,
      NearRange ((counted areas weight).map Prod.snd) score := by
  intro score hscore
  rw [weightedScore_eq] at hscore
  split at hscore
  · cases hscore
  · rename_i hne
    cases hscore
    exact nearRange_mean (Nat.pos_of_ne_zero hne)

/-- The area has a score that counts. -/
def Scorable (a : AreaScoreResult) : Prop := a.applicable = true ∧ a.rawScore.isSome

theorem weightedScore_isNone (areas : List AreaScoreResult) :
    weightedScore areas areaWeight = none ↔ ∀ a ∈ areas, ¬ Scorable a := by
  have hweight : ∀ area, areaWeight area ≠ 0 := fun area => by cases area <;> decide
  rw [weightedScore_eq]
  constructor
  · intro h a ha hscorable
    obtain ⟨raw, hraw⟩ := Option.isSome_iff_exists.mp hscorable.2
    have hmem : (areaWeight a.area, raw) ∈ counted areas areaWeight :=
      mem_filterMap.mpr ⟨a, ha, by simp [hraw, hscorable.1, hweight]⟩
    have hle : areaWeight a.area ≤ totalWeight (counted areas areaWeight) :=
      le_sum_of_mem (mem_map.mpr ⟨_, hmem, rfl⟩)
    have hpos := Nat.pos_of_ne_zero (hweight a.area)
    rw [if_neg (by omega)] at h
    cases h
  · intro h
    have hnil : counted areas areaWeight = [] := by
      refine filterMap_eq_nil_iff.mpr fun a ha => ?_
      cases hraw : a.rawScore with
      | none => rfl
      | some raw =>
          have hnot : ¬ a.applicable = true := fun happlicable =>
            h a ha ⟨happlicable, by rw [hraw]; rfl⟩
          simp [hnot]
    rw [hnil]
    rfl

theorem inScale_confidence (readiness : ResearchReadinessResult) :
    InScale (confidenceScore readiness) := (inScale_clamp _).round

end InvestmentPlatform.Rules
