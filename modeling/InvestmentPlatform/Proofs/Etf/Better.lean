/-
Better evidence never scores lower.

Two inputs with the same evidence, where every value of the one is as good as the other's, have
their scores factor by factor in that order, and so their overall scores.
-/
import InvestmentPlatform.Proofs.Etf.Scores

namespace InvestmentPlatform.Etf

open Piecewise (piecewise Rising Falling)
open WeightedMean List Option

/-! ### Optional values -/

section
variable {α β γ δ : Type}

theorem rel_map {r : α → β → Prop} {s : γ → δ → Prop} {f : α → γ} {g : β → δ} {a : Option α}
    {b : Option β} (h : Option.Rel r a b) (hfg : ∀ x y, r x y → s (f x) (g y)) :
    Option.Rel s (a.map f) (b.map g) := by
  cases h with
  | none => exact Option.Rel.none
  | some h => exact Option.Rel.some (hfg _ _ h)

theorem rel_filter {r : α → β → Prop} {p : α → Bool} {q : β → Bool} {a : Option α} {b : Option β}
    (h : Option.Rel r a b) (hpq : ∀ x y, r x y → p x = q y) :
    Option.Rel r (a.filter p) (b.filter q) := by
  cases h with
  | none => exact Option.Rel.none
  | @some x y h =>
      rw [filter_some, filter_some, hpq x y h]
      split
      · exact Option.Rel.some h
      · exact Option.Rel.none

theorem rel_toList {r : α → β → Prop} {a : Option α} {b : Option β} (h : Option.Rel r a b) :
    Forall₂ r a.toList b.toList := by
  cases h with
  | none => exact Forall₂.nil
  | some h => exact Forall₂.cons h Forall₂.nil

theorem forall₂_filterMap_rel {r : β → γ → Prop} {f : α → Option β} {g : α → Option γ}
    (l : List α) (h : ∀ a ∈ l, Option.Rel r (f a) (g a)) :
    Forall₂ r (l.filterMap f) (l.filterMap g) := by
  have hself : Forall₂ (fun a b => a = b ∧ a ∈ l) l l :=
    forall₂_same.mpr fun a ha => ⟨rfl, ha⟩
  refine rel_filterMap ?_ hself
  rintro a _ ⟨rfl, ha⟩
  exact h a ha

end

/-! ### The points of the factors -/

theorem piecewise_inRange {points : List (ℚ × ℚ)} (hne : points ≠ [])
    (hpoints : ∀ p ∈ points, 0 ≤ p.2 ∧ p.2 ≤ 100) (value : ℚ) :
    InRange (piecewise value points) :=
  ⟨Piecewise.le_piecewise hne (fun p hp => (hpoints p hp).1) value,
    Piecewise.piecewise_le hne (fun p hp => (hpoints p hp).2) value⟩

theorem returnPoints_rising : Rising returnPoints := by decide

theorem momentumPoints_rising : Rising momentumPoints := by decide

theorem drawdownPoints_rising : Rising drawdownPoints := by decide

theorem volumePoints_rising : Rising volumePoints := by decide

theorem volatilityPoints_falling : Falling volatilityPoints := by decide

theorem spreadPoints_falling : Falling spreadPoints := by decide

theorem trackingPoints_falling : Falling trackingPoints := by decide

theorem costPoints_falling : Falling costPoints := by
  refine ⟨cons_ne_nil _ _, ?_⟩
  unfold costPoints
  norm_num

theorem premiumPoints_falling : Falling premiumPoints := by decide

/-! ### Scores from 0 to 100 -/

theorem components_inRange {values : Option ℚ × Option ℚ} {score₁ score₂ : ℚ → ℚ}
    (h₁ : ∀ value, InRange (score₁ value)) (h₂ : ∀ value, InRange (score₂ value)) :
    ∀ score ∈ components values score₁ score₂, InRange score := by
  intro score hscore
  rcases mem_append.mp hscore with hscore | hscore
  · obtain ⟨value, -, rfl⟩ := map_eq_some_iff.mp (mem_toList.mp hscore)
    exact h₁ value
  · obtain ⟨value, -, rfl⟩ := map_eq_some_iff.mp (mem_toList.mp hscore)
    exact h₂ value

theorem momentumScore_inRange (metrics : EtfDeterministicMetrics) :
    ∀ score ∈ momentumScore metrics, InRange score := by
  refine average_inRange fun score hscore => ?_
  rcases mem_append.mp hscore with hscore | hscore
  · obtain ⟨value, -, rfl⟩ := mem_map.mp hscore
    exact piecewise_inRange (by decide) (by decide) value
  · obtain ⟨value, -, rfl⟩ := map_eq_some_iff.mp (mem_toList.mp hscore)
    exact piecewise_inRange (by decide) (by decide) value

theorem diversificationScore_inRange (data : EtfRuleEngineInput) :
    ∀ score ∈ diversificationScore data, InRange score := by
  intro score hscore
  unfold diversificationScore scoreDiversification at hscore
  split at hscore
  · cases hscore
  · dsimp only at hscore
    split at hscore
    · cases hscore
    · cases hscore
      exact piecewise_inRange (by decide) (by decide) _

theorem totalWeight_counted_le (scores : List (EtfRuleEngineFactor × Option ℚ)) :
    totalWeight (counted scores) ≤ (scores.map fun p => weight p.1).sum := by
  induction scores with
  | nil => exact le_refl _
  | cons p scores ih =>
      obtain ⟨factor, score⟩ := p
      rw [map_cons, sum_cons]
      cases score with
      | none => exact ih.trans (Nat.le_add_left _ _)
      | some score =>
          have hcons : totalWeight (counted ((factor, some score) :: scores)) =
              weight factor + totalWeight (counted scores) := totalWeight_cons _ _
          rw [hcons]
          exact Nat.add_le_add_left ih _

theorem coverage_inRange (data : EtfRuleEngineInput) : InRange (coverage data) := by
  have hle : totalWeight (counted (evidenceScores data)) ≤ 95 :=
    totalWeight_counted_le (evidenceScores data)
  have hcast : (totalWeight (counted (evidenceScores data)) : ℚ) ≤ 95 := by exact_mod_cast hle
  have hnonneg : (0 : ℚ) ≤ (totalWeight (counted (evidenceScores data)) : ℚ) :=
    Nat.cast_nonneg _
  unfold coverage
  constructor
  · positivity
  · rw [div_le_iff₀ (by norm_num)]
    linarith

/-- Every score there is lies between 0 and 100. -/
theorem allScores_inRange (data : EtfRuleEngineInput) :
    ∀ p ∈ allScores data, ∀ score ∈ p.2, InRange score := by
  intro p hp
  unfold allScores evidenceScores at hp
  simp only [cons_append, nil_append, mem_cons, not_mem_nil, or_false] at hp
  rcases hp with rfl | rfl | rfl | rfl | rfl | rfl | rfl | rfl
  · exact momentumScore_inRange _
  · exact average_inRange (components_inRange
      (piecewise_inRange (by decide) (by decide)) (piecewise_inRange (by decide) (by decide)))
  · exact average_inRange (components_inRange
      (piecewise_inRange (by decide) (by decide)) (piecewise_inRange (by decide) (by decide)))
  · exact average_inRange (components_inRange (piecewise_inRange (by decide) (by decide))
      fun value => piecewise_inRange (by decide) (by decide) |value|)
  · intro score hscore
    obtain ⟨fact, -, rfl⟩ := map_eq_some_iff.mp hscore
    exact piecewise_inRange (by decide) (by decide) _
  · intro score hscore
    obtain ⟨values, -, rfl⟩ := map_eq_some_iff.mp hscore
    exact piecewise_inRange (by decide) (by decide) _
  · exact diversificationScore_inRange data
  · intro score hscore
    cases hscore
    exact coverage_inRange data

/-! ### No worse evidence -/

/-- A value of the metric that is as good as another. -/
def EtfMetricId.NoWorse (metric : EtfMetricId) (value value' : ℚ) : Prop :=
  if metric = .annualizedVolatility then value' ≤ value else value ≤ value'

/-- The same fact, with a value that `r` relates to the other one. -/
def SameFact (r : ℚ → ℚ → Prop) (fact fact' : EtfFact) : Prop :=
  fact'.asOfDate = fact.asOfDate ∧ fact'.unit = fact.unit ∧ r fact.value fact'.value

/-- The same evidence, every value of which is as good: higher returns, momentum, drawdowns, volume
or assets, a lower volatility, spread, tracking error, tracking difference, expense ratio or
premium, each but for its sign. -/
structure NoWorse (data data' : EtfRuleEngineInput) : Prop where
  readinessSummary : data'.readinessSummary = data.readinessSummary
  now : data'.now = data.now
  holdings : data'.holdings = data.holdings
  asOfDate : data'.metrics.asOfDate = data.metrics.asOfDate
  metrics : ∀ metric : EtfMetricId,
    Option.Rel metric.NoWorse (data.metrics.get metric) (data'.metrics.get metric)
  tradingVolume : Option.Rel (SameFact (· ≤ ·)) data.tradingVolumeFact data'.tradingVolumeFact
  bidAskSpread : Option.Rel (SameFact (· ≥ ·)) data.bidAskSpreadFact data'.bidAskSpreadFact
  trackingError : Option.Rel (SameFact (· ≥ ·)) data.trackingErrorFact data'.trackingErrorFact
  trackingDifference : Option.Rel (SameFact fun value value' => |value'| ≤ |value|)
    data.trackingDifferenceFact data'.trackingDifferenceFact
  expenseRatio : Option.Rel (SameFact (· ≥ ·)) data.expenseRatioFact data'.expenseRatioFact
  aum : Option.Rel (SameFact (· ≤ ·)) data.aumFact data'.aumFact
  nav : Option.Rel (fun nav nav' => nav'.navDate = nav.navDate ∧ nav'.currency = nav.currency ∧
    (nav'.nav = 0 ↔ nav.nav = 0)) data.nav data'.nav
  marketPrice : Option.Rel (SameFact fun _ _ => True) data.marketPriceFact data'.marketPriceFact
  premium : ∀ nav ∈ data.nav, ∀ price ∈ data.marketPriceFact, ∀ nav' ∈ data'.nav,
    ∀ price' ∈ data'.marketPriceFact, |premium nav' price'| ≤ |premium nav price|

section
variable {data data' : EtfRuleEngineInput} {r : ℚ → ℚ → Prop}

/-- Fresh is a matter of the date, not of the value. -/
theorem freshFact_rel {fact fact' : Option EtfFact} (h : Option.Rel (SameFact r) fact fact')
    (metric : EtfMetric) (now : Date) :
    Option.Rel (SameFact r) (freshFact fact metric now) (freshFact fact' metric now) := by
  refine rel_filter h ?_
  rintro fact fact' ⟨hdate, -, -⟩
  rw [hdate]

theorem freshValue_rel {fact fact' : Option EtfFact} (h : Option.Rel (SameFact r) fact fact')
    (metric : EtfMetric) (now : Date) :
    Option.Rel r ((freshFact fact metric now).map EtfFact.value)
      ((freshFact fact' metric now).map EtfFact.value) :=
  rel_map (freshFact_rel h metric now) fun _ _ hsame => hsame.2.2

section

variable (h : NoWorse data data')
include h

theorem NoWorse.current (metric : EtfMetricId) :
    Option.Rel metric.NoWorse ((currentMetrics data).get metric)
      ((currentMetrics data').get metric) := by
  unfold currentMetrics
  rw [h.asOfDate, h.now]
  split
  · exact Option.Rel.none
  · split
    · exact h.metrics metric
    · exact Option.Rel.none

/-- Where a metric is better higher. -/
theorem NoWorse.higher {metric : EtfMetricId} (hmetric : metric ≠ .annualizedVolatility) :
    Option.Rel (· ≤ ·) ((currentMetrics data).get metric) ((currentMetrics data').get metric) := by
  have hcurrent := h.current metric
  have hnoWorse : metric.NoWorse = fun value value' => value ≤ value' := by
    funext value value'
    exact if_neg hmetric
  rw [hnoWorse] at hcurrent
  exact hcurrent

theorem NoWorse.freshNav :
    Option.Rel (fun nav nav' => nav'.navDate = nav.navDate ∧ nav'.currency = nav.currency ∧
      (nav'.nav = 0 ↔ nav.nav = 0)) data.freshNav data'.freshNav := by
  unfold EtfRuleEngineInput.freshNav
  rw [h.now]
  refine rel_filter h.nav ?_
  rintro nav nav' ⟨hdate, -, -⟩
  rw [hdate]

theorem NoWorse.freshPrice :
    Option.Rel (SameFact fun _ _ => True) data.freshPrice data'.freshPrice := by
  unfold EtfRuleEngineInput.freshPrice
  rw [h.now]
  exact freshFact_rel h.marketPrice .marketPrice data.now

/-- The two premiums, in the same currencies. -/
theorem NoWorse.quoted : Option.Rel (fun values values' => |Etf.premium values'.1 values'.2| ≤
        |Etf.premium values.1 values.2| ∧ sameCurrency values = sameCurrency values')
      (Etf.quoted data) (Etf.quoted data') := by
  have hnav := h.freshNav
  have hprice := h.freshPrice
  -- what is fresh is there
  have hthere : ∀ nav ∈ data.freshNav, nav ∈ data.nav := fun nav hmem =>
    (filter_eq_some_iff.mp hmem).1
  have hthere' : ∀ nav ∈ data'.freshNav, nav ∈ data'.nav := fun nav hmem =>
    (filter_eq_some_iff.mp hmem).1
  have hpriced : ∀ price ∈ data.freshPrice, price ∈ data.marketPriceFact := fun price hmem =>
    (filter_eq_some_iff.mp hmem).1
  have hpriced' : ∀ price ∈ data'.freshPrice, price ∈ data'.marketPriceFact := fun price hmem =>
    (filter_eq_some_iff.mp hmem).1
  unfold Etf.quoted
  generalize data.freshNav = navs at hnav hthere ⊢
  generalize data'.freshNav = navs' at hnav hthere' ⊢
  generalize data.freshPrice = prices at hprice hpriced ⊢
  generalize data'.freshPrice = prices' at hprice hpriced' ⊢
  cases hnav with
  | none => exact Option.Rel.none
  | @some nav nav' hsame =>
      cases hprice with
      | none => exact Option.Rel.none
      | @some price price' hsame' =>
          obtain ⟨hdate, hcurrency, hzero⟩ := hsame
          obtain ⟨hdate', hunit, -⟩ := hsame'
          have hcond : (nav.nav ≠ 0 ∧ some nav.navDate = price.asOfDate) ↔
              (nav'.nav ≠ 0 ∧ some nav'.navDate = price'.asOfDate) := by
            rw [hdate, hdate', ne_eq, ne_eq, hzero]
          rw [bind_some, bind_some, bind_some, bind_some]
          by_cases hquoted : nav.nav ≠ 0 ∧ some nav.navDate = price.asOfDate
          · rw [if_pos hquoted, if_pos (hcond.mp hquoted)]
            refine Option.Rel.some ⟨h.premium nav (hthere nav rfl) price (hpriced price rfl) nav'
              (hthere' nav' rfl) price' (hpriced' price' rfl), ?_⟩
            unfold sameCurrency
            rw [hcurrency, hunit]
          · rw [if_neg hquoted, if_neg (mt hcond.mpr hquoted)]
            exact Option.Rel.none

end

/-! ### Scores in order -/

theorem average_components_rel {values values' : Option ℚ × Option ℚ} {score₁ score₂ : ℚ → ℚ}
    {r₁ r₂ : ℚ → ℚ → Prop} (h₁ : Option.Rel r₁ values.1 values'.1)
    (h₂ : Option.Rel r₂ values.2 values'.2)
    (hscore₁ : ∀ value value', r₁ value value' → score₁ value ≤ score₁ value')
    (hscore₂ : ∀ value value', r₂ value value' → score₂ value ≤ score₂ value') :
    Option.Rel (· ≤ ·) (average (components values score₁ score₂))
      (average (components values' score₁ score₂)) :=
  average_rel (rel_append (rel_toList (rel_map h₁ hscore₁)) (rel_toList (rel_map h₂ hscore₂)))

section

variable (h : NoWorse data data')
include h

theorem NoWorse.momentumScore : Option.Rel (· ≤ ·) (momentumScore (currentMetrics data))
      (momentumScore (currentMetrics data')) := by
  have hreturns : Forall₂ (· ≤ ·) (returnsOf (currentMetrics data))
      (returnsOf (currentMetrics data')) := by
    refine forall₂_filterMap_rel _ fun metric hmetric => h.higher ?_
    rintro rfl
    revert hmetric
    decide
  refine average_rel (rel_append ?_ ?_)
  · rw [forall₂_map_left_iff, forall₂_map_right_iff]
    exact hreturns.imp fun _ _ hle => returnPoints_rising.piecewise_mono hle
  · exact rel_toList (rel_map (h.higher (by decide)) fun _ _ hle =>
      momentumPoints_rising.piecewise_mono hle)

theorem NoWorse.riskScore :
    Option.Rel (· ≤ ·) (riskScore (currentMetrics data)) (riskScore (currentMetrics data')) :=
  average_components_rel (h.higher (by decide)) (h.current .annualizedVolatility)
    (fun _ _ hle => drawdownPoints_rising.piecewise_mono hle)
    fun _ _ hle => volatilityPoints_falling.piecewise_anti hle

theorem NoWorse.liquidityScore :
    Option.Rel (· ≤ ·) (liquidityScore data) (liquidityScore data') := by
  unfold Etf.liquidityScore
  rw [h.now]
  exact average_components_rel (freshValue_rel h.tradingVolume _ _)
    (freshValue_rel h.bidAskSpread _ _)
    (fun _ _ hle => volumePoints_rising.piecewise_mono hle)
    fun _ _ hle => spreadPoints_falling.piecewise_anti hle

theorem NoWorse.trackingScore : Option.Rel (· ≤ ·) (trackingScore data) (trackingScore data') := by
  unfold Etf.trackingScore
  rw [h.now]
  exact average_components_rel (freshValue_rel h.trackingError _ _)
    (freshValue_rel h.trackingDifference _ _)
    (fun _ _ hle => trackingPoints_falling.piecewise_anti hle)
    fun _ _ hle => trackingPoints_falling.piecewise_anti hle

theorem NoWorse.costScore : Option.Rel (· ≤ ·) (costScore data) (costScore data') := by
  unfold Etf.costScore
  rw [h.now]
  exact rel_map (freshFact_rel h.expenseRatio _ _) fun _ _ hsame =>
    costPoints_falling.piecewise_anti hsame.2.2

theorem NoWorse.premiumScore : Option.Rel (· ≤ ·) (premiumScore data) (premiumScore data') :=
  rel_map (rel_filter h.quoted fun _ _ hsame => hsame.2) fun _ _ hsame =>
    premiumPoints_falling.piecewise_anti hsame.1

theorem NoWorse.diversificationScore : diversificationScore data' = diversificationScore data := by
  unfold Etf.diversificationScore scoreDiversification
  rw [h.holdings, h.now]

end

/-- The same factor, with a score that is at least as high. -/
def NoLower (p p' : EtfRuleEngineFactor × Option ℚ) : Prop :=
  p.1 = p'.1 ∧ Option.Rel (· ≤ ·) p.2 p'.2

theorem rel_refl (score : Option ℚ) : Option.Rel (· ≤ ·) score score := by
  cases score with
  | none => exact Option.Rel.none
  | some score => exact Option.Rel.some (le_refl score)

theorem NoWorse.evidenceScores (h : NoWorse data data') :
    Forall₂ NoLower (evidenceScores data) (evidenceScores data') :=
  .cons ⟨rfl, h.momentumScore⟩ (.cons ⟨rfl, h.riskScore⟩ (.cons ⟨rfl, h.liquidityScore⟩
    (.cons ⟨rfl, h.trackingScore⟩ (.cons ⟨rfl, h.costScore⟩ (.cons ⟨rfl, h.premiumScore⟩
      (.cons ⟨rfl, h.diversificationScore ▸ rel_refl _⟩ .nil))))))

theorem counted_below {scores scores' : List (EtfRuleEngineFactor × Option ℚ)}
    (h : Forall₂ NoLower scores scores') : Below (counted scores) (counted scores') := by
  induction h with
  | nil => exact Forall₂.nil
  | @cons p p' scores scores' hhead _ ih =>
      obtain ⟨factor, score⟩ := p
      obtain ⟨factor', score'⟩ := p'
      obtain ⟨hfactor, hscore⟩ := hhead
      dsimp only at hfactor hscore
      subst hfactor
      cases hscore with
      | none => exact ih
      | some hle => exact Forall₂.cons ⟨rfl, hle⟩ ih

/-- The same weight of the evidence is there. -/
theorem NoWorse.totalWeight (h : NoWorse data data') :
    totalWeight (counted (allScores data)) = totalWeight (counted (allScores data')) := by
  have hevidence := (counted_below h.evidenceScores).totalWeight_eq
  unfold allScores counted at *
  rw [filterMap_append, filterMap_append]
  unfold WeightedMean.totalWeight at *
  rw [map_append, map_append, sum_append, sum_append, hevidence]
  rfl

theorem NoWorse.allScores (h : NoWorse data data') :
    Forall₂ NoLower (allScores data) (allScores data') := by
  have hcoverage : coverage data = coverage data' := by
    unfold coverage
    rw [(counted_below h.evidenceScores).totalWeight_eq]
  exact rel_append h.evidenceScores (.cons ⟨rfl, hcoverage ▸ rel_refl _⟩ .nil)

/-- **Better evidence never scores lower.** -/
theorem NoWorse.overall_le (h : NoWorse data data') : overall data ≤ overall data' :=
  (counted_below h.allScores).mean_le

end

end InvestmentPlatform.Etf
