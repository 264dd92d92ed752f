/-
Piecewise scoring: monotone, and bounded up to its roundings.

Between ascending breakpoints `_piecewise` is the interpolation rounded to hundredths.  Rounding keeps
the order, so the score rises and falls with the ordinates, and what it is held between is the
ordinates as they are rounded: an ordinate finer than a hundredth is not attained.  Each of the two
weighted means above it rounds once, which moves it out of the range of its parts by half a hundredth
at most.
-/
import InvestmentPlatform.Proofs.Rules.Safety

namespace InvestmentPlatform.Rules

open PyLibrary

/-- What a list of breakpoints gives. -/
structure SoundBreakpoints (points : List (ℚ × ℚ)) : Prop where
  /-- The score is the rounded interpolation. -/
  value : ∀ v, piecewise v points = roundScore (Piecewise.piecewise v points)
  /-- The fallback is not reached: what lies inside has a segment. -/
  covered : ∀ v, (∃ first ∈ points.head?, v ≤ first.1) ∨ (∃ last ∈ points.getLast?, last.1 ≤ v) ∨
    ∃ segment ∈ points.zip points.tail, segment.1.1 ≤ v ∧ v ≤ segment.2.1
  bounded : ∀ lo hi, (∀ p ∈ points, lo ≤ p.2 ∧ p.2 ≤ hi) → ∀ v,
    roundScore lo ≤ piecewise v points ∧ piecewise v points ≤ roundScore hi
  breakpoint : ∀ p ∈ points, piecewise p.1 points = roundScore p.2
  rises : (points.Pairwise fun p q => p.2 ≤ q.2) → ∀ v w, v ≤ w →
    piecewise v points ≤ piecewise w points
  falls : (points.Pairwise fun p q => q.2 ≤ p.2) → ∀ v w, v ≤ w →
    piecewise w points ≤ piecewise v points

theorem covered_of_ascending {points : List (ℚ × ℚ)} (h : Piecewise.Ascending points) (v : ℚ) :
    (∃ first ∈ points.head?, v ≤ first.1) ∨ (∃ last ∈ points.getLast?, last.1 ≤ v) ∨
      ∃ segment ∈ points.zip points.tail, segment.1.1 ≤ v ∧ v ≤ segment.2.1 := by
  obtain ⟨first, rest, rfl⟩ := List.exists_cons_of_ne_nil h.1
  by_cases hfirst : v ≤ first.1
  · exact Or.inl ⟨first, rfl, hfirst⟩
  by_cases hlast : ((first :: rest).getLast h.1).1 ≤ v
  · exact Or.inr (Or.inl ⟨_, List.getLast?_eq_some_getLast h.1, hlast⟩)
  · exact Or.inr (Or.inr (segment_of_between h (not_le.mp hfirst) (not_le.mp hlast)))

theorem soundBreakpoints {points : List (ℚ × ℚ)} (h : Piecewise.Ascending points) :
    SoundBreakpoints points where
  value := piecewise_eq h
  covered := covered_of_ascending h
  bounded lo hi hbounds v := by
    rw [piecewise_eq h]
    constructor
    · exact PyFloat.roundTo_mono 2 (Piecewise.le_piecewise h.1 (fun p hp => (hbounds p hp).1) v)
    · exact PyFloat.roundTo_mono 2 (Piecewise.piecewise_le h.1 (fun p hp => (hbounds p hp).2) v)
  breakpoint p hp := by rw [piecewise_eq h, h.piecewise_of_mem hp]
  rises hrise v w hle := by
    have hrising : Piecewise.Rising points := ⟨h.1, h.2.and hrise⟩
    rw [piecewise_eq h, piecewise_eq h]
    exact PyFloat.roundTo_mono 2 (hrising.piecewise_mono hle)
  falls hfall v w hle := by
    have hfalling : Piecewise.Falling points := ⟨h.1, h.2.and hfall⟩
    rw [piecewise_eq h, piecewise_eq h]
    exact PyFloat.roundTo_mono 2 (hfalling.piecewise_anti hle)

/-- The ordinates of the tables have no more than two decimals. -/
theorem roundScore_ordinate : ∀ points ∈ scoreTables, ∀ p ∈ points, roundScore p.2 = p.2 := by
  decide +kernel

section
variable [PyLibrary]

/-- The areas of a result are those evaluated. -/
theorem balanced_evaluate {v : StockRuleEngineInput} (hfeatures : ∀ f ∈ v.newsFeatures, f.Valid)
    {allowPartial : Bool} {r : StockRuleEngineResult} (h : evaluate v allowPartial = some r) :
    r.Scaled ∧ ∀ a ∈ r.areaScores, a.Balanced := by
  obtain ⟨areas, hareas, hr⟩ := Option.bind_eq_some_iff.mp h
  refine ⟨scaled (valid_areaResults v hfeatures hareas) hr, fun a ha => ?_⟩
  rw [(assembled hr).listed] at ha
  exact (finished_areaResults v hfeatures hareas a ha).balanced

/-- **Piecewise scoring.**  Ascending breakpoints give a score between their rounded ordinates that
follows their order, an area's score and a weighted score are near the range of the scores they are
made of, and every score of a result is on the scale. -/
theorem piecewise_scoring :
    (∀ points, Piecewise.Ascending points → SoundBreakpoints points) ∧
    (∀ points ∈ scoreTables, Piecewise.Ascending points ∧ ∀ p ∈ points, roundScore p.2 = p.2) ∧
    (∀ v area weighted missing applicable, 0 < (weighted.map Prod.snd).sum →
      (finish v area weighted missing applicable).Balanced) ∧
    (∀ areas weight, ∀ score ∈ weightedScore areas weight,
      NearRange ((counted areas weight).map Prod.snd) score) ∧
    ∀ v : StockRuleEngineInput, (∀ f ∈ v.newsFeatures, f.Valid) → ∀ allowPartial r,
      evaluate v allowPartial = some r → r.Scaled ∧ ∀ a ∈ r.areaScores, a.Balanced := by
  refine ⟨fun points h => soundBreakpoints h, fun points h => ?_, ?_, nearRange_weightedScore, ?_⟩
  · exact ⟨ascending_of_mem points h, roundScore_ordinate points h⟩
  · intro v area weighted missing applicable hpos
    exact balanced_finish v area hpos missing applicable
  · intro v hfeatures allowPartial r h
    exact balanced_evaluate hfeatures h

end

section
attribute [local instance] asciiLibrary

/-- More growth is not scored lower, and the evaluation of the revoked licence is on the scale. -/
theorem piecewise_scoring_growth : growthScore (-5) ≤ growthScore 5 ∧
    ∃ r, evaluate revokedOnly true = some r ∧ r.Scaled ∧ ∀ a ∈ r.areaScores, a.Balanced := by
  have hgrowth : Piecewise.Ascending [(-30, 5), (-10, 25), (0, 45), (10, 65), (20, 80),
      ((40 : ℚ), (95 : ℚ))] := by decide +kernel
  have hrise : [(-30, 5), (-10, 25), (0, 45), (10, 65), (20, 80),
      ((40 : ℚ), (95 : ℚ))].Pairwise fun p q => p.2 ≤ q.2 := by decide +kernel
  have hsome : (evaluate revokedOnly true).isSome = true := by rfl
  obtain ⟨r, hr⟩ := Option.isSome_iff_exists.mp hsome
  exact ⟨(piecewise_scoring.1 _ hgrowth).rises hrise _ _ (by norm_num), r, hr,
    piecewise_scoring.2.2.2.2 revokedOnly revokedOnly_valid true r hr⟩

end

/-- Two ordinates of a thousandth give a score of nought, which is below both of them. -/
theorem ordinate_rounded_away : ¬ ∀ points : List (ℚ × ℚ), 2 ≤ points.length →
    Piecewise.Ascending points → ∀ lo hi, (∀ p ∈ points, lo ≤ p.2 ∧ p.2 ≤ hi) → ∀ v,
      lo ≤ piecewise v points ∧ piecewise v points ≤ hi := by
  intro h
  have hascending : Piecewise.Ascending [((0 : ℚ), (1 / 1000 : ℚ)), (1, 1 / 1000)] := by
    decide +kernel
  have hlow := (h [(0, 1 / 1000), (1, 1 / 1000)] (by decide) hascending (1 / 1000) (1 / 1000)
    (by decide +kernel) 0).1
  have hzero : piecewise 0 [(0, 1 / 1000), (1, 1 / 1000)] = 0 := by decide +kernel
  rw [hzero] at hlow
  norm_num at hlow

end InvestmentPlatform.Rules
