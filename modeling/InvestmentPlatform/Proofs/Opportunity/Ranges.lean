/-
The order of the price levels.

Before they are rounded the levels of a plan are in order, and rounding keeps a weak order.  It
does not keep a strict one, and it does not keep a level below a number that is not rounded: a
small level rounds to zero, the upper end of the entry zone may round above the current price, and
the invalidation may round to the target.
-/
import InvestmentPlatform.Opportunity.Engine
import Mathlib.Data.List.ReduceOption

namespace InvestmentPlatform.Opportunity

open PyFloat Option List

/-! ### What is asked of the levels -/

/-- The values that are given do not fall. -/
def Rises (levels : List (Option ℚ)) : Prop := levels.reduceOption.Pairwise (· ≤ ·)

def Positive (levels : List (Option ℚ)) : Prop := ∀ v ∈ levels.reduceOption, 0 < v

/-- A horizon that `lifecycle` reports invalidated is not at its target as well. -/
def NeverBoth (invalidation target : Option ℚ) : Prop :=
  ∀ reviewing low high p, zone reviewing invalidation low high target (some p) = .invalidated →
    ¬ Truthy target (· ≤ p)

structure ShortOrdered (l : Levels ℚ) (price : Option ℚ) : Prop where
  positive : Positive [l.shortInvalidation, l.shortEntryLow, l.shortEntryHigh, l.shortTarget1,
    l.shortTarget2]
  entry : Rises [l.shortInvalidation, l.shortEntryLow, l.shortEntryHigh]
  price : ∀ high, l.shortEntryHigh = some high → ∀ p, price = some p → high ≤ p
  targets : Rises [l.shortEntryHigh, l.shortTarget1, l.shortTarget2]
  never : NeverBoth l.shortInvalidation l.shortTarget1

structure LongOrdered (l : Levels ℚ) : Prop where
  positive : Positive [l.longInvalidation, l.longEntryLow, l.longEntryHigh, l.longFairValue,
    l.longTarget]
  rises : Rises [l.longInvalidation, l.longEntryLow, l.longEntryHigh, l.longFairValue,
    l.longTarget]
  never : NeverBoth l.longInvalidation l.longTarget

/-! ### When rounding keeps them -/

/-- There is a short-term plan: the price is between support and resistance. -/
structure ShortPlan (s : Snapshot ℚ) (p support resistance : ℚ) : Prop where
  priced : truthy s.currentPrice = some p
  supported : truthy s.evidence.technical.supportLevel = some support
  resisted : truthy s.evidence.technical.resistanceLevel = some resistance
  between : 0 < support ∧ support ≤ p ∧ p < resistance

structure LongPlan (s : Snapshot ℚ) (fair : ℚ) : Prop where
  valued : truthy s.evidence.valuation.fairValue = some fair
  positive : 0 < fair

/-- The range of a day, where it is below the support. -/
def TrueRange (s : Snapshot ℚ) (support atr : ℚ) : Prop :=
  truthy s.evidence.technical.atr14 = some atr ∧ 0 < atr ∧ atr < support

def Invalidated (s : Snapshot ℚ) (fair invalidation : ℚ) : Prop :=
  truthy s.evidence.valuation.invalidation = some invalidation ∧ 0 < invalidation ∧
    invalidation < fair * 0.8

def Bullish (s : Snapshot ℚ) (fair bull : ℚ) : Prop :=
  truthy s.evidence.valuation.bullTarget = some bull ∧ fair ≤ bull

/-- No level is so small that it rounds to zero, the entry zone does not round above the price, and
no invalidation rounds to its target. -/
structure Roundable (s : Snapshot ℚ) : Prop where
  short : ∀ p support resistance, ShortPlan s p support resistance →
    1 / 20000 < support ∧ roundTo (min p (support * 1.03)) 4 ≤ p ∧
      ∀ atr, TrueRange s support atr → 1 / 20000 < support - atr ∧
        roundTo (support - atr) 4 < roundTo resistance 4
  long : ∀ fair, LongPlan s fair → 1 / 20000 < fair * 0.8 ∧
    ∀ invalidation, Invalidated s fair invalidation → 1 / 20000 < invalidation ∧
      ∀ bull, Bullish s fair bull → roundTo invalidation 4 < roundTo bull 4

/-! ### One level and the next -/

section
variable {a b : ℚ} {levels : List (Option ℚ)}

@[simp] theorem positive_nil : Positive [] := fun _ h => absurd h not_mem_nil

@[simp] theorem positive_cons_none : Positive (none :: levels) ↔ Positive levels := Iff.rfl

@[simp] theorem positive_cons_some : Positive (some a :: levels) ↔ 0 < a ∧ Positive levels := by
  unfold Positive
  rw [reduceOption_cons_of_some, forall_mem_cons]

@[simp] theorem rises_nil : Rises [] := List.Pairwise.nil

@[simp] theorem rises_singleton : Rises [some a] := pairwise_singleton _ _

@[simp] theorem rises_cons_none : Rises (none :: levels) ↔ Rises levels := Iff.rfl

@[simp] theorem rises_cons_some_none : Rises (some a :: none :: levels) ↔ Rises (some a :: levels) :=
  Iff.rfl

/-- Each value is compared with the next one. -/
@[simp] theorem rises_cons_some :
    Rises (some a :: some b :: levels) ↔ a ≤ b ∧ Rises (some b :: levels) := by
  unfold Rises
  rw [reduceOption_cons_of_some, reduceOption_cons_of_some, pairwise_cons,
    forall_mem_cons, pairwise_cons]
  constructor
  · rintro ⟨⟨hab, -⟩, hrest⟩
    exact ⟨hab, hrest⟩
  · rintro ⟨hab, hb, hrest⟩
    exact ⟨⟨hab, fun c hc => hab.trans (hb c hc)⟩, hb, hrest⟩

end

variable {s : Snapshot ℚ} {p support resistance fair v t : ℚ}

theorem positive_round {x : ℚ} : 0 < roundTo x 4 ↔ 1 / 20000 < x := by
  have hpos := roundTo_pos_iff (q := x) 4
  norm_num at hpos ⊢
  exact hpos

theorem zone_invalidated_iff {reviewing : Bool} {invalidation low high target : Option ℚ} :
    zone reviewing invalidation low high target (some p) = .invalidated ↔
      Truthy invalidation (p ≤ ·) := by
  have hheld : (if reviewing then PositionState.holding else .new) ≠ .invalidated := by
    cases reviewing <;> decide
  by_cases h : Truthy invalidation (p ≤ ·)
  · exact iff_of_true (if_pos h) h
  · refine iff_of_false (fun hzone => ?_) h
    unfold zone at hzone
    dsimp only at hzone
    rw [if_neg h] at hzone
    split_ifs at hzone

theorem neverBoth_iff (hv : 0 < v) (ht : 0 < t) : NeverBoth (some v) (some t) ↔ v < t := by
  have htruthy : ∀ {x : ℚ}, 0 < x → truthy (some x) = some x := fun hx =>
    truthy_eq_some.mpr ⟨rfl, hx.ne'⟩
  constructor
  · intro hnever
    by_contra hle
    have hreached : Truthy (some t) (· ≤ v) := ⟨t, htruthy ht, not_lt.mp hle⟩
    exact hnever true none none v (zone_invalidated_iff.mpr ⟨v, htruthy hv, le_refl v⟩) hreached
  · rintro hlt reviewing low high p hzone ⟨t', ht', hge⟩
    obtain ⟨v', hv', hle⟩ := zone_invalidated_iff.mp hzone
    cases (htruthy hv).symm.trans hv'
    cases (htruthy ht).symm.trans ht'
    linarith

theorem neverBoth_none_left (target : Option ℚ) : NeverBoth none target := by
  intro reviewing low high p hzone
  obtain ⟨v, hv, -⟩ := zone_invalidated_iff.mp hzone
  cases hv

theorem neverBoth_none_right (invalidation : Option ℚ) : NeverBoth invalidation none := by
  rintro reviewing low high p - ⟨t, ht, -⟩
  cases ht

/-! ### The levels of a plan -/

theorem longLevels_short (valuation : Valuation ℚ) (l : Levels ℚ) :
    (longLevels valuation l).shortEntryLow = l.shortEntryLow ∧
      (longLevels valuation l).shortEntryHigh = l.shortEntryHigh ∧
      (longLevels valuation l).shortTarget1 = l.shortTarget1 ∧
      (longLevels valuation l).shortTarget2 = l.shortTarget2 ∧
      (longLevels valuation l).shortInvalidation = l.shortInvalidation := by
  unfold longLevels
  split
  · split
    · exact ⟨rfl, rfl, rfl, rfl, rfl⟩
    · exact ⟨rfl, rfl, rfl, rfl, rfl⟩
  · exact ⟨rfl, rfl, rfl, rfl, rfl⟩

theorem shortLevels_long (price : Option ℚ) (technical : Technical ℚ) (l : Levels ℚ) :
    (shortLevels price technical l).longEntryLow = l.longEntryLow ∧
      (shortLevels price technical l).longEntryHigh = l.longEntryHigh ∧
      (shortLevels price technical l).longFairValue = l.longFairValue ∧
      (shortLevels price technical l).longTarget = l.longTarget ∧
      (shortLevels price technical l).longInvalidation = l.longInvalidation := by
  unfold shortLevels
  split
  · split
    · dsimp only
      split
      · split
        · exact ⟨rfl, rfl, rfl, rfl, rfl⟩
        · exact ⟨rfl, rfl, rfl, rfl, rfl⟩
      · exact ⟨rfl, rfl, rfl, rfl, rfl⟩
    · exact ⟨rfl, rfl, rfl, rfl, rfl⟩
  · exact ⟨rfl, rfl, rfl, rfl, rfl⟩

/-- The short-term levels, with the values they have. -/
structure ShortValues (l : Levels ℚ) (low high target target2 invalidation : Option ℚ) : Prop where
  low : l.shortEntryLow = low
  high : l.shortEntryHigh = high
  target : l.shortTarget1 = target
  target2 : l.shortTarget2 = target2
  invalidation : l.shortInvalidation = invalidation

theorem ranges_short {low high target target2 invalidation : Option ℚ}
    (h : ShortValues (shortLevels s.currentPrice s.evidence.technical {}) low high target target2
      invalidation) :
    ShortValues (ranges s) (low.map (roundTo · 4)) (high.map (roundTo · 4))
      (target.map (roundTo · 4)) (target2.map (roundTo · 4)) (invalidation.map (roundTo · 4)) := by
  obtain ⟨hlow, hhigh, htarget, htarget2, hinvalidation⟩ := longLevels_short s.evidence.valuation
    (shortLevels s.currentPrice s.evidence.technical {})
  have hround : ∀ {v w : Option ℚ}, v = w → v.map (roundTo · 4) = w.map (roundTo · 4) :=
    fun heq => congrArg _ heq
  exact ⟨hround (hlow.trans h.low), hround (hhigh.trans h.high),
    hround (htarget.trans h.target), hround (htarget2.trans h.target2),
    hround (hinvalidation.trans h.invalidation)⟩

theorem short_of_no_plan (h : ∀ p support resistance, ¬ ShortPlan s p support resistance) :
    ShortValues (ranges s) none none none none none := by
  have hempty : shortLevels s.currentPrice s.evidence.technical {} = {} := by
    unfold shortLevels
    split
    · rename_i p support resistance hp hsupport hresistance
      split
      · rename_i hbetween
        exact absurd ⟨hp, hsupport, hresistance, hbetween⟩ (h p support resistance)
      · rfl
    · rfl
  have hvalues : ShortValues (shortLevels s.currentPrice s.evidence.technical {})
      none none none none none := by
    rw [hempty]
    exact ⟨rfl, rfl, rfl, rfl, rfl⟩
  exact ranges_short hvalues

theorem short_of_plan (h : ShortPlan s p support resistance)
    (hatr : ∀ atr, ¬ TrueRange s support atr) :
    ShortValues (ranges s) (some (roundTo support 4)) (some (roundTo (min p (support * 1.03)) 4))
      (some (roundTo resistance 4)) none none := by
  have hvalues : ShortValues (shortLevels s.currentPrice s.evidence.technical {})
      (some support) (some (min p (support * 1.03))) (some resistance) none none := by
    unfold shortLevels
    rw [h.priced, h.supported, h.resisted]
    dsimp only
    rw [if_pos h.between]
    split
    · rename_i atr hfound
      rw [if_neg fun hsmall => hatr atr ⟨hfound, hsmall⟩]
      exact ⟨rfl, rfl, rfl, rfl, rfl⟩
    · exact ⟨rfl, rfl, rfl, rfl, rfl⟩
  exact ranges_short hvalues

theorem short_of_trueRange {atr : ℚ} (h : ShortPlan s p support resistance)
    (hatr : TrueRange s support atr) :
    ShortValues (ranges s) (some (roundTo support 4)) (some (roundTo (min p (support * 1.03)) 4))
      (some (roundTo resistance 4)) (some (roundTo (resistance + atr) 4))
      (some (roundTo (support - atr) 4)) := by
  have hvalues : ShortValues (shortLevels s.currentPrice s.evidence.technical {})
      (some support) (some (min p (support * 1.03))) (some resistance) (some (resistance + atr))
        (some (support - atr)) := by
    unfold shortLevels
    rw [h.priced, h.supported, h.resisted]
    dsimp only
    rw [if_pos h.between, hatr.1]
    dsimp only
    rw [if_pos hatr.2]
    exact ⟨rfl, rfl, rfl, rfl, rfl⟩
  exact ranges_short hvalues

/-! ### The short term -/

theorem round_le {x y : ℚ} (h : x ≤ y) : roundTo x 4 ≤ roundTo y 4 := roundTo_mono 4 h

theorem ShortPlan.entry_le (h : ShortPlan s p support resistance) :
    support ≤ min p (support * 1.03) ∧ min p (support * 1.03) ≤ resistance := by
  obtain ⟨hpos, hle, hlt⟩ := h.between
  exact ⟨le_min hle (by linarith), (min_le_left _ _).trans hlt.le⟩

theorem ShortPlan.eq (h : ShortPlan s p support resistance) {p' support' resistance' : ℚ}
    (h' : ShortPlan s p' support' resistance') :
    p' = p ∧ support' = support ∧ resistance' = resistance :=
  ⟨some.inj (h'.priced.symm.trans h.priced),
    some.inj (h'.supported.symm.trans h.supported),
    some.inj (h'.resisted.symm.trans h.resisted)⟩

/-- What the condition says of the short term. -/
def ShortRoundable (s : Snapshot ℚ) : Prop :=
  ∀ p support resistance, ShortPlan s p support resistance →
    1 / 20000 < support ∧ roundTo (min p (support * 1.03)) 4 ≤ p ∧
      ∀ atr, TrueRange s support atr → 1 / 20000 < support - atr ∧
        roundTo (support - atr) 4 < roundTo resistance 4

theorem shortOrdered_of_no_plan (h : ∀ p support resistance, ¬ ShortPlan s p support resistance) :
    ShortOrdered (ranges s) s.currentPrice := by
  obtain ⟨hlow, hhigh, htarget, htarget2, hinvalidation⟩ := short_of_no_plan h
  refine ⟨?_, ?_, fun high hhigh' => ?_, ?_, ?_⟩
  · simp [hlow, hhigh, htarget, htarget2, hinvalidation]
  · simp [hlow, hhigh, hinvalidation]
  · cases hhigh.symm.trans hhigh'
  · simp [hhigh, htarget, htarget2]
  · rw [hinvalidation]
    exact neverBoth_none_left _

theorem shortOrdered_of_trueRange {atr : ℚ} (h : ShortPlan s p support resistance)
    (hatr : TrueRange s support atr) :
    ShortOrdered (ranges s) s.currentPrice ↔ ShortRoundable s := by
  have hprice : s.currentPrice = some p := (truthy_eq_some.mp h.priced).1
  obtain ⟨hlow, hhigh, htarget, htarget2, hinvalidation⟩ := short_of_trueRange h hatr
  have hdown := round_le (show support - atr ≤ support by linarith [hatr.2.1])
  have hentry := round_le h.entry_le.1
  have htop := round_le h.entry_le.2
  have hup := round_le (show resistance ≤ resistance + atr by linarith [hatr.2.1])
  constructor
  · rintro ⟨hpositive, -, hle, -, hnever⟩ p' support' resistance' h'
    obtain ⟨rfl, rfl, rfl⟩ := h.eq h'
    simp only [hlow, hhigh, htarget, htarget2, hinvalidation, positive_cons_some] at hpositive
    obtain ⟨hinvPos, -, -, htargetPos, -⟩ := hpositive
    have hsmall := positive_round.mp hinvPos
    refine ⟨by linarith [hatr.2.1], hle _ hhigh _ hprice, fun atr' hatr' => ?_⟩
    cases hatr'.1.symm.trans hatr.1
    rw [hinvalidation, htarget, neverBoth_iff hinvPos htargetPos] at hnever
    exact ⟨hsmall, hnever⟩
  · intro hround
    obtain ⟨-, hle, hrest⟩ := hround p support resistance h
    obtain ⟨hsmall, hlt⟩ := hrest atr hatr
    have hinvPos := positive_round.mpr hsmall
    have hlowPos := lt_of_lt_of_le hinvPos hdown
    have hhighPos := lt_of_lt_of_le hlowPos hentry
    have htargetPos := lt_of_lt_of_le hhighPos htop
    refine ⟨?_, ?_, fun high hhigh' p' hp' => ?_, ?_, ?_⟩
    · simp [hlow, hhigh, htarget, htarget2, hinvalidation, hinvPos, hlowPos, hhighPos, htargetPos,
        lt_of_lt_of_le htargetPos hup]
    · simp [hlow, hhigh, hinvalidation, hdown, hentry]
    · cases hhigh.symm.trans hhigh'
      cases hprice.symm.trans hp'
      exact hle
    · simp [hhigh, htarget, htarget2, htop, hup]
    · rw [hinvalidation, htarget, neverBoth_iff hinvPos htargetPos]
      exact hlt

theorem shortOrdered_of_plan (h : ShortPlan s p support resistance)
    (hatr : ∀ atr, ¬ TrueRange s support atr) :
    ShortOrdered (ranges s) s.currentPrice ↔ ShortRoundable s := by
  have hprice : s.currentPrice = some p := (truthy_eq_some.mp h.priced).1
  obtain ⟨hlow, hhigh, htarget, htarget2, hinvalidation⟩ := short_of_plan h hatr
  have hentry := round_le h.entry_le.1
  have htop := round_le h.entry_le.2
  constructor
  · rintro ⟨hpositive, -, hle, -, -⟩ p' support' resistance' h'
    obtain ⟨rfl, rfl, rfl⟩ := h.eq h'
    simp only [hlow, hhigh, htarget, htarget2, hinvalidation, positive_cons_some,
      positive_cons_none] at hpositive
    exact ⟨positive_round.mp hpositive.1, hle _ hhigh _ hprice,
      fun atr' hatr' => absurd hatr' (hatr atr')⟩
  · intro hround
    obtain ⟨hsupport, hle, -⟩ := hround p support resistance h
    have hlowPos := positive_round.mpr hsupport
    have hhighPos := lt_of_lt_of_le hlowPos hentry
    refine ⟨?_, ?_, fun high hhigh' p' hp' => ?_, ?_, ?_⟩
    · simp [hlow, hhigh, htarget, htarget2, hinvalidation, hlowPos, hhighPos,
        lt_of_lt_of_le hhighPos htop]
    · simp [hlow, hhigh, hinvalidation, hentry]
    · cases hhigh.symm.trans hhigh'
      cases hprice.symm.trans hp'
      exact hle
    · simp [hhigh, htarget, htarget2, htop]
    · rw [hinvalidation]
      exact neverBoth_none_left _

theorem shortOrdered_iff (s : Snapshot ℚ) :
    ShortOrdered (ranges s) s.currentPrice ↔ ShortRoundable s := by
  by_cases hplan : ∃ p support resistance, ShortPlan s p support resistance
  · obtain ⟨p, support, resistance, h⟩ := hplan
    by_cases hatr : ∃ atr, TrueRange s support atr
    · obtain ⟨atr, hatr⟩ := hatr
      exact shortOrdered_of_trueRange h hatr
    · exact shortOrdered_of_plan h fun atr hfound => hatr ⟨atr, hfound⟩
  · have hplan : ∀ p support resistance, ¬ ShortPlan s p support resistance :=
      fun p support resistance h => hplan ⟨p, support, resistance, h⟩
    exact ⟨fun _ p support resistance h => absurd h (hplan p support resistance),
      fun _ => shortOrdered_of_no_plan hplan⟩

/-! ### The long term -/

/-- What the condition says of the long term. -/
def LongRoundable (s : Snapshot ℚ) : Prop :=
  ∀ fair, LongPlan s fair → 1 / 20000 < fair * 0.8 ∧
    ∀ invalidation, Invalidated s fair invalidation → 1 / 20000 < invalidation ∧
      ∀ bull, Bullish s fair bull → roundTo invalidation 4 < roundTo bull 4

/-- The long-term levels, with the values they have. -/
structure LongValues (l : Levels ℚ) (low high fair target invalidation : Option ℚ) : Prop where
  low : l.longEntryLow = low
  high : l.longEntryHigh = high
  fair : l.longFairValue = fair
  target : l.longTarget = target
  invalidation : l.longInvalidation = invalidation

theorem long_of_no_plan (h : ∀ fair, ¬ LongPlan s fair) :
    LongValues (ranges s) none none none none none := by
  have hsame : longLevels s.evidence.valuation
      (shortLevels s.currentPrice s.evidence.technical {}) =
        shortLevels s.currentPrice s.evidence.technical {} := by
    unfold longLevels
    split
    · rename_i fair hfair
      rw [if_neg fun hpos => h fair ⟨hfair, hpos⟩]
    · rfl
  obtain ⟨hlow, hhigh, hfair, htarget, hinvalidation⟩ :=
    shortLevels_long s.currentPrice s.evidence.technical {}
  unfold ranges
  rw [hsame]
  have hnone : ∀ {v : Option ℚ}, v = none → v.map (roundTo · 4) = none := fun h => by rw [h]; rfl
  exact ⟨hnone hlow, hnone hhigh, hnone hfair, hnone htarget, hnone hinvalidation⟩

theorem long_of_plan (h : LongPlan s fair) :
    LongValues (ranges s) (some (roundTo (fair * 0.8) 4)) (some (roundTo (fair * 0.9) 4))
      (some (roundTo fair 4))
      (((truthy s.evidence.valuation.bullTarget).filter fun bull => fair ≤ bull).map (roundTo · 4))
      (((truthy s.evidence.valuation.invalidation).filter fun invalidation =>
        0 < invalidation ∧ invalidation < fair * 0.8).map (roundTo · 4)) := by
  unfold ranges longLevels
  rw [h.valued]
  dsimp only
  rw [if_pos h.positive]
  exact ⟨rfl, rfl, rfl, rfl, rfl⟩

theorem invalidated_cases (s : Snapshot ℚ) (fair : ℚ) :
    ((truthy s.evidence.valuation.invalidation).filter (fun invalidation =>
        0 < invalidation ∧ invalidation < fair * 0.8) = none ∧ ∀ x, ¬ Invalidated s fair x) ∨
      ∃ x, (truthy s.evidence.valuation.invalidation).filter (fun invalidation =>
        0 < invalidation ∧ invalidation < fair * 0.8) = some x ∧ Invalidated s fair x := by
  cases h : (truthy s.evidence.valuation.invalidation).filter fun invalidation =>
      0 < invalidation ∧ invalidation < fair * 0.8 with
  | none =>
      refine Or.inl ⟨rfl, fun x hx => ?_⟩
      rw [hx.1, filter_some, if_pos (decide_eq_true hx.2)] at h
      cases h
  | some x =>
      obtain ⟨hvalue, hguard⟩ := filter_eq_some_iff.mp h
      exact Or.inr ⟨x, rfl, hvalue, of_decide_eq_true hguard⟩

theorem bullish_cases (s : Snapshot ℚ) (fair : ℚ) :
    ((truthy s.evidence.valuation.bullTarget).filter (fun bull => fair ≤ bull) = none ∧
        ∀ x, ¬ Bullish s fair x) ∨
      ∃ x, (truthy s.evidence.valuation.bullTarget).filter (fun bull => fair ≤ bull) = some x ∧
        Bullish s fair x := by
  cases h : (truthy s.evidence.valuation.bullTarget).filter fun bull => fair ≤ bull with
  | none =>
      refine Or.inl ⟨rfl, fun x hx => ?_⟩
      rw [hx.1, filter_some, if_pos (decide_eq_true hx.2)] at h
      cases h
  | some x =>
      obtain ⟨hvalue, hguard⟩ := filter_eq_some_iff.mp h
      exact Or.inr ⟨x, rfl, hvalue, of_decide_eq_true hguard⟩

theorem Invalidated.eq {x y : ℚ} (h : Invalidated s fair x) (h' : Invalidated s fair y) : y = x :=
  some.inj (h'.1.symm.trans h.1)

theorem Bullish.eq {x y : ℚ} (h : Bullish s fair x) (h' : Bullish s fair y) : y = x :=
  some.inj (h'.1.symm.trans h.1)

theorem longOrdered_iff_of_plan (h : LongPlan s fair) :
    LongOrdered (ranges s) ↔ 1 / 20000 < fair * 0.8 ∧
      ∀ invalidation, Invalidated s fair invalidation → 1 / 20000 < invalidation ∧
        ∀ bull, Bullish s fair bull → roundTo invalidation 4 < roundTo bull 4 := by
  have hpositive := h.positive
  obtain ⟨hlow, hhigh, hfair, htarget, hinvalidation⟩ := long_of_plan h
  have hzone := round_le (show fair * 0.8 ≤ fair * 0.9 by linarith)
  have hbelow := round_le (show fair * 0.9 ≤ fair by linarith)
  have hpos : 0 < roundTo (fair * 0.8) 4 → 0 < roundTo (fair * 0.9) 4 ∧ 0 < roundTo fair 4 :=
    fun hlowPos => ⟨lt_of_lt_of_le hlowPos hzone, lt_of_lt_of_le hlowPos (hzone.trans hbelow)⟩
  rcases invalidated_cases s fair with ⟨hinv, hnoInv⟩ | ⟨invalidation, hinv, hinvalidated⟩
  · rw [hinv, map_none] at hinvalidation
    have hrest : ∀ x, Invalidated s fair x → 1 / 20000 < x ∧
        ∀ bull, Bullish s fair bull → roundTo x 4 < roundTo bull 4 :=
      fun x hx => absurd hx (hnoInv x)
    rw [and_iff_left hrest, ← positive_round]
    rcases bullish_cases s fair with ⟨hbull, -⟩ | ⟨bull, hbull, hbullish⟩
    · rw [hbull, map_none] at htarget
      constructor
      · intro hordered
        have hall := hordered.positive
        simp only [hlow, hinvalidation, positive_cons_none, positive_cons_some] at hall
        exact hall.1
      · intro hlowPos
        refine ⟨?_, ?_, ?_⟩
        · simp [hlow, hhigh, hfair, htarget, hinvalidation, hlowPos, hpos hlowPos]
        · simp [hlow, hhigh, hfair, htarget, hinvalidation, hzone, hbelow]
        · rw [hinvalidation]
          exact neverBoth_none_left _
    · rw [hbull, map_some] at htarget
      have habove := round_le hbullish.2
      constructor
      · intro hordered
        have hall := hordered.positive
        simp only [hlow, hinvalidation, positive_cons_none, positive_cons_some] at hall
        exact hall.1
      · intro hlowPos
        refine ⟨?_, ?_, ?_⟩
        · simp [hlow, hhigh, hfair, htarget, hinvalidation, hlowPos, hpos hlowPos,
            lt_of_lt_of_le (hpos hlowPos).2 habove]
        · simp [hlow, hhigh, hfair, htarget, hinvalidation, hzone, hbelow, habove]
        · rw [hinvalidation]
          exact neverBoth_none_left _
  · rw [hinv, map_some] at hinvalidation
    have hunder := round_le hinvalidated.2.2.le
    rcases bullish_cases s fair with ⟨hbull, hnoBull⟩ | ⟨bull, hbull, hbullish⟩
    · rw [hbull, map_none] at htarget
      constructor
      · intro hordered
        have hall := hordered.positive
        simp only [hlow, hinvalidation, positive_cons_some] at hall
        refine ⟨positive_round.mp hall.2.1, fun x hx => ?_⟩
        rw [hinvalidated.eq hx]
        exact ⟨positive_round.mp hall.1, fun bull hfound => absurd hfound (hnoBull bull)⟩
      · rintro ⟨-, hrest⟩
        have hinvPos := positive_round.mpr (hrest invalidation hinvalidated).1
        have hlowPos := lt_of_lt_of_le hinvPos hunder
        refine ⟨?_, ?_, ?_⟩
        · simp [hlow, hhigh, hfair, htarget, hinvalidation, hinvPos, hlowPos, hpos hlowPos]
        · simp [hlow, hhigh, hfair, htarget, hinvalidation, hunder, hzone, hbelow]
        · rw [htarget]
          exact neverBoth_none_right _
    · rw [hbull, map_some] at htarget
      have habove := round_le hbullish.2
      constructor
      · intro hordered
        have hall := hordered.positive
        have hnever := hordered.never
        simp only [hlow, hhigh, hfair, htarget, hinvalidation, positive_cons_some] at hall
        rw [hinvalidation, htarget, neverBoth_iff hall.1 hall.2.2.2.2.1] at hnever
        refine ⟨positive_round.mp hall.2.1, fun x hx => ?_⟩
        rw [hinvalidated.eq hx]
        refine ⟨positive_round.mp hall.1, fun y hy => ?_⟩
        rw [hbullish.eq hy]
        exact hnever
      · rintro ⟨-, hrest⟩
        obtain ⟨hsmall, hlt⟩ := hrest invalidation hinvalidated
        have hinvPos := positive_round.mpr hsmall
        have hlowPos := lt_of_lt_of_le hinvPos hunder
        have htargetPos := lt_of_lt_of_le (hpos hlowPos).2 habove
        refine ⟨?_, ?_, ?_⟩
        · simp [hlow, hhigh, hfair, htarget, hinvalidation, hinvPos, hlowPos, hpos hlowPos,
            htargetPos]
        · simp [hlow, hhigh, hfair, htarget, hinvalidation, hunder, hzone, hbelow, habove]
        · rw [hinvalidation, htarget, neverBoth_iff hinvPos htargetPos]
          exact hlt bull hbullish

theorem longOrdered_iff (s : Snapshot ℚ) : LongOrdered (ranges s) ↔ LongRoundable s := by
  by_cases hplan : ∃ fair, LongPlan s fair
  · obtain ⟨fair, h⟩ := hplan
    rw [longOrdered_iff_of_plan h]
    constructor
    · intro hround fair' h'
      cases h'.valued.symm.trans h.valued
      exact hround
    · exact fun hround => hround fair h
  · have hplan : ∀ fair, ¬ LongPlan s fair := fun fair h => hplan ⟨fair, h⟩
    obtain ⟨hlow, hhigh, hfair, htarget, hinvalidation⟩ := long_of_no_plan hplan
    refine ⟨fun _ fair h => absurd h (hplan fair), fun _ => ⟨?_, ?_, ?_⟩⟩
    · simp [hlow, hhigh, hfair, htarget, hinvalidation]
    · simp [hlow, hhigh, hfair, htarget, hinvalidation]
    · rw [hinvalidation]
      exact neverBoth_none_left _

/-- A snapshot that is read for its prices only. -/
def samplePlan (price support resistance : ℚ) : Snapshot ℚ where
  snapshotId := "s1"
  globalInstrumentId := "i1"
  carried := ⟨"NSE", none, none, "2026-01-05", none, none, []⟩
  rankEligible := true
  opportunityScore := none
  opportunityConfidence := 0
  scoreCoverage := 0
  currentPrice := some price
  topNegativeReasons := []
  evidence := ⟨⟨[], [], []⟩, ⟨none, some support, some resistance, none⟩, ⟨none, none, none⟩, none,
    [], []⟩

end InvestmentPlatform.Opportunity
