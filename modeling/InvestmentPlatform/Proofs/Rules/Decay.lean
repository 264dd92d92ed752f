/-
How the impact of a piece of news fades, and what the impacts of a list come to.

An impact is the score times the part of its time that is left, rounded to eight digits.  Time
only runs out and rounding keeps the order, so an impact only fades; it can pass the score by the
rounding alone, where the score itself has more than eight digits.  Of several revisions of one
event the latest that is known counts, whatever order the list has and however often it holds one.
-/
import InvestmentPlatform.Proofs.Rules.Scores

namespace InvestmentPlatform.Rules

open Selection PyFloat List EventImpactFeature

/-! ### One impact -/

/-- The part of its time that is left. -/
def decay (feature : EventImpactFeature) (validUntil now : Instant) : ℚ :=
  max 0 (min 1 ((validUntil - now : Int) /
    (validUntil - feature.publicationTime.getD feature.discoveredAt : Int)))

variable {feature : EventImpactFeature} {now t₁ t₂ validUntil : Instant} {x y : ℚ}

/-- The time that is divided by is there. -/
theorem lasting_pos (h : feature.Valid) (hknown : feature.Known now) (hlater : now < validUntil) :
    0 < validUntil - feature.publicationTime.getD feature.discoveredAt := by
  have hstart : feature.publicationTime.getD feature.discoveredAt ≤ now := by
    cases hpublished : feature.publicationTime with
    | none => exact hknown.2.1
    | some published => exact (h.published published hpublished).trans hknown.1
  exact sub_pos.mpr (lt_of_le_of_lt hstart hlater)

theorem decay_mem (feature : EventImpactFeature) (validUntil now : Instant) :
    0 ≤ decay feature validUntil now ∧ decay feature validUntil now ≤ 1 :=
  ⟨le_max_left _ _, max_le (by norm_num) (min_le_left _ _)⟩

theorem decay_antitone (h : feature.Valid) (hknown : feature.Known t₁) (hle : t₁ ≤ t₂)
    (hlater : t₁ < validUntil) : decay feature validUntil t₂ ≤ decay feature validUntil t₁ := by
  have hlasting : (0 : ℚ) ≤
      ((validUntil - feature.publicationTime.getD feature.discoveredAt : Int) : ℚ) := by
    exact_mod_cast (lasting_pos h hknown hlater).le
  have hleft : ((validUntil - t₂ : Int) : ℚ) ≤ ((validUntil - t₁ : Int) : ℚ) := by
    exact_mod_cast sub_le_sub_left hle validUntil
  unfold decay
  gcongr

/-- Where there is an impact, and which. -/
theorem impactAt_eq_some (hx : impactAt feature now = some x) : feature.Known now ∧
    ((feature.validUntil = none ∧ x = feature.impactScore) ∨
      ∃ validUntil, feature.validUntil = some validUntil ∧ now < validUntil ∧
        x = roundTo (feature.impactScore * decay feature validUntil now) 8) := by
  unfold impactAt at hx
  split at hx
  · cases hx
  rename_i hknown
  refine ⟨not_not.mp hknown, ?_⟩
  split at hx
  · rename_i hforever
    exact Or.inl ⟨hforever, (Option.some.inj hx).symm⟩
  · rename_i validUntil huntil
    split at hx
    · cases hx
    · rename_i hlater
      exact Or.inr ⟨validUntil, huntil, not_le.mp hlater, (Option.some.inj hx).symm⟩

theorem roundTo_zero (digits : Nat) : roundTo (0 : ℚ) digits = 0 := by
  have hzero := roundTo_intCast 0 digits
  exact_mod_cast hzero

/-- Rounding is on one side of zero. -/
theorem roundTo_nonneg (h : 0 ≤ x) : 0 ≤ roundTo x 8 := by
  have hround := roundTo_mono 8 h
  rwa [show roundTo (0 : ℚ) 8 = 0 from roundTo_zero 8] at hround

theorem roundTo_nonpos (h : x ≤ 0) : roundTo x 8 ≤ 0 := by
  have hround := roundTo_mono 8 h
  rwa [show roundTo (0 : ℚ) 8 = 0 from roundTo_zero 8] at hround

/-- Less of a number rounds to less. -/
theorem abs_roundTo_mul_le {part part' : ℚ} (hnonneg : 0 ≤ part) (hle : part ≤ part') (score : ℚ) :
    |roundTo (score * part) 8| ≤ |roundTo (score * part') 8| := by
  rcases le_total 0 score with hscore | hscore
  · have hround := roundTo_mono 8 (mul_le_mul_of_nonneg_left hle hscore)
    have hpos := roundTo_nonneg (mul_nonneg hscore hnonneg)
    rwa [abs_of_nonneg hpos, abs_of_nonneg (hpos.trans hround)]
  · have hround := roundTo_mono 8 (mul_le_mul_of_nonpos_left hle hscore)
    have hneg := roundTo_nonpos (mul_nonpos_of_nonpos_of_nonneg hscore hnonneg)
    rw [abs_of_nonpos hneg, abs_of_nonpos (hround.trans hneg)]
    exact neg_le_neg hround

theorem abs_impactAt_antitone (h : feature.Valid) (hle : t₁ ≤ t₂) (hx : impactAt feature t₁ = some x)
    (hy : impactAt feature t₂ = some y) : |y| ≤ |x| := by
  obtain ⟨hknown, ⟨hforever, rfl⟩ | ⟨validUntil, huntil, hlater, rfl⟩⟩ := impactAt_eq_some hx
  · obtain ⟨-, ⟨-, rfl⟩ | ⟨validUntil, huntil, -⟩⟩ := impactAt_eq_some hy
    · exact le_refl _
    · cases hforever.symm.trans huntil
  · obtain ⟨-, ⟨hforever, -⟩ | ⟨validUntil', huntil', -, rfl⟩⟩ := impactAt_eq_some hy
    · cases hforever.symm.trans huntil
    · cases huntil.symm.trans huntil'
      exact abs_roundTo_mul_le (decay_mem _ _ _).1 (decay_antitone h hknown hle hlater) _

section

variable (hx : impactAt feature now = some x)
include hx

/-- An impact passes the score by no more than its rounding does. -/
theorem abs_impactAt_le :
    |x| ≤ max |feature.impactScore| |roundTo feature.impactScore 8| := by
  obtain ⟨-, ⟨-, rfl⟩ | ⟨validUntil, -, -, rfl⟩⟩ := impactAt_eq_some hx
  · exact le_max_left _ _
  · have hmore := abs_roundTo_mul_le (decay_mem feature validUntil now).1
      (decay_mem feature validUntil now).2 feature.impactScore
    rw [mul_one] at hmore
    exact hmore.trans (le_max_right _ _)

theorem abs_impactAt_le_add :
    |x| ≤ |feature.impactScore| + 5 / 10 ^ 9 := by
  have hnear : |roundTo feature.impactScore 8 - feature.impactScore| ≤ 1 / (2 * 10 ^ 8) :=
    abs_roundTo_sub_le feature.impactScore 8
  have htriangle := abs_sub_abs_le_abs_sub (roundTo feature.impactScore 8)
    feature.impactScore
  refine (abs_impactAt_le hx).trans (max_le (by linarith) ?_)
  norm_num at hnear ⊢
  linarith

theorem impactAt_sign : 0 ≤ feature.impactScore * x := by
  obtain ⟨-, ⟨-, rfl⟩ | ⟨validUntil, -, -, rfl⟩⟩ := impactAt_eq_some hx
  · exact mul_self_nonneg _
  · have hpart := (decay_mem feature validUntil now).1
    rcases le_total 0 feature.impactScore with hscore | hscore
    · exact mul_nonneg hscore (roundTo_nonneg (mul_nonneg hscore hpart))
    · exact mul_nonneg_of_nonpos_of_nonpos hscore
        (roundTo_nonpos (mul_nonpos_of_nonpos_of_nonneg hscore hpart))

end

/-! ### A list of them -/

/-- Revisions of one event that nothing ranks apart are the same. -/
def Ranked (features : List EventImpactFeature) : Prop :=
  ∀ f ∈ features, ∀ g ∈ features, f.eventKey = g.eventKey → featureRank f = featureRank g → f = g

variable {features features' : List EventImpactFeature}

theorem mem_latestKnownFeatures : feature ∈ latestKnownFeatures features now ↔
    firstMax featureRank ((features.filter fun f => f.Known now).filter
      fun f => f.eventKey = feature.eventKey) = some feature := by
  unfold latestKnownFeatures
  rw [(sortOn_perm _ _).mem_iff, mem_keepBest]

/-- What counts is known, and no known revision of the event is later. -/
theorem latest_of_mem (h : feature ∈ latestKnownFeatures features now) :
    feature ∈ features ∧ feature.Known now ∧ ∀ g ∈ features, g.Known now →
      g.eventKey = feature.eventKey → featureRank g ≤ featureRank feature := by
  obtain ⟨hmem, hgreatest⟩ := firstMax_mem (mem_latestKnownFeatures.mp h)
  obtain ⟨hin, hknown⟩ := mem_filter.mp (mem_filter.mp hmem).1
  refine ⟨hin, of_decide_eq_true hknown, fun g hg hgKnown hkey => hgreatest g ?_⟩
  exact mem_filter.mpr ⟨mem_filter.mpr ⟨hg, decide_eq_true hgKnown⟩, decide_eq_true hkey⟩

theorem latestKnownFeatures_keys_nodup (features : List EventImpactFeature) (now : Instant) :
    ((latestKnownFeatures features now).map (·.eventKey)).Nodup := by
  unfold latestKnownFeatures
  rw [((sortOn_perm eventKey _).map _).nodup_iff]
  exact keepBest_keys_nodup (features.filter _)

theorem exists_latest (hmem : feature ∈ features) (hknown : feature.Known now) :
    ∃ g ∈ latestKnownFeatures features now, g.eventKey = feature.eventKey := by
  have hkey : feature.eventKey ∈
      (features.filter fun f => f.Known now).map eventKey :=
    mem_map_of_mem (mem_filter.mpr ⟨hmem, decide_eq_true hknown⟩)
  have hkept : feature.eventKey ∈ (keepBest eventKey featureRank
      (features.filter fun f => f.Known now)).map eventKey :=
    mem_keepBest_keys.mpr hkey
  obtain ⟨g, hg, hsame⟩ := mem_map.mp hkept
  exact ⟨g, (sortOn_perm _ _).mem_iff.mpr hg, hsame⟩

theorem latest_of_same (hranked : Ranked features) (hsame : ∀ f, f ∈ features ↔ f ∈ features')
    (h : feature ∈ latestKnownFeatures features now) :
    feature ∈ latestKnownFeatures features' now := by
  obtain ⟨hmem, hknown, hlatest⟩ := latest_of_mem h
  obtain ⟨g, hg, hkey⟩ := exists_latest ((hsame feature).mp hmem) hknown
  obtain ⟨hgMem, hgKnown, hgLatest⟩ := latest_of_mem hg
  have hgIn : g ∈ features := (hsame g).mpr hgMem
  have hrank : featureRank g = featureRank feature :=
    le_antisymm (hlatest g hgIn hgKnown hkey)
      (hgLatest feature ((hsame feature).mp hmem) hknown hkey.symm)
  rwa [← hranked g hgIn feature hmem hkey hrank]

/-- Neither order nor repetition changes what counts. -/
theorem latestKnownFeatures_congr (hranked : Ranked features)
    (hsame : ∀ f, f ∈ features ↔ f ∈ features') :
    latestKnownFeatures features now = latestKnownFeatures features' now := by
  have hranked' : Ranked features' := fun f hf g hg =>
    hranked f ((hsame f).mpr hf) g ((hsame g).mpr hg)
  have hnodup : ∀ l : List EventImpactFeature, (keepBest eventKey featureRank
      (l.filter fun f => f.Known now)).Nodup := fun l => (keepBest_keys_nodup _).of_map _
  refine sortOn_eq_of_perm ?_ (keepBest_keys_nodup _)
  refine (perm_ext_iff_of_nodup (hnodup features) (hnodup features')).mpr fun f => ?_
  rw [← (sortOn_perm eventKey _).mem_iff,
    ← (sortOn_perm eventKey (keepBest _ _ (features'.filter _))).mem_iff]
  exact ⟨latest_of_same hranked hsame, latest_of_same hranked' fun f => (hsame f).symm⟩

theorem latestKnownFeatures_filter (features : List EventImpactFeature) (now : Instant) :
    latestKnownFeatures (features.filter fun f => f.Known now) now =
      latestKnownFeatures features now := by
  unfold latestKnownFeatures
  rw [filter_filter]
  simp only [Bool.and_self]

/-! ### The laws -/

/-- What is promised of one feature. -/
structure Fades (feature : EventImpactFeature) : Prop where
  divides : ∀ now validUntil, feature.Known now → feature.validUntil = some validUntil →
    now < validUntil → validUntil - feature.publicationTime.getD feature.discoveredAt ≠ 0
  fades : ∀ t₁ t₂ x y, t₁ ≤ t₂ → impactAt feature t₁ = some x → impactAt feature t₂ = some y →
    |y| ≤ |x|
  /-- Within the score, or above it by the rounding of its ninth digit. -/
  bounded : ∀ now x, impactAt feature now = some x → |x| ≤ |feature.impactScore| + 5 / 10 ^ 9 ∧
    (PyFloat.roundTo feature.impactScore 8 = feature.impactScore → |x| ≤ |feature.impactScore|)
  sign : ∀ now x, impactAt feature now = some x → 0 ≤ feature.impactScore * x
  unknown : ∀ now, ¬ feature.Known now → impactAt feature now = none
  expired : ∀ now validUntil, feature.validUntil = some validUntil → validUntil ≤ now →
    impactAt feature now = none

/-- What is promised of a list. -/
structure Aggregates (features : List EventImpactFeature) (now : Instant) : Prop where
  bounded : ∀ x, aggregateImpact features now = some x → -100 ≤ x ∧ x ≤ 100
  known : aggregateImpact features now =
    aggregateImpact (features.filter fun f => f.Known now) now
  /-- One revision counts for each known event, the latest. -/
  revisions : ((latestKnownFeatures features now).map (·.eventKey)).Nodup ∧
    (∀ f ∈ features, f.Known now →
      ∃ g ∈ latestKnownFeatures features now, g.eventKey = f.eventKey) ∧
    ∀ f ∈ latestKnownFeatures features now, f ∈ features ∧ f.Known now ∧
      ∀ g ∈ features, g.Known now → g.eventKey = f.eventKey → featureRank g ≤ featureRank f
  congr : Ranked features → ∀ features', (∀ f, f ∈ features ↔ f ∈ features') →
    aggregateImpact features now = aggregateImpact features' now

theorem fades_of_valid (h : feature.Valid) : Fades feature where
  divides _ _ hknown _ hlater := (lasting_pos h hknown hlater).ne'
  fades _ _ _ _ hle hx hy := abs_impactAt_antitone h hle hx hy
  bounded _ _ hx := by
    refine ⟨abs_impactAt_le_add hx, fun hexact => ?_⟩
    have hle := abs_impactAt_le hx
    rwa [hexact, max_self] at hle
  sign _ _ hx := impactAt_sign hx
  unknown _ hunknown := if_pos hunknown
  expired now validUntil huntil hle := by
    cases hx : impactAt feature now with
    | none => rfl
    | some x =>
        obtain ⟨-, ⟨hforever, -⟩ | ⟨validUntil', huntil', hlater, -⟩⟩ := impactAt_eq_some hx
        · cases hforever.symm.trans huntil
        · cases huntil.symm.trans huntil'
          exact absurd hle (not_le.mpr hlater)

theorem aggregates_of_valid (h : ∀ f ∈ features, f.Valid) (now : Instant) :
    Aggregates features now where
  bounded _ hx := aggregateImpact_mem h hx
  known := by
    unfold aggregateImpact
    rw [latestKnownFeatures_filter]
  revisions := ⟨latestKnownFeatures_keys_nodup features now,
    fun _ hf hknown => exists_latest hf hknown, fun _ hf => latest_of_mem hf⟩
  congr hranked features' hsame := by
    unfold aggregateImpact
    rw [latestKnownFeatures_congr hranked hsame]

/-- **The impact of news is defined, bounded and fades, one revision of an event counts, and
neither order nor repetition matters where the revisions are ranked.** -/
theorem news_decay (features : List EventImpactFeature) (h : ∀ f ∈ features, f.Valid) :
    (∀ f ∈ features, Fades f) ∧ ∀ now, Aggregates features now :=
  ⟨fun f hf => fades_of_valid (h f hf), fun now => aggregates_of_valid h now⟩

/-! ### Two features -/

/-- A piece of news that came out, was found and was scored at once, and counts for a day. -/
def sampleFeature (featureId : String) (score : ℚ) : EventImpactFeature where
  featureId := featureId
  eventKey := "order-win"
  eventType := "LARGE_ORDER_WIN"
  impactScore := score
  publicationTime := some 0
  publicAvailableAt := 0
  discoveredAt := 0
  computedAt := 0
  validUntil := some day
  severeValidated := false

theorem sampleFeature_valid {featureId : String} {score : ℚ} (h : -100 ≤ score ∧ score ≤ 100) :
    (sampleFeature featureId score).Valid where
  impact := h
  discovered := le_refl _
  available := le_refl _
  published published heq := by
    cases heq
    exact le_refl _
  expiring validUntil heq := by
    cases heq
    show (0 : Int) ≤ day
    decide

theorem news_decay_sample :
    (∀ f ∈ [sampleFeature "f1" 20, sampleFeature "f2" 40], Fades f) ∧
      ∀ now, Aggregates [sampleFeature "f1" 20, sampleFeature "f2" 40] now := by
  refine news_decay _ fun f hf => ?_
  rcases List.mem_cons.mp hf with rfl | hf
  · exact sampleFeature_valid ⟨by norm_num, by norm_num⟩
  · rw [List.mem_singleton.mp hf]
    exact sampleFeature_valid ⟨by norm_num, by norm_num⟩

/-- A ninth digit is rounded up, and of two revisions that nothing ranks apart the first counts. -/
theorem news_decay_rounds : ¬ (∀ f : EventImpactFeature, f.Valid → ∀ now x,
      impactAt f now = some x → |x| ≤ |f.impactScore|) ∧
    ¬ ∀ features features' : List EventImpactFeature, (∀ f ∈ features, f.Valid) →
      features.Perm features' → ∀ now, aggregateImpact features now = aggregateImpact features' now := by
  constructor
  · intro hclaim
    have himpact : impactAt (sampleFeature "f1" (123456789 / 10 ^ 9)) 0 = some (12345679 / 10 ^ 8) := by
      decide +kernel
    have hle := hclaim _ (sampleFeature_valid ⟨by norm_num, by norm_num⟩) 0 _ himpact
    norm_num [sampleFeature] at hle
  · intro hclaim
    have hvalid : ∀ f ∈ [sampleFeature "f1" 20, sampleFeature "f1" 40], f.Valid := by
      intro f hf
      rcases List.mem_cons.mp hf with rfl | hf
      · exact sampleFeature_valid ⟨by norm_num, by norm_num⟩
      · rw [List.mem_singleton.mp hf]
        exact sampleFeature_valid ⟨by norm_num, by norm_num⟩
    have hsame := hclaim _ _ hvalid (List.Perm.swap _ _ _) 0
    revert hsame
    decide +kernel

end InvestmentPlatform.Rules
