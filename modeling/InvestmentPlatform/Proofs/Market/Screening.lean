/-
What the screen for implausible prices leaves.

A price that is taken out was between two that are near each other, so two survivors with one gap
between them look alike, and a second screening has nothing to object to there.  It takes a run of
two removed prices to bring two survivors together that the screen has never compared.
-/
import InvestmentPlatform.Market.History

namespace InvestmentPlatform.Market

open PyFloat List Nat

/-! ### Ratios -/

theorem nearestDouble_two : nearestDouble 2 = 2 := by
  have h := nearestDouble_bits (m := 2 ^ 52) (by norm_num) (by norm_num) 1
  norm_num at h
  exact h

theorem nearestDouble_half : nearestDouble (1 / 2) = 1 / 2 := by
  have h := nearestDouble_bits (m := 2 ^ 52) (by norm_num) (by norm_num) (-1)
  norm_num at h
  exact h

theorem nearestDouble_fiveFourths : nearestDouble (5 / 4) = 5 / 4 := by
  have h := nearestDouble_bits (m := 5 * 2 ^ 50) (by norm_num) (by norm_num) 0
  norm_num at h
  exact h

theorem nearestDouble_threeFourths : nearestDouble (3 / 4) = 3 / 4 := by
  have h := nearestDouble_bits (m := 3 * 2 ^ 51) (by norm_num) (by norm_num) (-1)
  norm_num at h
  exact h

theorem tolerance_mem : 1 ≤ reversionTolerance ∧ reversionTolerance ≤ 5 / 4 := by
  have hlow : (2 : ℚ) ^ (0 : Int) ≤ 115 / 100 := by norm_num
  have hone := zpow_le_nearestDouble hlow
  have hhigh := nearestDouble_mono (a := 115 / 100) (b := 5 / 4) (by norm_num) (by norm_num)
  rw [nearestDouble_fiveFourths] at hhigh
  rw [zpow_zero] at hone
  exact ⟨hone, hhigh⟩

theorem threeFourths_le_inverse : 3 / 4 ≤ ratio 1 reversionTolerance := by
  obtain ⟨hone, hhigh⟩ := tolerance_mem
  have hpos : (0 : ℚ) < reversionTolerance := by linarith
  have hle : (3 / 4 : ℚ) ≤ 1 / reversionTolerance := by
    rw [le_div_iff₀ hpos]
    linarith
  have hmono := nearestDouble_mono (by norm_num) hle
  rw [nearestDouble_threeFourths] at hmono
  exact hmono

variable {prior current following : ℚ}

/-- A ratio within the bounds is no deviation. -/
theorem deviates_eq_false (hprior : 0 < prior) (hlow : prior ≤ 2 * current)
    (hhigh : current ≤ 2 * prior) : deviates prior current = false := by
  have hle : current / prior ≤ 2 := by
    rw [div_le_iff₀ hprior]
    exact hhigh
  have hge : 1 / 2 ≤ current / prior := by
    rw [le_div_iff₀ hprior]
    linarith
  have habove := nearestDouble_mono (by linarith) hle
  have hbelow := nearestDouble_mono (by norm_num) hge
  rw [nearestDouble_two] at habove
  rw [nearestDouble_half] at hbelow
  unfold deviates implausibleSingleDayRatio ratio
  rw [nearestDouble_half, Bool.or_eq_false_iff, decide_eq_false_iff_not, decide_eq_false_iff_not]
  exact ⟨not_lt.mpr habove, not_lt.mpr hbelow⟩

/-- What is back is within the tolerance, in exact numbers. -/
theorem reverted_bounds (hprior : 0 < prior) (hfollowing : 0 < following)
    (h : reverted prior following = true) :
    3 * prior < 4 * following ∧ 4 * following < 5 * prior := by
  unfold reverted at h
  rw [Bool.and_eq_true, decide_eq_true_eq, decide_eq_true_eq] at h
  have hpos : 0 ≤ following / prior := (div_pos hfollowing hprior).le
  have hlow : 3 / 4 < following / prior := by
    by_contra hle
    have hmono := nearestDouble_mono hpos (not_lt.mp hle)
    rw [nearestDouble_threeFourths] at hmono
    exact absurd (lt_of_lt_of_le h.1 hmono) (not_lt.mpr threeFourths_le_inverse)
  have hhigh : following / prior < 5 / 4 := by
    by_contra hle
    have hmono := nearestDouble_mono (by norm_num) (not_lt.mp hle)
    rw [nearestDouble_fiveFourths] at hmono
    exact absurd (lt_of_le_of_lt hmono h.2) (not_lt.mpr tolerance_mem.2)
  rw [lt_div_iff₀ hprior] at hlow
  rw [div_lt_iff₀ hprior] at hhigh
  constructor <;> linarith

/-- A price is only taken out where it deviates and the next one is back. -/
theorem implausible_iff : implausible prior current following = true ↔
    0 < prior ∧ 0 < current ∧ 0 < following ∧ deviates prior current = true ∧
      reverted prior following = true := by
  unfold implausible
  split
  · rename_i hnot
    refine iff_of_false Bool.false_ne_true fun h => ?_
    rcases hnot with hle | hle | hle
    · exact absurd h.1 (not_lt.mpr hle)
    · exact absurd h.2.1 (not_lt.mpr hle)
    · exact absurd h.2.2.1 (not_lt.mpr hle)
  · rename_i hpos
    rw [Bool.and_eq_true]
    simp only [not_or, not_le] at hpos
    tauto

/-- Between two prices that are near each other nothing survives as a deviation of theirs. -/
theorem not_deviates_of_reverted (hprior : 0 < prior) (hfollowing : 0 < following)
    (h : reverted prior following = true) : deviates prior following = false := by
  obtain ⟨hlow, hhigh⟩ := reverted_bounds hprior hfollowing h
  exact deviates_eq_false hprior (by linarith) (by linarith)

/-- Two prices near a third are not far from each other. -/
theorem not_deviates_of_both (hprior : 0 < prior) (hcurrent : 0 < current)
    (hfollowing : 0 < following) (h : reverted prior following = true)
    (h' : reverted current following = true) : deviates prior current = false := by
  obtain ⟨hlow, hhigh⟩ := reverted_bounds hprior hfollowing h
  obtain ⟨hlow', hhigh'⟩ := reverted_bounds hcurrent hfollowing h'
  exact deviates_eq_false hprior (by linarith) (by linarith)

/-! ### The observations that are kept -/

/-- Their places, in order. -/
def kept (values : List ℚ) : List Nat :=
  (range values.length).filter fun i => i ∉ quarantineImplausibleIndices values

theorem screened_eq (values : List ℚ) :
    screened values = (kept values).map fun i => values.getD i 0 := by
  have hrows : values.zipIdx = (range values.length).map fun i => (values.getD i 0, i) := by
    refine ext_getElem (by simp) fun i hleft hright => ?_
    rw [length_zipIdx] at hleft
    simp [getD_eq_getElem?_getD, getElem?_eq_getElem hleft]
  unfold screened kept
  rw [hrows, filter_map, map_map]
  rfl

theorem length_screened (values : List ℚ) : (screened values).length = (kept values).length := by
  rw [screened_eq, length_map]

variable {values : List ℚ} {j i : Nat}

theorem screened_getD (h : j < (kept values).length) :
    (screened values).getD j 0 = values.getD (kept values)[j] 0 := by
  rw [screened_eq, getD_eq_getElem?_getD, getElem?_map, getElem?_eq_getElem h]
  rfl

theorem mem_kept :
    i ∈ kept values ↔ i < values.length ∧ i ∉ quarantineImplausibleIndices values := by
  unfold kept
  rw [mem_filter, mem_range, decide_eq_true_eq]

theorem kept_lt {k : Nat} {hj : j < (kept values).length} (hjk : j < k)
    (hk : k < (kept values).length) : (kept values)[j] < (kept values)[k] := by
  have hsorted : (kept values).Pairwise (· < ·) := pairwise_lt_range.filter _
  exact pairwise_iff_getElem.mp hsorted j k hj hk hjk

/-- Between two neighbours of the screened series everything was taken out. -/
theorem mem_quarantine_of_between {m : Nat} (hfirst : j < (kept values).length)
    (hj : j + 1 < (kept values).length) (hlow : (kept values)[j] < m)
    (hhigh : m < (kept values)[j + 1]) : m ∈ quarantineImplausibleIndices values := by
  by_contra hnot
  have hlast : (kept values)[j + 1] < values.length := (mem_kept.mp (getElem_mem hj)).1
  have hmem : m ∈ kept values := mem_kept.mpr ⟨hhigh.trans hlast, hnot⟩
  obtain ⟨t, ht, htm⟩ := getElem_of_mem hmem
  -- `m` would have a place of its own between two neighbouring places
  rcases Nat.lt_trichotomy t j with hlt | heq | hgt
  · have hlow' : (kept values)[t] < (kept values)[j] := kept_lt hlt hfirst
    omega
  · subst heq
    omega
  · rcases Nat.eq_or_lt_of_le (succ_le_of_lt hgt) with heq | hlt
    · have hsame : (kept values)[j + 1] = (kept values)[t] := getElem_congr rfl heq _
      omega
    · have hhigh' : (kept values)[j + 1] < (kept values)[t] := kept_lt hlt ht
      omega

/-! ### What is taken out -/

theorem mem_quarantine : i ∈ quarantineImplausibleIndices values ↔ 1 ≤ i ∧ i + 1 < values.length ∧
      implausible (values.getD (i - 1) 0) (values.getD i 0) (values.getD (i + 1) 0) = true := by
  unfold quarantineImplausibleIndices
  rw [mem_filter, mem_range'_1]
  constructor
  · rintro ⟨hi, h⟩
    exact ⟨hi.1, by omega, h⟩
  · rintro ⟨hone, hlast, h⟩
    exact ⟨⟨hone, by omega⟩, h⟩

/-- A price that is taken out deviates from the one before it. -/
theorem deviates_of_mem (h : i ∈ quarantineImplausibleIndices values) :
    deviates (values.getD (i - 1) 0) (values.getD i 0) = true :=
  (implausible_iff.mp (mem_quarantine.mp h).2.2).2.2.2.1

/-- The two neighbours of a price that is taken out are near each other. -/
theorem reverted_of_mem (h : i ∈ quarantineImplausibleIndices values) :
    reverted (values.getD (i - 1) 0) (values.getD (i + 1) 0) = true :=
  (implausible_iff.mp (mem_quarantine.mp h).2.2).2.2.2.2

theorem screened_eq_self (h : quarantineImplausibleIndices values = []) :
    screened values = values := by
  unfold screened
  rw [h]
  simp

theorem quarantine_eq_nil (h : ∀ i, 1 ≤ i → i + 1 < values.length →
      deviates (values.getD (i - 1) 0) (values.getD i 0) = true →
      reverted (values.getD (i - 1) 0) (values.getD (i + 1) 0) = false) :
    quarantineImplausibleIndices values = [] := by
  rw [eq_nil_iff_forall_not_mem]
  intro i hi
  obtain ⟨hone, hlast, -⟩ := mem_quarantine.mp hi
  have hfar := h i hone hlast (deviates_of_mem hi)
  rw [reverted_of_mem hi] at hfar
  exact Bool.noConfusion hfar

/-! ### Screening again -/

/-- Two adjacent observations were taken out right before or right after this one. -/
def BesideRun (values : List ℚ) (i : Nat) : Prop :=
  (i + 1 ∈ quarantineImplausibleIndices values ∧ i + 2 ∈ quarantineImplausibleIndices values) ∨
    (2 ≤ i ∧ i - 1 ∈ quarantineImplausibleIndices values ∧
      i - 2 ∈ quarantineImplausibleIndices values)

theorem getD_pos (hpos : ∀ value ∈ values, 0 < value)
    (hi : i < values.length) : 0 < values.getD i 0 := by
  rw [getD_eq_getElem?_getD, getElem?_eq_getElem hi]
  exact hpos _ (getElem_mem hi)

/-- What the second screening objects to stands beside a run the first one took out. -/
theorem besideRun_of_mem (hpos : ∀ value ∈ values, 0 < value)
    (h : j ∈ quarantineImplausibleIndices (screened values)) :
    ∃ hj : j < (kept values).length, BesideRun values (kept values)[j] := by
  obtain ⟨hone, hlast, -⟩ := mem_quarantine.mp h
  have hdeviates := deviates_of_mem h
  have hreverted := reverted_of_mem h
  rw [length_screened] at hlast
  have hj : j < (kept values).length := lt_of_succ_lt hlast
  obtain ⟨k, rfl⟩ : ∃ k, j = k + 1 := ⟨j - 1, by omega⟩
  have hk : k < (kept values).length := lt_of_succ_lt hj
  rw [Nat.add_sub_cancel] at hdeviates hreverted
  rw [screened_getD hk, screened_getD hj] at hdeviates
  rw [screened_getD hk, screened_getD hlast] at hreverted
  have hlow : (kept values)[k] < (kept values)[k + 1] := kept_lt (lt_succ_self k) hj
  have hhigh : (kept values)[k + 1] < (kept values)[k + 1 + 1] :=
    kept_lt (lt_succ_self _) hlast
  have hbefore := fun m => mem_quarantine_of_between (m := m) hk hj
  have hafter := fun m => mem_quarantine_of_between (m := m) hj hlast
  obtain ⟨hnext, -⟩ := mem_kept.mp (getElem_mem hlast)
  obtain ⟨-, hkeep⟩ := mem_kept.mp (getElem_mem hj)
  refine ⟨hj, ?_⟩
  -- from here on only the three places count
  generalize (kept values)[k] = p at *
  generalize (kept values)[k + 1] = i at *
  generalize (kept values)[k + 1 + 1] = q at *
  have hp := getD_pos hpos (show p < values.length by omega)
  have hi := getD_pos hpos (show i < values.length by omega)
  have hq := getD_pos hpos hnext
  by_cases hrunBefore : p + 3 ≤ i
  · right
    exact ⟨by omega, hbefore _ (by omega) (by omega), hbefore _ (by omega) (by omega)⟩
  by_cases hrunAfter : i + 3 ≤ q
  · left
    exact ⟨hafter _ (by omega) (by omega), hafter _ (by omega) (by omega)⟩
  exfalso
  by_cases hgapBefore : i = p + 2
  · -- one price was taken out before: its neighbours are near each other
    have hgone := reverted_of_mem (hbefore (p + 1) (by omega) (by omega))
    rw [Nat.add_sub_cancel, show p + 1 + 1 = i by omega] at hgone
    rw [not_deviates_of_reverted hp hi hgone] at hdeviates
    exact Bool.noConfusion hdeviates
  have hadjacent : i = p + 1 := by omega
  by_cases hgapAfter : q = i + 2
  · -- one price was taken out after: both survivors are near the price behind it
    have hgone := reverted_of_mem (hafter (i + 1) (by omega) (by omega))
    rw [Nat.add_sub_cancel, show i + 1 + 1 = q by omega] at hgone
    rw [not_deviates_of_both hp hi hq hreverted hgone] at hdeviates
    exact Bool.noConfusion hdeviates
  · -- nothing was taken out on either side, so the first screening saw the same three prices
    have hsucc : q = i + 1 := by omega
    subst hsucc
    apply hkeep
    rw [mem_quarantine, show i - 1 = p by omega, implausible_iff]
    exact ⟨by omega, hnext, hp, hi, hq, hdeviates, hreverted⟩

/-! ### What the screen guarantees -/

/-- The second price is at least half and at most twice the first. -/
def WithinBand (prior current : ℚ) : Prop :=
  1 / 2 ≤ current / prior ∧ current / prior ≤ 2

theorem not_deviates_of_band {prior current : ℚ} (hprior : 0 < prior)
    (h : WithinBand prior current) : deviates prior current = false := by
  obtain ⟨hlow, hhigh⟩ := h
  rw [le_div_iff₀ hprior] at hlow
  rw [div_le_iff₀ hprior] at hhigh
  exact deviates_eq_false hprior (by linarith) hhigh

/-- What holds of the screening of `values`. -/
structure Screens (values : List ℚ) : Prop where
  /-- The first and the last observation stay. -/
  edges : ∀ i ∈ quarantineImplausibleIndices values, 1 ≤ i ∧ i + 1 < values.length
  /-- Only beside a run of removed ones does the second screening remove something. -/
  again : ∀ j ∈ quarantineImplausibleIndices (screened values),
    ∃ hj : j < (kept values).length, BesideRun values (kept values)[j]
  /-- Where no two adjacent ones are removed, the second screening removes nothing. -/
  isolated : (∀ i ∈ quarantineImplausibleIndices values,
    i + 1 ∉ quarantineImplausibleIndices values) → screened (screened values) = screened values
  /-- A series without large moves loses nothing. -/
  calm : (∀ i, i + 1 < values.length → WithinBand (values.getD i 0) (values.getD (i + 1) 0)) →
    screened values = values
  /-- Nor does one with a single level shift, at `k`, that the next observation confirms. -/
  shift : ∀ k, (∀ i, i + 1 < values.length → i + 1 ≠ k →
      WithinBand (values.getD i 0) (values.getD (i + 1) 0)) →
    (k + 1 < values.length →
      reverted (values.getD (k - 1) 0) (values.getD (k + 1) 0) = false) →
    screened values = values

/-- **The screen takes out isolated anomalies only, and one pass settles a series whose anomalies
are isolated.** -/
theorem screening (values : List ℚ) (hpos : ∀ value ∈ values, 0 < value) : Screens values where
  edges := by
    intro i hi
    obtain ⟨hone, hlast, -⟩ := mem_quarantine.mp hi
    exact ⟨hone, hlast⟩
  again := fun j hj => besideRun_of_mem hpos hj
  isolated := by
    intro halone
    apply screened_eq_self
    rw [List.eq_nil_iff_forall_not_mem]
    intro j hj
    obtain ⟨hlt, hrun⟩ := besideRun_of_mem hpos hj
    rcases hrun with ⟨hfirst, hsecond⟩ | ⟨htwo, hfirst, hsecond⟩
    · exact halone _ hfirst hsecond
    · refine halone _ hsecond ?_
      rw [show (kept values)[j] - 2 + 1 = (kept values)[j] - 1 by omega]
      exact hfirst
  calm := by
    intro hcalm
    apply screened_eq_self
    apply quarantine_eq_nil
    intro i hone hlast hdeviates
    have hband := hcalm (i - 1) (by omega)
    rw [Nat.sub_add_cancel hone] at hband
    rw [not_deviates_of_band (getD_pos hpos (by omega)) hband] at hdeviates
    exact Bool.noConfusion hdeviates
  shift := by
    intro k hcalm hheld
    apply screened_eq_self
    apply quarantine_eq_nil
    intro i hone hlast hdeviates
    by_cases hk : i = k
    · subst hk
      exact hheld hlast
    · have hband := hcalm (i - 1) (by omega) (by omega)
      rw [Nat.sub_add_cancel hone] at hband
      rw [not_deviates_of_band (getD_pos hpos (by omega)) hband] at hdeviates
      exact Bool.noConfusion hdeviates

theorem screening_sample : Screens [100, 300, 90] :=
  screening [100, 300, 90] (by
    intro value hvalue
    simp only [List.mem_cons, List.not_mem_nil, or_false] at hvalue
    rcases hvalue with rfl | rfl | rfl <;> norm_num)

/-- Two adjacent anomalies go, and their neighbours make a third: the second screening takes out
an observation of the first one's result. -/
theorem screening_twice : (∀ value ∈ ([100, 300, 90, 300, 112] : List ℚ), 0 < value) ∧
    screened [100, 300, 90, 300, 112] = [100, 300, 112] ∧
    screened [100, 300, 112] = [100, 112] := by
  decide +kernel

end InvestmentPlatform.Market
