/-
What the growth metrics of `_growth` and `_quarterly` compare, and with which sign.

A change is the newer amount over the absolute older one, less one.  Above zero that is the relative
change.  After a loss it is right about a newer amount outside the range from the loss to its mirror
image and wrong inside it, since the numerator keeps its own origin: a loss that halves reads as a
fall of one and a half times, and a loss that stays reads as a fall of twice.  `signed_iff` is that
range, and it is the whole of the condition on signs.

The comparison with the year before goes by dates.  The sequential one and the margin trend go by
position in a series that retains its gaps, so they are a quarter apart only where the two last
observations are.
-/
import InvestmentPlatform.Proofs.Rules.Safety

namespace InvestmentPlatform.Rules

open Selection PyLibrary List Datum

/-! ### Two observations -/

/-- The calendar quarters since year nought. -/
def quarterOf (t : Instant) : Int := (civilMonth t).1 * 4 + ((civilMonth t).2 - 1) / 3

/-- Both are dated, and the newer one lies in the quarter after the older one's. -/
def QuarterApart (newer older : Datum) : Prop :=
  ∃ a ∈ newer.asOf, ∃ b ∈ older.asOf, quarterOf a = quarterOf b + 1

/-- The two have one basis, one period type and one unit. -/
def OneSeries (newer older : Datum) : Prop :=
  older.reportingBasis = newer.reportingBasis ∧ older.periodType = newer.periodType ∧
    older.unit = newer.unit

/-- The newer amount is not between a loss and its mirror image. -/
def Readable (newer older : Datum) : Prop :=
  ¬ (older.value ≤ newer.value ∧ newer.value ≤ -older.value)

/-- The change has the sign of the difference. -/
def Signed (change : Change) : Prop :=
  (0 < change.1 ↔ change.2.2.value < change.2.1.value) ∧
    (change.1 = 0 ↔ change.2.1.value = change.2.2.value) ∧
    (change.1 < 0 ↔ change.2.1.value < change.2.2.value)

variable {newer older newest : Datum} {change : Change}

theorem changeOf_eq_some (h : changeOf newer older = some change) :
    older.value ≠ 0 ∧ change = ((newer.value / |older.value| - 1) * 100, newer, older) := by
  unfold changeOf at h
  by_cases hzero : older.value = 0
  · rw [if_pos hzero] at h
    cases h
  · rw [if_neg hzero] at h
    exact ⟨hzero, (Option.some.inj h).symm⟩

variable {x k : ℚ}

/-- A ratio less one, in percent, tells on which side of the denominator the numerator is. -/
theorem percent_sign {y : ℚ} (hy : 0 < y) :
    (0 < (x / y - 1) * 100 ↔ y < x) ∧ ((x / y - 1) * 100 = 0 ↔ x = y) ∧
      ((x / y - 1) * 100 < 0 ↔ x < y) := by
  have hpos : 0 < (x / y - 1) * 100 ↔ y < x := by
    rw [mul_pos_iff_of_pos_right (by norm_num), sub_pos, one_lt_div hy]
  have hneg : (x / y - 1) * 100 < 0 ↔ x < y := by
    constructor
    · intro hlt
      have hbelow : x / y < 1 := by linarith
      exact (div_lt_one hy).mp hbelow
    · intro hlt
      have hbelow : x / y < 1 := (div_lt_one hy).mpr hlt
      linarith
  refine ⟨hpos, ?_, hneg⟩
  rw [mul_eq_zero_iff_right (by norm_num), sub_eq_zero, div_eq_one_iff_eq hy.ne']

/-- **When a change has the right sign.** -/
theorem signed_iff
    (h : changeOf newer older = some change) : Signed change ↔ Readable newer older := by
  obtain ⟨hzero, rfl⟩ := changeOf_eq_some h
  obtain ⟨hpos, heq, hneg⟩ := percent_sign (x := newer.value) (abs_pos.mpr hzero)
  show (_ ↔ older.value < newer.value) ∧ (_ ↔ newer.value = older.value) ∧
    (_ ↔ newer.value < older.value) ↔ ¬ (older.value ≤ newer.value ∧ newer.value ≤ -older.value)
  rw [hpos, heq, hneg]
  rcases lt_or_gt_of_ne hzero with hloss | hgain
  · rw [abs_of_neg hloss]
    constructor
    · intro hsigned hbetween
      rcases lt_or_eq_of_le hbetween.1 with hlt | hsame
      · exact absurd (hsigned.1.mpr hlt) (not_lt.mpr hbetween.2)
      · exact absurd (hsigned.2.2.mp (by linarith)) (lt_irrefl _ ∘ hsame.trans_lt)
    · intro houtside
      by_cases hbelow : newer.value < older.value
      · refine ⟨⟨fun hlt => ?_, fun hlt => ?_⟩, ⟨fun hsame => ?_, fun hsame => ?_⟩,
          ⟨fun _ => hbelow, fun _ => ?_⟩⟩ <;> linarith
      · have habove : -older.value < newer.value :=
          not_le.mp fun hle => houtside ⟨not_lt.mp hbelow, hle⟩
        refine ⟨⟨fun _ => ?_, fun _ => habove⟩, ⟨fun hsame => ?_, fun hsame => ?_⟩,
          ⟨fun hlt => ?_, fun hlt => ?_⟩⟩ <;> linarith
  · rw [abs_of_pos hgain]
    refine ⟨fun _ hbetween => ?_, fun _ => ⟨Iff.rfl, Iff.rfl, Iff.rfl⟩⟩
    linarith [hbetween.1, hbetween.2]

/-- A change rises with the newer amount. -/
theorem changeOf_mono {newer' : Datum} (hle : newer.value ≤ newer'.value)
    {change' : Change} (h : changeOf newer older = some change)
    (h' : changeOf newer' older = some change') : change.1 ≤ change'.1 := by
  obtain ⟨hzero, rfl⟩ := changeOf_eq_some h
  obtain ⟨-, rfl⟩ := changeOf_eq_some h'
  have hratio : newer.value / |older.value| ≤ newer'.value / |older.value| :=
    div_le_div_of_nonneg_right hle (abs_nonneg _)
  show (newer.value / |older.value| - 1) * 100 ≤ (newer'.value / |older.value| - 1) * 100
  linarith

/-! ### Which two are compared -/

/-- The amount replaced. -/
def Datum.worth (d : Datum) (value : ℚ) : Datum := { d with value }

/-- Every amount multiplied. -/
def scaledSeries (k : ℚ) (series : List Datum) : List Datum :=
  series.map fun d => d.worth (k * d.value)

/-- The observation of the same quarter a year earlier that is closest to a year before. -/
def yearBefore (earlier : List Datum) (latest : Datum) : Option Datum :=
  firstMax (fun item : Datum => -|(latest.asOf.getD 0 - item.asOf.getD 0) / day - 365|)
    (earlier.filter fun item =>
      SameQuarterLastYear latest item ∧ item.reportingBasis = latest.reportingBasis ∧
        item.periodType = latest.periodType ∧ item.unit = latest.unit)

theorem yearBefore_spec {earlier : List Datum} {latest prior : Datum}
    (h : yearBefore earlier latest = some prior) :
    prior ∈ earlier ∧ SameQuarterLastYear latest prior ∧ OneSeries latest prior := by
  obtain ⟨hmem, htest⟩ := mem_filter.mp (firstMax_mem h).1
  have hsame := of_decide_eq_true htest
  exact ⟨hmem, hsame.1, hsame.2⟩

theorem comparableYoy_snoc (earlier : List Datum) (latest : Datum) :
    comparableYoy (earlier ++ [latest]) = (yearBefore earlier latest).bind (changeOf latest) := by
  unfold comparableYoy
  by_cases hempty : earlier = []
  · subst hempty
    rfl
  · have hlength : ¬ (earlier ++ [latest]).length < 2 := by
      have := length_pos_of_ne_nil hempty
      rw [length_append, length_singleton]
      omega
    rw [if_neg hlength, getLast?_concat, dropLast_concat]
    rfl

theorem sequentialChange_snoc (earlier : List Datum) (latest : Datum) :
    sequentialChange (earlier ++ [latest]) = earlier.getLast?.bind (changeOf latest) := by
  unfold sequentialChange
  rw [getLast?_concat, dropLast_concat, Option.bind_some]

/-! ### Another scale

The amounts of a series times a positive factor: ratios stay what they are, and what is compared
goes by dates and positions. -/

theorem changeOf_scaled (hk : 0 < k) (newer older : Datum) :
    (changeOf (newer.worth (k * newer.value)) (older.worth (k * older.value))).map Prod.fst =
      (changeOf newer older).map Prod.fst := by
  show Option.map Prod.fst (if k * older.value = 0 then none
      else some ((k * newer.value / |k * older.value| - 1) * 100, _, _)) = _
  unfold changeOf
  by_cases hzero : older.value = 0
  · rw [if_pos hzero, if_pos (by rw [hzero, mul_zero])]
  · rw [if_neg hzero, if_neg (mul_ne_zero hk.ne' hzero), Option.map_some, Option.map_some,
      abs_mul, abs_of_pos hk, mul_div_mul_left _ _ hk.ne']

theorem yearBefore_scaled (k x : ℚ) (earlier : List Datum) (latest : Datum) :
    yearBefore (scaledSeries k earlier) (latest.worth x) =
      (yearBefore earlier latest).map fun d => d.worth (k * d.value) := by
  unfold yearBefore scaledSeries
  rw [filter_map, firstMax_map]
  rfl

theorem scaledSeries_snoc (k : ℚ) (earlier : List Datum) (latest : Datum) :
    scaledSeries k (earlier ++ [latest]) =
      scaledSeries k earlier ++ [latest.worth (k * latest.value)] :=
  map_append

theorem comparableYoy_scaled (hk : 0 < k) (series : List Datum) :
    (comparableYoy (scaledSeries k series)).map Prod.fst = (comparableYoy series).map Prod.fst := by
  rcases eq_nil_or_concat' series with rfl | ⟨earlier, latest, rfl⟩
  · rfl
  · rw [scaledSeries_snoc, comparableYoy_snoc, comparableYoy_snoc, yearBefore_scaled]
    cases yearBefore earlier latest with
    | none => rfl
    | some prior => exact changeOf_scaled hk latest prior

theorem sequentialChange_scaled (hk : 0 < k) (series : List Datum) :
    (sequentialChange (scaledSeries k series)).map Prod.fst =
      (sequentialChange series).map Prod.fst := by
  rcases eq_nil_or_concat' series with rfl | ⟨earlier, latest, rfl⟩
  · rfl
  · rw [scaledSeries_snoc, sequentialChange_snoc, sequentialChange_snoc, scaledSeries, getLast?_map]
    cases earlier.getLast? with
    | none => rfl
    | some prior => exact changeOf_scaled hk latest prior

section

variable [PyLibrary]

/-- What `_series_cagr` takes the root of, and its years. -/
theorem seriesCagr_eq_some {series : List Datum} {cagr : ℚ} :
    seriesCagr series = some cagr ↔ 3 ≤ series.length ∧ ∃ first ∈ series.head?,
      ∃ last ∈ series.getLast?, ∃ start ∈ first.asOf, ∃ stop ∈ last.asOf,
        0 < first.value ∧ 0 < last.value ∧ 1 < (((stop - start) / day : Int) : ℚ) / 365.25 ∧
        cagr = (pow (last.value / first.value)
          (1 / ((((stop - start) / day : Int) : ℚ) / 365.25)) - 1) * 100 := by
  unfold seriesCagr
  by_cases hshort : series.length < 3
  · rw [if_pos hshort]
    constructor
    · intro h
      cases h
    · intro h
      exact absurd h.1 (not_le.mpr hshort)
  · rw [if_neg hshort]
    cases hfirst : series.head? with
    | none => simp
    | some first =>
        cases hlast : series.getLast? with
        | none => simp
        | some last =>
            cases hstart : first.asOf with
            | none => simp [hstart]
            | some start =>
                cases hstop : last.asOf with
                | none => simp [hstop]
                | some stop =>
                    have hlong : 3 ≤ series.length := not_lt.mp hshort
                    simp only [Option.mem_def, Option.some.injEq, exists_eq_left', hlong,
                      hstart, hstop, true_and]
                    by_cases hbad : first.value ≤ 0 ∨ last.value ≤ 0 ∨
                        (((stop - start) / day : Int) : ℚ) / 365.25 ≤ 1
                    · rw [if_pos hbad]
                      constructor
                      · intro h
                        cases h
                      · intro h
                        rcases hbad with hle | hle | hle
                        · exact absurd h.1 (not_lt.mpr hle)
                        · exact absurd h.2.1 (not_lt.mpr hle)
                        · exact absurd h.2.2.1 (not_lt.mpr hle)
                    · rw [if_neg hbad]
                      push Not at hbad
                      simp only [Option.some.injEq, hbad.1, hbad.2.1, hbad.2.2, true_and]
                      exact eq_comm

theorem seriesCagr_scaled {k : ℚ} (hk : 0 < k) (series : List Datum) :
    seriesCagr (scaledSeries k series) = seriesCagr series := by
  apply Option.ext
  intro cagr
  rw [← Option.mem_def, ← Option.mem_def, Option.mem_def, Option.mem_def, seriesCagr_eq_some,
    seriesCagr_eq_some, scaledSeries, length_map, head?_map, getLast?_map]
  cases series.head? with
  | none => simp
  | some first =>
      cases series.getLast? with
      | none => simp
      | some last =>
          simp only [Option.map_some, Option.mem_def, Option.some.injEq, exists_eq_left',
            worth, mul_pos_iff_of_pos_left hk, mul_div_mul_left _ _ hk.ne']

/-- **Which observations make a series does not depend on their amounts.** -/
theorem seriesOf_worth (data : List Datum) (f : Datum → ℚ) :
    seriesOf (data.map fun d => d.worth (f d)) = (seriesOf data).map fun d => d.worth (f d) := by
  have hrank : (groupRank ∘ List.map fun d => d.worth (f d)) = groupRank := by
    funext rows
    show groupRank (rows.map fun d => d.worth (f d)) = groupRank rows
    unfold groupRank newest
    rw [filterMap_map, map_map, head?_map, Option.any_map]
    cases rows.head? <;> rfl
  have hgroups : groupOn (groupKey ∘ fun d => d.worth (f d))
      (keepBest (periodKey ∘ fun d => d.worth (f d))
        (authority ∘ fun d => d.worth (f d)) data) =
      groupOn groupKey (keepBest periodKey authority data) := rfl
  unfold seriesOf
  rw [keepBest_map, groupOn_map, firstMax_map, hrank, hgroups]
  cases firstMax groupRank
      (groupOn groupKey (keepBest periodKey authority data)) with
  | none => rfl
  | some rows =>
      have hsort := map_insertionSort (fun a b : Datum => a.asOf.getD 0 ≤ b.asOf.getD 0)
        (fun a b : Datum => a.asOf.getD 0 ≤ b.asOf.getD 0) (fun d => d.worth (f d)) rows
        fun a _ b _ => Iff.rfl
      exact hsort.symm

/-! ### A larger newest amount -/

/-- A power rises with its base; `math.pow` over positive bases and exponents. -/
def PowRises : Prop := ∀ x y e : ℚ, 0 < x → x ≤ y → 0 < e → pow x e ≤ pow y e

variable {earlier : List Datum}

omit [PyLibrary] in
theorem comparableYoy_raised {newest : Datum} {x : ℚ} (hx : newest.value ≤ x)
    {change change' : Change} (h : comparableYoy (earlier ++ [newest]) = some change)
    (h' : comparableYoy (earlier ++ [newest.worth x]) = some change') : change.1 ≤ change'.1 := by
  rw [comparableYoy_snoc] at h h'
  have hprior : yearBefore earlier (newest.worth x) = yearBefore earlier newest := rfl
  rw [hprior] at h'
  obtain ⟨prior, hmem, hchange⟩ := Option.bind_eq_some_iff.mp h
  rw [hmem] at h'
  exact changeOf_mono hx hchange h'

omit [PyLibrary] in
theorem sequentialChange_raised {newest : Datum} {x : ℚ} (hx : newest.value ≤ x)
    {change change' : Change} (h : sequentialChange (earlier ++ [newest]) = some change)
    (h' : sequentialChange (earlier ++ [newest.worth x]) = some change') :
    change.1 ≤ change'.1 := by
  rw [sequentialChange_snoc] at h h'
  obtain ⟨prior, hmem, hchange⟩ := Option.bind_eq_some_iff.mp h
  rw [hmem] at h'
  exact changeOf_mono hx hchange h'

theorem seriesCagr_raised (hpow : PowRises) {newest : Datum} {x : ℚ}
    (hx : newest.value ≤ x) {cagr cagr' : ℚ} (h : seriesCagr (earlier ++ [newest]) = some cagr)
    (h' : seriesCagr (earlier ++ [newest.worth x]) = some cagr') : cagr ≤ cagr' := by
  obtain ⟨hlong, first, hfirst, last, hlast, start, hstart, stop, hstop, hpos, hlastPos, hyears,
    rfl⟩ := seriesCagr_eq_some.mp h
  obtain ⟨-, first', hfirst', last', hlast', start', hstart', stop', hstop', -, -, -, rfl⟩ :=
    seriesCagr_eq_some.mp h'
  have hne : earlier ≠ [] := by
    rintro rfl
    exact absurd hlong (by norm_num)
  rw [getLast?_concat] at hlast hlast'
  obtain rfl := Option.some.inj hlast
  obtain rfl := Option.some.inj hlast'
  rw [head?_append_of_ne_nil _ hne] at hfirst hfirst'
  obtain rfl := Option.some.inj (hfirst.symm.trans hfirst')
  obtain rfl := Option.some.inj (hstart.symm.trans hstart')
  obtain rfl := Option.some.inj (hstop.symm.trans hstop')
  have hbase : newest.value / first.value ≤ x / first.value :=
    div_le_div_of_nonneg_right hx hpos.le
  have hrise := hpow _ _ _ (div_pos hlastPos hpos) hbase (one_div_pos.mpr (one_pos.trans hyears))
  show _ ≤ (pow (x / first.value) _ - 1) * 100
  linarith

end

theorem lastN_snoc {α : Type} (n : Nat) (l : List α) (a : α) :
    lastN (n + 1) (l ++ [a]) = lastN n l ++ [a] := by
  unfold lastN
  rw [length_append, length_singleton, Nat.add_sub_add_right,
    drop_append_of_le_length (Nat.sub_le _ _)]

/-- What passes a test is no fewer where every element may take the place of its own. -/
theorem filter_length_le {α : Type} {R : α → α → Prop} {p : α → Bool} {l l' : List α}
    (h : Forall₂ R l l') (hp : ∀ a b, R a b → p a = true → p b = true) :
    (l.filter p).length ≤ (l'.filter p).length := by
  induction h with
  | nil => exact le_refl _
  | @cons a b l l' hab _ ih =>
      by_cases ha : p a = true
      · rw [filter_cons_of_pos ha, filter_cons_of_pos (hp a b hab ha)]
        exact Nat.succ_le_succ ih
      · rw [filter_cons_of_neg ha]
        exact ih.trans ((sublist_cons_self b l').filter p).length_le

/-- The same earlier observation, and a later one that is no smaller. -/
def NoSmaller (p q : Datum × Datum) : Prop := p.1 = q.1 ∧ p.2.value ≤ q.2.value

theorem noSmaller_refl (l : List (Datum × Datum)) : Forall₂ NoSmaller l l :=
  forall₂_same.mpr fun _ _ => ⟨rfl, le_refl _⟩

theorem zip_raised (firsts seconds : List Datum) (hx : newest.value ≤ x) :
    Forall₂ NoSmaller (firsts.zip (seconds ++ [newest]))
      (firsts.zip (seconds ++ [newest.worth x])) := by
  induction seconds generalizing firsts with
  | nil =>
      cases firsts with
      | nil => exact .nil
      | cons a rest =>
          rw [nil_append, nil_append, zip_cons_cons, zip_cons_cons]
          refine .cons ⟨rfl, hx⟩ ?_
          rw [zip_nil_right]
          exact .nil
  | cons b seconds ih =>
      cases firsts with
      | nil => exact .nil
      | cons a rest => exact .cons ⟨rfl, le_refl _⟩ (ih rest)

theorem consecutivePairs_raised (earlier : List Datum) (hx : newest.value ≤ x) :
    Forall₂ NoSmaller (consecutivePairs (earlier ++ [newest]))
      (consecutivePairs (earlier ++ [newest.worth x])) := by
  unfold consecutivePairs
  rw [lastN_snoc, lastN_snoc, lastN_snoc, lastN_snoc, dropLast_concat, dropLast_concat]
  exact zip_raised _ _ hx

/-- The share of the pairs that do not fall. -/
def shareRising (pairs : List (Datum × Datum)) : ℚ :=
  ((pairs.filter fun pair => pair.1.value ≤ pair.2.value).length : ℚ) / pairs.length * 100

theorem growthConsistency_eq_some {series : List (List Datum)} {c : ℚ × List Datum}
    (h : growthConsistency series = some c) :
    series.flatMap consecutivePairs ≠ [] ∧ c.1 = shareRising (series.flatMap consecutivePairs) ∧
      c.2 ≠ [] := by
  unfold growthConsistency at h
  cases hpairs : series.flatMap consecutivePairs with
  | nil => rw [hpairs] at h; cases h
  | cons p rest =>
      rw [hpairs] at h
      obtain rfl := Option.some.inj h
      exact ⟨cons_ne_nil _ _, rfl, by simp⟩

theorem growthConsistency_raised (before after : List (List Datum)) {earlier : List Datum}
    (hx : newest.value ≤ x) {c c' : ℚ × List Datum}
    (h : growthConsistency (before ++ (earlier ++ [newest]) :: after) = some c)
    (h' : growthConsistency (before ++ (earlier ++ [newest.worth x]) :: after) = some c') :
    c.1 ≤ c'.1 := by
  rw [(growthConsistency_eq_some h).2.1, (growthConsistency_eq_some h').2.1]
  simp only [flatMap_append, flatMap_cons]
  have hpairs := rel_append (noSmaller_refl (before.flatMap consecutivePairs))
    (rel_append (consecutivePairs_raised earlier hx)
      (noSmaller_refl (after.flatMap consecutivePairs)))
  have hcount := filter_length_le (p := fun pair : Datum × Datum =>
      decide (pair.1.value ≤ pair.2.value)) hpairs fun a b hab ha => by
    rw [decide_eq_true_iff] at ha ⊢
    exact hab.1 ▸ ha.trans hab.2
  unfold shareRising
  rw [hpairs.length_eq]
  refine mul_le_mul_of_nonneg_right ?_ (by norm_num)
  exact div_le_div_of_nonneg_right (by exact_mod_cast hcount) (by positivity)

theorem positiveShare_raised (n : Nat) (earlier : List Datum) (hx : newest.value ≤ x) :
    positiveShare (lastN (n + 1) (earlier ++ [newest])) ≤
      positiveShare (lastN (n + 1) (earlier ++ [newest.worth x])) := by
  rw [lastN_snoc, lastN_snoc]
  have hdata : Forall₂ (fun a b : Datum => a.value ≤ b.value) (lastN n earlier ++ [newest])
      (lastN n earlier ++ [newest.worth x]) := by
    refine rel_append (forall₂_same.mpr fun d _ => le_refl d.value) ?_
    exact .cons hx .nil
  have hcount := filter_length_le (p := fun d : Datum => decide (0 < d.value)) hdata
    fun a b hab ha => by
      rw [decide_eq_true_iff] at ha ⊢
      exact ha.trans_le hab
  unfold positiveShare
  rw [hdata.length_eq]
  refine mul_le_mul_of_nonneg_right ?_ (by norm_num)
  exact div_le_div_of_nonneg_right (by exact_mod_cast hcount) (by positivity)

/-! ### Scores of changes -/

/-- **A larger change has no lower score.** -/
theorem growthScore_mono {v w : ℚ} (h : v ≤ w) : growthScore v ≤ growthScore w := by
  have hrising : Piecewise.Rising
      ([(-30, 5), (-10, 25), (0, 45), (10, 65), (20, 80), (40, 95)] : List (ℚ × ℚ)) := by
    decide +kernel
  unfold growthScore
  rw [piecewise_eq hrising.ascending, piecewise_eq hrising.ascending]
  exact PyFloat.roundTo_mono 2 (hrising.piecewise_mono h)

end InvestmentPlatform.Rules
