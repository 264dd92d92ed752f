/-
Which fiscal calendars the two histories are exact for.

An annual history is, unless its year ends in February near a leap year: an end on 29 February
asks for the 28th of other years, which it does not group with itself, and an end on the 28th
is moved by the evidence plan to the 29th of a leap year.  A quarterly history is where its latest
quarter ends with the month: for any other day it asks for the end of that month, which is later
than anything reported.
-/
import InvestmentPlatform.Evidence.StatementHistory
import InvestmentPlatform.Proofs.Evidence.HistoryGaps
import InvestmentPlatform.Rules.Ascii

namespace InvestmentPlatform.Evidence

open PyDate Selection List Option
open Fallible (mem_mapM mapM_ne_none mapM_agree)
open Rules (PyLibrary)

/-! ### Dates -/

theorem daysInMonth_of_ne {month : Nat} (h : month ≠ 2) (year year' : Nat) :
    daysInMonth year month = daysInMonth year' month := by
  unfold daysInMonth
  rw [if_neg h, if_neg h]

theorem daysInMonth_february (year : Nat) : daysInMonth year 2 = if isLeap year then 29 else 28 :=
  if_pos rfl

/-- Where so many months on is. -/
theorem monthsOn_eq {year month year' month' : Nat} {months : Int}
    (hmonth : 1 ≤ month' ∧ month' ≤ 12)
    (h : (year : Int) * 12 + month + months = year' * 12 + month') :
    monthsOn year month months = ((year' : Int), (month' : Int)) := by
  have hdiv : ((year : Int) * 12 + month - 1 + months) / 12 = year' := by omega
  have hmod : ((year : Int) * 12 + month - 1 + months) % 12 + 1 = month' := by omega
  exact Prod.ext hdiv hmod

/-! ### The annual history -/

/-- The fiscal year ends neither on 29 February nor, in a year without it, on the 28th when one of
the two years before has it; and the two years before are in the calendar. -/
structure AnnualCalendar (latest : Date) : Prop where
  year : 3 ≤ latest.year
  leapDay : ¬ (latest.month = 2 ∧ latest.day = 29)
  february : ¬ (latest.month = 2 ∧ latest.day = 28 ∧ isLeap latest.year = false ∧
    (isLeap (latest.year - 1) = true ∨ isLeap (latest.year - 2) = true))

variable {latest period : Date} {offset : Nat}

/-- The required and the planned end of a year, at such a calendar. -/
theorem AnnualCalendar.ends (h : AnnualCalendar latest)
    (hoffset : offset < 3) : ∃ period : Date, fiscalEnd latest offset = some period ∧
      shiftMonths latest (-12 * offset) = some period ∧ period.month = latest.month ∧
      period.day = latest.day ∧ period ≤ latest := by
  obtain ⟨⟨hfirst, hlast⟩, hmonth, hday, hdays⟩ := latest.valid
  have hyear := h.year
  -- the day exists in the month of that year, and is its last one where it was
  have hexists : latest.day ≤ daysInMonth (latest.year - offset) latest.month ∧
      (latest.IsMonthEnd → latest.day = daysInMonth (latest.year - offset) latest.month) := by
    by_cases hfebruary : latest.month = 2
    · have hnot29 : latest.day ≠ 29 := fun hc => h.leapDay ⟨hfebruary, hc⟩
      rw [hfebruary, daysInMonth_february] at hdays
      rw [hfebruary, daysInMonth_february]
      constructor
      · split <;> split at hdays <;> omega
      · intro hend
        unfold Date.IsMonthEnd at hend
        rw [hfebruary, daysInMonth_february] at hend
        cases hleap : isLeap latest.year with
        | true =>
            rw [hleap, if_pos rfl] at hend
            exact absurd hend hnot29
        | false =>
            rw [hleap, if_neg Bool.false_ne_true] at hend
            have hnone : isLeap (latest.year - offset) = false := by
              apply Bool.of_not_eq_true
              intro hother
              refine h.february ⟨hfebruary, hend, hleap, ?_⟩
              interval_cases offset
              · rw [Nat.sub_zero, hleap] at hother
                cases hother
              · exact Or.inl hother
              · exact Or.inr hother
            rw [hnone, if_neg Bool.false_ne_true, hend]
    · rw [daysInMonth_of_ne hfebruary (latest.year - offset) latest.year]
      exact ⟨hdays, fun hend => hend⟩
  obtain ⟨hle, hend⟩ := hexists
  obtain ⟨period, hperiod, hyearOf, hmonthOf, hdayOf⟩ :=
    exists_ofYmd (show 1 ≤ latest.year - offset ∧ latest.year - offset ≤ 9999 by omega) hmonth
      ⟨hday, hle⟩
  refine ⟨period, ?_, ?_, hmonthOf, hdayOf, ?_⟩
  · unfold fiscalEnd Date.yearsBefore
    rw [hperiod]
    rfl
  · unfold shiftMonths
    have hcount : (latest.year : Int) * 12 + latest.month + -12 * offset =
        (latest.year - offset : Nat) * 12 + latest.month := by omega
    rw [monthsOn_eq hmonth hcount]
    dsimp only
    rw [Int.toNat_natCast, Int.toNat_natCast]
    by_cases hlastDay : latest.IsMonthEnd
    · rw [if_pos hlastDay, ← hend hlastDay]
      exact hperiod
    · rw [if_neg hlastDay, min_eq_left hle]
      exact hperiod
  · rw [le_iff_number]
    unfold Date.number
    rw [hyearOf, hmonthOf, hdayOf]
    omega

/-- The end of a year before has the month, and the day or the 28th. -/
theorem fiscalEnd_cases
    (h : fiscalEnd latest offset = some period) : period.year = latest.year - offset ∧
      period.month = latest.month ∧ (period.day = latest.day ∨ period.day = 28) := by
  unfold fiscalEnd Date.yearsBefore at h
  rcases or_eq_some_iff.mp h with hday | ⟨-, h28⟩
  · obtain ⟨hyear, hmonth, hday⟩ := ofYmd_eq_some.mp hday
    exact ⟨hyear, hmonth, Or.inl hday⟩
  · obtain ⟨hyear, hmonth, hday⟩ := ofYmd_eq_some.mp h28
    exact ⟨hyear, hmonth, Or.inr hday⟩

theorem three_le_year {ends : List Date}
    (h : annualHistory.required latest = some ends) : 3 ≤ latest.year := by
  obtain ⟨period, -, htwo⟩ := mapM_ne_none h 2 (by decide)
  have hyearOf := (fiscalEnd_cases htwo).1
  have hvalid := period.valid.1.1
  omega

theorem not_leap_pred {year : Nat} (hpos : 1 ≤ year) (h : isLeap year = true) :
    isLeap (year - 1) = false := by
  unfold isLeap at h ⊢
  rw [decide_eq_true_eq] at h
  rw [decide_eq_false_iff_not]
  omega

/-- For an end on 29 February the year before is asked for with the 28th. -/
theorem fiscalEnd_leapDay (hmonth : latest.month = 2)
    (hday : latest.day = 29) (h : fiscalEnd latest 1 = some period) : period.day = 28 := by
  unfold fiscalEnd Date.yearsBefore at h
  rcases or_eq_some_iff.mp h with h29 | ⟨-, h28⟩
  · exfalso
    obtain ⟨hyearOf, hmonthOf, hdayOf⟩ := ofYmd_eq_some.mp h29
    have hleap : isLeap latest.year = true := by
      apply Bool.of_not_eq_false
      intro hnone
      have hvalid := latest.valid.2.2.2
      rw [hmonth, daysInMonth_february, hnone, if_neg Bool.false_ne_true, hday] at hvalid
      omega
    have hvalid := period.valid.2.2.2
    rw [hyearOf, hmonthOf, hdayOf, hmonth, daysInMonth_february,
      not_leap_pred latest.valid.1.1 hleap, if_neg Bool.false_ne_true, hday] at hvalid
    omega
  · exact (ofYmd_eq_some.mp h28).2.2

theorem annual_coherent : Coherent annualHistory := by
  intro p q h
  obtain ⟨hinstrument, h⟩ := Prod.mk.injEq .. |>.mp h
  obtain ⟨hbasis, h⟩ := Prod.mk.injEq .. |>.mp h
  exact ⟨hinstrument, hbasis, (Prod.mk.injEq .. |>.mp h).1⟩

theorem annual_fits (h : AnnualCalendar latest) :
    ∃ ends, Fits annualHistory latest ends ∧ plannedPeriods latest 12 3 = some ends := by
  obtain ⟨ends, hrequired, hplanned, hall⟩ := mapM_agree (l := range 3)
    (f := fiscalEnd latest) (g := fun offset : Nat => shiftMonths latest (-12 * offset))
    (P := fun period => period.month = latest.month ∧ period.day = latest.day ∧ period ≤ latest)
    fun offset hoffset => h.ends (mem_range.mp hoffset)
  refine ⟨ends, ⟨hrequired, fun period hperiod => (hall period hperiod).2.2, ?_⟩, hplanned⟩
  intro point hpoint metric period hperiod
  obtain ⟨hmonth, hday, -⟩ := hall period hperiod
  unfold annualHistory
  dsimp only
  rw [hpoint, hmonth, hday]

section
variable [PyLibrary]

/-- The latest period that is reported for a history, by a supported fact. -/
def IncomeHistory.reported {K : Type} (history : IncomeHistory K) (facts : List ReportedFact) :
    Option Date :=
  latestOf (history.points facts)

/-- What is reported is selected, and its latest period with it. -/
theorem selected_of_reported {K : Type} [DecidableEq K] {history : IncomeHistory K}
    {facts : List ReportedFact} {latest : Date} (h : history.reported facts = some latest) :
    ∃ first rest, history.selected facts = some (first :: rest) ∧
      Selected history (history.points facts) first (first :: rest) ∧
        latestOf (first :: rest) = some latest := by
  rcases selected_cases history facts with ⟨hnil, -⟩ | ⟨first, group, hselected, hgroup⟩
  · unfold IncomeHistory.reported at h
    rw [hnil] at h
    cases h
  · obtain ⟨rest, rfl⟩ : ∃ rest, group = first :: rest := head?_eq_some_iff.mp hgroup.head
    obtain ⟨found, hfound⟩ := hgroup.exists_latest
    have hsame := (hgroup.latest hfound).symm.trans h
    cases hsame
    exact ⟨first, rest, hselected, hgroup, hfound⟩

/-- A call that returns has required its periods. -/
theorem required_of_returns {K : Type} [DecidableEq K] {history : IncomeHistory K}
    {facts : List ReportedFact} {group : List IncomePoint} {latest : Date}
    (hselected : history.selected facts = some group) (hlatest : latestOf group = some latest)
    (h : ∃ gaps, history.gaps facts = some gaps) :
    ∃ ends, history.required latest = some ends ∧
      history.gaps facts = some (missingKeys history.kind group ends) := by
  obtain ⟨gaps, hgaps⟩ := h
  rw [gaps_eq hselected hlatest] at hgaps
  obtain ⟨ends, hends, -⟩ := map_eq_some_iff.mp hgaps
  refine ⟨ends, hends, ?_⟩
  rw [gaps_eq hselected hlatest, hends]
  rfl

/-- A supported fact for every key, in the currency of a fact that is there. -/
def filling (unit : Option String) (keys : List FinancialFactKey) : List ReportedFact :=
  keys.map fun key =>
    { key := key, valued := true, unit := unit, sourceTier := .yahoo, sourceMode := .real }

/-- For an end on 29 February the gaps cannot be closed. -/
theorem not_exact_of_leapDay {facts : List ReportedFact} {latest : Date}
    {planned : Date → Option (List Date)} (h : Exact annualHistory planned facts)
    (hreported : annualHistory.reported facts = some latest) :
    ¬ (latest.month = 2 ∧ latest.day = 29) := by
  rintro ⟨hmonth, hday⟩
  obtain ⟨first, rest, hselected, hgroup, hlatest⟩ := selected_of_reported hreported
  obtain ⟨ends, hends, hgaps⟩ := required_of_returns hselected hlatest h.returns
  have hbefore : ∀ period ∈ ends, period ≤ latest := by
    intro period hperiod
    obtain ⟨offset, -, hoffset⟩ := (mem_mapM hends period).mp hperiod
    obtain ⟨hyearOf, hmonthOf, hdayOf⟩ := fiscalEnd_cases hoffset
    rw [le_iff_number]
    unfold Date.number
    omega
  -- a fact for every gap, in the currency of the group
  obtain ⟨source, -, hsource⟩ := mem_filterMap.mp (hgroup.mem.mp hgroup.first_mem).1
  have hunit : currencyOf source.unit = some first.unit :=
    (incomePoint_eq_some.mp hsource).2.2.2.2.2.2.2.2.1
  have hadded : ∀ fact ∈ filling source.unit (missingKeys annualHistory.kind (first :: rest) ends),
      ∃ key ∈ missingKeys annualHistory.kind (first :: rest) ends,
        Supports key first.unit fact := by
    intro fact hfact
    obtain ⟨key, hkey, rfl⟩ := mem_map.mp hfact
    exact ⟨key, hkey, rfl, rfl, mem_cons_self, rfl, hunit⟩
  have hclosed := h.closable _ first (first :: rest) hgaps hselected rfl _ hadded
    fun key hkey => ⟨_, mem_map_of_mem hkey, rfl⟩
  -- the latest period is the same, so the same ends are asked for
  have hreported' : annualHistory.reported (facts ++ filling source.unit
      (missingKeys annualHistory.kind (first :: rest) ends)) = some latest := by
    obtain ⟨⟨point, hpoint, hperiod⟩, hmax⟩ := latestOf_eq_some.mp hreported
    unfold IncomeHistory.reported IncomeHistory.points
    rw [filterMap_append]
    refine latestOf_eq_some.mpr ⟨⟨point, mem_append_left _ hpoint, hperiod⟩, ?_⟩
    intro other hother
    rcases mem_append.mp hother with hother | hother
    · exact hmax other hother
    · obtain ⟨-, -, period, hperiod, metric, -, -, -, rfl⟩ :=
        (filled_points hgroup hadded _).mp hother
      exact hbefore period hperiod
  obtain ⟨first', rest', hselected', hgroup', hlatest'⟩ := selected_of_reported hreported'
  obtain ⟨ends', hends', hgaps'⟩ := required_of_returns hselected' hlatest' ⟨_, hclosed⟩
  rw [hclosed] at hgaps'
  obtain ⟨period, hperiod, hone⟩ := mapM_ne_none hends' 1 (by decide)
  have h28 := fiscalEnd_leapDay hmonth hday hone
  -- but no member of a group of ends on the 29th has the 28th
  obtain ⟨⟨member, hmember, hmemberPeriod⟩, -⟩ := latestOf_eq_some.mp hlatest'
  have hmissing : gapKey annualHistory.kind first' "revenue" period ∈
      missingKeys annualHistory.kind (first' :: rest') ends' := by
    refine mem_missingKeys.mpr ⟨period, hperiod, "revenue", mem_cons_self, ?_, rfl⟩
    rintro other hother ⟨-, hsame⟩
    have hkeys := (hgroup'.mem.mp hother).2.trans (hgroup'.mem.mp hmember).2.symm
    have hdays : other.period.day = member.period.day :=
      congrArg (fun key : String × String × String × Nat × Nat => key.2.2.2.2) hkeys
    rw [hsame, hmemberPeriod, h28, hday] at hdays
    omega
  rw [← some.inj hgaps'] at hmissing
  cases hmissing

/-- For an end on the 28th that is moved to a leap day the plan asks for another day. -/
theorem not_exact_of_february {facts : List ReportedFact} {latest : Date}
    (h : Exact annualHistory (plannedPeriods · 12 3) facts)
    (hreported : annualHistory.reported facts = some latest) :
    ¬ (latest.month = 2 ∧ latest.day = 28 ∧ isLeap latest.year = false ∧
      (isLeap (latest.year - 1) = true ∨ isLeap (latest.year - 2) = true)) := by
  rintro ⟨hmonth, hday, hplain, hleap⟩
  obtain ⟨first, rest, hselected, -, hlatest⟩ := selected_of_reported hreported
  obtain ⟨ends, hends, -⟩ := required_of_returns hselected hlatest h.returns
  have hplanned := (h.agrees _ latest hselected hlatest).symm.trans hends
  obtain ⟨offset, hoffset, hleapOf⟩ : ∃ offset ∈ range 3, isLeap (latest.year - offset) = true := by
    rcases hleap with hone | htwo
    · exact ⟨1, by decide, hone⟩
    · exact ⟨2, by decide, htwo⟩
  have hlastDay : latest.IsMonthEnd := by
    unfold Date.IsMonthEnd
    rw [hmonth, daysInMonth_february, hplain, if_neg Bool.false_ne_true, hday]
  obtain ⟨period, hperiod, hshift⟩ := mapM_ne_none hplanned offset hoffset
  -- the plan has the leap day there, and a required end never has
  have h29 : period.day = 29 := by
    unfold shiftMonths at hshift
    have hcount : (latest.year : Int) * 12 + latest.month + -12 * offset =
        (latest.year - offset : Nat) * 12 + latest.month := by
      have hyear := three_le_year hends
      have hlt := mem_range.mp hoffset
      omega
    rw [monthsOn_eq latest.valid.2.1 hcount] at hshift
    dsimp only at hshift
    rw [Int.toNat_natCast, Int.toNat_natCast, if_pos hlastDay, hmonth, daysInMonth_february,
      hleapOf, if_pos rfl] at hshift
    exact (ofYmd_eq_some.mp hshift).2.2
  obtain ⟨back, -, hback⟩ := (mem_mapM hends period).mp hperiod
  rcases (fiscalEnd_cases hback).2.2 with hsame | h28
  · rw [hsame, hday] at h29
    omega
  · rw [h28] at h29
    omega

/-- **The annual gaps are exact and can be closed, and agree with the plan**, exactly where the
latest fiscal year end is of such a calendar. -/
theorem annual_exact_iff (facts : List ReportedFact) :
    Exact annualHistory (plannedPeriods · 12 3) facts ↔
      ∀ latest, annualHistory.reported facts = some latest → AnnualCalendar latest := by
  constructor
  · intro h latest hreported
    refine ⟨?_, not_exact_of_leapDay h hreported, not_exact_of_february h hreported⟩
    obtain ⟨first, rest, hselected, -, hlatest⟩ := selected_of_reported hreported
    obtain ⟨ends, hends, -⟩ := required_of_returns hselected hlatest h.returns
    exact three_le_year hends
  · intro h
    exact exact_of_fits annual_coherent fun latest hlatest => annual_fits (h latest hlatest)

end

/-! ### The quarterly history -/

/-- The quarter ends with its month, and the three before are in the calendar. -/
structure QuarterlyCalendar (latest : Date) : Prop where
  monthEnd : latest.IsMonthEnd
  year : 2 ≤ latest.year ∨ 9 < latest.month

/-- The end of a quarter before, where it is one of the calendar. -/
theorem quarterEnd_eq_some (hoffset : offset < 4) :
    quarterEnd latest offset = some period ↔ period.IsMonthEnd ∧
      period.year * 12 + period.month + 3 * offset = latest.year * 12 + latest.month := by
  obtain ⟨⟨hyear, -⟩, hmonth, -⟩ := latest.valid
  obtain ⟨⟨hyear', -⟩, hmonth', -⟩ := period.valid
  unfold quarterEnd
  dsimp only
  split
  · rw [ofYmd_eq_some]
    constructor
    · rintro ⟨hyearOf, hmonthOf, hdayOf⟩
      rw [← hyearOf, ← hmonthOf] at hdayOf
      exact ⟨hdayOf, by omega⟩
    · rintro ⟨hend, hcount⟩
      have hyearOf : period.year = latest.year - 1 := by omega
      have hmonthOf : period.month = latest.month + 12 - offset * 3 := by omega
      refine ⟨hyearOf, hmonthOf, ?_⟩
      rw [← hyearOf, ← hmonthOf]
      exact hend
  · rw [ofYmd_eq_some]
    constructor
    · rintro ⟨hyearOf, hmonthOf, hdayOf⟩
      rw [← hyearOf, ← hmonthOf] at hdayOf
      exact ⟨hdayOf, by omega⟩
    · rintro ⟨hend, hcount⟩
      have hyearOf : period.year = latest.year := by omega
      have hmonthOf : period.month = latest.month - offset * 3 := by omega
      refine ⟨hyearOf, hmonthOf, ?_⟩
      rw [← hyearOf, ← hmonthOf]
      exact hend

/-- The required and the planned end of a quarter, at such a calendar. -/
theorem QuarterlyCalendar.ends (h : QuarterlyCalendar latest)
    (hoffset : offset < 4) : ∃ period : Date, quarterEnd latest offset = some period ∧
      shiftMonths latest (-3 * offset) = some period ∧ period ≤ latest := by
  obtain ⟨⟨hfirst, hlast⟩, hmonth, hday, -⟩ := latest.valid
  have hyear := h.year
  obtain ⟨year, month, hcount, hyearOf, hmonthOf⟩ : ∃ year month : Nat,
      year * 12 + month + 3 * offset = latest.year * 12 + latest.month ∧
        (1 ≤ year ∧ year ≤ 9999) ∧ 1 ≤ month ∧ month ≤ 12 :=
    ⟨(latest.year * 12 + latest.month - 1 - 3 * offset) / 12,
      (latest.year * 12 + latest.month - 1 - 3 * offset) % 12 + 1, by omega, by omega, by omega⟩
  obtain ⟨period, hperiod, rfl, rfl, hdayOf⟩ := exists_ofYmd hyearOf hmonthOf
    ⟨(daysInMonth_bounds year month).1.trans' (by decide), le_refl (daysInMonth year month)⟩
  refine ⟨period, (quarterEnd_eq_some hoffset).mpr ⟨hdayOf, hcount⟩, ?_, ?_⟩
  · unfold shiftMonths
    have hshift : (latest.year : Int) * 12 + latest.month + -3 * offset =
        period.year * 12 + period.month := by omega
    rw [monthsOn_eq hmonthOf hshift]
    dsimp only
    rw [Int.toNat_natCast, Int.toNat_natCast, if_pos h.monthEnd]
    exact hperiod
  · rw [le_iff_number]
    unfold Date.number
    by_cases hzero : offset = 0
    · have hyearSame : period.year = latest.year := by omega
      have hmonthSame : period.month = latest.month := by omega
      have hend := h.monthEnd
      unfold Date.IsMonthEnd at hend
      rw [hdayOf, hyearSame, hmonthSame, hend]
    · have hbound := period.day_le
      omega

theorem quarterly_coherent : Coherent quarterlyHistory := by
  intro p q h
  obtain ⟨hinstrument, h⟩ := Prod.mk.injEq .. |>.mp h
  exact ⟨hinstrument, Prod.mk.injEq .. |>.mp h⟩

theorem quarterly_fits (h : QuarterlyCalendar latest) :
    ∃ ends, Fits quarterlyHistory latest ends ∧ plannedPeriods latest 3 4 = some ends := by
  obtain ⟨ends, hrequired, hplanned, hall⟩ := mapM_agree (l := range 4)
    (f := quarterEnd latest) (g := fun offset : Nat => shiftMonths latest (-3 * offset))
    (P := fun period => period ≤ latest) fun offset hoffset => h.ends (mem_range.mp hoffset)
  exact ⟨ends, ⟨hrequired, hall, fun point _ metric period _ => rfl⟩, hplanned⟩

section
variable [PyLibrary]

/-- **The quarterly gaps are exact and can be closed, and agree with the plan**, exactly where the
latest quarter ends with its month. -/
theorem quarterly_exact_iff (facts : List ReportedFact) :
    Exact quarterlyHistory (plannedPeriods · 3 4) facts ↔
      ∀ latest, quarterlyHistory.reported facts = some latest → QuarterlyCalendar latest := by
  constructor
  · intro h latest hreported
    obtain ⟨first, rest, hselected, hgroup, hlatest⟩ := selected_of_reported hreported
    obtain ⟨ends, hends, hgaps⟩ := required_of_returns hselected hlatest h.returns
    constructor
    · -- the end of the latest month is asked for, unless it is there
      by_contra hnot
      obtain ⟨period, hperiod, hzero⟩ := mapM_ne_none hends 0 (by decide)
      obtain ⟨hend, hcount⟩ := (quarterEnd_eq_some (by decide)).mp hzero
      have hlater : latest < period := by
        obtain ⟨-, hmonth, -, hday⟩ := latest.valid
        have hmonth' := period.valid.2.1
        have hyearSame : period.year = latest.year := by omega
        have hmonthSame : period.month = latest.month := by omega
        unfold Date.IsMonthEnd at hend hnot
        rw [lt_iff_number]
        unfold Date.number
        rw [hend, hyearSame, hmonthSame]
        omega
      obtain ⟨-, hmax⟩ := latestOf_eq_some.mp hreported
      have hmissing : gapKey quarterlyHistory.kind first "revenue" period ∈
          missingKeys quarterlyHistory.kind (first :: rest) ends := by
        refine mem_missingKeys.mpr ⟨period, hperiod, "revenue", mem_cons_self, ?_, rfl⟩
        rintro other hother ⟨-, hsame⟩
        have hle := hmax other (hgroup.mem.mp hother).1
        rw [hsame] at hle
        exact absurd hlater (not_lt.mpr hle)
      obtain ⟨bound, hbound, point, hpoint, -, hle⟩ := h.bounded _ hgaps _ hmissing
      have hsame : period = bound := isoformat_injective (some.inj hbound)
      rw [← hsame] at hle
      exact absurd hlater (not_lt.mpr (hle.trans (hmax point hpoint)))
    · obtain ⟨period, -, hthree⟩ := mapM_ne_none hends 3 (by decide)
      obtain ⟨-, hcount⟩ := (quarterEnd_eq_some (by decide)).mp hthree
      have hvalid := period.valid
      omega
  · intro h
    exact exact_of_fits quarterly_coherent fun latest hlatest => quarterly_fits (h latest hlatest)

/-! ### Both histories -/

/-- **Where both are exact**: a condition on the latest reported ends alone. -/
theorem histories_exact_iff (facts : List ReportedFact) :
    (Exact annualHistory (plannedPeriods · 12 3) facts ∧
      Exact quarterlyHistory (plannedPeriods · 3 4) facts) ↔
      (∀ latest, annualHistory.reported facts = some latest → AnnualCalendar latest) ∧
        ∀ latest, quarterlyHistory.reported facts = some latest → QuarterlyCalendar latest :=
  and_congr (annual_exact_iff facts) (quarterly_exact_iff facts)

end

/-- A supported fact of one company. -/
def reportedFact (metric periodType periodEnd : String) : ReportedFact where
  key := ⟨"company", metric, some periodEnd, periodType, some "CONSOLIDATED"⟩
  valued := true
  unit := some "INR"
  sourceTier := .officialNse
  sourceMode := .real

/-- A fiscal year that ended on 29 February. -/
def leapYearEnd : List ReportedFact :=
  [reportedFact "revenue" "ANNUAL" "2024-02-29", reportedFact "net_profit" "ANNUAL" "2024-02-29"]

/-- What is asked for then: the two metrics at the two ends before. -/
def leapYearGaps : List FinancialFactKey :=
  [⟨"company", "revenue", some "2023-02-28", "ANNUAL", some "CONSOLIDATED"⟩,
    ⟨"company", "pat", some "2023-02-28", "ANNUAL", some "CONSOLIDATED"⟩,
    ⟨"company", "revenue", some "2022-02-28", "ANNUAL", some "CONSOLIDATED"⟩,
    ⟨"company", "pat", some "2022-02-28", "ANNUAL", some "CONSOLIDATED"⟩]

attribute [local instance] Rules.asciiLibrary

/-- With facts for all of them the same gaps are reported; and a quarter that ended on 29 June is
asked for at the 30th. -/
theorem gaps_never_close : annualIncomeHistoryGaps leapYearEnd = some leapYearGaps ∧
    annualIncomeHistoryGaps (leapYearEnd ++ filling (some "INR") leapYearGaps) =
      some leapYearGaps ∧
    ((quarterlyIncomeHistoryGaps [reportedFact "revenue" "QUARTERLY" "2026-06-29",
      reportedFact "pat" "QUARTERLY" "2026-06-29"]).map fun gaps =>
        (gaps.take 2).map FinancialFactKey.periodEnd) =
      some [some "2026-06-30", some "2026-06-30"] := by
  decide

end InvestmentPlatform.Evidence

/-!
The groups of facts behind the shown histories do not depend on the order of the facts.

Where there is at most one fact for each period, type, basis, metric and authority, the dicts hold
the fact of the highest authority for each metric, in whatever order the facts arrive.  The groups
then are the same up to their order, and so are the ranks of their bases; and of two bases that
compete one always outranks the other, because an explicit basis ranks before none and the
consolidated one before the standalone one.
-/

namespace InvestmentPlatform.Evidence.StatementHistory

open Selection

variable {isDigit : Char → Bool} {periodTypes metrics : List String}
  {facts facts' held held' : List FinancialFact} {fact : FinancialFact} {key : GroupKey}
  {kind metric : String}

/-! ### One fact for each key and authority -/

/-- The fact has a period end. -/
def dated (fact : FinancialFact) : Bool := fact.key.periodEnd.getD "" ≠ ""

/-- At most one fact for each period, type, basis, metric and authority. -/
def Unambiguous (isDigit : Char → Bool) (facts : List FinancialFact) : Prop :=
  ((facts.filter dated).map fun fact => (factKey isDigit fact, authority fact)).Nodup

instance : Decidable (Unambiguous isDigit facts) := inferInstanceAs (Decidable (List.Nodup _))

/-- The bases that facts have. -/
def Based (facts : List FinancialFact) : Prop :=
  ∀ fact ∈ facts, fact.key.reportingBasis ∈ [none, some "STANDALONE", some "CONSOLIDATED"]

/-- The fact of the highest authority for a metric of a group. -/
structure Best (isDigit : Char → Bool) (facts : List FinancialFact) (key : GroupKey)
    (metric : String) (fact : FinancialFact) : Prop where
  mem : fact ∈ facts
  real : supported fact = true
  under : factKey isDigit fact = (key, metric)
  highest : ∀ other ∈ facts, supported other = true →
    factKey isDigit other = (key, metric) → authority other ≤ authority fact

theorem usable_iff : usable periodTypes metrics fact = true ↔
    supported fact = true ∧ fact.key.periodType ∈ periodTypes ∧ fact.key.metric ∈ metrics := by
  unfold usable
  rw [Bool.and_eq_true, Bool.and_eq_true, decide_eq_true_eq, decide_eq_true_eq, and_assoc]

theorem dated_of_supported (h : supported fact = true) : dated fact = true := by
  unfold supported at h
  rw [Bool.and_eq_true] at h
  exact h.2

theorem Unambiguous.eq (h : Unambiguous isDigit facts) {other : FinancialFact}
    (hfact : fact ∈ facts) (hother : other ∈ facts) (hsupported : supported fact = true)
    (hsupported' : supported other = true) (hkey : factKey isDigit fact = factKey isDigit other)
    (hauthority : authority fact = authority other) : fact = other :=
  List.inj_on_of_nodup_map h (List.mem_filter.mpr ⟨hfact, dated_of_supported hsupported⟩)
    (List.mem_filter.mpr ⟨hother, dated_of_supported hsupported'⟩)
    (Prod.ext hkey hauthority)

/-! ### What the dicts hold -/

theorem usable_of_mem_heldFacts (h : fact ∈ heldFacts isDigit periodTypes metrics facts) :
    fact ∈ facts ∧ usable periodTypes metrics fact = true := by
  unfold heldFacts at h
  have hmem := mem_of_mem_keepBest h
  exact List.mem_filter.mp hmem

theorem heldFacts_nodup :
    ((heldFacts isDigit periodTypes metrics facts).map (factKey isDigit)).Nodup := by
  unfold heldFacts
  exact keepBest_keys_nodup _

variable (isDigit) in
/-- Some fact is held for the key of every usable fact. -/
theorem exists_held (hfact : fact ∈ facts) (husable : usable periodTypes metrics fact = true) :
    ∃ held ∈ heldFacts isDigit periodTypes metrics facts,
      factKey isDigit held = factKey isDigit fact := by
  have hmem : factKey isDigit fact ∈ (facts.filter (usable periodTypes metrics)).map
      (factKey isDigit) := List.mem_map_of_mem (List.mem_filter.mpr ⟨hfact, husable⟩)
  have hkeys : factKey isDigit fact ∈
      (heldFacts isDigit periodTypes metrics facts).map (factKey isDigit) :=
    mem_keepBest_keys.mpr hmem
  obtain ⟨held, hheld, hkey⟩ := List.mem_map.mp hkeys
  exact ⟨held, hheld, hkey⟩

/-- The held facts are those of the highest authority. -/
theorem mem_heldFacts (h : Unambiguous isDigit facts) :
    fact ∈ heldFacts isDigit periodTypes metrics facts ↔ usable periodTypes metrics fact = true ∧
        Best isDigit facts (groupKey isDigit fact) fact.key.metric fact := by
  have hsame : ∀ other : FinancialFact, factKey isDigit other = factKey isDigit fact →
      supported other = true → usable periodTypes metrics fact = true →
      usable periodTypes metrics other = true := by
    intro other hkey hsupported husable
    obtain ⟨-, htype, hmetric⟩ := usable_iff.mp husable
    obtain ⟨hgroup, hname⟩ := Prod.mk.inj hkey
    refine usable_iff.mpr ⟨hsupported, ?_, ?_⟩
    · have htypes : other.key.periodType = fact.key.periodType :=
        congrArg GroupKey.periodType hgroup
      rw [htypes]
      exact htype
    · have hnames : other.key.metric = fact.key.metric := hname
      rw [hnames]
      exact hmetric
  unfold heldFacts
  rw [mem_keepBest]
  constructor
  · intro hfirst
    obtain ⟨hmem, hmax⟩ := firstMax_mem hfirst
    obtain ⟨hfact, husable⟩ := List.mem_filter.mp (List.mem_filter.mp hmem).1
    refine ⟨husable, hfact, (usable_iff.mp husable).1, rfl, fun other hother hsupported hkey => ?_⟩
    refine hmax other (List.mem_filter.mpr ⟨List.mem_filter.mpr ⟨hother, ?_⟩, ?_⟩)
    · exact hsame other hkey hsupported husable
    · exact decide_eq_true hkey
  · intro hbest
    obtain ⟨husable, hfact, hsupported, -, hhighest⟩ := hbest
    have hmem : fact ∈ (facts.filter (usable periodTypes metrics)).filter
        (factKey isDigit · = factKey isDigit fact) :=
      List.mem_filter.mpr ⟨List.mem_filter.mpr ⟨hfact, husable⟩, decide_eq_true rfl⟩
    cases hfirst : firstMax authority ((facts.filter (usable periodTypes metrics)).filter
        (factKey isDigit · = factKey isDigit fact)) with
    | none =>
      rw [firstMax_eq_none.mp hfirst] at hmem
      exact absurd hmem List.not_mem_nil
    | some top =>
      obtain ⟨htop, hmax⟩ := firstMax_mem hfirst
      obtain ⟨htop', hkey⟩ := List.mem_filter.mp htop
      obtain ⟨htopmem, htopusable⟩ := List.mem_filter.mp htop'
      have hkey' : factKey isDigit top = factKey isDigit fact := of_decide_eq_true hkey
      have htopsupported := (usable_iff.mp htopusable).1
      have hle := hhighest top htopmem htopsupported hkey'
      exact congrArg some (h.eq htopmem hfact htopsupported hsupported hkey'
        (le_antisymm hle (hmax fact hmem)))

variable (periodTypes metrics) in
/-- Two orders of the facts hold the same facts. -/
theorem heldFacts_perm (hperm : facts.Perm facts') (h : Unambiguous isDigit facts) :
    (heldFacts isDigit periodTypes metrics facts).Perm
      (heldFacts isDigit periodTypes metrics facts') := by
  have hties : ∀ k, Undisputed authority id
      ((facts.filter (usable periodTypes metrics)).filter (factKey isDigit · = k)) := by
    intro k first hfirst second hsecond htop htop'
    obtain ⟨hfirst', hkey⟩ := List.mem_filter.mp hfirst
    obtain ⟨hsecond', hkey'⟩ := List.mem_filter.mp hsecond
    obtain ⟨hmem, husable⟩ := List.mem_filter.mp hfirst'
    obtain ⟨hmem', husable'⟩ := List.mem_filter.mp hsecond'
    exact h.eq hmem hmem' (usable_iff.mp husable).1 (usable_iff.mp husable').1
      ((of_decide_eq_true hkey).trans (of_decide_eq_true hkey').symm)
      (le_antisymm (htop' first hfirst) (htop second hsecond))
  have hkept := keepBest_map_perm (hperm.filter (usable periodTypes metrics)) hties
  rwa [List.map_id, List.map_id] at hkept

/-! ### Groups -/

theorem mem_groupKeys : key ∈ groupKeys isDigit held ↔ ∃ fact ∈ held, groupKey isDigit fact = key := by
  unfold groupKeys
  rw [keepFirst, mem_keepBest_keys, List.mem_map]

theorem groupKeys_nodup : (groupKeys isDigit held).Nodup := keepBest_keys_nodup held

section

variable (hperm : held.Perm held')
include hperm

theorem groupKeys_perm :
    (groupKeys isDigit held).Perm (groupKeys isDigit held') := keepBest_keys_perm hperm

theorem valuesOf_perm (key : GroupKey) :
    (valuesOf isDigit held key).Perm (valuesOf isDigit held' key) := hperm.filter _

theorem basisRank_perm : basisRank isDigit held = basisRank isDigit held' := by
  funext key
  have hmax : maxAuthority (valuesOf isDigit held key) = maxAuthority (valuesOf isDigit held' key) :=
    ((valuesOf_perm hperm key).map authority).foldr_eq 0
  unfold basisRank
  rw [hmax]

theorem valueOf_perm (hnodup : (held.map (factKey isDigit)).Nodup)
    (key : GroupKey) (metric : String) :
    valueOf isDigit held key metric = valueOf isDigit held' key metric := by
  refine find?_perm (valuesOf_perm hperm key) fun first hfirst second hsecond hmetric hmetric' => ?_
  obtain ⟨hmem, hkey⟩ := List.mem_filter.mp hfirst
  obtain ⟨hmem', hkey'⟩ := List.mem_filter.mp hsecond
  have hgroup : groupKey isDigit first = groupKey isDigit second :=
    (of_decide_eq_true hkey).trans (of_decide_eq_true hkey').symm
  have hname : first.key.metric = second.key.metric :=
    (of_decide_eq_true hmetric).trans (of_decide_eq_true hmetric').symm
  rw [List.inj_on_of_nodup_map hnodup hmem hmem' (Prod.ext hgroup hname)]

end

/-- What a group shows of a metric is what its fact of the highest authority says. -/
theorem valueOf_heldFacts (h : Unambiguous isDigit facts) (hkind : key.periodType ∈ periodTypes)
    (hmetric : metric ∈ metrics) (value : ProvenancedValue) :
    valueOf isDigit (heldFacts isDigit periodTypes metrics facts) key metric = some value ↔
      ∃ fact, Best isDigit facts key metric fact ∧ fact.value = value := by
  constructor
  · intro hvalue
    obtain ⟨fact, hfind, hval⟩ := Option.map_eq_some_iff.mp hvalue
    obtain ⟨hheld, hkey⟩ := List.mem_filter.mp (List.mem_of_find?_eq_some hfind)
    have hname := List.find?_some hfind
    obtain ⟨-, hbest⟩ := (mem_heldFacts h).mp hheld
    rw [of_decide_eq_true hkey, of_decide_eq_true hname] at hbest
    exact ⟨fact, hbest, hval⟩
  · intro hexists
    obtain ⟨fact, hbest, hval⟩ := hexists
    obtain ⟨hgroup, hname⟩ := Prod.mk.inj hbest.under
    have hgroup' : groupKey isDigit fact = key := hgroup
    have hname' : fact.key.metric = metric := hname
    have husable : usable periodTypes metrics fact = true := by
      refine usable_iff.mpr ⟨hbest.real, ?_, hname'.symm ▸ hmetric⟩
      rw [← hgroup'] at hkind
      exact hkind
    have hheld : fact ∈ heldFacts isDigit periodTypes metrics facts := by
      refine (mem_heldFacts h).mpr ⟨husable, ?_⟩
      rw [hgroup', hname']
      exact hbest
    have hin : fact ∈ valuesOf isDigit (heldFacts isDigit periodTypes metrics facts) key :=
      List.mem_filter.mpr ⟨hheld, decide_eq_true hgroup'⟩
    unfold valueOf
    cases hfind : (valuesOf isDigit (heldFacts isDigit periodTypes metrics facts) key).find?
        (·.key.metric = metric) with
    | none => exact absurd (decide_eq_true hname') (List.find?_eq_none.mp hfind fact hin)
    | some found =>
      obtain ⟨hfound, hfoundkey⟩ := List.mem_filter.mp (List.mem_of_find?_eq_some hfind)
      have hfoundname := List.find?_some hfind
      have hsame : found = fact := List.inj_on_of_nodup_map heldFacts_nodup hfound hheld
        (Prod.ext ((of_decide_eq_true hfoundkey).trans hgroup'.symm)
          ((of_decide_eq_true hfoundname).trans hname'.symm))
      rw [hsame, Option.map_some, hval]

/-! ### Competing bases -/

/-- The bases of the groups are those of the facts. -/
theorem basis_of_mem_groupKeys (h : Based held) (hkey : key ∈ groupKeys isDigit held) :
    key.reportingBasis ∈ [none, some "STANDALONE", some "CONSOLIDATED"] := by
  obtain ⟨fact, hfact, rfl⟩ := mem_groupKeys.mp hkey
  exact h fact hfact

/-- Groups of equal rank have one basis. -/
theorem basis_of_rank {key' : GroupKey}
    (hkey : key.reportingBasis ∈ [none, some "STANDALONE", some "CONSOLIDATED"])
    (hkey' : key'.reportingBasis ∈ [none, some "STANDALONE", some "CONSOLIDATED"])
    (hrank : basisRank isDigit held key = basisRank isDigit held key') :
    key.reportingBasis = key'.reportingBasis := by
  have hparts := congrArg (fun rank => (ofLex (ofLex rank).2)) hrank
  have hexplicit := congrArg Prod.fst hparts
  have hconsolidated := congrArg Prod.snd hparts
  simp only [basisRank, ofLex_toLex] at hexplicit hconsolidated
  simp only [List.mem_cons, List.not_mem_nil, or_false] at hkey hkey'
  rcases hkey with h | h | h
  all_goals
    rcases hkey' with h' | h' | h'
    all_goals
      first
      | exact h.trans h'.symm
      | exact absurd (h ▸ h' ▸ hexplicit) (by decide)
      | exact absurd (h ▸ h' ▸ hconsolidated) (by decide)

end InvestmentPlatform.Evidence.StatementHistory
