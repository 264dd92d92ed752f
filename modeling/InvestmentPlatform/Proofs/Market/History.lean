/-
The missing ranges are exact.

The invariant of the loop is about the ranges as they would be if they were flushed now: they cover
just the missing ones of the sessions gone through, and between two of them lies a session that is
there.
-/
import InvestmentPlatform.Market.History

namespace InvestmentPlatform.Market

open List

/-- The day lies in the half-open range. -/
def Covers (range : Date × Date) (day : Date) : Prop := range.1 ≤ day ∧ day < range.2

/-- A session that is there lies behind the one range and before the other. -/
def Parted (existing sessions : List Date) (range range' : Date × Date) : Prop :=
  ∃ day ∈ sessions, day ∈ existing ∧ range.2 ≤ day ∧ day < range'.1

/-- The ranges are in order, apart from each other and not empty, and hold of the sessions just the
missing ones; no two of them could be one. -/
structure ExactRanges (existing sessions : List Date) (ranges : List (Date × Date)) : Prop where
  nonempty : ∀ range ∈ ranges, range.1 < range.2
  parted : ranges.Pairwise (Parted existing sessions)
  exact_cover : ∀ day ∈ sessions, (∃ range ∈ ranges, Covers range day) ↔ day ∉ existing

/-! ### One session -/

/-- What holds after the sessions gone through. -/
structure RunsInv (existing sessions : List Date) (runs : Runs) : Prop where
  flushed : ExactRanges existing sessions runs.flush
  ends : ∀ range ∈ runs.flush, ∃ last ∈ sessions, range.2 = last + 1
  closed : runs.run = none → ∀ range ∈ runs.flush, ∃ day ∈ sessions, day ∈ existing ∧ range.2 ≤ day
  latest : ∀ first last, runs.run = some (first, last) → ∀ day ∈ sessions, day ≤ last

variable {existing sessions : List Date} {runs : Runs} {day : Date}

theorem Parted.mono {range range' : Date × Date} (h : Parted existing sessions range range') :
    Parted existing (sessions ++ [day]) range range' := by
  obtain ⟨other, hmem, hother⟩ := h
  exact ⟨other, mem_append_left _ hmem, hother⟩

theorem not_covers_of_ends (hends : ∀ range ∈ runs.flush, ∃ last ∈ sessions, range.2 = last + 1)
    (hbefore : ∀ other ∈ sessions, other < day) {range : Date × Date}
    (hrange : range ∈ runs.flush) : range.2 ≤ day := by
  obtain ⟨last, hlast, heq⟩ := hends range hrange
  rw [heq]
  exact hbefore last hlast

/-- The sessions may be gone through to one that is covered as it should be. -/
theorem ExactRanges.append {ranges : List (Date × Date)} (h : ExactRanges existing sessions ranges)
    (hday : (∃ range ∈ ranges, Covers range day) ↔ day ∉ existing) :
    ExactRanges existing (sessions ++ [day]) ranges := by
  refine ⟨h.nonempty, h.parted.imp Parted.mono, fun other hother => ?_⟩
  rcases mem_append.mp hother with hold | hnew
  · exact h.exact_cover other hold
  · rw [mem_singleton.mp hnew]
    exact hday

theorem flush_visit_existing (runs : Runs) (hday : day ∈ existing) :
    (runs.visit existing day).flush = runs.flush ∧ (runs.visit existing day).run = none := by
  obtain ⟨ranges, run⟩ := runs
  unfold Runs.visit
  rw [if_pos hday]
  cases run with
  | none => exact ⟨rfl, rfl⟩
  | some pair => exact ⟨rfl, rfl⟩

theorem RunsInv.visit_existing (h : RunsInv existing sessions runs)
    (hbefore : ∀ other ∈ sessions, other < day) (hday : day ∈ existing) :
    RunsInv existing (sessions ++ [day]) (runs.visit existing day) := by
  obtain ⟨hflush, hrun⟩ := flush_visit_existing runs hday
  have hlast : day ∈ sessions ++ [day] := mem_append_right _ (mem_singleton.mpr rfl)
  refine ⟨?_, ?_, fun _ range hrange => ?_, fun first last hsome => ?_⟩
  · rw [hflush]
    refine h.flushed.append ⟨fun ⟨range, hrange, hcovers⟩ => ?_, fun hnot => absurd hday hnot⟩
    exact absurd (not_covers_of_ends h.ends hbefore hrange) (Int.not_le.mpr hcovers.2)
  · rw [hflush]
    intro range hrange
    obtain ⟨last, hmem, heq⟩ := h.ends range hrange
    exact ⟨last, mem_append_left _ hmem, heq⟩
  · rw [hflush] at hrange
    exact ⟨day, hlast, hday, not_covers_of_ends h.ends hbefore hrange⟩
  · cases hrun.symm.trans hsome

/-- A run that has come to the day: what it covers besides are the sessions from its first on. -/
theorem exactRanges_run {ranges : List (Date × Date)} {first : Date}
    (hnonempty : ∀ range ∈ ranges, range.1 < range.2)
    (hparted : ranges.Pairwise (Parted existing sessions))
    (hrun : ∀ range ∈ ranges, ∃ other ∈ sessions, other ∈ existing ∧ range.2 ≤ other ∧ other < first)
    (hfirst : first ≤ day) (hbefore : ∀ other ∈ sessions, other < day)
    (hcover : ∀ other ∈ sessions,
      ((∃ range ∈ ranges, Covers range other) ∨ first ≤ other) ↔ other ∉ existing)
    (hday : day ∉ existing) :
    ExactRanges existing (sessions ++ [day]) (ranges ++ [(first, day + 1)]) := by
  have hcovers : ∀ other, (∃ range ∈ ranges ++ [(first, day + 1)], Covers range other) ↔
      (∃ range ∈ ranges, Covers range other) ∨ Covers (first, day + 1) other := by
    intro other
    constructor
    · rintro ⟨range, hrange, hcovers⟩
      rcases mem_append.mp hrange with hold | hnew
      · exact Or.inl ⟨range, hold, hcovers⟩
      · rw [mem_singleton.mp hnew] at hcovers
        exact Or.inr hcovers
    · intro h
      rcases h with ⟨range, hrange, hcovers⟩ | hcovers
      · exact ⟨range, mem_append_left _ hrange, hcovers⟩
      · exact ⟨_, mem_append_right _ (mem_singleton.mpr rfl), hcovers⟩
  refine ⟨fun range hrange => ?_, ?_, fun other hother => ?_⟩
  · rcases mem_append.mp hrange with hold | hnew
    · exact hnonempty range hold
    · rw [mem_singleton.mp hnew]
      exact Int.lt_add_one_of_le hfirst
  · rw [pairwise_append]
    refine ⟨hparted.imp Parted.mono, pairwise_singleton _ _, fun range hrange last hlast => ?_⟩
    rw [mem_singleton.mp hlast]
    obtain ⟨other, hmem, hother⟩ := hrun range hrange
    exact ⟨other, mem_append_left _ hmem, hother⟩
  · rw [hcovers]
    rcases mem_append.mp hother with hold | hnew
    · rw [← hcover other hold]
      refine or_congr_right ⟨And.left, fun hle => ⟨hle, ?_⟩⟩
      exact Int.lt_add_one_of_le (Int.le_of_lt (hbefore other hold))
    · rw [mem_singleton.mp hnew]
      exact ⟨fun _ => hday, fun _ => Or.inr ⟨hfirst, Int.lt_succ day⟩⟩

theorem RunsInv.visit_missing (h : RunsInv existing sessions runs)
    (hbefore : ∀ other ∈ sessions, other < day) (hday : day ∉ existing) :
    RunsInv existing (sessions ++ [day]) (runs.visit existing day) := by
  have hlast : day ∈ sessions ++ [day] := mem_append_right _ (mem_singleton.mpr rfl)
  have hlatest : ∀ other ∈ sessions ++ [day], other ≤ day := by
    intro other hother
    rcases mem_append.mp hother with hold | hnew
    · exact Int.le_of_lt (hbefore other hold)
    · exact Int.le_of_eq (mem_singleton.mp hnew)
  obtain ⟨ranges, run⟩ := runs
  have hends : ∀ range ∈ ranges, ∃ last ∈ sessions ++ [day], range.2 = last + 1 := by
    intro range hrange
    have hflush : range ∈ Runs.flush ⟨ranges, run⟩ := by
      cases run with
      | none => exact hrange
      | some pair => exact mem_append_left _ hrange
    obtain ⟨last, hmem, heq⟩ := h.ends range hflush
    exact ⟨last, mem_append_left _ hmem, heq⟩
  have hendsRun : ∀ first : Date, ∀ range ∈ ranges ++ [(first, day + 1)],
      ∃ last ∈ sessions ++ [day], range.2 = last + 1 := by
    intro first range hrange
    rcases mem_append.mp hrange with hold | hnew
    · exact hends range hold
    · rw [mem_singleton.mp hnew]
      exact ⟨day, hlast, rfl⟩
  unfold Runs.visit
  rw [if_neg hday]
  cases run with
  | none =>
    -- A new run begins at the day.
    refine ⟨?_, hendsRun day, fun hnone => (by cases hnone), fun first last hsome => ?_⟩
    · refine exactRanges_run h.flushed.nonempty h.flushed.parted (fun range hrange => ?_)
        (Int.le_refl day) hbefore (fun other hother => ?_) hday
      · obtain ⟨other, hmem, hthere, hle⟩ := h.closed rfl range hrange
        exact ⟨other, hmem, hthere, hle, hbefore other hmem⟩
      · rw [← h.flushed.exact_cover other hother]
        exact or_iff_left (Int.not_le.mpr (hbefore other hother))
    · cases hsome
      exact hlatest
  | some pair =>
    -- The run goes on to the day: no session lies behind its last date so far.
    obtain ⟨first, last⟩ := pair
    have hflushed := h.flushed
    have hparted := pairwise_append.mp hflushed.parted
    have hmem : (first, last + 1) ∈ Runs.flush ⟨ranges, some (first, last)⟩ :=
      mem_append_right _ (mem_singleton.mpr rfl)
    obtain ⟨last', hlast', heq⟩ := h.ends _ hmem
    have hlastBefore : last < day := by
      rw [show last = last' from add_right_cancel heq]
      exact hbefore last' hlast'
    refine ⟨?_, hendsRun first, fun hnone => (by cases hnone), fun first' last' hsome => ?_⟩
    · refine exactRanges_run
        (fun range hrange => hflushed.nonempty range (mem_append_left _ hrange)) hparted.1
        (fun range hrange => hparted.2.2 range hrange _ (mem_singleton.mpr rfl)) ?_ hbefore
        (fun other hother => ?_) hday
      · exact Int.le_trans (Int.le_of_lt_add_one (hflushed.nonempty _ hmem))
          (Int.le_of_lt hlastBefore)
      · rw [← hflushed.exact_cover other hother]
        constructor
        · intro hcase
          rcases hcase with ⟨range, hrange, hcovers⟩ | hle
          · exact ⟨range, mem_append_left _ hrange, hcovers⟩
          · exact ⟨_, hmem, hle, Int.lt_add_one_of_le (h.latest first last rfl other hother)⟩
        · rintro ⟨range, hrange, hcovers⟩
          rcases mem_append.mp hrange with hold | hnew
          · exact Or.inl ⟨range, hold, hcovers⟩
          · rw [mem_singleton.mp hnew] at hcovers
            exact Or.inr hcovers.1
    · cases hsome
      exact hlatest

/-! ### The whole loop -/

theorem RunsInv.foldl (h : RunsInv existing sessions runs) (days : List Date)
    (hdays : days.Pairwise (· < ·)) (hbefore : ∀ day ∈ days, ∀ other ∈ sessions, other < day) :
    RunsInv existing (sessions ++ days) (days.foldl (Runs.visit existing) runs) := by
  induction days generalizing sessions runs with
  | nil => exact (append_nil sessions).symm ▸ h
  | cons day days ih =>
    have hday := hbefore day mem_cons_self
    have hnext : RunsInv existing (sessions ++ [day]) (runs.visit existing day) := by
      by_cases hthere : day ∈ existing
      · exact h.visit_existing hday hthere
      · exact h.visit_missing hday hthere
    have hrest := ih hnext (pairwise_cons.mp hdays).2 fun later hlater other hother => by
      rcases mem_append.mp hother with hold | hnew
      · exact hbefore later (mem_cons_of_mem _ hlater) other hold
      · rw [mem_singleton.mp hnew]
        exact (pairwise_cons.mp hdays).1 later hlater
    rw [List.append_assoc] at hrest
    exact hrest

theorem exactRanges_foldl (existing : List Date) {days : List Date}
    (hdays : days.Pairwise (· < ·)) :
    ExactRanges existing days (days.foldl (Runs.visit existing) ⟨[], none⟩).flush := by
  have hinit : RunsInv existing [] ⟨[], none⟩ := by
    refine ⟨⟨fun range hrange => ?_, List.Pairwise.nil, fun day hday => ?_⟩,
      fun range hrange => ?_, fun _ range hrange => ?_, fun first last hsome => ?_⟩
    · cases hrange
    · cases hday
    · cases hrange
    · cases hrange
    · cases hsome
  exact (hinit.foldl days hdays fun day _ other hother => by cases hother).flushed

/-! ### The sessions of a calendar -/

variable {bounds : Date → Option (Instant × Instant)} {start last : Date} {asOf : Instant}

/-- A session of the date is over. -/
def CompletedSession (bounds : Date → Option (Instant × Instant)) (asOf : Instant) (day : Date) :
    Prop :=
  ∃ opening closing, bounds day = some (opening, closing) ∧ closing ≤ asOf

theorem completedSessions_days : (completedSessions bounds start last asOf).map Prod.fst =
    (range (last + 1 - start).toNat).filterMap fun offset =>
      if ((bounds (start + (offset : Nat))).all fun pair => asOf < pair.2) then none
      else some (start + (offset : Nat)) := by
  unfold completedSessions
  rw [map_filterMap]
  congr 1
  funext offset
  cases bounds (start + (offset : Nat)) with
  | none => rfl
  | some pair =>
    by_cases hle : pair.2 ≤ asOf
    · simp [hle, Int.not_lt.mpr hle]
    · simp [hle, Int.not_le.mp hle]

theorem completedSessions_sorted :
    ((completedSessions bounds start last asOf).map Prod.fst).Pairwise (· < ·) := by
  rw [completedSessions_days, pairwise_filterMap]
  refine pairwise_lt_range.imp fun {a b} hlt day hday day' hday' => ?_
  split at hday
  · cases hday
  · split at hday'
    · cases hday'
    · cases hday
      cases hday'
      exact Int.add_lt_add_left (Int.ofNat_lt.mpr hlt) start

theorem mem_completedSessions {day : Date} :
    day ∈ (completedSessions bounds start last asOf).map Prod.fst ↔
      start ≤ day ∧ day ≤ last ∧ CompletedSession bounds asOf day := by
  have hcompleted : ¬ ((bounds day).all fun pair => asOf < pair.2) = true ↔
      CompletedSession bounds asOf day := by
    unfold CompletedSession
    cases bounds day with
    | none => simp
    | some pair =>
      obtain ⟨opening, closing⟩ := pair
      simp
  rw [completedSessions_days, mem_filterMap, ← hcompleted]
  constructor
  · rintro ⟨offset, hoffset, hday⟩
    rw [mem_range] at hoffset
    split at hday
    · cases hday
    · rename_i hover
      cases hday
      refine ⟨Int.le_add_of_nonneg_right (Int.natCast_nonneg offset), ?_, hover⟩
      have hlt : (offset : Int) < last + 1 - start := by omega
      exact Int.le_of_lt_add_one (Int.add_lt_of_lt_sub_left hlt)
  · rintro ⟨hlow, hhigh, hover⟩
    have hoffset : start + ((day - start).toNat : Int) = day := by
      rw [Int.toNat_of_nonneg (Int.sub_nonneg_of_le hlow)]
      exact add_sub_cancel start day
    refine ⟨(day - start).toNat, ?_, ?_⟩
    · rw [mem_range]
      have hlt : day - start < last + 1 - start :=
        Int.sub_lt_sub_right (Int.lt_add_one_of_le hhigh) start
      have hnonneg : 0 ≤ day - start := Int.sub_nonneg_of_le hlow
      exact (Int.toNat_lt_toNat (Int.lt_of_le_of_lt hnonneg hlt)).mpr hlt
    · rw [hoffset, if_neg hover]

/-- **The missing ranges are exact**: in order, apart and not empty, they cover just the completed
sessions from the start or the listing on that are not there, and between two of them lies one that
is. -/
theorem missing_history_ranges_exact (existingDates : List Date)
    (bounds : Date → Option (Instant × Instant)) (start : Date) (asOf : Instant) (utcoffset : Zone)
    (listingDate : Option Date) :
    let ranges := missingHistoryRanges existingDates bounds start asOf utcoffset listingDate
    let Due := fun day => historyStart start listingDate ≤ day ∧ day ≤ localDate utcoffset asOf ∧
      CompletedSession bounds asOf day
    (∀ range ∈ ranges, range.1 < range.2) ∧
      (ranges.Pairwise fun range range' =>
        range.2 < range'.1 ∧
          ∃ day, Due day ∧ day ∈ existingDates ∧ range.2 ≤ day ∧ day < range'.1) ∧
      ∀ day, Due day → ((∃ range ∈ ranges, range.1 ≤ day ∧ day < range.2) ↔ day ∉ existingDates) := by
  intro ranges Due
  have hexact : ExactRanges existingDates _ ranges :=
    exactRanges_foldl existingDates completedSessions_sorted
  refine ⟨hexact.nonempty, hexact.parted.imp ?_, fun day hday => ?_⟩
  · rintro range range' ⟨day, hday, hthere, hle, hlt⟩
    exact ⟨Int.lt_of_le_of_lt hle hlt, day, mem_completedSessions.mp hday, hthere, hle, hlt⟩
  · exact hexact.exact_cover day (mem_completedSessions.mpr hday)

theorem foldl_visit_nothing {existing days : List Date} (h : ∀ day ∈ days, day ∈ existing) :
    days.foldl (Runs.visit existing) ⟨[], none⟩ = ⟨[], none⟩ := by
  induction days with
  | nil => rfl
  | cons day days ih =>
    rw [foldl_cons, Runs.visit, if_pos (h day mem_cons_self)]
    exact ih fun later hlater => h later (mem_cons_of_mem day hlater)

/-- **A top-up converges**: what is asked for after a fetch is what was asked for before and not
fetched, and nothing is asked for any more as soon as all of it was. -/
theorem history_converges (existingDates fetched : List Date)
    (bounds : Date → Option (Instant × Instant)) (start : Date) (asOf : Instant) (utcoffset : Zone)
    (listingDate : Option Date) :
    let ranges := fun dates => missingHistoryRanges dates bounds start asOf utcoffset listingDate
    let sessions := completedSessions bounds (historyStart start listingDate)
      (localDate utcoffset asOf) asOf
    let Asked := fun dates day => day ∈ sessions.map Prod.fst ∧
      ∃ range ∈ ranges dates, range.1 ≤ day ∧ day < range.2
    (∀ day, Asked (existingDates ++ fetched) day ↔ Asked existingDates day ∧ day ∉ fetched) ∧
      (ranges (existingDates ++ fetched) = [] ↔ ∀ day, Asked existingDates day → day ∈ fetched) := by
  intro ranges sessions Asked
  have hasked : ∀ dates day, Asked dates day ↔ day ∈ sessions.map Prod.fst ∧ day ∉ dates :=
    fun dates day => and_congr_right fun hday =>
      (exactRanges_foldl dates completedSessions_sorted).exact_cover day hday
  have hall : ∀ day, Asked (existingDates ++ fetched) day ↔
      Asked existingDates day ∧ day ∉ fetched := by
    intro day
    rw [hasked, hasked, mem_append, not_or, and_assoc]
  refine ⟨hall, fun hnil day hday => ?_, fun h => ?_⟩
  · by_contra hnot
    obtain ⟨-, range, hrange, -⟩ := (hall day).mpr ⟨hday, hnot⟩
    rw [hnil] at hrange
    cases hrange
  · refine congrArg Runs.flush (foldl_visit_nothing fun day hday => ?_)
    by_contra hnot
    rw [mem_append, not_or] at hnot
    exact hnot.2 (h day ((hasked _ day).mpr ⟨hday, hnot.1⟩))

end InvestmentPlatform.Market
