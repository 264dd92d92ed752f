/-
What the lookups of `app/market_sessions.py` find.

A session belongs to a date of the exchange, and the lookups walk dates of UTC.  In every zone the
events of the dates are in the order of the dates, and each lies within a day or two of its own date
in UTC; so a lookup can only miss the event of the date next to those it walks, and it is exact just
where that event does not come in between.
-/
import InvestmentPlatform.Market.Sessions

namespace InvestmentPlatform.Market

open List Option

/-! ### Events in the order of their dates -/

/-- At most one event for each date, in the order of the dates, none earlier than the morning of
the day before its date in UTC and none later than noon of the day after it. -/
structure Timetable (event : Int → Option Int) : Prop where
  ordered : ∀ day day' t t', event day = some t → event day' = some t' → day < day' → t < t'
  early : ∀ day t, event day = some t → day * 86400000000 - 50400000000 ≤ t
  late : ∀ day t, event day = some t → t < day * 86400000000 + 129600000000

/-- The latest event that is not later than `now`; without one, there is none in the last two
weeks. -/
def LatestUntil (event : Int → Option Int) (now : Int) : Option Int → Prop
  | some t => (∃ day, event day = some t) ∧ t ≤ now ∧
      ∀ day t', event day = some t' → ¬ (t < t' ∧ t' ≤ now)
  | none => ∀ day t', event day = some t' → ¬ (now - 14 * 86400000000 ≤ t' ∧ t' ≤ now)

/-- The earliest event that is later than `now`; without one, there is none in the days to come. -/
def EarliestAfter (event : Int → Option Int) (now days : Int) : Option Int → Prop
  | some t => (∃ day, event day = some t) ∧ now < t ∧
      ∀ day t', event day = some t' → ¬ (now < t' ∧ t' < t)
  | none => ∀ day t', event day = some t' → ¬ (now < t' ∧ t' ≤ now + days * 86400000000)

/-- The event of the date after the UTC date is still to come, and that of the date before the
walked ones does not stand alone in the last two weeks. -/
structure LatestSeen (event : Int → Option Int) (now : Int) : Prop where
  next : ∀ t, event (now / 86400000000 + 1) = some t → now < t
  first : (∃ day t, now / 86400000000 - 15 < day ∧ day ≤ now / 86400000000 ∧
      event day = some t ∧ t ≤ now) ∨
    ∀ t, event (now / 86400000000 - 15) = some t → t < now - 14 * 86400000000

/-- The event of the date before the UTC date is over, and that of the date after the walked ones
does not stand alone in the days to come. -/
structure EarliestSeen (event : Int → Option Int) (now days : Int) : Prop where
  previous : ∀ t, event (now / 86400000000 - 1) = some t → t ≤ now
  last : (∃ day t, now / 86400000000 ≤ day ∧ day ≤ now / 86400000000 + days ∧
      event day = some t ∧ now < t) ∨
    ∀ t, event (now / 86400000000 + days + 1) = some t → now + days * 86400000000 < t

/-! ### Walks -/

/-- A walk over offsets stops at the first hit. -/
theorem findSome?_range_some {α : Type} {f : Nat → Option α} {n : Nat} {t : α}
    (h : (range n).findSome? f = some t) : ∃ k < n, f k = some t ∧ ∀ j < k, f j = none := by
  induction n with
  | zero => cases h
  | succ n ih =>
    rw [range_succ, findSome?_append, or_eq_some_iff] at h
    rcases h with hbefore | ⟨hnone, hlast⟩
    · obtain ⟨k, hk, hfound⟩ := ih hbefore
      exact ⟨k, Nat.lt_succ_of_lt hk, hfound⟩
    · refine ⟨n, Nat.lt_succ_self n, ?_, fun j hj => ?_⟩
      · simpa using hlast
      · exact findSome?_eq_none_iff.mp hnone j (mem_range.mpr hj)

theorem findSome?_range_none {α : Type} {f : Nat → Option α} {n : Nat}
    (h : (range n).findSome? f = none) : ∀ k < n, f k = none :=
  fun k hk => findSome?_eq_none_iff.mp h k (mem_range.mpr hk)

section

variable {event : Int → Option Int} {now : Int}

/-- What a walk back over fifteen dates has come to. -/
structure WalkedBack (event : Int → Option Int) (now : Int) (found : Option Int) : Prop where
  hit : ∀ t, found = some t → ∃ day, now / 86400000000 - 15 < day ∧ day ≤ now / 86400000000 ∧
    event day = some t ∧ t ≤ now ∧
      ∀ day' t', day < day' → day' ≤ now / 86400000000 → event day' = some t' → now < t'
  missed : found = none → ∀ day t, now / 86400000000 - 15 < day → day ≤ now / 86400000000 →
    event day = some t → now < t

theorem walkedBack : WalkedBack event now ((range 15).findSome? fun offset =>
    (event (now / 86400000000 - (offset : Nat))).filter (· ≤ now)) := by
  have hmiss : ∀ day t, (event day).filter (· ≤ now) = none → event day = some t → now < t := by
    intro day t hnone hevent
    rw [hevent, filter_eq_none_iff] at hnone
    simpa using hnone
  refine ⟨fun t hfound => ?_, fun hnone day t hlow hhigh hevent => ?_⟩
  · obtain ⟨k, hk, hhit, hmissed⟩ := findSome?_range_some hfound
    obtain ⟨hevent, hle⟩ := filter_eq_some_iff.mp hhit
    refine ⟨now / 86400000000 - (k : Nat), by omega, by omega, hevent, by simpa using hle, ?_⟩
    intro day' t' hafter hhigh hevent'
    have hoffset : day' = now / 86400000000 - ((now / 86400000000 - day').toNat : Nat) := by omega
    refine hmiss _ t' (hmissed (now / 86400000000 - day').toNat (by omega)) ?_
    rw [← hoffset]
    exact hevent'
  · have hoffset : day = now / 86400000000 - ((now / 86400000000 - day).toNat : Nat) := by omega
    refine hmiss _ t (findSome?_range_none hnone (now / 86400000000 - day).toNat (by omega)) ?_
    rw [← hoffset]
    exact hevent

theorem Timetable.latest_iff (h : Timetable event) {found : Option Int}
    (hwalk : WalkedBack event now found) :
    LatestUntil event now found ↔ LatestSeen event now := by
  cases hcase : found with
  | some t =>
    obtain ⟨day, hlow, hhigh, hevent, hle, hmissed⟩ := hwalk.hit t hcase
    constructor
    · intro hlatest
      refine ⟨fun t' hevent' => ?_, Or.inl ⟨day, t, hlow, hhigh, hevent, hle⟩⟩
      by_contra hnot
      have hlt := h.ordered _ _ t t' hevent hevent' (by omega)
      exact hlatest.2.2 _ t' hevent' ⟨hlt, by omega⟩
    · intro hseen
      refine ⟨⟨day, hevent⟩, hle, fun day' t' hevent' hbetween => ?_⟩
      have hearly := h.early day' t' hevent'
      rcases Int.lt_trichotomy day' day with hlt | heq | hgt
      · have := h.ordered _ _ _ _ hevent' hevent hlt
        omega
      · subst heq
        cases hevent.symm.trans hevent'
        omega
      · by_cases hwalked : day' ≤ now / 86400000000
        · have := hmissed day' t' hgt hwalked hevent'
          omega
        · have hnext : day' = now / 86400000000 + 1 := by omega
          have := hseen.next t' (hnext ▸ hevent')
          omega
  | none =>
    have hmissed := hwalk.missed hcase
    constructor
    · intro hlatest
      refine ⟨fun t' hevent' => ?_, Or.inr fun t' hevent' => ?_⟩
      · have hearly := h.early _ t' hevent'
        have := hlatest _ t' hevent'
        omega
      · have hlate := h.late _ t' hevent'
        have := hlatest _ t' hevent'
        omega
    · intro hseen day' t' hevent' hbetween
      have hearly := h.early day' t' hevent'
      have hlate := h.late day' t' hevent'
      by_cases hnext : day' = now / 86400000000 + 1
      · have := hseen.next t' (hnext ▸ hevent')
        omega
      · by_cases hfirst : day' = now / 86400000000 - 15
        · rcases hseen.first with ⟨day, t, hlow, hhigh, hevent, hle⟩ | hout
          · have := hmissed day t hlow hhigh hevent
            omega
          · have := hout t' (hfirst ▸ hevent')
            omega
        · have := hmissed day' t' (by omega) (by omega) hevent'
          omega

/-- What a walk forward over dates has come to. -/
structure WalkedOn (event : Int → Option Int) (now days : Int) (found : Option Int) : Prop where
  hit : ∀ t, found = some t → ∃ day, now / 86400000000 ≤ day ∧
    day ≤ now / 86400000000 + days ∧ event day = some t ∧ now < t ∧
      ∀ day' t', now / 86400000000 ≤ day' → day' < day → event day' = some t' → t' ≤ now
  missed : found = none → ∀ day t, now / 86400000000 ≤ day → day ≤ now / 86400000000 + days →
    event day = some t → t ≤ now

theorem walkedOn (n : Nat) : WalkedOn event now n ((range (n + 1)).findSome? fun offset =>
    (event (now / 86400000000 + (offset : Nat))).filter (now < ·)) := by
  have hmiss : ∀ day t, (event day).filter (now < ·) = none → event day = some t → t ≤ now := by
    intro day t hnone hevent
    rw [hevent, filter_eq_none_iff] at hnone
    simpa using hnone
  refine ⟨fun t hfound => ?_, fun hnone day t hlow hhigh hevent => ?_⟩
  · obtain ⟨k, hk, hhit, hmissed⟩ := findSome?_range_some hfound
    obtain ⟨hevent, hlt⟩ := filter_eq_some_iff.mp hhit
    refine ⟨now / 86400000000 + (k : Nat), by omega, by omega, hevent, by simpa using hlt, ?_⟩
    intro day' t' hlow hbefore hevent'
    have hoffset : day' = now / 86400000000 + ((day' - now / 86400000000).toNat : Nat) := by omega
    refine hmiss _ t' (hmissed (day' - now / 86400000000).toNat (by omega)) ?_
    rw [← hoffset]
    exact hevent'
  · have hoffset : day = now / 86400000000 + ((day - now / 86400000000).toNat : Nat) := by omega
    refine hmiss _ t (findSome?_range_none hnone (day - now / 86400000000).toNat (by omega)) ?_
    rw [← hoffset]
    exact hevent

theorem Timetable.earliest_iff (h : Timetable event) {found : Option Int} {days : Int}
    (hdays : 1 ≤ days) (hwalk : WalkedOn event now days found) :
    EarliestAfter event now days found ↔ EarliestSeen event now days := by
  cases hcase : found with
  | some t =>
    obtain ⟨day, hlow, hhigh, hevent, hlt, hmissed⟩ := hwalk.hit t hcase
    constructor
    · intro hearliest
      refine ⟨fun t' hevent' => ?_, Or.inl ⟨day, t, hlow, hhigh, hevent, hlt⟩⟩
      by_contra hnot
      have hbefore := h.ordered _ _ t' t hevent' hevent (by omega)
      exact hearliest.2.2 _ t' hevent' ⟨by omega, hbefore⟩
    · intro hseen
      refine ⟨⟨day, hevent⟩, hlt, fun day' t' hevent' hbetween => ?_⟩
      have hlate := h.late day' t' hevent'
      rcases Int.lt_trichotomy day' day with hbefore | heq | hgt
      · by_cases hwalked : now / 86400000000 ≤ day'
        · have := hmissed day' t' hwalked hbefore hevent'
          omega
        · have hprevious : day' = now / 86400000000 - 1 := by omega
          have := hseen.previous t' (hprevious ▸ hevent')
          omega
      · subst heq
        cases hevent.symm.trans hevent'
        omega
      · have := h.ordered _ _ _ _ hevent hevent' hgt
        omega
  | none =>
    have hmissed := hwalk.missed hcase
    constructor
    · intro hearliest
      refine ⟨fun t' hevent' => ?_, Or.inr fun t' hevent' => ?_⟩
      · have hlate := h.late _ t' hevent'
        have := hearliest _ t' hevent'
        omega
      · have hearly := h.early _ t' hevent'
        have := hearliest _ t' hevent'
        omega
    · intro hseen day' t' hevent' hbetween
      have hearly := h.early day' t' hevent'
      have hlate := h.late day' t' hevent'
      by_cases hprevious : day' = now / 86400000000 - 1
      · have := hseen.previous t' (hprevious ▸ hevent')
        omega
      · by_cases hlast : day' = now / 86400000000 + days + 1
        · rcases hseen.last with ⟨day, t, hlow, hhigh, hevent, hlt⟩ | hout
          · have := hmissed day t hlow hhigh hevent
            omega
          · have := hout t' (hlast ▸ hevent')
            omega
        · have := hmissed day' t' (by omega) (by omega) hevent'
          omega

end

/-! ### The sessions of a calendar -/

def opens (bounds : Date → Option (Instant × Instant)) (day : Int) : Option Int :=
  (bounds day).map Prod.fst

def closes (bounds : Date → Option (Instant × Instant)) (day : Int) : Option Int :=
  (bounds day).map Prod.snd

section

variable {upper : String → String} {zoneInfo : String → Option Zone} {market : String}
variable {schedules : List MarketTradingSchedule} {exceptions : List MarketCalendarException}

/-- Every session has its hours in the one zone of the market. -/
theorem sessionBounds_zone : (∀ day, sessionBounds upper zoneInfo market schedules exceptions day =
      none) ∨
    ∃ name zone, zoneInfo name = some zone ∧ ∀ day bounds,
      sessionBounds upper zoneInfo market schedules exceptions day = some bounds →
        ∃ opening closing, bounds = (combine day opening zone, combine day closing zone) := by
  cases hrows : applicable upper market schedules with
  | nil =>
    refine Or.inl fun day => ?_
    unfold sessionBounds
    rw [hrows]
  | cons first rest =>
    cases hzone : zoneInfo first.timezone with
    | none =>
      refine Or.inl fun day => ?_
      unfold sessionBounds
      simp only [hrows, hzone]
      split_ifs <;> first | rfl | (split <;> rfl)
    | some zone =>
      refine Or.inr ⟨first.timezone, zone, hzone, fun day bounds hbounds => ?_⟩
      unfold sessionBounds at hbounds
      simp only [hrows, hzone] at hbounds
      split_ifs at hbounds
      split at hbounds
      · rename_i opening closing _
        cases hbounds
        exact ⟨opening, closing, rfl⟩
      · cases hbounds

/-- Zones of the world. -/
def OnEarth (zoneInfo : String → Option Zone) : Prop :=
  ∀ name zone, zoneInfo name = some zone → -43200000000 ≤ zone ∧ zone ≤ 50400000000

theorem timetable_of_combine {zone : Int} (hlow : -43200000000 ≤ zone) (hhigh : zone ≤ 50400000000)
    {event : Int → Option Int}
    (h : ∀ day t, event day = some t → ∃ time, t = combine day time zone) : Timetable event := by
  have hform : ∀ day t, event day = some t → ∃ micros : Int, 0 ≤ micros ∧ micros < 86400000000 ∧
        t = day * 86400000000 + micros - zone := by
    intro day t hevent
    obtain ⟨time, rfl⟩ := h day t hevent
    exact ⟨time.micros, time.nonneg, time.lt_day, rfl⟩
  refine ⟨fun day day' t t' hevent hevent' hlt => ?_, fun day t hevent => ?_,
    fun day t hevent => ?_⟩
  · obtain ⟨micros, hnonneg, hday, rfl⟩ := hform day t hevent
    obtain ⟨micros', hnonneg', hday', rfl⟩ := hform day' t' hevent'
    omega
  · obtain ⟨micros, hnonneg, hday, rfl⟩ := hform day t hevent
    omega
  · obtain ⟨micros, hnonneg, hday, rfl⟩ := hform day t hevent
    omega

theorem timetable_none {event : Int → Option Int} (h : ∀ day, event day = none) :
    Timetable event := by
  refine ⟨fun day _ _ _ hevent => ?_, fun day _ hevent => ?_, fun day _ hevent => ?_⟩
  · cases (h day).symm.trans hevent
  · cases (h day).symm.trans hevent
  · cases (h day).symm.trans hevent

theorem timetable_opens (hzone : OnEarth zoneInfo) :
    Timetable (opens (sessionBounds upper zoneInfo market schedules exceptions)) := by
  rcases sessionBounds_zone with hnone | ⟨name, zone, hname, hbounds⟩
  · exact timetable_none fun day => congrArg (Option.map Prod.fst) (hnone day)
  · refine timetable_of_combine (hzone name zone hname).1 (hzone name zone hname).2
      fun day t hevent => ?_
    obtain ⟨bounds, hday, rfl⟩ := map_eq_some_iff.mp hevent
    obtain ⟨opening, closing, rfl⟩ := hbounds day bounds hday
    exact ⟨opening, rfl⟩

theorem timetable_closes (hzone : OnEarth zoneInfo) :
    Timetable (closes (sessionBounds upper zoneInfo market schedules exceptions)) := by
  rcases sessionBounds_zone with hnone | ⟨name, zone, hname, hbounds⟩
  · exact timetable_none fun day => congrArg (Option.map Prod.snd) (hnone day)
  · refine timetable_of_combine (hzone name zone hname).1 (hzone name zone hname).2
      fun day t hevent => ?_
    obtain ⟨bounds, hday, rfl⟩ := map_eq_some_iff.mp hevent
    obtain ⟨opening, closing, rfl⟩ := hbounds day bounds hday
    exact ⟨closing, rfl⟩

end

section

variable (bounds : Date → Option (Instant × Instant)) (now : Int)

theorem latestCompletedSession_eq : latestCompletedSession bounds now =
    (range 15).findSome? fun offset =>
      (closes bounds (now / 86400000000 - (offset : Nat))).filter (· ≤ now) := by
  unfold latestCompletedSession
  congr 1
  funext offset
  have hday : now / dayLength = now / 86400000000 := rfl
  cases hbounds : bounds (now / 86400000000 - (offset : Nat)) with
  | none => simp [closes, hday, hbounds]
  | some pair => simp [closes, hday, hbounds, Option.filter]

theorem nextSessionOpen_eq : nextSessionOpen bounds now = (range (14 + 1)).findSome? fun offset =>
      (opens bounds (now / 86400000000 + (offset : Nat))).filter (now < ·) := by
  unfold nextSessionOpen
  congr 1
  funext offset
  have hday : now / dayLength = now / 86400000000 := rfl
  cases hbounds : bounds (now / 86400000000 + (offset : Nat)) with
  | none => simp [opens, hday, hbounds]
  | some pair => simp [opens, hday, hbounds, Option.filter]

theorem nextSessionClose_eq : nextSessionClose bounds now = (range (15 + 1)).findSome? fun offset =>
      (closes bounds (now / 86400000000 + (offset : Nat))).filter (now < ·) := by
  unfold nextSessionClose
  congr 1
  funext offset
  have hday : now / dayLength = now / 86400000000 := rfl
  cases hbounds : bounds (now / 86400000000 + (offset : Nat)) with
  | none => simp [closes, hday, hbounds]
  | some pair => simp [closes, hday, hbounds, Option.filter]

end

/-- **The lookups are exact just where the session next to the walked dates does not come in
between.** -/
theorem session_lookups_iff {upper : String → String} {zoneInfo : String → Option Zone}
    (hzone : OnEarth zoneInfo) (market : String) (schedules : List MarketTradingSchedule)
    (exceptions : List MarketCalendarException) (now : Int) :
    let bounds := sessionBounds upper zoneInfo market schedules exceptions
    (LatestUntil (closes bounds) now (latestCompletedSession bounds now) ↔
        LatestSeen (closes bounds) now) ∧
      (EarliestAfter (opens bounds) now 14 (nextSessionOpen bounds now) ↔
        EarliestSeen (opens bounds) now 14) ∧
      (EarliestAfter (closes bounds) now 15 (nextSessionClose bounds now) ↔
        EarliestSeen (closes bounds) now 15) := by
  intro bounds
  refine ⟨?_, ?_, ?_⟩
  · rw [latestCompletedSession_eq]
    exact (timetable_closes hzone).latest_iff walkedBack
  · rw [nextSessionOpen_eq]
    exact (timetable_opens hzone).earliest_iff (by omega) (walkedOn 14)
  · rw [nextSessionClose_eq]
    exact (timetable_closes hzone).earliest_iff (by omega) (walkedOn 15)

/-! ### Two exchanges far from Greenwich -/

/-- The zones of three exchanges. -/
def sampleZones (name : String) : Option Zone :=
  if name = "Asia/Kolkata" then some 19800000000
  else if name = "Pacific/Kiritimati" then some 50400000000
  else if name = "Etc/GMT+12" then some (-43200000000)
  else none

theorem sampleZones_onEarth : OnEarth sampleZones := by
  intro name zone h
  unfold sampleZones at h
  split_ifs at h
  · cases h
    decide
  · cases h
    decide
  · cases h
    decide

theorem nine_nonneg : (0 : Int) ≤ 32400000000 := by decide

theorem nine_lt : (32400000000 : Int) < dayLength := by decide

theorem thirteen_nonneg : (0 : Int) ≤ 46800000000 := by decide

theorem thirteen_lt : (46800000000 : Int) < dayLength := by decide

theorem fourteen_nonneg : (0 : Int) ≤ 50400000000 := by decide

theorem fourteen_lt : (50400000000 : Int) < dayLength := by decide

/-- Mondays from nine to one. -/
def mondayMorning (timezone : String) : MarketTradingSchedule :=
  { marketCode := "X", mic := none, timezone := timezone, tradingDay := 0,
    regularOpenTime := ⟨32400000000, nine_nonneg, nine_lt⟩,
    regularCloseTime := ⟨46800000000, thirteen_nonneg, thirteen_lt⟩, enabled := true }

/-- Mondays from one to two in the afternoon. -/
def mondayNoon (timezone : String) : MarketTradingSchedule :=
  { marketCode := "X", mic := none, timezone := timezone, tradingDay := 0,
    regularOpenTime := ⟨46800000000, thirteen_nonneg, thirteen_lt⟩,
    regularCloseTime := ⟨50400000000, fourteen_nonneg, fourteen_lt⟩, enabled := true }

theorem session_lookups_iff_sample :
    let bounds := sessionBounds id sampleZones "X" [mondayMorning "Asia/Kolkata"] []
    (LatestUntil (closes bounds) 400000000000 (latestCompletedSession bounds 400000000000) ↔
        LatestSeen (closes bounds) 400000000000) ∧
      (EarliestAfter (opens bounds) 400000000000 14 (nextSessionOpen bounds 400000000000) ↔
        EarliestSeen (opens bounds) 400000000000 14) ∧
      (EarliestAfter (closes bounds) 400000000000 15 (nextSessionClose bounds 400000000000) ↔
        EarliestSeen (closes bounds) 400000000000 15) :=
  session_lookups_iff sampleZones_onEarth "X" [mondayMorning "Asia/Kolkata"] [] 400000000000

def kiritimati : Date → Option (Instant × Instant) :=
  sessionBounds id sampleZones "X" [mondayMorning "Pacific/Kiritimati"] []

def bakerIsland : Date → Option (Instant × Instant) :=
  sessionBounds id sampleZones "X" [mondayNoon "Etc/GMT+12"] []

/-- **The date of UTC is not the date of the exchange**: half an hour after Monday's close in
Kiritimati it is still Sunday in UTC, and the lookup finds the close of the week before; on Tuesday
in UTC, Monday's session on Baker Island is still to come, and the lookups find that of the week
after. -/
theorem lookups_miss_session :
    ¬ LatestUntil (closes kiritimati) 343800000000
        (latestCompletedSession kiritimati 343800000000) ∧
      ¬ EarliestAfter (opens bakerIsland) 433000000000 14
        (nextSessionOpen bakerIsland 433000000000) ∧
      ¬ EarliestAfter (closes bakerIsland) 437000000000 15
        (nextSessionClose bakerIsland 437000000000) := by
  refine ⟨fun h => ?_, fun h => ?_, fun h => ?_⟩
  · have hfound : latestCompletedSession kiritimati 343800000000 = some (-262800000000) := by
      rfl
    have hmissed : closes kiritimati 4 = some 342000000000 := by rfl
    rw [hfound] at h
    exact h.2.2 4 342000000000 hmissed (by omega)
  · have hfound : nextSessionOpen bakerIsland 433000000000 = some 1040400000000 := by
      rfl
    have hmissed : opens bakerIsland 4 = some 435600000000 := by rfl
    rw [hfound] at h
    exact h.2.2 4 435600000000 hmissed (by omega)
  · have hfound : nextSessionClose bakerIsland 437000000000 = some 1044000000000 := by
      rfl
    have hmissed : closes bakerIsland 4 = some 439200000000 := by rfl
    rw [hfound] at h
    exact h.2.2 4 439200000000 hmissed (by omega)

end InvestmentPlatform.Market
