/-
Where the two readings of the calendar agree.

Both readings look up the same rows, so they can differ only in which hours they take from
an exception row.  `market_session_status` takes the bound the exception's type overrides,
missing or not; `_session_bounds` takes whatever times the row carries.  In a fixed-offset
zone an instant lies between two combined instants of its own date exactly when its time of
day lies between the two times, so the whole question is one about times of day.
-/
import InvestmentPlatform.Market.Sessions

namespace InvestmentPlatform.Market

variable {upper : String → String} {zoneInfo : String → Option Zone}

/-- `open <= t < close`. -/
def Within (openTime closeTime t : TimeOfDay) : Prop :=
  openTime.micros ≤ t.micros ∧ t.micros < closeTime.micros

/-- The two bounds are there and the time lies between them. -/
def OpenAt (hours : Option TimeOfDay × Option TimeOfDay) (t : TimeOfDay) : Prop :=
  ∃ openTime closeTime, hours = (some openTime, some closeTime) ∧ Within openTime closeTime t

/-! ### Instants and times of day -/

theorem day_add_le_iff (now zone t : Int) :
    (now + zone) / dayLength * dayLength + t - zone ≤ now ↔ t ≤ (now + zone) % dayLength := by
  unfold dayLength
  omega

/-- On its own date an instant is compared as its time of day. -/
theorem combine_le_iff (zone : Zone) (now : Instant) (t : TimeOfDay) :
    combine (localDate zone now) t zone ≤ now ↔ t.micros ≤ (localTime zone now).micros :=
  day_add_le_iff now zone t.micros

theorem lt_combine_iff (zone : Zone) (now : Instant) (t : TimeOfDay) :
    now < combine (localDate zone now) t zone ↔ (localTime zone now).micros < t.micros := by
  rw [← not_le, combine_le_iff, not_le]

/-! ### What each reading comes down to -/

/-- The date is a trading date: not closed, and with a schedule row or a special session. -/
def TradingDate (schedule : Option MarketTradingSchedule)
    (exception : Option MarketCalendarException) : Prop :=
  ¬ OfType exception .closed ∧ (schedule = none → OfType exception .specialSession)

section
variable {market : String} {schedules rest : List MarketTradingSchedule}
  (exceptions : List MarketCalendarException) (now : Instant) {first : MarketTradingSchedule}
  {zone : Zone}

theorem marketSessionStatus_isOpen_iff (hrows : applicable upper market schedules = first :: rest)
    (hzone : zoneInfo first.timezone = some zone) :
    marketSessionStatus upper zoneInfo market schedules exceptions now = .isOpen ↔
      TradingDate (scheduleOn (first :: rest) (localDate zone now))
          (exceptionOn upper first exceptions (localDate zone now)) ∧
        OpenAt (statusHours (scheduleOn (first :: rest) (localDate zone now))
          (exceptionOn upper first exceptions (localDate zone now))) (localTime zone now) := by
  unfold marketSessionStatus
  simp only [hrows, hzone]
  generalize exceptionOn upper first exceptions (localDate zone now) = exception
  generalize scheduleOn (first :: rest) (localDate zone now) = schedule
  split
  · rename_i hclosed
    exact ⟨fun h => (by cases h), fun h => absurd hclosed h.1.1⟩
  · rename_i hopen
    split
    · rename_i hnone
      exact ⟨fun h => (by cases h), fun h => absurd (h.1.2 hnone.1) hnone.2⟩
    · rename_i htrading
      have htrades : TradingDate schedule exception :=
        ⟨hopen, fun hnone => Classical.not_not.mp (not_and.mp htrading hnone)⟩
      split
      · rename_i openTime closeTime hhours
        rw [hhours]
        split
        · rename_i hwithin
          exact ⟨fun _ => ⟨htrades, openTime, closeTime, rfl, hwithin⟩, fun _ => rfl⟩
        · rename_i hwithout
          refine ⟨fun h => (by cases h), ?_⟩
          rintro ⟨-, o, c, heq, hwithin⟩
          cases heq
          exact absurd hwithin hwithout
      · rename_i hmissing
        refine ⟨fun h => (by cases h), ?_⟩
        rintro ⟨-, o, c, heq, -⟩
        exact absurd heq (hmissing o c)

/-- The bounds of a date contain the instant. -/
def InBounds (bounds : Option (Instant × Instant)) (now : Instant) : Prop :=
  ∃ opening closing, bounds = some (opening, closing) ∧ opening ≤ now ∧ now < closing

/-- A special session needs both of its times. -/
def SpecialComplete (exception : Option MarketCalendarException) : Prop :=
  ∀ e, exception = some e → e.exceptionType = .specialSession →
    e.openTime ≠ none ∧ e.closeTime ≠ none

theorem sessionBounds_inBounds_iff (hrows : applicable upper market schedules = first :: rest)
    (hzone : zoneInfo first.timezone = some zone) :
    InBounds (sessionBounds upper zoneInfo market schedules exceptions (localDate zone now)) now ↔
      TradingDate (scheduleOn (first :: rest) (localDate zone now))
          (exceptionOn upper first exceptions (localDate zone now)) ∧
        SpecialComplete (exceptionOn upper first exceptions (localDate zone now)) ∧
        OpenAt (boundHours (scheduleOn (first :: rest) (localDate zone now))
          (exceptionOn upper first exceptions (localDate zone now))) (localTime zone now) := by
  unfold sessionBounds
  simp only [hrows, hzone]
  generalize exceptionOn upper first exceptions (localDate zone now) = exception
  generalize scheduleOn (first :: rest) (localDate zone now) = schedule
  split
  · rename_i hclosed
    exact ⟨fun ⟨_, _, h, _⟩ => (by cases h), fun h => absurd hclosed h.1.1⟩
  · rename_i hopen
    split
    · rename_i hincomplete
      obtain ⟨e, he, hspecial, hmissing⟩ := hincomplete
      refine ⟨fun ⟨_, _, h, _⟩ => (by cases h), fun h => ?_⟩
      obtain ⟨hopenTime, hcloseTime⟩ := h.2.1 e he hspecial
      rcases hmissing with hnone | hnone
      · exact absurd hnone hopenTime
      · exact absurd hnone hcloseTime
    · rename_i hcomplete
      have hspecial : SpecialComplete exception := fun e he htype =>
        ⟨fun hnone => hcomplete ⟨e, he, htype, Or.inl hnone⟩,
          fun hnone => hcomplete ⟨e, he, htype, Or.inr hnone⟩⟩
      split
      · rename_i hnone
        exact ⟨fun ⟨_, _, h, _⟩ => (by cases h), fun h => absurd (h.1.2 hnone.1) hnone.2⟩
      · rename_i htrading
        have htrades : TradingDate schedule exception :=
          ⟨hopen, fun hnone => Classical.not_not.mp (not_and.mp htrading hnone)⟩
        split
        · rename_i opening closing hhours
          rw [hhours]
          constructor
          · rintro ⟨o, c, heq, hle, hlt⟩
            cases heq
            exact ⟨htrades, hspecial, opening, closing, rfl,
              (combine_le_iff zone now opening).mp hle, (lt_combine_iff zone now closing).mp hlt⟩
          · rintro ⟨-, -, o, c, heq, hle, hlt⟩
            cases heq
            exact ⟨_, _, rfl, (combine_le_iff zone now opening).mpr hle,
              (lt_combine_iff zone now closing).mpr hlt⟩
        · rename_i hmissing
          refine ⟨fun ⟨_, _, h, _⟩ => (by cases h), ?_⟩
          rintro ⟨-, -, o, c, heq, -⟩
          exact absurd heq (hmissing o c)

end

/-! ### Which hours the two readings take -/

/-- When the hours of an exception row that is not a whole closing or a special session are
the same for both readings, at a time of day. -/
def HoursAgree (e : MarketCalendarException) (s : MarketTradingSchedule) (t : TimeOfDay) : Prop :=
  match e.exceptionType with
  | .closed => True
  | .specialSession => True
  | .lateOpen =>
      match e.openTime with
      -- The status is UNKNOWN; the bounds fall back to the regular opening.
      | none => ¬ Within s.regularOpenTime (e.closeTime.getD s.regularCloseTime) t
      -- A closing time on a LATE_OPEN row moves the bounds only.
      | some late => ∀ stray, e.closeTime = some stray → late.micros ≤ t.micros →
          (t.micros < s.regularCloseTime.micros ↔ t.micros < stray.micros)
  | .earlyClose =>
      match e.closeTime with
      | none => ¬ Within (e.openTime.getD s.regularOpenTime) s.regularCloseTime t
      | some early => ∀ stray, e.openTime = some stray → t.micros < early.micros →
          (s.regularOpenTime.micros ≤ t.micros ↔ stray.micros ≤ t.micros)
  | .other _ =>
      Within s.regularOpenTime s.regularCloseTime t ↔
        Within (e.openTime.getD s.regularOpenTime) (e.closeTime.getD s.regularCloseTime) t

@[simp] theorem openAt_some (openTime closeTime t : TimeOfDay) :
    OpenAt (some openTime, some closeTime) t ↔ Within openTime closeTime t := by
  simp [OpenAt]

@[simp] theorem not_openAt_none_left (closeTime : Option TimeOfDay) (t : TimeOfDay) :
    ¬ OpenAt (none, closeTime) t := by
  simp [OpenAt]

@[simp] theorem not_openAt_none_right (openTime : Option TimeOfDay) (t : TimeOfDay) :
    ¬ OpenAt (openTime, none) t := by
  simp [OpenAt]

/-- Without an exception row both readings take the regular hours. -/
theorem openAt_regular (schedule : Option MarketTradingSchedule) (t : TimeOfDay) :
    OpenAt (statusHours schedule none) t ↔ OpenAt (boundHours schedule none) t := by
  cases schedule <;> simp [statusHours, boundHours]

/-- A special session is read from its own row alone. -/
theorem openAt_special (schedule : Option MarketTradingSchedule) {e : MarketCalendarException}
    (he : e.exceptionType = .specialSession) (t : TimeOfDay) :
    OpenAt (statusHours schedule (some e)) t ↔
      SpecialComplete (some e) ∧ OpenAt (boundHours schedule (some e)) t := by
  have hspecial : SpecialComplete (some e) ↔ e.openTime ≠ none ∧ e.closeTime ≠ none := by
    simp [SpecialComplete, he]
  rw [hspecial]
  cases hopen : e.openTime <;> cases hclose : e.closeTime <;>
    simp [statusHours, boundHours, he, hopen, hclose]

theorem specialComplete_of_ne {e : MarketCalendarException}
    (he : e.exceptionType ≠ .specialSession) : SpecialComplete (some e) := by
  intro found hfound hspecial
  cases hfound
  exact absurd hspecial he

/-- On a scheduled date with an exception row the readings agree as `HoursAgree` says. -/
theorem openAt_agree_iff (s : MarketTradingSchedule) (e : MarketCalendarException) (t : TimeOfDay)
    (hclosed : e.exceptionType ≠ .closed) :
    (OpenAt (statusHours (some s) (some e)) t ↔
      SpecialComplete (some e) ∧ OpenAt (boundHours (some s) (some e)) t) ↔
    HoursAgree e s t := by
  unfold HoursAgree
  split
  · contradiction
  · rename_i htype
    exact iff_true_intro (openAt_special (some s) htype t)
  · rename_i htype
    have hcomplete : SpecialComplete (some e) := specialComplete_of_ne (by simp [htype])
    cases hopen : e.openTime <;> cases hclose : e.closeTime <;>
      simp [statusHours, boundHours, htype, hopen, hclose, hcomplete, Within, and_congr_right_iff]
  · rename_i htype
    have hcomplete : SpecialComplete (some e) := specialComplete_of_ne (by simp [htype])
    cases hopen : e.openTime <;> cases hclose : e.closeTime <;>
      simp [statusHours, boundHours, htype, hopen, hclose, hcomplete, Within, and_congr_left_iff]
  · rename_i htype
    have hcomplete : SpecialComplete (some e) := specialComplete_of_ne (by simp [htype])
    cases hopen : e.openTime <;> cases hclose : e.closeTime <;>
      simp [statusHours, boundHours, htype, hopen, hclose, hcomplete]

theorem tradingDate_some_iff (s : MarketTradingSchedule) (e : MarketCalendarException) :
    TradingDate (some s) (some e) ↔ e.exceptionType ≠ .closed := by
  simp [TradingDate, OfType]

/-- Whatever rows a date has, the readings agree exactly when their hours do. -/
theorem reading_agree_iff (schedule : Option MarketTradingSchedule)
    (exception : Option MarketCalendarException) (t : TimeOfDay) :
    (TradingDate schedule exception ∧ OpenAt (statusHours schedule exception) t ↔
      TradingDate schedule exception ∧ SpecialComplete exception ∧
        OpenAt (boundHours schedule exception) t) ↔
    ∀ e s, exception = some e → schedule = some s → HoursAgree e s t := by
  cases exception with
  | none =>
      have hcomplete : SpecialComplete none := fun _ h => by cases h
      simp [openAt_regular, hcomplete]
  | some e =>
      cases schedule with
      | none =>
          by_cases hspecial : e.exceptionType = .specialSession
          · simp [openAt_special none hspecial]
          · have hnot : ¬ TradingDate none (some e) := by simp [TradingDate, OfType, hspecial]
            simp [hnot]
      | some s =>
          by_cases hclosed : e.exceptionType = .closed
          · simp [tradingDate_some_iff, hclosed, HoursAgree]
          · have htrading := (tradingDate_some_iff s e).mpr hclosed
            simp only [htrading, true_and, openAt_agree_iff s e t hclosed]
            exact ⟨fun h _ _ he hs => by cases he; cases hs; exact h, fun h => h e s rfl rfl⟩

/-! ### The two readings -/

section
variable (upper zoneInfo) (market : String) (schedules : List MarketTradingSchedule)
  (exceptions : List MarketCalendarException) (now : Instant)

/-- The exchange-local date of an instant. -/
def exchangeDate : Option Date :=
  (applicable upper market schedules).head?.bind fun first =>
    (zoneInfo first.timezone).map fun zone => localDate zone now

/-- The status is OPEN exactly within the bounds of the exchange-local date, and a date without
bounds is not OPEN. -/
def SessionsAgree : Prop :=
  (marketSessionStatus upper zoneInfo market schedules exceptions now = .isOpen ↔
    ∃ day, exchangeDate upper zoneInfo market schedules now = some day ∧
      InBounds (sessionBounds upper zoneInfo market schedules exceptions day) now) ∧
  ∀ day, exchangeDate upper zoneInfo market schedules now = some day →
    sessionBounds upper zoneInfo market schedules exceptions day = none →
      marketSessionStatus upper zoneInfo market schedules exceptions now ≠ .isOpen

/-- Where the local date has an exception row and a schedule row, their hours agree. -/
def RowsAgree : Prop :=
  ∀ first rest zone e s, applicable upper market schedules = first :: rest →
    zoneInfo first.timezone = some zone →
    exceptionOn upper first exceptions (localDate zone now) = some e →
    scheduleOn (first :: rest) (localDate zone now) = some s →
    HoursAgree e s (localTime zone now)

end

section
variable {market : String} {schedules : List MarketTradingSchedule}
  {exceptions : List MarketCalendarException} {now : Instant}

/-- Without a matching row or a known zone neither reading sees a session. -/
theorem not_isOpen_of_unknown (h : exchangeDate upper zoneInfo market schedules now = none) :
    marketSessionStatus upper zoneInfo market schedules exceptions now ≠ .isOpen := by
  unfold exchangeDate at h
  unfold marketSessionStatus
  split
  · simp
  · rename_i first rest hrows
    rw [hrows, List.head?_cons, Option.bind_some, Option.map_eq_none_iff] at h
    simp [h]

/-- **The two readings agree exactly where the exception row's hours do.** -/
theorem sessionsAgree_iff (upper : String → String) (zoneInfo : String → Option Zone)
    (market : String) (schedules : List MarketTradingSchedule)
    (exceptions : List MarketCalendarException) (now : Instant) :
    SessionsAgree upper zoneInfo market schedules exceptions now ↔
      RowsAgree upper zoneInfo market schedules exceptions now := by
  cases hdate : exchangeDate upper zoneInfo market schedules now with
  | none =>
      refine ⟨fun _ first rest zone e s hrows hzone => ?_, fun _ => ⟨?_, ?_⟩⟩
      · simp [exchangeDate, hrows, hzone] at hdate
      · simp [hdate, not_isOpen_of_unknown hdate]
      · intro day hday
        rw [hdate] at hday
        cases hday
  | some day =>
      have hday := hdate
      unfold exchangeDate at hday
      obtain ⟨first, hhead, hzoned⟩ := Option.bind_eq_some_iff.mp hday
      obtain ⟨zone, hzone, rfl⟩ := Option.map_eq_some_iff.mp hzoned
      obtain ⟨rest, hrows⟩ := List.head?_eq_some_iff.mp hhead
      have hstatus := marketSessionStatus_isOpen_iff exceptions now hrows hzone
      have hbounds := sessionBounds_inBounds_iff exceptions now hrows hzone
      have hiff := reading_agree_iff (scheduleOn (first :: rest) (localDate zone now))
        (exceptionOn upper first exceptions (localDate zone now)) (localTime zone now)
      rw [← hstatus, ← hbounds] at hiff
      have hrowsAgree : RowsAgree upper zoneInfo market schedules exceptions now ↔
          ∀ e s, exceptionOn upper first exceptions (localDate zone now) = some e →
            scheduleOn (first :: rest) (localDate zone now) = some s →
              HoursAgree e s (localTime zone now) := by
        constructor
        · exact fun h e s => h first rest zone e s hrows hzone
        · intro h first' rest' zone' e s hrows' hzone'
          rw [hrows, List.cons.injEq] at hrows'
          obtain ⟨rfl, rfl⟩ := hrows'
          rw [hzone, Option.some.injEq] at hzone'
          subst hzone'
          exact h e s
      rw [hrowsAgree, ← hiff]
      constructor
      · intro h
        exact h.1.trans (by simp [hdate])
      · intro h
        refine ⟨h.trans (by simp [hdate]), fun day hsome hnone hopen => ?_⟩
        rw [hdate, Option.some.injEq] at hsome
        subst hsome
        obtain ⟨_, _, hsome, -⟩ := h.mp hopen
        rw [hnone] at hsome
        cases hsome

end

/-! ### The late opening without a time -/

/-- A Monday row of an exchange five and a half hours ahead of UTC, 09:15 to 15:30. -/
def mondayHours : MarketTradingSchedule :=
  { marketCode := "NSE", mic := some "XNSE", timezone := "Asia/Kolkata", tradingDay := 0,
    regularOpenTime := { micros := 33300000000 }, regularCloseTime := { micros := 55800000000 },
    enabled := true }

/-- A LATE_OPEN row for Monday, 5 January 1970, whose opening time is not known. -/
def lateOpenUntimed : MarketCalendarException :=
  { marketCode := "NSE", tradingDate := 4, exceptionType := .lateOpen, openTime := none,
    closeTime := none }

/-- At ten o'clock that Monday the status is UNKNOWN, but the bounds are the regular session. -/
theorem lateOpen_untimed_disagrees :
    ¬ SessionsAgree id (fun _ => some 19800000000) "NSE" [mondayHours] [lateOpenUntimed]
      (4 * dayLength + 36000000000 - 19800000000) := by
  intro h
  have hopen := h.1.mpr ⟨4, by decide, _, _, rfl, by decide, by decide⟩
  exact absurd hopen (by decide)

end InvestmentPlatform.Market
