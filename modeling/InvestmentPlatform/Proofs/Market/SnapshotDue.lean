/-
When the due tests of a structured snapshot return, and what they return.

Dates that all carry an offset compare and subtract, and dates away from the ends of the calendar
have the fortnights around them that the session rules look at.  So where every date of a record is
of that kind neither test raises.  A class whose dates are all within its lifetime is not due.
-/
import InvestmentPlatform.Market.StructuredSnapshots
import Mathlib.Tactic.Linarith

namespace InvestmentPlatform.Market.StructuredSnapshots

open Fallible List Option

variable {S N : Type}

/-! ### Computations that return -/

/-- The computation does not raise. -/
def Returns {α : Type} (x : Except Raised α) : Prop := ∃ a, x = .ok a

variable {α β : Type}

theorem Returns.ok (a : α) : Returns (.ok a : Except Raised α) := ⟨a, rfl⟩

theorem Returns.bind {x : Except Raised α} {f : α → Except Raised β}
    (hx : Returns x) (hf : ∀ a, x = .ok a → Returns (f a)) : Returns (x.bind f) := by
  obtain ⟨a, rfl⟩ := hx
  exact hf a rfl

theorem ok_bind (a : α) (f : α → Except Raised β) :
    (Except.ok a : Except Raised α).bind f = f a := rfl

theorem Returns.map {x : Except Raised α} {f : α → β} (hx : Returns x) : Returns (x.map f) := by
  obtain ⟨a, rfl⟩ := hx
  exact ⟨f a, rfl⟩

theorem Returns.orElse {a b : Except Raised Bool} (ha : Returns a) (hb : Returns b) :
    Returns (orElse a b) := by
  refine ha.bind fun x _ => ?_
  cases x with
  | false => exact hb
  | true => exact .ok true

theorem Returns.andThen {a b : Except Raised Bool} (ha : Returns a) (hb : Returns b) :
    Returns (andThen a b) := by
  refine ha.bind fun x _ => ?_
  cases x with
  | false => exact .ok false
  | true => exact hb

theorem firstFound_returns {step : Nat → Except Raised (Option α)} {l : List Nat}
    (h : ∀ offset ∈ l, Returns (step offset)) : Returns (firstFound step l) := by
  induction l with
  | nil => exact .ok none
  | cons offset rest ih =>
      refine (h offset mem_cons_self).bind fun found _ => ?_
      cases found with
      | none => exact ih fun later hlater => h later (mem_cons_of_mem _ hlater)
      | some a => exact .ok (some a)

theorem firstFound_eq_some {step : Nat → Except Raised (Option α)} {l : List Nat}
    {a : α} (h : firstFound step l = .ok (some a)) : ∃ offset ∈ l, step offset = .ok (some a) := by
  induction l with
  | nil => cases h
  | cons offset rest ih =>
      rw [firstFound] at h
      obtain ⟨found, hfound, hrest⟩ := bind_eq_ok.mp h
      cases found with
      | none =>
          obtain ⟨later, hmem, hlater⟩ := ih hrest
          exact ⟨later, mem_cons_of_mem _ hmem, hlater⟩
      | some b =>
          cases hrest
          exact ⟨offset, mem_cons_self, hfound⟩

/-! ### Dates with an offset -/

theorem before_eq {a b : DateTime} (ha : a.Aware) (hb : b.Aware) :
    a.before b = .ok (decide (a.instant < b.instant)) := by
  have ha' : a.offset.isSome = true := ha
  have hb' : b.offset.isSome = true := hb
  unfold DateTime.before
  rw [ha', hb', if_pos rfl]

theorem minus_eq {a b : DateTime} (ha : a.Aware) (hb : b.Aware) :
    a.minus b = .ok (a.instant - b.instant) := by
  have ha' : a.offset.isSome = true := ha
  have hb' : b.offset.isSome = true := hb
  unfold DateTime.minus
  rw [ha', hb', if_pos rfl]

variable {stamp d : DateTime}

theorem classDue_eq {now : DateTime} (hstamp : stamp.Aware) (hnow : now.Aware) (ttl : Int) :
    classDue (some stamp) ttl now = .ok (decide (ttl * 1000000 ≤ now.instant - stamp.instant)) := by
  show (now.minus stamp).map _ = _
  rw [minus_eq hnow hstamp]
  rfl

theorem classDue_returns {stamp : Option DateTime} {now : DateTime}
    (hstamp : ∀ d ∈ stamp, d.Aware) (hnow : now.Aware) (ttl : Int) :
    Returns (classDue stamp ttl now) := by
  cases stamp with
  | none => exact .ok true
  | some stamp => exact ⟨_, classDue_eq (hstamp stamp rfl) hnow ttl⟩

/-- Within the lifetime, and not in the future. -/
def Fresh (stamp now : DateTime) (ttl : Int) : Prop :=
  stamp.instant ≤ now.instant ∧ now.instant - stamp.instant < ttl * 1000000

theorem dated_returns {now : DateTime} (hstamp : stamp.Aware) (hnow : now.Aware)
    (ttl : Int) : Returns (dated stamp ttl now) :=
  Returns.orElse ⟨_, before_eq hnow hstamp⟩ ⟨_, classDue_eq hstamp hnow ttl⟩

theorem dated_eq_false {now : DateTime} (hstamp : stamp.Aware) (hnow : now.Aware)
    {ttl : Int} (hfresh : Fresh stamp now ttl) : dated stamp ttl now = .ok false := by
  unfold dated
  rw [before_eq hnow hstamp, classDue_eq hstamp hnow, decide_eq_false (not_lt.mpr hfresh.1),
    decide_eq_false (not_le.mpr hfresh.2)]
  rfl

theorem anyDue_returns {now : DateTime} (hnow : now.Aware) (ttl : Int)
    {facts : List ProvenancedValue} (hfacts : ∀ f ∈ facts, f.effective.Aware) :
    Returns (anyDue ttl now facts) := by
  induction facts with
  | nil => exact .ok false
  | cons fact rest ih =>
      exact Returns.orElse (dated_returns (hfacts fact mem_cons_self) hnow ttl)
        (ih fun f hf => hfacts f (mem_cons_of_mem _ hf))

theorem anyDue_eq_false {now : DateTime} (hnow : now.Aware) {ttl : Int}
    {facts : List ProvenancedValue} (hfacts : ∀ f ∈ facts, f.effective.Aware)
    (hfresh : ∀ f ∈ facts, Fresh f.effective now ttl) : anyDue ttl now facts = .ok false := by
  induction facts with
  | nil => rfl
  | cons fact rest ih =>
      rw [anyDue, dated_eq_false (hfacts fact mem_cons_self) hnow
        (hfresh fact mem_cons_self), ih (fun f hf => hfacts f (mem_cons_of_mem _ hf))
        fun f hf => hfresh f (mem_cons_of_mem _ hf)]
      rfl

/-- The earliest of dates with an offset is one of them, and none is before it. -/
theorem earliest_spec {stamps : List DateTime} (h : ∀ d ∈ stamps, d.Aware) :
    ∃ best, earliest stamps = .ok best ∧ (∀ d ∈ best, d ∈ stamps) := by
  cases stamps with
  | nil => exact ⟨none, rfl, nofun⟩
  | cons first rest =>
      have hloop : ∀ (rest : List DateTime) (best : DateTime), best.Aware →
          (∀ d ∈ rest, d.Aware) → ∃ least, rest.foldlM (fun (best d : DateTime) =>
            (d.before best).map fun less => if less then d else best) best = .ok least ∧
            least ∈ best :: rest := by
        intro rest
        induction rest with
        | nil => exact fun best _ _ => ⟨best, rfl, mem_cons_self⟩
        | cons d rest ih =>
            intro best hbest hrest
            have hd := hrest d mem_cons_self
            have htail := fun e he => hrest e (mem_cons_of_mem _ he)
            rw [foldlM_cons, before_eq hd hbest]
            by_cases hless : d.instant < best.instant
            · rw [decide_eq_true hless]
              obtain ⟨least, hleast, hmem⟩ := ih d hd htail
              exact ⟨least, hleast, mem_cons_of_mem _ hmem⟩
            · rw [decide_eq_false hless]
              obtain ⟨least, hleast, hmem⟩ := ih best hbest htail
              refine ⟨least, hleast, ?_⟩
              rcases mem_cons.mp hmem with rfl | hmem
              · exact mem_cons_self
              · exact mem_cons_of_mem _ (mem_cons_of_mem _ hmem)
      obtain ⟨least, hleast, hmem⟩ := hloop rest first (h first mem_cons_self)
        fun d hd => h d (mem_cons_of_mem _ hd)
      refine ⟨some least, ?_, fun d hd => ?_⟩
      · show Except.map some _ = _
        rw [hleast]
        rfl
      · rw [← some.inj hd]
        exact hmem

/-- Nothing is before the first: it is the earliest. -/
theorem earliest_first {first : DateTime} {rest : List DateTime} (hfirst : first.Aware)
    (hrest : ∀ d ∈ rest, d.Aware ∧ first.instant ≤ d.instant) :
    earliest (first :: rest) = .ok (some first) := by
  have hloop : rest.foldlM (fun (best d : DateTime) =>
      (d.before best).map fun less => if less then d else best) first = Except.ok first := by
    induction rest with
    | nil => rfl
    | cons d rest ih =>
        obtain ⟨haware, hle⟩ := hrest d mem_cons_self
        rw [foldlM_cons, before_eq haware hfirst, decide_eq_false (not_lt.mpr hle)]
        exact ih fun e he => hrest e (mem_cons_of_mem _ he)
  show Except.map some _ = _
  rw [hloop]
  rfl

/-! ### Dates away from the ends of the calendar -/

/-- The date has an offset of less than a day, and twenty days of the calendar on either side. -/
def DateTime.Usual (d : DateTime) : Prop :=
  (∃ offset ∈ d.offset, |offset| < dayLength) ∧ firstDate + 20 ≤ d.face / dayLength ∧
    d.face / dayLength ≤ lastDate - 20

theorem DateTime.Usual.aware (h : d.Usual) : d.Aware := by
  obtain ⟨⟨offset, hoffset, -⟩, -⟩ := h
  exact isSome_iff_exists.mpr ⟨offset, hoffset⟩

variable (e : Exchange)

variable {day : Date}

/-- A bound of a session is a time of its day at a known offset. -/
theorem bound_near {time : TimeOfDay} {zone : Zone} (hzone : |zone| < dayLength) :
    day - 1 ≤ combine day time zone / dayLength ∧ combine day time zone / dayLength ≤ day + 1 := by
  have htime := time.nonneg
  have htime' := time.lt_day
  obtain ⟨hlow, hhigh⟩ := abs_lt.mp hzone
  unfold combine
  unfold dayLength at *
  lia

theorem sessionBounds_near {opening closing : Instant}
    (h : sessionBounds e.upper e.zoneInfo e.market e.schedules e.exceptions day =
      some (opening, closing)) :
    (day - 1 ≤ opening / dayLength ∧ opening / dayLength ≤ day + 1) ∧
      day - 1 ≤ closing / dayLength ∧ closing / dayLength ≤ day + 1 := by
  unfold sessionBounds at h
  split at h
  · cases h
  · dsimp only at h
    split_ifs at h
    split at h
    · split at h
      · cases h
      · rename_i zone hzone
        cases h
        have hlt := e.zone_lt _ _ hzone
        exact ⟨bound_near hlt, bound_near hlt⟩
    · cases h

theorem bounds_returns (hfirst : firstDate + 1 ≤ day) (hlast : day + 1 ≤ lastDate) :
    Returns (e.bounds day) := by
  unfold Exchange.bounds
  cases h : sessionBounds e.upper e.zoneInfo e.market e.schedules e.exceptions day with
  | none => exact .ok none
  | some found =>
      obtain ⟨⟨hopen, hopen'⟩, hclose, hclose'⟩ := sessionBounds_near e h
      have hin : InCalendar found.1 ∧ InCalendar found.2 := by
        unfold InCalendar
        lia
      exact ⟨some found, if_pos hin⟩

theorem bounds_near {opening closing : Instant}
    (h : e.bounds day = .ok (some (opening, closing))) : day - 1 ≤ closing / dayLength := by
  unfold Exchange.bounds at h
  cases hraw : sessionBounds e.upper e.zoneInfo e.market e.schedules e.exceptions day with
  | none => rw [hraw] at h; cases h
  | some found =>
      rw [hraw] at h
      obtain ⟨-, hclose, -⟩ := sessionBounds_near e hraw
      dsimp only at h
      split_ifs at h
      cases h
      exact hclose

theorem dateOrRaise_eq (h : firstDate ≤ day ∧ day ≤ lastDate) :
    dateOrRaise day = .ok day := if_pos h

/-- The latest completed session is found, or there is none; it closed by then. -/
theorem latestCompletedSession_returns (hd : d.Aware)
    (hlow : firstDate + 16 ≤ d.face / dayLength) (hhigh : d.face / dayLength + 1 ≤ lastDate) :
    Returns (e.latestCompletedSession d) ∧
      ∀ session, e.latestCompletedSession d = .ok (some session) →
        session ≤ d.instant ∧ d.face / dayLength - 15 ≤ session / dayLength := by
  have hdate : ∀ offset ∈ range 15, dateOrRaise (d.face / dayLength - (offset : Nat)) =
        .ok (d.face / dayLength - (offset : Nat)) := by
    intro offset hoffset
    have hlt := mem_range.mp hoffset
    exact dateOrRaise_eq ⟨by lia, by lia⟩
  have hclosed : ∀ closing : Instant, DateTime.Aware ⟨closing, some 0⟩ := fun _ => rfl
  constructor
  · refine firstFound_returns fun offset hoffset => ?_
    have hlt := mem_range.mp hoffset
    rw [hdate offset hoffset, ok_bind]
    refine (bounds_returns e (by lia) (by lia)).bind fun found _ => ?_
    cases found with
    | none => exact .ok none
    | some found => exact Returns.map ⟨_, before_eq hd (hclosed found.2)⟩
  · intro session hsession
    obtain ⟨offset, hoffset, hstep⟩ := firstFound_eq_some hsession
    have hlt := mem_range.mp hoffset
    rw [hdate offset hoffset, ok_bind] at hstep
    obtain ⟨found, hfound, hrest⟩ := bind_eq_ok.mp hstep
    cases found with
    | none => cases hrest
    | some found =>
        dsimp only at hrest
        rw [before_eq hd (hclosed found.2)] at hrest
        have hnear := bounds_near e hfound
        by_cases hless : d.instant < found.2
        · rw [decide_eq_true hless] at hrest
          cases hrest
        · rw [decide_eq_false hless] at hrest
          cases hrest
          exact ⟨not_lt.mp hless, by lia⟩

theorem nextSessionOpen_returns {after : Instant} (hlow : firstDate + 1 ≤ after / dayLength)
    (hhigh : after / dayLength + 15 ≤ lastDate) : Returns (e.nextSessionOpen after) := by
  refine firstFound_returns fun offset hoffset => ?_
  have hlt := mem_range.mp hoffset
  rw [dateOrRaise_eq ⟨by lia, by lia⟩]
  exact (bounds_returns e (by lia) (by lia)).map

/-- **A usual date has a validity, or none, but does not raise.** -/
theorem priceSessionValidUntil_returns (h : d.Usual) : Returns (e.priceSessionValidUntil d) := by
  obtain ⟨⟨offset, hoffset, habs⟩, hlow, hhigh⟩ := h
  obtain ⟨habsLow, habsHigh⟩ := abs_lt.mp habs
  have hface : d.face = d.instant + offset := by
    unfold DateTime.face
    rw [mem_def.mp hoffset]
    rfl
  have hlater : DateTime.face { d with instant := d.instant + quarterHour } =
      d.face + quarterHour := by
    unfold DateTime.face
    dsimp only
    lia
  have hnear : d.face / dayLength ≤ (d.face + quarterHour) / dayLength ∧
      (d.face + quarterHour) / dayLength ≤ d.face / dayLength + 1 := by
    unfold dayLength quarterHour
    lia
  have hin : InCalendar (d.face + quarterHour) := ⟨by lia, by lia⟩
  have haware : DateTime.Aware { d with instant := d.instant + quarterHour } :=
    isSome_iff_exists.mpr ⟨offset, hoffset⟩
  obtain ⟨hreturns, hsession⟩ := latestCompletedSession_returns e haware
    (by rw [hlater]; lia) (by rw [hlater]; lia)
  unfold Exchange.priceSessionValidUntil
  rw [if_neg (not_not.mpr hin)]
  refine hreturns.bind fun session hfound => ?_
  cases session with
  | none => exact .ok none
  | some session =>
      obtain ⟨hclosed, hrecent⟩ := hsession session hfound
      rw [hlater] at hrecent
      have haware' : DateTime.Aware ⟨session, some 0⟩ := rfl
      have hd : d.Aware := isSome_iff_exists.mpr ⟨offset, hoffset⟩
      refine Returns.bind ⟨_, minus_eq haware' hd⟩ fun distance _ => ?_
      dsimp only at hclosed
      by_cases hfar : quarterHour < |distance|
      · rw [if_pos hfar]
        exact .ok none
      · rw [if_neg hfar]
        -- a session that closed by then is at most two days past the date on the clock face
        have hbound : session / dayLength ≤ d.face / dayLength + 2 := by
          unfold dayLength quarterHour at *
          lia
        exact nextSessionOpen_returns e (by lia) (by lia)

/-! ### Records of usual dates -/

/-- The dates of a record the due tests may look at. -/
def StructuredMarketSnapshotRecord.dates (record : StructuredMarketSnapshotRecord S N) :
    List DateTime :=
  record.lastPriceAt.toList ++ record.lastValuationAt.toList ++
    record.lastFundamentalsAt.toList ++ record.lastAnalystAt.toList ++
    record.snapshot.marketAsOf.toList ++
    record.snapshot.facts.values.flatMap fun fact => fact.asOfDate.toList ++ [fact.retrievedAt]

variable {record : StructuredMarketSnapshotRecord S N}

variable {fact : ProvenancedValue}

theorem effective_mem_dates
    (h : fact ∈ record.snapshot.facts.values) : fact.effective ∈ record.dates := by
  refine mem_append_right _ (mem_flatMap.mpr ⟨fact, h, ?_⟩)
  unfold ProvenancedValue.effective
  cases hdate : fact.asOfDate with
  | none => exact mem_append_right _ (mem_singleton_self _)
  | some d => exact mem_append_left _ (mem_singleton_self _)

theorem stampOf_mem_dates (c : DataClass) : ∀ d ∈ record.stampOf c, d ∈ record.dates := by
  intro d hd
  have hlist := mem_toList.mpr hd
  unfold StructuredMarketSnapshotRecord.dates
  cases c with
  | price => simp only [mem_append]; exact .inl (.inl (.inl (.inl (.inl hlist))))
  | valuation => simp only [mem_append]; exact .inl (.inl (.inl (.inl (.inr hlist))))
  | fundamentals => simp only [mem_append]; exact .inl (.inl (.inl (.inr hlist)))
  | analyst => simp only [mem_append]; exact .inl (.inl (.inr hlist))

/-- A value of a class stands under a key of the class. -/
theorem mem_classValues {facts : Facts} {c : DataClass} : fact ∈ classValues facts c ↔
      fact.value.isSome ∧ ∃ key ∈ classKeys facts c, facts.get? key = some fact := by
  unfold classValues
  rw [mem_filter, mem_filterMap]
  exact and_comm

theorem classValues_mem_values {facts : Facts} {c : DataClass}
    (h : fact ∈ classValues facts c) : fact ∈ facts.values := by
  obtain ⟨-, key, -, hget⟩ := mem_classValues.mp h
  exact Dict.mem_values.mpr ⟨key, hget⟩

/-- What the price test takes the earliest of. -/
def priceStamps (record : StructuredMarketSnapshotRecord S N) : List DateTime :=
  record.lastPriceAt.toList ++
    ((record.snapshot.facts.get? "latestPrice").bind ProvenancedValue.asOfDate).toList ++
    record.snapshot.marketAsOf.toList

theorem priceStamps_mem_dates : ∀ d ∈ priceStamps record, d ∈ record.dates := by
  intro d hd
  rcases mem_append.mp hd with hd | hd
  · rcases mem_append.mp hd with hd | hd
    · exact stampOf_mem_dates .price d (mem_toList.mp hd)
    · obtain ⟨fact, hfact, hdate⟩ := bind_eq_some_iff.mp (mem_toList.mp hd)
      refine mem_append_right _ (mem_flatMap.mpr ⟨fact, Dict.mem_values.mpr ⟨_, hfact⟩, ?_⟩)
      exact mem_append_left _ (mem_toList.mpr hdate)
  · exact mem_append_left _ (mem_append_right _ hd)

section

variable (decimal : String → Option ℚ) (settings : Settings) {now : DateTime}

theorem priceDue_returns (hnow : now.Aware) (hdates : ∀ d ∈ record.dates, d.Usual) :
    Returns (priceDue decimal settings e record now) := by
  have hstamps : ∀ d ∈ priceStamps record, d.Aware :=
    fun d hd => (hdates d (priceStamps_mem_dates d hd)).aware
  obtain ⟨best, hbest, hmem⟩ := earliest_spec hstamps
  refine Returns.bind ⟨best, hbest⟩ fun stamp hstamp => ?_
  obtain rfl := Except.ok.inj (hbest.symm.trans hstamp)
  cases best with
  | none => exact .ok true
  | some stamp =>
      have husual := hdates stamp (priceStamps_mem_dates stamp (hmem stamp rfl))
      have haware := husual.aware
      refine (priceSessionValidUntil_returns e husual).bind fun validUntil _ => ?_
      have hlimit : ∀ limit : Instant, DateTime.Aware ⟨limit, some 0⟩ := fun _ => rfl
      dsimp only
      by_cases hprice : (positiveDecimalFact decimal
          (record.snapshot.facts.get? "latestPrice")).isNone
      · rw [if_pos hprice]
        exact .ok true
      · rw [if_neg hprice]
        refine Returns.orElse ⟨_, before_eq hnow haware⟩ (Returns.andThen (Returns.map ?_)
          ⟨_, classDue_eq haware hnow _⟩)
        cases validUntil with
        | none => exact .ok false
        | some limit =>
            exact Returns.andThen (Returns.map ⟨_, before_eq hnow haware⟩)
              ⟨_, before_eq hnow (hlimit limit)⟩

theorem factsDue_returns (hnow : now.Aware) (hdates : ∀ d ∈ record.dates, d.Usual)
    (c : DataClass) (ttl : Int) : Returns (factsDue record c (record.stampOf c) ttl now) := by
  have heffective : ∀ f ∈ classValues record.snapshot.facts c, f.effective.Aware :=
    fun f hf => (hdates _ (effective_mem_dates (classValues_mem_values hf))).aware
  unfold factsDue
  by_cases hempty : (classValues record.snapshot.facts c).isEmpty
  · rw [if_pos hempty]
    exact .ok true
  · rw [if_neg hempty]
    cases hstamp : record.stampOf c with
    | none => exact .ok true
    | some stamp =>
        have haware := (hdates stamp (stampOf_mem_dates c stamp hstamp)).aware
        exact Returns.orElse (dated_returns haware hnow ttl) (anyDue_returns hnow ttl heffective)

theorem requestedDue_returns (hnow : now.Aware) (hdates : ∀ d ∈ record.dates, d.Usual)
    (c : DataClass) : Returns (requestedDue decimal settings e record now c) := by
  cases c with
  | price => exact priceDue_returns e decimal settings hnow hdates
  | valuation => exact factsDue_returns hnow hdates .valuation _
  | fundamentals => exact factsDue_returns hnow hdates .fundamentals _
  | analyst => exact factsDue_returns hnow hdates .analyst _

theorem automaticDue_returns (marketOpen : Bool) (hnow : now.Aware)
    (hdates : ∀ d ∈ record.dates, d.Usual) (hsuccess : ∀ d ∈ record.lastSuccessAt, d.Aware)
    (c : DataClass) : Returns (automaticDue settings marketOpen record now c) := by
  have hstamp : ∀ d ∈ (record.stampOf c).or record.lastSuccessAt, d.Aware := by
    intro d hd
    rcases or_eq_some_iff.mp hd with hd | ⟨-, hd⟩
    · exact (hdates d (stampOf_mem_dates c d hd)).aware
    · exact hsuccess d hd
  cases c with
  | price =>
      unfold automaticDue
      by_cases hopen : marketOpen = true
      · rw [if_pos hopen]
        exact classDue_returns (fun d hd => (hdates d (stampOf_mem_dates .price d hd)).aware) hnow _
      · rw [if_neg hopen]
        exact .ok false
  | valuation => exact classDue_returns hstamp hnow _
  | fundamentals => exact classDue_returns hstamp hnow _
  | analyst => exact classDue_returns hstamp hnow _

theorem collectDue_returns {test : DataClass → Except Raised Bool} (h : ∀ c, Returns (test c))
    (requested classes : List DataClass) : Returns (collectDue test requested classes) := by
  induction classes with
  | nil => exact .ok []
  | cons c rest ih =>
      rw [collectDue]
      by_cases hc : requested.contains c = true
      · rw [if_pos hc]
        exact (h c).bind fun _ _ => ih.map
      · rw [if_neg hc]
        exact ih

/-- **Neither due test raises on a record of usual dates.** -/
theorem requestedStructuredDueClasses_returns (hnow : now.Aware)
    (hdates : ∀ d ∈ record.dates, d.Usual) (requested : List DataClass) (baselineOnly : Bool) :
    Returns (requestedStructuredDueClasses decimal settings e (some record) requested now
      baselineOnly) := by
  unfold requestedStructuredDueClasses
  cases hfilter : (some record).filter fun r => r.lastSuccessAt.isSome with
  | none => exact .ok requested
  | some r =>
      obtain rfl := some.inj (filter_eq_some_iff.mp hfilter).1
      exact (collectDue_returns (requestedDue_returns e decimal settings hnow hdates) _ _).map

theorem structuredDueClasses_returns (marketOpen : Bool) (hnow : now.Aware)
    (hdates : ∀ d ∈ record.dates, d.Usual) (hsuccess : ∀ d ∈ record.lastSuccessAt, d.Aware) :
    Returns (structuredDueClasses settings (some record) marketOpen now) := by
  unfold structuredDueClasses
  cases hfilter : (some record).filter fun r => r.lastSuccessAt.isSome with
  | none => exact .ok dataClasses
  | some r =>
      obtain rfl := some.inj (filter_eq_some_iff.mp hfilter).1
      exact collectDue_returns (automaticDue_returns settings marketOpen hnow hdates hsuccess) _ _

/-! ### What is not due -/

/-- A quote that is fresh, or the close of a session that is still the latest. -/
def Settled (stamp now : DateTime) (ttl : Int) : Prop :=
  stamp.instant ≤ now.instant ∧ (now.instant - stamp.instant < ttl * 1000000 ∨
    ∃ limit, e.priceSessionValidUntil stamp = .ok (some limit) ∧ now.instant < limit)

theorem priceDue_eq_false (hnow : now.Aware) {market : DateTime} (husual : market.Usual)
    (hlast : record.lastPriceAt = some market)
    (hdates : ∀ d ∈ priceStamps record, d.Aware ∧ market.instant ≤ d.instant)
    (hprice : (positiveDecimalFact decimal (record.snapshot.facts.get? "latestPrice")).isSome)
    (hsettled : Settled e market now settings.structuredMarketPriceFreshnessSeconds) :
    priceDue decimal settings e record now = .ok false := by
  have haware := husual.aware
  have hlimit : ∀ limit : Instant, DateTime.Aware ⟨limit, some 0⟩ := fun _ => rfl
  have hearliest : earliest (priceStamps record) = .ok (some market) := by
    unfold priceStamps at hdates ⊢
    rw [hlast] at hdates ⊢
    exact earliest_first haware fun d hd => hdates d (mem_cons_of_mem _ hd)
  have hnotNone : ¬ (positiveDecimalFact decimal
      (record.snapshot.facts.get? "latestPrice")).isNone = true := by
    rw [isNone_iff_eq_none]
    intro hnone
    rw [hnone] at hprice
    cases hprice
  obtain ⟨validUntil, hvalid⟩ := priceSessionValidUntil_returns e husual
  have hpresent : now.before market = .ok false := by
    rw [before_eq hnow haware, decide_eq_false (not_lt.mpr hsettled.1)]
  show (earliest (priceStamps record)).bind _ = _
  rw [hearliest, ok_bind]
  dsimp only
  rw [hvalid, ok_bind, if_neg hnotNone, hpresent, classDue_eq haware hnow]
  rcases hsettled.2 with hfresh | ⟨limit, hlimited, hbefore⟩
  · rw [decide_eq_false (not_le.mpr hfresh)]
    cases validUntil with
    | none => rfl
    | some limit =>
        dsimp only
        rw [before_eq hnow (hlimit limit)]
        by_cases hlater : now.instant < limit
        · rw [decide_eq_true hlater]
          rfl
        · rw [decide_eq_false hlater]
          rfl
  · obtain rfl := Except.ok.inj (hvalid.symm.trans hlimited)
    dsimp only
    rw [before_eq hnow (hlimit limit), decide_eq_true hbefore]
    rfl

theorem factsDue_eq_false (hnow : now.Aware) (hdates : ∀ d ∈ record.dates, d.Usual)
    {c : DataClass} {stamp : DateTime} {ttl : Int} (hstamp : record.stampOf c = some stamp)
    (hfresh : Fresh stamp now ttl) (hvalue : classValues record.snapshot.facts c ≠ [])
    (hfacts : ∀ f ∈ classValues record.snapshot.facts c, Fresh f.effective now ttl) :
    factsDue record c (record.stampOf c) ttl now = .ok false := by
  have haware := (hdates stamp (stampOf_mem_dates c stamp hstamp)).aware
  have heffective : ∀ f ∈ classValues record.snapshot.facts c, f.effective.Aware :=
    fun f hf => (hdates _ (effective_mem_dates (classValues_mem_values hf))).aware
  unfold factsDue
  dsimp only
  rw [if_neg (by rwa [List.isEmpty_iff]), hstamp]
  dsimp only
  rw [dated_eq_false haware hnow hfresh, anyDue_eq_false hnow heffective hfacts]
  rfl

theorem collectDue_eq_nil {test : DataClass → Except Raised Bool} {requested : List DataClass}
    (h : ∀ c ∈ requested, test c = .ok false) (classes : List DataClass) :
    collectDue test requested classes = .ok [] := by
  induction classes with
  | nil => rfl
  | cons c rest ih =>
      rw [collectDue]
      by_cases hc : requested.contains c = true
      · rw [if_pos hc, h c (contains_iff_mem.mp hc), ih]
        rfl
      · rw [if_neg hc, ih]

/-- Nothing requested is due: nothing is. -/
theorem requestedStructuredDueClasses_eq_nil (hsuccess : record.lastSuccessAt.isSome)
    {requested : List DataClass}
    (h : ∀ c ∈ requested, requestedDue decimal settings e record now c = .ok false) :
    requestedStructuredDueClasses decimal settings e (some record) requested now true = .ok [] := by
  have hfilter : (some record).filter (fun r => r.lastSuccessAt.isSome) = some record :=
    filter_eq_some_iff.mpr ⟨rfl, hsuccess⟩
  unfold requestedStructuredDueClasses
  rw [hfilter]
  dsimp only
  rw [collectDue_eq_nil h]
  simp [Except.map]

end

end InvestmentPlatform.Market.StructuredSnapshots
