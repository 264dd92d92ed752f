/-
The validated daily closes are a clean series, and the order of the rows is nothing to them.

What a date comes down to depends on which rows it has, never on their order: rows that tie for the
choice agree on all that is put out.  So the history is a function of the dated rows, and a row that
is rejected is only counted.
-/
import InvestmentPlatform.Lib.Fallible
import InvestmentPlatform.Market.DailyCloses
import InvestmentPlatform.Proofs.Market.History
import InvestmentPlatform.Proofs.Market.Sessions
import Mathlib.Data.List.Pairwise

namespace InvestmentPlatform.Market

open Selection List MarketPriceObservation
open UrlText (Text urlparse)

/-! ### Rows and their dates -/

section
variable {calendar : Calendar} {request : ClosesRequest} {zone : ZoneInfo} {asOf : Instant}

/-- What the checks have made sure of. -/
structure Daily (calendar : Calendar) (request : ClosesRequest) (asOf : Instant) (day : Date)
    (row : MarketPriceObservation) : Prop where
  session : CompletedSession calendar.sessionBounds asOf day
  instrument : row.instrumentId = request.instrumentId
  currency : row.currency = request.currency
  price : ∃ price, row.price = some price ∧ 0 < price
  observed : ∃ observed, row.observedAt = some observed ∧ observed ≤ asOf
  retrieved : ∃ retrieved, row.retrievedAt = some retrieved ∧ retrieved ≤ asOf

variable {day : Date}

theorem sessionDay_completed {observed retrieved : Instant}
    (h : sessionDay calendar zone asOf observed retrieved = some day) :
    CompletedSession calendar.sessionBounds asOf day := by
  unfold sessionDay at h
  dsimp only at h
  generalize (if isMidnight observed then observed / dayLength else zone.wall observed / dayLength)
    = dated at h
  split at h
  · cases h
  · rename_i opening closing hbounds
    split at h
    · cases h
    · rename_i hchecks
      cases h
      exact ⟨opening, closing, hbounds, not_lt.mp fun hlate => hchecks (Or.inl hlate)⟩

variable {row : MarketPriceObservation}

theorem admitted_daily {symbol : Option Text} {times : Instant × Instant}
    (h : admitted calendar request asOf symbol row = some times)
    (hsession : CompletedSession calendar.sessionBounds asOf day) :
    Daily calendar request asOf day row := by
  unfold admitted at h
  split at h
  · rename_i symbol currency observed retrieved price hcurrency hobserved hretrieved hprice
    split at h
    · cases h
    · rename_i hchecks
      push Not at hchecks
      obtain ⟨hinstrument, -, -, hsame, -, -, -, -, hseen, hfetched, hpositive⟩ := hchecks
      exact ⟨hsession, hinstrument, hsame.trans hcurrency.symm, ⟨price, hprice, hpositive⟩,
        ⟨observed, hobserved, hseen⟩, ⟨retrieved, hretrieved, hfetched⟩⟩
  · cases h

/-- The date of a row, where it has one. -/
def dated (calendar : Calendar) (request : ClosesRequest) (zone : ZoneInfo) (asOf : Instant)
    (row : MarketPriceObservation) : Option (Date × MarketPriceObservation) :=
  (sift calendar request zone asOf row).bind fun entry => entry.2.map fun day => (day, entry.1)

theorem dated_daily {entry : Date × MarketPriceObservation}
    (h : dated calendar request zone asOf row = some entry) :
    entry.2 = row ∧ Daily calendar request asOf entry.1 row := by
  obtain ⟨sifted, hsift, hentry⟩ := Option.bind_eq_some_iff.mp h
  obtain ⟨symbol, -, rfl⟩ := Option.map_eq_some_iff.mp hsift
  obtain ⟨day, hday, rfl⟩ := Option.map_eq_some_iff.mp hentry
  obtain ⟨times, htimes, hsession⟩ := Option.bind_eq_some_iff.mp hday
  exact ⟨rfl, admitted_daily htimes (sessionDay_completed hsession)⟩

/-! ### The choice on a date -/

variable {rows : List MarketPriceObservation}

theorem mem_currentRows : row ∈ currentRows rows ↔ row ∈ rows ∧ row.retrievedAt =
      ((rows.filter fun other => other.provider = row.provider).filterMap
        retrievedAt).max? := by
  unfold currentRows
  rw [groupOn_eq, mem_flatMap]
  constructor
  · rintro ⟨values, hvalues, hrow⟩
    obtain ⟨provider, -, rfl⟩ := mem_map.mp hvalues
    obtain ⟨hvalue, hnewest⟩ := mem_filter.mp hrow
    obtain ⟨hmem, hprovider⟩ := mem_filter.mp hvalue
    have hprovider : row.provider = provider := of_decide_eq_true hprovider
    subst hprovider
    exact ⟨hmem, of_decide_eq_true hnewest⟩
  · rintro ⟨hmem, hnewest⟩
    refine ⟨_, mem_map.mpr ⟨row.provider, ?_, rfl⟩, mem_filter.mpr
      ⟨mem_filter.mpr ⟨hmem, decide_eq_true rfl⟩, decide_eq_true hnewest⟩⟩
    exact mem_keepBest_keys.mpr (mem_map_of_mem hmem)

/-- Which rows are current is no matter of their order. -/
theorem mem_currentRows_perm {rows' : List MarketPriceObservation} (hperm : rows.Perm rows')
    (row : MarketPriceObservation) : row ∈ currentRows rows ↔ row ∈ currentRows rows' := by
  rw [mem_currentRows, mem_currentRows, hperm.mem_iff,
    max?_perm ((hperm.filter _).filterMap retrievedAt)]

theorem chosenRow_mem (h : chosenRow rows = some row) : row ∈ rows := by
  unfold chosenRow at h
  dsimp only at h
  split at h
  · exact (mem_currentRows.mp (firstMin_mem h).1).1
  · cases h

theorem eq_of_dedup_length {α : Type} [DecidableEq α] {l : List α} (h : l.dedup.length = 1) {a b : α}
    (ha : a ∈ l) (hb : b ∈ l) : a = b := by
  obtain ⟨c, hc⟩ := length_eq_one_iff.mp h
  have hmem : ∀ x ∈ l, x = c := fun x hx => by
    have hx := mem_dedup.mpr hx
    rw [hc] at hx
    exact mem_singleton.mp hx
  rw [hmem a ha, hmem b hb]

variable (request) in
/-- Rows of one instrument in one currency come down to the same close in every order. -/
theorem chosenRow_perm {rows' : List MarketPriceObservation} (hperm : rows.Perm rows')
    (hsame : ∀ row ∈ rows, row.instrumentId = request.instrumentId ∧ row.currency = request.currency)
    (close : Option Instant) :
    (chosenRow rows).map (fun row => { row with observedAt := close }) =
      (chosenRow rows').map fun row => { row with observedAt := close } := by
  have hmem := mem_currentRows_perm hperm
  have hprices : ((currentRows rows).map price).dedup.length =
      ((currentRows rows').map price).dedup.length := by
    refine List.Perm.length_eq ?_
    rw [perm_ext_iff_of_nodup (nodup_dedup _) (nodup_dedup _)]
    intro price
    simp only [mem_dedup, mem_map, hmem]
  unfold chosenRow
  dsimp only
  rw [← hprices]
  split
  · rename_i hone
    refine firstMax_congr hmem ?_
    intro row hrow other hother hleast hleast'
    have hkey : toLex (row.provider, row.sourceUrl) = toLex (other.provider, other.sourceUrl) :=
      le_antisymm (hleast other hother) (hleast' row hrow)
    have hprice : row.price = other.price :=
      eq_of_dedup_length hone (mem_map_of_mem hrow) (mem_map_of_mem hother)
    obtain ⟨hprovider, hurl⟩ := Prod.mk.inj (toLex.injective hkey)
    obtain ⟨hrow, hnewest⟩ := mem_currentRows.mp hrow
    obtain ⟨hother, hnewest'⟩ := mem_currentRows.mp hother
    rw [← hprovider, ← hnewest] at hnewest'
    obtain ⟨hinstrument, hcurrency⟩ := hsame row hrow
    obtain ⟨hinstrument', hcurrency'⟩ := hsame other hother
    show mk _ _ _ _ _ _ _ = mk _ _ _ _ _ _ _
    rw [mk.injEq]
    exact ⟨hinstrument.trans hinstrument'.symm, rfl, hprice, hcurrency.trans hcurrency'.symm,
      hprovider, hurl, hnewest'.symm⟩
  · rfl

/-! ### The history of the dated rows -/

variable {grouped grouped' : List (Date × MarketPriceObservation)} {rejected : Nat}

/-- Every entry has passed the checks. -/
def AllDaily (calendar : Calendar) (request : ClosesRequest) (asOf : Instant)
    (grouped : List (Date × MarketPriceObservation)) : Prop :=
  ∀ entry ∈ grouped, Daily calendar request asOf entry.1 entry.2

theorem mem_rowsOn : row ∈ rowsOn grouped day ↔ (day, row) ∈ grouped := by
  unfold rowsOn
  rw [mem_map]
  constructor
  · rintro ⟨entry, hentry, rfl⟩
    obtain ⟨hmem, hday⟩ := mem_filter.mp hentry
    rw [← of_decide_eq_true hday]
    exact hmem
  · intro hmem
    exact ⟨(day, row), mem_filter.mpr ⟨hmem, decide_eq_true rfl⟩, rfl⟩

theorem rowsOn_perm (hperm : grouped.Perm grouped') (day : Date) :
    (rowsOn grouped day).Perm (rowsOn grouped' day) :=
  (hperm.filter _).map _

section

variable (hdaily : AllDaily calendar request asOf grouped)
include hdaily

section

variable (hperm : grouped.Perm grouped')
include hperm

theorem chosenRow_rowsOn_perm (day : Date) (close : Option Instant) :
    (chosenRow (rowsOn grouped day)).map (fun row => { row with observedAt := close }) =
      (chosenRow (rowsOn grouped' day)).map fun row => { row with observedAt := close } := by
  refine chosenRow_perm request (rowsOn_perm hperm day) ?_ close
  intro row hrow
  have hrow := hdaily _ (mem_rowsOn.mp hrow)
  exact ⟨hrow.instrument, hrow.currency⟩

theorem chosenRow_isNone_perm (day : Date) :
    chosenRow (rowsOn grouped day) = none ↔ chosenRow (rowsOn grouped' day) = none := by
  have h := chosenRow_rowsOn_perm hdaily hperm day none
  rw [← Option.map_eq_none_iff, h, Option.map_eq_none_iff]

theorem closeOn_perm (day : Date) :
    closeOn calendar grouped day = closeOn calendar grouped' day := by
  unfold closeOn
  cases calendar.sessionBounds day with
  | none =>
      cases chosenRow (rowsOn grouped day) <;> cases chosenRow (rowsOn grouped' day) <;> rfl
  | some bounds =>
      have h := chosenRow_rowsOn_perm hdaily hperm day (some bounds.2)
      rw [Option.map_eq_bind, Option.map_eq_bind] at h
      exact h

/-- The history does not depend on the order of the rows. -/
theorem historyOf_perm :
    historyOf calendar asOf grouped rejected = historyOf calendar asOf grouped' rejected := by
  have hdays : sortedSet (grouped.map Prod.fst) = sortedSet (grouped'.map Prod.fst) :=
    sortedSet_congr fun day => (hperm.map Prod.fst).mem_iff
  have hclose : closeOn calendar grouped = closeOn calendar grouped' :=
    funext (closeOn_perm hdaily hperm)
  have hnone : (fun day => decide (chosenRow (rowsOn grouped day) = none)) =
      fun day => decide (chosenRow (rowsOn grouped' day) = none) :=
    funext fun day => decide_eq_decide.mpr (chosenRow_isNone_perm hdaily hperm day)
  have hsome : (fun day => decide (chosenRow (rowsOn grouped day) ≠ none)) =
      fun day => decide (chosenRow (rowsOn grouped' day) ≠ none) :=
    funext fun day => decide_eq_decide.mpr (not_congr (chosenRow_isNone_perm hdaily hperm day))
  have hlength : (fun n day => n + ((rowsOn grouped day).length - 1)) =
      fun n day => n + ((rowsOn grouped' day).length - 1) := by
    funext n day
    rw [(rowsOn_perm hperm day).length_eq]
  unfold historyOf
  dsimp only
  rw [hdays, hclose, hnone, hsome, hlength]

end

end

/-- A close of its session, that is over, at a positive price. -/
structure ClosesSession (bounds : Date → Option (Instant × Instant)) (asOf : Instant)
    (row : MarketPriceObservation) (day : Date) : Prop where
  stamped : ∃ opening closing, bounds day = some (opening, closing) ∧
    row.observedAt = some closing ∧ closing ≤ asOf
  positive : ∃ price, row.price = some price ∧ 0 < price

/-- A date of the series, whether its providers agree or not. -/
def SessionHistory.Grouped (history : SessionHistory) (day : Date) : Prop :=
  day ∈ history.sessionDates ∨ day ∈ history.conflictingDates

/-- One close for every date, in their order, and every session of the series accounted for. -/
structure CleanSeries (bounds : Date → Option (Instant × Instant)) (asOf : Instant)
    (history : SessionHistory) : Prop where
  increasing : history.sessionDates.Pairwise (· < ·)
  closes : Forall₂ (ClosesSession bounds asOf) history.observations history.sessionDates
  disjoint : ∀ day ∈ history.sessionDates, day ∉ history.conflictingDates
  covered : ∀ first last day, history.Grouped first → history.Grouped last → first ≤ day →
    day ≤ last → CompletedSession bounds asOf day →
    day ∈ history.sessionDates ∨ day ∈ history.missingDates
  conflicting : ∀ day ∈ history.conflictingDates, day ∈ history.missingDates

theorem closeOn_closes (hdaily : AllDaily calendar request asOf grouped) (day : Date) :
    chosenRow (rowsOn grouped day) = none ∧ closeOn calendar grouped day = none ∨
      ∃ row, chosenRow (rowsOn grouped day) ≠ none ∧ closeOn calendar grouped day = some row ∧
        ClosesSession calendar.sessionBounds asOf row day := by
  unfold closeOn
  cases hchosen : chosenRow (rowsOn grouped day) with
  | none => exact Or.inl ⟨rfl, rfl⟩
  | some chosen =>
      have hrow := hdaily _ (mem_rowsOn.mp (chosenRow_mem hchosen))
      obtain ⟨opening, closing, hbounds, hle⟩ := hrow.session
      refine Or.inr ⟨{ chosen with observedAt := some closing }, Option.some_ne_none _, ?_,
        ⟨opening, closing, hbounds, rfl, hle⟩, hrow.price⟩
      rw [Option.bind_some, hbounds, Option.map_some]

/-- The dates that have a close, and their closes, go together. -/
theorem forall₂_filterMap {α β : Type} {R : β → α → Prop} {f : α → Option β} {p : α → Bool} {l : List α}
    (h : ∀ a ∈ l, p a = false ∧ f a = none ∨ ∃ b, p a = true ∧ f a = some b ∧ R b a) :
    Forall₂ R (l.filterMap f) (l.filter p) := by
  induction l with
  | nil => exact Forall₂.nil
  | cons a l ih =>
      have hrest := ih fun b hb => h b (mem_cons_of_mem a hb)
      rcases h a mem_cons_self with ⟨hp, hf⟩ | ⟨b, hp, hf, hrel⟩
      · rw [filterMap_cons_none hf, filter_cons, if_neg (Bool.eq_false_iff.mp hp)]
        exact hrest
      · rw [filterMap_cons_some hf, filter_cons, if_pos hp]
        exact Forall₂.cons hrel hrest

theorem grouped_iff :
    (historyOf calendar asOf grouped rejected).Grouped day ↔ day ∈ grouped.map Prod.fst := by
  unfold SessionHistory.Grouped historyOf
  dsimp only
  rw [mem_filter, mem_filter, mem_sortedSet]
  by_cases hnone : chosenRow (rowsOn grouped day) = none <;> simp [hnone]

/-- The least and the greatest date bound the others. -/
theorem between_ends {days : List Date} (hsorted : days.Pairwise (· < ·))
    (hday : day ∈ days) : ∃ first last, days.head? = some first ∧ days.getLast? = some last ∧
      first ≤ day ∧ day ≤ last := by
  have hne : days ≠ [] := ne_nil_of_mem hday
  refine ⟨days.head hne, days.getLast hne, head?_eq_some_head hne,
    getLast?_eq_some_getLast hne, ?_, ?_⟩
  · exact (hsorted.imp le_of_lt).rel_head hday
  · exact (hsorted.imp le_of_lt).rel_getLast hday

theorem missing_of_completed {first last : Date}
    (hfirst : (sortedSet (grouped.map Prod.fst)).head? = some first)
    (hlast : (sortedSet (grouped.map Prod.fst)).getLast? = some last) (hlow : first ≤ day)
    (hhigh : day ≤ last) (hcompleted : CompletedSession calendar.sessionBounds asOf day) :
    day ∈ (historyOf calendar asOf grouped rejected).sessionDates ∨
      day ∈ (historyOf calendar asOf grouped rejected).missingDates := by
  by_cases hdates : day ∈ (historyOf calendar asOf grouped rejected).sessionDates
  · exact Or.inl hdates
  · refine Or.inr ?_
    unfold historyOf at hdates ⊢
    dsimp only at hdates ⊢
    rw [hfirst, hlast]
    refine mem_sortedSet.mpr (mem_append_left _ (mem_filter.mpr ⟨?_, ?_⟩))
    · exact mem_completedSessions.mpr ⟨hlow, hhigh, hcompleted⟩
    · exact decide_eq_true hdates

theorem historyOf_clean (hdaily : AllDaily calendar request asOf grouped) :
    CleanSeries calendar.sessionBounds asOf (historyOf calendar asOf grouped rejected) := by
  have hstrict := sortedSet_strict (grouped.map Prod.fst)
  have hcompleted : ∀ day ∈ grouped.map Prod.fst,
      CompletedSession calendar.sessionBounds asOf day := by
    intro day hday
    obtain ⟨entry, hentry, rfl⟩ := mem_map.mp hday
    exact (hdaily entry hentry).session
  refine ⟨hstrict.filter _, ?_, ?_, ?_, ?_⟩
  · refine forall₂_filterMap fun day _ => ?_
    rcases closeOn_closes hdaily day with ⟨hnone, hclose⟩ |
      ⟨row, hsome, hclose, hcloses⟩
    · exact Or.inl ⟨decide_eq_false (not_not_intro hnone), hclose⟩
    · exact Or.inr ⟨row, decide_eq_true hsome, hclose, hcloses⟩
  · intro day hday hconflict
    exact of_decide_eq_true (mem_filter.mp hday).2 (of_decide_eq_true (mem_filter.mp hconflict).2)
  · intro first last day hfirst hlast hlow hhigh hover
    obtain ⟨least, -, hleast, -, hle, -⟩ :=
      between_ends hstrict (mem_sortedSet.mpr (grouped_iff.mp hfirst))
    obtain ⟨-, greatest, -, hgreatest, -, hge⟩ :=
      between_ends hstrict (mem_sortedSet.mpr (grouped_iff.mp hlast))
    exact missing_of_completed hleast hgreatest (hle.trans hlow) (hhigh.trans hge) hover
  · intro day hconflict
    have hday := (mem_filter.mp hconflict).1
    obtain ⟨least, greatest, hleast, hgreatest, hle, hge⟩ := between_ends hstrict hday
    rcases missing_of_completed hleast hgreatest hle hge (hcompleted day (mem_sortedSet.mp hday))
      with hdates | hmissing
    · exact absurd (of_decide_eq_true (mem_filter.mp hconflict).2)
        (of_decide_eq_true (mem_filter.mp hdates).2)
    · exact hmissing

/-! ### The whole function -/

/-- Observed or retrieved after `as_of`. -/
def late (asOf : Instant) (row : MarketPriceObservation) : Bool :=
  row.observedAt.any (asOf < ·) || row.retrievedAt.any (asOf < ·)

variable (calendar request asOf)

/-- What is promised of the rows: there is an answer, it is a clean series of their dates, late
rows are only counted, and their order does not matter. -/
structure CleanCloses (observations : List MarketPriceObservation) (history : SessionHistory) :
    Prop where
  returned : validateDailyCloses calendar request (some asOf) observations = some history
  clean : CleanSeries calendar.sessionBounds asOf history
  late : ∃ count, validateDailyCloses calendar request (some asOf)
    (observations.filter fun row => !late asOf row) = some { history with rejectedCount := count }
  order : ∀ observations', observations.Perm observations' →
    validateDailyCloses calendar request (some asOf) observations' = some history

/-- Every provenance is a URL that can be parsed, or there is no calendar to look at it with. -/
def Parsable (observations : List MarketPriceObservation) : Prop :=
  calendar.zone = none ∨ ∀ row ∈ observations,
    (urlparse calendar.library.unicode row.sourceUrl.toList).isSome

variable {calendar request asOf}

theorem sift_isSome : (sift calendar request zone asOf row).isSome =
    (urlparse calendar.library.unicode row.sourceUrl.toList).isSome := by
  unfold sift historySymbol
  rw [Option.isSome_map, Option.isSome_map]

variable (request asOf) in
/-- The answer, from the rows that have a date and the number of those that have none. -/
theorem validate_eq (hzone : calendar.zone = some zone) (observations : List MarketPriceObservation) :
    validateDailyCloses calendar request (some asOf) observations = if ∀ row ∈ observations,
          (urlparse calendar.library.unicode row.sourceUrl.toList).isSome then
        some (historyOf calendar asOf (observations.filterMap (dated calendar request zone asOf))
          ((observations.filterMap (sift calendar request zone asOf)).countP
            fun entry => entry.2 = none))
      else none := by
  unfold validateDailyCloses
  rw [hzone]
  dsimp only
  rw [Fallible.mapM_eq_filterMap]
  simp only [sift_isSome]
  split
  · show some (historyOf calendar asOf (List.filterMap _ _) _) = _
    rw [filterMap_filterMap]
    rfl
  · rfl

theorem allDaily_dated (observations : List MarketPriceObservation) :
    AllDaily calendar request asOf (observations.filterMap (dated calendar request zone asOf)) := by
  intro entry hentry
  obtain ⟨row, -, hdated⟩ := mem_filterMap.mp hentry
  obtain ⟨hrow, hdaily⟩ := dated_daily hdated
  rw [hrow]
  exact hdaily

/-- A late row has no date. -/
theorem dated_of_late (hlate : late asOf row = true) :
    dated calendar request zone asOf row = none := by
  refine Option.eq_none_iff_forall_ne_some.mpr fun entry hdated => ?_
  obtain ⟨-, hdaily⟩ := dated_daily hdated
  obtain ⟨observed, hobserved, hseen⟩ := hdaily.observed
  obtain ⟨retrieved, hretrieved, hfetched⟩ := hdaily.retrieved
  unfold late at hlate
  rw [hobserved, hretrieved, Option.any_some, Option.any_some, Bool.or_eq_true] at hlate
  rcases hlate with hlate | hlate
  · exact absurd hseen (not_le.mpr (of_decide_eq_true hlate))
  · exact absurd hfetched (not_le.mpr (of_decide_eq_true hlate))

theorem filterMap_dated_late (observations : List MarketPriceObservation) :
    (observations.filter fun row => !late asOf row).filterMap (dated calendar request zone asOf) =
      observations.filterMap (dated calendar request zone asOf) := by
  rw [filterMap_filter]
  congr 1
  funext row
  cases hlate : late asOf row with
  | false => rfl
  | true => exact (dated_of_late hlate).symm

theorem cleanCloses_of_zone {observations : List MarketPriceObservation}
    (hzone : calendar.zone = some zone)
    (hurls : ∀ row ∈ observations,
      (urlparse calendar.library.unicode row.sourceUrl.toList).isSome) :
    ∃ history, CleanCloses calendar request asOf observations history := by
  have hreturned := (validate_eq request asOf hzone observations).trans (if_pos hurls)
  have hdropped := (validate_eq request asOf hzone (observations.filter fun row => !late asOf row)).trans
    (if_pos fun row hrow => hurls row (mem_of_mem_filter hrow))
  rw [filterMap_dated_late] at hdropped
  refine ⟨_, hreturned, historyOf_clean (allDaily_dated observations), ⟨_, hdropped⟩, ?_⟩
  · intro observations' hperm
    rw [validate_eq request asOf hzone, if_pos fun row hrow => hurls row (hperm.mem_iff.mpr hrow),
      historyOf_perm (allDaily_dated observations) (hperm.filterMap _),
      (hperm.filterMap (sift calendar request zone asOf)).countP_eq]

theorem cleanCloses_of_no_zone (observations : List MarketPriceObservation)
    (hzone : calendar.zone = none) :
    CleanCloses calendar request asOf observations (.rejecting observations.length) := by
  have hreturned : ∀ rows, validateDailyCloses calendar request (some asOf) rows =
      some (.rejecting rows.length) := by
    intro rows
    unfold validateDailyCloses
    rw [hzone]
  refine ⟨hreturned _, ?_, ⟨_, (hreturned _).trans rfl⟩, ?_⟩
  · refine ⟨List.Pairwise.nil, Forall₂.nil, ?_, ?_, ?_⟩
    · intro day hday
      cases hday
    · rintro first last day (hfirst | hfirst)
      · cases hfirst
      · cases hfirst
    · intro day hday
      cases hday
  · intro observations' hperm
    rw [hreturned, hperm.length_eq]

variable (calendar request asOf)

/-- **The validated closes are a clean series, whatever the order of the rows**, exactly where
every provenance can be parsed: a URL that cannot be is not rejected but raises. -/
theorem daily_closes_clean_iff (observations : List MarketPriceObservation) :
    (∃ history, CleanCloses calendar request asOf observations history) ↔
      Parsable calendar observations := by
  constructor
  · rintro ⟨history, hclean⟩
    cases hzone : calendar.zone with
    | none => exact Or.inl hzone
    | some zone =>
        refine Or.inr ?_
        have hreturned := hclean.returned
        rw [validate_eq request asOf hzone] at hreturned
        by_contra hurls
        rw [if_neg hurls] at hreturned
        cases hreturned
  · intro hparsable
    cases hzone : calendar.zone with
    | none => exact ⟨_, cleanCloses_of_no_zone observations hzone⟩
    | some zone =>
        rcases hparsable with hnone | hurls
        · rw [hzone] at hnone
          cases hnone
        · exact cleanCloses_of_zone hzone hurls

end

/-! ### Fixed offsets -/

/-- A zone whose offset never changes. -/
def ZoneInfo.fixed (zone : Zone) : ZoneInfo where
  wall now := now + zone
  combine day time := Market.combine day time zone

/-! ### A provenance that cannot be parsed -/

/-- The library on ASCII texts without percent escapes. -/
def plainText : TextLibrary where
  unicode := ⟨List.map Char.toLower, id⟩
  unquote := id
  upper text := String.ofList (text.toList.map Char.toUpper)
  lower text := String.ofList (text.toList.map Char.toLower)

/-- Sessions from 9:15 to 15:30 Indian time, on the weekday of the sample. -/
def nseCalendar : Calendar where
  library := plainText
  zoneInfo name := if name = "Asia/Kolkata" then some (ZoneInfo.fixed 19800000000) else none
  market := "NSE"
  schedules := [{ mondayHours with tradingDay := 4 }]
  exceptions := []

/-- The row of a day, labelled with its UTC midnight and retrieved the day after. -/
def candle (day : Date) (sourceUrl : String) : MarketPriceObservation :=
  ⟨0, some (day * dayLength), some 100, some "INR", "YAHOO_FINANCE", sourceUrl,
    some ((day + 1) * dayLength)⟩

def candleUrl : String :=
  "https://finance.yahoo.com/quote/EXAMPLE.NS/history?interval=1d&auto_adjust=false"

def nseRequest : ClosesRequest := ⟨0, some "INR", some "EXAMPLE.NS", none⟩

/-- An opening bracket in the host, and the day's good row is lost with the bad one. -/
theorem malformed_url_raises :
    (validateDailyCloses nseCalendar nseRequest (some (20743 * dayLength))
      [candle 20742 candleUrl]).map SessionHistory.sessionDates = some [20742] ∧
    ¬ ∃ history, CleanCloses nseCalendar nseRequest (20743 * dayLength)
      [candle 20742 candleUrl,
        candle 20742 "https://[finance.yahoo.com/quote/EXAMPLE.NS/history"] history := by
  refine ⟨by decide +kernel, ?_⟩
  rintro ⟨history, hclean⟩
  have hraises : validateDailyCloses nseCalendar nseRequest (some (20743 * dayLength))
      [candle 20742 candleUrl,
        candle 20742 "https://[finance.yahoo.com/quote/EXAMPLE.NS/history"] = none := by
    rfl
  have hreturned := hclean.returned
  rw [hraises] at hreturned
  cases hreturned

end InvestmentPlatform.Market
