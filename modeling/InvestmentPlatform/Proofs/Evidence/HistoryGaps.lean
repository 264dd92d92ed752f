/-
When the gaps of an income history are exact and can be closed.

The two histories differ in how they group what is reported and which period ends they require.
What is needed of the two together is little: the required ends are not after the latest one, and
a fact at a required end falls into the group it is missing from.  Then a fact for every gap makes
the selected group the greatest for certain, and nothing is missing from it any more.
-/
import InvestmentPlatform.Evidence.IncomeHistory
import Mathlib.Data.Finset.Card

namespace InvestmentPlatform.Evidence

open PyDate Selection List
open Fallible (mem_mapM)
open Rules (PyLibrary)

/-! ### The latest period -/

theorem latestOf_eq_some {group : List IncomePoint} {latest : Date} : latestOf group = some latest ↔
      (∃ point ∈ group, point.period = latest) ∧ ∀ point ∈ group, point.period ≤ latest := by
  unfold latestOf
  constructor
  · intro h
    obtain ⟨hmem, hmax⟩ := firstMax_mem h
    obtain ⟨point, hpoint, hperiod⟩ := mem_map.mp hmem
    exact ⟨⟨point, hpoint, hperiod⟩, fun other hother => hmax _ (mem_map_of_mem hother)⟩
  · rintro ⟨⟨point, hpoint, hperiod⟩, hmax⟩
    cases hfirst : firstMax id (group.map IncomePoint.period) with
    | none =>
        rw [firstMax_eq_none, map_eq_nil_iff] at hfirst
        rw [hfirst] at hpoint
        cases hpoint
    | some found =>
        obtain ⟨hmem, hbest⟩ := firstMax_mem hfirst
        obtain ⟨other, hother, hfound⟩ := mem_map.mp hmem
        have hle : found ≤ latest := hfound ▸ hmax other hother
        have hge : latest ≤ found := hperiod ▸ hbest _ (mem_map_of_mem hpoint)
        rw [le_antisymm hle hge]

/-! ### The points and the selected group -/

section
variable {K : Type} [DecidableEq K] {history : IncomeHistory K} {first : IncomePoint}
  {group points : List IncomePoint}

/-- What the selected group is: all points under one of the keys, of the greatest rank. -/
structure Selected (history : IncomeHistory K) (points : List IncomePoint)
    (first : IncomePoint) (group : List IncomePoint) : Prop where
  head : group.head? = some first
  members : group = points.filter fun point => history.group point = history.group first
  greatest : ∀ other ∈ groupOn history.group points, groupRank other ≤ groupRank group

theorem mem_groupOn : group ∈ groupOn history.group points ↔ ∃ point ∈ points,
      group = points.filter fun other => history.group other = history.group point := by
  rw [groupOn_eq, mem_map]
  constructor
  · rintro ⟨k, hk, rfl⟩
    obtain ⟨point, hpoint, hkey⟩ := mem_map.mp (mem_keepBest_keys.mp hk)
    exact ⟨point, hpoint, by rw [hkey]⟩
  · rintro ⟨point, hpoint, rfl⟩
    exact ⟨history.group point, mem_keepBest_keys.mpr (mem_map_of_mem hpoint), rfl⟩

theorem Selected.first_mem (h : Selected history points first group) : first ∈ group :=
  mem_of_head? h.head

theorem Selected.mem (h : Selected history points first group) {point : IncomePoint} :
    point ∈ group ↔ point ∈ points ∧ history.group point = history.group first := by
  have hmem : point ∈ group ↔
      point ∈ points.filter fun point => history.group point = history.group first := by
    rw [← h.members]
  rw [hmem, mem_filter, decide_eq_true_eq]

/-- A rank begins with the latest period. -/
theorem number_le_of_rank {group other : List IncomePoint} {latest found : Date}
    (hlatest : latestOf group = some latest) (hfound : latestOf other = some found)
    (h : groupRank other ≤ groupRank group) : found ≤ latest := by
  unfold groupRank at h
  rw [hlatest, hfound] at h
  rcases Prod.Lex.toLex_le_toLex.mp h with hlt | ⟨heq, -⟩
  · exact hlt.le
  · exact heq.le

/-- A pair that was missing raises the rank of its group. -/
theorem groupRank_lt {extra : List IncomePoint} {latest : Date} {point : IncomePoint}
    (hlatest : latestOf group = some latest) (hbefore : ∀ other ∈ extra, other.period ≤ latest)
    (hpoint : point ∈ extra)
    (hnew : ∀ other ∈ group, ¬ (other.metric = point.metric ∧ other.period = point.period)) :
    groupRank group < groupRank (group ++ extra) := by
  obtain ⟨⟨found, hfound, hperiod⟩, hmax⟩ := latestOf_eq_some.mp hlatest
  have hlatest' : latestOf (group ++ extra) = some latest := by
    refine latestOf_eq_some.mpr ⟨⟨found, mem_append_left _ hfound, hperiod⟩, ?_⟩
    intro other hother
    rcases mem_append.mp hother with hother | hother
    · exact hmax other hother
    · exact hbefore other hother
  have hhead : (group ++ extra).head? = group.head? := by
    cases group with
    | nil => cases hfound
    | cons first rest => rfl
  have hsize : (group.map fun point => (point.metric, point.period)).dedup.length <
      ((group ++ extra).map fun point => (point.metric, point.period)).dedup.length := by
    rw [← card_toFinset, ← card_toFinset]
    apply Finset.card_lt_card
    rw [Finset.ssubset_iff_of_subset]
    · refine ⟨(point.metric, point.period), ?_, ?_⟩
      · rw [mem_toFinset]
        exact mem_map_of_mem (mem_append_right _ hpoint)
      · rw [mem_toFinset, mem_map]
        rintro ⟨other, hother, hsame⟩
        exact hnew other hother (Prod.mk.injEq .. |>.mp hsame)
    · intro pair hpair
      rw [mem_toFinset] at hpair ⊢
      rw [map_append]
      exact mem_append_left _ hpair
  unfold groupRank
  rw [hlatest, hlatest', hhead, Prod.Lex.toLex_lt_toLex]
  refine Or.inr ⟨rfl, ?_⟩
  rw [Prod.Lex.toLex_lt_toLex]
  exact Or.inr ⟨rfl, hsize⟩

/-- The selected group has the latest period of all. -/
theorem Selected.latest (h : Selected history points first group) {latest : Date}
    (hlatest : latestOf group = some latest) : latestOf points = some latest := by
  obtain ⟨⟨point, hpoint, hperiod⟩, -⟩ := latestOf_eq_some.mp hlatest
  refine latestOf_eq_some.mpr ⟨⟨point, (h.mem.mp hpoint).1, hperiod⟩, fun other hother => ?_⟩
  have hin : (points.filter fun p => history.group p = history.group other) ∈
      groupOn history.group points :=
    mem_groupOn.mpr ⟨other, hother, rfl⟩
  have hself : other ∈ points.filter fun p => history.group p = history.group other :=
    mem_filter.mpr ⟨hother, decide_eq_true rfl⟩
  cases hfound : latestOf (points.filter fun p => history.group p = history.group other) with
  | none =>
      unfold latestOf at hfound
      rw [firstMax_eq_none, map_eq_nil_iff] at hfound
      rw [hfound] at hself
      cases hself
  | some found =>
      have hle := (latestOf_eq_some.mp hfound).2 other hself
      exact hle.trans (number_le_of_rank hlatest hfound (h.greatest _ hin))

theorem Selected.exists_latest (h : Selected history points first group) :
    ∃ latest, latestOf group = some latest := by
  cases hlatest : latestOf group with
  | some latest => exact ⟨latest, rfl⟩
  | none =>
      unfold latestOf at hlatest
      rw [firstMax_eq_none, map_eq_nil_iff] at hlatest
      have hfirst := h.first_mem
      rw [hlatest] at hfirst
      cases hfirst

/-- What a group lacks. -/
theorem mem_missingKeys {kind : String} {first : IncomePoint} {rest : List IncomePoint}
    {ends : List Date} {key : FinancialFactKey} :
    key ∈ missingKeys kind (first :: rest) ends ↔ ∃ period ∈ ends, ∃ metric ∈ ["revenue", "pat"],
      (∀ point ∈ first :: rest, ¬ (point.metric = metric ∧ point.period = period)) ∧
        key = gapKey kind first metric period := by
  unfold missingKeys
  simp only [mem_flatMap, mem_filterMap, Option.ite_none_left_eq_some,
    any_eq_true, decide_eq_true_eq, Option.some.injEq, not_exists, not_and]
  constructor
  · rintro ⟨period, hperiod, metric, hmetric, hnone, rfl⟩
    exact ⟨period, hperiod, metric, hmetric, hnone, rfl⟩
  · rintro ⟨period, hperiod, metric, hmetric, hnone, rfl⟩
    exact ⟨period, hperiod, metric, hmetric, hnone, rfl⟩

/-! ### What is selected -/

section
variable [PyLibrary]

theorem selected_cases (history : IncomeHistory K) (facts : List ReportedFact) :
    (history.points facts = [] ∧ history.selected facts = none) ∨
      ∃ first group, history.selected facts = some group ∧
        Selected history (history.points facts) first group := by
  cases hselected : history.selected facts with
  | none =>
      left
      refine ⟨eq_nil_iff_forall_not_mem.mpr fun point hpoint => ?_, rfl⟩
      have hnil : groupOn history.group (history.points facts) = [] := firstMax_eq_none.mp hselected
      have hmem : _ ∈ groupOn history.group (history.points facts) :=
        mem_groupOn.mpr ⟨point, hpoint, rfl⟩
      rw [hnil] at hmem
      cases hmem
  | some group =>
      right
      obtain ⟨hmem, hgreatest⟩ := firstMax_mem hselected
      obtain ⟨point, hpoint, hgroup⟩ := mem_groupOn.mp hmem
      have hin : point ∈ group := by
        rw [hgroup, mem_filter]
        exact ⟨hpoint, decide_eq_true rfl⟩
      cases hhead : group.head? with
      | none =>
          rw [head?_eq_none_iff] at hhead
          rw [hhead] at hin
          cases hin
      | some first =>
          refine ⟨first, group, rfl, hhead, ?_, hgreatest⟩
          have hfirst : first ∈ group := mem_of_head? hhead
          rw [hgroup, mem_filter, decide_eq_true_eq] at hfirst
          rw [hfirst.2]
          exact hgroup

variable {facts : List ReportedFact}

/-- The gaps of a selected group. -/
theorem gaps_eq {group : List IncomePoint} {latest : Date}
    (hselected : history.selected facts = some group) (hlatest : latestOf group = some latest) :
    history.gaps facts = (history.required latest).map (missingKeys history.kind group) := by
  unfold IncomeHistory.gaps
  rw [hselected]
  dsimp only
  rw [hlatest]
  rfl

/-! ### What a fact says -/

/-- A supported fact with that key and currency. -/
structure Supports (key : FinancialFactKey) (unit : String) (fact : ReportedFact) : Prop where
  key : fact.key = key
  real : fact.sourceMode = .real
  supported : fact.sourceTier ∈ supportedFinancialSourceTiers
  valued : fact.valued = true
  unit : currencyOf fact.unit = some unit

theorem incomePoint_eq_some {kind : String} {fact : ReportedFact} {point : IncomePoint} :
    incomePoint kind fact = some point ↔
      fact.sourceMode = .real ∧ fact.sourceTier ∈ supportedFinancialSourceTiers ∧
        fact.key.periodType = kind ∧ aliases fact.key.metric ∈ ["revenue", "pat"] ∧
        fact.valued = true ∧ fact.key.reportingBasis = some point.reportingBasis ∧
        point.reportingBasis ∈ ["STANDALONE", "CONSOLIDATED"] ∧
        fromIsoformat (fact.key.periodEnd.getD "") = some point.period ∧
        currencyOf fact.unit = some point.unit ∧
        fact.key.instrumentId = point.instrumentId ∧ aliases fact.key.metric = point.metric := by
  unfold incomePoint
  dsimp only
  split
  · rename_i hnot
    constructor
    · intro h
      cases h
    · rintro ⟨hreal, hsupported, hkind, hmetric, hvalued, -⟩
      exfalso
      rcases hnot with h | h | h | h | h
      · exact h hreal
      · exact h hsupported
      · exact h hkind
      · exact h hmetric
      · rw [hvalued] at h
        cases h
  · rename_i hnot
    simp only [not_or, not_not, Bool.not_eq_false] at hnot
    constructor
    · intro h
      obtain ⟨basis, hbasis, h⟩ := Option.bind_eq_some_iff.mp h
      obtain ⟨period, hperiod, h⟩ := Option.bind_eq_some_iff.mp h
      obtain ⟨unit, hunit, rfl⟩ := Option.map_eq_some_iff.mp h
      obtain ⟨hsome, hmember⟩ := Option.filter_eq_some_iff.mp hbasis
      exact ⟨hnot.1, hnot.2.1, hnot.2.2.1, hnot.2.2.2.1, hnot.2.2.2.2, hsome,
        of_decide_eq_true hmember, hperiod, hunit, rfl, rfl⟩
    · rintro ⟨-, -, -, -, -, hbasis, hmember, hperiod, hunit, hinstrument, hmetric⟩
      rw [hbasis, Option.filter_some, if_pos (decide_eq_true hmember)]
      dsimp only [Option.bind_some]
      rw [hperiod, hunit, hinstrument, hmetric]
      rfl

/-- The point of a supported fact for a gap: the pair that was missing, in the group's terms. -/
theorem incomePoint_of_supports {kind : String} {first : IncomePoint} {metric : String}
    {period : Date} {fact : ReportedFact} (hmetric : metric ∈ ["revenue", "pat"])
    (hbasis : first.reportingBasis ∈ ["STANDALONE", "CONSOLIDATED"])
    (h : Supports (gapKey kind first metric period) first.unit fact) :
    incomePoint kind fact = some { first with metric := metric, period := period } := by
  have hname : aliases metric = metric := by
    simp only [mem_cons, not_mem_nil, or_false] at hmetric
    rcases hmetric with rfl | rfl <;> decide
  rw [incomePoint_eq_some, h.key]
  refine ⟨h.real, h.supported, rfl, ?_, h.valued, rfl, hbasis, ?_, h.unit, rfl, hname⟩
  · rw [show (gapKey kind first metric period).metric = metric from rfl, hname]
    exact hmetric
  · exact fromIsoformat_isoformat period

/-! ### Exact gaps -/

/-- What is asked of the gaps of a history: `planned` are the period ends of the evidence plan. -/
structure Exact (history : IncomeHistory K) (planned : Date → Option (List Date))
    (facts : List ReportedFact) : Prop where
  /-- The call does not raise. -/
  returns : ∃ gaps, history.gaps facts = some gaps
  /-- No gap is there already, under any name of its metric, in the currency of the group. -/
  absent : ∀ gaps first group, history.gaps facts = some gaps →
    history.selected facts = some group → group.head? = some first →
      ∀ key ∈ gaps, ∀ point ∈ history.points facts, point.unit = first.unit →
        gapKey history.kind point point.metric point.period ≠ key
  /-- No gap is after the latest period of its basis. -/
  bounded : ∀ gaps, history.gaps facts = some gaps → ∀ key ∈ gaps, ∃ period : Date,
    key.periodEnd = some period.isoformat ∧ ∃ point ∈ history.points facts,
      key.reportingBasis = some point.reportingBasis ∧ period ≤ point.period
  /-- With a supported fact for every gap, and no others, there is none left. -/
  closable : ∀ gaps first group, history.gaps facts = some gaps →
    history.selected facts = some group → group.head? = some first → ∀ added,
      (∀ fact ∈ added, ∃ key ∈ gaps, Supports key first.unit fact) →
      (∀ key ∈ gaps, ∃ fact ∈ added, fact.key = key) → history.gaps (facts ++ added) = some []
  /-- The periods it requires are those of the plan. -/
  agrees : ∀ group latest, history.selected facts = some group →
    latestOf group = some latest → history.required latest = planned latest

/-- The required ends, at a latest period, are those a fact can fill. -/
structure Fits (history : IncomeHistory K) (latest : Date) (ends : List Date) : Prop where
  required : history.required latest = some ends
  before : ∀ period ∈ ends, period ≤ latest
  same : ∀ point : IncomePoint, point.period = latest → ∀ metric, ∀ period ∈ ends,
    history.group { point with metric := metric, period := period } = history.group point

/-- A group is of one instrument, basis and currency. -/
def Coherent (history : IncomeHistory K) : Prop :=
  ∀ p q, history.group p = history.group q →
    p.instrumentId = q.instrumentId ∧ p.reportingBasis = q.reportingBasis ∧ p.unit = q.unit

omit [DecidableEq K] in
theorem point_basis {point : IncomePoint} (h : point ∈ history.points facts) :
    point.reportingBasis ∈ ["STANDALONE", "CONSOLIDATED"] := by
  obtain ⟨fact, -, hpoint⟩ := mem_filterMap.mp h
  exact (incomePoint_eq_some.mp hpoint).2.2.2.2.2.2.1

variable {ends : List Date}

omit [PyLibrary] in
/-- A pair that is filled falls into the group it is missing from. -/
theorem Selected.group_filled {latest : Date} (hcoherent : Coherent history)
    (h : Selected history points first group) (hlatest : latestOf group = some latest)
    (hfits : Fits history latest ends) (metric : String) {period : Date} (hperiod : period ∈ ends) :
    history.group { first with metric := metric, period := period } = history.group first := by
  obtain ⟨⟨point, hpoint, heq⟩, -⟩ := latestOf_eq_some.mp hlatest
  have hgroup := (h.mem.mp hpoint).2
  obtain ⟨hinstrument, hbasis, hunit⟩ := hcoherent point first hgroup
  have hsame := hfits.same point heq metric period hperiod
  rw [hinstrument, hbasis, hunit] at hsame
  rw [hsame, hgroup]

/-- The points of facts that were added for the gaps. -/
theorem filled_points {added : List ReportedFact} {rest : List IncomePoint}
    (hgroup : Selected history (history.points facts) first (first :: rest))
    (hadded : ∀ fact ∈ added, ∃ key ∈ missingKeys history.kind (first :: rest) ends,
      Supports key first.unit fact) (point : IncomePoint) :
    point ∈ history.points added ↔ ∃ fact ∈ added, ∃ period ∈ ends, ∃ metric ∈ ["revenue", "pat"],
      (∀ other ∈ first :: rest, ¬ (other.metric = metric ∧ other.period = period)) ∧
        fact.key = gapKey history.kind first metric period ∧
        point = { first with metric := metric, period := period } := by
  have hbasis := point_basis (hgroup.mem.mp hgroup.first_mem).1
  unfold IncomeHistory.points
  rw [mem_filterMap]
  constructor
  · rintro ⟨fact, hfact, hpoint⟩
    obtain ⟨key, hkey, hsupports⟩ := hadded fact hfact
    obtain ⟨period, hperiod, metric, hmetric, hnone, rfl⟩ := mem_missingKeys.mp hkey
    rw [incomePoint_of_supports hmetric hbasis hsupports] at hpoint
    exact ⟨fact, hfact, period, hperiod, metric, hmetric, hnone, hsupports.key,
      (Option.some.inj hpoint).symm⟩
  · rintro ⟨fact, hfact, period, hperiod, metric, hmetric, hnone, hkey, rfl⟩
    obtain ⟨key, -, hsupports⟩ := hadded fact hfact
    rw [← hsupports.key, hkey] at hsupports
    exact ⟨fact, hfact, incomePoint_of_supports hmetric hbasis hsupports⟩

/-- With every gap filled the group is selected again, and lacks nothing. -/
theorem gaps_filled {added : List ReportedFact} {rest : List IncomePoint} {latest : Date}
    (hcoherent : Coherent history)
    (hselected : history.selected facts = some (first :: rest))
    (hgroup : Selected history (history.points facts) first (first :: rest))
    (hlatest : latestOf (first :: rest) = some latest) (hfits : Fits history latest ends)
    (hadded : ∀ fact ∈ added, ∃ key ∈ missingKeys history.kind (first :: rest) ends,
      Supports key first.unit fact)
    (hall : ∀ key ∈ missingKeys history.kind (first :: rest) ends, ∃ fact ∈ added, fact.key = key) :
    history.gaps (facts ++ added) = some [] := by
  cases hmissing : missingKeys history.kind (first :: rest) ends with
  | nil =>
      -- nothing was missing, so nothing was added
      have hnone : added = [] := by
        refine eq_nil_iff_forall_not_mem.mpr fun fact hfact => ?_
        obtain ⟨key, hkey, -⟩ := hadded fact hfact
        rw [hmissing] at hkey
        cases hkey
      rw [hnone, append_nil, gaps_eq hselected hlatest, hfits.required, Option.map_some, hmissing]
  | cons key keys =>
      have hextra := filled_points hgroup hadded
      generalize hpoints : history.points added = extra at hextra
      have hsum : history.points (facts ++ added) = history.points facts ++ extra := by
        rw [← hpoints]
        exact filterMap_append
      have hinto : ∀ point ∈ extra, history.group point = history.group first := by
        intro point hpoint
        obtain ⟨-, -, period, hperiod, metric, -, -, -, rfl⟩ := (hextra point).mp hpoint
        exact hgroup.group_filled hcoherent hlatest hfits metric hperiod
      have hbefore : ∀ point ∈ extra, point.period ≤ latest := by
        intro point hpoint
        obtain ⟨-, -, period, hperiod, metric, -, -, -, rfl⟩ := (hextra point).mp hpoint
        exact hfits.before period hperiod
      -- the group with the gaps filled, and the pair that makes it greater than before
      have hfull : ((history.points facts ++ extra).filter
          fun point => history.group point = history.group first) = first :: rest ++ extra := by
        rw [filter_append, ← hgroup.members, filter_eq_self.mpr]
        exact fun point hpoint => decide_eq_true (hinto point hpoint)
      have hfilled : ∀ key ∈ missingKeys history.kind (first :: rest) ends,
          ∀ period ∈ ends, ∀ metric ∈ ["revenue", "pat"],
          (∀ other ∈ first :: rest, ¬ (other.metric = metric ∧ other.period = period)) →
          key = gapKey history.kind first metric period →
            { first with metric := metric, period := period } ∈ extra := by
        rintro key hkey period hperiod metric hmetric hnone rfl
        obtain ⟨fact, hfact, hsame⟩ := hall _ hkey
        exact (hextra _).mpr ⟨fact, hfact, period, hperiod, metric, hmetric, hnone, hsame, rfl⟩
      have hkey : key ∈ missingKeys history.kind (first :: rest) ends := by
        rw [hmissing]
        exact mem_cons_self
      obtain ⟨period, hperiod, metric, hmetric, hnone, heq⟩ := mem_missingKeys.mp hkey
      have hlt := groupRank_lt hlatest hbefore
        (hfilled key hkey period hperiod metric hmetric hnone heq) hnone
      rcases selected_cases history (facts ++ added) with ⟨hnil, -⟩ | ⟨first', group', hsel, hnew⟩
      · rw [hsum] at hnil
        have hfirst := (hgroup.mem.mp hgroup.first_mem).1
        rw [(append_eq_nil_iff.mp hnil).1] at hfirst
        cases hfirst
      rw [hsum] at hnew
      have hwinner : history.group first' = history.group first := by
        by_contra hother
        have hold : group' = (history.points facts).filter
            fun point => history.group point = history.group first' := by
          have hempty : (extra.filter
              fun point => history.group point = history.group first') = [] := by
            rw [filter_eq_nil_iff]
            intro point hpoint hc
            exact hother ((of_decide_eq_true hc).symm.trans (hinto point hpoint))
          rw [hnew.members, filter_append, hempty, append_nil]
        have hfirst' : first' ∈ history.points facts := by
          have hmem := hnew.first_mem
          rw [hold] at hmem
          exact (mem_filter.mp hmem).1
        have hle := hgroup.greatest group' (mem_groupOn.mpr ⟨first', hfirst', hold⟩)
        have hge := hnew.greatest (first :: rest ++ extra) (mem_groupOn.mpr
          ⟨first, mem_append_left _ (hgroup.mem.mp hgroup.first_mem).1, hfull.symm⟩)
        exact absurd (hge.trans hle) (not_le.mpr hlt)
      have hgroup' : group' = first :: (rest ++ extra) := by
        rw [hnew.members, hwinner, hfull]
        rfl
      have hlatest' : latestOf group' = some latest := by
        obtain ⟨⟨found, hfound, hfoundPeriod⟩, hmax⟩ := latestOf_eq_some.mp hlatest
        rw [hgroup', ← cons_append]
        refine latestOf_eq_some.mpr ⟨⟨found, mem_append_left _ hfound, hfoundPeriod⟩, ?_⟩
        intro other hother
        rcases mem_append.mp hother with hother | hother
        · exact hmax other hother
        · exact hbefore other hother
      rw [gaps_eq hsel hlatest', hfits.required, Option.map_some, hgroup']
      congr 1
      refine eq_nil_iff_forall_not_mem.mpr fun left hleft => ?_
      obtain ⟨period, hperiod, metric, hmetric, hnone, rfl⟩ := mem_missingKeys.mp hleft
      have hnone' : ∀ other ∈ first :: rest,
          ¬ (other.metric = metric ∧ other.period = period) := fun other hother =>
        hnone other (by rw [← cons_append]; exact mem_append_left _ hother)
      have hmem := hfilled _ (mem_missingKeys.mpr ⟨period, hperiod, metric, hmetric, hnone', rfl⟩)
        period hperiod metric hmetric hnone' rfl
      exact hnone _ (by rw [← cons_append]; exact mem_append_right _ hmem) ⟨rfl, rfl⟩

/-- Where the required ends fit the latest period, the gaps are exact. -/
theorem exact_of_fits {planned : Date → Option (List Date)} (hcoherent : Coherent history)
    (hfits : ∀ latest, latestOf (history.points facts) = some latest →
      ∃ ends, Fits history latest ends ∧ planned latest = some ends) :
    Exact history planned facts := by
  rcases selected_cases history facts with ⟨-, hnone⟩ | ⟨first, group, hselected, hgroup⟩
  · -- nothing is reported
    have hgaps : history.gaps facts = some [] := by
      unfold IncomeHistory.gaps
      rw [hnone]
    refine ⟨⟨[], hgaps⟩, ?_, ?_, ?_, ?_⟩
    · intro gaps first group _ hselected
      rw [hnone] at hselected
      cases hselected
    · intro gaps h key hkey
      rw [hgaps] at h
      cases h
      cases hkey
    · intro gaps first group _ hselected
      rw [hnone] at hselected
      cases hselected
    · intro group latest hselected
      rw [hnone] at hselected
      cases hselected
  obtain ⟨latest, hlatest⟩ := hgroup.exists_latest
  obtain ⟨ends, hends, hplanned⟩ := hfits latest (hgroup.latest hlatest)
  obtain ⟨rest, rfl⟩ : ∃ rest, group = first :: rest := head?_eq_some_iff.mp hgroup.head
  have hgaps : history.gaps facts = some (missingKeys history.kind (first :: rest) ends) := by
    rw [gaps_eq hselected hlatest, hends.required]
    rfl
  refine ⟨⟨_, hgaps⟩, ?_, ?_, ?_, ?_⟩
  · intro gaps first' group' hgaps' hselected' hhead key hkey point hpoint hunit hsame
    rw [hgaps] at hgaps'
    cases hgaps'
    rw [hselected] at hselected'
    cases hselected'
    cases hhead
    obtain ⟨period, hperiod, metric, -, hnone, rfl⟩ := mem_missingKeys.mp hkey
    obtain ⟨hinstrument, hmetric, hend, -, hbasis⟩ := FinancialFactKey.mk.injEq .. |>.mp hsame
    have hdate := isoformat_injective (Option.some.inj hend)
    have hpair : point = { first with metric := metric, period := period } := by
      cases point
      cases hinstrument
      cases hmetric
      cases hdate
      cases hbasis
      cases hunit
      rfl
    have hin := hgroup.group_filled hcoherent hlatest hends metric hperiod
    rw [← hpair] at hin
    exact hnone point (hgroup.mem.mpr ⟨hpoint, hin⟩) ⟨hmetric, hdate⟩
  · intro gaps hgaps' key hkey
    rw [hgaps] at hgaps'
    cases hgaps'
    obtain ⟨period, hperiod, metric, -, -, rfl⟩ := mem_missingKeys.mp hkey
    obtain ⟨⟨point, hpoint, heq⟩, -⟩ := latestOf_eq_some.mp hlatest
    obtain ⟨hin, hsame⟩ := hgroup.mem.mp hpoint
    refine ⟨period, rfl, point, hin, congrArg some (hcoherent _ _ hsame).2.1.symm, ?_⟩
    rw [heq]
    exact hends.before period hperiod
  · intro gaps first' group' hgaps' hselected' hhead added hadded hall
    rw [hgaps] at hgaps'
    cases hgaps'
    rw [hselected] at hselected'
    cases hselected'
    cases hhead
    exact gaps_filled hcoherent hselected hgroup hlatest hends hadded hall
  · intro group' latest' hselected' hlatest'
    rw [hselected] at hselected'
    cases hselected'
    rw [hlatest] at hlatest'
    cases hlatest'
    rw [hends.required, hplanned]

end

end

end InvestmentPlatform.Evidence
