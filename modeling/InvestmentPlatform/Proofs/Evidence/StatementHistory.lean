/-
The shown histories are coherent, and the order of the facts is nothing to them.

A series is the groups of one basis, sorted by their periods; the basis is one that the newest
period has, so the series begins with that period.  A statement history selects the basis for each
period by itself.  All of it is a function of the groups, the ranks of their bases and the values of
their metrics, and none of these depends on the order of the facts.

A row of results names the type of the source of its primary fact.  Which fact that is does depend
on the order, where two metrics tie; and it raises where the fact does not name one.
-/
import InvestmentPlatform.Proofs.Evidence.HistoryCalendar

namespace InvestmentPlatform.Evidence.StatementHistory

open Selection List GroupKey Stage2 PyDate

variable {isDigit : Char → Bool} {periodTypes metrics : List String}
  {facts facts' held held' : List FinancialFact} {fact : FinancialFact} {key : GroupKey}
  {kind metric : String}

/-! ### The groups of a series -/

/-- The groups of a type. -/
def kindKeys (isDigit : Char → Bool) (held : List FinancialFact) (kind : String) : List GroupKey :=
  (groupKeys isDigit held).filter (·.periodType = kind)

/-- The groups by period, the newest first. -/
def newestFirst (keys : List GroupKey) : List GroupKey :=
  sortOn (fun key => OrderDual.toDual (toLex (key.period, key.reportingBasis.getD ""))) keys

/-- The series of a type, by its newest period and by the basis that is selected there. -/
theorem seriesKeys_eq (held : List FinancialFact) (kind : String) : seriesKeys isDigit held kind =
      ((firstMax period (kindKeys isDigit held kind)).map period).elim []
        fun period =>
          ((firstMax (basisRank isDigit held)
            ((kindKeys isDigit held kind).filter (·.period = period))).map
              reportingBasis).elim [] fun basis =>
            (newestFirst ((kindKeys isDigit held kind).filter (·.reportingBasis = basis))).take 4 := by
  unfold seriesKeys newestFirst
  dsimp only
  rw [← kindKeys]
  cases firstMax period (kindKeys isDigit held kind) with
  | none => rfl
  | some newest =>
    dsimp only
    rw [Option.map_some, Option.elim_some]
    cases firstMax (basisRank isDigit held)
        ((kindKeys isDigit held kind).filter (·.period = newest.period)) with
    | none => rfl
    | some best =>
      dsimp only
      rw [Option.map_some, Option.elim_some, sortOn_filter]

theorem mem_kindKeys :
    key ∈ kindKeys isDigit held kind ↔ key ∈ groupKeys isDigit held ∧ key.periodType = kind := by
  unfold kindKeys
  rw [mem_filter, decide_eq_true_eq]

theorem kindKeys_nodup : (kindKeys isDigit held kind).Nodup := groupKeys_nodup.filter _

/-- In one type and basis, a period has one group. -/
theorem period_injective {basis : Option String} {key' : GroupKey}
    (hkey : key ∈ (kindKeys isDigit held kind).filter (·.reportingBasis = basis))
    (hkey' : key' ∈ (kindKeys isDigit held kind).filter (·.reportingBasis = basis))
    (hperiod : key.period = key'.period) : key = key' := by
  obtain ⟨hmem, hbasis⟩ := mem_filter.mp hkey
  obtain ⟨hmem', hbasis'⟩ := mem_filter.mp hkey'
  have htype := (mem_kindKeys.mp hmem).2
  have htype' := (mem_kindKeys.mp hmem').2
  rw [decide_eq_true_eq] at hbasis hbasis'
  cases key
  cases key'
  simp only at hperiod hbasis hbasis' htype htype'
  rw [hperiod, hbasis, hbasis', htype, htype']

theorem mem_newestFirst {keys : List GroupKey} : key ∈ newestFirst keys ↔ key ∈ keys :=
  (sortOn_perm _ keys).mem_iff

/-- No later group has a later period. -/
theorem newestFirst_pairwise (keys : List GroupKey) :
    (newestFirst keys).Pairwise fun earlier later => later.period ≤ earlier.period := by
  refine (sortOn_pairwise _ keys).imp fun {earlier later} hle => ?_
  exact (Prod.Lex.monotone_fst_ofLex (OrderDual.toDual_le_toDual.mp hle))

theorem newestFirst_strict (basis : Option String) :
    (newestFirst ((kindKeys isDigit held kind).filter (·.reportingBasis = basis))).Pairwise
      fun earlier later => later.period < earlier.period := by
  have hnodup : (newestFirst ((kindKeys isDigit held kind).filter
      (·.reportingBasis = basis))).Nodup :=
    (sortOn_perm _ _).nodup_iff.mpr (kindKeys_nodup.filter _)
  refine ((newestFirst_pairwise _).and hnodup).imp_of_mem fun {earlier later} hearlier hlater h => ?_
  refine lt_of_le_of_ne h.1 fun hperiod => h.2 ?_
  exact period_injective (mem_newestFirst.mp hearlier) (mem_newestFirst.mp hlater) hperiod.symm

/-- What the groups of a series are. -/
structure SeriesLaw (isDigit : Char → Bool) (held : List FinancialFact) (kind : String)
    (series : List GroupKey) : Prop where
  basis : ∃ basis, ∀ key ∈ series, key.reportingBasis = basis
  short : series.length ≤ 4
  decreasing : series.Pairwise fun earlier later => later.period < earlier.period
  shown : ∀ key ∈ series, key ∈ kindKeys isDigit held kind
  newest : ∀ key ∈ kindKeys isDigit held kind, ∃ first, series.head? = some first ∧
    key.period ≤ first.period

variable (isDigit) in
theorem seriesKeys_law (held : List FinancialFact) (kind : String) :
    SeriesLaw isDigit held kind (seriesKeys isDigit held kind) := by
  rw [seriesKeys_eq]
  cases hnewest : firstMax period (kindKeys isDigit held kind) with
  | none =>
    have hnil := firstMax_eq_none.mp hnewest
    refine ⟨⟨none, nofun⟩, Nat.zero_le 4, List.Pairwise.nil, nofun, fun key hkey => ?_⟩
    rw [hnil] at hkey
    exact absurd hkey not_mem_nil
  | some newest =>
    obtain ⟨hnewestmem, hmax⟩ := firstMax_mem hnewest
    rw [Option.map_some, Option.elim_some]
    cases hbest : firstMax (basisRank isDigit held)
        ((kindKeys isDigit held kind).filter (·.period = newest.period)) with
    | none =>
      have hin : newest ∈ (kindKeys isDigit held kind).filter (·.period = newest.period) :=
        mem_filter.mpr ⟨hnewestmem, decide_eq_true rfl⟩
      rw [firstMax_eq_none.mp hbest] at hin
      exact absurd hin not_mem_nil
    | some best =>
      obtain ⟨hbestmem, hbestperiod⟩ := mem_filter.mp (firstMax_mem hbest).1
      rw [Option.map_some, Option.elim_some]
      have hmem : ∀ key ∈ (newestFirst ((kindKeys isDigit held kind).filter
          (·.reportingBasis = best.reportingBasis))).take 4,
          key ∈ kindKeys isDigit held kind ∧ key.reportingBasis = best.reportingBasis := by
        intro key hkey
        obtain ⟨hkind, hbasis⟩ := mem_filter.mp (mem_newestFirst.mp (mem_of_mem_take hkey))
        exact ⟨hkind, of_decide_eq_true hbasis⟩
      refine ⟨⟨best.reportingBasis, fun key hkey => (hmem key hkey).2⟩, length_take_le 4 _,
        (newestFirst_strict _).sublist (take_sublist 4 _), fun key hkey => (hmem key hkey).1,
        fun key hkey => ?_⟩
      -- The first group has no earlier period than the one whose basis was selected.
      have hin : best ∈ newestFirst ((kindKeys isDigit held kind).filter
          (·.reportingBasis = best.reportingBasis)) :=
        mem_newestFirst.mpr (mem_filter.mpr ⟨hbestmem, decide_eq_true rfl⟩)
      have hsorted := newestFirst_pairwise ((kindKeys isDigit held kind).filter
        (·.reportingBasis = best.reportingBasis))
      revert hin hsorted
      generalize newestFirst ((kindKeys isDigit held kind).filter
        (·.reportingBasis = best.reportingBasis)) = ordered
      intro hin hsorted
      cases ordered with
      | nil => exact absurd hin not_mem_nil
      | cons first rest =>
        refine ⟨first, rfl, ?_⟩
        have hle : best.period ≤ first.period := by
          rcases mem_cons.mp hin with rfl | hrest
          · exact le_refl _
          · exact (pairwise_cons.mp hsorted).1 best hrest
        exact ((hmax key hkey).trans (le_of_eq (of_decide_eq_true hbestperiod).symm)).trans hle

/-- Two orders of the facts show the same groups. -/
theorem seriesKeys_perm (hperm : held.Perm held') (hbased : Based held) (kind : String) :
    seriesKeys isDigit held kind = seriesKeys isDigit held' kind := by
  have hkeys : (kindKeys isDigit held kind).Perm (kindKeys isDigit held' kind) :=
    (groupKeys_perm hperm).filter _
  have hperiod : (firstMax period (kindKeys isDigit held kind)).map period =
      (firstMax period (kindKeys isDigit held' kind)).map period :=
    firstMax_perm hkeys fun first hfirst second hsecond htop htop' =>
      le_antisymm (htop' first hfirst) (htop second hsecond)
  have hbasis : ∀ period, (firstMax (basisRank isDigit held)
        ((kindKeys isDigit held kind).filter (·.period = period))).map reportingBasis =
      (firstMax (basisRank isDigit held')
        ((kindKeys isDigit held' kind).filter (·.period = period))).map
          reportingBasis := by
    intro period
    rw [← basisRank_perm hperm]
    refine firstMax_perm (hkeys.filter _) fun first hfirst second hsecond htop htop' => ?_
    have hmem : ∀ key ∈ (kindKeys isDigit held kind).filter (·.period = period),
        key ∈ groupKeys isDigit held :=
      fun key hkey => (mem_kindKeys.mp (mem_filter.mp hkey).1).1
    exact basis_of_rank (basis_of_mem_groupKeys hbased (hmem first hfirst))
      (basis_of_mem_groupKeys hbased (hmem second hsecond))
      (le_antisymm (htop' first hfirst) (htop second hsecond))
  have hordered : ∀ basis,
      newestFirst ((kindKeys isDigit held kind).filter (·.reportingBasis = basis)) =
        newestFirst ((kindKeys isDigit held' kind).filter (·.reportingBasis = basis)) := by
    intro basis
    refine sortOn_eq_of_perm (hkeys.filter _) ?_
    refine Nodup.map_on (fun key hkey key' hkey' hsame => ?_) (kindKeys_nodup.filter _)
    have hpair := congrArg (fun dual => ofLex (OrderDual.ofDual dual)) hsame
    exact period_injective hkey hkey' (congrArg Prod.fst hpair)
  rw [seriesKeys_eq, seriesKeys_eq, hperiod]
  congr 1
  funext period
  rw [hbasis period]
  congr 1
  funext basis
  rw [hordered basis]

/-! ### The rows of results -/

/-- What a row is about. -/
def FinancialResultPeriod.group (row : FinancialResultPeriod) : GroupKey :=
  ⟨row.periodType, row.period, row.reportingBasis⟩

/-- The value that a row has for a metric. -/
def FinancialResultPeriod.valueFor (row : FinancialResultPeriod) (metric : String) :
    Option ProvenancedValue :=
  if metric = "revenue" then row.revenue
  else if metric = "operating_income" then row.operatingIncome
  else if metric = "ebit" then row.ebit
  else if metric = "ebitda" then row.ebitda
  else if metric = "pat" then row.pat
  else if metric = "eps" then row.eps
  else none

/-- The facts that are used name the type of their source. -/
def Named (facts : List FinancialFact) : Prop :=
  ∀ fact ∈ facts, supported fact = true → fact.value.sourceType ≠ none

theorem resultPeriod_eq_some {row : FinancialResultPeriod}
    (h : resultPeriod isDigit held key = some row) :
    row.group = key ∧ ∀ metric ∈ resultMetrics, row.valueFor metric = valueOf isDigit held key metric := by
  obtain ⟨primary, -, h⟩ := Option.bind_eq_some_iff.mp h
  obtain ⟨sourceType, -, rfl⟩ := Option.map_eq_some_iff.mp h
  refine ⟨rfl, fun metric hmetric => ?_⟩
  simp only [resultMetrics, mem_cons, not_mem_nil, or_false] at hmetric
  rcases hmetric with rfl | rfl | rfl | rfl | rfl | rfl
  all_goals rfl

theorem exists_resultPeriod (hkey : key ∈ groupKeys isDigit held)
    (hnamed : ∀ fact ∈ held, fact.value.sourceType ≠ none) :
    ∃ row, resultPeriod isDigit held key = some row := by
  obtain ⟨fact, hfact, hgroup⟩ := mem_groupKeys.mp hkey
  unfold resultPeriod
  cases hprimary : firstMax authority (valuesOf isDigit held key) with
  | none =>
    have hin : fact ∈ valuesOf isDigit held key :=
      mem_filter.mpr ⟨hfact, decide_eq_true hgroup⟩
    rw [firstMax_eq_none.mp hprimary] at hin
    exact absurd hin not_mem_nil
  | some primary =>
    have hheld := (mem_filter.mp (firstMax_mem hprimary).1).1
    obtain ⟨sourceType, hsource⟩ := Option.ne_none_iff_exists'.mp (hnamed primary hheld)
    rw [Option.bind_some, hsource]
    exact ⟨_, rfl⟩

/-- The rows are those of the series, each under its type. -/
structure RowsOf (isDigit : Char → Bool) (held : List FinancialFact)
    (rows : List FinancialResultPeriod) : Prop where
  series : ∀ kind, (rows.filter (·.periodType = kind)).map FinancialResultPeriod.group =
    seriesKeys isDigit held kind
  row : ∀ row ∈ rows, resultPeriod isDigit held row.group = some row

variable {kinds : List String}

/-- Of the blocks of several types, only the block of a type has rows of that type. -/
theorem filter_flatten {blocks : List (List FinancialResultPeriod)}
    {series : String → List GroupKey}
    (h : Forall₂ (fun kind block => (∀ row ∈ block, row.periodType = kind) ∧
      block.map FinancialResultPeriod.group = series kind) kinds blocks)
    (hnodup : kinds.Nodup) (kind : String) :
    (blocks.flatten.filter (·.periodType = kind)).map FinancialResultPeriod.group =
      if kind ∈ kinds then series kind else [] := by
  induction h with
  | nil => rfl
  | @cons first block kinds blocks hblock hrest ih =>
    obtain ⟨hfirst, hnodup'⟩ := nodup_cons.mp hnodup
    rw [flatten_cons, filter_append, map_append, ih hnodup']
    by_cases hkind : kind = first
    · subst hkind
      have hall : block.filter (·.periodType = kind) = block :=
        filter_eq_self.mpr fun row hrow => decide_eq_true (hblock.1 row hrow)
      rw [hall, hblock.2, if_neg hfirst, if_pos mem_cons_self, append_nil]
    · have hnone : block.filter (·.periodType = kind) = [] := by
        refine filter_eq_nil_iff.mpr fun row hrow hkind' => hkind ?_
        exact (of_decide_eq_true hkind').symm.trans (hblock.1 row hrow)
      have hmem : kind ∈ first :: kinds ↔ kind ∈ kinds :=
        ⟨fun hin => (mem_cons.mp hin).resolve_left hkind, mem_cons_of_mem first⟩
      rw [hnone, map_nil, nil_append, if_congr hmem rfl rfl]

/-- A type without facts has no series. -/
theorem seriesKeys_eq_nil (h : ∀ fact ∈ held, fact.key.periodType ≠ kind) :
    seriesKeys isDigit held kind = [] := by
  refine eq_nil_iff_forall_not_mem.mpr fun key hkey => ?_
  obtain ⟨hmem, hkind⟩ := mem_kindKeys.mp ((seriesKeys_law isDigit held kind).shown key hkey)
  obtain ⟨fact, hfact, hgroup⟩ := mem_groupKeys.mp hmem
  exact h fact hfact ((congrArg periodType hgroup).trans hkind)

variable {rows : List FinancialResultPeriod}

/-- The rows of a series are about its groups, in their order. -/
theorem rows_of_mapM {keys : List GroupKey} (hkinds : ∀ key ∈ keys, key.periodType = kind)
    (h : keys.mapM (resultPeriod isDigit held) = some rows) :
    rows.map FinancialResultPeriod.group = keys ∧
      ∀ row ∈ rows, row.periodType = kind ∧ resultPeriod isDigit held row.group = some row := by
  have hpairs := Fallible.mapM_eq_some.mp h
  clear h
  induction hpairs with
  | nil => exact ⟨rfl, fun row hrow => absurd hrow not_mem_nil⟩
  | @cons key row keys rows hrow _ ih =>
    obtain ⟨hgroup, hrest⟩ := ih fun key' hkey' => hkinds key' (mem_cons_of_mem key hkey')
    have hsame : row.group = key := (resultPeriod_eq_some hrow).1
    refine ⟨by rw [map_cons, hsame, hgroup], fun row' hrow' => ?_⟩
    rcases mem_cons.mp hrow' with hfirst | hin
    · rw [hfirst, hsame]
      have hkind : row.group.periodType = kind := hsame.symm ▸ hkinds key mem_cons_self
      exact ⟨hkind, hrow⟩
    · exact hrest row' hin

theorem seriesKeys_kind (hkey : key ∈ seriesKeys isDigit held kind) :
    key ∈ groupKeys isDigit held ∧ key.periodType = kind :=
  mem_kindKeys.mp ((seriesKeys_law isDigit held kind).shown key hkey)

variable (isDigit) in
theorem exists_seriesRows (hnamed : ∀ fact ∈ held, fact.value.sourceType ≠ none) (kind : String) :
    ∃ rows, (seriesKeys isDigit held kind).mapM (resultPeriod isDigit held) = some rows :=
  Fallible.exists_mapM fun _ hkey => exists_resultPeriod (seriesKeys_kind hkey).1 hnamed

/-- The types of the facts, in the order they came up. -/
def kindsOf (held : List FinancialFact) : List String :=
  (keepFirst (·.key.periodType) held).map (·.key.periodType)

theorem mem_kindsOf : kind ∈ kindsOf held ↔ ∃ fact ∈ held, fact.key.periodType = kind := by
  unfold kindsOf
  rw [keepFirst, mem_keepBest_keys, mem_map]

variable (isDigit) in
theorem rowsOf_flatten (hnamed : ∀ fact ∈ held, fact.value.sourceType ≠ none) :
    ∃ series, ((kindsOf held).mapM fun kind =>
        (seriesKeys isDigit held kind).mapM (resultPeriod isDigit held)) = some series ∧
      RowsOf isDigit held series.flatten := by
  obtain ⟨series, hseries⟩ := Fallible.exists_mapM fun kind (_ : kind ∈ kindsOf held) =>
    exists_seriesRows isDigit hnamed kind
  refine ⟨series, hseries, fun kind => ?_, fun row hrow => ?_⟩
  · have hblocks : Forall₂ (fun kind block => (∀ row ∈ block, row.periodType = kind) ∧
        block.map FinancialResultPeriod.group = seriesKeys isDigit held kind)
        (kindsOf held) series := by
      refine (Fallible.mapM_eq_some.mp hseries).imp fun kind rows hsome => ?_
      obtain ⟨hgroups, hrows⟩ := rows_of_mapM (fun key hkey => (seriesKeys_kind hkey).2) hsome
      exact ⟨fun row hrow => (hrows row hrow).1, hgroups⟩
    rw [filter_flatten hblocks (keepBest_keys_nodup held)]
    split
    · rfl
    · rename_i hnot
      refine (seriesKeys_eq_nil fun fact hfact hkind => hnot ?_).symm
      exact mem_kindsOf.mpr ⟨fact, hfact, hkind⟩
  · obtain ⟨rows, hin, hrow'⟩ := mem_flatten.mp hrow
    obtain ⟨kind, -, hsome⟩ := (Fallible.mem_mapM hseries rows).mp hin
    exact ((rows_of_mapM (fun key hkey => (seriesKeys_kind hkey).2) hsome).2 row hrow').2

/-- Rows that stand in the order of their series stay there when they are sorted. -/
theorem RowsOf.sortOn (h : RowsOf isDigit held rows) : RowsOf isDigit held
      (sortOn (fun row => OrderDual.toDual (toLex (row.periodType, row.period))) rows) := by
  refine ⟨fun kind => ?_, fun row hrow => h.row row ((sortOn_perm _ rows).mem_iff.mp hrow)⟩
  have hdecreasing : (rows.filter (·.periodType = kind)).Pairwise
      fun earlier later => later.period < earlier.period := by
    have hgroups := (seriesKeys_law isDigit held kind).decreasing
    rw [← h.series kind, pairwise_map] at hgroups
    exact hgroups
  have hsorted : (rows.filter (·.periodType = kind)).Pairwise fun earlier later =>
      OrderDual.toDual (toLex (earlier.periodType, earlier.period)) ≤
        OrderDual.toDual (toLex (later.periodType, later.period)) := by
    refine hdecreasing.imp_of_mem fun {earlier later} hearlier hlater hlt => ?_
    have htype : later.periodType = earlier.periodType :=
      (of_decide_eq_true (mem_filter.mp hlater).2).trans
        (of_decide_eq_true (mem_filter.mp hearlier).2).symm
    refine OrderDual.toDual_le_toDual.mpr ?_
    rw [htype]
    exact Prod.Lex.toLex_le_toLex.mpr (Or.inr ⟨rfl, hlt.le⟩)
  rw [sortOn_filter, Selection.sortOn, hsorted.insertionSort_eq]
  exact h.series kind

variable (isDigit facts) in
theorem history_rowsOf (periodType : Option String) (hnamed : Named facts) :
    ∃ rows, financialResultHistoryFromFacts isDigit facts periodType = some rows ∧
      RowsOf isDigit (heldFacts isDigit (allowedTypes periodType) resultMetrics facts) rows := by
  have hheld : ∀ fact ∈ heldFacts isDigit (allowedTypes periodType) resultMetrics facts,
      fact.value.sourceType ≠ none := by
    intro fact hfact
    obtain ⟨hmem, husable⟩ := usable_of_mem_heldFacts hfact
    exact hnamed fact hmem (usable_iff.mp husable).1
  obtain ⟨series, hseries, hrows⟩ := rowsOf_flatten isDigit hheld
  unfold financialResultHistoryFromFacts
  dsimp only
  rw [← kindsOf, hseries, Option.map_some]
  by_cases hgiven : (periodType.filter (· ≠ "")).isSome
  · rw [if_pos hgiven]
    exact ⟨_, rfl, hrows.sortOn⟩
  · rw [if_neg hgiven]
    exact ⟨_, rfl, hrows⟩

/-! ### What is promised of results -/

/-- The series of a type: one basis, at most four periods, from the newest on, and the values of
the facts of the highest authority. -/
structure ResultLaw (isDigit : Char → Bool) (facts : List FinancialFact) (kind : String)
    (series : List FinancialResultPeriod) : Prop where
  basis : ∃ basis, ∀ row ∈ series, row.reportingBasis = basis
  short : series.length ≤ 4
  decreasing : series.Pairwise fun earlier later => later.period < earlier.period
  newest : ∀ fact ∈ facts, usable [kind] resultMetrics fact = true → ∃ row,
    series.head? = some row ∧ (groupKey isDigit fact).period ≤ row.period
  /-- No period is made up. -/
  shown : ∀ row ∈ series, ∃ fact ∈ facts, usable [kind] resultMetrics fact = true ∧
    groupKey isDigit fact = row.group
  values : ∀ row ∈ series, ∀ metric ∈ resultMetrics, ∀ value,
    row.valueFor metric = some value ↔
      ∃ fact, Best isDigit facts row.group metric fact ∧ fact.value = value

theorem usable_kind (hkind : kind ∈ kinds) : usable [kind] metrics fact = true ↔
      usable kinds metrics fact = true ∧ fact.key.periodType = kind := by
  rw [usable_iff, usable_iff, mem_singleton]
  constructor
  · intro h
    exact ⟨⟨h.1, h.2.1 ▸ hkind, h.2.2⟩, h.2.1⟩
  · intro h
    exact ⟨h.1.1, h.2, h.1.2.2⟩

theorem RowsOf.law (h : RowsOf isDigit (heldFacts isDigit kinds resultMetrics facts) rows)
    (hunambiguous : Unambiguous isDigit facts) (hkind : kind ∈ kinds) :
    ResultLaw isDigit facts kind (rows.filter (·.periodType = kind)) := by
  have hlaw := seriesKeys_law isDigit (heldFacts isDigit kinds resultMetrics facts) kind
  rw [← h.series kind] at hlaw
  obtain ⟨⟨basis, hbasis⟩, hshort, hdecreasing, hshown, hnewest⟩ := hlaw
  refine ⟨⟨basis, fun row hrow => hbasis row.group (mem_map_of_mem hrow)⟩, ?_,
    pairwise_map.mp hdecreasing, fun fact hfact husable => ?_, fun row hrow => ?_,
    fun row hrow metric hmetric value => ?_⟩
  · rw [length_map] at hshort
    exact hshort
  · obtain ⟨husable', hkind'⟩ := (usable_kind hkind).mp husable
    obtain ⟨held, hheld, hkey⟩ := exists_held isDigit hfact husable'
    have hgroup : groupKey isDigit held = groupKey isDigit fact := congrArg Prod.fst hkey
    have hin : groupKey isDigit fact ∈
        kindKeys isDigit (heldFacts isDigit kinds resultMetrics facts) kind :=
      mem_kindKeys.mpr ⟨mem_groupKeys.mpr ⟨held, hheld, hgroup⟩, hkind'⟩
    obtain ⟨first, hfirst, hle⟩ := hnewest _ hin
    rw [head?_map] at hfirst
    obtain ⟨row, hrow, hsame⟩ := Option.map_eq_some_iff.mp hfirst
    refine ⟨row, hrow, ?_⟩
    rw [← hsame] at hle
    exact hle
  · obtain ⟨hgroups, hkind'⟩ := mem_kindKeys.mp (hshown row.group (mem_map_of_mem hrow))
    obtain ⟨held, hheld, hgroup⟩ := mem_groupKeys.mp hgroups
    obtain ⟨hmem, husable⟩ := usable_of_mem_heldFacts hheld
    refine ⟨held, hmem, (usable_kind hkind).mpr ⟨husable, ?_⟩, hgroup⟩
    exact (congrArg periodType hgroup).trans hkind'
  · obtain ⟨hmem, hkind'⟩ := mem_filter.mp hrow
    rw [(resultPeriod_eq_some (h.row row hmem)).2 metric hmetric]
    refine valueOf_heldFacts hunambiguous ?_ hmetric value
    show row.periodType ∈ kinds
    rw [of_decide_eq_true hkind']
    exact hkind

/-- What a row shows besides its provenance. -/
def FinancialResultPeriod.figures (row : FinancialResultPeriod) :
    GroupKey × List (Option ProvenancedValue) :=
  (row.group, resultMetrics.map row.valueFor)

/-- Rows of two orders of the held facts show the same of every type. -/
theorem RowsOf.perm {rows' : List FinancialResultPeriod} (hperm : held.Perm held')
    (hnodup : (held.map (factKey isDigit)).Nodup) (hbased : Based held)
    (h : RowsOf isDigit held rows) (h' : RowsOf isDigit held' rows') (kind : String) :
    (rows.filter (·.periodType = kind)).map FinancialResultPeriod.figures =
      (rows'.filter (·.periodType = kind)).map FinancialResultPeriod.figures := by
  have hfigures : ∀ (held : List FinancialFact) (rows : List FinancialResultPeriod),
      RowsOf isDigit held rows →
      (rows.filter (·.periodType = kind)).map FinancialResultPeriod.figures =
        (seriesKeys isDigit held kind).map fun key =>
          (key, resultMetrics.map (valueOf isDigit held key)) := by
    intro held rows h
    rw [← h.series kind, map_map]
    refine map_congr_left fun row hrow => Prod.ext rfl ?_
    refine map_congr_left fun metric hmetric => ?_
    exact (resultPeriod_eq_some (h.row row (mem_filter.mp hrow).1)).2 metric hmetric
  rw [hfigures held rows h, hfigures held' rows' h', seriesKeys_perm hperm hbased]
  refine map_congr_left fun key _ => Prod.ext rfl ?_
  exact map_congr_left fun metric _ => valueOf_perm hperm hnodup key metric

/-! ### Statements -/

theorem selectPeriods_sublist (limit : ℤ) (selected : String → Nat) (l : List (String × String)) :
    (selectPeriods limit selected l).Sublist l := by
  induction l generalizing selected with
  | nil => exact Sublist.slnil
  | cons pair l ih =>
    rw [selectPeriods]
    split
    · exact (ih selected).cons pair
    · exact (ih _).cons_cons pair

/-- Of every type, the first periods are selected, as many as the limit still allows. -/
theorem selectPeriods_filter (limit : ℤ) (selected : String → Nat) (l : List (String × String))
    (kind : String) :
    (selectPeriods limit selected l).filter (·.2 = kind) =
      (l.filter (·.2 = kind)).take (limit - selected kind).toNat := by
  induction l generalizing selected with
  | nil => rw [selectPeriods, filter_nil, take_nil]
  | cons pair l ih =>
    obtain ⟨period, other⟩ := pair
    rw [selectPeriods]
    by_cases hkind : other = kind
    · subst hkind
      have hcons : ∀ rest : List (String × String), ((period, other) :: rest).filter (·.2 = other) =
          (period, other) :: rest.filter (·.2 = other) :=
        fun rest => filter_cons_of_pos (decide_eq_true rfl)
      rw [hcons l]
      by_cases hfull : limit ≤ selected other
      · have hzero : (limit - selected other).toNat = 0 := by omega
        rw [if_pos hfull, ih, hzero, take_zero, take_zero]
      · have hone : (limit - selected other).toNat =
            (limit - (selected other + 1 : Nat)).toNat + 1 := by omega
        rw [if_neg hfull, hcons, ih, Function.update_self, hone, take_succ_cons]
    · have hcons : ∀ rest : List (String × String), ((period, other) :: rest).filter (·.2 = kind) =
          rest.filter (·.2 = kind) :=
        fun rest => filter_cons_of_neg (by simpa using hkind)
      rw [hcons l]
      by_cases hfull : limit ≤ selected other
      · rw [if_pos hfull, ih]
      · rw [if_neg hfull, hcons, ih, Function.update_of_ne (Ne.symm hkind)]

/-- The value that a row has for a metric. -/
def FinancialStatementPeriod.valueFor (row : FinancialStatementPeriod) (metric : String) :
    Option ProvenancedValue :=
  (row.metrics.find? (·.1 = metric)).map Prod.snd

/-- What a row is about. -/
def FinancialStatementPeriod.group (row : FinancialStatementPeriod) : GroupKey :=
  ⟨row.periodType, row.period, row.reportingBasis⟩

variable {pair : String × String}

theorem mem_periodKeys : pair ∈ periodKeys isDigit held ↔
      ∃ key ∈ groupKeys isDigit held, (key.period, key.periodType) = pair := by
  unfold periodKeys
  rw [keepFirst, mem_keepBest_keys, mem_map]

theorem selectedGroup_eq_some (h : selectedGroup isDigit held pair = some key) :
    key ∈ groupKeys isDigit held ∧ (key.period, key.periodType) = pair := by
  obtain ⟨hmem, hpair⟩ := mem_filter.mp (firstMax_mem h).1
  exact ⟨hmem, of_decide_eq_true hpair⟩

theorem exists_selectedGroup (h : pair ∈ periodKeys isDigit held) :
    ∃ key, selectedGroup isDigit held pair = some key := by
  obtain ⟨key, hkey, hpair⟩ := mem_periodKeys.mp h
  cases hselected : selectedGroup isDigit held pair with
  | some best => exact ⟨best, rfl⟩
  | none =>
    have hin : key ∈ (groupKeys isDigit held).filter fun key => (key.period, key.periodType) = pair :=
      mem_filter.mpr ⟨hkey, decide_eq_true hpair⟩
    rw [firstMax_eq_none.mp hselected] at hin
    exact absurd hin not_mem_nil

/-- The pairs of the groups, the newest first. -/
def orderedPeriods (isDigit : Char → Bool) (held : List FinancialFact) : List (String × String) :=
  sortOn (fun pair => OrderDual.toDual (toLex pair)) (periodKeys isDigit held)

/-- The row of a pair. -/
def statementRow (isDigit : Char → Bool) (held : List FinancialFact) (pair : String × String) :
    Option FinancialStatementPeriod :=
  (selectedGroup isDigit held pair).map fun key =>
    { period := pair.1
      periodType := pair.2
      reportingBasis := key.reportingBasis
      metrics := (valuesOf isDigit held key).map fun fact => (fact.key.metric, fact.value) }

theorem statementHistory_eq (limit : ℤ) :
    financialStatementHistoryFromFacts isDigit facts periodTypes metrics limit =
      (selectPeriods limit (fun _ => 0)
        (orderedPeriods isDigit (heldFacts isDigit periodTypes metrics facts))).filterMap
          (statementRow isDigit (heldFacts isDigit periodTypes metrics facts)) := rfl

theorem statementRow_eq_some {row : FinancialStatementPeriod}
    (h : statementRow isDigit held pair = some row) :
    (row.period, row.periodType) = pair ∧ row.group ∈ groupKeys isDigit held ∧
      ∀ metric, row.valueFor metric = valueOf isDigit held row.group metric := by
  obtain ⟨key, hselected, rfl⟩ := Option.map_eq_some_iff.mp h
  obtain ⟨hmem, hpair⟩ := selectedGroup_eq_some hselected
  have hgroup : (⟨pair.2, pair.1, key.reportingBasis⟩ : GroupKey) = key := by
    rw [← hpair]
  refine ⟨rfl, hgroup.symm ▸ hmem, fun metric => ?_⟩
  show (((valuesOf isDigit held key).map fun fact => (fact.key.metric, fact.value)).find?
      (·.1 = metric)).map Prod.snd = valueOf isDigit held ⟨pair.2, pair.1, key.reportingBasis⟩ metric
  rw [hgroup, find?_map, Option.map_map]
  rfl

/-- The rows of a type are about the selected pairs of that type. -/
theorem filterMap_statementRow {pairs : List (String × String)}
    (h : ∀ pair ∈ pairs, pair ∈ periodKeys isDigit held) (kind : String) :
    ((pairs.filterMap (statementRow isDigit held)).filter (·.periodType = kind)).map
        FinancialStatementPeriod.period =
      (pairs.filter (·.2 = kind)).map Prod.fst := by
  induction pairs with
  | nil => rfl
  | cons pair pairs ih =>
    obtain ⟨key, hkey⟩ := exists_selectedGroup (h pair mem_cons_self)
    have hrest := ih fun other hother => h other (mem_cons_of_mem pair hother)
    cases hrow : statementRow isDigit held pair with
    | none =>
      rw [statementRow, hkey] at hrow
      cases hrow
    | some row =>
      have hpair := (statementRow_eq_some hrow).1
      have hkind : row.periodType = pair.2 := congrArg Prod.snd hpair
      have hperiod : row.period = pair.1 := congrArg Prod.fst hpair
      rw [filterMap_cons_some hrow]
      rw [filter_cons, filter_cons, hkind]
      by_cases hof : pair.2 = kind
      · rw [if_pos (decide_eq_true hof), if_pos (decide_eq_true hof), map_cons, map_cons,
          hrest, hperiod]
      · have hnot : ¬ decide (pair.2 = kind) = true := fun htrue => hof (of_decide_eq_true htrue)
        rw [if_neg hnot, if_neg hnot, hrest]

/-- Each row takes its metrics from one basis, and of every type the newest periods are shown, as
many as the limit allows. -/
structure StatementLaw (isDigit : Char → Bool) (facts : List FinancialFact)
    (periodTypes metrics : List String) (limit : ℤ) (rows : List FinancialStatementPeriod) :
    Prop where
  values : ∀ row ∈ rows, ∀ metric value, row.valueFor metric = some value ↔
    metric ∈ metrics ∧ ∃ fact, Best isDigit facts row.group metric fact ∧ fact.value = value
  newest : ∀ kind ∈ periodTypes, ∃ periods : List String,
    periods.Pairwise (fun earlier later => later < earlier) ∧
      (∀ period, period ∈ periods ↔ ∃ fact ∈ facts, usable [kind] metrics fact = true ∧
        (groupKey isDigit fact).period = period) ∧
      (rows.filter (·.periodType = kind)).map FinancialStatementPeriod.period =
        periods.take limit.toNat

variable (isDigit held) in
theorem orderedPeriods_strict (kind : String) :
    (((orderedPeriods isDigit held).filter (·.2 = kind)).map Prod.fst).Pairwise
      fun earlier later => later < earlier := by
  have hnodup : (orderedPeriods isDigit held).Nodup :=
    (sortOn_perm _ _).nodup_iff.mpr (keepBest_keys_nodup (groupKeys isDigit held))
  have hsorted := (sortOn_pairwise (fun pair : String × String => OrderDual.toDual (toLex pair))
    (periodKeys isDigit held)).and hnodup
  refine pairwise_map.mpr ((hsorted.filter _).imp_of_mem fun {earlier later} he hl h => ?_)
  have hkind : earlier.2 = later.2 := (of_decide_eq_true (mem_filter.mp he).2).trans
    (of_decide_eq_true (mem_filter.mp hl).2).symm
  have hle : later.1 ≤ earlier.1 :=
    Prod.Lex.monotone_fst_ofLex (OrderDual.toDual_le_toDual.mp h.1)
  exact lt_of_le_of_ne hle fun hsame => h.2 (Prod.ext hsame.symm hkind)

theorem statementHistory_law (limit : ℤ) (hunambiguous : Unambiguous isDigit facts) :
    StatementLaw isDigit facts periodTypes metrics limit
      (financialStatementHistoryFromFacts isDigit facts periodTypes metrics limit) := by
  rw [statementHistory_eq]
  have hpairs : ∀ pair ∈ selectPeriods limit (fun _ => 0)
      (orderedPeriods isDigit (heldFacts isDigit periodTypes metrics facts)),
      pair ∈ periodKeys isDigit (heldFacts isDigit periodTypes metrics facts) := fun pair hpair =>
    (sortOn_perm _ _).mem_iff.mp ((selectPeriods_sublist limit _ _).subset hpair)
  refine ⟨fun row hrow metric value => ?_, fun kind hkind => ?_⟩
  · obtain ⟨pair, -, hsome⟩ := mem_filterMap.mp hrow
    obtain ⟨-, hgroup, hvalue⟩ := statementRow_eq_some hsome
    obtain ⟨held, hheld, hkey⟩ := mem_groupKeys.mp hgroup
    have htype : row.group.periodType ∈ periodTypes :=
      hkey ▸ (usable_iff.mp (usable_of_mem_heldFacts hheld).2).2.1
    rw [hvalue]
    by_cases hmetric : metric ∈ metrics
    · rw [valueOf_heldFacts hunambiguous htype hmetric]
      exact ⟨fun h => ⟨hmetric, h⟩, And.right⟩
    · refine ⟨fun h => absurd ?_ hmetric, fun h => absurd h.1 hmetric⟩
      obtain ⟨fact, hfind, -⟩ := Option.map_eq_some_iff.mp h
      have hin := (mem_filter.mp (mem_of_find?_eq_some hfind)).1
      have hname := find?_some hfind
      exact of_decide_eq_true hname ▸ (usable_iff.mp (usable_of_mem_heldFacts hin).2).2.2
  · refine ⟨_, orderedPeriods_strict isDigit (heldFacts isDigit periodTypes metrics facts) kind,
      fun period => ?_, ?_⟩
    · constructor
      · intro hperiod
        obtain ⟨pair, hpair, rfl⟩ := mem_map.mp hperiod
        obtain ⟨hin, hof⟩ := mem_filter.mp hpair
        obtain ⟨key, hkey, hsame⟩ := mem_periodKeys.mp ((sortOn_perm _ _).mem_iff.mp hin)
        obtain ⟨held, hheld, hgroup⟩ := mem_groupKeys.mp hkey
        obtain ⟨hmem, husable⟩ := usable_of_mem_heldFacts hheld
        have htype : held.key.periodType = kind :=
          (congrArg periodType hgroup).trans
            ((congrArg Prod.snd hsame).trans (of_decide_eq_true hof))
        refine ⟨held, hmem, (usable_kind hkind).mpr ⟨husable, htype⟩, ?_⟩
        rw [hgroup]
        exact congrArg Prod.fst hsame
      · intro hexists
        obtain ⟨fact, hfact, husable, hperiod⟩ := hexists
        obtain ⟨husable', htype⟩ := (usable_kind hkind).mp husable
        obtain ⟨held, hheld, hkey⟩ := exists_held isDigit hfact husable'
        have hgroup : groupKey isDigit held = groupKey isDigit fact := congrArg Prod.fst hkey
        refine mem_map.mpr ⟨(period, kind), mem_filter.mpr
          ⟨(sortOn_perm _ _).mem_iff.mpr (mem_periodKeys.mpr ⟨groupKey isDigit fact,
            mem_groupKeys.mpr ⟨held, hheld, hgroup⟩, ?_⟩), decide_eq_true rfl⟩, rfl⟩
        exact Prod.ext hperiod htype
    · rw [filterMap_statementRow hpairs, selectPeriods_filter, map_take]
      congr 2
      exact Int.sub_zero limit

/-- What a row shows. -/
def FinancialStatementPeriod.figures (row : FinancialStatementPeriod) :
    GroupKey × (String → Option ProvenancedValue) :=
  (row.group, row.valueFor)

theorem selectedGroup_perm (hperm : held.Perm held') (hbased : Based held)
    (pair : String × String) :
    selectedGroup isDigit held pair = selectedGroup isDigit held' pair := by
  unfold selectedGroup
  rw [← basisRank_perm hperm]
  have hties : Undisputed (basisRank isDigit held) id
      ((groupKeys isDigit held).filter fun key => (key.period, key.periodType) = pair) := by
    intro first hfirst second hsecond htop htop'
    obtain ⟨hmem, hpair⟩ := mem_filter.mp hfirst
    obtain ⟨hmem', hpair'⟩ := mem_filter.mp hsecond
    have hbasis : first.reportingBasis = second.reportingBasis :=
      basis_of_rank (basis_of_mem_groupKeys hbased hmem) (basis_of_mem_groupKeys hbased hmem')
        (le_antisymm (htop' first hfirst) (htop second hsecond))
    obtain ⟨hperiod, htype⟩ := Prod.mk.inj
      ((of_decide_eq_true hpair).trans (of_decide_eq_true hpair').symm)
    cases first
    cases second
    simp only at hbasis hperiod htype
    rw [hbasis, hperiod, htype]
  have hsame := firstMax_perm ((groupKeys_perm hperm).filter _) hties
  rwa [Option.map_id, id_eq, id_eq] at hsame

/-- Two orders of the facts show the same statements. -/
theorem statementHistory_perm (limit : ℤ) (hperm : facts.Perm facts')
    (hunambiguous : Unambiguous isDigit facts) (hbased : Based facts) :
    (financialStatementHistoryFromFacts isDigit facts periodTypes metrics limit).map
        FinancialStatementPeriod.figures =
      (financialStatementHistoryFromFacts isDigit facts' periodTypes metrics limit).map
        FinancialStatementPeriod.figures := by
  have hheld := heldFacts_perm periodTypes metrics hperm hunambiguous
  have hbasedHeld : Based (heldFacts isDigit periodTypes metrics facts) := fun fact hfact =>
    hbased fact (usable_of_mem_heldFacts hfact).1
  have hordered : orderedPeriods isDigit (heldFacts isDigit periodTypes metrics facts) =
      orderedPeriods isDigit (heldFacts isDigit periodTypes metrics facts') := by
    refine sortOn_eq_of_perm (keepBest_keys_perm (groupKeys_perm hheld)) ?_
    refine Nodup.map (fun pair pair' hsame => ?_)
      (keepBest_keys_nodup (groupKeys isDigit (heldFacts isDigit periodTypes metrics facts)))
    exact congrArg (fun dual => ofLex (OrderDual.ofDual dual)) hsame
  rw [statementHistory_eq, statementHistory_eq, hordered, map_filterMap, map_filterMap]
  congr 1
  funext pair
  unfold statementRow
  rw [← selectedGroup_perm hheld hbasedHeld, Option.map_map, Option.map_map]
  cases hselected : selectedGroup isDigit (heldFacts isDigit periodTypes metrics facts) pair with
  | none => rfl
  | some key =>
    rw [Option.map_some, Option.map_some]
    refine congrArg some (Prod.ext rfl (funext fun metric => ?_))
    have hvalue := valueOf_perm hheld heldFacts_nodup key metric
    unfold valueOf at hvalue
    show (((valuesOf isDigit _ key).map fun fact => (fact.key.metric, fact.value)).find?
        (·.1 = metric)).map Prod.snd = (((valuesOf isDigit _ key).map
          fun fact => (fact.key.metric, fact.value)).find? (·.1 = metric)).map Prod.snd
    rw [find?_map, find?_map, Option.map_map, Option.map_map]
    exact hvalue

/-! ### Calendar dates -/

theorem isSpace_digitChar {n : Nat} (h : n < 10) : isSpace (digitChar n) = false := by
  interval_cases n <;> decide

/-- The text of a date begins and ends with a digit, and has ten letters. -/
theorem isoformat_shape (date : PyDate.Date) : ∃ middle : List Char, ∃ first last : Nat,
    first < 10 ∧ last < 10 ∧ date.isoformat.toList.length = 10 ∧
      date.isoformat.toList = digitChar first :: (middle ++ [digitChar last]) := by
  unfold PyDate.Date.isoformat
  rw [String.toList_ofList]
  exact ⟨[_, _, _, _, _, _, _, _], date.year / 1000 % 10, date.day % 10,
    Nat.mod_lt _ (by decide), Nat.mod_lt _ (by decide), rfl, rfl⟩

/-- What is stripped of a text around a date leaves the date in front. -/
theorem strip_isoformat {blank : List Char} (hblank : ∀ c ∈ blank, isSpace c = true)
    (date : PyDate.Date) (rest : List Char) :
    (strip (blank ++ (date.isoformat.toList ++ rest))).take 10 = date.isoformat.toList := by
  obtain ⟨middle, first, last, hfirst, hlast, hlength, hshape⟩ := isoformat_shape date
  have hleft : (blank ++ (date.isoformat.toList ++ rest)).dropWhile isSpace =
      date.isoformat.toList ++ rest := by
    rw [dropWhile_append_of_pos hblank, hshape, cons_append, dropWhile_cons_of_neg]
    rw [isSpace_digitChar hfirst]
    exact Bool.false_ne_true
  have hkept : date.isoformat.toList.reverse.dropWhile isSpace =
      date.isoformat.toList.reverse := by
    rw [hshape, reverse_cons, reverse_append, reverse_singleton, singleton_append,
      cons_append, dropWhile_cons_of_neg]
    rw [isSpace_digitChar hlast]
    exact Bool.false_ne_true
  have hright : ∃ kept, ((date.isoformat.toList ++ rest).reverse.dropWhile isSpace).reverse =
      date.isoformat.toList ++ kept := by
    rw [reverse_append, dropWhile_append, hkept]
    split
    · exact ⟨[], by rw [reverse_reverse, append_nil]⟩
    · exact ⟨_, by rw [reverse_append, reverse_reverse]⟩
  obtain ⟨kept, hright⟩ := hright
  unfold strip
  rw [hleft, hright, ← hlength, take_left]

/-- A period end that begins with a date is of the period of that date, whatever follows it. -/
theorem semanticPeriodKey_isoformat (hdigit : ∀ n < 10, isDigit (digitChar n) = true)
    {blank : List Char} (hblank : ∀ c ∈ blank, isSpace c = true) (date : PyDate.Date)
    (rest : List Char) :
    semanticPeriodKey isDigit (String.ofList (blank ++ (date.isoformat.toList ++ rest))) =
      date.isoformat := by
  have hdate : isDateText isDigit date.isoformat.toList = true := by
    unfold PyDate.Date.isoformat
    rw [String.toList_ofList]
    have hten : ∀ n : Nat, isDigit (digitChar (n % 10)) = true :=
      fun n => hdigit _ (Nat.mod_lt n (by decide))
    simp only [isDateText, all_cons, all_nil, hten, Bool.and_self]
  have hne : String.ofList (blank ++ (date.isoformat.toList ++ rest)) ≠ "" := by
    intro hempty
    have hlist := congrArg String.toList hempty
    rw [String.toList_ofList, String.toList_empty, append_eq_nil_iff, append_eq_nil_iff] at hlist
    obtain ⟨middle, first, last, -, -, -, hshape⟩ := isoformat_shape date
    rw [hshape] at hlist
    exact cons_ne_nil _ _ hlist.2.1
  unfold semanticPeriodKey
  rw [if_neg hne, String.toList_ofList]
  dsimp only
  rw [strip_isoformat hblank, if_pos hdate, String.ofList_toList]

/-! ### The histories -/

variable (isDigit facts) in
/-- **The shown histories are coherent.**  Of every type that is asked for, the results are of one
basis, at most four, the newest first, and each metric has the value of the fact of the highest
authority; a statement takes its metrics from one basis, and the newest statements are shown, as
many as the limit allows.  The order of the facts changes neither.  A period is the calendar date
that a period end begins with, and the order of the periods is that of the dates. -/
theorem histories_coherent (hdigit : ∀ n < 10, isDigit (PyDate.digitChar n) = true)
    (hunambiguous : Unambiguous isDigit facts) (hbased : Based facts) (hnamed : Named facts) :
    (∀ periodType, ∃ rows, financialResultHistoryFromFacts isDigit facts periodType = some rows ∧
      (∀ kind ∈ allowedTypes periodType,
        ResultLaw isDigit facts kind (rows.filter (·.periodType = kind))) ∧
      (∀ row ∈ rows, row.periodType ∈ allowedTypes periodType) ∧
      ∀ facts', facts.Perm facts' → ∃ rows',
        financialResultHistoryFromFacts isDigit facts' periodType = some rows' ∧
          ∀ kind, (rows.filter (·.periodType = kind)).map FinancialResultPeriod.figures =
            (rows'.filter (·.periodType = kind)).map FinancialResultPeriod.figures) ∧
    (∀ periodTypes metrics limit,
      StatementLaw isDigit facts periodTypes metrics limit
        (financialStatementHistoryFromFacts isDigit facts periodTypes metrics limit) ∧
      ∀ facts', facts.Perm facts' →
        (financialStatementHistoryFromFacts isDigit facts periodTypes metrics limit).map
            FinancialStatementPeriod.figures =
          (financialStatementHistoryFromFacts isDigit facts' periodTypes metrics limit).map
            FinancialStatementPeriod.figures) ∧
    (∀ (blank rest : List Char) (date : PyDate.Date), (∀ c ∈ blank, Stage2.isSpace c = true) →
      semanticPeriodKey isDigit (String.ofList (blank ++ (date.isoformat.toList ++ rest))) =
        date.isoformat) ∧
    ∀ date date' : PyDate.Date, date.isoformat < date'.isoformat ↔ date < date' := by
  refine ⟨fun periodType => ?_, fun periodTypes metrics limit => ?_,
    fun blank rest date hblank => semanticPeriodKey_isoformat hdigit hblank date rest,
    fun date date' => PyDate.isoformat_lt⟩
  · obtain ⟨rows, hrows, hrowsOf⟩ := history_rowsOf isDigit facts periodType hnamed
    refine ⟨rows, hrows, fun kind hkind => hrowsOf.law hunambiguous hkind, fun row hrow => ?_,
      fun facts' hperm => ?_⟩
    · have hgroup : row.group ∈ seriesKeys isDigit
          (heldFacts isDigit (allowedTypes periodType) resultMetrics facts) row.periodType := by
        rw [← hrowsOf.series row.periodType]
        exact List.mem_map_of_mem (List.mem_filter.mpr ⟨hrow, decide_eq_true rfl⟩)
      obtain ⟨held, hheld, hkey⟩ := mem_groupKeys.mp (seriesKeys_kind hgroup).1
      have htype : held.key.periodType = row.periodType := congrArg GroupKey.periodType hkey
      exact htype ▸ (usable_iff.mp (usable_of_mem_heldFacts hheld).2).2.1
    · have hnamed' : Named facts' := fun fact hfact => hnamed fact (hperm.mem_iff.mpr hfact)
      have hbasedHeld : Based
          (heldFacts isDigit (allowedTypes periodType) resultMetrics facts) :=
        fun fact hfact => hbased fact (usable_of_mem_heldFacts hfact).1
      obtain ⟨rows', hrows', hrowsOf'⟩ :=
        history_rowsOf isDigit facts' periodType hnamed'
      exact ⟨rows', hrows', fun kind => hrowsOf.perm
        (heldFacts_perm (allowedTypes periodType) resultMetrics hperm hunambiguous)
        heldFacts_nodup hbasedHeld hrowsOf' kind⟩
  · exact ⟨statementHistory_law limit hunambiguous,
      fun facts' hperm => statementHistory_perm limit hperm hunambiguous hbased⟩

/-- A fact of a period, as a source of a tier reports it. -/
def reported (metric periodEnd : String) (basis sourceType : Option String) (number : Rat) :
    FinancialFact :=
  { key := ⟨"INE002A01018", metric, some periodEnd, "ANNUAL", basis⟩
    value := ⟨some ⟨number, number⟩, some "INR", none, none, "https://nseindia.com", "NSE",
      sourceType, none, ⟨0, true⟩, none, none⟩
    sourceTier := .officialNse
    sourceProvider := "NSE"
    sourceIdentity := "RELIANCE"
    sourceMode := .real }

theorem histories_coherent_sample :
    (∃ rows, financialResultHistoryFromFacts Char.isDigit
        [reported "revenue" "2024-03-31" (some "CONSOLIDATED") (some "EXCHANGE") 900,
          reported "revenue" "2024-03-31T00:00:00" none (some "EXCHANGE") 500] none = some rows ∧
      ResultLaw Char.isDigit
        [reported "revenue" "2024-03-31" (some "CONSOLIDATED") (some "EXCHANGE") 900,
          reported "revenue" "2024-03-31T00:00:00" none (some "EXCHANGE") 500] "ANNUAL"
        (rows.filter (·.periodType = "ANNUAL"))) := by
  obtain ⟨hresults, -⟩ := histories_coherent Char.isDigit
    [reported "revenue" "2024-03-31" (some "CONSOLIDATED") (some "EXCHANGE") 900,
      reported "revenue" "2024-03-31T00:00:00" none (some "EXCHANGE") 500]
    (by decide) (by decide +kernel)
    (by
      intro fact hfact
      rcases List.mem_pair.mp hfact with rfl | rfl
      · decide
      · decide)
    (by
      intro fact hfact _
      rcases List.mem_pair.mp hfact with rfl | rfl
      · exact Option.some_ne_none _
      · exact Option.some_ne_none _)
  obtain ⟨rows, hrows, hlaw, -⟩ := hresults none
  exact ⟨rows, hrows, hlaw "ANNUAL" (by decide)⟩

/-- Which fact is the primary one of a row depends on the order, and a row needs the type of its
source: one order shows a row, the other raises. -/
theorem unnamed_source_raises :
    Unambiguous Char.isDigit [reported "revenue" "2024-03-31" none none 900,
        reported "pat" "2024-03-31" none (some "EXCHANGE") 90] ∧
      financialResultHistoryFromFacts Char.isDigit [reported "revenue" "2024-03-31" none none 900,
        reported "pat" "2024-03-31" none (some "EXCHANGE") 90] none = none ∧
      (financialResultHistoryFromFacts Char.isDigit
        [reported "pat" "2024-03-31" none (some "EXCHANGE") 90,
          reported "revenue" "2024-03-31" none none 900] none).isSome = true := by
  decide +kernel

end InvestmentPlatform.Evidence.StatementHistory
