/-
When the progress snapshot is honest.

The counters partition the rows, so they add up as they should.  The percentages are rounded to the
nearest integer: a stage reads 100 as soon as half a percent of it is missing, and the overall
figure also where a large finished stage outweighs a small one that has not begun.
-/
import InvestmentPlatform.Cycle.Checkpoint

namespace InvestmentPlatform.Cycle

open List SnapshotRow

/-! ### What is promised -/

/-- The instrument has a terminal row, or one whose attempts are spent. -/
def SettledIn (rows : Dict InstrumentId SnapshotRow) (id : InstrumentId) : Prop :=
  ∃ row, rows.get? id = some row ∧ row.terminal = true

section

variable {Id : Type} [DecidableEq Id] (str : Id → String) (run : SnapshotRun Id)
variable (instruments : List InstrumentId) (baselineRows deepRows : Dict InstrumentId SnapshotRow)

/-- The rows are of instruments of the universe, whose size is on record. -/
structure OfUniverse : Prop where
  nodup : instruments.Nodup
  known : run.selection.knownUniverse = some (instruments.length : Int)
  rows : ∀ id ∈ baselineRows.keys, id ∈ instruments
  started : ∀ row ∈ baselineRows.values, row.state ≠ .pending

def BaselineSettled : Prop := ∀ id ∈ instruments, SettledIn baselineRows id

def DeepSettled : Prop := ∀ id ∈ run.selection.admitted, SettledIn deepRows (str id)

structure Honest (snapshot : StatusSnapshot) : Prop where
  partition : ∃ notStarted, snapshot.baselineNotStarted = some notStarted ∧
    snapshot.universeCount = some (instruments.length : Int) ∧
    (snapshot.baselineCompleted : Int) + snapshot.baselineInProgress +
      snapshot.baselineAwaitingRetry + notStarted = instruments.length
  failed : snapshot.baselineFailed ≤ snapshot.baselineCompleted
  outcomes : snapshot.deepReady + snapshot.deepReadinessFailed + snapshot.deepTechnicalFailure ≤
    snapshot.deepCompleted
  selected : run.selection.admitted ≠ [] → snapshot.deepCompleted ≤ snapshot.deepDenominator
  baseline : snapshot.baselineStage.percentage = some 100 →
    BaselineSettled instruments baselineRows
  deep : snapshot.deepStage.percentage = some 100 → DeepSettled str run deepRows
  overall : snapshot.overallPercentage = some 100 →
    BaselineSettled instruments baselineRows ∧ DeepSettled str run deepRows

/-! ### The condition -/

/-- The percentage stays below 99.5, the last bit of the double included. -/
def ShortOf (completed total : Int) : Prop := 100 * 2 ^ 47 * completed < (199 * 2 ^ 46 - 1) * total

instance (completed total : Int) : Decidable (ShortOf completed total) :=
  inferInstanceAs (Decidable (_ < _))

/-- The rows that the DEEP stage counts as completed. -/
def deepTerminal : List SnapshotRow := (scopedRows str run.selection deepRows).filter SnapshotRow.terminal

def SnapshotRow.countedTwice (row : SnapshotRow) : Bool :=
  row.isReady && (row.isReadinessFailed || row.isTechnical)

def SnapshotRow.countedNever (row : SnapshotRow) : Bool :=
  !row.isReady && !row.isReadinessFailed && !row.isTechnical

structure Unrounded : Prop where
  baseline : BaselineSettled instruments baselineRows ∨
    ShortOf (baselineRows.values.countP SnapshotRow.terminal) instruments.length
  deep : DeepSettled str run deepRows ∨
    ShortOf (deepTerminal str run deepRows).length run.selection.admitted.length
  overall : run.status = some .failed ∨ run.status = some .cancelled ∨
    run.selection.admitted = [] ∨
    BaselineSettled instruments baselineRows ∧ DeepSettled str run deepRows ∨
    ShortOf (baselineRows.values.countP SnapshotRow.terminal + (deepTerminal str run deepRows).length)
      (instruments.length + run.selection.admitted.length)
  outcomes : (deepTerminal str run deepRows).countP SnapshotRow.countedTwice ≤
    (deepTerminal str run deepRows).countP SnapshotRow.countedNever

end

/-! ### Counting -/

theorem countP_le_of_imp {l : List SnapshotRow} {p q : SnapshotRow → Bool}
    (h : ∀ row, p row = true → q row = true) : l.countP p ≤ l.countP q :=
  countP_mono_left fun row _ => h row

/-- A row that has begun is terminal, in progress or awaiting a retry, and only one of them. -/
theorem countP_partition {l : List SnapshotRow} (h : ∀ row ∈ l, row.state ≠ .pending) :
    l.countP terminal + l.countP inProgress +
      l.countP awaitingRetry = l.length := by
  induction l with
  | nil => rfl
  | cons row l ih =>
    have hrest := ih fun other hother => h other (mem_cons_of_mem _ hother)
    have hpending := h row mem_cons_self
    have hone : (if row.terminal then 1 else 0) + (if row.inProgress then 1 else 0) +
        (if row.awaitingRetry then 1 else 0) = 1 := by
      unfold terminal inProgress awaitingRetry
      cases hstate : row.state with
      | pending => exact absurd hstate hpending
      | inProgress => simp [finalStates]
      | completed => simp [finalStates]
      | evidenceUnavailable => simp [finalStates]
      | terminalOutcome => simp [finalStates]
      | retryableFailure =>
        by_cases hspent : defaultMaxAttempts ≤ row.attempts
        · simp [finalStates, hspent]
        · simp [finalStates, hspent, Nat.not_le.mp hspent]
    rw [countP_cons, countP_cons, countP_cons, length_cons]
    omega

/-- The three outcomes count every row once, but for those counted twice or never. -/
theorem countP_outcomes (l : List SnapshotRow) :
    l.countP isReady + l.countP isReadinessFailed +
        l.countP isTechnical + l.countP countedNever =
      l.length + l.countP countedTwice := by
  induction l with
  | nil => rfl
  | cons row l ih =>
    have hone : (if row.isReady then 1 else 0) + (if row.isReadinessFailed then 1 else 0) +
        (if row.isTechnical then 1 else 0) + (if row.countedNever then 1 else 0) =
        1 + (if row.countedTwice then 1 else 0) := by
      have hexclusive : ¬ (row.isReadinessFailed = true ∧ row.isTechnical = true) := by
        unfold isReadinessFailed isTechnical
        cases row.state <;> simp
      unfold countedNever countedTwice
      cases hready : row.isReady <;> cases hfailed : row.isReadinessFailed <;>
        cases htechnical : row.isTechnical <;> simp [hfailed, htechnical] at hexclusive ⊢
    rw [countP_cons, countP_cons, countP_cons, countP_cons, countP_cons, length_cons]
    omega

/-! ### Stages -/

/-- The keys of some rows are among the instruments; so are no more rows than instruments, and as
many only where every instrument has its row. -/
theorem length_le_of_keys {items : List (InstrumentId × SnapshotRow)} {ids : List InstrumentId}
    (hnodup : (items.map Prod.fst).Nodup) (hkeys : ∀ item ∈ items, item.1 ∈ ids) :
    items.length ≤ ids.length := by
  rw [← length_map Prod.fst]
  refine (subperm_of_subset hnodup fun id hid => ?_).length_le
  obtain ⟨item, hitem, rfl⟩ := mem_map.mp hid
  exact hkeys item hitem

theorem boundedPercentage_eq_iff {completed total : Int} (hnonneg : 0 ≤ completed)
    (hle : completed ≤ total) (htotal : 0 < total) :
    boundedPercentage completed total = 100 ↔ ¬ ShortOf completed total := by
  have htotal' : (0 : Rat) < total := by exact_mod_cast htotal
  have hquotient : (0 : Rat) ≤ (100 * completed : Int) / (total : Rat) := by
    refine div_nonneg ?_ (le_of_lt htotal')
    exact_mod_cast Int.mul_nonneg (by norm_num) hnonneg
  have hhundred : ((100 * completed : Int) : Rat) / (total : Rat) ≤ 100 := by
    rw [div_le_iff₀ htotal']
    exact_mod_cast Int.mul_le_mul_of_nonneg_left hle (by norm_num)
  have hround := round_percentage_iff hquotient hhundred
  have hshort : ((199 * 2 ^ 46 - 1 : Int) : Rat) / 2 ^ 47 ≤ (100 * completed : Int) / (total : Rat) ↔
      ¬ ShortOf completed total := by
    unfold ShortOf
    rw [div_le_div_iff₀ (by norm_num) htotal', not_lt]
    rw [← Int.cast_le (R := Rat)]
    push_cast
    constructor
    · intro h
      linarith
    · intro h
      linarith
  rw [← hshort, ← hround]
  unfold boundedPercentage
  omega

variable {Id : Type} [DecidableEq Id] {str : Id → String} {run : SnapshotRun Id}
variable {instruments : List InstrumentId} {baselineRows deepRows : Dict InstrumentId SnapshotRow}

omit [DecidableEq Id] in
theorem OfUniverse.size_le (h : OfUniverse run instruments baselineRows) :
    baselineRows.size ≤ instruments.length :=
  length_le_of_keys baselineRows.nodup fun item hitem =>
    h.rows item.1 (mem_map.mpr ⟨item, hitem, rfl⟩)

theorem deepTerminal_length_le (hadmitted : run.selection.admitted ≠ []) :
    (deepTerminal str run deepRows).length ≤ run.selection.admitted.length := by
  have hscoped : (scopedRows str run.selection deepRows).length ≤
      (run.selection.admitted.map str).length := by
    unfold scopedRows
    rw [length_map]
    refine length_le_of_keys ?_ fun item hitem => ?_
    · exact deepRows.nodup.sublist (filter_sublist.map Prod.fst)
    · have hkept := (mem_filter.mp hitem).2
      rw [Bool.or_eq_true, List.isEmpty_iff] at hkept
      rcases hkept with hempty | hany
      · exact absurd hempty hadmitted
      · obtain ⟨id, hid, heq⟩ := any_eq_true.mp hany
        rw [decide_eq_true_eq] at heq
        exact heq ▸ hid
  rw [length_map] at hscoped
  exact Nat.le_trans (length_filter_le _ _) hscoped

/-- The stage reads 100 only where it is settled, just where it is settled or short of it. -/
theorem honest_iff {settled : Prop} {completed total : Int} (hnonneg : 0 ≤ completed)
    (hle : completed ≤ total) (htotal : 0 < total) :
    (boundedPercentage completed total = 100 → settled) ↔ settled ∨ ShortOf completed total := by
  rw [boundedPercentage_eq_iff hnonneg hle htotal, not_imp_comm, imp_iff_not_or, not_not]

theorem stagePercentage_eq_iff {settled : Prop} {completed total : Nat} (hle : completed ≤ total)
    (hempty : total = 0 → settled) :
    (stagePercentage completed (some (total : Int)) = some 100 → settled) ↔
      settled ∨ ShortOf completed total := by
  unfold stagePercentage
  rw [Option.map_some, Option.some_inj]
  by_cases hzero : total = 0
  · exact ⟨fun _ => Or.inl (hempty hzero), fun _ _ => hempty hzero⟩
  · have htotal : (0 : Int) < total := by omega
    rw [if_neg (Int.not_le.mpr htotal)]
    exact honest_iff (Int.natCast_nonneg _) (Int.ofNat_le.mpr hle) htotal

/-- The overall figure weighs the stages by their sizes. -/
theorem overallPercentage_known {status : Option RunStatus} {completed total completed' total' : Nat}
    {percentage percentage' : Int} (hfailed : status ≠ some .failed)
    (hcancelled : status ≠ some .cancelled) (hle : completed ≤ total) (htotal' : 0 < total') :
    overallPercentage status [⟨completed, some (total : Int), some percentage⟩,
        ⟨completed', some (total' : Int), some percentage'⟩] =
      some (boundedPercentage (completed + completed') (total + total')) := by
  have hgate : ¬ (status = some .failed ∨ status = some .cancelled ∨
      [(⟨completed, some (total : Int), some percentage⟩ : StageProgress),
        ⟨completed', some (total' : Int), some percentage'⟩].any
          (fun stage => stage.percentage.isNone) = true) := by
    rintro (heq | heq | hany)
    · exact hfailed heq
    · exact hcancelled heq
    · cases hany
  unfold overallPercentage
  rw [if_neg hgate]
  by_cases hzero : total = 0
  · have hcompleted : completed = 0 := Nat.le_zero.mp (hzero ▸ hle)
    subst hzero hcompleted
    have hknown : List.filter (fun stage : StageProgress => stage.total.any (0 < ·))
        [⟨((0 : Nat) : Int), some ((0 : Nat) : Int), some percentage⟩,
          ⟨completed', some (total' : Int), some percentage'⟩] =
        [⟨completed', some (total' : Int), some percentage'⟩] := by
      simp [htotal']
    have hscope : ¬ (0 : Int) + total' ≤ 0 := by omega
    dsimp only
    rw [hknown, if_neg]
    · rfl
    · rintro (hempty | hle')
      · cases hempty
      · exact hscope hle'
  · have htotal : 0 < total := Nat.pos_of_ne_zero hzero
    have hknown : List.filter (fun stage : StageProgress => stage.total.any (0 < ·))
        [⟨completed, some (total : Int), some percentage⟩,
          ⟨completed', some (total' : Int), some percentage'⟩] =
        [⟨completed, some (total : Int), some percentage⟩,
          ⟨completed', some (total' : Int), some percentage'⟩] := by
      simp [htotal, htotal']
    have hscope : ¬ (0 : Int) + total + total' ≤ 0 := by omega
    dsimp only
    rw [hknown, if_neg]
    · change some (boundedPercentage (0 + completed + completed') (0 + total + total')) = _
      rw [Int.zero_add, Int.zero_add]
    · rintro (hempty | hle')
      · cases hempty
      · exact hscope hle'

theorem overallPercentage_none {status : Option RunStatus} {stages : List StageProgress}
    (h : status = some .failed ∨ status = some .cancelled ∨
      stages.any (fun stage => stage.percentage.isNone) = true) :
    overallPercentage status stages = none := by
  unfold overallPercentage
  rw [if_pos h]

/-! ### The snapshot -/

/-- **The snapshot is honest just where no percentage is rounded up to 100** over instruments that
are not settled, and no rows are counted twice. -/
theorem snapshot_honest_iff (str : Id → String) (run : SnapshotRun Id)
    (h : OfUniverse run instruments baselineRows) (deepRows : Dict InstrumentId SnapshotRow) :
    Honest str run instruments baselineRows deepRows
        (cycleStatusSnapshot str run baselineRows deepRows) ↔
      Unrounded str run instruments baselineRows deepRows := by
  have hsize := h.size_le
  have hvalues : baselineRows.values.length = baselineRows.size := List.length_map _
  have hterminal : baselineRows.values.countP SnapshotRow.terminal ≤ instruments.length :=
    Nat.le_trans List.countP_le_length (hvalues ▸ hsize)
  have hdeepEmpty : run.selection.admitted.length = 0 → DeepSettled str run deepRows := by
    intro hzero id hid
    rw [List.length_eq_zero_iff.mp hzero] at hid
    cases hid
  have hbaselineEmpty : instruments.length = 0 → BaselineSettled instruments baselineRows := by
    intro hzero id hid
    rw [List.length_eq_zero_iff.mp hzero] at hid
    cases hid
  have hbaseline : ((cycleStatusSnapshot str run baselineRows deepRows).baselineStage.percentage =
      some 100 → BaselineSettled instruments baselineRows) ↔
      BaselineSettled instruments baselineRows ∨
        ShortOf (baselineRows.values.countP SnapshotRow.terminal) instruments.length := by
    rw [← stagePercentage_eq_iff hterminal hbaselineEmpty, ← h.known]
    rfl
  have hdeep : ((cycleStatusSnapshot str run baselineRows deepRows).deepStage.percentage =
      some 100 → DeepSettled str run deepRows) ↔
      DeepSettled str run deepRows ∨
        ShortOf (deepTerminal str run deepRows).length run.selection.admitted.length := by
    by_cases hadmitted : run.selection.admitted = []
    · have hsettled := hdeepEmpty (List.length_eq_zero_iff.mpr hadmitted)
      exact ⟨fun _ => Or.inl hsettled, fun _ _ => hsettled⟩
    · rw [← stagePercentage_eq_iff (deepTerminal_length_le hadmitted) hdeepEmpty]
      change (stagePercentage _ (if run.selection.admitted.isEmpty then none else _) = _ → _) ↔ _
      rw [if_neg (mt List.isEmpty_iff.mp hadmitted)]
      rfl
  have hoverall : ((cycleStatusSnapshot str run baselineRows deepRows).overallPercentage =
      some 100 → BaselineSettled instruments baselineRows ∧ DeepSettled str run deepRows) ↔
      run.status = some .failed ∨ run.status = some .cancelled ∨ run.selection.admitted = [] ∨
        BaselineSettled instruments baselineRows ∧ DeepSettled str run deepRows ∨
        ShortOf (baselineRows.values.countP SnapshotRow.terminal +
            (deepTerminal str run deepRows).length)
          (instruments.length + run.selection.admitted.length) := by
    change (overallPercentage run.status
      [⟨baselineRows.values.countP SnapshotRow.terminal, run.selection.knownUniverse,
          stagePercentage _ run.selection.knownUniverse⟩,
        ⟨(deepTerminal str run deepRows).length,
          (if run.selection.admitted.isEmpty then none else _),
          stagePercentage _ (if run.selection.admitted.isEmpty then none else _)⟩] = _ → _) ↔ _
    by_cases hadmitted : run.selection.admitted = []
    · rw [if_pos (List.isEmpty_iff.mpr hadmitted), overallPercentage_none]
      · exact ⟨fun _ => Or.inr (Or.inr (Or.inl hadmitted)), fun _ heq => by cases heq⟩
      · exact Or.inr (Or.inr (List.any_eq_true.mpr
          ⟨_, List.mem_cons_of_mem _ (List.mem_singleton.mpr rfl), rfl⟩))
    · by_cases hfailed : run.status = some .failed
      · rw [overallPercentage_none (Or.inl hfailed)]
        exact ⟨fun _ => Or.inl hfailed, fun _ heq => by cases heq⟩
      · by_cases hcancelled : run.status = some .cancelled
        · rw [overallPercentage_none (Or.inr (Or.inl hcancelled))]
          exact ⟨fun _ => Or.inr (Or.inl hcancelled), fun _ heq => by cases heq⟩
        · have hdeepLe := @deepTerminal_length_le _ _ str run deepRows hadmitted
          have hpos : 0 < run.selection.admitted.length := List.length_pos_iff.mpr hadmitted
          rw [if_neg (mt List.isEmpty_iff.mp hadmitted), h.known]
          unfold stagePercentage
          rw [Option.map_some, Option.map_some,
            overallPercentage_known hfailed hcancelled hterminal hpos, Option.some_inj,
            honest_iff (by omega) (by omega) (by omega)]
          simp only [hfailed, hcancelled, hadmitted, false_or]
  constructor
  · intro hhonest
    refine ⟨hbaseline.mp hhonest.baseline, hdeep.mp hhonest.deep, hoverall.mp hhonest.overall, ?_⟩
    have hcounts := countP_outcomes (deepTerminal str run deepRows)
    have houtcomes := hhonest.outcomes
    change (deepTerminal str run deepRows).countP SnapshotRow.isReady +
      (deepTerminal str run deepRows).countP SnapshotRow.isReadinessFailed +
      (deepTerminal str run deepRows).countP SnapshotRow.isTechnical ≤
        (deepTerminal str run deepRows).length at houtcomes
    omega
  · intro hunrounded
    refine ⟨?_, ?_, ?_, fun hadmitted => deepTerminal_length_le hadmitted,
      hbaseline.mpr hunrounded.baseline, hdeep.mpr hunrounded.deep,
      hoverall.mpr hunrounded.overall⟩
    · have hpartition := countP_partition h.started
      refine ⟨instruments.length - baselineRows.size, ?_, h.known, ?_⟩
      · change run.selection.knownUniverse.map _ = _
        rw [h.known, Option.map_some, Option.some_inj]
        exact max_eq_left (by omega)
      · change ((baselineRows.values.countP SnapshotRow.terminal : Nat) : Int) +
          (baselineRows.values.countP SnapshotRow.inProgress : Nat) +
          (baselineRows.values.countP SnapshotRow.awaitingRetry : Nat) + _ = _
        omega
    · refine countP_le_of_imp fun row hrow => ?_
      exact (Bool.and_eq_true_iff.mp hrow).1
    · have hcounts := countP_outcomes (deepTerminal str run deepRows)
      have houtcomes := hunrounded.outcomes
      change (deepTerminal str run deepRows).countP SnapshotRow.isReady +
        (deepTerminal str run deepRows).countP SnapshotRow.isReadinessFailed +
        (deepTerminal str run deepRows).countP SnapshotRow.isTechnical ≤
          (deepTerminal str run deepRows).length
      omega

/-! ### Cycles of a known universe -/

def sampleId (n : Nat) : InstrumentId := String.ofList (replicate n 'I')

theorem sampleId_injective : Function.Injective sampleId := by
  intro n m h
  have hlength := congrArg List.length (String.ofList_injective h)
  rwa [length_replicate, length_replicate] at hlength

theorem sampleIds_nodup (n : Nat) : ((range n).map sampleId).Nodup :=
  nodup_range.map sampleId_injective

def sampleRun (n : Nat) : SnapshotRun InstrumentId where
  status := some .running
  selection := { universeList := some ((range n).map sampleId) }
  analysisScope := none
  shortlistLimit := none

def finishedRow : SnapshotRow := ⟨.completed, 1, some "BASELINE_READY", some ⟨true, none⟩⟩

/-- The first instruments have finished. -/
def finishedRows (n : Nat) : Dict InstrumentId SnapshotRow where
  items := (range n).map fun k => (sampleId k, finishedRow)
  nodup := by
    rw [map_map]
    exact sampleIds_nodup n

theorem values_finishedRows (n : Nat) : (finishedRows n).values = replicate n finishedRow := by
  change ((range n).map fun k => (sampleId k, finishedRow)).map Prod.snd = _
  rw [map_map]
  refine eq_replicate_iff.mpr ⟨?_, fun row hrow => ?_⟩
  · rw [length_map, length_range]
  · obtain ⟨k, -, rfl⟩ := mem_map.mp hrow
    rfl

theorem keys_finishedRows (n : Nat) : (finishedRows n).keys = (range n).map sampleId := by
  change ((range n).map fun k => (sampleId k, finishedRow)).map Prod.fst = _
  rw [map_map]
  rfl

theorem ofUniverse_sample {m n : Nat} (h : m ≤ n) :
    OfUniverse (sampleRun n) ((range n).map sampleId) (finishedRows m) := by
  refine ⟨sampleIds_nodup n, rfl, fun id hid => ?_, fun row hrow => ?_⟩
  · rw [keys_finishedRows] at hid
    obtain ⟨k, hk, rfl⟩ := mem_map.mp hid
    exact mem_map.mpr ⟨k, mem_range.mpr (Nat.lt_of_lt_of_le (mem_range.mp hk) h), rfl⟩
  · rw [values_finishedRows] at hrow
    rw [eq_of_mem_replicate hrow]
    decide

theorem snapshot_honest_iff_sample :
    Honest id (sampleRun 2) ((List.range 2).map sampleId) (finishedRows 1) Dict.empty
        (cycleStatusSnapshot id (sampleRun 2) (finishedRows 1) Dict.empty) ↔
      Unrounded id (sampleRun 2) ((List.range 2).map sampleId) (finishedRows 1) Dict.empty :=
  snapshot_honest_iff id (sampleRun 2) (ofUniverse_sample (by decide)) Dict.empty

/-- **200 of 201 is 100 percent.** -/
theorem percentage_rounded_up :
    OfUniverse (sampleRun 201) ((List.range 201).map sampleId) (finishedRows 200) ∧
      ¬ Honest id (sampleRun 201) ((List.range 201).map sampleId) (finishedRows 200) Dict.empty
        (cycleStatusSnapshot id (sampleRun 201) (finishedRows 200) Dict.empty) := by
  have huniverse := @ofUniverse_sample 200 201 (by decide)
  refine ⟨huniverse, fun hhonest => ?_⟩
  have hunrounded := (snapshot_honest_iff id (sampleRun 201) huniverse Dict.empty).mp hhonest
  rcases hunrounded.baseline with hsettled | hshort
  · have hlast : sampleId 200 ∈ (List.range 201).map sampleId :=
      List.mem_map.mpr ⟨200, List.mem_range.mpr (by decide), rfl⟩
    obtain ⟨row, hrow, -⟩ := hsettled _ hlast
    have hkey := Dict.isSome_get?.mp (Option.isSome_iff_exists.mpr ⟨row, hrow⟩)
    rw [keys_finishedRows] at hkey
    obtain ⟨k, hk, heq⟩ := List.mem_map.mp hkey
    rw [sampleId_injective heq] at hk
    exact absurd (List.mem_range.mp hk) (by decide)
  · have hcount : (finishedRows 200).values.countP SnapshotRow.terminal = 200 := by
      rw [values_finishedRows, List.countP_replicate]
      rfl
    rw [hcount, List.length_map, List.length_range] at hshort
    exact absurd hshort (by decide)

end InvestmentPlatform.Cycle
