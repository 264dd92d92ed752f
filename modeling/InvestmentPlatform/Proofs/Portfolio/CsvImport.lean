/-
When a portfolio is the file that was confirmed last.

A file that is new to its portfolio is in force after its confirmation: every holding has its
position, changed or added under the generation of the import, and every other position that was
active is marked stale.  A file that has been imported before changes nothing, whether or not it
is the one in force.
-/
import InvestmentPlatform.Lib.Machine
import InvestmentPlatform.Portfolio.CsvParser
import Mathlib.Data.List.Perm.Basic
import Mathlib.Data.List.Perm.Lattice

namespace InvestmentPlatform.Portfolio

open Fallible JavaText List ManualPosition

/-! ### Changing a row or adding one -/

section
variable {R : Type} {meant : R → Bool} {change : R → R} {added : R}

variable {rows : List R}

theorem mem_changeOrAdd {row : R} (h : row ∈ changeOrAdd meant change added rows) :
    row = added ∨ row ∈ rows ∨ ∃ old ∈ rows, meant old = true ∧ row = change old := by
  induction rows with
  | nil => exact Or.inl (mem_singleton.mp h)
  | cons first rows ih =>
      rw [changeOrAdd] at h
      split at h
      · rename_i hmeant
        rcases mem_cons.mp h with rfl | h
        · exact Or.inr (Or.inr ⟨first, mem_cons_self, hmeant, rfl⟩)
        · exact Or.inr (Or.inl (mem_cons_of_mem _ h))
      · rcases mem_cons.mp h with rfl | h
        · exact Or.inr (Or.inl mem_cons_self)
        · rcases ih h with hnew | hold | ⟨old, hold, hmeant⟩
          · exact Or.inl hnew
          · exact Or.inr (Or.inl (mem_cons_of_mem _ hold))
          · exact Or.inr (Or.inr ⟨old, mem_cons_of_mem _ hold, hmeant⟩)

/-- The row that was meant is there afterwards. -/
theorem exists_changeOrAdd (rows : List R) : added ∈ changeOrAdd meant change added rows ∨
    ∃ old ∈ rows, meant old = true ∧ change old ∈ changeOrAdd meant change added rows := by
  induction rows with
  | nil => exact Or.inl mem_cons_self
  | cons first rows ih =>
      rw [changeOrAdd]
      by_cases hmeant : meant first = true
      · rw [if_pos hmeant]
        exact Or.inr ⟨first, mem_cons_self, hmeant, mem_cons_self⟩
      · rw [if_neg hmeant]
        rcases ih with hnew | ⟨old, hold, hmeant', hchanged⟩
        · exact Or.inl (mem_cons_of_mem _ hnew)
        · exact Or.inr ⟨old, mem_cons_of_mem _ hold, hmeant', mem_cons_of_mem _ hchanged⟩

/-- A row that was not meant stays. -/
theorem mem_changeOrAdd_of_not {row : R} (h : row ∈ rows)
    (hnot : meant row = false) : row ∈ changeOrAdd meant change added rows := by
  induction rows with
  | nil => cases h
  | cons first rows ih =>
      rw [changeOrAdd]
      rcases mem_cons.mp h with rfl | h
      · rw [hnot, if_neg Bool.false_ne_true]
        exact mem_cons_self
      · by_cases hmeant : meant first = true
        · rw [if_pos hmeant]
          exact mem_cons_of_mem _ h
        · rw [if_neg hmeant]
          exact mem_cons_of_mem _ (ih h)

/-- Where the rows that are meant are those of one key, keys stay unique. -/
theorem changeOrAdd_keys_nodup {K : Type} {key : R → K} {k : K}
    (hmeant : ∀ row, meant row = true ↔ key row = k) (hchange : ∀ row, meant row = true → key (change row) = key row)
    (hadded : key added = k) (h : (rows.map key).Nodup) :
    ((changeOrAdd meant change added rows).map key).Nodup := by
  induction rows with
  | nil => exact nodup_singleton _
  | cons first rows ih =>
      rw [map_cons, nodup_cons] at h
      rw [changeOrAdd]
      by_cases hfirst : meant first = true
      · rw [if_pos hfirst, map_cons, hchange first hfirst, nodup_cons]
        exact h
      · rw [if_neg hfirst, map_cons, nodup_cons]
        refine ⟨fun hin => ?_, ih h.2⟩
        obtain ⟨row, hrow, hsame⟩ := mem_map.mp hin
        rcases mem_changeOrAdd hrow with rfl | hold | ⟨old, hold, hold', rfl⟩
        · exact hfirst ((hmeant first).mpr (hsame.symm.trans hadded))
        · exact h.1 (mem_map.mpr ⟨row, hold, hsame⟩)
        · rw [hchange old hold'] at hsame
          exact h.1 (mem_map.mpr ⟨old, hold, hsame⟩)

/-- Rows that the change stays away from are the same, in the same order. -/
theorem changeOrAdd_filter {p : R → Bool} (hmeant : ∀ row, meant row = true → p row = false)
    (hchange : ∀ row, meant row = true → p (change row) = false) (hadded : p added = false)
    (rows : List R) : (changeOrAdd meant change added rows).filter p = rows.filter p := by
  induction rows with
  | nil => rw [changeOrAdd, filter_cons, hadded, if_neg Bool.false_ne_true]
  | cons first rows ih =>
      rw [changeOrAdd]
      by_cases hfirst : meant first = true
      · rw [if_pos hfirst, filter_cons, filter_cons, hchange first hfirst,
          hmeant first hfirst, if_neg Bool.false_ne_true, if_neg Bool.false_ne_true]
      · rw [if_neg hfirst, filter_cons, filter_cons, ih]

end

/-! ### One holding -/

/-- What a position is found by. -/
def ManualPosition.identity (row : ManualPosition) : PortfolioKey × String × String :=
  (row.portfolio, row.externalInstrumentProvider, row.externalInstrumentId)

variable {row : ManualPosition} {key : PortfolioKey}

theorem isFor_iff {securityKey : String} :
    row.isFor key securityKey = true ↔ row.identity = (key, key.broker.name, securityKey) := by
  unfold isFor identity
  rw [decide_eq_true_eq, Prod.mk.injEq, Prod.mk.injEq]

/-- The position of a holding under the generation of an import. -/
structure Filled (key : PortfolioKey) (generation : Nat) (holding : ImportedHolding)
    (row : ManualPosition) : Prop where
  identity : row.identity = (key, key.broker.name, holding.securityKey)
  quantity : row.quantity = holding.quantity
  averageCost : row.averageCostAmount = holding.averageCost
  generation : row.syncGenerationId = generation
  active : row.active = true

/-- The positions in the middle of an import: those of its generation are the holdings so far, one
each, and the others were there before. -/
structure Underway (key : PortfolioKey) (generation : Nat) (before : List ManualPosition)
    (done : List ImportedHolding) (rows : List ManualPosition) : Prop where
  identities : (rows.map ManualPosition.identity).Nodup
  filled : ∀ holding ∈ done, ∃ row ∈ rows, Filled key generation holding row
  generated : ∀ row ∈ rows, row.syncGenerationId = generation →
    ∃ holding ∈ done, Filled key generation holding row
  others : ∀ row ∈ rows, row.syncGenerationId ≠ generation → row ∈ before

variable {holding : ImportedHolding} {generation : Nat}

theorem replace_filled {observedAt : Nat} (h : row.portfolio = key) :
    Filled key generation holding (replaceManualImportValues key holding generation observedAt row) :=
  ⟨Prod.ext h rfl, rfl, rfl, rfl, rfl⟩

variable {before : List ManualPosition}

/-- One turn of the loop. -/
theorem Underway.step {observedAt positionId : Nat} {rows : List ManualPosition}
    {done : List ImportedHolding} (h : Underway key generation before done rows)
    (hnew : holding.securityKey ∉ done.map ImportedHolding.securityKey) :
    Underway key generation before (done ++ [holding])
      (changeOrAdd (·.isFor key holding.securityKey)
        (replaceManualImportValues key holding generation observedAt)
        (newPosition key holding positionId generation observedAt) rows) := by
  have hadded : Filled key generation holding
      (newPosition key holding positionId generation observedAt) := replace_filled rfl
  have hchanged : ∀ row : ManualPosition, row.isFor key holding.securityKey = true →
      Filled key generation holding
        (replaceManualImportValues key holding generation observedAt row) := by
    intro row hrow
    exact replace_filled (congrArg Prod.fst (isFor_iff.mp hrow))
  refine ⟨?_, ?_, ?_, ?_⟩
  · exact changeOrAdd_keys_nodup (fun _ => isFor_iff)
      (fun row hrow => (hchanged row hrow).identity.trans (isFor_iff.mp hrow).symm)
      hadded.identity h.identities
  · intro other hother
    rcases mem_append.mp hother with hother | hother
    · obtain ⟨row, hrow, hfilled⟩ := h.filled other hother
      refine ⟨row, mem_changeOrAdd_of_not hrow ?_, hfilled⟩
      apply Bool.of_not_eq_true
      intro hmeant
      have hsame := (isFor_iff.mp hmeant).symm.trans hfilled.identity
      apply hnew
      rw [(Prod.mk.injEq .. |>.mp (Prod.mk.injEq .. |>.mp hsame).2).2]
      exact mem_map_of_mem hother
    · rw [mem_singleton.mp hother]
      rcases exists_changeOrAdd rows with hmem | ⟨old, hold, hmeant, hmem⟩
      · exact ⟨_, hmem, hadded⟩
      · exact ⟨_, hmem, hchanged old hmeant⟩
  · intro row hrow hgeneration
    rcases mem_changeOrAdd hrow with rfl | hold | ⟨old, -, hmeant, rfl⟩
    · exact ⟨holding, mem_append_right _ mem_cons_self, hadded⟩
    · obtain ⟨other, hother, hfilled⟩ := h.generated row hold hgeneration
      exact ⟨other, mem_append_left _ hother, hfilled⟩
    · exact ⟨holding, mem_append_right _ mem_cons_self, hchanged old hmeant⟩
  · intro row hrow hgeneration
    rcases mem_changeOrAdd hrow with rfl | hold | ⟨old, -, -, rfl⟩
    · exact absurd rfl hgeneration
    · exact h.others row hold hgeneration
    · exact absurd rfl hgeneration

/-! ### The loop over the holdings -/

/-- The part of a position that a file determines. -/
def ManualPosition.holds (row : ManualPosition) : String × ℚ × ℚ :=
  (row.externalInstrumentId, row.quantity, row.averageCostAmount)

def ImportedHolding.holds (holding : ImportedHolding) : String × ℚ × ℚ :=
  (holding.securityKey, holding.quantity, holding.averageCost)

/-- An active position of a portfolio. -/
def ManualPosition.activeIn (key : PortfolioKey) (row : ManualPosition) : Bool :=
  row.portfolio = key ∧ row.active = true

/-- What the active positions of a portfolio hold. -/
def activeHoldings (rows : List ManualPosition) (key : PortfolioKey) : List (String × ℚ × ℚ) :=
  (rows.filter (·.activeIn key)).map ManualPosition.holds

/-- What the loop has done to the positions. -/
structure Imported (key : PortfolioKey) (generation : Nat) (done : List ImportedHolding)
    (before rows : List ManualPosition) : Prop where
  underway : Underway key generation before done rows
  elsewhere : ∀ other, other ≠ key →
    rows.filter (·.activeIn other) = before.filter (·.activeIn other)

theorem activeIn_eq_false {other : PortfolioKey}
    (hrow : row.portfolio = key) (hother : other ≠ key) : row.activeIn other = false := by
  apply Bool.of_not_eq_true
  intro hc
  exact hother ((of_decide_eq_true hc).1.symm.trans hrow)

section
variable [Casing]

theorem importHolding_positions {key : PortfolioKey} {generation observedAt : Nat}
    {s s' : ImportStore} {holding : ImportedHolding}
    (h : importHolding key generation observedAt s holding = .ok s') :
    s'.positions = changeOrAdd (·.isFor key holding.securityKey)
      (replaceManualImportValues key holding generation observedAt)
      (newPosition key holding s.positions.length generation observedAt) s.positions := by
  obtain ⟨masters, -, h⟩ := bind_eq_ok.mp h
  cases h
  rfl

theorem imported_of_loop {key : PortfolioKey} {observedAt : Nat} {s s' : ImportStore}
    {holdings : List ImportedHolding}
    (hidentities : (s.positions.map identity).Nodup)
    (hfresh : ∀ row ∈ s.positions, row.syncGenerationId < s.generations)
    (hdistinct : (holdings.map ImportedHolding.securityKey).Nodup)
    (h : holdings.foldlM (importHolding key s.generations observedAt) s = .ok s') :
    Imported key s.generations holdings s.positions s'.positions := by
  have hstart : Imported key s.generations [] s.positions s.positions := by
    refine ⟨⟨hidentities, ?_, ?_, fun row hrow _ => hrow⟩, fun _ _ => rfl⟩
    · intro holding hholding
      cases hholding
    · intro row hrow hsame
      exact absurd hsame (hfresh row hrow).ne
  -- the holdings are those done and those to come
  have hturn : ∀ holding rest mid next, (∃ done, holdings = done ++ holding :: rest ∧
        Imported key s.generations done s.positions mid.positions) →
      importHolding key s.generations observedAt mid holding = .ok next →
      ∃ done, holdings = done ++ rest ∧
        Imported key s.generations done s.positions next.positions := by
    rintro holding rest mid next ⟨done, hdone, himported⟩ hstep
    refine ⟨done ++ [holding], by rw [hdone, List.append_assoc]; rfl, ?_⟩
    rw [importHolding_positions hstep]
    constructor
    · apply himported.underway.step
      rw [hdone, map_append, map_cons, nodup_append] at hdistinct
      intro hin
      exact hdistinct.2.2 _ hin _ mem_cons_self rfl
    · intro other hother
      rw [← himported.elsewhere other hother]
      apply changeOrAdd_filter
      · intro row hmeant
        exact activeIn_eq_false (congrArg Prod.fst (isFor_iff.mp hmeant)) hother
      · intro row hmeant
        exact activeIn_eq_false (congrArg Prod.fst (isFor_iff.mp hmeant)) hother
      · exact activeIn_eq_false rfl hother
  obtain ⟨done, hdone, himported⟩ := foldlM_rec (fun rest s' => ∃ done, holdings = done ++ rest ∧
    Imported key s.generations done s.positions s'.positions) hturn ⟨[], rfl, hstart⟩ h
  rw [append_nil] at hdone
  rw [hdone]
  exact himported

end

/-! ### What is active afterwards -/

/-- The last lines of an import: what was active and is not in the file is stale. -/
def settled (key : PortfolioKey) (generation : Nat) (row : ManualPosition) : ManualPosition :=
  if row.portfolio = key ∧ row.active = true ∧ row.syncGenerationId ≠ generation
  then row.markStale generation else row

theorem settled_identity (key : PortfolioKey) (generation : Nat) (row : ManualPosition) :
    (settled key generation row).identity = row.identity := by
  unfold settled
  split <;> rfl

/-- Active in its portfolio after an import is what the import has written. -/
theorem settled_activeIn (h : (settled key generation row).activeIn key = true) :
    settled key generation row = row ∧ row.syncGenerationId = generation := by
  unfold settled at h ⊢
  by_cases hstale : row.portfolio = key ∧ row.active = true ∧ row.syncGenerationId ≠ generation
  · rw [if_pos hstale] at h
    exact absurd (of_decide_eq_true h).2 Bool.false_ne_true
  · rw [if_neg hstale] at h ⊢
    obtain ⟨hkey, hactive⟩ := of_decide_eq_true h
    refine ⟨rfl, ?_⟩
    by_contra hother
    exact hstale ⟨hkey, hactive, hother⟩

theorem settled_of_generation
    (h : row.syncGenerationId = generation) : settled key generation row = row :=
  if_neg fun hstale => hstale.2.2 h

theorem settled_of_ne (h : row.portfolio ≠ key) : settled key generation row = row :=
  if_neg fun hstale => h hstale.1

theorem holds_of_filled (h : Filled key generation holding row) : row.holds = holding.holds := by
  have hid := congrArg (fun identity : PortfolioKey × String × String => identity.2.2) h.identity
  exact Prod.ext hid (Prod.ext h.quantity h.averageCost)

/-- After the import the active positions of the portfolio are those of the file. -/
theorem activeHoldings_settled {holdings : List ImportedHolding} {rows : List ManualPosition}
    (hdistinct : (holdings.map ImportedHolding.securityKey).Nodup)
    (h : Underway key generation before holdings rows) :
    (activeHoldings (rows.map (settled key generation)) key).Perm
      (holdings.map ImportedHolding.holds) := by
  -- an active position, as the import has written it
  have hwritten : ∀ row ∈ (rows.map (settled key generation)).filter (·.activeIn key),
      row ∈ rows ∧ ∃ holding ∈ holdings, Filled key generation holding row := by
    intro row hrow
    obtain ⟨hmem, hactive⟩ := mem_filter.mp hrow
    obtain ⟨old, hold, rfl⟩ := mem_map.mp hmem
    obtain ⟨hsame, hgeneration⟩ := settled_activeIn hactive
    rw [hsame]
    exact ⟨hold, h.generated old hold hgeneration⟩
  have hidentities : ((rows.map (settled key generation)).map identity).Nodup := by
    rw [map_map]
    rw [show identity ∘ settled key generation = identity from
      funext (settled_identity key generation)]
    exact h.identities
  refine (perm_ext_iff_of_nodup ?_ ?_).mpr fun held => ?_
  · refine Nodup.map_on ?_ ((Nodup.of_map _ hidentities).filter _)
    intro row hrow other hother hsame
    obtain ⟨-, holding, -, hfilled⟩ := hwritten row hrow
    obtain ⟨-, holding', -, hfilled'⟩ := hwritten other hother
    have hkeys : row.externalInstrumentId = other.externalInstrumentId := congrArg Prod.fst hsame
    have hprovider := congrArg (fun identity : PortfolioKey × String × String => identity.2.1)
      (hfilled.identity)
    have hprovider' := congrArg (fun identity : PortfolioKey × String × String => identity.2.1)
      (hfilled'.identity)
    have hportfolio := congrArg Prod.fst (hfilled.identity)
    have hportfolio' := congrArg Prod.fst (hfilled'.identity)
    refine inj_on_of_nodup_map hidentities (mem_filter.mp hrow).1 (mem_filter.mp hother).1 ?_
    exact Prod.ext (hportfolio.trans hportfolio'.symm)
      (Prod.ext (hprovider.trans hprovider'.symm) hkeys)
  · refine Nodup.of_map Prod.fst ?_
    rw [map_map]
    exact hdistinct
  · unfold activeHoldings
    rw [mem_map, mem_map]
    constructor
    · rintro ⟨row, hrow, rfl⟩
      obtain ⟨-, holding, hholding, hfilled⟩ := hwritten row hrow
      exact ⟨holding, hholding, (holds_of_filled hfilled).symm⟩
    · rintro ⟨holding, hholding, rfl⟩
      obtain ⟨row, hrow, hfilled⟩ := h.filled holding hholding
      refine ⟨row, mem_filter.mpr ⟨?_, ?_⟩, holds_of_filled hfilled⟩
      · exact mem_map.mpr ⟨row, hrow, settled_of_generation hfilled.generation⟩
      · exact decide_eq_true ⟨congrArg Prod.fst hfilled.identity, hfilled.active⟩

/-- The active positions of another portfolio stay. -/
theorem activeHoldings_elsewhere {other : PortfolioKey}
    {holdings : List ImportedHolding} {rows : List ManualPosition} (hother : other ≠ key)
    (h : Imported key generation holdings before rows) :
    activeHoldings (rows.map (settled key generation)) other = activeHoldings before other := by
  unfold activeHoldings
  rw [filter_map, ← h.elsewhere other hother]
  have hactive : (fun row : ManualPosition => row.activeIn other) ∘ settled key generation =
      fun row => row.activeIn other := by
    funext row
    by_cases hkey : row.portfolio = key
    · rw [activeIn_eq_false hkey hother]
      exact activeIn_eq_false
        ((congrArg Prod.fst (settled_identity key generation row)).trans hkey) hother
    · rw [Function.comp_apply, settled_of_ne hkey]
  rw [hactive, map_map]
  refine map_congr_left fun row hrow => ?_
  have hportfolio := (of_decide_eq_true (mem_filter.mp hrow).2).1
  rw [Function.comp_apply, settled_of_ne (hportfolio.symm ▸ hother)]

end InvestmentPlatform.Portfolio
