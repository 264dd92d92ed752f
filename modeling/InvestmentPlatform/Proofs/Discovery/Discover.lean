/-
What discovery admits, and that its rotation starves nobody.

The selection is filled in two steps.  By priority it stays below the budget less the reserve;
the rotation then walks the universe from behind the cursor and adds what is not there yet.
Each step of the walk adds one instrument to both of the numbers it stops on, so it stops
exactly when the budget is full or the universe is at its end.

The walk serves a prefix of the rotation and leaves the cursor at its last member, which is a
turn of a round robin.
-/
import InvestmentPlatform.Discovery.Discover

namespace InvestmentPlatform.Discovery

open List Dict Selection RoundRobin

variable {F : Type}

/-! ### Nominations -/

variable {n : CandidateNomination F}

theorem mem_nominateCompact {candidate : Candidate F} {marketIds : List String}
    {events : List ResearchEvent} {asOf : Rules.Instant}
    (h : n ∈ nominateCompact candidate marketIds events asOf) :
    n.instrumentId = candidate.globalInstrumentId ∧
      (n.path = .marketTechnical ∧ nominateMarket candidate marketIds = some n ∨
        n.path = .fundamentalChange ∧ nominateGrowth candidate = some n ∨
        n.path = .eventCatalyst ∧ nominateCatalyst candidate events asOf = some n) := by
  unfold nominateCompact at h
  split at h
  · simp only [mem_append, Option.mem_toList] at h
    rcases h with (h | h) | h
    · have hmarket := h
      unfold nominateMarket at h
      split at h
      · rw [Option.some.injEq] at h
        rw [← h] at hmarket ⊢
        exact ⟨rfl, Or.inl ⟨rfl, hmarket⟩⟩
      · cases h
    · have hgrowth := h
      unfold nominateGrowth at h
      split at h
      · split at h
        · rw [Option.some.injEq] at h
          rw [← h] at hgrowth ⊢
          exact ⟨rfl, Or.inr (Or.inl ⟨rfl, hgrowth⟩)⟩
        · cases h
      · cases h
    · obtain ⟨dated, _, hn⟩ := Option.map_eq_some_iff.mp h
      have hpath : n.path = .eventCatalyst := by rw [← hn]
      exact ⟨by rw [← hn], Or.inr (Or.inr ⟨hpath, h⟩)⟩
  · simp at h

/-- At most one nomination for each path. -/
theorem nominateCompact_path_inj {candidate : Candidate F} {marketIds : List String}
    {events : List ResearchEvent} {asOf : Rules.Instant} {m : CandidateNomination F}
    (hm : m ∈ nominateCompact candidate marketIds events asOf)
    (hn : n ∈ nominateCompact candidate marketIds events asOf) (hpath : m.path = n.path) :
    m = n := by
  have hsome : ∀ {o : Option (CandidateNomination F)}, o = some m → o = some n → m = n := by
    intro o h₁ h₂
    exact Option.some.inj (h₁.symm.trans h₂)
  rcases (mem_nominateCompact hm).2 with ⟨hp, hm⟩ | ⟨hp, hm⟩ | ⟨hp, hm⟩ <;>
    rcases (mem_nominateCompact hn).2 with ⟨hq, hn⟩ | ⟨hq, hn⟩ | ⟨hq, hn⟩ <;>
    first
      | exact hsome hm hn
      | (rw [hp, hq] at hpath; cases hpath)

/-! ### The selection -/

theorem get?_add (selected : Selected F) (n : CandidateNomination F) (key : String) :
    (add selected n).get? key = if key = n.instrumentId then
        some (((selected.get? key).getD Dict.empty).set n.path n)
      else selected.get? key := by
  unfold add
  rw [get?_set]
  split
  · rename_i h
    rw [h]
  · rfl

variable {selected : Selected F}

theorem keys_add_of_mem
    (h : n.instrumentId ∈ selected.keys) : (add selected n).keys = selected.keys :=
  keys_set_of_mem h _

theorem keys_add_of_notMem (h : n.instrumentId ∉ selected.keys) :
    (add selected n).keys = selected.keys ++ [n.instrumentId] :=
  keys_set_of_notMem h _

theorem size_add_of_mem
    (h : n.instrumentId ∈ selected.keys) : (add selected n).size = selected.size :=
  size_set_of_mem h _

theorem size_add_of_notMem
    (h : n.instrumentId ∉ selected.keys) : (add selected n).size = selected.size + 1 :=
  size_set_of_notMem h _

/-- The selection holds this very nomination under its path. -/
def Carries (selected : Selected F) (n : CandidateNomination F) : Prop :=
  ∃ values, selected.get? n.instrumentId = some values ∧ values.get? n.path = some n

theorem carries_add_self (selected : Selected F) (n : CandidateNomination F) :
    Carries (add selected n) n := by
  refine ⟨((selected.get? n.instrumentId).getD Dict.empty).set n.path n, ?_, ?_⟩
  · rw [get?_add, if_pos rfl]
  · exact get?_set_self _ _ _

theorem Carries.add {m : CandidateNomination F} (h : Carries selected n)
    (hsame : m.instrumentId = n.instrumentId → m.path = n.path → m = n) :
    Carries (add selected m) n := by
  obtain ⟨values, hvalues, hn⟩ := h
  by_cases hid : m.instrumentId = n.instrumentId
  · refine ⟨values.set m.path m, ?_, ?_⟩
    · rw [get?_add, if_pos hid.symm, hvalues]
      rfl
    · rw [get?_set]
      split
      · rename_i hpath
        rw [hsame hid hpath.symm]
      · exact hn
  · refine ⟨values, ?_, hn⟩
    rw [get?_add, if_neg fun h => hid h.symm]
    exact hvalues

/-- A batch of nominations is carried, as long as none of them has another's place. -/
theorem carries_foldl_add (batch : List (CandidateNomination F))
    (h : n ∈ batch ∨ Carries selected n)
    (hsame : ∀ m ∈ batch, m.instrumentId = n.instrumentId → m.path = n.path → m = n) :
    Carries (batch.foldl Discovery.add selected) n := by
  induction batch generalizing selected with
  | nil =>
    rcases h with h | h
    · cases h
    · exact h
  | cons m batch ih =>
    refine ih ?_ fun m' hm' => hsame m' (mem_cons_of_mem _ hm')
    rcases h with h | h
    · rcases mem_cons.mp h with rfl | h
      · exact Or.inr (carries_add_self selected n)
      · exact Or.inl h
    · exact Or.inr (h.add (hsame m mem_cons_self))

theorem keys_foldl_add {batch : List (CandidateNomination F)}
    (h : ∀ n ∈ batch, n.instrumentId ∈ selected.keys) :
    (batch.foldl add selected).keys = selected.keys := by
  induction batch generalizing selected with
  | nil => rfl
  | cons n batch ih =>
    have hkeys := keys_add_of_mem (h n mem_cons_self)
    rw [foldl_cons, ih, hkeys]
    intro m hm
    rw [hkeys]
    exact h m (mem_cons_of_mem _ hm)

/-! ### The eligible candidates -/

/-- What the callers promise: distinct ids and a budget. -/
structure Request.Valid (request : Request F) : Prop where
  distinct : (request.candidates.map Candidate.globalInstrumentId).Nodup
  budget : 1 ≤ request.budget

namespace Request

variable {request : Request F}

theorem Valid.nodup (h : request.Valid) :
    (request.eligibleCandidates.map Candidate.globalInstrumentId).Nodup :=
  h.distinct.sublist (filter_sublist.map _)

theorem Valid.keys_eligible (h : request.Valid) :
    request.eligible.keys = request.eligibleCandidates.map Candidate.globalInstrumentId :=
  keys_ofList h.nodup

theorem Valid.size_eligible (h : request.Valid) :
    request.eligible.size = request.eligibleCandidates.length := by
  rw [← length_keys, h.keys_eligible, length_map]

theorem Valid.values_eligible (h : request.Valid) :
    request.eligible.values = request.eligibleCandidates := by
  rw [Dict.values, eligible, items_ofList h.nodup, map_map]
  exact map_id _

variable {c : Candidate F}

theorem Valid.get?_eligible (h : request.Valid) (hc : c ∈ request.eligibleCandidates) :
    request.eligible.get? c.globalInstrumentId = some c :=
  get?_ofList h.nodup hc

variable {key : String}

theorem Valid.mem_of_get? (h : request.Valid) (hget : request.eligible.get? key = some c) :
    c ∈ request.eligibleCandidates ∧ c.globalInstrumentId = key := by
  have hmem := mem_items_of_get? hget
  rw [eligible, items_ofList h.nodup, mem_map] at hmem
  obtain ⟨c', hc', heq⟩ := hmem
  obtain ⟨hkey, rfl⟩ := Prod.mk.inj heq
  exact ⟨hc', hkey⟩

/-- A selection of eligible instruments that leaves the reserve free. -/
structure Within (request : Request F) (selected : Selected F) : Prop where
  eligible : ∀ key ∈ selected.keys, key ∈ request.eligible.keys
  size : selected.size + request.reserve ≤ request.budget

theorem reserve_le_budget : request.reserve ≤ request.budget := by
  unfold reserve
  split <;> omega

/-! ### The walk of the rotation -/

/-- What a walk through `todo` does to a selection: it visits a prefix and adds what is new. -/
structure Walk (request : Request F) (todo : List String) (selected : Selected F)
    (cursor : Option String) (result : Selected F × Option String) (visited : List String) :
    Prop where
  isPrefix : visited <+: todo
  keys : result.1.keys = selected.keys ++ visited.filter (· ∉ selected.keys)
  cursor : result.2 = visited.getLast?.or cursor
  size : result.1.size ≤ request.budget
  /-- it only stops early on a full budget -/
  stops : visited = todo ∨ result.1.size = request.budget

theorem explore_walk (todo : List String) (selected : Selected F) (explored : Nat)
    (cursor : Option String) (hnodup : todo.Nodup) (hsize : selected.size ≤ request.budget)
    (hroom : selected.size + request.reserve ≤ request.budget + explored) :
    ∃ visited, request.Walk todo selected cursor (request.explore todo selected explored cursor)
      visited ∧ (explored < request.reserve → todo ≠ [] → visited ≠ []) := by
  induction todo generalizing selected explored cursor with
  | nil =>
    refine ⟨[], ⟨prefix_rfl, ?_, ?_, hsize, Or.inl rfl⟩, ?_⟩
    · simp [explore]
    · simp [explore]
    · intro _ hne
      exact absurd rfl hne
  | cons key rest ih =>
    rw [nodup_cons] at hnodup
    have hlast : ∀ visited : List String,
        (key :: visited).getLast?.or cursor = visited.getLast?.or (some key) := by
      intro visited
      rw [getLast?_cons]
      cases visited.getLast? <;> rfl
    by_cases hstop : request.reserve ≤ explored ∧ request.budget ≤ selected.size
    · have hrun : request.explore (key :: rest) selected explored cursor = (selected, cursor) := by
        simp only [explore, if_pos hstop]
      rw [hrun]
      refine ⟨[], ⟨List.nil_prefix, by simp, rfl, hsize, Or.inr ?_⟩, ?_⟩
      · exact le_antisymm hsize hstop.2
      · intro hlt
        omega
    · by_cases hmem : key ∈ selected.keys
      · have hrun : request.explore (key :: rest) selected explored cursor =
            request.explore rest selected explored (some key) := by
          simp only [explore, if_neg hstop, if_pos hmem]
        obtain ⟨visited, hwalk, -⟩ := ih selected explored (some key) hnodup.2 hsize hroom
        rw [hrun]
        refine ⟨key :: visited, ⟨?_, ?_, ?_, hwalk.size, ?_⟩, fun _ _ => cons_ne_nil _ _⟩
        · exact prefix_cons_inj key |>.mpr hwalk.isPrefix
        · rw [hwalk.keys, filter_cons_of_neg (by simpa using hmem)]
        · rw [hwalk.cursor, hlast]
        · rcases hwalk.stops with h | h
          · exact Or.inl (by rw [h])
          · exact Or.inr h
      · -- both numbers of the stopping test grow by one
        have hfresh : (rotationNomination key : CandidateNomination F).instrumentId ∉ selected.keys :=
          hmem
        have hadd : (add selected (rotationNomination key)).keys = selected.keys ++ [key] :=
          keys_add_of_notMem hfresh
        have hsizeAdd := size_add_of_notMem hfresh
        have hrun : request.explore (key :: rest) selected explored cursor =
            request.explore rest (add selected (rotationNomination key)) (explored + 1)
              (some key) := by
          simp only [explore, if_neg hstop, if_neg hmem]
        obtain ⟨visited, hwalk, -⟩ := ih (add selected (rotationNomination key)) (explored + 1)
          (some key) hnodup.2
          (by rw [hsizeAdd]; omega) (by rw [hsizeAdd]; omega)
        rw [hrun]
        refine ⟨key :: visited, ⟨?_, ?_, ?_, hwalk.size, ?_⟩, fun _ _ => cons_ne_nil _ _⟩
        · exact prefix_cons_inj key |>.mpr hwalk.isPrefix
        · rw [hwalk.keys, hadd, filter_cons_of_pos (by simpa using hmem), List.append_assoc]
          congr 1
          rw [singleton_append]
          congr 1
          refine filter_congr fun k hk => ?_
          have hne : k ≠ key := by
            rintro rfl
            exact hnodup.1 (hwalk.isPrefix.subset hk)
          simp [hne]
        · rw [hwalk.cursor, hlast]
        · rcases hwalk.stops with h | h
          · exact Or.inl (by rw [h])
          · exact Or.inr h

/-! ### The order of the rotation -/

theorem Valid.ids_perm (h : request.Valid) :
    request.ids.Perm (request.eligibleCandidates.map Candidate.globalInstrumentId) := by
  rw [← h.keys_eligible]
  exact sortOn_perm id _

theorem ids_pairwise : request.ids.Pairwise (· < ·) := by
  have hle := sortOn_pairwise id request.eligible.keys
  have hnodup : request.ids.Nodup :=
    (sortOn_perm id _).nodup_iff.mpr request.eligible.nodup_keys
  exact (hle.and hnodup).imp fun h => lt_of_le_of_ne h.1 h.2

theorem Valid.ids_eq {members : List String} (h : request.Valid)
    (hperm : (request.eligibleCandidates.map Candidate.globalInstrumentId).Perm members) :
    request.ids = sortOn id members := by
  refine sortOn_eq_of_perm ?_ ?_
  · rw [h.keys_eligible]
    exact hperm
  · rw [map_id]
    exact request.eligible.nodup_keys

/-! ### The whole universe, and the second round of nominations -/

theorem mem_foldl_setDefault (keys : List String) {selected : Selected F} :
    key ∈ (keys.foldl (fun selected key => selected.setDefault key Dict.empty) selected).keys ↔
      key ∈ selected.keys ∨ key ∈ keys := by
  induction keys generalizing selected with
  | nil => simp
  | cons k keys ih =>
    rw [foldl_cons, ih, mem_keys_setDefault, mem_cons, or_assoc]

theorem mem_keys_completed {selected : Selected F} : key ∈ (request.completed selected).keys ↔
      key ∈ selected.keys ∨ request.fullUniverse = true ∧ key ∈ request.eligible.keys := by
  unfold completed
  split
  · rename_i hfull
    rw [mem_foldl_setDefault]
    simp [hfull]
  · rename_i hfull
    simp [hfull]

/-- All the nominations read again, in the order of the selection. -/
def reread (request : Request F) (keys : List String) : List (CandidateNomination F) :=
  keys.flatMap fun key => (request.eligible.get? key).toList.flatMap request.readNominations

theorem renominated_eq (selected : Selected F) :
    request.renominated selected = (request.reread selected.keys).foldl add selected := by
  rw [reread, foldl_flatMap, renominated]
  congr 1
  funext selected key
  cases request.eligible.get? key <;> simp

theorem Valid.mem_reread (h : request.Valid) {keys : List String} {n : CandidateNomination F} :
    n ∈ request.reread keys ↔ ∃ c ∈ request.eligibleCandidates,
      c.globalInstrumentId ∈ keys ∧ n ∈ request.readNominations c := by
  simp only [reread, mem_flatMap, Option.mem_toList]
  constructor
  · rintro ⟨key, hkey, c, hc, hn⟩
    obtain ⟨hmem, rfl⟩ := h.mem_of_get? hc
    exact ⟨c, hmem, hkey, hn⟩
  · rintro ⟨c, hc, hkey, hn⟩
    exact ⟨c.globalInstrumentId, hkey, c, h.get?_eligible hc, hn⟩

theorem Valid.keys_renominated (h : request.Valid) (selected : Selected F) :
    (request.renominated selected).keys = selected.keys := by
  rw [renominated_eq]
  refine keys_foldl_add fun n hn => ?_
  obtain ⟨c, -, hkey, hn⟩ := h.mem_reread.mp hn
  rw [(mem_nominateCompact hn).1]
  exact hkey

theorem Valid.carries_renominated (h : request.Valid) {selected : Selected F}
    (hc : c ∈ request.eligibleCandidates) (hkey : c.globalInstrumentId ∈ selected.keys)
    {n : CandidateNomination F} (hn : n ∈ request.readNominations c) :
    Carries (request.renominated selected) n := by
  rw [renominated_eq]
  refine carries_foldl_add _ (Or.inl (h.mem_reread.mpr ⟨c, hc, hkey, hn⟩)) ?_
  intro m hm hid hpath
  obtain ⟨c', hc', -, hm⟩ := h.mem_reread.mp hm
  have hsame : c' = c := by
    refine inj_on_of_nodup_map h.nodup hc' hc ?_
    rw [← (mem_nominateCompact hm).1, ← (mem_nominateCompact hn).1, hid]
  rw [hsame] at hm
  exact nominateCompact_path_inj hm hn hpath

/-! ### Admission by priority -/

variable [PyFloat F]

variable {path : Path}

theorem mem_pool {budget : Nat} {pools : Pools F} {n m : CandidateNomination F}
    (h : m ∈ pool budget pools n path) : m ∈ pools path ∨ m = n := by
  unfold pool at h
  by_cases hpath : path = n.path
  · subst hpath
    rw [Function.update_self] at h
    have hmem := (sortOn_perm _ _).mem_iff.mp (mem_of_mem_take h)
    rcases mem_append.mp hmem with hmem | hmem
    · exact Or.inl hmem
    · exact Or.inr (mem_singleton.mp hmem)
  · rw [Function.update_of_ne hpath] at h
    exact Or.inl h

theorem mem_foldl_pool {budget : Nat} (batch : List (CandidateNomination F)) {pools : Pools F}
    {m : CandidateNomination F} (h : m ∈ batch.foldl (pool budget) pools path) :
    m ∈ pools path ∨ m ∈ batch := by
  induction batch generalizing pools with
  | nil => exact Or.inl h
  | cons n batch ih =>
    rcases ih h with hm | hm
    · rcases mem_pool hm with hm | rfl
      · exact Or.inl hm
      · exact Or.inr mem_cons_self
    · exact Or.inr (mem_cons_of_mem _ hm)

section

variable (h : request.Valid)
include h

theorem Valid.mem_pools {n : CandidateNomination F}
    (hn : n ∈ request.pools path) : n.instrumentId ∈ request.eligible.keys := by
  rcases mem_foldl_pool _ hn with hn | hn
  · cases hn
  · obtain ⟨c, hc, hn⟩ := mem_flatMap.mp hn
    rw [h.values_eligible] at hc
    rw [(mem_nominateCompact hn).1, h.keys_eligible]
    exact mem_map_of_mem hc

theorem Valid.within_admitStep {selected : Selected F}
    (hwithin : request.Within selected) (i : Nat) (path : Path) :
    request.Within (request.admitStep i selected path) := by
  unfold admitStep
  split
  · exact hwithin
  · rename_i n hn
    have heligible := h.mem_pools (mem_of_getElem? hn)
    split
    · rename_i hadmit
      by_cases hmem : n.instrumentId ∈ selected.keys
      · refine ⟨by rw [keys_add_of_mem hmem]; exact hwithin.eligible, ?_⟩
        rw [size_add_of_mem hmem]
        exact hwithin.size
      · refine ⟨?_, ?_⟩
        · rw [keys_add_of_notMem hmem]
          intro key hkey
          rcases mem_append.mp hkey with hkey | hkey
          · exact hwithin.eligible key hkey
          · rw [mem_singleton.mp hkey]
            exact heligible
        · rw [size_add_of_notMem hmem]
          have hroom := hadmit.resolve_right hmem
          omega
    · exact hwithin

theorem Valid.within_priority : request.Within request.priority := by
  have hempty : request.Within Dict.empty :=
    ⟨by simp, by simpa using reserve_le_budget⟩
  refine List.foldlRecOn (motive := request.Within) _ _ hempty fun selected hselected i _ => ?_
  refine List.foldlRecOn (motive := request.Within) _ _ hselected fun selected hselected path _ => ?_
  exact h.within_admitStep hselected i path

/-! ### The rotation -/

/-- The rotation walks from the selection by priority. -/
theorem Valid.explored_walk (rotationAfter : Option String) :
    ∃ visited, request.Walk (turn request.ids rotationAfter) request.priority
      rotationAfter (request.explored rotationAfter) visited ∧
      (request.ids ≠ [] → visited ≠ []) := by
  have hperm := turn_perm request.ids rotationAfter
  have hwithin := h.within_priority
  obtain ⟨visited, hwalk, hvisited⟩ := explore_walk
    (turn request.ids rotationAfter) request.priority 0 rotationAfter
    (hperm.nodup_iff.mpr (ids_pairwise.imp fun h => h.ne))
    (Nat.le_of_add_right_le hwithin.size) (by simpa using hwithin.size)
  refine ⟨visited, hwalk, fun hne => hvisited ?_ ?_⟩
  · have hsize : request.eligible.size ≠ 0 := by
      intro hzero
      refine hne (eq_nil_of_length_eq_zero ?_)
      rw [h.ids_perm.length_eq, length_map, ← h.size_eligible, hzero]
    have hbudget := h.budget
    unfold reserve
    rw [if_neg hsize]
    omega
  · intro hnil
    rw [hnil] at hperm
    exact hne hperm.symm.eq_nil

/-- What the rotation leaves: eligible instruments, as many as the budget and the universe
allow. -/
theorem Valid.explored_keys (rotationAfter : Option String) :
    (∀ key ∈ (request.explored rotationAfter).1.keys, key ∈ request.eligible.keys) ∧
      (request.explored rotationAfter).1.size =
        min request.budget request.eligibleCandidates.length := by
  obtain ⟨visited, hwalk, -⟩ := h.explored_walk rotationAfter
  have hturn : ∀ key, key ∈ turn request.ids rotationAfter ↔
      key ∈ request.eligible.keys := by
    intro key
    rw [(turn_perm _ _).mem_iff, h.ids_perm.mem_iff, h.keys_eligible]
  have hsub : ∀ key ∈ (request.explored rotationAfter).1.keys, key ∈ request.eligible.keys := by
    intro key hkey
    rw [hwalk.keys] at hkey
    rcases mem_append.mp hkey with hkey | hkey
    · exact h.within_priority.eligible key hkey
    · exact (hturn key).mp (hwalk.isPrefix.subset (mem_of_mem_filter hkey))
  refine ⟨hsub, ?_⟩
  have hle : (request.explored rotationAfter).1.size ≤ request.eligibleCandidates.length := by
    rw [← h.size_eligible, ← length_keys, ← length_keys]
    exact (subperm_of_subset (nodup_keys _) hsub).length_le
  have hbudget := hwalk.size
  rcases hwalk.stops with hall | hfull
  · -- the walk saw the whole universe
    have hge : request.eligibleCandidates.length ≤ (request.explored rotationAfter).1.size := by
      rw [← h.size_eligible, ← length_keys, ← length_keys]
      refine (subperm_of_subset (nodup_keys _) ?_).length_le
      intro key hkey
      rw [hwalk.keys, mem_append, mem_filter, hall, hturn]
      by_cases hmem : key ∈ request.priority.keys
      · exact Or.inl hmem
      · exact Or.inr ⟨hkey, by simpa using hmem⟩
    omega
  · omega

end

end Request

/-! ### Admission -/

/-- What a call returns: distinct eligible candidates, as many as it should, each with every
nomination `nominate_compact` yields for it. -/
structure Admits (request : Request F) (discovered : Discovered F) : Prop where
  distinct : (discovered.candidates.map Candidate.globalInstrumentId).Nodup
  eligible : ∀ c ∈ discovered.candidates, c ∈ request.eligibleCandidates
  count : request.fullUniverse = false → discovered.candidates.length =
    min request.budget request.eligibleCandidates.length
  everyone : request.fullUniverse = true →
    ∀ c ∈ request.eligibleCandidates, c ∈ discovered.candidates
  carries : ∀ c ∈ discovered.candidates, ∀ n ∈ request.readNominations c,
    ∃ records, discovered.nominations.get? c.globalInstrumentId = some records ∧
      n.toRecord ∈ records

section
variable [PyFloat F] {request : Request F}

/-- The selection a call ends with. -/
def finalSelection (request : Request F) (rotationAfter : Option String) : Selected F :=
  request.renominated (request.completed (request.explored rotationAfter).1)

section

variable (h : request.Valid)
include h

section

variable (rotationAfter : Option String)

theorem keys_finalSelection {key : String} : key ∈ (finalSelection request rotationAfter).keys ↔
      key ∈ (request.explored rotationAfter).1.keys ∨
        request.fullUniverse = true ∧ key ∈ request.eligible.keys := by
  rw [finalSelection, h.keys_renominated, Request.mem_keys_completed]

theorem mem_discovered {c : Candidate F} :
    c ∈ (discover request rotationAfter).candidates ↔ c ∈ request.eligibleCandidates ∧
      c.globalInstrumentId ∈ (finalSelection request rotationAfter).keys := by
  show c ∈ (finalSelection request rotationAfter).keys.filterMap request.eligible.get? ↔ _
  rw [mem_filterMap]
  constructor
  · rintro ⟨key, hkey, hget⟩
    obtain ⟨hmem, rfl⟩ := h.mem_of_get? hget
    exact ⟨hmem, hkey⟩
  · rintro ⟨hmem, hkey⟩
    exact ⟨c.globalInstrumentId, hkey, h.get?_eligible hmem⟩

/-- The candidates returned are those of the selection, in its order. -/
theorem ids_discovered :
    (discover request rotationAfter).candidates.map Candidate.globalInstrumentId =
      (finalSelection request rotationAfter).keys := by
  have hall : ∀ keys : List String, (∀ key ∈ keys, key ∈ request.eligible.keys) →
      (keys.filterMap request.eligible.get?).map Candidate.globalInstrumentId = keys := by
    intro keys hkeys
    induction keys with
    | nil => rfl
    | cons key keys ih =>
      obtain ⟨c, hc⟩ := Option.isSome_iff_exists.mp (isSome_get?.mpr (hkeys key mem_cons_self))
      rw [filterMap_cons_some hc, map_cons, (h.mem_of_get? hc).2,
        ih fun k hk => hkeys k (mem_cons_of_mem _ hk)]
  refine hall _ fun key hkey => ?_
  rcases (keys_finalSelection h rotationAfter).mp hkey with hkey | hkey
  · exact (h.explored_keys rotationAfter).1 key hkey
  · exact hkey.2

theorem admits_discover : Admits request (discover request rotationAfter) := by
  have hids := ids_discovered h rotationAfter
  refine ⟨?_, ?_, ?_, ?_, ?_⟩
  · rw [hids]
    exact nodup_keys _
  · intro c hc
    exact ((mem_discovered h rotationAfter).mp hc).1
  · intro hfull
    have hkeys : (finalSelection request rotationAfter).keys =
        (request.explored rotationAfter).1.keys := by
      rw [finalSelection, h.keys_renominated, Request.completed, hfull]
      rfl
    rw [← length_map (f := Candidate.globalInstrumentId), hids, hkeys, length_keys]
    exact (h.explored_keys rotationAfter).2
  · intro hfull c hc
    refine (mem_discovered h rotationAfter).mpr ⟨hc, ?_⟩
    refine (keys_finalSelection h rotationAfter).mpr (Or.inr ⟨hfull, ?_⟩)
    rw [h.keys_eligible]
    exact mem_map_of_mem hc
  · intro c hc n hn
    obtain ⟨hmem, hkey⟩ := (mem_discovered h rotationAfter).mp hc
    rw [finalSelection, h.keys_renominated] at hkey
    obtain ⟨values, hvalues, hcarried⟩ := h.carries_renominated hmem hkey hn
    rw [(mem_nominateCompact hn).1] at hvalues
    refine ⟨values.values.map CandidateNomination.toRecord, ?_, ?_⟩
    · have hitem := mem_items_of_get? hvalues
      have hget : (discover request rotationAfter).nominations.get? c.globalInstrumentId =
          some (values.values.map CandidateNomination.toRecord) :=
        get?_ofList (Dict.nodup _) hitem
      exact hget
    · refine mem_map_of_mem ?_
      exact mem_map_of_mem (f := Prod.snd) (mem_items_of_get? hcarried)

/-! ### Coverage -/

/-- One call is a turn of the round robin over its eligible instruments. -/
theorem serves_discover : ∃ visited, RoundRobin.Serves request.ids rotationAfter visited
        (discover request rotationAfter).cursor ∧
      ∀ key ∈ visited,
        key ∈ (discover request rotationAfter).candidates.map Candidate.globalInstrumentId := by
  obtain ⟨visited, hwalk, hvisited⟩ := h.explored_walk rotationAfter
  refine ⟨visited, ⟨hwalk.isPrefix, hvisited, ?_⟩, ?_⟩
  · intro hne
    show (request.explored rotationAfter).2 = _
    rw [hwalk.cursor, getLast?_eq_getLast_of_ne_nil hne]
    rfl
  · intro key hkey
    rw [ids_discovered h, keys_finalSelection h, hwalk.keys, mem_append, mem_filter]
    refine Or.inl ?_
    by_cases hmem : key ∈ request.priority.keys
    · exact Or.inl hmem
    · exact Or.inr ⟨hkey, by simpa using hmem⟩

end

end

/-- The calls over one eligible set. -/
def SameUniverse (members : List String) (requests : List (Request F)) : Prop :=
  ∀ request ∈ requests, request.Valid ∧
    (request.eligibleCandidates.map Candidate.globalInstrumentId).Perm members

theorem turns_discoverRuns {members : List String} (requests : List (Request F))
    (rotationAfter : Option String) (h : SameUniverse members requests) :
    ∃ turns, RoundRobin.Turns (sortOn id members) rotationAfter turns ∧
      turns.length = requests.length ∧
      ∀ turn ∈ turns, ∃ discovered ∈ discoverRuns requests rotationAfter, ∀ key ∈ turn.1,
        key ∈ discovered.candidates.map Candidate.globalInstrumentId := by
  induction requests generalizing rotationAfter with
  | nil => exact ⟨[], trivial, rfl, by simp⟩
  | cons request rest ih =>
    obtain ⟨hvalid, hperm⟩ := h request mem_cons_self
    obtain ⟨visited, hserves, hvisited⟩ := serves_discover hvalid rotationAfter
    obtain ⟨turns, hturns, hlength, hcovered⟩ := ih (discover request rotationAfter).cursor
      fun request' hrequest' => h request' (mem_cons_of_mem _ hrequest')
    rw [hvalid.ids_eq hperm] at hserves
    refine ⟨(visited, (discover request rotationAfter).cursor) :: turns, ⟨hserves, hturns⟩, ?_, ?_⟩
    · rw [length_cons, hlength, length_cons]
    · intro turn hturn
      rcases mem_cons.mp hturn with rfl | hturn
      · exact ⟨_, mem_cons_self, hvisited⟩
      · obtain ⟨discovered, hmem, hkeys⟩ := hcovered turn hturn
        exact ⟨discovered, mem_cons_of_mem _ hmem, hkeys⟩

theorem covered_discoverRuns {members : List String} {requests : List (Request F)}
    (rotationAfter : Option String) (h : SameUniverse members requests)
    (hlength : members.length ≤ requests.length) {key : String} (hkey : key ∈ members) :
    ∃ discovered ∈ discoverRuns requests rotationAfter,
      key ∈ discovered.candidates.map Candidate.globalInstrumentId := by
  have hne : requests ≠ [] := by
    intro hnil
    rw [hnil] at hlength
    exact absurd (length_pos_of_mem hkey) (by simpa using hlength)
  obtain ⟨request, hrequest⟩ := exists_mem_of_ne_nil requests hne
  obtain ⟨hvalid, hperm⟩ := h request hrequest
  have hsorted : (sortOn id members).Pairwise (· < ·) := by
    rw [← hvalid.ids_eq hperm]
    exact Request.ids_pairwise
  have hsortedPerm := sortOn_perm id members
  obtain ⟨turns, hturns, hcount, hcovered⟩ := turns_discoverRuns requests rotationAfter h
  obtain ⟨turn, hturn, hmem⟩ := served_within hsorted
    (hsortedPerm.mem_iff.mpr hkey) hturns (by rw [hsortedPerm.length_eq, hcount]; exact hlength)
  obtain ⟨discovered, hdiscovered, hkeys⟩ := hcovered turn hturn
  exact ⟨discovered, hdiscovered, hkeys key hmem⟩

end

/-- **Admission and coverage.**  A call admits exactly what its budget allows, or everything,
with every nomination; and the calls that hand their cursor on return every member of one
eligible set within as many calls as it has members. -/
theorem admission_and_coverage [PyFloat F] :
    (∀ (request : Request F) (rotationAfter : Option String), request.Valid →
      Admits request (discover request rotationAfter)) ∧
    (∀ (members : List String) (requests : List (Request F)) (rotationAfter : Option String),
      SameUniverse members requests → members.length ≤ requests.length →
        ∀ key ∈ members, ∃ discovered ∈ discoverRuns requests rotationAfter,
          key ∈ discovered.candidates.map Candidate.globalInstrumentId) :=
  ⟨fun _ rotationAfter h => admits_discover h rotationAfter,
    fun _ _ rotationAfter h hlength _ hkey =>
      covered_discoverRuns rotationAfter h hlength hkey⟩

/-- A request of two listed companies for a budget of one. -/
def twoListed : Request ℚ :=
  { candidates := [
      { globalInstrumentId := "1", eligibleForAcquisition := true, preScore := some 60
        dimensions := Dict.empty },
      { globalInstrumentId := "2", eligibleForAcquisition := true, preScore := none
        dimensions := Dict.empty }]
    marketPool := []
    budget := 1
    asOf := 0
    eventsFor := fun _ => none }

theorem admission_and_coverage_of_twoListed :
    twoListed.Valid ∧
    (∃ discovered ∈ discoverRuns [twoListed, twoListed] none,
      "2" ∈ discovered.candidates.map Candidate.globalInstrumentId) ∧
    (discover twoListed none).candidates.length = 1 := by
  have hvalid : twoListed.Valid := ⟨by decide, by decide⟩
  have hsame : SameUniverse ["1", "2"] [twoListed, twoListed] := by
    intro request hrequest
    have heq : request = twoListed := by simpa using hrequest
    subst heq
    exact ⟨hvalid, by decide⟩
  have hadmits := admission_and_coverage.1 twoListed none hvalid
  refine ⟨hvalid, ?_, hadmits.count rfl⟩
  exact admission_and_coverage.2 ["1", "2"] [twoListed, twoListed] none hsame (by decide) "2"
    (by decide)

end InvestmentPlatform.Discovery
