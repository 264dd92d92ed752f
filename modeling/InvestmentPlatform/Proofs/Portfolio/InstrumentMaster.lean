/-
The instrument master as a linkage.

A row is linked by its provider's identifier, by its listing as it is stored and by its ISIN.
With texts as the callers give them, each query of the service finds what the linkage looks up,
and each save does to the mappings what the linkage does to its entries.
-/
import InvestmentPlatform.Lib.LinkageOrder
import InvestmentPlatform.Portfolio.InstrumentMaster
import Mathlib.Data.List.Find

namespace InvestmentPlatform.Portfolio

open Fallible JavaText Linkage List Function MasterStore ProviderMapping

/-! ### Rows and their keys -/

/-- Provider, exchange and symbol, where neither of these two is null. -/
def listingOf (provider : String) (exchange symbol : Option String) :
    Option (String × String × String) :=
  exchange.bind fun e => symbol.map fun s => (provider, e, s)

theorem listingOf_eq_some {provider : String} {exchange symbol : Option String}
    {l : String × String × String} :
    listingOf provider exchange symbol = some l ↔
      l.1 = provider ∧ exchange = some l.2.1 ∧ symbol = some l.2.2 := by
  obtain ⟨p, e, s⟩ := l
  cases exchange with
  | none => simp [listingOf]
  | some e' =>
      cases symbol with
      | none => simp [listingOf]
      | some s' => simp [listingOf, eq_comm]

theorem listingOf_eq_none {provider : String} {exchange symbol : Option String} :
    listingOf provider exchange symbol = none ↔ exchange = none ∨ symbol = none := by
  cases exchange with
  | none => simp [listingOf]
  | some e =>
      cases symbol with
      | none => simp [listingOf]
      | some s => simp [listingOf]

/-- What the callers promise of a row: an identifier, a symbol only with its exchange, no text
of white space or with white space around it, and an ISIN only with confidence. -/
structure Row.WellFormed (row : Row) : Prop where
  providerId : present row.providerId = true
  listing : ∀ symbol, row.symbol = some symbol → isBlank symbol = false ∧ trim symbol = symbol ∧
    ∃ exchange, row.exchange = some exchange ∧ isBlank exchange = false ∧ trim exchange = exchange
  confidence : row.isin ≠ none → 9 / 10 ≤ row.confidence

theorem Row.WellFormed.exists_providerId {row : Row} (hwf : row.WellFormed) :
    ∃ id, row.providerId = some id := by
  have h := hwf.providerId
  cases hid : row.providerId with
  | none =>
      rw [hid] at h
      cases h
  | some id => exact ⟨id, rfl⟩

/-- Two mappings have one listing when no column of it is null, and all agree. -/
theorem listingOf_agree {p p' : String} {e e' s s' : Option String} :
    ((listingOf p' e' s').isSome = true ∧ listingOf p e s = listingOf p' e' s') ↔
      p = p' ∧ e.isSome = true ∧ e = e' ∧ s.isSome = true ∧ s = s' := by
  cases e with
  | none => cases hl : listingOf p' e' s' <;> simp [listingOf]
  | some e =>
      cases s with
      | none => cases hl : listingOf p' e' s' <;> simp [listingOf]
      | some s =>
          cases e' with
          | none => simp [listingOf]
          | some e' =>
              cases s' with
              | none => simp [listingOf]
              | some s' => simp [listingOf]

variable [Casing]

/-- What a row is looked up by. -/
def rowKeys : Keys Row (String × Option String) (String × String × String) String where
  id row := (row.provider, row.providerId)
  listing row := listingOf row.provider (upper row.exchange) (upper row.symbol)
  anchor row := normalizeIsin row.isin
  strong row := decide (9 / 10 ≤ row.confidence)

def ProviderMapping.entry (m : ProviderMapping) :
    Entry (String × Option String) (String × String × String) :=
  ⟨(m.provider, m.providerInstrumentId), listingOf m.provider m.exchange m.providerSymbol,
    m.instrumentId⟩

/-- The text stored in a column is its own upper case. -/
def Stored (value : Option String) : Prop := value.map Casing.toUpperCase = value

abbrev LinkState := State Row (String × Option String) (String × String × String) String

/-- The mappings are the entries, and each has a master among so many. -/
structure Mapped (masters : Nat) (table : List ProviderMapping)
    (entries : List (Entry (String × Option String) (String × String × String))) : Prop where
  mappings : table.map ProviderMapping.entry = entries
  stored : ∀ m ∈ table, Stored m.exchange ∧ Stored m.providerSymbol ∧ m.instrumentId < masters
  mappingIds : table.map ProviderMapping.mappingId = range table.length
  oneEntry : (table.map fun m => m.entry.id).Nodup

theorem Mapped.mono {masters masters' : Nat} {table : List ProviderMapping}
    {entries : List (Entry (String × Option String) (String × String × String))}
    (h : Mapped masters table entries) (hle : masters ≤ masters') :
    Mapped masters' table entries where
  mappings := h.mappings
  stored := by
    intro m hm
    obtain ⟨hexchange, hsymbol, hlt⟩ := h.stored m hm
    exact ⟨hexchange, hsymbol, Nat.lt_of_lt_of_le hlt hle⟩
  mappingIds := h.mappingIds
  oneEntry := h.oneEntry

/-- The tables hold what the linkage does. -/
structure Simulates (store : MasterStore) (s : LinkState) : Prop
    extends Mapped store.masters.length store.mappings s.entries where
  masters : store.masters.map Master.normalizedIsin = s.entities
  attached : store.attached = s.attached

theorem Simulates.empty : Simulates empty State.empty where
  masters := rfl
  mappings := rfl
  attached := rfl
  stored := fun m hm => by cases hm
  mappingIds := rfl
  oneEntry := nodup_nil

/-! ### Texts -/

theorem stored_upper (value : Option String) : Stored (upper value) := by
  rw [Stored, upper, Option.map_map]
  refine Option.map_congr fun text _ => ?_
  exact Casing.toUpperCase_idem (trim text)

/-- Only a text of white space normalizes to nothing for want of one. -/
theorem normalizeIsin_none : normalizeIsin none = none := rfl

variable {row : Row}

namespace Row.WellFormed

theorem strong_of_anchor (hwf : row.WellFormed) (h : rowKeys.anchor row ≠ none) :
    rowKeys.strong row = true := by
  refine decide_eq_true (hwf.confidence fun hnone => h ?_)
  show normalizeIsin row.isin = none
  rw [hnone]
  exact normalizeIsin_none

/-- A row with a symbol has a listing to look up. -/
theorem present_listing (hwf : row.WellFormed) :
    (present row.symbol && present row.exchange) = (rowKeys.listing row).isSome := by
  cases hsymbol : row.symbol with
  | none => simp [present, rowKeys, listingOf, upper, hsymbol]
  | some symbol =>
      obtain ⟨hblank, -, exchange, hexchange, hblank', -⟩ := hwf.listing symbol hsymbol
      simp [present, rowKeys, listingOf, upper, hsymbol, hexchange, hblank, hblank']

end Row.WellFormed

/-! ### Queries -/

theorem equalsIgnoreCase_iff {column : Option String} (hstored : Stored column) (text : String) :
    equalsIgnoreCase column (some text) = true ↔
      column = some (Casing.toUpperCase text) := by
  rw [equalsIgnoreCase, hstored, Bool.and_eq_true, decide_eq_true_eq, Option.map_some]
  constructor
  · exact fun h => h.2
  · intro h
    exact ⟨by rw [h, Option.isSome_some], h⟩

/-- The query by exchange and symbol asks for the listing of the row. -/
theorem listing_query (hwf : row.WellFormed) {m : ProviderMapping} (hexchange : Stored m.exchange)
    (hsymbol : Stored m.providerSymbol) {l : String × String × String}
    (hl : rowKeys.listing row = some l) {given : Option String}
    (hgiven : given = row.exchange ∨ given = upper row.exchange) :
    (decide (m.provider = row.provider) && equalsIgnoreCase m.exchange given &&
      equalsIgnoreCase m.providerSymbol row.symbol) = true ↔
      m.entry.listing = some l := by
  obtain ⟨hprovider, hl₁, hl₂⟩ := listingOf_eq_some.mp hl
  obtain ⟨symbol, hrow, hl₂⟩ := Option.map_eq_some_iff.mp hl₂
  obtain ⟨-, htrim, exchange, hrow', -, htrim'⟩ := hwf.listing symbol hrow
  rw [hrow', upper, Option.map_some, Option.some.injEq, htrim'] at hl₁
  rw [htrim] at hl₂
  have hexchange' : equalsIgnoreCase m.exchange given = true ↔
      m.exchange = some l.2.1 := by
    rcases hgiven with hgiven | hgiven
    · rw [hgiven, hrow', equalsIgnoreCase_iff hexchange, hl₁]
    · rw [hgiven, hrow', upper, Option.map_some, equalsIgnoreCase_iff hexchange, htrim',
        Casing.toUpperCase_idem, hl₁]
  rw [Bool.and_eq_true, Bool.and_eq_true, decide_eq_true_eq, hexchange', hrow,
    equalsIgnoreCase_iff hsymbol, hl₂, entry, listingOf_eq_some, hprovider,
    and_assoc, eq_comm]

variable {store : MasterStore} {s : LinkState}

namespace Simulates

/-- A query for a listed row, by the exchange as given or as stored. -/
def listingQuery (store : MasterStore) (row : Row) (given : Option String) :
    Option ProviderMapping :=
  if present row.symbol && present row.exchange then
    store.findByProviderAndExchangeAndProviderSymbol row.provider given row.symbol
  else none

theorem listingQuery_eq (h : Simulates store s) (hwf : row.WellFormed) {given : Option String}
    (hgiven : given = row.exchange ∨ given = upper row.exchange) :
    (listingQuery store row given).map entry
      = (rowKeys.listing row).bind fun l => s.entries.find? fun e => e.listing = some l := by
  rw [listingQuery, hwf.present_listing]
  cases hl : rowKeys.listing row with
  | none => rfl
  | some l =>
      rw [Option.isSome_some, if_pos rfl, Option.bind_some, ← h.mappings, find?_map]
      refine congrArg _ (find?_congr fun m hm => ?_)
      obtain ⟨hexchange, hsymbol, -⟩ := h.stored m hm
      rw [Bool.eq_iff_iff, listing_query hwf hexchange hsymbol hl hgiven]
      simp

theorem idQuery_eq (h : Simulates store s) (hwf : row.WellFormed) : (if present row.providerId then
      store.findByProviderAndProviderInstrumentId row.provider row.providerId else none).map
        entry = s.entries.find? fun e => e.id = rowKeys.id row := by
  rw [if_pos hwf.providerId, ← h.mappings, find?_map]
  refine congrArg _ (find?_congr fun m _ => ?_)
  show (decide (m.provider = row.provider) && decide (m.providerInstrumentId = row.providerId))
    = decide ((m.provider, m.providerInstrumentId) = (row.provider, row.providerId))
  rw [Bool.eq_iff_iff, Bool.and_eq_true, decide_eq_true_eq, decide_eq_true_eq, decide_eq_true_eq,
    Prod.mk.injEq]

/-- The mapping that is found is the entry that matches. -/
theorem existingMapping_eq (h : Simulates store s) (hwf : row.WellFormed) :
    (existingMapping store row).map entry = rowKeys.matching s row := by
  rw [existingMapping, Option.map_or, h.idQuery_eq hwf, Keys.matching]
  exact congrArg _ (h.listingQuery_eq hwf (Or.inr rfl))

theorem mem_of_existingMapping {m : ProviderMapping} (hm : existingMapping store row = some m) :
    m ∈ store.mappings := by
  rw [existingMapping, Option.or_eq_some_iff] at hm
  rcases hm with hid | ⟨-, hlisting⟩
  · split at hid
    · exact mem_of_find?_eq_some hid
    · cases hid
  · split at hlisting
    · exact mem_of_find?_eq_some hlisting
    · cases hlisting

section

variable (h : Simulates store s)
include h

/-- A mapping's master is there. -/
theorem bind_findById {found : Option ProviderMapping}
    (hmem : ∀ m, found = some m → m ∈ store.mappings) :
    (found.bind fun m => store.findById m.instrumentId)
      = (found.map entry).map Entry.entity := by
  cases found with
  | none => rfl
  | some m =>
      have hlt := (h.stored m (hmem m rfl)).2.2
      rw [Option.bind_some, findById, if_pos hlt]
      rfl

theorem foundIsin_eq :
    (normalizeIsin row.isin).bind store.findByNormalizedIsin = rowKeys.byAnchor s row := by
  rw [Keys.byAnchor]
  refine Option.bind_congr fun isin _ => ?_
  rw [findByNormalizedIsin, ← h.masters, findIdx?_map]
  rfl

/-- The master that is found is where the row is located. -/
theorem foundMaster_eq (hwf : row.WellFormed) : foundMaster store row = rowKeys.located s row := by
  rw [foundMaster, Keys.located, h.foundIsin_eq, Keys.matching, Option.map_or]
  refine congrArg _ (congrArg₂ _ ?_ ?_)
  · rw [← h.idQuery_eq hwf, if_pos hwf.providerId, if_pos hwf.providerId]
    exact h.bind_findById fun m hm => mem_of_find?_eq_some hm
  · rw [← h.listingQuery_eq hwf (Or.inl rfl), ← h.bind_findById fun m hm => ?_]
    · rw [listingQuery]
      split
      · rfl
      · rfl
    · rw [listingQuery] at hm
      split at hm
      · exact mem_of_find?_eq_some hm
      · cases hm

/-! ### Saving -/

theorem length_masters : store.masters.length = s.entities.length := by
  rw [← h.masters, length_map]

theorem located_lt (hwf : row.WellFormed) {id : Nat}
    (hid : rowKeys.located s row = some id) : id < s.entities.length := by
  rw [Keys.located, Option.or_eq_some_iff] at hid
  rcases hid with hanchor | ⟨-, hmatching⟩
  · obtain ⟨i, -, hget⟩ := rowKeys.getElem_of_byAnchor hanchor
    exact (List.getElem?_eq_some_iff.mp hget).1
  · rw [← h.existingMapping_eq hwf, Option.map_map, Option.map_eq_some_iff] at hmatching
    obtain ⟨m, hm, rfl⟩ := hmatching
    rw [← h.length_masters]
    exact (h.stored m (mem_of_existingMapping hm)).2.2

end

theorem create_of_free {isin : Option String} (hfree : (isin.isSome &&
    store.masters.any fun other => other.normalizedIsin = isin) = false) :
    createConcurrentlySafe store row isin
      = .ok (store.masters.length, store.masters ++ [newMaster row isin]) := by
  rw [createConcurrentlySafe, hfree]
  rfl

/-- The identifier that `resolveAndAttach` goes on with, and the masters then. -/
theorem master_eq (h : Simulates store s) (hwf : row.WellFormed) :
    ∃ masters, findOrCreate store row = .ok (rowKeys.owner s row, masters) ∧
      masters.map Master.normalizedIsin = rowKeys.withOwner s row ∧
      rowKeys.owner s row < masters.length := by
  rw [findOrCreate, h.foundMaster_eq hwf]
  cases hlocated : rowKeys.located s row with
  | some id =>
      refine ⟨store.masters, ?_, ?_, ?_⟩
      · simp only [Keys.owner, hlocated, Option.getD_some]
      · rw [Keys.withOwner, hlocated, Option.isSome_some, if_pos rfl, h.masters]
      · rw [Keys.owner, hlocated, Option.getD_some, h.length_masters]
        exact h.located_lt hwf hlocated
  | none =>
      have hanchor : rowKeys.byAnchor s row = none := by
        rw [Keys.located, Option.or_eq_none_iff] at hlocated
        exact hlocated.1
      -- no master has the ISIN, so the insert goes through
      have hfree : ((normalizeIsin row.isin).isSome &&
          store.masters.any fun other => other.normalizedIsin = normalizeIsin row.isin) = false := by
        rw [Bool.and_eq_false_imp]
        intro hsome
        obtain ⟨isin, hisin⟩ := Option.isSome_iff_exists.mp hsome
        rw [any_eq_false]
        intro other hother
        rw [decide_eq_true_eq, hisin]
        intro heq
        apply Keys.byAnchor_eq_none rowKeys |>.mp hanchor isin hisin
        rw [← h.masters, ← heq]
        exact mem_map_of_mem hother
      refine ⟨store.masters ++ [newMaster row (normalizeIsin row.isin)], ?_, ?_, ?_⟩
      · rw [Keys.owner, hlocated, Option.getD_none, ← h.length_masters]
        exact create_of_free hfree
      · rw [Keys.withOwner, hlocated, map_append, h.masters, map_singleton]
        rfl
      · rw [Keys.owner, hlocated, Option.getD_none, ← h.length_masters, length_append]
        exact Nat.lt_succ_self _

/-! ### Saving -/

/-- A mapping is told by its identifier, and by its provider's. -/
theorem same_mapping (h : Simulates store s) {m m' : ProviderMapping} (hm : m ∈ store.mappings)
    (hm' : m' ∈ store.mappings) : m.mappingId = m'.mappingId ↔ m.entry.id = m'.entry.id := by
  have hnodup : (store.mappings.map mappingId).Nodup := by
    rw [h.mappingIds]
    exact nodup_range
  constructor
  · intro hid
    rw [inj_on_of_nodup_map hnodup hm hm' hid]
  · intro hid
    rw [inj_on_of_nodup_map h.oneEntry hm hm' hid]

theorem sameKeys_iff (m : ProviderMapping) {saved : ProviderMapping} (hkeys : saved.entry.pair = rowKeys.pair row)
    (hwf : row.WellFormed) :
    (decide (m.provider = saved.provider) &&
      ((m.providerInstrumentId.isSome && m.providerInstrumentId = saved.providerInstrumentId) ||
        (m.exchange.isSome && m.exchange = saved.exchange && m.providerSymbol.isSome &&
          m.providerSymbol = saved.providerSymbol))) = true ↔
      m.entry.id = rowKeys.id row ∨
        ((rowKeys.listing row).isSome = true ∧ m.entry.listing = rowKeys.listing row) := by
  obtain ⟨hid, hlisting⟩ := Prod.mk.inj hkeys
  obtain ⟨hprovider, hproviderId⟩ := Prod.mk.inj hid
  obtain ⟨id, hsome⟩ := hwf.exists_providerId
  have hbyId : m.entry.id = rowKeys.id row ↔ m.provider = saved.provider ∧
      (m.providerInstrumentId.isSome = true ∧
        m.providerInstrumentId = saved.providerInstrumentId) := by
    rw [hprovider, hproviderId, entry, rowKeys, Prod.mk.injEq]
    refine and_congr_right fun _ => ⟨fun heq => ⟨?_, heq⟩, fun heq => heq.2⟩
    rw [heq, hsome, Option.isSome_some]
  have hbyListing : ((rowKeys.listing row).isSome = true ∧ m.entry.listing = rowKeys.listing row) ↔
      m.provider = saved.provider ∧ (m.exchange.isSome = true ∧ m.exchange = saved.exchange ∧
        m.providerSymbol.isSome = true ∧ m.providerSymbol = saved.providerSymbol) := by
    rw [← hlisting]
    exact listingOf_agree
  rw [hbyId, hbyListing, ← and_or_left]
  simp only [Bool.and_eq_true, Bool.or_eq_true, decide_eq_true_eq, and_assoc]

/-- A save is refused where the linkage sees the keys of the row in another entry. -/
theorem violatesUnique_eq (h : Simulates store s) {m saved : ProviderMapping}
    (hm : m ∈ store.mappings) (hid : saved.mappingId = m.mappingId)
    (hkeys : saved.entry.pair = rowKeys.pair row) (hwf : row.WellFormed) :
    store.violatesUnique saved = rowKeys.clashes s row m.entry.id := by
  rw [violatesUnique, Keys.clashes, ← h.mappings, any_map, Bool.eq_iff_iff,
    any_eq_true, any_eq_true]
  refine exists_congr fun m' => and_congr_right fun hm' => ?_
  have hother : m'.mappingId ≠ saved.mappingId ↔ m'.entry.id ≠ m.entry.id := by
    rw [hid]
    exact not_congr (h.same_mapping hm' hm)
  have hsame := sameKeys_iff (m := m') hkeys hwf
  simp only [ne_eq, decide_not, Bool.and_eq_true, Bool.or_eq_true, Bool.not_eq_true',
    decide_eq_false_iff_not, decide_eq_true_eq, comp_apply, and_assoc] at hsame ⊢
  rw [hsame]
  exact and_congr_left fun _ => hother

/-- A mapping that matches is of the row's provider. -/
theorem provider_eq (h : Simulates store s) (hwf : row.WellFormed) {m : ProviderMapping}
    (hm : existingMapping store row = some m) : m.provider = row.provider := by
  have hmatching : rowKeys.matching s row = some m.entry := by
    rw [← h.existingMapping_eq hwf, hm, Option.map_some]
  rcases (rowKeys.mem_of_matching hmatching).2 with hid | ⟨hlisting, hsome⟩
  · exact congrArg Prod.fst hid
  · obtain ⟨l, hl⟩ := Option.ne_none_iff_exists'.mp hsome
    have hmine : rowKeys.listing row = some l := hlisting.symm.trans hl
    exact (listingOf_eq_some.mp hl).1.symm.trans (listingOf_eq_some.mp hmine).1

end Simulates

theorem exchange_markVerified (m : ProviderMapping) (row : Row) : (m.markVerified row).exchange
    = if present (upper row.exchange) then upper row.exchange else m.exchange := rfl

/-- A verified mapping has the keys of the row. -/
theorem entry_markVerified (hwf : row.WellFormed) {m : ProviderMapping}
    (hprovider : m.provider = row.provider) :
    (m.markVerified row).entry = rowKeys.entry row m.instrumentId := by
  have hlisting : listingOf m.provider (m.markVerified row).exchange (upper row.symbol)
      = rowKeys.listing row := by
    cases hsymbol : row.symbol with
    | none =>
        rw [show upper none = none from rfl, listingOf_eq_none.mpr (Or.inr rfl)]
        exact (listingOf_eq_none.mpr (Or.inr (by rw [hsymbol]; rfl))).symm
    | some symbol =>
        obtain ⟨-, -, exchange, hexchange, hblank, htrim⟩ := hwf.listing symbol hsymbol
        have hpresent : present (upper row.exchange) = true := by
          rw [hexchange, upper, Option.map_some, present, htrim, Casing.isBlank_toUpperCase, hblank]
          rfl
        rw [exchange_markVerified, if_pos hpresent, hprovider, ← hsymbol]
        rfl
  rw [entry, Keys.entry, Entry.mk.injEq]
  refine ⟨?_, hlisting, rfl⟩
  rw [markVerified, if_pos hwf.providerId, hprovider]
  rfl

variable (row) in
theorem stored_markVerified {m : ProviderMapping} (hm : Stored m.exchange) :
    Stored (m.markVerified row).exchange ∧ Stored (m.markVerified row).providerSymbol := by
  refine ⟨?_, stored_upper row.symbol⟩
  rw [exchange_markVerified]
  split
  · exact stored_upper row.exchange
  · exact hm

namespace Simulates

section

variable (h : Simulates store s)
include h

section

variable (hwf : row.WellFormed)
include hwf

/-- Saving a mapping for a row that matches none. -/
theorem save_new (hnone : rowKeys.matching s row = none) {id masters : Nat}
    (hle : store.masters.length ≤ masters) (hid : id < masters) :
    ∃ table, saveMapping store (newMapping store id row) = .ok table ∧
      Mapped masters table (s.entries ++ [rowKeys.entry row id]) := by
  have hunmet : ∀ m ∈ store.mappings, ¬ Meets m.entry.pair (rowKeys.pair row) := by
    intro m hm
    apply rowKeys.matching_eq_none.mp hnone
    rw [← h.mappings]
    exact mem_map_of_mem hm
  have hfree : store.violatesUnique (newMapping store id row) = false := by
    rw [violatesUnique, any_eq_false]
    intro m hm hsame
    apply hunmet m hm
    have hkeys := (sameKeys_iff m rfl hwf).mp (by
      simp only [Bool.and_eq_true] at hsame ⊢
      exact ⟨hsame.1.2, hsame.2⟩)
    rcases hkeys with hid | ⟨hsome, hlisting⟩
    · exact Or.inl hid
    · refine Or.inr ⟨hlisting, Option.isSome_iff_ne_none.mp ?_⟩
      rw [Entry.pair, hlisting]
      exact hsome
  have hfresh : (store.mappings.any fun m =>
      m.mappingId = (newMapping store id row).mappingId) = false := by
    rw [any_eq_false]
    intro m hm
    rw [decide_eq_true_eq]
    have hlt : m.mappingId ∈ range store.mappings.length := by
      rw [← h.mappingIds]
      exact mem_map_of_mem hm
    rw [mem_range] at hlt
    exact Nat.ne_of_lt hlt
  refine ⟨store.mappings ++ [newMapping store id row], ?_, ?_⟩
  · rw [saveMapping, hfree, hfresh]
    rfl
  · constructor
    · rw [map_append, h.mappings]
      rfl
    · intro m hm
      rcases mem_append.mp hm with hm | hm
      · obtain ⟨hexchange, hsymbol, hlt⟩ := h.stored m hm
        exact ⟨hexchange, hsymbol, Nat.lt_of_lt_of_le hlt hle⟩
      · rw [mem_singleton] at hm
        rw [hm]
        exact ⟨stored_upper row.exchange, stored_upper row.symbol, hid⟩
    · rw [map_append, h.mappingIds, length_append, length_singleton, range_succ]
      rfl
    · rw [map_append, nodup_append]
      refine ⟨h.oneEntry, nodup_singleton _, ?_⟩
      intro key hkey key' hkey' heq
      obtain ⟨m, hm, rfl⟩ := mem_map.mp hkey
      rw [map_singleton, mem_singleton] at hkey'
      exact hunmet m hm (Or.inl (heq.trans hkey'))

/-- Saving a mapping that a row has verified. -/
theorem save_verified {m : ProviderMapping}
    (hm : existingMapping store row = some m) {masters : Nat}
    (hle : store.masters.length ≤ masters) (hid : m.instrumentId < masters) :
    Matches (Mapped masters) (saveMapping store (m.markVerified row))
      (if rowKeys.clashes s row m.entry.id then none
        else some (rowKeys.overwritten s row m.entry.id m.instrumentId)) := by
  have hmem := mem_of_existingMapping hm
  have hentry := entry_markVerified hwf (h.provider_eq hwf hm)
  have hviolates : store.violatesUnique (m.markVerified row) = rowKeys.clashes s row m.entry.id :=
    h.violatesUnique_eq hmem rfl (by rw [hentry]; rfl) hwf
  cases hclash : rowKeys.clashes s row m.entry.id with
  | true =>
      rw [saveMapping, hviolates, hclash]
      exact trivial
  | false =>
      have hthere : (store.mappings.any fun m' =>
          m'.mappingId = (m.markVerified row).mappingId) = true := by
        rw [any_eq_true]
        exact ⟨m, hmem, decide_eq_true rfl⟩
      rw [saveMapping, hviolates, hclash, hthere]
      have hunmet := (rowKeys.clashes_eq_false).mp hclash
      -- what is saved in the place of `m'`
      have hkey : ∀ m' ∈ store.mappings,
          (if m'.mappingId = m.mappingId then m.markVerified row else m').entry
            = if m'.entry.id = m.entry.id then rowKeys.entry row m.instrumentId else m'.entry := by
        intro m' hm'
        by_cases hsame : m'.mappingId = m.mappingId
        · rw [if_pos hsame, if_pos ((h.same_mapping hm' hmem).mp hsame), hentry]
        · rw [if_neg hsame, if_neg (mt (h.same_mapping hm' hmem).mpr hsame)]
      show Mapped masters (store.mappings.map fun m' =>
        if m'.mappingId = m.mappingId then m.markVerified row else m') _
      constructor
      · rw [map_map, Keys.overwritten, ← h.mappings, map_map]
        exact map_congr_left hkey
      · intro m₁ hm₁
        obtain ⟨m', hm', rfl⟩ := mem_map.mp hm₁
        obtain ⟨hexchange, hsymbol, hlt⟩ := h.stored m' hm'
        split
        · obtain ⟨hverified, hverified'⟩ := stored_markVerified row (h.stored m hmem).1
          exact ⟨hverified, hverified', hid⟩
        · exact ⟨hexchange, hsymbol, Nat.lt_of_lt_of_le hlt hle⟩
      · rw [map_map, length_map, ← h.mappingIds]
        refine map_congr_left fun m' _ => ?_
        by_cases hsame : m'.mappingId = m.mappingId
        · rw [comp_apply, if_pos hsame]
          exact hsame.symm
        · rw [comp_apply, if_neg hsame]
      · rw [map_map]
        refine Nodup.map_on ?_ (Nodup.of_map _ h.oneEntry)
        intro m₁ hm₁ m₂ hm₂ heq
        have hunmet' : ∀ m' ∈ store.mappings, m'.entry.id ≠ m.entry.id →
            m'.entry.id ≠ rowKeys.id row := by
          intro m' hm' hne hid
          refine hunmet m'.entry ?_ hne (Or.inl hid)
          rw [← h.mappings]
          exact mem_map_of_mem hm'
        simp only [comp_apply, hkey m₁ hm₁, hkey m₂ hm₂] at heq
        apply inj_on_of_nodup_map h.oneEntry hm₁ hm₂
        by_cases h₁ : m₁.entry.id = m.entry.id
        · by_cases h₂ : m₂.entry.id = m.entry.id
          · exact h₁.trans h₂.symm
          · rw [if_pos h₁, if_neg h₂] at heq
            exact absurd heq.symm (hunmet' m₂ hm₂ h₂)
        · by_cases h₂ : m₂.entry.id = m.entry.id
          · rw [if_neg h₁, if_pos h₂] at heq
            exact absurd heq (hunmet' m₁ hm₁ h₁)
          · rw [if_neg h₁, if_neg h₂] at heq
            exact heq

/-- **Persisting the mapping of a row does to the mappings what recording it does.** -/
theorem persistMapping_matches {id masters : Nat}
    (hle : store.masters.length ≤ masters) (hid : id < masters) :
    Matches (Mapped masters) (persistMapping store id row) (rowKeys.recorded s row id) := by
  have hmatching := h.existingMapping_eq hwf
  cases hm : existingMapping store row with
  | none =>
      rw [hm, Option.map_none] at hmatching
      obtain ⟨table, htable, hmapped⟩ := h.save_new hwf hmatching.symm hle hid
      rw [persistMapping, hm, Keys.recorded, ← hmatching]
      simp only [htable]
      exact hmapped
  | some m =>
      rw [hm, Option.map_some] at hmatching
      rw [persistMapping, hm, Keys.recorded, ← hmatching]
      simp only
      by_cases hmaster : m.instrumentId = id
      · have hstatus : status row = "VERIFIED" ↔ rowKeys.strong row = true := by
          rw [status, rowKeys, decide_eq_true_eq]
          by_cases hconfidence : 9 / 10 ≤ row.confidence
          · simp [hconfidence]
          · simp [hconfidence]
        have hentity : m.entry.entity = id := hmaster
        have hraise : raiseIf (m.instrumentId ≠ id) ResolveError.ambiguousProviderMapping
            = .ok () := if_neg (not_not_intro hmaster)
        rw [if_neg (not_not_intro hentity), hraise]
        by_cases hstrong : rowKeys.strong row = true
        · rw [if_pos hstrong]
          subst hmaster
          have hsaved := h.save_verified hwf hm hle hid
          simpa [hstatus.mpr hstrong, bind, Except.bind] using hsaved
        · rw [if_neg hstrong]
          have hkept : Mapped masters store.mappings s.entries := h.toMapped.mono hle
          simp only [mt hstatus.mp hstrong, if_false, bind, Except.bind]
          exact hkept
      · have hraise : raiseIf (m.instrumentId ≠ id) ResolveError.ambiguousProviderMapping
            = .error .ambiguousProviderMapping := if_pos hmaster
        have hentity : m.entry.entity ≠ id := hmaster
        rw [if_pos hentity, hraise]
        exact trivial

/-- **A call does to the tables what linking the row does.** -/
theorem resolveAndAttach_matches :
    Matches Simulates (resolveAndAttach store row) (rowKeys.link s row) := by
  obtain ⟨masters, hmaster, hisins, hlt⟩ := h.master_eq hwf
  have hle : store.masters.length ≤ masters.length := by
    rw [h.length_masters, ← (length_map _ : (masters.map Master.normalizedIsin).length = masters.length), hisins]
    exact rowKeys.length_le_withOwner
  have hpersist := h.persistMapping_matches hwf hle hlt
  rw [resolveAndAttach, hmaster, Keys.link]
  cases htable : persistMapping store (rowKeys.owner s row) row with
  | error e =>
      rw [htable] at hpersist
      cases hrecorded : rowKeys.recorded s row (rowKeys.owner s row) with
      | none => simp [bind, Except.bind, htable, Matches]
      | some entries =>
          rw [hrecorded] at hpersist
          exact hpersist.elim
  | ok table =>
      obtain ⟨entries, hrecorded, hmapped⟩ := hpersist.ok htable
      rw [hrecorded, Option.map_some]
      simp only [bind, Except.bind, htable]
      exact { toMapped := hmapped, masters := hisins, attached := by rw [h.attached] }

end

end

end Simulates

/-- **Any calls do to the tables what linking the rows does.** -/
theorem resolveAll_matches {rows : List Row} (hwf : ∀ row ∈ rows, row.WellFormed) :
    Matches Simulates (resolveAll empty rows) (rowKeys.linkAll State.empty rows) :=
  Matches.foldlM (fun row hrow _ _ h => h.resolveAndAttach_matches (hwf row hrow)) Simulates.empty

end InvestmentPlatform.Portfolio

/-!
When instrument identity does not depend on the order of the rows.

Rows with consistent evidence can still end up apart, or fail.  A row that brings a second
identifier to a listing makes two mappings, and the next row with the keys of both cannot be
saved; and an ISIN that arrives after its instrument has a master never gets to that master, so
a row that has only the ISIN to go by gets another.  Where the rows leave neither to happen every
order resolves them alike.
-/

namespace InvestmentPlatform.Portfolio

open Fallible JavaText Linkage

theorem wellFormed_of_perm {rows order : List Row} (hwf : ∀ row ∈ rows, row.WellFormed)
    (hperm : order.Perm rows) : ∀ row ∈ order, row.WellFormed :=
  fun row hrow => hwf row (hperm.mem_iff.mp hrow)

section Rows

variable [Casing] {J : Type} {instrument : Row → J} {rows : List Row}

/-! ### Resolved rows -/

/-- The rows have masters, those of one instrument apart from those of another, and no master or
mapping is there twice. -/
structure Resolved (instrument : Row → J) (rows : List Row) (store : MasterStore) : Prop where
  attached : ∀ row ∈ rows, ∃ id, store.attached.get? row = some id
  apart : ∀ row ∈ rows, ∀ other ∈ rows,
    store.attached.get? row = store.attached.get? other → instrument row = instrument other
  oneMaster : (store.masters.filterMap Master.normalizedIsin).Nodup
  oneMapping : (store.mappings.map fun m => (m.provider, m.providerInstrumentId)).Nodup
  oneListing : (store.mappings.filterMap fun m =>
    listingOf m.provider m.exchange m.providerSymbol).Nodup

/-- Every order resolves the rows, and any two orders into the same parts. -/
structure OrderIndependent (instrument : Row → J) (rows : List Row) : Prop where
  resolves : ∀ order : List Row, order.Perm rows →
    ∃ store, resolveAll MasterStore.empty order = .ok store ∧ Resolved instrument rows store
  agrees : ∀ order order' : List Row, order.Perm rows → order'.Perm rows → ∀ store store',
    resolveAll MasterStore.empty order = .ok store →
    resolveAll MasterStore.empty order' = .ok store' → ∀ row ∈ rows, ∀ other ∈ rows,
    (store.attached.get? row = store.attached.get? other ↔
      store'.attached.get? row = store'.attached.get? other)

/-- At the end of an order the rows are resolved, if the linkage kept its invariant. -/
theorem resolved_of_inv (hcons : rowKeys.Consistent instrument rows) {store : MasterStore}
    {s : LinkState} (hsim : Simulates store s) (inv : rowKeys.Inv rows s)
    (hall : ∀ row ∈ rows, ∃ id, s.attached.get? row = some id) :
    Resolved instrument rows store where
  attached := by
    rw [hsim.attached]
    exact hall
  apart := by
    intro row hrow other hother heq
    obtain ⟨id, hid⟩ := hall row hrow
    obtain ⟨id', hid'⟩ := hall other hother
    rw [hsim.attached, inv.attached_eq_iff hid hid'] at heq
    exact heq.real_eq hcons hrow hother
  oneMaster := by
    have hone := inv.oneEntity
    rw [← hsim.masters, List.filterMap_map] at hone
    exact hone
  oneMapping := hsim.oneEntry
  oneListing := by
    have hapart := inv.apart
    rw [← hsim.mappings, List.pairwise_map] at hapart
    rw [List.Nodup, List.pairwise_filterMap]
    refine hapart.imp fun {m m'} hnot l hl l' hl' heq => hnot (Or.inr ⟨?_, ?_⟩)
    · exact hl.trans (heq ▸ hl'.symm)
    · rw [Entry.pair]
      exact fun hnone => by cases hnone.symm.trans hl

end Rows

/-! ### An ISIN that comes late -/

attribute [local instance] asciiCasing

/-- A share at the broker, with the ISIN or without. -/
def brokerRow (id : String) (isin : Option String) : Row where
  isin := isin
  provider := "IBKR"
  providerId := some id
  symbol := some "INFY"
  exchange := some "NSE"
  source := "BROKER_API"
  confidence := 99 / 100

/-- The same share in an imported file. -/
def importedRow : Row where
  isin := some "INE009A01021"
  provider := "ICICI_DIRECT"
  providerId := some "ISIN:INE009A01021"
  symbol := some "INFTEC"
  exchange := some "UNKNOWN"
  source := "MANUAL_CSV_IMPORT"
  confidence := 99 / 100

theorem wellFormed_brokerRow {id : String} (hid : isBlank id = false) (isin : Option String) :
    (brokerRow id isin).WellFormed where
  providerId := by
    show (!isBlank id) = true
    rw [hid]
    rfl
  listing := by
    rintro symbol ⟨⟩
    exact ⟨by rfl, by rfl, "NSE", rfl, by rfl, by rfl⟩
  confidence := by
    intro _
    have hconfidence : (9 : ℚ) / 10 ≤ 99 / 100 := by decide +kernel
    exact hconfidence

theorem wellFormed_importedRow : importedRow.WellFormed where
  providerId := by rfl
  listing := by
    rintro symbol ⟨⟩
    exact ⟨by rfl, by rfl, "UNKNOWN", rfl, by rfl, by rfl⟩
  confidence := fun _ => by decide +kernel

/-- Rows of one instrument are consistent when none of them has another ISIN. -/
theorem consistent_of_isin {rows : List Row} {isin : String}
    (h : ∀ row ∈ rows, ∀ i, normalizeIsin row.isin = some i → i = isin) :
    rowKeys.Consistent (fun _ => isin) rows where
  ofId := fun _ _ _ _ _ => rfl
  ofListing := fun _ _ _ _ _ _ => rfl
  ofAnchor := fun _ _ _ _ _ _ _ => rfl
  oneAnchor := fun r hr t ht i j _ hi hj => (h r hr i hi).trans (h t ht j hj).symm

/-- A row without the ISIN, one with it, and the imported row. -/
def lateIsin : List Row :=
  [brokerRow "265598" none, brokerRow "265599" (some "INE009A01021"), importedRow]

end InvestmentPlatform.Portfolio
