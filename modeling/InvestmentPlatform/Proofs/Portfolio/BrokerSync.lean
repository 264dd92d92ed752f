/-
What one sync does to the tables.

The positions of an account are written one after the other, each into the table of its kind, so
a key holds at the end what the last position of that kind and key wrote.  Marking looks at the
instrument identifier alone and takes every active row of the account with another identifier
away, in both tables.  An account that the loop passes is synced, and another is not touched.
-/
import InvestmentPlatform.Portfolio.BrokerSync
import Mathlib.Data.List.Dedup
import Mathlib.Data.List.Perm.Basic

namespace InvestmentPlatform.Portfolio

open Fallible JavaText List Dict

/-! ### Reading tables and snapshots -/

def Position.key (position : Position) : PositionKey :=
  ⟨position.brokerAccountId, position.instrument.provider, position.instrument.providerInstrumentId⟩

/-- The position has what a valuation needs. -/
def Position.complete (position : Position) : Bool :=
  position.averageCost.isSome && position.currentPrice.isSome

def ActivePosition (tables : Tables) (key : PositionKey) : Prop :=
  ∃ row, tables.positions.get? key = some row ∧ row.active = true

def ActiveHolding (tables : Tables) (key : PositionKey) : Prop :=
  ∃ row, tables.holdings.get? key = some row ∧ row.active = true

/-- The positions of the account that can be valued. -/
def completePositions (snapshot : Snapshot) (brokerAccountId : String) : List Position :=
  (accountPositions snapshot brokerAccountId).filter fun position => position.complete

/-- The positions of the account that cannot. -/
def incompletePositions (snapshot : Snapshot) (brokerAccountId : String) : List Position :=
  (accountPositions snapshot brokerAccountId).filter fun position => !position.complete

/-- The instrument of the key is among those of the account in the snapshot. -/
def Listed (snapshot : Snapshot) (key : PositionKey) : Prop :=
  ∃ position ∈ accountPositions snapshot key.brokerAccountId,
    position.instrument.providerInstrumentId = key.providerInstrumentId

variable {position : Position}

theorem mem_accountPositions {snapshot : Snapshot} {a : String} :
    position ∈ accountPositions snapshot a ↔
      position ∈ snapshot.positions ∧ position.brokerAccountId = a := by
  simp [accountPositions]

theorem mem_complete_or_incomplete {snapshot : Snapshot} {a : String}
    (h : position ∈ accountPositions snapshot a) :
    position ∈ completePositions snapshot a ∨ position ∈ incompletePositions snapshot a := by
  rw [completePositions, incompletePositions, mem_filter, mem_filter]
  cases hcomplete : position.complete with
  | true => exact Or.inl ⟨h, rfl⟩
  | false => exact Or.inr ⟨h, rfl⟩

theorem mem_of_complete {snapshot : Snapshot} {a : String}
    (h : position ∈ completePositions snapshot a) : position ∈ accountPositions snapshot a :=
  (mem_filter.mp h).1

theorem mem_of_incomplete {snapshot : Snapshot} {a : String}
    (h : position ∈ incompletePositions snapshot a) : position ∈ accountPositions snapshot a :=
  (mem_filter.mp h).1

theorem key_account {snapshot : Snapshot} {a : String}
    (h : position ∈ accountPositions snapshot a) : position.key.brokerAccountId = a :=
  (mem_accountPositions.mp h).2

/-! ### Writing one table -/

section Written
variable {R : Type} (active : R → Bool) (quantity : R → ℚ)

/-- The positions have been written, in turn, under their keys, as active rows. -/
structure Written (positions : List Position) (d d' : Dict PositionKey R) : Prop where
  hit : ∀ p ∈ positions, ∃ row, d'.get? p.key = some row ∧ active row = true ∧
    ∃ q ∈ positions, q.key = p.key ∧ quantity row = q.quantity
  miss : ∀ key, (∀ p ∈ positions, p.key ≠ key) → d'.get? key = d.get? key

variable {active quantity}

theorem Written.nil (d : Dict PositionKey R) : Written active quantity [] d d :=
  ⟨(fun _ h => by cases h), fun _ _ => rfl⟩

theorem Written.cons {position : Position} {positions : List Position} {d d' : Dict PositionKey R}
    {row : R} (hactive : active row = true) (hquantity : quantity row = position.quantity)
    (h : Written active quantity positions (d.set position.key row) d') :
    Written active quantity (position :: positions) d d' where
  hit p hp := by
    by_cases hlater : ∃ q ∈ positions, q.key = p.key
    · obtain ⟨q, hq, hkey⟩ := hlater
      obtain ⟨row', hrow, hon, r, hr, hsame, hamount⟩ := h.hit q hq
      exact ⟨row', hkey ▸ hrow, hon, r, mem_cons_of_mem _ hr, hsame.trans hkey, hamount⟩
    · have hlast : p = position := by
        rcases mem_cons.mp hp with rfl | hin
        · rfl
        · exact absurd ⟨p, hin, rfl⟩ hlater
      subst hlast
      refine ⟨row, ?_, hactive, p, mem_cons_self, rfl, hquantity⟩
      rw [h.miss p.key fun q hq hsame => hlater ⟨q, hq, hsame⟩, get?_set_self]
  miss key hkey := by
    rw [h.miss key fun p hp => hkey p (mem_cons_of_mem _ hp)]
    exact get?_set_ne d row (Ne.symm (hkey position mem_cons_self))

end Written

/-! ### The positions of one account -/

variable {snapshot : Snapshot} {account : Account} {generation : String}
variable {tables tables' tables'' : Tables} {a : String}

theorem requiredInstrumentIdentity_eq_ok {value fieldName text : String}
    (h : requiredInstrumentIdentity value fieldName = .ok text) :
    isBlank value = false ∧ text = value := by
  rw [requiredInstrumentIdentity] at h
  split at h
  · cases h
  · rename_i hfilled
    cases h
    exact ⟨by simpa using hfilled, rfl⟩

/-- What writing one position does: it goes into the table of its kind, active. -/
theorem upsert_cases (haccount : position.brokerAccountId = account.brokerAccountId)
    (h : upsertBrokerPosition account generation tables position = .ok tables') :
    isBlank position.instrument.providerInstrumentId = false ∧ tables'.cash = tables.cash ∧
      ((position.complete = true ∧ tables'.holdings = tables.holdings ∧
          ∃ row : PortfolioPosition, row.active = true ∧ row.quantity = position.quantity ∧
            tables'.positions = tables.positions.set position.key row) ∨
        (position.complete = false ∧ tables'.positions = tables.positions ∧
          ∃ row : BrokerHolding, row.active = true ∧ row.quantity = position.quantity ∧
            tables'.holdings = tables.holdings.set position.key row)) := by
  rw [upsertBrokerPosition, bind_eq_ok] at h
  obtain ⟨provider, hprovider, h⟩ := h
  rw [bind_eq_ok] at h
  obtain ⟨externalId, hexternal, h⟩ := h
  obtain ⟨-, rfl⟩ := requiredInstrumentIdentity_eq_ok hprovider
  obtain ⟨hfilled, rfl⟩ := requiredInstrumentIdentity_eq_ok hexternal
  have hkey : (⟨account.brokerAccountId, position.instrument.provider,
      position.instrument.providerInstrumentId⟩ : PositionKey) = position.key := by
    rw [Position.key, haccount]
  rw [hkey] at h
  refine ⟨hfilled, ?_⟩
  rw [Position.complete]
  split at h
  · rename_i averageCost currentPrice hcost hprice
    cases h
    rw [hcost, hprice]
    exact ⟨rfl, Or.inl ⟨rfl, rfl, _, rfl, rfl, rfl⟩⟩
  · rename_i hlacking
    cases h
    refine ⟨rfl, Or.inr ⟨?_, rfl, _, rfl, rfl, rfl⟩⟩
    cases hcost : position.averageCost with
    | none => rfl
    | some averageCost =>
        cases hprice : position.currentPrice with
        | none => rfl
        | some currentPrice => exact absurd hprice (hlacking _ _ hcost)

/-- The positions have been written, each into the table of its kind. -/
structure Upserted (positions : List Position) (tables tables' : Tables) : Prop where
  identified : ∀ p ∈ positions, isBlank p.instrument.providerInstrumentId = false
  cash : tables'.cash = tables.cash
  complete : Written PortfolioPosition.active PortfolioPosition.quantity
    (positions.filter fun p => p.complete) tables.positions tables'.positions
  incomplete : Written BrokerHolding.active BrokerHolding.quantity
    (positions.filter fun p => !p.complete) tables.holdings tables'.holdings

theorem foldlM_upserted {positions : List Position}
    (haccount : ∀ p ∈ positions, p.brokerAccountId = account.brokerAccountId)
    (h : positions.foldlM (upsertBrokerPosition account generation) tables = .ok tables') :
    Upserted positions tables tables' := by
  induction positions generalizing tables with
  | nil =>
      cases h
      exact ⟨(fun _ hp => by cases hp), rfl, Written.nil _, Written.nil _⟩
  | cons p rest ih =>
      rw [foldlM_cons, bind_eq_ok] at h
      obtain ⟨next, hnext, hrest⟩ := h
      have htail := ih (fun q hq => haccount q (mem_cons_of_mem _ hq)) hrest
      obtain ⟨hfilled, hcash, hwrite⟩ := upsert_cases (haccount p mem_cons_self) hnext
      have hidentified : ∀ q ∈ p :: rest, isBlank q.instrument.providerInstrumentId = false := by
        intro q hq
        rcases mem_cons.mp hq with rfl | hq
        · exact hfilled
        · exact htail.identified q hq
      rcases hwrite with ⟨hcomplete, hholdings, row, hactive, hquantity, hpositions⟩ |
        ⟨hincomplete, hpositions, row, hactive, hquantity, hholdings⟩
      · refine ⟨hidentified, htail.cash.trans hcash, ?_, ?_⟩
        · rw [filter_cons, if_pos hcomplete]
          exact Written.cons hactive hquantity (hpositions ▸ htail.complete)
        · rw [filter_cons, if_neg (by simp [hcomplete])]
          exact hholdings ▸ htail.incomplete
      · refine ⟨hidentified, htail.cash.trans hcash, ?_, ?_⟩
        · rw [filter_cons, if_neg (by simp [hincomplete])]
          exact hpositions ▸ htail.complete
        · rw [filter_cons, if_pos (by simp [hincomplete])]
          exact Written.cons hactive hquantity (hholdings ▸ htail.incomplete)

/-! ### Marking, and the whole account -/

theorem listed_iff {key : PositionKey}
    (hidentified : ∀ p ∈ accountPositions snapshot key.brokerAccountId,
      isBlank p.instrument.providerInstrumentId = false) :
    missing key.brokerAccountId
        (activeExternalInstrumentIds (accountPositions snapshot key.brokerAccountId)) key = false ↔
      Listed snapshot key := by
  have hmem : key.providerInstrumentId ∈
      activeExternalInstrumentIds (accountPositions snapshot key.brokerAccountId) ↔
      Listed snapshot key := by
    rw [activeExternalInstrumentIds, mem_dedup, mem_filter, mem_map]
    constructor
    · rintro ⟨⟨p, hp, hid⟩, -⟩
      exact ⟨p, hp, hid⟩
    · rintro ⟨p, hp, hid⟩
      exact ⟨⟨p, hp, hid⟩, by rw [← hid, hidentified p hp]; rfl⟩
  rw [← hmem, missing]
  cases hids : activeExternalInstrumentIds (accountPositions snapshot key.brokerAccountId) with
  | nil => simp
  | cons id ids => simp [or_iff_not_imp_left]

section TableSynced
variable {R : Type} (active : R → Bool) (quantity : R → ℚ)

/-- How a table of holdings after the sync of an account comes from the one before: an active
row of the account is one of a listed instrument that was written or was there, with the
quantity of a position written. -/
structure TableSynced (a : String) (snapshot : Snapshot) (positions : List Position)
    (d d' : Dict PositionKey R) : Prop where
  active_iff : ∀ key, key.brokerAccountId = a →
    ((∃ row, d'.get? key = some row ∧ active row = true) ↔ Listed snapshot key ∧
      ((∃ p ∈ positions, p.key = key) ∨ ∃ row, d.get? key = some row ∧ active row = true))
  written : ∀ p ∈ positions, ∃ row, d'.get? p.key = some row ∧
    ∃ q ∈ positions, q.key = p.key ∧ quantity row = q.quantity

/-- The rows of the account are as they were. -/
def SameAt (a : String) (d d' : Dict PositionKey R) : Prop :=
  ∀ key, key.brokerAccountId = a → d'.get? key = d.get? key

variable {active quantity}

variable {positions : List Position} {d d' : Dict PositionKey R}

/-- Writing one table and then marking it syncs it. -/
theorem Written.synced {stale : R → R} {gone : PositionKey → Bool}
    (h : Written active quantity positions d d') (hstale : ∀ row, active (stale row) = false)
    (hlisted : ∀ key, key.brokerAccountId = a → (gone key = false ↔ Listed snapshot key))
    (hown : ∀ p ∈ positions, p.key.brokerAccountId = a ∧ Listed snapshot p.key) :
    TableSynced active quantity a snapshot positions d
      (d'.update fun key row => if active row && gone key then stale row else row) where
  active_iff key hkey := by
    rw [← hlisted key hkey]
    constructor
    · rintro ⟨row, hrow, hactive⟩
      rw [get?_update, Option.map_eq_some_iff] at hrow
      obtain ⟨old, hold, rfl⟩ := hrow
      by_cases hmark : (active old && gone key) = true
      · rw [if_pos hmark, hstale] at hactive
        cases hactive
      · rw [if_neg hmark] at hactive
        refine ⟨by simpa [hactive] using hmark, ?_⟩
        by_cases hwrite : ∃ p ∈ positions, p.key = key
        · exact Or.inl hwrite
        · rw [h.miss key fun p hp hsame => hwrite ⟨p, hp, hsame⟩] at hold
          exact Or.inr ⟨old, hold, hactive⟩
    · rintro ⟨hkept, hwrite⟩
      by_cases hp : ∃ p ∈ positions, p.key = key
      · obtain ⟨p, hp, rfl⟩ := hp
        obtain ⟨row, hrow, hactive, -⟩ := h.hit p hp
        exact ⟨row, by rw [get?_update, hrow]; simp [hkept], hactive⟩
      · obtain ⟨row, hrow, hactive⟩ := hwrite.resolve_left hp
        rw [← h.miss key fun p hin hsame => hp ⟨p, hin, hsame⟩] at hrow
        exact ⟨row, by rw [get?_update, hrow]; simp [hkept], hactive⟩
  written p hp := by
    obtain ⟨row, hrow, -, hquantity⟩ := h.hit p hp
    have hkept := (hlisted p.key (hown p hp).1).mpr (hown p hp).2
    exact ⟨row, by rw [get?_update, hrow]; simp [hkept], hquantity⟩

/-- Writing and marking the rows of one account leaves the rows of another. -/
theorem Written.sameAt {stale : R → R}
    {gone : PositionKey → Bool} (h : Written active quantity positions d d')
    (hkept : ∀ key, key.brokerAccountId = a → gone key = false)
    (hother : ∀ p ∈ positions, p.key.brokerAccountId ≠ a) :
    SameAt a d (d'.update fun key row => if active row && gone key then stale row else row) := by
  intro key hkey
  rw [get?_update, h.miss key fun p hp hsame => hother p hp (hsame ▸ hkey)]
  simp [hkept key hkey]

/-- Syncing twice is syncing once. -/
theorem TableSynced.trans {d'' : Dict PositionKey R}
    (h : TableSynced active quantity a snapshot positions d d')
    (h' : TableSynced active quantity a snapshot positions d' d'') :
    TableSynced active quantity a snapshot positions d d'' := by
  refine ⟨fun key hkey => ?_, h'.written⟩
  rw [h'.active_iff key hkey, h.active_iff key hkey]
  constructor
  · rintro ⟨hlisted, hwrite | ⟨-, hwrite⟩⟩
    · exact ⟨hlisted, Or.inl hwrite⟩
    · exact ⟨hlisted, hwrite⟩
  · rintro ⟨hlisted, hwrite⟩
    exact ⟨hlisted, Or.inr ⟨hlisted, hwrite⟩⟩

/-- A sync stays one when the rows of the account are the same before it or after it. -/
theorem TableSynced.congr {d₁ d₂ : Dict PositionKey R}
    (h : TableSynced active quantity a snapshot positions d₁ d₂)
    (hown : ∀ p ∈ positions, p.key.brokerAccountId = a) (hbefore : SameAt a d d₁)
    (hafter : SameAt a d₂ d') : TableSynced active quantity a snapshot positions d d' := by
  refine ⟨fun key hkey => ?_, fun p hp => ?_⟩
  · rw [hafter key hkey, ← hbefore key hkey]
    exact h.active_iff key hkey
  · rw [hafter p.key (hown p hp)]
    exact h.written p hp

end TableSynced

/-! ### The accounts, one after the other -/

/-- The rows of the account have been synced. -/
structure Synced (snapshot : Snapshot) (a : String) (tables tables' : Tables) : Prop where
  positions : TableSynced PortfolioPosition.active PortfolioPosition.quantity a snapshot
    (completePositions snapshot a) tables.positions tables'.positions
  holdings : TableSynced BrokerHolding.active BrokerHolding.quantity a snapshot
    (incompletePositions snapshot a) tables.holdings tables'.holdings
  cash : ∀ key, key.brokerAccountId = a → tables'.cash.get? key =
    (((accountCash snapshot a).filter fun c => cashKey c = key).getLast?.map cashEntity).or
      (tables.cash.get? key)

/-- The rows of the account are as they were. -/
structure Untouched (a : String) (tables tables' : Tables) : Prop where
  positions : SameAt a tables.positions tables'.positions
  holdings : SameAt a tables.holdings tables'.holdings
  cash : ∀ key, key.brokerAccountId = a → tables'.cash.get? key = tables.cash.get? key

theorem Untouched.refl (a : String) (tables : Tables) : Untouched a tables tables :=
  ⟨fun _ _ => rfl, fun _ _ => rfl, fun _ _ => rfl⟩

theorem Untouched.trans (h : Untouched a tables tables') (h' : Untouched a tables' tables'') :
    Untouched a tables tables'' :=
  ⟨fun key hkey => (h'.positions key hkey).trans (h.positions key hkey),
    fun key hkey => (h'.holdings key hkey).trans (h.holdings key hkey),
    fun key hkey => (h'.cash key hkey).trans (h.cash key hkey)⟩

theorem Synced.trans (h : Synced snapshot a tables tables')
    (h' : Synced snapshot a tables' tables'') : Synced snapshot a tables tables'' := by
  refine ⟨h.positions.trans h'.positions, h.holdings.trans h'.holdings, fun key hkey => ?_⟩
  rw [h'.cash key hkey, h.cash key hkey]
  cases ((accountCash snapshot a).filter fun c => cashKey c = key).getLast? <;> simp

theorem complete_account : ∀ p ∈ completePositions snapshot a, p.key.brokerAccountId = a :=
  fun _ hp => key_account (mem_of_complete hp)

theorem incomplete_account : ∀ p ∈ incompletePositions snapshot a, p.key.brokerAccountId = a :=
  fun _ hp => key_account (mem_of_incomplete hp)

theorem Synced.before (h : Synced snapshot a tables' tables'') (hsame : Untouched a tables tables') :
    Synced snapshot a tables tables'' :=
  ⟨h.positions.congr complete_account hsame.positions fun _ _ => rfl,
    h.holdings.congr incomplete_account hsame.holdings fun _ _ => rfl,
    fun key hkey => by rw [h.cash key hkey, hsame.cash key hkey]⟩

theorem Synced.after (h : Synced snapshot a tables tables') (hsame : Untouched a tables' tables'') :
    Synced snapshot a tables tables'' :=
  ⟨h.positions.congr complete_account (fun _ _ => rfl) hsame.positions,
    h.holdings.congr incomplete_account (fun _ _ => rfl) hsame.holdings,
    fun key hkey => by rw [hsame.cash key hkey, h.cash key hkey]⟩

section

variable (h : syncAccount snapshot generation tables account = .ok tables')
include h

/-- What one account's sync does: it upserts, marks, and saves the cash. -/
theorem syncAccount_eq_ok :
    ∃ upserted, Upserted (accountPositions snapshot account.brokerAccountId) tables upserted ∧
      tables' = saveCash (markMissingBrokerPositionsStale generation upserted account.brokerAccountId
        (activeExternalInstrumentIds (accountPositions snapshot account.brokerAccountId)))
          (accountCash snapshot account.brokerAccountId) := by
  simp only [syncAccount, bind_eq_ok, raiseIf_eq_ok, exists_and_left, exists_const] at h
  obtain ⟨-, -, upserted, hupsert, h⟩ := h
  cases h
  exact ⟨upserted, foldlM_upserted (fun p hp => (mem_accountPositions.mp hp).2) hupsert, rfl⟩

theorem syncAccount_synced : Synced snapshot account.brokerAccountId tables tables' := by
  obtain ⟨upserted, hupserted, rfl⟩ := syncAccount_eq_ok h
  have hlisted : ∀ key : PositionKey, key.brokerAccountId = account.brokerAccountId →
      (missing account.brokerAccountId (activeExternalInstrumentIds
        (accountPositions snapshot account.brokerAccountId)) key = false ↔ Listed snapshot key) := by
    intro key hkey
    rw [← hkey]
    exact listed_iff (hkey ▸ hupserted.identified)
  have hown : ∀ p ∈ accountPositions snapshot account.brokerAccountId,
      p.key.brokerAccountId = account.brokerAccountId ∧ Listed snapshot p.key := by
    intro p hp
    refine ⟨key_account hp, p, ?_, rfl⟩
    rw [key_account hp]
    exact hp
  refine ⟨?_, ?_, ?_⟩
  · exact hupserted.complete.synced (fun _ => rfl) hlisted fun p hp => hown p (mem_of_complete hp)
  · exact hupserted.incomplete.synced (fun _ => rfl) hlisted
      fun p hp => hown p (mem_of_incomplete hp)
  · intro key _
    show (List.foldl _ upserted.cash _).get? key = _
    rw [hupserted.cash]
    exact get?_foldl_set cashKey cashEntity _ _ key

end

theorem syncAccount_untouched (hne : account.brokerAccountId ≠ a)
    (h : syncAccount snapshot generation tables account = .ok tables') :
    Untouched a tables tables' := by
  obtain ⟨upserted, hupserted, rfl⟩ := syncAccount_eq_ok h
  have hkept : ∀ ids, ∀ key : PositionKey, key.brokerAccountId = a →
      missing account.brokerAccountId ids key = false := by
    intro ids key hkey
    simp [missing, hkey, Ne.symm hne]
  have hother : ∀ p ∈ accountPositions snapshot account.brokerAccountId,
      p.key.brokerAccountId ≠ a := fun p hp => (key_account hp).symm ▸ hne
  refine ⟨?_, ?_, ?_⟩
  · exact hupserted.complete.sameAt (hkept _) fun p hp => hother p (mem_of_complete hp)
  · exact hupserted.incomplete.sameAt (hkept _) fun p hp => hother p (mem_of_incomplete hp)
  · intro key hkey
    show (List.foldl _ upserted.cash _).get? key = _
    rw [hupserted.cash, get?_foldl_set cashKey cashEntity]
    have hnone : (accountCash snapshot account.brokerAccountId).filter
        (fun c => cashKey c = key) = [] := by
      rw [filter_eq_nil_iff]
      intro c hc hsame
      have haccount : c.brokerAccountId = account.brokerAccountId := by
        simpa [accountCash] using (mem_filter.mp hc).2
      have hcash : (cashKey c).brokerAccountId = a := (of_decide_eq_true hsame) ▸ hkey
      exact hne (haccount.symm.trans hcash)
    rw [hnone]
    rfl

theorem accounts_untouched {accounts : List Account}
    (hne : ∀ account ∈ accounts, account.brokerAccountId ≠ a)
    (h : accounts.foldlM (syncAccount snapshot generation) tables = .ok tables') :
    Untouched a tables tables' := by
  induction accounts generalizing tables with
  | nil =>
      cases h
      exact Untouched.refl a _
  | cons account rest ih =>
      rw [foldlM_cons, bind_eq_ok] at h
      obtain ⟨next, hnext, hrest⟩ := h
      exact (syncAccount_untouched (hne account mem_cons_self) hnext).trans
        (ih (fun other hother => hne other (mem_cons_of_mem _ hother)) hrest)

/-- **The loop syncs every account of the snapshot**, an account that comes twice included. -/
theorem accounts_synced {accounts : List Account}
    (hmem : ∃ account ∈ accounts, account.brokerAccountId = a)
    (h : accounts.foldlM (syncAccount snapshot generation) tables = .ok tables') :
    Synced snapshot a tables tables' := by
  induction accounts generalizing tables with
  | nil =>
      obtain ⟨account, hin, -⟩ := hmem
      cases hin
  | cons account rest ih =>
      rw [foldlM_cons, bind_eq_ok] at h
      obtain ⟨next, hnext, hrest⟩ := h
      by_cases hhere : account.brokerAccountId = a
      · have hsynced : Synced snapshot a tables next := hhere ▸ syncAccount_synced hnext
        by_cases hlater : ∃ other ∈ rest, other.brokerAccountId = a
        · exact hsynced.trans (ih hlater hrest)
        · exact hsynced.after (accounts_untouched
            (fun other hin hsame => hlater ⟨other, hin, hsame⟩) hrest)
      · have hlater : ∃ other ∈ rest, other.brokerAccountId = a := by
          obtain ⟨other, hin, hsame⟩ := hmem
          rcases mem_cons.mp hin with rfl | hin
          · exact absurd hsame hhere
          · exact ⟨other, hin, hsame⟩
        exact (ih hlater hrest).before (syncAccount_untouched hhere hnext)

/-- A call that succeeds has synced every account of its snapshot. -/
theorem sync_eq_ok {call : Sync} (h : syncBrokerConnection tables call = .ok tables') :
    ∃ snapshot, call.snapshot = some snapshot ∧
      ∀ account ∈ snapshot.accounts, Synced snapshot account.brokerAccountId tables tables' := by
  rw [syncBrokerConnection] at h
  split at h
  · cases h
  · simp only [bind_eq_ok, raiseIf_eq_ok, exists_and_left, exists_const] at h
    obtain ⟨-, -, snapshot, hvalid, h⟩ := h
    cases hgiven : call.snapshot with
    | none =>
        rw [hgiven] at hvalid
        cases hvalid
    | some given =>
        rw [hgiven, validateCompleteSnapshot] at hvalid
        split at hvalid
        · cases hvalid
        · cases hvalid
          exact ⟨_, rfl, fun account hin => accounts_synced ⟨account, hin, rfl⟩ h⟩

end InvestmentPlatform.Portfolio
