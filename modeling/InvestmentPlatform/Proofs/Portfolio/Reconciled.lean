/-
When a sync reconciles the portfolio with the snapshot.

After a sync the portfolio of an account agrees with the snapshot when each of its keys is
active in one of the two tables, with its quantity, and the cash read back is the cash given.
The tables decide it before: a key that is active in the other table stays there, an active row
with a listed identifier of another provider stays, a currency that has gone stays, and cash
is read back only for a portfolio with an active position.  Where none of this comes up the sync
reconciles, and where one does it does not.
-/
import InvestmentPlatform.Lib.Selection
import InvestmentPlatform.Proofs.Portfolio.BrokerSync

namespace InvestmentPlatform.Portfolio

open Selection List Dict Money

variable {mockCash : List CashBalance} {snapshot : Snapshot} {a : String}
variable {tables tables' : Tables}

/-! ### Agreement, and what decides it -/

/-- The key is one of the snapshot's for the account. -/
def Held (snapshot : Snapshot) (a : String) (key : PositionKey) : Prop :=
  ∃ p ∈ accountPositions snapshot a, p.key = key

/-- The tables agree with the snapshot on one account. -/
structure Reconciled (mockCash : List CashBalance) (snapshot : Snapshot) (a : String)
    (tables : Tables) : Prop where
  /-- Each key of the snapshot is active in exactly one of the two tables. -/
  held : ∀ key, Held snapshot a key → Xor (ActivePosition tables key) (ActiveHolding tables key)
  /-- No other key of the account is active. -/
  others : ∀ key, key.brokerAccountId = a → ¬ Held snapshot a key →
    ¬ ActivePosition tables key ∧ ¬ ActiveHolding tables key
  /-- What is active has the snapshot's quantity. -/
  quantity : ∀ p ∈ accountPositions snapshot a,
    (∀ row, tables.positions.get? p.key = some row → row.active = true →
      row.quantity = p.quantity) ∧
    ∀ row, tables.holdings.get? p.key = some row → row.active = true → row.quantity = p.quantity
  /-- The cash that `getSummary` uses is the snapshot's. -/
  cash : ((cashBalancesFor mockCash tables a).map CashBalance.cash).Perm
    ((accountCash snapshot a).map CashBalance.cash)

/-- Cash stored for the account will be read back: there is a position to read it for, and
there is some. -/
def CashShown (snapshot : Snapshot) (a : String) (tables : Tables) : Prop :=
  completePositions snapshot a ≠ [] ∧
    (accountCash snapshot a ≠ [] ∨ ∃ key ∈ tables.cash.keys, key.brokerAccountId = a)

def currencies (snapshot : Snapshot) (a : String) : List String :=
  (accountCash snapshot a).map fun cash => cash.cash.currency

/-- The tables before the sync and the snapshot let the sync of the account reconcile. -/
structure Reconcilable (mockCash : List CashBalance) (snapshot : Snapshot) (a : String)
    (tables : Tables) : Prop where
  /-- No key of the snapshot goes into one table while it is active in the other, or goes into
  both. -/
  oneTable : ∀ p ∈ accountPositions snapshot a,
    ¬ (((∃ q ∈ completePositions snapshot a, q.key = p.key) ∨ ActivePosition tables p.key) ∧
      ((∃ q ∈ incompletePositions snapshot a, q.key = p.key) ∨ ActiveHolding tables p.key))
  /-- No row of the account that the snapshot does not have is active under an identifier that
  the snapshot has for another provider. -/
  oneProvider : ∀ key, key.brokerAccountId = a → Listed snapshot key → ¬ Held snapshot a key →
    ¬ ActivePosition tables key ∧ ¬ ActiveHolding tables key
  /-- A key that comes twice comes with one quantity. -/
  oneQuantity : ∀ p ∈ accountPositions snapshot a, ∀ q ∈ accountPositions snapshot a,
    p.key = q.key → p.quantity = q.quantity
  /-- Cash that is read back comes once for each currency, and no stored currency is gone. -/
  shown : CashShown snapshot a tables → (currencies snapshot a).Nodup ∧
    ∀ key ∈ tables.cash.keys, key.brokerAccountId = a → key.cashCurrency ∈ currencies snapshot a
  /-- Where the mock provider's cash is read instead, it is what the snapshot has. -/
  notShown : ¬ CashShown snapshot a tables → (mockCash.map CashBalance.cash).Perm
    ((accountCash snapshot a).map CashBalance.cash)

/-! ### Holdings -/

theorem Held.account {key : PositionKey} (h : Held snapshot a key) : key.brokerAccountId = a := by
  obtain ⟨p, hp, rfl⟩ := h
  exact key_account hp

theorem Held.listed {key : PositionKey} (h : Held snapshot a key) : Listed snapshot key := by
  obtain ⟨p, hp, rfl⟩ := h
  refine ⟨p, ?_, rfl⟩
  rw [key_account hp]
  exact hp

section Holdings
variable (hsynced : Synced snapshot a tables tables')
include hsynced

theorem activePosition_iff {key : PositionKey} (hkey : key.brokerAccountId = a) :
    ActivePosition tables' key ↔ Listed snapshot key ∧
      ((∃ p ∈ completePositions snapshot a, p.key = key) ∨ ActivePosition tables key) :=
  hsynced.positions.active_iff key hkey

theorem activeHolding_iff {key : PositionKey} (hkey : key.brokerAccountId = a) :
    ActiveHolding tables' key ↔ Listed snapshot key ∧
      ((∃ p ∈ incompletePositions snapshot a, p.key = key) ∨ ActiveHolding tables key) :=
  hsynced.holdings.active_iff key hkey

/-- A key of the snapshot is active in one table or the other. -/
theorem active_of_held {key : PositionKey} (h : Held snapshot a key) :
    ActivePosition tables' key ∨ ActiveHolding tables' key := by
  rw [activePosition_iff hsynced h.account, activeHolding_iff hsynced h.account]
  have hlisted := h.listed
  obtain ⟨p, hp, rfl⟩ := h
  rcases mem_complete_or_incomplete hp with hcomplete | hincomplete
  · exact Or.inl ⟨hlisted, Or.inl ⟨p, hcomplete, rfl⟩⟩
  · exact Or.inr ⟨hlisted, Or.inl ⟨p, hincomplete, rfl⟩⟩

theorem held_iff_oneTable :
    (∀ key, Held snapshot a key → Xor (ActivePosition tables' key) (ActiveHolding tables' key)) ↔
      ∀ p ∈ accountPositions snapshot a,
        ¬ (((∃ q ∈ completePositions snapshot a, q.key = p.key) ∨ ActivePosition tables p.key) ∧
          ((∃ q ∈ incompletePositions snapshot a, q.key = p.key) ∨ ActiveHolding tables p.key)) := by
  constructor
  · intro h p hp hboth
    have hheld : Held snapshot a p.key := ⟨p, hp, rfl⟩
    have hposition := (activePosition_iff hsynced hheld.account).mpr ⟨hheld.listed, hboth.1⟩
    have hholding := (activeHolding_iff hsynced hheld.account).mpr ⟨hheld.listed, hboth.2⟩
    rcases h p.key hheld with ⟨-, hno⟩ | ⟨-, hno⟩
    · exact hno hholding
    · exact hno hposition
  · intro h key hheld
    have hnot : ¬ (ActivePosition tables' key ∧ ActiveHolding tables' key) := by
      rw [activePosition_iff hsynced hheld.account, activeHolding_iff hsynced hheld.account]
      obtain ⟨p, hp, rfl⟩ := hheld
      rintro ⟨⟨-, hposition⟩, -, hholding⟩
      exact h p hp ⟨hposition, hholding⟩
    rcases active_of_held hsynced hheld with hposition | hholding
    · exact Or.inl ⟨hposition, fun hholding => hnot ⟨hposition, hholding⟩⟩
    · exact Or.inr ⟨hholding, fun hposition => hnot ⟨hposition, hholding⟩⟩

theorem others_iff_oneProvider : (∀ key, key.brokerAccountId = a → ¬ Held snapshot a key →
      ¬ ActivePosition tables' key ∧ ¬ ActiveHolding tables' key) ↔
    ∀ key, key.brokerAccountId = a → Listed snapshot key → ¬ Held snapshot a key →
      ¬ ActivePosition tables key ∧ ¬ ActiveHolding tables key := by
  constructor
  · intro h key hkey hlisted hnot
    have hgone := h key hkey hnot
    rw [activePosition_iff hsynced hkey, activeHolding_iff hsynced hkey] at hgone
    exact ⟨fun hactive => hgone.1 ⟨hlisted, Or.inr hactive⟩,
      fun hactive => hgone.2 ⟨hlisted, Or.inr hactive⟩⟩
  · intro h key hkey hnot
    rw [activePosition_iff hsynced hkey, activeHolding_iff hsynced hkey]
    constructor
    · rintro ⟨hlisted, ⟨p, hp, hsame⟩ | hactive⟩
      · exact hnot ⟨p, mem_of_complete hp, hsame⟩
      · exact (h key hkey hlisted hnot).1 hactive
    · rintro ⟨hlisted, ⟨p, hp, hsame⟩ | hactive⟩
      · exact hnot ⟨p, mem_of_incomplete hp, hsame⟩
      · exact (h key hkey hlisted hnot).2 hactive

/-- With each key in one table, the active rows have the snapshot's quantities when the snapshot
gives each key one. -/
theorem quantity_iff_oneQuantity (hone : ∀ p ∈ accountPositions snapshot a,
      ¬ (((∃ q ∈ completePositions snapshot a, q.key = p.key) ∨ ActivePosition tables p.key) ∧
        ((∃ q ∈ incompletePositions snapshot a, q.key = p.key) ∨ ActiveHolding tables p.key))) :
    (∀ p ∈ accountPositions snapshot a,
      (∀ row, tables'.positions.get? p.key = some row → row.active = true →
        row.quantity = p.quantity) ∧
      ∀ row, tables'.holdings.get? p.key = some row → row.active = true →
        row.quantity = p.quantity) ↔
    ∀ p ∈ accountPositions snapshot a, ∀ q ∈ accountPositions snapshot a,
      p.key = q.key → p.quantity = q.quantity := by
  constructor
  · intro h p hp q hq hkey
    rcases active_of_held hsynced ⟨p, hp, rfl⟩ with ⟨row, hrow, hactive⟩ | ⟨row, hrow, hactive⟩
    · rw [← (h p hp).1 row hrow hactive, (h q hq).1 row (hkey ▸ hrow) hactive]
    · rw [← (h p hp).2 row hrow hactive, (h q hq).2 row (hkey ▸ hrow) hactive]
  · intro h p hp
    have hheld : Held snapshot a p.key := ⟨p, hp, rfl⟩
    constructor
    · intro row hrow hactive
      have hposition := (activePosition_iff hsynced hheld.account).mp ⟨row, hrow, hactive⟩
      have hcomplete : p ∈ completePositions snapshot a := by
        rcases mem_complete_or_incomplete hp with hcomplete | hincomplete
        · exact hcomplete
        · exact absurd ⟨hposition.2, Or.inl ⟨p, hincomplete, rfl⟩⟩ (hone p hp)
      obtain ⟨row', hrow', q, hq, hsame, hquantity⟩ := hsynced.positions.written p hcomplete
      rw [hrow] at hrow'
      cases hrow'
      rw [hquantity]
      exact h q (mem_of_complete hq) p hp hsame
    · intro row hrow hactive
      have hholding := (activeHolding_iff hsynced hheld.account).mp ⟨row, hrow, hactive⟩
      have hincomplete : p ∈ incompletePositions snapshot a := by
        rcases mem_complete_or_incomplete hp with hcomplete | hincomplete
        · exact absurd ⟨Or.inl ⟨p, hcomplete, rfl⟩, hholding.2⟩ (hone p hp)
        · exact hincomplete
      obtain ⟨row', hrow', q, hq, hsame, hquantity⟩ := hsynced.holdings.written p hincomplete
      rw [hrow] at hrow'
      cases hrow'
      rw [hquantity]
      exact h q (mem_of_incomplete hq) p hp hsame

/-- The portfolio has an active position when the snapshot has a complete one for it. -/
theorem exists_active_iff (hheld : ∀ key, Held snapshot a key →
      Xor (ActivePosition tables' key) (ActiveHolding tables' key))
    (hothers : ∀ key, key.brokerAccountId = a → ¬ Held snapshot a key →
      ¬ ActivePosition tables' key ∧ ¬ ActiveHolding tables' key) :
    (∃ key, key.brokerAccountId = a ∧ ActivePosition tables' key) ↔
      completePositions snapshot a ≠ [] := by
  constructor
  · rintro ⟨key, hkey, hactive⟩
    have hin : Held snapshot a key := by
      by_contra hnot
      exact (hothers key hkey hnot).1 hactive
    obtain ⟨p, hp, rfl⟩ := hin
    rcases mem_complete_or_incomplete hp with hcomplete | hincomplete
    · exact ne_nil_of_mem hcomplete
    · have hpheld : Held snapshot a p.key := ⟨p, hp, rfl⟩
      have hholding := (activeHolding_iff hsynced hpheld.account).mpr
        ⟨hpheld.listed, Or.inl ⟨p, hincomplete, rfl⟩⟩
      rcases hheld p.key hpheld with ⟨-, hno⟩ | ⟨-, hno⟩
      · exact absurd hholding hno
      · exact absurd hactive hno
  · intro hne
    obtain ⟨p, hp⟩ := exists_mem_of_ne_nil _ hne
    have hpheld : Held snapshot a p.key := ⟨p, mem_of_complete hp, rfl⟩
    exact ⟨p.key, hpheld.account,
      (activePosition_iff hsynced hpheld.account).mpr ⟨hpheld.listed, Or.inl ⟨p, hp, rfl⟩⟩⟩

end Holdings

/-! ### Cash -/

/-- The stored entries of the account, as money. -/
def storedCash (tables : Tables) (a : String) : List Money :=
  (tables.cash.items.filter fun item => item.1.brokerAccountId = a).map fun item =>
    ⟨item.2.cashAmount, item.1.cashCurrency⟩

def givenCash (snapshot : Snapshot) (a : String) : List Money :=
  (accountCash snapshot a).map CashBalance.cash

theorem currencies_eq : currencies snapshot a = (givenCash snapshot a).map currency := by
  rw [currencies, givenCash, map_map]
  rfl

theorem mem_storedCash (money : Money) : money ∈ storedCash tables a ↔
    ∃ entry, tables.cash.get? ⟨a, money.currency⟩ = some entry ∧
      entry.cashAmount = money.amount := by
  rw [storedCash, mem_map]
  constructor
  · rintro ⟨⟨key, entry⟩, hitem, rfl⟩
    obtain ⟨hin, hkey⟩ := mem_filter.mp hitem
    have haccount : key.brokerAccountId = a := of_decide_eq_true hkey
    subst haccount
    exact ⟨entry, get?_of_mem hin, rfl⟩
  · rintro ⟨entry, hentry, hamount⟩
    refine ⟨(⟨a, money.currency⟩, entry), ?_, by rw [hamount]⟩
    exact mem_filter.mpr ⟨mem_items_of_get? hentry, by simp⟩

/-- A currency is stored at most once for an account. -/
theorem storedCash_currencies_nodup (tables : Tables) (a : String) :
    ((storedCash tables a).map currency).Nodup := by
  have hkeys : ((tables.cash.items.filter fun item => item.1.brokerAccountId = a).map
      Prod.fst).Nodup := (filter_sublist.map Prod.fst).nodup tables.cash.nodup
  have hinjective : ∀ k ∈ (tables.cash.items.filter fun item => item.1.brokerAccountId = a).map
      Prod.fst, ∀ j ∈ (tables.cash.items.filter fun item => item.1.brokerAccountId = a).map
      Prod.fst, k.cashCurrency = j.cashCurrency → k = j := by
    intro k hk j hj hsame
    obtain ⟨item, hitem, rfl⟩ := mem_map.mp hk
    obtain ⟨other, hother, rfl⟩ := mem_map.mp hj
    have ha : item.1.brokerAccountId = a := of_decide_eq_true (mem_filter.mp hitem).2
    have hb : other.1.brokerAccountId = a := of_decide_eq_true (mem_filter.mp hother).2
    exact congrArg₂ CashKey.mk (ha.trans hb.symm) hsame
  have hmap := Nodup.map_on hinjective hkeys
  rw [storedCash, map_map]
  rwa [map_map] at hmap

theorem mem_givenCash {money : Money} : money ∈ givenCash snapshot a ↔
    ∃ cash ∈ accountCash snapshot a, cash.cash = money := mem_map

theorem cashKey_account {cash : CashBalance} (h : cash ∈ accountCash snapshot a) :
    cashKey cash = ⟨a, cash.cash.currency⟩ := by
  have haccount : cash.brokerAccountId = a := by
    simpa using (mem_filter.mp h).2
  rw [cashKey, haccount]

/-- The cash that is read back: what is stored, if there is a position to read it for. -/
theorem persisted_cash (hactive : ∃ key, key.brokerAccountId = a ∧ ActivePosition tables key) :
    (persistedRealBrokerCash tables a).map CashBalance.cash = storedCash tables a := by
  have hids : ∀ b, (portfolioBrokerAccountIds tables a).contains b = decide (b = a) := by
    intro b
    obtain ⟨key, hkey, row, hrow, hon⟩ := hactive
    have hmem : b ∈ portfolioBrokerAccountIds tables a ↔ b = a := by
      rw [portfolioBrokerAccountIds, mem_map]
      constructor
      · rintro ⟨item, hitem, rfl⟩
        exact of_decide_eq_true (mem_filter.mp (mem_filter.mp hitem).1).2
      · rintro rfl
        refine ⟨(key, row), mem_filter.mpr ⟨mem_filter.mpr ⟨?_, ?_⟩, hon⟩, hkey⟩
        · exact mem_items_of_get? hrow
        · exact decide_eq_true hkey
    rw [Bool.eq_iff_iff, contains_iff_mem, hmem, decide_eq_true_iff]
  rw [persistedRealBrokerCash, storedCash, map_map]
  simp only [hids]
  rfl

theorem persisted_nil (hactive : ¬ ∃ key, key.brokerAccountId = a ∧ ActivePosition tables key) :
    persistedRealBrokerCash tables a = [] := by
  have hids : portfolioBrokerAccountIds tables a = [] := by
    rw [portfolioBrokerAccountIds, map_eq_nil_iff, filter_eq_nil_iff]
    intro item hitem hon
    obtain ⟨hin, hkey⟩ := mem_filter.mp hitem
    exact hactive ⟨item.1, of_decide_eq_true hkey, item.2, get?_of_mem hin, hon⟩
  rw [persistedRealBrokerCash, hids]
  simp

section Cash
variable (hsynced : Synced snapshot a tables tables')
include hsynced

theorem stored_currency_iff {currency : String} :
    (∃ entry, tables'.cash.get? ⟨a, currency⟩ = some entry) ↔
      currency ∈ currencies snapshot a ∨ ⟨a, currency⟩ ∈ tables.cash.keys := by
  rw [hsynced.cash ⟨a, currency⟩ rfl, ← isSome_get?]
  by_cases hgiven : currency ∈ currencies snapshot a
  · obtain ⟨cash, hcash, hsame⟩ := mem_map.mp hgiven
    have hne : (accountCash snapshot a).filter (fun c => cashKey c = ⟨a, currency⟩) ≠ [] := by
      refine ne_nil_of_mem (a := cash) (mem_filter.mpr ⟨hcash, ?_⟩)
      rw [cashKey_account hcash, hsame]
      simp
    rw [getLast?_eq_some_getLast hne]
    exact ⟨fun _ => Or.inl hgiven, fun _ => ⟨_, rfl⟩⟩
  · have hnil : (accountCash snapshot a).filter (fun c => cashKey c = ⟨a, currency⟩) = [] := by
      rw [filter_eq_nil_iff]
      intro cash hcash hsame
      refine hgiven (mem_map.mpr ⟨cash, hcash, ?_⟩)
      rw [decide_eq_true_iff, cashKey_account hcash] at hsame
      exact congrArg CashKey.cashCurrency hsame
    rw [hnil]
    simp [hgiven, Option.isSome_iff_exists]

/-- The stored cash is the cash given when no currency comes twice and none is gone. -/
theorem stored_perm_iff : (storedCash tables' a).Perm (givenCash snapshot a) ↔
    (currencies snapshot a).Nodup ∧ ∀ key ∈ tables.cash.keys, key.brokerAccountId = a →
        key.cashCurrency ∈ currencies snapshot a := by
  constructor
  · intro hperm
    have hcurrencies : ((storedCash tables' a).map currency).Perm (currencies snapshot a) := by
      rw [currencies_eq]
      exact hperm.map currency
    refine ⟨hcurrencies.nodup_iff.mp (storedCash_currencies_nodup tables' a), ?_⟩
    intro key hkey haccount
    have hstored : key.cashCurrency ∈ (storedCash tables' a).map currency := by
      have hold : (⟨a, key.cashCurrency⟩ : CashKey) ∈ tables.cash.keys := haccount ▸ hkey
      obtain ⟨entry, hentry⟩ := (stored_currency_iff hsynced).mpr (Or.inr hold)
      exact mem_map.mpr ⟨⟨entry.cashAmount, key.cashCurrency⟩,
        (mem_storedCash _).mpr ⟨entry, hentry, rfl⟩, rfl⟩
    exact hcurrencies.mem_iff.mp hstored
  · rintro ⟨hnodup, hkept⟩
    have hgiven : (givenCash snapshot a).Nodup := by
      refine Nodup.of_map currency ?_
      rwa [← currencies_eq]
    have hstored : (storedCash tables' a).Nodup :=
      Nodup.of_map currency (storedCash_currencies_nodup tables' a)
    rw [perm_ext_iff_of_nodup hstored hgiven]
    intro money
    rw [mem_storedCash]
    -- the only cash of its currency is what has been written
    have hwritten : ∀ cash ∈ accountCash snapshot a,
        tables'.cash.get? ⟨a, cash.cash.currency⟩ = some (cashEntity cash) := by
      intro cash hcash
      have hunique : (accountCash snapshot a).filter
          (fun c => cashKey c = ⟨a, cash.cash.currency⟩) = [cash] := by
        have hkeys : ((accountCash snapshot a).map cashKey).Nodup := by
          refine Nodup.of_map CashKey.cashCurrency ?_
          rw [map_map]
          exact hnodup
        rw [← cashKey_account hcash]
        exact filter_key_singleton hkeys hcash
      rw [hsynced.cash _ rfl, hunique]
      rfl
    constructor
    · rintro ⟨entry, hentry, hamount⟩
      have hcurrency : money.currency ∈ currencies snapshot a := by
        rcases (stored_currency_iff hsynced).mp ⟨entry, hentry⟩ with hgiven | hold
        · exact hgiven
        · exact hkept _ hold rfl
      obtain ⟨cash, hcash, hsame⟩ := mem_map.mp hcurrency
      have hlast := hwritten cash hcash
      rw [hsame, hentry] at hlast
      refine mem_givenCash.mpr ⟨cash, hcash, ?_⟩
      cases hlast
      exact congrArg₂ mk hamount hsame
    · intro hmoney
      obtain ⟨cash, hcash, rfl⟩ := mem_givenCash.mp hmoney
      exact ⟨cashEntity cash, hwritten cash hcash, rfl⟩

theorem stored_nonempty_iff : storedCash tables' a ≠ [] ↔
    accountCash snapshot a ≠ [] ∨ ∃ key ∈ tables.cash.keys, key.brokerAccountId = a := by
  constructor
  · intro hne
    obtain ⟨money, hmoney⟩ := exists_mem_of_ne_nil _ hne
    obtain ⟨entry, hentry, -⟩ := (mem_storedCash _).mp hmoney
    rcases (stored_currency_iff hsynced).mp ⟨entry, hentry⟩ with hgiven | hold
    · obtain ⟨cash, hcash, -⟩ := mem_map.mp hgiven
      exact Or.inl (ne_nil_of_mem hcash)
    · exact Or.inr ⟨_, hold, rfl⟩
  · intro hsome
    have hcurrency : ∃ currency, currency ∈ currencies snapshot a ∨
        (⟨a, currency⟩ : CashKey) ∈ tables.cash.keys := by
      rcases hsome with hgiven | ⟨key, hkey, rfl⟩
      · obtain ⟨cash, hcash⟩ := exists_mem_of_ne_nil _ hgiven
        exact ⟨cash.cash.currency, Or.inl (mem_map_of_mem hcash)⟩
      · exact ⟨key.cashCurrency, Or.inr hkey⟩
    obtain ⟨currency, hcurrency⟩ := hcurrency
    obtain ⟨entry, hentry⟩ := (stored_currency_iff hsynced).mpr hcurrency
    exact ne_nil_of_mem (mem_storedCash ⟨entry.cashAmount, currency⟩ |>.mpr ⟨entry, hentry, rfl⟩)

/-- The cash read back is the stored cash where it is shown, and the mock cash elsewhere. -/
theorem cashBalancesFor_cases (mockCash : List CashBalance)
    (hexists : (∃ key, key.brokerAccountId = a ∧ ActivePosition tables' key) ↔
      completePositions snapshot a ≠ []) :
    (CashShown snapshot a tables ∧
        (cashBalancesFor mockCash tables' a).map CashBalance.cash = storedCash tables' a) ∨
      (¬ CashShown snapshot a tables ∧ cashBalancesFor mockCash tables' a = mockCash) := by
  rw [CashShown, ← hexists, ← stored_nonempty_iff hsynced, cashBalancesFor]
  by_cases hactive : ∃ key, key.brokerAccountId = a ∧ ActivePosition tables' key
  · have hpersisted := persisted_cash hactive
    by_cases hnil : persistedRealBrokerCash tables' a = []
    · refine Or.inr ⟨?_, by simp [hnil]⟩
      rintro ⟨-, hstored⟩
      rw [hnil] at hpersisted
      exact hstored hpersisted.symm
    · refine Or.inl ⟨⟨hactive, ?_⟩, by simpa [hnil] using hpersisted⟩
      rw [← hpersisted]
      exact fun hmap => hnil (map_eq_nil_iff.mp hmap)
  · exact Or.inr ⟨fun h => hactive h.1, by simp [persisted_nil hactive]⟩

/-- **The sync of an account reconciles it exactly when the tables before are reconcilable with
the snapshot.** -/
theorem reconciled_iff :
    Reconciled mockCash snapshot a tables' ↔ Reconcilable mockCash snapshot a tables := by
  constructor
  · intro h
    have hone := (held_iff_oneTable hsynced).mp h.held
    have hcash := h.cash
    refine ⟨hone, (others_iff_oneProvider hsynced).mp h.others,
      (quantity_iff_oneQuantity hsynced hone).mp h.quantity, ?_, ?_⟩
    · intro hshown
      rcases cashBalancesFor_cases hsynced mockCash
        (exists_active_iff hsynced h.held h.others) with ⟨-, hstored⟩ | ⟨hnot, -⟩
      · rw [hstored] at hcash
        exact (stored_perm_iff hsynced).mp hcash
      · exact absurd hshown hnot
    · intro hnot
      rcases cashBalancesFor_cases hsynced mockCash
        (exists_active_iff hsynced h.held h.others) with ⟨hshown, -⟩ | ⟨-, hmock⟩
      · exact absurd hshown hnot
      · rwa [hmock] at hcash
  · intro h
    have hheld := (held_iff_oneTable hsynced).mpr h.oneTable
    have hothers := (others_iff_oneProvider hsynced).mpr h.oneProvider
    refine ⟨hheld, hothers, (quantity_iff_oneQuantity hsynced h.oneTable).mpr h.oneQuantity, ?_⟩
    rcases cashBalancesFor_cases hsynced mockCash
      (exists_active_iff hsynced hheld hothers) with ⟨hshown, hstored⟩ | ⟨hnot, hmock⟩
    · rw [hstored]
      exact (stored_perm_iff hsynced).mpr (h.shown hshown)
    · rw [hmock]
      exact h.notShown hnot

end Cash

/-! ### Histories -/

/-- A call that succeeded, with the tables before it and after it. -/
structure Step where
  before : Tables
  call : Sync
  after : Tables

/-- The calls that succeed, one after the other; a call that fails is rolled back. -/
def history (tables : Tables) : List Sync → List Step
  | [] => []
  | call :: rest =>
      match syncBrokerConnection tables call with
      | .ok after => ⟨tables, call, after⟩ :: history after rest
      | .error _ => history tables rest

/-- Every account of the snapshot agrees with the tables. -/
def Agrees (mockCash : List CashBalance) (call : Sync) (tables : Tables) : Prop :=
  ∀ snapshot, call.snapshot = some snapshot → ∀ account ∈ snapshot.accounts,
    Reconciled mockCash snapshot account.brokerAccountId tables

/-- Every account of the snapshot can be reconciled with the tables. -/
def CanAgree (mockCash : List CashBalance) (call : Sync) (tables : Tables) : Prop :=
  ∀ snapshot, call.snapshot = some snapshot → ∀ account ∈ snapshot.accounts,
    Reconcilable mockCash snapshot account.brokerAccountId tables

theorem history_step {calls : List Sync} {step : Step} (h : step ∈ history tables calls) :
    syncBrokerConnection step.before step.call = .ok step.after := by
  induction calls generalizing tables with
  | nil => cases h
  | cons call rest ih =>
      rw [history] at h
      split at h
      · rename_i after hafter
        rcases mem_cons.mp h with rfl | hrest
        · exact hafter
        · exact ih hrest
      · exact ih h

theorem agrees_iff {step : Step} (h : syncBrokerConnection step.before step.call = .ok step.after) :
    Agrees mockCash step.call step.after ↔ CanAgree mockCash step.call step.before := by
  obtain ⟨snapshot, hsnapshot, hsynced⟩ := sync_eq_ok h
  constructor
  · intro hagrees given hgiven account haccount
    cases hsnapshot.symm.trans hgiven
    exact (reconciled_iff (hsynced account haccount)).mp (hagrees _ hgiven account haccount)
  · intro hcan given hgiven account haccount
    cases hsnapshot.symm.trans hgiven
    exact (reconciled_iff (hsynced account haccount)).mpr (hcan _ hgiven account haccount)

/-- **Every sync of a history agrees with its snapshot exactly when every one of them can.** -/
theorem history_agrees_iff (mockCash : List CashBalance) (tables : Tables) (calls : List Sync) :
    (∀ step ∈ history tables calls, Agrees mockCash step.call step.after) ↔
      ∀ step ∈ history tables calls, CanAgree mockCash step.call step.before :=
  ⟨fun h step hstep => (agrees_iff (history_step hstep)).mp (h step hstep),
    fun h step hstep => (agrees_iff (history_step hstep)).mpr (h step hstep)⟩

/-! ### A holding that loses its price -/

/-- A snapshot of one account with one position, and some cash. -/
def oneHolding (currentPrice : Option Money) (cash : List CashBalance) : Snapshot where
  accounts := [⟨"U1", "IBKR", "ACTIVE"⟩]
  positions := [⟨"U1", { provider := "IBKR", providerInstrumentId := "265598" }, 10,
    some ⟨150, "USD"⟩, currentPrice, none, none, "REAL_BROKER"⟩]
  cashBalances := cash

def callWith (snapshot : Snapshot) : Sync :=
  ⟨some ⟨"CONNECTED", "CONNECTED", ["PORTFOLIO_READ"]⟩, some snapshot, "g"⟩

def priced : Sync :=
  callWith (oneHolding (some ⟨190, "USD"⟩)
    [{ brokerAccountId := "U1", cash := ⟨100, "USD"⟩, source := "REAL_BROKER" }])

def unpriced : Sync := callWith (oneHolding none [])

/-- A holding that loses its price is active in both tables, with its old value. -/
theorem active_in_both_tables :
    ¬ ∀ step ∈ history Tables.empty [priced, unpriced], Agrees [] step.call step.after := by
  have hboth : ∃ step ∈ history Tables.empty [priced, unpriced], step.call = unpriced ∧
      ((step.after.positions.get? ⟨"U1", "IBKR", "265598"⟩).any fun row => row.active) = true ∧
      ((step.after.holdings.get? ⟨"U1", "IBKR", "265598"⟩).any fun row => row.active) = true := by
    decide
  intro hall
  obtain ⟨step, hstep, hcall, hposition, hholding⟩ := hboth
  rw [Option.any_eq_true] at hposition hholding
  have hagrees := hall step hstep
  rw [hcall] at hagrees
  have hheld : Held (oneHolding none []) "U1" ⟨"U1", "IBKR", "265598"⟩ := by
    rw [Held]
    decide +kernel
  rcases (hagrees _ rfl _ List.mem_cons_self).held _ hheld with ⟨-, hno⟩ | ⟨-, hno⟩
  · exact hno hholding
  · exact hno hposition

end InvestmentPlatform.Portfolio
