/-
The breakdowns of a portfolio agree with its total.

Money of one currency adds up without rounding, so a total is the sum of what the positions are
worth, in whatever order they come; each breakdown is a tally of the same worths.  The calculator
throws what the FX provider throws, and for a cash balance without an amount, and nothing else.
-/
import InvestmentPlatform.Lib.Buckets
import InvestmentPlatform.Lib.Fallible
import InvestmentPlatform.Portfolio.Calculator

namespace InvestmentPlatform.PortfolioCalculator

open Fallible List Dict Money
open Buckets
open HalfUp

variable {E : Type} (getRate : String → String → Except E ℚ)

/-- What an amount of money is worth in a currency, where the provider has the rate. -/
def worth (baseCurrency : String) (money : Option Money) : ℚ :=
  match money with
  | none => 0
  | some money =>
      match getRate money.currency baseCurrency with
      | .error _ => 0
      | .ok rate => setScale 4 (money.amount * rate)

/-- What a position contributes. -/
def positionWorth (baseCurrency : String) (position : PortfolioPosition) : ℚ :=
  worth getRate baseCurrency position.marketValue

/-- Thrown for this amount: there is none, or the provider threw. -/
def ThrownFor (baseCurrency : String) (money : Option Money) (thrown : Thrown E) : Prop :=
  match money with
  | none => thrown = .nullPointer
  | some money =>
      ∃ failure, getRate money.currency baseCurrency = .error failure ∧
        thrown = .provider failure

/-- What `summarize` may throw. -/
inductive MayThrow (baseCurrency : String) (positions : List PortfolioPosition)
    (cashBalances : List BrokerCashBalance) (thrown : Thrown E) : Prop where
  | marketValue (position : PortfolioPosition) (hmem : position ∈ positions) (money : Money)
      (hmoney : position.marketValue = some money)
      (h : ThrownFor getRate baseCurrency (some money) thrown)
  | costBasis (position : PortfolioPosition) (hmem : position ∈ positions)
      (h : ThrownFor getRate baseCurrency (some position.costBasis) thrown)
  | cash (balance : BrokerCashBalance) (hmem : balance ∈ cashBalances)
      (h : ThrownFor getRate baseCurrency balance.cash thrown)

/-! ### Money -/

variable {getRate} {baseCurrency : String}

variable {R : Thrown E → Prop}

theorem Money.of_ends {currency : String} (h : isCurrency currency = true) (amount : ℚ) :
    Ends (of amount currency)
      (fun money => money.amount = setScale 4 amount ∧ money.currency = currency) R := by
  unfold of
  rw [dif_pos h]
  exact ⟨rfl, rfl⟩

theorem Money.zero_ends (h : isCurrency baseCurrency = true) : Ends (zero baseCurrency)
      (fun money => money.amount = 0 ∧ money.currency = baseCurrency) R := by
  refine (of_ends h 0).mono ?_ fun _ h => h
  rintro money ⟨hamount, hcurrency⟩
  exact ⟨hamount.trans (setScale_of_onScale OnScale.zero), hcurrency⟩

theorem Money.add_ends {money other : Money} (h : money.currency = other.currency) :
    Ends (money.add other)
      (fun sum => sum.amount = money.amount + other.amount ∧ sum.currency = money.currency) R := by
  unfold add requireSameCurrency
  rw [if_pos h]
  refine (of_ends money.iso _).mono ?_ fun _ h => h
  rintro sum ⟨hamount, hcurrency⟩
  exact ⟨hamount.trans (setScale_of_onScale (money.scaled.add other.scaled)), hcurrency⟩

theorem Money.subtract_ends {money other : Money} (h : money.currency = other.currency) :
    Ends (money.subtract other)
      (fun rest => rest.amount = money.amount - other.amount ∧ rest.currency = money.currency)
      R := by
  unfold subtract requireSameCurrency
  rw [if_pos h]
  refine (of_ends money.iso _).mono ?_ fun _ h => h
  rintro rest ⟨hamount, hcurrency⟩
  exact ⟨hamount.trans (setScale_of_onScale (money.scaled.sub other.scaled)), hcurrency⟩

theorem convert_ends (h : isCurrency baseCurrency = true) (money : Option Money) :
    Ends (convert getRate money baseCurrency)
      (fun converted => converted.amount = worth getRate baseCurrency money ∧
        converted.currency = baseCurrency)
      (ThrownFor getRate baseCurrency money) := by
  cases money with
  | none => rfl
  | some money =>
      unfold convert worth
      dsimp only
      cases hrate : getRate money.currency baseCurrency with
      | error failure => exact ⟨failure, hrate, rfl⟩
      | ok rate => exact of_ends h _

variable (getRate) in
theorem addConverted_ends (h : isCurrency baseCurrency = true) {total : Money}
    (htotal : total.currency = baseCurrency) (money : Option Money) :
    Ends (addConverted getRate baseCurrency total money)
      (fun sum => sum.amount = total.amount + worth getRate baseCurrency money ∧
        sum.currency = baseCurrency)
      (ThrownFor getRate baseCurrency money) := by
  unfold addConverted
  refine (convert_ends h money).bind ?_
  rintro converted ⟨hamount, hcurrency⟩
  refine (add_ends (htotal.trans hcurrency.symm)).mono ?_ fun _ h => h
  rintro sum ⟨hsum, hsame⟩
  exact ⟨hsum.trans (by rw [hamount]), hsame.trans htotal⟩

/-! ### The buckets -/

/-- Every value of the dict is in the currency. -/
def InCurrency (baseCurrency : String) (values : Dict (Option String) Money) : Prop :=
  ∀ key money, values.get? key = some money → money.currency = baseCurrency

theorem merge_ends {values : Dict (Option String) Money}
    {converted : Money} (hcurrency : converted.currency = baseCurrency)
    (hvalues : InCurrency baseCurrency values) (key : Option String) :
    Ends (merge values key converted)
      (fun merged => ∃ sum : Money, merged = values.set key sum ∧ sum.currency = baseCurrency ∧
        sum.amount = ((values.get? key).map amount).getD 0 + converted.amount) R := by
  unfold merge
  cases hheld : values.get? key with
  | none => exact ⟨converted, rfl, hcurrency, (zero_add _).symm⟩
  | some held =>
      have hsame : held.currency = baseCurrency := hvalues key held hheld
      refine (add_ends (hsame.trans hcurrency.symm)).bind ?_
      rintro sum ⟨hamount, hsum⟩
      exact ⟨sum, rfl, hsum.trans hsame, hamount⟩

theorem InCurrency.set {values : Dict (Option String) Money}
    (h : InCurrency baseCurrency values) {key : Option String} {sum : Money}
    (hsum : sum.currency = baseCurrency) : InCurrency baseCurrency (values.set key sum) := by
  intro other money hmoney
  rw [get?_set] at hmoney
  split at hmoney
  · cases hmoney
    exact hsum
  · exact h other money hmoney

/-- What the loop of a breakdown has after some positions. -/
structure Tallied (getRate : String → String → Except E ℚ) (baseCurrency : String)
    (classifier : PortfolioPosition → Option String) (positions : List PortfolioPosition)
    (state : Money × Dict (Option String) Money) : Prop where
  amount : state.1.amount = total (positionWorth getRate baseCurrency) positions
  currency : state.1.currency = baseCurrency
  values : InCurrency baseCurrency state.2
  tally : Tally classifier (positionWorth getRate baseCurrency) Money.amount positions state.2

theorem allocate_ends (h : isCurrency baseCurrency = true)
    {classifier : PortfolioPosition → Option String} {done : List PortfolioPosition}
    {state : Money × Dict (Option String) Money}
    (hstate : Tallied getRate baseCurrency classifier done state) (position : PortfolioPosition) :
    Ends (allocate getRate classifier baseCurrency state position)
      (Tallied getRate baseCurrency classifier (done ++ [position]))
      (ThrownFor getRate baseCurrency position.marketValue) := by
  unfold allocate
  refine (convert_ends h position.marketValue).bind ?_
  rintro converted ⟨hworth, hcurrency⟩
  refine (add_ends (hstate.currency.trans hcurrency.symm)).bind ?_
  rintro sum ⟨hsum, hsame⟩
  refine (merge_ends hcurrency hstate.values (classifier position)).bind ?_
  rintro merged ⟨bucket, rfl, hbucket, hamount⟩
  refine ⟨?_, hsame.trans hstate.currency, hstate.values.set hbucket, hstate.tally.snoc ?_⟩
  · rw [total_snoc, ← hstate.amount, hsum, hworth]
    rfl
  · rw [hamount, hworth]
    rfl

theorem bucketValues_ends (h : isCurrency baseCurrency = true)
    (positions : List PortfolioPosition) (classifier : PortfolioPosition → Option String)
    (hraised : ∀ p ∈ positions, ∀ thrown, ThrownFor getRate baseCurrency p.marketValue thrown →
      R thrown) :
    Ends (bucketValues getRate positions classifier baseCurrency)
      (Tallied getRate baseCurrency classifier positions) R := by
  unfold bucketValues
  refine (zero_ends h).bind ?_
  rintro zero ⟨hzero, hcurrency⟩
  have hstart : Tallied getRate baseCurrency classifier [] (zero, Dict.empty) :=
    ⟨hzero, hcurrency, fun _ _ hnone => (Option.some_ne_none _ hnone.symm).elim, Tally.nil⟩
  refine Ends.foldlM (Tallied getRate baseCurrency classifier) ?_ hstart
  intro done state position hmem hstate
  exact (allocate_ends h hstate position).mono (fun _ h => h) (hraised position hmem)

/-! ### The percentages -/

/-- A value in percent of a total, by way of eight decimals. -/
def percent (value total : ℚ) : ℚ :=
  if total = 0 then 0 else setScale 4 (setScale 8 (value / total) * 100)

theorem percentage_eq (value total : ℚ) :
    percentage value total = (.ok (percent value total) : Except (Thrown E) ℚ) := by
  unfold percentage percent divide
  by_cases h : total = 0
  · rw [if_pos h, if_pos h]
  · rw [if_neg h, if_neg h, if_neg h]
    rfl

/-- Two roundings are off by little. -/
theorem abs_percent_sub_le {value total : ℚ} (h : total ≠ 0) :
    |percent value total - value / total * 100| ≤ 51 / 1000000 := by
  unfold percent
  rw [if_neg h]
  have hratio := abs_le.mp (abs_setScale_sub_le 8 (value / total))
  have hpercent := abs_le.mp (abs_setScale_sub_le 4 (setScale 8 (value / total) * 100))
  rw [abs_le]
  constructor <;> linarith [hratio.1, hratio.2, hpercent.1, hpercent.2]

theorem abs_total_sub_le {α : Type} {f g : α → ℚ} {bound : ℚ} (l : List α)
    (h : ∀ a ∈ l, |f a - g a| ≤ bound) : |total f l - total g l| ≤ bound * l.length := by
  induction l with
  | nil => simp
  | cons a l ih =>
      have hhead := h a mem_cons_self
      have htail := ih fun b hb => h b (mem_cons_of_mem a hb)
      have hsplit : total f (a :: l) - total g (a :: l) =
          (f a - g a) + (total f l - total g l) := by
        rw [total_cons, total_cons]
        ring
      rw [hsplit, length_cons]
      push_cast
      linarith [abs_add_le (f a - g a) (total f l - total g l)]

theorem total_div_mul {α : Type} (f : α → ℚ) (whole : ℚ) (l : List α) :
    total (fun a => f a / whole * 100) l = total f l / whole * 100 := by
  induction l with
  | nil => simp
  | cons a l ih =>
      rw [total_cons, total_cons, ih]
      ring

/-- What is left of the buckets when only the percentages are kept. -/
structure Percentages (values : Dict (Option String) Money) (whole : ℚ)
    (percentages : Dict (Option String) ℚ) : Prop where
  items : percentages.items = values.items.map fun entry => (entry.1, percent entry.2.amount whole)

variable {whole : ℚ} {percentages : Dict (Option String) ℚ}

theorem Percentages.keys {values : Dict (Option String) Money}
    (h : Percentages values whole percentages) :
    percentages.keys = values.keys := by
  unfold Dict.keys
  rw [h.items, map_map]
  rfl

theorem Percentages.values {values : Dict (Option String) Money}
    (h : Percentages values whole percentages) :
    percentages.values = values.values.map fun money => percent money.amount whole := by
  unfold Dict.values
  rw [h.items, map_map, map_map]
  rfl

theorem Percentages.total_sub_le {values : Dict (Option String) Money}
    (h : Percentages values whole percentages)
    (hwhole : whole ≠ 0) (hsum : total amount values.values = whole) :
    |total id percentages.values - 100| ≤ 51 / 1000000 * percentages.size := by
  have htotal : total id percentages.values =
      total (fun money : Money => percent money.amount whole) values.values := by
    unfold total
    rw [h.values, map_map]
    rfl
  have hhundred : total (fun money : Money => money.amount / whole * 100) values.values = 100 := by
    rw [total_div_mul amount, hsum, div_self hwhole, one_mul]
  have hsize : percentages.size = values.values.length := by
    rw [← length_keys, h.keys, length_keys]
    exact (length_map _).symm
  rw [htotal, ← hhundred, hsize]
  exact abs_total_sub_le _ fun money _ => abs_percent_sub_le hwhole

/-- The percentages are put in one by one, each under a key of its own. -/
theorem percentages_ends (values : Dict (Option String) Money) (whole : ℚ) :
    Ends (values.items.foldlM (fun (percentages : Dict (Option String) ℚ) entry => do
        let pct ← percentage entry.2.amount whole
        return percentages.set entry.1 pct) Dict.empty)
      (Percentages values whole) R := by
  let pair : Option String × Money → Option String × ℚ :=
    fun entry => (entry.1, percent entry.2.amount whole)
  let inv : List (Option String × Money) → Dict (Option String) ℚ → Prop :=
    fun done percentages => done <+: values.items → percentages.items = done.map pair
  have hloop := Ends.foldlM (R := R) (l := values.items) (s := Dict.empty)
    (f := fun (percentages : Dict (Option String) ℚ) entry => do
      let pct ← percentage entry.2.amount whole
      return percentages.set entry.1 pct) inv ?_ (fun _ => rfl)
  · refine hloop.mono (fun percentages h => ⟨h ?_⟩) fun _ h => h
    exact prefix_rfl
  · intro done percentages entry _ hinv
    rw [percentage_eq]
    intro hdone
    obtain ⟨rest, hrest⟩ := hdone
    have hitems : percentages.items = done.map pair :=
      hinv ⟨entry :: rest, by rw [← hrest, List.append_assoc]; rfl⟩
    have hnodup : ((done ++ [entry] ++ rest).map Prod.fst).Nodup := hrest ▸ values.nodup
    have hfresh : entry.1 ∉ percentages.keys := by
      unfold Dict.keys
      rw [hitems, map_map]
      rw [List.append_assoc, map_append] at hnodup
      intro hmem
      exact (nodup_append.mp hnodup).2.2 _ hmem _ mem_cons_self rfl
    show (percentages.set entry.1 (percent entry.2.amount whole)).items = _
    rw [items_set_of_notMem hfresh, hitems, map_append]
    rfl

/-! ### A breakdown -/

/-- The breakdown is the tally of the positions, and its percentages are of their total. -/
structure Breaks (getRate : String → String → Except E ℚ) (baseCurrency : String)
    (positions : List PortfolioPosition) (classifier : PortfolioPosition → Option String)
    (whole : ℚ) (percentages : Dict (Option String) ℚ) : Prop where
  /-- The buckets have each position's worth in one place, and add up to the whole. -/
  buckets : ∃ state, bucketValues getRate positions classifier baseCurrency = .ok state ∧
    Tally classifier (positionWorth getRate baseCurrency) Money.amount positions state.2 ∧
    total Money.amount state.2.values = whole ∧ percentages.keys = state.2.keys
  hundred : whole ≠ 0 →
    |total id percentages.values - 100| ≤ 51 / 1000000 * percentages.size
  zero : whole = 0 → ∀ pct ∈ percentages.values, pct = 0

variable {positions : List PortfolioPosition}

theorem allocation_ends (h : isCurrency baseCurrency = true)
    (classifier : PortfolioPosition → Option String)
    (hraised : ∀ p ∈ positions, ∀ thrown, ThrownFor getRate baseCurrency p.marketValue thrown →
      R thrown) :
    Ends (allocation getRate positions classifier baseCurrency)
      (Breaks getRate baseCurrency positions classifier
        (total (positionWorth getRate baseCurrency) positions)) R := by
  have hbuckets := bucketValues_ends h positions classifier hraised
  unfold allocation
  cases hstate : bucketValues getRate positions classifier baseCurrency with
  | error thrown =>
      rw [hstate] at hbuckets
      exact hbuckets
  | ok state =>
      rw [hstate] at hbuckets
      have htallied : Tallied getRate baseCurrency classifier positions state := hbuckets
      have hsum := htallied.tally.total_values
      refine (percentages_ends state.2 state.1.amount).mono ?_ fun _ h => h
      intro percentages hpercentages
      refine ⟨⟨state, hstate, htallied.tally, hsum, hpercentages.keys⟩, ?_, ?_⟩
      · intro hwhole
        rw [← htallied.amount] at hwhole hsum
        exact hpercentages.total_sub_le hwhole hsum
      · intro hwhole pct hpct
        rw [hpercentages.values, htallied.amount] at hpct
        obtain ⟨money, -, rfl⟩ := mem_map.mp hpct
        exact if_pos hwhole

/-- The five breakdowns of a whole. -/
structure BreaksDown (getRate : String → String → Except E ℚ) (baseCurrency : String)
    (positions : List PortfolioPosition) (whole : ℚ) (breakdown : AllocationBreakdown) :
    Prop where
  country : Breaks getRate baseCurrency positions byCountry whole breakdown.country
  currency : Breaks getRate baseCurrency positions byCurrency whole breakdown.currency
  sector : Breaks getRate baseCurrency positions bySector whole breakdown.sector
  assetType : Breaks getRate baseCurrency positions byAssetType whole breakdown.assetType
  broker : Breaks getRate baseCurrency positions byBroker whole breakdown.broker

variable (getRate) in
theorem allocations_ends (h : isCurrency baseCurrency = true)
    (hraised : ∀ p ∈ positions, ∀ thrown, ThrownFor getRate baseCurrency p.marketValue thrown →
      R thrown) :
    Ends (allocations getRate positions baseCurrency) (BreaksDown getRate baseCurrency positions
        (total (positionWorth getRate baseCurrency) positions)) R := by
  unfold allocations
  refine (allocation_ends h byCountry hraised).bind fun country hcountry => ?_
  refine (allocation_ends h byCurrency hraised).bind fun currency hcurrency => ?_
  refine (allocation_ends h bySector hraised).bind fun sector hsector => ?_
  refine (allocation_ends h byAssetType hraised).bind fun assetType hassetType => ?_
  refine (allocation_ends h byBroker hraised).bind fun broker hbroker => ?_
  exact ⟨hcountry, hcurrency, hsector, hassetType, hbroker⟩

/-! ### The summary -/

/-- Every position has a market value. -/
def Valued (positions : List PortfolioPosition) : Prop :=
  ∀ p ∈ positions, p.marketValue.isSome

/-- What the loop of the summary has after some positions. -/
structure Summed (getRate : String → String → Except E ℚ) (baseCurrency : String)
    (complete : Bool) (positions : List PortfolioPosition) (state : Option Money × Money) :
    Prop where
  value : if complete then ∃ money, state.1 = some money ∧ money.currency = baseCurrency ∧
    money.amount = total (positionWorth getRate baseCurrency) positions else state.1 = none
  cost : state.2.amount =
    total (fun p : PortfolioPosition => worth getRate baseCurrency (some p.costBasis)) positions
  currency : state.2.currency = baseCurrency

theorem addPosition_ends (h : isCurrency baseCurrency = true) {complete : Bool}
    {done : List PortfolioPosition} {state : Option Money × Money}
    (hstate : Summed getRate baseCurrency complete done state) (position : PortfolioPosition)
    (hvalue : complete = true → ∀ thrown,
      ThrownFor getRate baseCurrency position.marketValue thrown → R thrown)
    (hcost : ∀ thrown, ThrownFor getRate baseCurrency (some position.costBasis) thrown → R thrown) :
    Ends (addPosition getRate baseCurrency state position)
      (Summed getRate baseCurrency complete (done ++ [position])) R := by
  obtain ⟨value, cost⟩ := state
  obtain ⟨hvalued, hcosted, hcurrency⟩ := hstate
  have hadd := addConverted_ends getRate h hcurrency (some position.costBasis)
  unfold addPosition
  cases complete with
  | false =>
      rw [if_neg Bool.false_ne_true] at hvalued
      cases hvalued
      refine (hadd.mono (fun _ h => h) hcost).bind ?_
      rintro sum ⟨hsum, hsame⟩
      refine ⟨rfl, ?_, hsame⟩
      rw [total_snoc, ← hcosted, hsum]
  | true =>
      rw [if_pos rfl] at hvalued
      obtain ⟨money, hmoney, hmoneyCurrency, hamount⟩ := hvalued
      cases hmoney
      have hmarket := addConverted_ends getRate h hmoneyCurrency position.marketValue
      have hmapped : Ends (some <$> addConverted getRate baseCurrency money position.marketValue)
          (fun value => ∃ sum : Money, value = some sum ∧ sum.currency = baseCurrency ∧
            sum.amount = total (positionWorth getRate baseCurrency) (done ++ [position])) R := by
        refine (hmarket.mono (fun _ h => h) (hvalue rfl)).map ?_
        rintro sum ⟨hsum, hsame⟩
        refine ⟨sum, rfl, hsame, ?_⟩
        rw [total_snoc, ← hamount, hsum]
        rfl
      refine hmapped.bind ?_
      rintro value hvalue
      refine (hadd.mono (fun _ h => h) hcost).bind ?_
      rintro sum ⟨hsum, hsame⟩
      refine ⟨hvalue, ?_, hsame⟩
      rw [total_snoc, ← hcosted, hsum]

/-- What a summary says, and that it agrees with its breakdowns. -/
structure Agrees (getRate : String → String → Except E ℚ) (portfolio : Portfolio)
    (positions : List PortfolioPosition) (summary : PortfolioSummary) : Prop where
  /-- There is a total when every position is valued, and it is the sum of their worths. -/
  reported : Valued positions → ∃ whole profit,
    summary.totalMarketValue = some whole ∧ summary.unrealizedProfitLoss = some profit ∧
    summary.unrealizedProfitLossPercent.isSome ∧
    whole.amount = total (positionWorth getRate portfolio.baseCurrency) positions ∧
    profit.amount = whole.amount - summary.totalCostBasis.amount ∧
    BreaksDown getRate portfolio.baseCurrency positions whole.amount summary.allocation
  unreported : ¬ Valued positions → summary.totalMarketValue = none ∧
    summary.unrealizedProfitLoss = none ∧ summary.unrealizedProfitLossPercent = none ∧
    summary.allocation = noAllocations

theorem valued_iff (positions : List PortfolioPosition) :
    (positions.all fun position => position.marketValue.isSome) = true ↔ Valued positions :=
  all_eq_true

/-- A position of a portfolio that is valued throughout is thrown for as its own value is. -/
theorem mayThrow_of_valued (cashBalances : List BrokerCashBalance) (hvalued : Valued positions)
    {p : PortfolioPosition} (hmem : p ∈ positions) {thrown : Thrown E}
    (h : ThrownFor getRate baseCurrency p.marketValue thrown) :
    MayThrow getRate baseCurrency positions cashBalances thrown := by
  obtain ⟨money, hmoney⟩ := Option.isSome_iff_exists.mp (hvalued p hmem)
  rw [hmoney] at h
  exact .marketValue p hmem money hmoney h

theorem positions_ends (h : isCurrency baseCurrency = true) (positions : List PortfolioPosition)
    (cashBalances : List BrokerCashBalance) {complete : Bool}
    (hcomplete : complete = true ↔ Valued positions) {zero : Money}
    (hzero : zero.amount = 0 ∧ zero.currency = baseCurrency) :
    Ends (positions.foldlM (addPosition getRate baseCurrency)
        (if complete then some zero else none, zero))
      (Summed getRate baseCurrency complete positions)
      (MayThrow getRate baseCurrency positions cashBalances) := by
  refine Ends.foldlM (Summed getRate baseCurrency complete) ?_ ?_
  · intro done state position hmem hstate
    refine addPosition_ends h hstate position ?_ ?_
    · intro hall thrown
      exact mayThrow_of_valued cashBalances (hcomplete.mp hall) hmem
    · intro thrown
      exact .costBasis position hmem
  · refine ⟨?_, hzero.1, hzero.2⟩
    cases complete with
    | false => rfl
    | true => exact ⟨zero, rfl, hzero.2, hzero.1⟩

theorem cash_ends (h : isCurrency baseCurrency = true) (positions : List PortfolioPosition)
    (cashBalances : List BrokerCashBalance) {zero : Money} (hzero : zero.currency = baseCurrency) :
    Ends (cashBalances.foldlM
        (fun cash balance => addConverted getRate baseCurrency cash balance.cash) zero)
      (fun cash => cash.currency = baseCurrency)
      (MayThrow getRate baseCurrency positions cashBalances) := by
  refine Ends.foldlM (fun _ (cash : Money) => cash.currency = baseCurrency) ?_ hzero
  intro done cash balance hmem hcash
  exact (addConverted_ends getRate h hcash balance.cash).mono (fun _ hsum => hsum.2)
    fun thrown => .cash balance hmem

/-- **A summary agrees with its breakdowns, and nothing is thrown but for a rate or a missing
amount of cash.** -/
theorem summarize_agrees {E : Type} (getRate : String → String → Except E ℚ)
    (portfolio : Portfolio) (positions : List PortfolioPosition)
    (cashBalances : List BrokerCashBalance) :
    Ends (summarize getRate portfolio positions cashBalances)
      (Agrees getRate portfolio positions)
      (MayThrow getRate portfolio.baseCurrency positions cashBalances) := by
  have hiso := portfolio.iso
  have hcomplete := valued_iff positions
  unfold summarize
  generalize (positions.all fun position => position.marketValue.isSome) = complete at hcomplete ⊢
  refine (Money.zero_ends hiso).bind fun zero hzero => ?_
  refine (positions_ends hiso positions cashBalances hcomplete hzero).bind ?_
  rintro ⟨value, costBasis⟩ hsummed
  refine (cash_ends hiso positions cashBalances hzero.2).bind fun cash _ => ?_
  obtain ⟨hvalue, -, hcurrency⟩ := hsummed
  cases complete with
  | false =>
      have hnot : ¬ Valued positions := fun h => Bool.false_ne_true (hcomplete.mpr h)
      rw [if_neg Bool.false_ne_true] at hvalue
      cases hvalue
      exact ⟨fun h => (hnot h).elim, fun _ => ⟨rfl, rfl, rfl, rfl⟩⟩
  | true =>
      have hvalued : Valued positions := hcomplete.mp rfl
      rw [if_pos rfl] at hvalue
      obtain ⟨whole, hwhole, hsame, hamount⟩ := hvalue
      cases hwhole
      have hprofit := Money.subtract_ends
        (R := MayThrow getRate portfolio.baseCurrency positions cashBalances)
        (hsame.trans hcurrency.symm)
      refine (hprofit.map (Q := fun profit => ∃ money : Money, profit = some money ∧
        money.amount = whole.amount - costBasis.amount) fun money h => ⟨money, rfl, h.1⟩).bind ?_
      rintro _ ⟨profit, rfl, hrest⟩
      dsimp only
      rw [percentage_eq]
      have hallocations := allocations_ends getRate hiso
        fun p hmem thrown => mayThrow_of_valued cashBalances hvalued hmem
      refine hallocations.bind fun allocation hbreaks => ?_
      refine ⟨fun _ => ⟨whole, profit, rfl, rfl, rfl, hamount, hrest, ?_⟩,
        fun hnot => (hnot hvalued).elim⟩
      rw [hamount]
      exact hbreaks

end InvestmentPlatform.PortfolioCalculator
