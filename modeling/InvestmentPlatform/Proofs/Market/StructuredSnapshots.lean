/-
Structured snapshots over a run of collections of one instrument and provider mapping.

What a record holds under a key is the fact of the latest collection that returned the key, with its
own date where later collections left it out; the second time it is left out the date is there
already.  So the dates of a record are dates of the collections, and a record of collections whose
dates are usual never makes a due test raise.

A class is acquired again while any of its facts is old, retained ones among them.  A refresh settles
a class only where every retained fact of it is still within its lifetime: a key that a provider
stops returning keeps its class due for ever.
-/
import InvestmentPlatform.Proofs.Market.SnapshotDue
import Mathlib.Data.List.Induction

namespace InvestmentPlatform.Market.StructuredSnapshots

open List Option Dict ProvenancedValue Dict

variable {S N : Type}

/-! ### Runs -/

/-- A collection and when it is persisted. -/
structure Collection (S N : Type) where
  snapshot : StructuredMarketSnapshot S N
  now : DateTime

section

variable (decimal : String → Option ℚ)

/-- The record after a run of collections, the oldest first. -/
def recordAfter (history : List (Collection S N)) : Option (StructuredMarketSnapshotRecord S N) :=
  history.foldl (fun previous c =>
    some (persistStructuredSnapshot decimal previous c.snapshot c.now)) none

theorem recordAfter_concat (history : List (Collection S N)) (c : Collection S N) :
    recordAfter decimal (history ++ [c]) =
      some (persistStructuredSnapshot decimal (recordAfter decimal history) c.snapshot c.now) := by
  unfold recordAfter
  rw [foldl_append]
  rfl

end

/-- The latest collection with a property, and what came after it. -/
def Latest (has : Collection S N → Prop) (history : List (Collection S N)) (c : Collection S N)
    (after : List (Collection S N)) : Prop :=
  has c ∧ (∀ d ∈ after, ¬ has d) ∧ ∃ before, history = before ++ c :: after

variable {has : Collection S N → Prop} {history : List (Collection S N)}

theorem Latest.here {c : Collection S N} (h : has c) : Latest has (history ++ [c]) c [] :=
  ⟨h, fun _ hd => absurd hd not_mem_nil, history, rfl⟩

theorem Latest.later {after : List (Collection S N)}
    {c d : Collection S N} (h : Latest has history c after) (hd : ¬ has d) :
    Latest has (history ++ [d]) c (after ++ [d]) := by
  obtain ⟨hc, hafter, before, rfl⟩ := h
  refine ⟨hc, fun e he => ?_, before, by rw [List.append_assoc, cons_append]⟩
  rcases mem_append.mp he with he | he
  · exact hafter e he
  · rw [mem_singleton.mp he]
    exact hd

theorem Latest.mem {after : List (Collection S N)}
    {c : Collection S N} (h : Latest has history c after) : c ∈ history := by
  obtain ⟨-, -, before, rfl⟩ := h
  exact mem_append_right _ mem_cons_self

/-! ### One collection on top of a record -/

variable (decimal : String → Option ℚ)

section

variable (previous : Option (StructuredMarketSnapshotRecord S N))

section

variable (snapshot : StructuredMarketSnapshot S N)

/-- The facts after a collection: its own, and the retained ones. -/
theorem get?_persist (now : DateTime) (key : String) :
    (persistStructuredSnapshot decimal previous snapshot now).snapshot.facts.get? key =
      (snapshot.facts.get? key).or (previous.bind fun p =>
        (p.snapshot.facts.get? key).map (redated p.marketAsOf)) := by
  cases previous with
  | none => exact (or_none).symm
  | some p =>
      show (merged (retained p snapshot.facts) snapshot.facts).get? key = _
      unfold merged retained
      rw [get?_merge, get?_ofList_filter p.snapshot.facts
        (fun key => !snapshot.facts.keys.contains key) (redated p.marketAsOf)]
      cases hkey : snapshot.facts.get? key with
      | some fact => rfl
      | none =>
          have hnot : key ∉ snapshot.facts.keys := get?_eq_none.mp hkey
          rw [if_pos (by simpa using hnot)]
          rfl

theorem marketAsOf_persist (now : DateTime) :
    (persistStructuredSnapshot decimal previous snapshot now).marketAsOf = snapshot.marketAsOf ∧
    (persistStructuredSnapshot decimal previous snapshot now).snapshot.marketAsOf =
      snapshot.marketAsOf ∧
    (persistStructuredSnapshot decimal previous snapshot now).lastSuccessAt = some now := by
  cases previous with
  | none => exact ⟨rfl, rfl, rfl⟩
  | some p => exact ⟨rfl, rfl, rfl⟩

theorem stampOf_persist (now : DateTime) (c : DataClass) :
    (persistStructuredSnapshot decimal previous snapshot now).stampOf c =
      ((fresh decimal snapshot now).stampOf c).or (previous.bind fun p => p.stampOf c) := by
  cases previous with
  | none => cases c <;> exact (or_none).symm
  | some p => cases c <;> rfl

end

end

/-- A fact is retained once: its date is there the next time. -/
theorem redated_redated (m m' : Option DateTime) (fact : ProvenancedValue) :
    (fact.redated m).redated m' = fact.redated m := by
  unfold redated
  cases fact.asOfDate <;> cases m <;> cases fact.publishedAt <;> rfl

/-! ### Facts and stamps over a run -/

def Returned (key : String) (c : Collection S N) : Prop := (c.snapshot.facts.get? key).isSome

/-- What a record holds under a key. -/
def HeldFrom (history : List (Collection S N)) (key : String) (fact : ProvenancedValue) : Prop :=
  ∃ c after f, Latest (Returned key) history c after ∧ c.snapshot.facts.get? key = some f ∧
    fact = if after = [] then f else f.redated c.snapshot.marketAsOf

variable {record : StructuredMarketSnapshotRecord S N} {key : String} {fact f : ProvenancedValue}

theorem facts_latest (history : List (Collection S N))
    (h : recordAfter decimal history = some record)
    (hfact : record.snapshot.facts.get? key = some fact) : HeldFrom history key fact := by
  induction history using List.reverseRecOn generalizing record fact with
  | nil => cases h
  | append_singleton history d ih =>
      rw [recordAfter_concat] at h
      obtain rfl := some.inj h
      rw [get?_persist] at hfact
      cases hd : d.snapshot.facts.get? key with
      | some f =>
          rw [hd] at hfact
          cases hfact
          exact ⟨d, [], fact, Latest.here (isSome_iff_exists.mpr ⟨fact, hd⟩), hd, rfl⟩
      | none =>
          rw [hd, none_or] at hfact
          obtain ⟨previous, hprevious, hheld⟩ := bind_eq_some_iff.mp hfact
          obtain ⟨before, hbefore, rfl⟩ := map_eq_some_iff.mp hheld
          obtain ⟨c, after, f, hlatest, hget, hdate⟩ := ih hprevious hbefore
          have hnot : ¬ Returned key d := by
            unfold Returned
            rw [hd]
            exact Bool.false_ne_true
          refine ⟨c, after ++ [d], f, hlatest.later hnot, hget, ?_⟩
          rw [if_neg (append_ne_nil_of_right_ne_nil _ (cons_ne_nil _ _)), hdate]
          by_cases hfirst : after = []
          · -- left out for the first time: the record before is that of the collection
            subst hfirst
            obtain ⟨-, -, start, rfl⟩ := hlatest
            rw [recordAfter_concat] at hprevious
            obtain rfl := some.inj hprevious
            rw [if_pos rfl, (marketAsOf_persist decimal _ _ _).1]
          · rw [if_neg hfirst, redated_redated]

/-- Every key a collection returned stays. -/
theorem returned_held (history : List (Collection S N))
    (h : recordAfter decimal history = some record) (hkey : ∃ c ∈ history, Returned key c) :
    (record.snapshot.facts.get? key).isSome := by
  induction history using List.reverseRecOn generalizing record with
  | nil => cases h
  | append_singleton history d ih =>
      rw [recordAfter_concat] at h
      obtain rfl := some.inj h
      rw [get?_persist, isSome_or]
      by_cases hd : Returned key d
      · have hsome : (d.snapshot.facts.get? key).isSome = true := hd
        rw [hsome, Bool.true_or]
      · obtain ⟨c, hc, hreturned⟩ := hkey
        rcases mem_append.mp hc with hc | hc
        · cases hprevious : recordAfter decimal history with
          | none =>
              obtain ⟨start, last, rfl⟩ := eq_nil_or_concat' history |>.resolve_left
                (ne_nil_of_mem hc)
              rw [recordAfter_concat] at hprevious
              cases hprevious
          | some previous =>
              have hheld := ih hprevious ⟨c, hc, hreturned⟩
              rw [bind_some, isSome_map, hheld, Bool.or_true]
        · rw [mem_singleton.mp hc] at hreturned
          exact absurd hreturned hd

/-- A key of the class. -/
def OfClass : DataClass → String → Prop
  | .price, key => key = "latestPrice"
  | .valuation, key => key ∈ valuationKeys
  | .fundamentals, key => key ∈ fundamentalsKeys
  | .analyst, key => isAnalystKey key = true

/-- A collection with a fact of the class. -/
def ReturnsClass (c : DataClass) (d : Collection S N) : Prop :=
  ∃ key, OfClass c key ∧ Returned key d

/-- The date a collection stamps a class with: a price the market's time, the others the time of
the retrieval. -/
def ownStamp (c : DataClass) (d : Collection S N) : Option DateTime :=
  match c with
  | .price => d.snapshot.marketAsOf
  | _ => some d.snapshot.retrievedAt

/-- A price that counts: a positive number, at a market time. -/
def Priced (d : Collection S N) : Prop :=
  Returned "latestPrice" d →
    (positiveDecimalFact decimal (d.snapshot.facts.get? "latestPrice")).isSome ∧
      d.snapshot.marketAsOf.isSome

theorem any_keys_iff (facts : Facts) (keys : List String) :
    (keys.any fun key => facts.keys.contains key) = true ↔
      ∃ key ∈ keys, (facts.get? key).isSome := by
  rw [List.any_eq_true]
  refine exists_congr fun key => and_congr_right fun _ => ?_
  rw [contains_iff_mem, isSome_get?]

theorem any_analyst_iff (facts : Facts) : facts.keys.any isAnalystKey = true ↔
      ∃ key, isAnalystKey key = true ∧ (facts.get? key).isSome := by
  rw [List.any_eq_true]
  refine exists_congr fun key => ?_
  rw [isSome_get?]
  exact and_comm

variable {c : DataClass}

theorem fresh_stamp {d : Collection S N} (hpriced : Priced decimal d) (h : ReturnsClass c d) :
    (fresh decimal d.snapshot d.now).stampOf c = ownStamp c d ∧ (ownStamp c d).isSome := by
  obtain ⟨key, hclass, hreturned⟩ := h
  cases c with
  | price =>
      have hkey : key = "latestPrice" := hclass
      subst hkey
      obtain ⟨hpositive, hmarket⟩ := hpriced hreturned
      exact ⟨if_pos hpositive, hmarket⟩
  | valuation => exact ⟨if_pos ((any_keys_iff _ _).mpr ⟨key, hclass, hreturned⟩), rfl⟩
  | fundamentals => exact ⟨if_pos ((any_keys_iff _ _).mpr ⟨key, hclass, hreturned⟩), rfl⟩
  | analyst => exact ⟨if_pos ((any_analyst_iff _).mpr ⟨key, hclass, hreturned⟩), rfl⟩

theorem fresh_unstamped {d : Collection S N} (h : ¬ ReturnsClass c d) :
    (fresh decimal d.snapshot d.now).stampOf c = none := by
  cases c with
  | price =>
      have hnone : d.snapshot.facts.get? "latestPrice" = none := by
        by_contra hsome
        exact h ⟨"latestPrice", rfl, isSome_iff_ne_none.mpr hsome⟩
      show (if (positiveDecimalFact decimal (d.snapshot.facts.get? "latestPrice")).isSome = true
        then d.snapshot.marketAsOf else none) = none
      rw [hnone]
      exact if_neg Bool.false_ne_true
  | valuation =>
      exact if_neg fun hany => h ((any_keys_iff _ _).mp hany)
  | fundamentals =>
      exact if_neg fun hany => h ((any_keys_iff _ _).mp hany)
  | analyst =>
      exact if_neg fun hany => h ((any_analyst_iff _).mp hany)

/-- The stamp of a class is that of the latest collection with a fact of it. -/
theorem stamp_latest (history : List (Collection S N))
    (h : recordAfter decimal history = some record) (hpriced : ∀ d ∈ history, Priced decimal d)
    (hc : ∃ d ∈ history, ReturnsClass c d) :
    ∃ d after, Latest (ReturnsClass c) history d after ∧ record.stampOf c = ownStamp c d ∧
      (ownStamp c d).isSome := by
  induction history using List.reverseRecOn generalizing record with
  | nil => cases h
  | append_singleton history d ih =>
      rw [recordAfter_concat] at h
      obtain rfl := some.inj h
      rw [stampOf_persist]
      by_cases hd : ReturnsClass c d
      · obtain ⟨hstamp, hsome⟩ := fresh_stamp decimal
          (hpriced d (mem_append_right _ (mem_singleton_self d))) hd
        refine ⟨d, [], Latest.here hd, ?_, hsome⟩
        obtain ⟨stamp, heq⟩ := isSome_iff_exists.mp hsome
        rw [hstamp, heq, some_or]
      · obtain ⟨e, he, hreturns⟩ := hc
        have hmem : e ∈ history := by
          rcases mem_append.mp he with he | he
          · exact he
          · exact absurd (mem_singleton.mp he ▸ hreturns) hd
        rw [fresh_unstamped decimal hd, none_or]
        cases hprevious : recordAfter decimal history with
        | none =>
            obtain ⟨start, last, rfl⟩ := eq_nil_or_concat' history |>.resolve_left
              (ne_nil_of_mem hmem)
            rw [recordAfter_concat] at hprevious
            cases hprevious
        | some previous =>
            obtain ⟨f, after, hlatest, hstamp, hsome⟩ := ih hprevious
              (fun d hd => hpriced d (mem_append_left _ hd)) ⟨e, hmem, hreturns⟩
            exact ⟨f, after ++ [d], hlatest.later hd, hstamp, hsome⟩

theorem unstamped (history : List (Collection S N)) (h : recordAfter decimal history = some record)
    (hc : ∀ d ∈ history, ¬ ReturnsClass c d) : record.stampOf c = none := by
  induction history using List.reverseRecOn generalizing record with
  | nil => cases h
  | append_singleton history d ih =>
      rw [recordAfter_concat] at h
      obtain rfl := some.inj h
      rw [stampOf_persist, fresh_unstamped decimal
        (hc d (mem_append_right _ (mem_singleton_self d))), none_or]
      cases hprevious : recordAfter decimal history with
      | none => rfl
      | some previous => exact ih hprevious fun d hd => hc d (mem_append_left _ hd)

/-! ### The dates of a record are dates of its collections -/

/-- Every date of a collection. -/
def Collection.dates (d : Collection S N) : List DateTime :=
  d.snapshot.retrievedAt :: d.snapshot.marketAsOf.toList ++
    d.snapshot.facts.values.flatMap fun fact =>
      fact.asOfDate.toList ++ fact.publishedAt.toList ++ [fact.retrievedAt]

theorem Collection.mem_dates_fact {d : Collection S N}
    (hget : d.snapshot.facts.get? key = some f) {x : DateTime}
    (hx : x ∈ f.asOfDate.toList ++ f.publishedAt.toList ++ [f.retrievedAt]) : x ∈ d.dates :=
  mem_append_right _ (mem_flatMap.mpr ⟨f, mem_values.mpr ⟨key, hget⟩, hx⟩)

theorem Collection.mem_dates_market {d : Collection S N} {x : DateTime}
    (hx : x ∈ d.snapshot.marketAsOf) : x ∈ d.dates :=
  mem_append_left _ (mem_cons_of_mem _ (mem_toList.mpr hx))

theorem Collection.mem_dates_retrieved (d : Collection S N) :
    d.snapshot.retrievedAt ∈ d.dates := mem_append_left _ mem_cons_self

/-- The date of a retained fact is a date of its collection. -/
theorem redated_dates {d : Collection S N} (hget : d.snapshot.facts.get? key = some f) :
    ∀ x ∈ (f.redated d.snapshot.marketAsOf).asOfDate.toList ++ [f.retrievedAt], x ∈ d.dates := by
  intro x hx
  rcases mem_append.mp hx with hx | hx
  · rcases or_eq_some_iff.mp (mem_toList.mp hx) with hx | ⟨-, hx⟩
    · rcases or_eq_some_iff.mp hx with hx | ⟨-, hx⟩
      · rcases or_eq_some_iff.mp hx with hx | ⟨-, hx⟩
        · refine d.mem_dates_fact hget ?_
          rw [List.append_assoc]
          exact mem_append_left _ (mem_toList.mpr hx)
        · exact d.mem_dates_market hx
      · exact d.mem_dates_fact hget (mem_append_left _ (mem_append_right _ (mem_toList.mpr hx)))
    · rw [← some.inj hx]
      exact d.mem_dates_fact hget (mem_append_right _ (mem_singleton_self _))
  · exact d.mem_dates_fact hget (mem_append_right _ hx)

theorem held_dates (h : HeldFrom history key fact) :
    ∀ x ∈ fact.asOfDate.toList ++ [fact.retrievedAt], ∃ d ∈ history, x ∈ d.dates := by
  obtain ⟨c, after, f, hlatest, hget, rfl⟩ := h
  intro x hx
  refine ⟨c, hlatest.mem, ?_⟩
  by_cases hlast : after = []
  · rw [if_pos hlast] at hx
    refine c.mem_dates_fact hget ?_
    rcases mem_append.mp hx with hx | hx
    · rw [List.append_assoc]
      exact mem_append_left _ hx
    · exact mem_append_right _ hx
  · rw [if_neg hlast] at hx
    exact redated_dates hget x hx

theorem stamp_dates (history : List (Collection S N))
    (h : recordAfter decimal history = some record)
    (c : DataClass) : ∀ x ∈ record.stampOf c, ∃ d ∈ history, x ∈ d.dates := by
  induction history using List.reverseRecOn generalizing record with
  | nil => cases h
  | append_singleton history d ih =>
      rw [recordAfter_concat] at h
      obtain rfl := some.inj h
      intro x hx
      rw [stampOf_persist] at hx
      rcases or_eq_some_iff.mp hx with hx | ⟨-, hx⟩
      · refine ⟨d, mem_append_right _ (mem_singleton_self d), ?_⟩
        by_cases hd : ReturnsClass c d
        · cases c with
          | price =>
              have hmarket : x ∈ d.snapshot.marketAsOf := by
                have hite : (if (positiveDecimalFact decimal
                    (d.snapshot.facts.get? "latestPrice")).isSome = true
                  then d.snapshot.marketAsOf else none) = some x := hx
                rw [ite_none_right_eq_some] at hite
                exact hite.2
              exact d.mem_dates_market hmarket
          | valuation =>
              have hite : (if _ then some d.snapshot.retrievedAt else none) = some x := hx
              rw [ite_none_right_eq_some] at hite
              exact some.inj hite.2 ▸ d.mem_dates_retrieved
          | fundamentals =>
              have hite : (if _ then some d.snapshot.retrievedAt else none) = some x := hx
              rw [ite_none_right_eq_some] at hite
              exact some.inj hite.2 ▸ d.mem_dates_retrieved
          | analyst =>
              have hite : (if _ then some d.snapshot.retrievedAt else none) = some x := hx
              rw [ite_none_right_eq_some] at hite
              exact some.inj hite.2 ▸ d.mem_dates_retrieved
        · rw [fresh_unstamped decimal hd] at hx
          cases hx
      · obtain ⟨previous, hprevious, hstamp⟩ := bind_eq_some_iff.mp hx
        obtain ⟨e, he, hdate⟩ := ih hprevious x hstamp
        exact ⟨e, mem_append_left _ he, hdate⟩

theorem record_dates (history : List (Collection S N))
    (h : recordAfter decimal history = some record) :
    ∀ x ∈ record.dates, ∃ d ∈ history, x ∈ d.dates := by
  intro x hx
  unfold StructuredMarketSnapshotRecord.dates at hx
  simp only [mem_append, mem_toList, mem_flatMap] at hx
  rcases hx with ((((hx | hx) | hx) | hx) | hx) | ⟨fact, hfact, hx⟩
  · exact stamp_dates decimal history h .price x hx
  · exact stamp_dates decimal history h .valuation x hx
  · exact stamp_dates decimal history h .fundamentals x hx
  · exact stamp_dates decimal history h .analyst x hx
  · obtain ⟨start, last, rfl⟩ := eq_nil_or_concat' history |>.resolve_left (by
      rintro rfl
      cases h)
    rw [recordAfter_concat] at h
    obtain rfl := some.inj h
    rw [(marketAsOf_persist decimal _ _ _).2.1] at hx
    exact ⟨last, mem_append_right _ (mem_singleton_self last), last.mem_dates_market hx⟩
  · obtain ⟨key, hget⟩ := mem_values.mp hfact
    refine held_dates (facts_latest decimal history h hget) x ?_
    rw [mem_append, mem_toList]
    exact hx

/-! ### What is asked of a collection -/

/-- What is asked of a collection: dates that compare and none after its retrieval, and of a price
that it is positive and has a market time. -/
structure Sound (d : Collection S N) : Prop where
  usual : ∀ x ∈ d.dates, x.Usual
  timely : ∀ x ∈ d.dates, x.instant ≤ d.snapshot.retrievedAt.instant
  now : d.now.Aware
  clock : d.snapshot.retrievedAt.instant ≤ d.now.instant
  priced : Priced decimal d

/-- The collection has a fact of the class with a value, dated when it is persisted. -/
def ReturnsNow (c : DataClass) (d : Collection S N) : Prop :=
  ∃ key f, OfClass c key ∧ d.snapshot.facts.get? key = some f ∧ f.value.isSome ∧
    f.effective.instant = d.now.instant

variable (settings : Settings) (e : Exchange)

/-- What is asked of a refresh on top of the record before: a market time that is recent or that of
a session still the latest, and no fact of the class that is old, retained ones among them. -/
structure Settles (previous : Option (StructuredMarketSnapshotRecord S N)) (d : Collection S N) :
    Prop where
  price : ReturnsNow .price d → ∀ market ∈ d.snapshot.marketAsOf,
    Settled e market d.now (settings.ttl .price)
  retrieval : ∀ c ≠ .price, ReturnsNow c d →
    Fresh d.snapshot.retrievedAt d.now (settings.ttl c)
  returned : ∀ c ≠ .price, ReturnsNow c d → ∀ key, OfClass c key →
    ∀ f ∈ d.snapshot.facts.get? key, f.value.isSome → Fresh f.effective d.now (settings.ttl c)
  retained : ∀ c ≠ .price, ReturnsNow c d → ∀ key, OfClass c key →
    d.snapshot.facts.get? key = none → ∀ p ∈ previous, ∀ f ∈ p.snapshot.facts.get? key,
      f.value.isSome → Fresh (f.redated p.marketAsOf).effective d.now (settings.ttl c)

/-- Every step of the run is sound and settles what it refreshes. -/
def Orderly (history : List (Collection S N)) : Prop :=
  ∀ before d after, history = before ++ d :: after →
    Sound decimal d ∧ Settles settings e (recordAfter decimal before) d

variable {decimal settings e}

theorem Orderly.sound (h : Orderly decimal settings e history) :
    ∀ d ∈ history, Sound decimal d := by
  intro d hd
  obtain ⟨before, after, heq⟩ := append_of_mem hd
  exact (h before d after heq).1

theorem Orderly.usual (h : Orderly decimal settings e history)
    (hrecord : recordAfter decimal history = some record) : ∀ x ∈ record.dates, x.Usual := by
  intro x hx
  obtain ⟨d, hd, hdate⟩ := record_dates decimal history hrecord x hx
  exact (h.sound d hd).usual x hdate

/-! ### What a record promises -/

/-- The facts are the same but for the date they are retained with. -/
def SameFact (f fact : ProvenancedValue) : Prop :=
  fact.value = f.value ∧ fact.unit = f.unit ∧ fact.sourceUrl = f.sourceUrl ∧
    fact.sourceName = f.sourceName ∧ fact.publishedAt = f.publishedAt ∧
    fact.retrievedAt = f.retrievedAt

variable (decimal settings e)

/-- What the record after a run promises. -/
structure Kept (history : List (Collection S N)) (record : StructuredMarketSnapshotRecord S N) :
    Prop where
  /-- A stored fact is that of the latest collection with its key, dated no later than that
  collection. -/
  facts : ∀ key fact, record.snapshot.facts.get? key = some fact →
    ∃ c after f, Latest (Returned key) history c after ∧ c.snapshot.facts.get? key = some f ∧
      SameFact f fact ∧ (after = [] → fact = f) ∧
      fact.effective.instant ≤ c.snapshot.retrievedAt.instant
  /-- What was returned stays. -/
  held : ∀ key, (∃ c ∈ history, Returned key c) → (record.snapshot.facts.get? key).isSome
  /-- A stamp is that of the latest collection with a fact of the class. -/
  stamps : ∀ c, (∃ d ∈ history, ReturnsClass c d) →
    ∃ d after, Latest (ReturnsClass c) history d after ∧ record.stampOf c = ownStamp c d ∧
      (ownStamp c d).isSome
  unstamped : ∀ c, (∀ d ∈ history, ¬ ReturnsClass c d) → record.stampOf c = none
  /-- The due tests do not raise, whenever they are asked. -/
  requested : ∀ (now : DateTime) (requested : List DataClass) (baselineOnly : Bool), now.Aware →
    Returns (requestedStructuredDueClasses decimal settings e (some record) requested now
      baselineOnly)
  automatic : ∀ (now : DateTime) (marketOpen : Bool), now.Aware →
    Returns (structuredDueClasses settings (some record) marketOpen now)
  /-- Right after a collection with a fact of now for each requested class nothing is due. -/
  settled : ∀ last ∈ history.getLast?, ∀ requested : List DataClass,
    (∀ c ∈ requested, ReturnsNow c last) →
      requestedStructuredDueClasses decimal settings e (some record) requested last.now true =
        .ok []

variable {decimal settings e}

theorem held_sameFact (hsound : ∀ d ∈ history, Sound decimal d) (h : HeldFrom history key fact) :
    ∃ c after f, Latest (Returned key) history c after ∧ c.snapshot.facts.get? key = some f ∧
      SameFact f fact ∧ (after = [] → fact = f) ∧
      fact.effective.instant ≤ c.snapshot.retrievedAt.instant := by
  obtain ⟨c, after, f, hlatest, hget, rfl⟩ := h
  have htimely := (hsound c hlatest.mem).timely
  refine ⟨c, after, f, hlatest, hget, ?_, fun hlast => if_pos hlast, ?_⟩
  · by_cases hlast : after = []
    · rw [if_pos hlast]
      exact ⟨rfl, rfl, rfl, rfl, rfl, rfl⟩
    · rw [if_neg hlast]
      exact ⟨rfl, rfl, rfl, rfl, rfl, rfl⟩
  · have hof : ∀ g : ProvenancedValue, (∀ x ∈ g.asOfDate.toList ++ [g.retrievedAt], x ∈ c.dates) →
          g.effective.instant ≤ c.snapshot.retrievedAt.instant := by
      intro g hg
      refine htimely _ (hg _ ?_)
      unfold effective
      cases hdate : g.asOfDate with
      | none => exact mem_append_right _ (mem_singleton_self _)
      | some x => exact mem_append_left _ (mem_singleton_self _)
    by_cases hlast : after = []
    · rw [if_pos hlast]
      refine hof f fun x hx => c.mem_dates_fact hget ?_
      rcases mem_append.mp hx with hx | hx
      · rw [List.append_assoc]
        exact mem_append_left _ hx
      · exact mem_append_right _ hx
    · rw [if_neg hlast]
      exact hof _ (redated_dates hget)

/-- A key of a class among the facts. -/
theorem mem_classKeys {facts : Facts}
    (hget : facts.get? key = some f) : key ∈ classKeys facts c ↔ OfClass c key := by
  have hmem : key ∈ facts.keys := isSome_get?.mp (isSome_iff_exists.mpr ⟨f, hget⟩)
  cases c with
  | price => exact mem_singleton
  | valuation => exact Iff.rfl
  | fundamentals => exact Iff.rfl
  | analyst => exact mem_filter.trans (and_iff_right hmem)

variable {previous : Option (StructuredMarketSnapshotRecord S N)} {d : Collection S N}

/-- The values of a class after a refresh are those returned and those retained. -/
theorem classValues_fresh (hc : c ≠ .price) (hnow : ReturnsNow c d)
    (h : Settles settings e previous d) :
    ∀ f ∈ classValues (persistStructuredSnapshot decimal previous d.snapshot d.now).snapshot.facts
      c, Fresh f.effective d.now (settings.ttl c) := by
  intro f hf
  obtain ⟨hvalue, key, hkey, hget⟩ := mem_classValues.mp hf
  have hclass := (mem_classKeys hget).mp hkey
  rw [get?_persist] at hget
  rcases or_eq_some_iff.mp hget with hreturned | ⟨hnone, hretained⟩
  · exact h.returned c hc hnow key hclass f hreturned hvalue
  · obtain ⟨p, hp, hold⟩ := bind_eq_some_iff.mp hretained
    obtain ⟨g, hg, rfl⟩ := map_eq_some_iff.mp hold
    exact h.retained c hc hnow key hclass hnone p hp g hg hvalue

/-- A refreshed class is not due. -/
theorem refreshed_not_due (hsound : Sound decimal d) (h : Settles settings e previous d)
    (husual : ∀ x ∈ (persistStructuredSnapshot decimal previous d.snapshot d.now).dates, x.Usual)
    (hnow : ReturnsNow c d) :
    requestedDue decimal settings e
      (persistStructuredSnapshot decimal previous d.snapshot d.now) d.now c = .ok false := by
  have hreturns : ReturnsClass c d := by
    obtain ⟨key, f, hclass, hget, -⟩ := hnow
    exact ⟨key, hclass, isSome_iff_exists.mpr ⟨f, hget⟩⟩
  obtain ⟨hstamp, hsome⟩ := fresh_stamp decimal hsound.priced hreturns
  obtain ⟨stamp, hown⟩ := isSome_iff_exists.mp hsome
  have hrecorded : (persistStructuredSnapshot decimal previous d.snapshot d.now).stampOf c =
      some stamp := by
    rw [stampOf_persist, hstamp, hown, some_or]
  by_cases hc : c = .price
  · subst hc
    obtain ⟨key, f, hclass, hget, hvalue, hdate⟩ := hnow
    have hkey : key = "latestPrice" := hclass
    subst hkey
    have hmarket : d.snapshot.marketAsOf = some stamp := hown
    have hheld : (persistStructuredSnapshot decimal previous d.snapshot d.now).snapshot.facts.get?
        "latestPrice" = some f := by
      rw [get?_persist, hget, some_or]
    have hpositive := (hsound.priced (isSome_iff_exists.mpr ⟨f, hget⟩)).1
    have hold : stamp.instant ≤ d.now.instant :=
      (hsound.timely stamp (d.mem_dates_market hmarket)).trans hsound.clock
    refine priceDue_eq_false e decimal settings hsound.now
      (husual stamp (stampOf_mem_dates .price stamp hrecorded)) hrecorded (fun x hx => ?_)
      (by rw [hheld, ← hget]; exact hpositive) (h.price ⟨_, f, rfl, hget, hvalue, hdate⟩ stamp hmarket)
    refine ⟨(husual x (priceStamps_mem_dates x hx)).aware, ?_⟩
    -- the price is dated now, and the market time is no later
    have hprice : (persistStructuredSnapshot decimal previous d.snapshot d.now).lastPriceAt =
        some stamp := hrecorded
    unfold priceStamps at hx
    rw [hprice, hheld, (marketAsOf_persist decimal _ _ _).2.1, hmarket] at hx
    simp only [toList_some, mem_append, mem_singleton, bind_some, mem_toList] at hx
    rcases hx with (rfl | hx) | rfl
    · exact le_refl _
    · have heffective : f.effective = x := by
        unfold effective
        rw [mem_def.mp hx]
        rfl
      rw [← heffective, hdate]
      exact hold
    · exact le_refl _
  · have hretrieved : stamp = d.snapshot.retrievedAt := by
      cases c with
      | price => exact absurd rfl hc
      | valuation => exact (some.inj hown).symm
      | fundamentals => exact (some.inj hown).symm
      | analyst => exact (some.inj hown).symm
    have hfresh : Fresh stamp d.now (settings.ttl c) := hretrieved ▸ h.retrieval c hc hnow
    have hvalues : ∀ f ∈ classValues (persistStructuredSnapshot decimal previous d.snapshot
        d.now).snapshot.facts c, Fresh f.effective d.now (settings.ttl c) :=
      classValues_fresh hc hnow h
    have hne : classValues
        (persistStructuredSnapshot decimal previous d.snapshot d.now).snapshot.facts c ≠ [] := by
      obtain ⟨key, f, hclass, hget, hvalue, -⟩ := hnow
      have hheld : (persistStructuredSnapshot decimal previous d.snapshot
          d.now).snapshot.facts.get? key = some f := by
        rw [get?_persist, hget, some_or]
      exact ne_nil_of_mem (mem_classValues.mpr
        ⟨hvalue, key, (mem_classKeys hheld).mpr hclass, hheld⟩)
    have hdue := factsDue_eq_false hsound.now husual hrecorded hfresh hne hvalues
    cases c with
    | price => exact absurd rfl hc
    | valuation => exact hdue
    | fundamentals => exact hdue
    | analyst => exact hdue

/-- **Snapshots keep their true dates and converge** where every collection is sound and settles
what it refreshes. -/
theorem snapshots_converge {history : List (Collection S N)}
    (h : Orderly decimal settings e history) :
    ∀ record, recordAfter decimal history = some record →
      Kept decimal settings e history record := by
  intro record hrecord
  have husual := h.usual hrecord
  have hsound := h.sound
  exact {
    facts := fun key fact hfact =>
      held_sameFact hsound (facts_latest decimal history hrecord hfact)
    held := fun key hkey => returned_held decimal history hrecord hkey
    stamps := fun c hc =>
      stamp_latest decimal history hrecord (fun d hd => (hsound d hd).priced) hc
    unstamped := fun c hc => unstamped decimal history hrecord hc
    requested := fun now requested baselineOnly hnow =>
      requestedStructuredDueClasses_returns e decimal settings hnow husual requested baselineOnly
    automatic := fun now marketOpen hnow => by
      refine structuredDueClasses_returns settings marketOpen hnow husual fun x hx => ?_
      obtain ⟨start, last, rfl⟩ := List.eq_nil_or_concat' history |>.resolve_left (by
        rintro rfl
        cases hrecord)
      rw [recordAfter_concat] at hrecord
      obtain rfl := Option.some.inj hrecord
      rw [(marketAsOf_persist decimal _ _ _).2.2] at hx
      rw [← Option.some.inj hx]
      exact (hsound last (List.mem_append_right _ (List.mem_singleton_self last))).now
    settled := fun last hlast requested hrequested => by
      obtain ⟨start, rfl⟩ := List.getLast?_eq_some_iff.mp hlast
      rw [recordAfter_concat] at hrecord
      obtain rfl := Option.some.inj hrecord
      have hstep := h start last [] rfl
      refine requestedStructuredDueClasses_eq_nil e decimal settings ?_ fun c hc =>
        refreshed_not_due hstep.1 hstep.2 husual (hrequested c hc)
      rw [(marketAsOf_persist decimal _ _ _).2.2]
      rfl }

/-! ### A ratio the provider stops returning -/

/-- An instant in UTC. -/
def utc (t : Instant) : DateTime := ⟨t, some 0⟩

def ratio (retrievedAt : Instant) : ProvenancedValue where
  value := some "21"
  unit := none
  asOfDate := none
  sourceUrl := "https://finance.yahoo.com"
  sourceName := "Yahoo Finance"
  publishedAt := none
  retrievedAt := utc retrievedAt

/-- A collection of valuation ratios, persisted when it is retrieved. -/
def ratios (facts : Facts) (t : Instant) : Collection Unit Unit where
  snapshot :=
    { provider := "YAHOO_FINANCE"
      providerTicker := "ABC.NS"
      sourceUrl := "https://finance.yahoo.com"
      retrievedAt := utc t
      marketAsOf := none
      facts
      statementFacts := []
      news := [] }
  now := utc t

def monday : Instant := 1751241600000000

/-- Both ratios, and four days later the trailing one only. -/
def forwardDropped : List (Collection Unit Unit) :=
  [ratios (Dict.empty.set "trailingPE" (ratio monday) |>.set "forwardPE" (ratio monday)) monday,
    ratios (Dict.empty.set "trailingPE" (ratio (monday + 4 * dayLength))) (monday + 4 * dayLength)]

/-- The defaults. -/
def defaultSettings : Settings := ⟨300, 86400, 86400, 604800⟩

/-- An exchange without calendar rows. -/
def noCalendar : Exchange where
  upper := id
  zoneInfo _ := none
  zone_lt _ _ h := by cases h
  market := "XNSE"
  schedules := []
  exceptions := []

/-- The refreshed class is due again at once, as the ratio left out is four days old. -/
theorem dropped_ratio_stays_due : ¬ ∀ (history : List (Collection Unit Unit))
    (record : StructuredMarketSnapshotRecord Unit Unit),
    recordAfter (fun _ => none) history = some record →
      Kept (fun _ => none) defaultSettings noCalendar history record := by
  intro h
  have hrecord : recordAfter (fun _ => none) forwardDropped = some _ := rfl
  have hnow : ∀ c ∈ [DataClass.valuation], ReturnsNow c (ratios (Dict.empty.set "trailingPE"
      (ratio (monday + 4 * dayLength))) (monday + 4 * dayLength)) := by
    intro c hc
    rw [List.mem_singleton.mp hc]
    exact ⟨"trailingPE", ratio (monday + 4 * dayLength), List.mem_cons_self, rfl, rfl, rfl⟩
  have hdue := (h forwardDropped _ hrecord).settled _ rfl [.valuation] hnow
  have hwhat : requestedStructuredDueClasses (fun _ => none) defaultSettings noCalendar
      (recordAfter (fun _ => none) forwardDropped) [.valuation] (utc (monday + 4 * dayLength))
      true = .ok [.valuation] := by rfl
  rw [hrecord] at hwhat
  cases hdue.symm.trans hwhat

/-- One collection of a trailing ratio. -/
def trailingOnly : List (Collection Unit Unit) :=
  [ratios (Dict.empty.set "trailingPE" (ratio monday)) monday]

theorem utc_monday_usual : (utc monday).Usual :=
  ⟨⟨0, rfl, by decide⟩, by decide, by decide⟩

theorem trailing_sound {d : Collection Unit Unit}
    (hd : d = ratios (empty.set "trailingPE" (ratio monday)) monday) :
    Sound (fun _ => none) d := by
  subst hd
  have hdates : (ratios (empty.set "trailingPE" (ratio monday)) monday).dates =
      [utc monday, utc monday] := rfl
  have hall : ∀ x ∈ (ratios (empty.set "trailingPE" (ratio monday)) monday).dates,
      x = utc monday := by
    rw [hdates]
    exact fun x hx => (mem_pair.mp hx).elim id id
  exact {
    usual := fun x hx => hall x hx ▸ utc_monday_usual
    timely := fun x hx => hall x hx ▸ le_refl _
    now := rfl
    clock := le_refl _
    priced := fun h => absurd h Bool.false_ne_true }

theorem trailingOnly_orderly : Orderly (fun _ => none) defaultSettings noCalendar trailingOnly := by
  intro before d after heq
  obtain ⟨rfl, rest⟩ : before = [] ∧ d :: after = trailingOnly := by
    cases before with
    | nil => exact ⟨rfl, heq.symm⟩
    | cons b before =>
        have hlength := congrArg List.length heq
        rw [cons_append, length_cons, length_append, length_cons] at hlength
        exact absurd hlength (by show ¬ (1 = _); omega)
  have hd : d = ratios (empty.set "trailingPE" (ratio monday)) monday :=
    (List.cons.inj rest).1
  have hfacts : ∀ key, ∀ f ∈ d.snapshot.facts.get? key, f = ratio monday := by
    intro key f hf
    rw [hd] at hf
    have hget : (empty.set "trailingPE" (ratio monday)).get? key = some f := hf
    rw [get?_set] at hget
    split_ifs at hget
    · exact (some.inj hget).symm
    · cases hget
  have hfresh : ∀ c, Fresh (utc monday) d.now (defaultSettings.ttl c) := by
    rw [hd]
    intro c
    cases c <;> exact ⟨le_refl _, by decide⟩
  refine ⟨trailing_sound hd, ?_⟩
  exact {
    price := fun h market hmarket => by
      rw [hd] at hmarket
      cases hmarket
    retrieval := fun c _ _ => by
      have hretrieved : d.snapshot.retrievedAt = utc monday := by rw [hd]; rfl
      rw [hretrieved]
      exact hfresh c
    returned := fun c _ _ key _ f hf _ => by
      rw [hfacts key f hf]
      exact hfresh c
    retained := fun c _ _ key _ _ p hp => by cases hp }

theorem snapshots_converge_trailingOnly : ∃ record,
    recordAfter (fun _ => none) trailingOnly = some record ∧
      Kept (fun _ => none) defaultSettings noCalendar trailingOnly record := by
  have hsome : (recordAfter (fun _ => none) trailingOnly).isSome = true := rfl
  obtain ⟨record, hrecord⟩ := Option.isSome_iff_exists.mp hsome
  exact ⟨record, hrecord, snapshots_converge trailingOnly_orderly record hrecord⟩

end InvestmentPlatform.Market.StructuredSnapshots
