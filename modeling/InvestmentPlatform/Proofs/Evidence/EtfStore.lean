/-
What the ETF evidence store serves.

A table holds, for every id, the first evidence that was saved under it.  So a repeated save
changes nothing, and a reader sees every piece of evidence with the time of its first retrieval:
what it serves first is the newest observation, unless that observation repeats an older one.
-/
import InvestmentPlatform.Evidence.EtfStore

namespace InvestmentPlatform.Evidence.Etf

open Selection List Dict Function

variable {I : Type}

/-! ### What is saved -/

section

variable [DecidableEq I] (codec : Codec I)

/-- The call passes its checks. -/
def Save.accepted : Save I → Bool
  | .evidence _ => true
  | .acquisition saved attempt fence =>
    attempt.evidenceIds = saved.map (evidenceId codec) ∧
      ¬ ((∃ e ∈ saved, e.instrumentId ≠ attempt.instrumentId) ∧ attempt.metric ≠ "DISCOVERY") ∧
      ¬ fence.any fun owned => !(owned.1 && owned.2)

def Save.items : Save I → List EtfEvidence
  | .evidence e => [e]
  | .acquisition saved _ _ => saved

def Save.committed (save : Save I) : List EtfEvidence :=
  if save.accepted codec then save.items else []

/-- All evidence that is saved, in order. -/
def log (saves : List (Save I)) : List EtfEvidence := saves.flatMap (Save.committed codec)

theorem log_cons (save : Save I) (saves : List (Save I)) :
    log codec (save :: saves) = save.committed codec ++ log codec saves := flatMap_cons

def Store.insertAll (store : Store I) (evidence : List EtfEvidence) : Store I :=
  evidence.foldl (fun store e => store.insertEtfEvidence codec e) store

variable {codec} {store : Store I}

variable {evidence : List EtfEvidence} {attempt : Attempt I}

theorem saveEtfAcquisition_eq {fence : Option (Bool × Bool)} :
    store.save codec (.acquisition evidence attempt fence) =
      if (Save.acquisition evidence attempt fence).accepted codec then
        { store.insertAll codec evidence with
          attempts :=
            (store.insertAll codec evidence).attempts.setDefault attempt.attemptId attempt }
      else store := by
  unfold Store.save Store.saveEtfAcquisition Save.accepted
  dsimp only
  by_cases hids : attempt.evidenceIds = evidence.map (evidenceId codec)
  · by_cases hinstrument :
      (∃ e ∈ evidence, e.instrumentId ≠ attempt.instrumentId) ∧ attempt.metric ≠ "DISCOVERY"
    · rw [if_neg (not_not.mpr hids), if_pos hinstrument, if_neg]
      exact fun haccepted => (of_decide_eq_true haccepted).2.1 hinstrument
    · by_cases hfence : (fence.any fun owned => !(owned.1 && owned.2)) = true
      · rw [if_neg (not_not.mpr hids), if_neg hinstrument, if_pos hfence, if_neg]
        exact fun haccepted => (of_decide_eq_true haccepted).2.2 hfence
      · rw [if_neg (not_not.mpr hids), if_neg hinstrument, if_neg hfence,
          if_pos (decide_eq_true ⟨hids, hinstrument, hfence⟩)]
        rfl
  · rw [if_pos hids, if_neg]
    exact fun haccepted => hids (of_decide_eq_true haccepted).1

variable (codec store) in
/-- A call inserts what it commits. -/
theorem save_tables (save : Save I) :
    (store.save codec save).tables = (store.insertAll codec (save.committed codec)).tables ∧
      (store.save codec save).positions =
        (store.insertAll codec (save.committed codec)).positions := by
  cases save with
  | evidence e => exact ⟨rfl, rfl⟩
  | acquisition evidence attempt fence =>
    rw [saveEtfAcquisition_eq, Save.committed]
    split
    · exact ⟨rfl, rfl⟩
    · exact ⟨rfl, rfl⟩

/-! ### The tables -/

theorem insertAll_tables (evidence : List EtfEvidence) (kind : Kind) :
    (store.insertAll codec evidence).tables kind = (evidence.filter fun e => e.kind = kind).foldl
        (fun table e => table.setDefault (evidenceId codec e) e) (store.tables kind) := by
  unfold Store.insertAll
  induction evidence generalizing store with
  | nil => rfl
  | cons e evidence ih =>
    rw [foldl_cons, ih, filter_cons]
    by_cases hkind : e.kind = kind
    · subst hkind
      rw [if_pos (decide_eq_true rfl), foldl_cons, Store.insertEtfEvidence]
      dsimp only
      rw [update_self]
    · rw [if_neg (by simpa using hkind), Store.insertEtfEvidence]
      dsimp only
      rw [update_of_ne (Ne.symm hkind)]

theorem foldl_save_tables (saves : List (Save I)) (kind : Kind) :
    (saves.foldl (fun store s => store.save codec s) store).tables kind =
      ((log codec saves).filter fun e => e.kind = kind).foldl
        (fun table e => table.setDefault (evidenceId codec e) e) (store.tables kind) := by
  induction saves generalizing store with
  | nil => rfl
  | cons s saves ih =>
    rw [foldl_cons, ih, (save_tables codec store s).1, insertAll_tables, log_cons,
      filter_append, foldl_append]

/-- The evidence is the first of its table that was saved under its id. -/
def First (codec : Codec I) (evidence : List EtfEvidence) (e : EtfEvidence) : Prop :=
  evidence.find? (fun o => o.kind = e.kind ∧ evidenceId codec o = evidenceId codec e) = some e

instance (evidence : List EtfEvidence) (e : EtfEvidence) : Decidable (First codec evidence e) :=
  inferInstanceAs (Decidable (evidence.find? _ = some e))

theorem run_get? (saves : List (Save I)) (kind : Kind) (id : I) :
    ((run codec saves).tables kind).get? id =
      (log codec saves).find? fun e => e.kind = kind ∧ evidenceId codec e = id := by
  unfold run
  rw [foldl_save_tables, get?_foldl_setDefault, find?_filter]
  simp [Store.empty, Dict.get?, Dict.empty]

variable {e : EtfEvidence}

/-- **A table holds what was saved first under each id.** -/
theorem mem_values_run {saves : List (Save I)} {kind : Kind} :
    e ∈ ((run codec saves).tables kind).values ↔ e.kind = kind ∧ First codec (log codec saves) e := by
  rw [Dict.mem_values]
  constructor
  · rintro ⟨id, hget⟩
    rw [run_get?] at hget
    have hfound := find?_some hget
    rw [decide_eq_true_eq] at hfound
    obtain ⟨rfl, rfl⟩ := hfound
    exact ⟨rfl, hget⟩
  · rintro ⟨rfl, hfirst⟩
    exact ⟨evidenceId codec e, (run_get? _ _ _).trans hfirst⟩

theorem First.mem (h : First codec evidence e) : e ∈ evidence := mem_of_find?_eq_some h

/-! ### What is saved again -/

/-- The store has a row for the evidence, and for each of its positions. -/
structure Holds (codec : Codec I) (store : Store I) (e : EtfEvidence) : Prop where
  row : evidenceId codec e ∈ (store.tables e.kind).keys
  positions : ∀ row ∈ (positionsOf codec e).zipIdx,
    (evidenceId codec e, row.2) ∈ store.positions.keys

/-- **Evidence that the store holds is not saved again.** -/
theorem Holds.insert_eq (h : Holds codec store e) : store.insertEtfEvidence codec e = store := by
  unfold Store.insertEtfEvidence
  dsimp only
  rw [setDefault_eq_self h.row, update_eq_self, foldl_setDefault_eq_self h.positions]

theorem holds_insert (e : EtfEvidence) : Holds codec (store.insertEtfEvidence codec e) e := by
  unfold Store.insertEtfEvidence
  refine ⟨?_, fun row hrow => ?_⟩
  · dsimp only
    rw [update_self]
    exact mem_keys_setDefault.mpr (Or.inr rfl)
  · exact mem_keys_foldl_setDefault.mpr (Or.inr ⟨row, hrow, rfl⟩)

theorem Holds.insert (h : Holds codec store e) (e' : EtfEvidence) :
    Holds codec (store.insertEtfEvidence codec e') e := by
  unfold Store.insertEtfEvidence
  refine ⟨?_, fun row hrow => ?_⟩
  · dsimp only
    by_cases hkind : e.kind = e'.kind
    · rw [hkind, update_self, mem_keys_setDefault, ← hkind]
      exact Or.inl h.row
    · rw [update_of_ne hkind]
      exact h.row
  · exact mem_keys_foldl_setDefault.mpr (Or.inl (h.positions row hrow))

theorem holds_insertAll
    (h : Holds codec store e ∨ e ∈ evidence) : Holds codec (store.insertAll codec evidence) e := by
  unfold Store.insertAll
  induction evidence generalizing store with
  | nil => exact h.resolve_right not_mem_nil
  | cons e' evidence ih =>
    rw [foldl_cons]
    rcases h with hheld | hmem
    · exact ih (Or.inl (hheld.insert e'))
    · rcases mem_cons.mp hmem with rfl | hmem
      · exact ih (Or.inl (holds_insert e))
      · exact ih (Or.inr hmem)

theorem holds_foldl_save {saves : List (Save I)} (h : Holds codec store e ∨ e ∈ log codec saves) :
    Holds codec (saves.foldl (fun store s => store.save codec s) store) e := by
  induction saves generalizing store with
  | nil => exact h.resolve_right not_mem_nil
  | cons s saves ih =>
    rw [log_cons, mem_append, ← or_assoc] at h
    refine ih (h.imp_left fun hs => ?_)
    have hall := holds_insertAll hs
    obtain ⟨htables, hpositions⟩ := save_tables codec store s
    exact ⟨htables ▸ hall.row, hpositions ▸ hall.positions⟩

theorem holds_run {saves : List (Save I)} (h : e ∈ log codec saves) :
    Holds codec (run codec saves) e := holds_foldl_save (Or.inr h)

theorem insertAll_eq_self (h : ∀ e ∈ evidence, Holds codec store e) :
    store.insertAll codec evidence = store := by
  unfold Store.insertAll
  induction evidence with
  | nil => rfl
  | cons e evidence ih =>
    rw [foldl_cons, (h e mem_cons_self).insert_eq]
    exact ih fun e' he' => h e' (mem_cons_of_mem e he')

/-! ### The attempts -/

theorem insertAll_attempts (evidence : List EtfEvidence) :
    (store.insertAll codec evidence).attempts = store.attempts := by
  unfold Store.insertAll
  induction evidence generalizing store with
  | nil => rfl
  | cons e evidence ih => exact ih

/-- The attempts after a call. -/
theorem save_attempts (save : Save I) : (store.save codec save).attempts = match save with
      | .evidence _ => store.attempts
      | .acquisition saved attempt fence =>
        if (Save.acquisition saved attempt fence).accepted codec then
          store.attempts.setDefault attempt.attemptId attempt
        else store.attempts := by
  cases save with
  | evidence e => rfl
  | acquisition saved attempt fence =>
    rw [saveEtfAcquisition_eq]
    dsimp only
    split
    · dsimp only
      rw [insertAll_attempts]
    · rfl

theorem mem_attempts_save {id : String} (h : id ∈ store.attempts.keys) (save : Save I) :
    id ∈ (store.save codec save).attempts.keys := by
  rw [save_attempts]
  split
  · exact h
  · split
    · exact mem_keys_setDefault.mpr (Or.inl h)
    · exact h

/-- An accepted acquisition leaves its attempt. -/
theorem mem_attempts_run {saves : List (Save I)} {saved : List EtfEvidence}
    {fence : Option (Bool × Bool)} (hmem : .acquisition saved attempt fence ∈ saves)
    (haccepted : (Save.acquisition saved attempt fence).accepted codec = true) :
    attempt.attemptId ∈ (run codec saves).attempts.keys := by
  have hkeeps : ∀ (saves : List (Save I)) (store : Store I),
      attempt.attemptId ∈ store.attempts.keys →
      attempt.attemptId ∈
        (saves.foldl (fun store s => store.save codec s) store).attempts.keys := by
    intro saves
    induction saves with
    | nil => exact fun _ h => h
    | cons s saves ih => exact fun store h => ih _ (mem_attempts_save h s)
  obtain ⟨front, back, rfl⟩ := append_of_mem hmem
  unfold run
  rw [foldl_append, foldl_cons]
  refine hkeeps back _ ?_
  rw [save_attempts]
  dsimp only
  rw [if_pos haccepted]
  exact mem_keys_setDefault.mpr (Or.inr rfl)

/-- A stored attempt comes from an accepted acquisition. -/
theorem attempt_run {saves : List (Save I)} {id : String}
    (h : (run codec saves).attempts.get? id = some attempt) :
    ∃ saved fence, .acquisition saved attempt fence ∈ saves ∧
      (Save.acquisition saved attempt fence).accepted codec = true := by
  induction saves using List.reverseRecOn with
  | nil => cases h
  | append_singleton saves s ih =>
    unfold run at h ih
    rw [foldl_append, foldl_cons, foldl_nil, save_attempts] at h
    have hold : (saves.foldl (fun store s => store.save codec s) Store.empty).attempts.get? id =
        some attempt → ∃ saved fence, .acquisition saved attempt fence ∈ saves ++ [s] ∧
          (Save.acquisition saved attempt fence).accepted codec = true := by
      intro hget
      obtain ⟨saved, fence, hmem, haccepted⟩ := ih hget
      exact ⟨saved, fence, mem_append_left _ hmem, haccepted⟩
    split at h
    · exact hold h
    · rename_i saved attempt' fence
      split at h
      · rename_i haccepted
        rw [get?_setDefault, Option.or_eq_some_iff] at h
        rcases h with hget | ⟨-, hnew⟩
        · exact hold hget
        · split at hnew
          · cases hnew
            exact ⟨saved, fence, mem_append_right _ mem_cons_self, haccepted⟩
          · cases hnew
      · exact hold h

theorem mem_log_of_accepted {saves : List (Save I)} {save : Save I} (hmem : save ∈ saves)
    (haccepted : save.accepted codec = true) (he : e ∈ save.items) :
    e ∈ log codec saves := by
  refine mem_flatMap.mpr ⟨save, hmem, ?_⟩
  rw [Save.committed, if_pos haccepted]
  exact he

end

/-! ### What is served -/

/-- The evidences of one instrument, metric, authority, date and time of publication. -/
structure Group where
  kind : Kind
  instrumentId : String
  metric : Metric
  sourceMode : SourceMode
  authority : Authority
  asOf : Option Nat
  publishedAt : Option Nat
  /-- The listings have no such reader. -/
  served : kind ≠ .listing

def Group.Mem (group : Group) (e : EtfEvidence) : Prop :=
  e.kind = group.kind ∧ e.instrumentId = some group.instrumentId ∧ e.metric = group.metric ∧
    e.provenance.sourceMode = group.sourceMode ∧ e.provenance.authority = group.authority ∧
    e.asOf = group.asOf ∧ e.provenance.publishedAt = group.publishedAt

instance (group : Group) : DecidablePred group.Mem := fun e => by
  unfold Group.Mem
  infer_instance

/-- What an evidence says. -/
inductive Reading
  | measured (value : Value) (unit : Option String)
  | composed (holdings : Multiset Holding)
  | listed
  deriving DecidableEq

def EtfEvidence.reading : EtfEvidence → Reading
  | .fact f => .measured f.value.normalize f.unit
  | .nav n => .measured (.number n.nav.normalize) (some n.currency)
  | .holdings s => .composed (s.holdings.map Holding.normalize)
  | .listing _ => .listed

/-- No other evidence of the group was retrieved later. -/
def Latest (evidence : List EtfEvidence) (group : Group) (e : EtfEvidence) : Prop :=
  e ∈ evidence ∧ group.Mem e ∧ ∀ o ∈ evidence, group.Mem o → o.retrievedAt ≤ e.retrievedAt

def Official (e : EtfEvidence) : Prop :=
  e.provenance.authority = .officialExchange ∨ e.provenance.authority = .officialFund

section

variable [LinearOrder I] (codec : Codec I)

/-- The reader of the group's table; that of the facts reads one metric or all. -/
def Group.reader (group : Group) (store : Store I) (all : Bool) : List EtfEvidence :=
  match group.kind with
  | .fact =>
    etfFacts codec store group.instrumentId (if all then none else some group.metric)
      group.sourceMode
  | .nav => etfNavs codec store group.instrumentId group.sourceMode
  | .holdings => etfHoldings codec store group.instrumentId group.sourceMode
  | .listing => []

/-- Whatever is served first of a group says what a latest save said. -/
def Newest (saves : List (Save I)) : Prop :=
  ∀ (group : Group) (all : Bool), (∃ e ∈ log codec saves, group.Mem e) →
    ∃ head, (group.reader codec (run codec saves) all).find? (group.Mem ·) = some head ∧
      ∃ latest, Latest (log codec saves) group latest ∧ latest.reading = head.reading

structure Promises (saves : List (Save I)) : Prop where
  repeated : ∀ e ∈ log codec saves, (run codec saves).saveEtfEvidence codec e = run codec saves
  repeatedCall : ∀ s ∈ saves, (run codec saves).save codec s = run codec saves
  kept : ∀ (more : List (Save I)) kind id row, ((run codec saves).tables kind).get? id = some row →
    ((run codec (saves ++ more)).tables kind).get? id = some row
  newest : Newest codec saves
  tier : ∀ table instrumentId sourceMode metric,
    (etfRows codec (run codec saves) table instrumentId sourceMode metric).Pairwise fun a b =>
      a.provenance.authority = .secondary → ¬ Official b
  listed : ∀ id attempt, (run codec saves).attempts.get? id = some attempt →
    attempt.outcome = .successWithData →
    ∀ evidenceId ∈ attempt.evidenceIds, ∃ kind,
      evidenceId ∈ ((run codec saves).tables kind).keys

/-- No two evidences of the list share an id, unless the hash covers the same of them. -/
def CollisionFree (evidence : List EtfEvidence) : Prop :=
  ∀ e ∈ evidence, ∀ o ∈ evidence, evidenceId codec e = evidenceId codec o → e.payload = o.payload

instance (evidence : List EtfEvidence) : Decidable (CollisionFree codec evidence) :=
  inferInstanceAs (Decidable (∀ e ∈ evidence, ∀ o ∈ evidence,
    evidenceId codec e = evidenceId codec o → e.payload = o.payload))

/-- What says something that no latest save of the group says was first retrieved after everything
that does (after ties, with a higher id). -/
def Reverts (evidence : List EtfEvidence) (group : Group) : Prop :=
  ∃ e, First codec evidence e ∧ group.Mem e ∧
    (∀ latest, Latest evidence group latest → latest.reading ≠ e.reading) ∧
    ∀ o, First codec evidence o → group.Mem o →
      (∃ latest, Latest evidence group latest ∧ latest.reading = o.reading) →
      toLex (o.retrievedAt, evidenceId codec o) < toLex (e.retrievedAt, evidenceId codec e)

variable {codec} {saves : List (Save I)} {store : Store I} {group : Group}

variable {e : EtfEvidence}

theorem mem_etfRows {table : Kind} {instrumentId : String} {sourceMode : SourceMode}
    {metric : Option Metric} :
    e ∈ etfRows codec store table instrumentId sourceMode metric ↔
      e ∈ (store.tables table).values ∧ e.instrumentId = some instrumentId ∧
        e.provenance.sourceMode = sourceMode ∧ ∀ m ∈ metric, e.metric = m := by
  unfold etfRows
  rw [(sortOn_perm _ _).mem_iff, mem_filter, decide_eq_true_eq]

variable (codec store) in
theorem etfRows_pairwise (table : Kind) (instrumentId : String) (sourceMode : SourceMode)
    (metric : Option Metric) :
    (etfRows codec store table instrumentId sourceMode metric).Pairwise fun a b =>
      evidencePrecedence codec b ≤ evidencePrecedence codec a :=
  sortOn_pairwise (fun e => OrderDual.toDual (evidencePrecedence codec e)) _

/-- **What is secondary never comes before what is official.** -/
theorem etfRows_tier (table : Kind) (instrumentId : String) (sourceMode : SourceMode)
    (metric : Option Metric) :
    (etfRows codec store table instrumentId sourceMode metric).Pairwise fun a b =>
      a.provenance.authority = .secondary → ¬ Official b := by
  refine (etfRows_pairwise codec store table instrumentId sourceMode metric).imp fun {a b} hle hsecondary => ?_
  have htier : b.provenance.authority.tier ≤ a.provenance.authority.tier :=
    Prod.Lex.monotone_fst _ _ hle
  rw [hsecondary] at htier
  rintro (hexchange | hfund)
  · rw [hexchange] at htier
    exact absurd htier (by decide)
  · rw [hfund] at htier
    exact absurd htier (by decide)

omit [LinearOrder I] in
theorem Group.mem_of_find? {l : List EtfEvidence} {head : EtfEvidence}
    (h : l.find? (group.Mem ·) = some head) : group.Mem head := by
  have hfound := find?_some h
  rwa [decide_eq_true_eq] at hfound

variable (codec store group) in
/-- The reader of a group, whichever it is. -/
theorem reader_eq (all : Bool) : ∃ metric, (∀ m ∈ metric, m = group.metric) ∧
      group.reader codec store all =
        etfRows codec store group.kind group.instrumentId group.sourceMode metric := by
  unfold Group.reader
  have hserved := group.served
  split
  · rename_i hkind
    rw [hkind]
    refine ⟨_, ?_, rfl⟩
    cases all with
    | true => exact nofun
    | false => rintro _ ⟨⟩; rfl
  · rename_i hkind
    rw [hkind]
    exact ⟨none, nofun, rfl⟩
  · rename_i hkind
    rw [hkind]
    exact ⟨none, nofun, rfl⟩
  · rename_i hkind
    exact absurd hkind hserved

theorem mem_reader {all : Bool} (hmem : group.Mem e) :
    e ∈ group.reader codec (run codec saves) all ↔ First codec (log codec saves) e := by
  obtain ⟨metric, hmetric, hreader⟩ := reader_eq codec (run codec saves) group all
  obtain ⟨hkind, hinstrument, hsame, hmode, -⟩ := hmem
  rw [hreader, mem_etfRows, mem_values_run]
  constructor
  · exact fun h => h.1.2
  · exact fun hfirst => ⟨⟨hkind, hfirst⟩, hinstrument, hmode, fun m hm => by rw [hmetric m hm, hsame]⟩

/-- Within a group, the time of retrieval and the id decide. -/
theorem precedence_le_iff {o : EtfEvidence} (he : group.Mem e) (ho : group.Mem o) :
    evidencePrecedence codec o ≤ evidencePrecedence codec e ↔
      toLex (o.retrievedAt, evidenceId codec o) ≤ toLex (e.retrievedAt, evidenceId codec e) := by
  obtain ⟨-, -, -, -, hauthority, hasOf, hpublished⟩ := he
  obtain ⟨-, -, -, -, hauthority', hasOf', hpublished'⟩ := ho
  unfold evidencePrecedence
  rw [hauthority, hauthority', hasOf, hasOf', hpublished, hpublished']
  simp only [Prod.Lex.toLex_le_toLex, lt_self_iff_false, true_and, false_or]

/-- The hash covers what an evidence says and the group that it is in. -/
theorem of_payload {o : EtfEvidence} (h : e.payload = o.payload) :
    (group.Mem e → group.Mem o) ∧ e.reading = o.reading := by
  have hall : e.kind = o.kind ∧ e.instrumentId = o.instrumentId ∧ e.metric = o.metric ∧
      e.asOf = o.asOf ∧ e.provenance.toOrigin = o.provenance.toOrigin ∧ e.reading = o.reading := by
    cases e <;> cases o <;>
      simp_all [EtfEvidence.payload, EtfEvidence.kind, EtfEvidence.instrumentId,
        EtfEvidence.metric, EtfEvidence.asOf, EtfEvidence.provenance, EtfEvidence.reading]
  obtain ⟨hkind, hinstrument, hmetric, hasOf, horigin, hreading⟩ := hall
  refine ⟨?_, hreading⟩
  rintro ⟨h1, h2, h3, h4, h5, h6, h7⟩
  exact ⟨hkind ▸ h1, hinstrument ▸ h2, hmetric ▸ h3,
    (congrArg Origin.sourceMode horigin).symm.trans h4,
    (congrArg Origin.authority horigin).symm.trans h5, hasOf ▸ h6,
    (congrArg Origin.publishedAt horigin).symm.trans h7⟩

/-- A group that something was saved for has something stored. -/
theorem exists_first (hfree : CollisionFree codec (log codec saves))
    (he : e ∈ log codec saves) (hmem : group.Mem e) :
    ∃ f, First codec (log codec saves) f ∧ group.Mem f := by
  have hsome : ((log codec saves).find? fun o =>
      o.kind = e.kind ∧ evidenceId codec o = evidenceId codec e).isSome :=
    find?_isSome.mpr ⟨e, he, decide_eq_true ⟨rfl, rfl⟩⟩
  obtain ⟨f, hf⟩ := Option.isSome_iff_exists.mp hsome
  have hsame := find?_some hf
  rw [decide_eq_true_eq] at hsame
  have hfirst : First codec (log codec saves) f := by
    unfold First
    rw [hsame.1, hsame.2]
    exact hf
  exact ⟨f, hfirst, (of_payload (hfree e he f hfirst.mem hsame.2.symm)).1 hmem⟩

/-- **The newest observation is served first exactly where none reverts.** -/
theorem newest_iff (hfree : CollisionFree codec (log codec saves)) :
    Newest codec saves ↔ ∀ group, ¬ Reverts codec (log codec saves) group := by
  have horder : ∀ (group : Group) (all : Bool) (head e : EtfEvidence),
      (group.reader codec (run codec saves) all).find? (group.Mem ·) = some head →
      First codec (log codec saves) e → group.Mem e → e = head ∨
        toLex (e.retrievedAt, evidenceId codec e) ≤
          toLex (head.retrievedAt, evidenceId codec head) := by
    intro group all head e hfind hfirst hmem
    have hhead : group.Mem head := Group.mem_of_find? hfind
    obtain ⟨metric, -, hreader⟩ := reader_eq codec (run codec saves) group all
    have hpair := etfRows_pairwise codec (run codec saves) group.kind group.instrumentId
      group.sourceMode metric
    rw [← hreader] at hpair
    refine (rel_of_find? hpair hfind ((mem_reader hmem).mpr hfirst) (decide_eq_true hmem)).imp_right ?_
    exact (precedence_le_iff hhead hmem).mp
  constructor
  · rintro hnewest group ⟨e, hfirst, hmem, hnot, hlater⟩
    obtain ⟨head, hfind, latest, hlatest, hreading⟩ :=
      hnewest group true ⟨e, hfirst.mem, hmem⟩
    have hhead : group.Mem head := Group.mem_of_find? hfind
    have hstored : First codec (log codec saves) head :=
      (mem_reader hhead).mp (mem_of_find?_eq_some hfind)
    have hlt := hlater head hstored hhead ⟨latest, hlatest, hreading⟩
    rcases horder group true head e hfind hfirst hmem with rfl | hle
    · exact lt_irrefl _ hlt
    · exact absurd hle (not_le_of_gt hlt)
  · rintro hkeeps group all ⟨e, he, hmem⟩
    obtain ⟨f, hfirst, hf⟩ := exists_first hfree he hmem
    have hsome : ((group.reader codec (run codec saves) all).find? (group.Mem ·)).isSome :=
      find?_isSome.mpr ⟨f, (mem_reader hf).mpr hfirst, decide_eq_true hf⟩
    obtain ⟨head, hfind⟩ := Option.isSome_iff_exists.mp hsome
    have hhead : group.Mem head := Group.mem_of_find? hfind
    have hstored : First codec (log codec saves) head :=
      (mem_reader hhead).mp (mem_of_find?_eq_some hfind)
    refine ⟨head, hfind, by_contra fun hnone => hkeeps group ⟨head, hstored, hhead, ?_, ?_⟩⟩
    · exact fun latest hlatest hreading => hnone ⟨latest, hlatest, hreading⟩
    · rintro o ho hmem' ⟨latest, hlatest, hreading⟩
      rcases horder group all head o hfind ho hmem' with rfl | hle
      · exact absurd ⟨latest, hlatest, hreading⟩ hnone
      · refine lt_of_le_of_ne hle fun heq => ?_
        -- Two stored evidences of one table with one id are the same.
        have hid : evidenceId codec o = evidenceId codec head :=
          congrArg Prod.snd (toLex.injective heq)
        have hsame : o = head := by
          unfold First at ho hstored
          rw [hmem'.1, hid, ← hhead.1, hstored] at ho
          exact (Option.some.inj ho).symm
        exact hnone ⟨latest, hlatest, hsame ▸ hreading⟩

/-- **The store keeps its promises exactly where no group reverts.** -/
theorem etf_promises_iff (hfree : CollisionFree codec (log codec saves)) :
    Promises codec saves ↔ ∀ group, ¬ Reverts codec (log codec saves) group := by
  constructor
  · exact fun h => (newest_iff hfree).mp h.newest
  · intro hkeeps
    refine ⟨fun e he => (holds_run he).insert_eq, fun s hs => ?_, fun more kind id row hget => ?_,
      (newest_iff hfree).mpr hkeeps, etfRows_tier, fun id attempt hget _ i hi => ?_⟩
    · cases s with
      | evidence e =>
        exact (holds_run (mem_log_of_accepted hs rfl List.mem_cons_self)).insert_eq
      | acquisition saved attempt fence =>
        rw [saveEtfAcquisition_eq]
        split
        · rename_i haccepted
          have hall : (run codec saves).insertAll codec saved = run codec saves :=
            insertAll_eq_self fun e he => holds_run (mem_log_of_accepted hs haccepted he)
          rw [hall, Dict.setDefault_eq_self (mem_attempts_run hs haccepted)]
        · rfl
    · rw [run_get?] at hget ⊢
      rw [log, List.flatMap_append, List.find?_append]
      exact Option.or_eq_some_iff.mpr (Or.inl hget)
    · obtain ⟨saved, fence, hmem, haccepted⟩ := attempt_run hget
      have hids : attempt.evidenceIds = saved.map (evidenceId codec) := (of_decide_eq_true haccepted).1
      rw [hids] at hi
      obtain ⟨e, he, rfl⟩ := List.mem_map.mp hi
      exact ⟨e.kind, (holds_run (mem_log_of_accepted hmem haccepted he)).row⟩

end

/-! ### Assets under management -/

/-- What the exchange says of the assets, at some time. -/
def aum (value retrievedAt : Nat) : EtfEvidence :=
  .fact {
    instrumentId := "NIFTYBEES", metric := .aum, value := .number ⟨false, value, 0⟩
    unit := some "INR", asOfDate := some 738000
    provenance := {
      provider := "NSE", sourceType := "API", sourceIdentity := "NIFTYBEES"
      sourceUrl := "/api/etf", sourceMetadata := none, sourceLocator := none
      authority := .officialExchange, publishedAt := none, confidence := none
      reliabilityLevel := none, sourceMode := .real, retrievedAt := retrievedAt }
    plain := by decide }

def aumGroup : Group where
  kind := .fact
  instrumentId := "NIFTYBEES"
  metric := .aum
  sourceMode := .real
  authority := .officialExchange
  asOf := some 738000
  publishedAt := none
  served := nofun

/-- A hash that tells the two values apart. -/
def codec : Codec Nat where
  digest
    | .fact _ _ (.number value) _ _ _ => value.coefficient
    | _ => 0
  dump _ := ""

/-- The law at work: the value changes once. -/
theorem etf_promises_iff_sample :
    Promises codec [.evidence (aum 7 1), .evidence (aum 7 2), .evidence (aum 9 3)] := by
  refine (etf_promises_iff (by decide)).mpr fun group => ?_
  rintro ⟨e, hfirst, hmem, hnot, hlater⟩
  have hlog : log codec [.evidence (aum 7 1), .evidence (aum 7 2), .evidence (aum 9 3)] =
      [aum 7 1, aum 7 2, aum 9 3] := rfl
  rw [hlog] at hfirst hnot hlater
  have hlatest : group.Mem (aum 9 3) → Latest [aum 7 1, aum 7 2, aum 9 3] group (aum 9 3) := by
    have hmax : ∀ o ∈ [aum 7 1, aum 7 2, aum 9 3], o.retrievedAt ≤ (aum 9 3).retrievedAt := by
      decide
    exact fun hmem => ⟨by decide, hmem, fun o ho _ => hmax o ho⟩
  have hsame : ∀ e ∈ [aum 7 1, aum 7 2, aum 9 3], group.Mem e → group.Mem (aum 9 3) := by
    intro e he hmem
    rcases List.mem_cons.mp he with rfl | he
    · exact hmem
    · rcases List.mem_cons.mp he with rfl | he
      · exact hmem
      · rw [List.mem_singleton.mp he] at hmem
        exact hmem
  have hlast := hsame e hfirst.mem hmem
  have hless := hlater (aum 9 3) (by decide) hlast ⟨aum 9 3, hlatest hlast, rfl⟩
  have hnever : ∀ e ∈ [aum 7 1, aum 7 2, aum 9 3],
      ¬ toLex ((aum 9 3).retrievedAt, evidenceId codec (aum 9 3)) <
        toLex (e.retrievedAt, evidenceId codec e) := by
    decide
  exact hnever e hfirst.mem hless

/-- **The newest observation is not always served first**: a value that comes back is not stored
again, and the one that it corrects stays in front. -/
theorem value_does_not_return :
    (etfFacts codec (run codec [.evidence (aum 7 1), .evidence (aum 9 2), .evidence (aum 7 3)])
      "NIFTYBEES" (some .aum) .real).head? = some (aum 9 2) ∧
    ¬ Promises codec [.evidence (aum 7 1), .evidence (aum 9 2), .evidence (aum 7 3)] := by
  have hfree : CollisionFree codec
      (log codec [.evidence (aum 7 1), .evidence (aum 9 2), .evidence (aum 7 3)]) := by decide
  have hmem : aumGroup.Mem (aum 7 3) := by decide
  have honly : ∀ latest, Latest [aum 7 1, aum 9 2, aum 7 3] aumGroup latest → latest = aum 7 3 := by
    have hmax : ∀ latest ∈ [aum 7 1, aum 9 2, aum 7 3],
        (aum 7 3).retrievedAt ≤ latest.retrievedAt → latest = aum 7 3 := by decide
    exact fun latest hlatest => hmax latest hlatest.1 (hlatest.2.2 (aum 7 3) (by decide) hmem)
  refine ⟨by decide, fun hpromises => (newest_iff hfree).mp hpromises.newest aumGroup ?_⟩
  refine ⟨aum 9 2, by decide, by decide, fun latest hlatest => ?_, ?_⟩
  · rw [honly latest hlatest]
    decide
  · rintro o ho - ⟨latest, hlatest, hreading⟩
    rw [honly latest hlatest] at hreading
    have hearlier : ∀ o ∈ [aum 7 1, aum 9 2, aum 7 3], (aum 7 3).reading = o.reading →
        First codec [aum 7 1, aum 9 2, aum 7 3] o →
        toLex (o.retrievedAt, evidenceId codec o) <
          toLex ((aum 9 2).retrievedAt, evidenceId codec (aum 9 2)) := by
      decide
    exact hearlier o ho.mem hreading ho

end InvestmentPlatform.Evidence.Etf
