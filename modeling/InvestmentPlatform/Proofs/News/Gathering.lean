/-
What the providers of a news search are asked, and what comes of it.

Which queries a provider is asked depends on its answers alone: they are asked in order until three
in a row were degraded and empty.  So one equation says what the loop over the plan does
(`askAll_eq`): its counts are counts over the queries asked, its rows theirs, and it raises exactly
where an address of these rows cannot be canonicalised.  The loop over the providers follows.
-/
import InvestmentPlatform.News.Acquisition
import Mathlib.Data.List.Range

namespace InvestmentPlatform.News

open Selection UrlText List Answer Provider

/-! ### Answers -/

/-- A degraded, empty answer. -/
def Answer.Degraded : Answer → Prop
  | .raised _ => False
  | .rows results degraded => degraded = true ∧ results = []

instance (a : Answer) : Decidable a.Degraded :=
  match a with
  | .raised _ => isFalse id
  | .rows results degraded => inferInstanceAs (Decidable (degraded = true ∧ results = []))

/-- A query that counts as completed. -/
def Answer.Completed : Answer → Prop
  | .raised _ => False
  | .rows results degraded => ¬ (degraded = true ∧ results = [])

instance (a : Answer) : Decidable a.Completed :=
  match a with
  | .raised _ => isFalse id
  | .rows results degraded => inferInstanceAs (Decidable (¬ (degraded = true ∧ results = [])))

def Answer.found : Answer → List CandidateSearchResult
  | .raised _ => []
  | .rows results _ => results

/-- The code a query leaves. -/
def Answer.code : Answer → Option String
  | .raised error => some (queryFailureCode error)
  | .rows results degraded =>
      if degraded = true ∧ results = [] then some "SEARCH_PROVIDER_DEGRADED" else none

/-- Whether a completed query was degraded. -/
def Answer.strained : Answer → Nat
  | .raised _ => 0
  | .rows results degraded => if degraded = true ∧ results = [] then 0 else degraded.toNat

theorem not_degraded {a : Answer} (h : a.Completed) : ¬ a.Degraded := by
  cases a with
  | raised error => exact h.elim
  | rows results degraded => exact h

theorem code_isSome_iff (a : Answer) : a.code.isSome ↔ ¬ a.Completed := by
  cases a with
  | raised error => exact iff_of_true rfl id
  | rows results degraded =>
      by_cases h : degraded = true ∧ results = []
      · exact iff_of_true (by rw [code, if_pos h]; rfl) (fun hc => hc h)
      · refine iff_of_false ?_ (not_not.mpr h)
        rw [code, if_neg h]
        exact Bool.false_ne_true

/-! ### Which queries are asked -/

/-- Degraded answers in a row, after an answer. -/
def inARow (a : Answer) (before : Nat) : Nat := if a.Degraded then before + 1 else 0

/-- The queries of a plan that are asked. -/
def asked (answers : Nat → Answer) : List Nat → Nat → List Nat
  | [], _ => []
  | index :: rest, before =>
      index :: if maxConsecutiveDegraded ≤ inARow (answers index) before ∧ rest ≠ [] then []
        else asked answers rest (inARow (answers index) before)

theorem asked_initial (answers : Nat → Answer) (plan : List Nat) (before : Nat) :
    asked answers plan before <+: plan := by
  induction plan generalizing before with
  | nil => exact prefix_refl []
  | cons index rest ih =>
      rw [asked, cons_prefix_cons]
      refine ⟨rfl, ?_⟩
      by_cases hstop : maxConsecutiveDegraded ≤ inARow (answers index) before ∧ rest ≠ []
      · rw [if_pos hstop]
        exact nil_prefix
      · rw [if_neg hstop]
        exact ih _

theorem mem_of_mem_unless {p : Prop} [Decidable p] {d : Nat} {l : List Nat}
    (h : d ∈ if p then [] else l) : d ∈ l := by
  by_cases hp : p
  · rw [if_pos hp] at h
    cases h
  · rwa [if_neg hp] at h

theorem inARow_degraded {a : Answer} (h : a.Degraded) (before : Nat) :
    inARow a before = before + 1 := if_pos h

/-- After a degraded answer the query after next is asked only while there are not three. -/
theorem asked_cons_degraded {answers : Nat → Answer} {index : Nat} (h : (answers index).Degraded)
    (rest : List Nat) (before : Nat) :
    asked answers (index :: rest) before =
      index :: if maxConsecutiveDegraded ≤ before + 1 ∧ rest ≠ [] then []
        else asked answers rest (before + 1) := by
  rw [asked, inARow_degraded h]

/-- **No query is asked after three degraded answers in a row.** -/
theorem not_asked_after_three {answers : Nat → Answer} {a b c d : Nat}
    (hdegraded : (answers a).Degraded ∧ (answers b).Degraded ∧ (answers c).Degraded)
    (front back : List Nat) (hd : d ∈ back) (before : Nat)
    (hnodup : (front ++ a :: b :: c :: back).Nodup) :
    d ∉ asked answers (front ++ a :: b :: c :: back) before := by
  induction front generalizing before with
  | nil =>
      obtain ⟨ha, hb, hc⟩ := hdegraded
      rw [nil_append, nodup_cons, nodup_cons, nodup_cons] at hnodup
      obtain ⟨hda, hdb, hdc, -⟩ := hnodup
      rw [nil_append, asked_cons_degraded ha, asked_cons_degraded hb, asked_cons_degraded hc]
      have hthird : maxConsecutiveDegraded ≤ before + 1 + 1 + 1 ∧ back ≠ [] :=
        ⟨by unfold maxConsecutiveDegraded; omega, ne_nil_of_mem hd⟩
      rw [if_pos hthird]
      intro hmem
      rcases mem_cons.mp hmem with rfl | hmem
      · exact hda (mem_cons_of_mem _ (mem_cons_of_mem _ hd))
      · rcases mem_cons.mp (mem_of_mem_unless hmem) with rfl | hmem
        · exact hdb (mem_cons_of_mem _ hd)
        · obtain rfl := mem_singleton.mp (mem_of_mem_unless hmem)
          exact hdc hd
  | cons e front ih =>
      rw [cons_append] at hnodup ⊢
      obtain ⟨hfresh, hrest⟩ := nodup_cons.mp hnodup
      rw [asked]
      intro hmem
      rcases mem_cons.mp hmem with rfl | hmem
      · refine hfresh (mem_append_right _ ?_)
        simp only [mem_cons, hd, or_true]
      · exact ih _ hrest (mem_of_mem_unless hmem)

/-- A plan is asked to its end where every query asked is completed. -/
theorem asked_eq_self {answers : Nat → Answer} {plan : List Nat} {before : Nat}
    (h : ∀ i ∈ asked answers plan before, (answers i).Completed) :
    asked answers plan before = plan := by
  induction plan generalizing before with
  | nil => rfl
  | cons index rest ih =>
      rw [asked] at h ⊢
      have hcompleted := h index mem_cons_self
      have hreset : inARow (answers index) before = 0 := if_neg (not_degraded hcompleted)
      have hon : ¬ (maxConsecutiveDegraded ≤ inARow (answers index) before ∧ rest ≠ []) := by
        rw [hreset]
        exact fun hstop => absurd hstop.1 (by decide)
      rw [if_neg hon] at h ⊢
      rw [ih fun i hi => h i (mem_cons_of_mem _ hi)]

/-! ### The loop over the plan -/

variable (canonicalize : Text → Option Text)

theorem addRows_append (d : Dict Text CandidateSearchResult)
    (rows rows' : List CandidateSearchResult) :
    addRows canonicalize d (rows ++ rows') =
      (addRows canonicalize d rows).bind fun d => addRows canonicalize d rows' :=
  foldlM_append

/-- What a provider has brought after some more queries. -/
def Asked.after (s : Asked) (answers : Nat → Answer) (queries : List Nat)
    (candidates : Dict Text CandidateSearchResult) (before : Nat) : Asked where
  candidates
  completed := s.completed + (queries.filter fun i => (answers i).Completed).length
  count := s.count + (queries.map fun i => (answers i).found.length).sum
  degradedQueries := s.degradedQueries + (queries.map fun i => (answers i).strained).sum
  codes := s.codes ++ queries.filterMap fun i => (answers i).code
  consecutiveDegraded := before
  calls := s.calls ++ queries

theorem addRows_nil (d : Dict Text CandidateSearchResult) : addRows canonicalize d [] = some d :=
  rfl

theorem askOne_eq (answers : Nat → Answer) (index : Nat) (s : Asked) :
    askOne canonicalize answers index s =
      (addRows canonicalize s.candidates (answers index).found).map fun candidates =>
        s.after answers [index] candidates (inARow (answers index) s.consecutiveDegraded) := by
  unfold askOne
  cases hanswer : answers index with
  | raised error =>
      simp [Asked.after, hanswer, found, code, strained, Answer.Completed,
        inARow, Answer.Degraded, addRows_nil]
  | rows results degraded =>
      by_cases h : degraded = true ∧ results = []
      · obtain ⟨rfl, rfl⟩ := h
        simp [Asked.after, hanswer, found, code, strained, Answer.Completed,
          inARow, Answer.Degraded, addRows_nil]
      · simp [Asked.after, hanswer, found, code, strained, Answer.Completed,
          inARow, Answer.Degraded, h]

theorem after_after (s : Asked) (answers : Nat → Answer) (queries queries' : List Nat)
    (d d' : Dict Text CandidateSearchResult) (n n' : Nat) :
    (s.after answers queries d n).after answers queries' d' n' =
      s.after answers (queries ++ queries') d' n' := by
  simp [Asked.after, Nat.add_assoc]

/-- The rows of some queries. -/
def foundBy (answers : Nat → Answer) (queries : List Nat) : List CandidateSearchResult :=
  queries.flatMap fun i => (answers i).found

/-- **What the loop over the plan does.** -/
theorem askAll_eq (answers : Nat → Answer) (plan : List Nat) (consecutive : Nat) :
    ∃ before, ∀ s : Asked, s.consecutiveDegraded = consecutive →
      askAll canonicalize answers plan s =
        (addRows canonicalize s.candidates (foundBy answers (asked answers plan consecutive))).map
          fun candidates => s.after answers (asked answers plan consecutive) candidates before := by
  induction plan generalizing consecutive with
  | nil =>
      refine ⟨consecutive, fun s hs => ?_⟩
      show some s = some (s.after answers [] s.candidates consecutive)
      simp [Asked.after, ← hs]
  | cons index rest ih =>
      obtain ⟨before, hrest⟩ := ih (inARow (answers index) consecutive)
      by_cases hstop : maxConsecutiveDegraded ≤ inARow (answers index) consecutive ∧ rest ≠ []
      · refine ⟨inARow (answers index) consecutive, fun s hs => ?_⟩
        rw [askAll, askOne_eq, asked, if_pos hstop, hs]
        show _ = (addRows canonicalize s.candidates ((answers index).found ++ [])).map _
        rw [append_nil]
        cases addRows canonicalize s.candidates (answers index).found with
        | none => rfl
        | some d => exact if_pos hstop
      · refine ⟨before, fun s hs => ?_⟩
        rw [askAll, askOne_eq, asked, if_neg hstop, hs]
        show _ = (addRows canonicalize s.candidates ((answers index).found ++
          foundBy answers _)).map _
        rw [addRows_append]
        cases addRows canonicalize s.candidates (answers index).found with
        | none => rfl
        | some d =>
            refine (if_neg hstop).trans ((hrest _ rfl).trans ?_)
            simp only [after_after]
            rfl

/-! ### One provider -/

/-- A provider that is asked every query of the plan, and completes every one. -/
def Provider.Completes (unicode : Unicode) (planned : Nat) (p : Provider) : Prop :=
  disabled unicode p = false ∧ ∀ i < planned, (p.answers i).Completed

/-- The queries a provider is asked. -/
def Provider.queries (unicode : Unicode) (planned : Nat) (p : Provider) : List Nat :=
  if disabled unicode p then [] else asked p.answers (range planned) 0

/-- The outcome recorded for a provider. -/
def Provider.outcome (unicode : Unicode) (planned : Nat) (p : Provider) : ProviderOutcome :=
  if disabled unicode p then
    { provider := p.providerName
      outcome := .failed
      candidateCount := 0
      queriesPlanned := planned
      queriesCompleted := 0
      failureCode := some "SEARCH_PROVIDER_DISABLED" }
  else outcomeOf p.providerName planned
    (({ candidates := Dict.empty } : Asked).after p.answers
      (asked p.answers (range planned) 0) Dict.empty 0)

theorem askProvider_eq (unicode : Unicode) (planned : Nat) (p : Provider) (g : Gathered) :
    askProvider canonicalize unicode planned p g =
      (addRows canonicalize g.candidates (foundBy p.answers (p.queries unicode planned))).map
        fun candidates =>
          { candidates
            outcomes := g.outcomes ++ [p.outcome unicode planned]
            calls := g.calls ++ (p.queries unicode planned).map fun i => (p.providerName, i) } := by
  unfold askProvider queries outcome
  by_cases hdisabled : disabled unicode p = true
  · rw [if_pos hdisabled, if_pos hdisabled, if_pos hdisabled]
    show some _ = some _
    rw [map_nil, append_nil]
  · rw [if_neg hdisabled, if_neg hdisabled, if_neg hdisabled]
    obtain ⟨before, hasked⟩ := askAll_eq canonicalize p.answers (range planned) 0
    rw [hasked _ rfl, Option.map_map]
    rfl

theorem outcome_provider (unicode : Unicode) (planned : Nat) (p : Provider) :
    (p.outcome unicode planned).provider = p.providerName := by
  unfold outcome
  split <;> rfl

theorem codes_eq_nil_iff (answers : Nat → Answer) (queries : List Nat) :
    (queries.filterMap fun i => (answers i).code) = [] ↔ ∀ i ∈ queries, (answers i).Completed := by
  rw [filterMap_eq_nil_iff]
  refine forall₂_congr fun i _ => ?_
  rw [← Option.not_isSome_iff_eq_none, code_isSome_iff, not_not]

theorem outcomeOf_complete_iff {name : String} {planned : Nat} {s : Asked} :
    (outcomeOf name planned s).Complete ↔ s.codes = [] ∧ s.completed = planned ∧ 0 < planned := by
  unfold ProviderOutcome.Complete ProviderOutcome.Successful outcomeOf
  constructor
  · rintro ⟨hsuccessful, hcompleted, hplanned⟩
    replace hcompleted : s.completed = planned := hcompleted
    refine ⟨?_, hcompleted, hplanned⟩
    by_contra hcodes
    have hsome : 0 < s.completed := hcompleted ▸ hplanned
    rw [if_pos hsome, if_pos hcodes] at hsuccessful
    rcases hsuccessful with h | h
    · cases h
    · cases h
  · rintro ⟨hcodes, hcompleted, hplanned⟩
    refine ⟨?_, hcompleted, hplanned⟩
    have hsome : 0 < s.completed := hcompleted ▸ hplanned
    rw [if_pos hsome, if_neg (not_not.mpr hcodes)]
    split
    · exact Or.inl rfl
    · exact Or.inr rfl

/-- **A provider's outcome is complete where it completed every query of the plan.** -/
theorem outcome_complete_iff (unicode : Unicode) {planned : Nat} (hplanned : 0 < planned)
    (p : Provider) : (p.outcome unicode planned).Complete ↔ p.Completes unicode planned := by
  unfold outcome Provider.Completes
  by_cases hdisabled : disabled unicode p = true
  · rw [if_pos hdisabled]
    refine iff_of_false ?_ fun h => absurd (hdisabled.symm.trans h.1) Bool.true_eq_false.mp
    rintro ⟨h | h, -⟩
    · cases h
    · cases h
  rw [if_neg hdisabled, outcomeOf_complete_iff]
  show ([] ++ _ = [] ∧ 0 + _ = planned ∧ _) ↔ _
  rw [nil_append, Nat.zero_add, codes_eq_nil_iff]
  constructor
  · rintro ⟨hasked, -⟩
    rw [asked_eq_self hasked] at hasked
    exact ⟨Bool.not_eq_true _ ▸ hdisabled, fun i hi => hasked i (mem_range.mpr hi)⟩
  · rintro ⟨-, hanswers⟩
    have hasked : ∀ i ∈ asked p.answers (range planned) 0, (p.answers i).Completed :=
      fun i hi => hanswers i (mem_range.mp ((asked_initial _ _ _).subset hi))
    refine ⟨hasked, ?_, hplanned⟩
    rw [filter_eq_self.mpr fun i hi => decide_eq_true (hasked i hi), asked_eq_self hasked,
      length_range]

/-- **A provider is asked no query twice, none outside the plan, and none after three degraded
answers in a row.** -/
theorem queries_bounded (unicode : Unicode) (planned : Nat) (p : Provider) :
    (p.queries unicode planned).Nodup ∧ (∀ i ∈ p.queries unicode planned, i < planned) ∧
      ∀ i j, (p.answers i).Degraded → (p.answers (i + 1)).Degraded →
        (p.answers (i + 2)).Degraded → i + 3 ≤ j → j ∉ p.queries unicode planned := by
  unfold queries
  split
  · exact ⟨nodup_nil, fun i hi => absurd hi not_mem_nil, fun i j _ _ _ _ => not_mem_nil⟩
  · have hpre := asked_initial p.answers (range planned) 0
    refine ⟨hpre.sublist.nodup nodup_range, fun i hi => mem_range.mp (hpre.subset hi),
      fun i j h0 h1 h2 hij hj => ?_⟩
    have hjplanned := mem_range.mp (hpre.subset hj)
    obtain ⟨rest, rfl⟩ : ∃ rest, planned = i + (rest + 3) := ⟨planned - i - 3, by omega⟩
    have hplan : range (i + (rest + 3)) =
        range i ++ i :: (i + 1) :: (i + 2) :: range' (i + 3) rest := by
      rw [range_eq_range', range_eq_range', ← range'_append_1, Nat.zero_add]
      rfl
    rw [hplan] at hj
    refine not_asked_after_three ⟨h0, h1, h2⟩ _ _ ?_ 0 (hplan ▸ nodup_range) hj
    rw [mem_range'_1]
    omega

/-! ### All the providers -/

theorem askProviders_eq (unicode : Unicode) (planned : Nat) (providers : List Provider)
    (g : Gathered) :
    providers.foldlM (fun g p => askProvider canonicalize unicode planned p g) g =
      (addRows canonicalize g.candidates (providers.flatMap fun p =>
        foundBy p.answers (p.queries unicode planned))).map fun candidates =>
          { candidates
            outcomes := g.outcomes ++ providers.map fun p => p.outcome unicode planned
            calls := g.calls ++ providers.flatMap fun p =>
              (p.queries unicode planned).map fun i => (p.providerName, i) } := by
  induction providers generalizing g with
  | nil =>
      show some g = some _
      simp
  | cons p rest ih =>
      rw [foldlM_cons, askProvider_eq, flatMap_cons, flatMap_cons, addRows_append]
      cases addRows canonicalize g.candidates (foundBy p.answers (p.queries unicode planned)) with
      | none => rfl
      | some d =>
          refine (ih _).trans ?_
          simp only [Option.bind_some, map_cons, List.append_assoc, singleton_append]

/-! ### The rows and their addresses -/

/-- A loop that files each element under a key, where every key can be computed. -/
theorem foldlM_keyed {σ α κ : Type} [Inhabited κ] (key : α → Option κ) (put : σ → κ → α → σ)
    (l : List α) (s : σ) :
    l.foldlM (fun s a => (key a).map fun k => put s k a) s =
      if ∀ a ∈ l, (key a).isSome then some (l.foldl (fun s a => put s ((key a).getD default) a) s)
      else none := by
  induction l generalizing s with
  | nil => rfl
  | cons a l ih =>
      rw [foldlM_cons, foldl_cons]
      cases hkey : key a with
      | none =>
          rw [if_neg fun h => absurd (h a mem_cons_self) (by rw [hkey]; exact Bool.false_ne_true)]
          rfl
      | some k =>
          refine (ih (put s k a)).trans (if_congr ?_ rfl rfl)
          rw [forall_mem_cons, hkey]
          exact (and_iff_right rfl).symm

theorem keyedRows_eq (rows : List CandidateSearchResult) : keyedRows canonicalize rows =
      if ∀ row ∈ rows, (canonicalize row.url).isSome then
        some (rows.foldl (fun d row => d.set ((canonicalize row.url).getD default) row) Dict.empty)
      else none :=
  foldlM_keyed (fun row : CandidateSearchResult => canonicalize row.url)
    (fun (d : Dict Text CandidateSearchResult) url row => d.set url row) rows Dict.empty

theorem addRows_eq (d : Dict Text CandidateSearchResult) (rows : List CandidateSearchResult) :
    addRows canonicalize d rows = if ∀ row ∈ rows, (canonicalize row.url).isSome then
        some (rows.foldl (fun d row => d.setDefault ((canonicalize row.url).getD default) row) d)
      else none :=
  foldlM_keyed (fun row : CandidateSearchResult => canonicalize row.url)
    (fun (d : Dict Text CandidateSearchResult) url row => d.setDefault url row) rows d

end InvestmentPlatform.News

/-!
What the loop over the candidates of a news search does.

What one candidate adds is what it adds from nothing (`examineOne_eq`), and the loop adds this up
over the candidates its budgets let it reach (`examineAll_eq`).  A candidate yields when it has
impacts, whether or not one of them is written: this is what the two budgets and the outcome of
the run disagree on.
-/

namespace InvestmentPlatform.News

open UrlText

variable {F : Type}

/-! ### One candidate -/

/-- The text of the document of a candidate, where the steps up to it succeed. -/
def DocumentSteps.document (steps : DocumentSteps F) : Option String :=
  match steps.onFile with
  | none => none
  | some (some text) => some text
  | some none =>
      if steps.fetched then
        steps.extracted.bind fun text => if text ≠ "" ∧ steps.persisted then some text else none
      else none

/-- The impacts found in the document of a candidate; `none` after a technical failure. -/
def DocumentSteps.found (steps : DocumentSteps F) : Option (List F) :=
  steps.document.bind fun text => if text = "" then none else steps.impacts

/-- Examined without a technical failure, and without an impact. -/
def DocumentSteps.Quiet (steps : DocumentSteps F) : Prop := steps.found = some []

/-- An impact is found. -/
def DocumentSteps.yields (steps : DocumentSteps F) : Bool :=
  steps.found.any fun impacts => !impacts.isEmpty

/-- A document is fetched for the candidate, or is to be. -/
def DocumentSteps.needsFetch (steps : DocumentSteps F) : Bool := steps.onFile == some none

/-- The records of the impacts that are written: up to the first write that fails. -/
def writtenOf (appended : F → Option F) : List F → List F
  | [] => []
  | feature :: rest =>
      match appended feature with
      | none => []
      | some record => record :: writtenOf appended rest

def DocumentSteps.written (steps : DocumentSteps F) : List F :=
  writtenOf steps.appended (steps.found.getD [])

/-- A document read without a technical failure yields or is quiet. -/
theorem quiet_of_found {steps : DocumentSteps F} (hfound : steps.found.isSome)
    (h : steps.yields = false) : steps.Quiet := by
  obtain ⟨impacts, himpacts⟩ := Option.isSome_iff_exists.mp hfound
  unfold DocumentSteps.yields at h
  unfold DocumentSteps.Quiet
  rw [himpacts] at h ⊢
  cases impacts with
  | nil => rfl
  | cons feature rest => exact absurd h Bool.true_eq_false.mp

theorem yields_eq_false {steps : DocumentSteps F} (h : steps.Quiet) : steps.yields = false := by
  unfold DocumentSteps.yields
  rw [h]
  rfl

/-- What a candidate adds to what came before it. -/
def Examined.append (s t : Examined F) : Examined F where
  features := s.features ++ t.features
  documentCodes := s.documentCodes ++ t.documentCodes
  usableDocuments := s.usableDocuments + t.usableDocuments
  fetchedUrls := s.fetchedUrls ++ t.fetchedUrls
  lookedAt := s.lookedAt ++ t.lookedAt

theorem append_empty (s : Examined F) : s.append {} = s := by
  simp [Examined.append]

theorem empty_append (s : Examined F) : ({} : Examined F).append s = s := by
  simp [Examined.append]

theorem append_assoc (s t r : Examined F) : (s.append t).append r = s.append (t.append r) := by
  simp [Examined.append, Nat.add_assoc]

theorem append_fail (s t : Examined F) (stage : Stage) :
    (s.append t).fail stage = s.append (t.fail stage) := by
  simp [Examined.append, Examined.fail]

theorem appendAll_append (appended : F → Option F) (features : List F) (s t : Examined F) :
    appendAll appended features (s.append t) = s.append (appendAll appended features t) := by
  induction features generalizing t with
  | nil => rfl
  | cons feature rest ih =>
      unfold appendAll
      cases appended feature with
      | none => exact append_fail s t _
      | some record =>
          refine Eq.trans ?_ (ih { t with features := t.features ++ [record] })
          simp [Examined.append]

theorem readDocument_append (steps : DocumentSteps F) (text : String) (s t : Examined F) :
    readDocument steps text (s.append t) = s.append (readDocument steps text t) := by
  unfold readDocument
  split
  · exact append_fail s t _
  · cases steps.impacts with
    | none => exact append_fail s t _
    | some impacts =>
        cases impacts with
        | nil => rfl
        | cons feature rest =>
            exact appendAll_append steps.appended (feature :: rest) s
              { t with usableDocuments := t.usableDocuments + 1 }

theorem examineOne_append (steps : DocumentSteps F) (url : Text) (s t : Examined F) :
    examineOne steps url (s.append t) = s.append (examineOne steps url t) := by
  have hlooked : { s.append t with lookedAt := (s.append t).lookedAt ++ [url] } =
      s.append { t with lookedAt := t.lookedAt ++ [url] } := by
    simp [Examined.append]
  have hfetched : { s.append t with
        fetchedUrls := (s.append t).fetchedUrls ++ [url]
        lookedAt := (s.append t).lookedAt ++ [url] } =
      s.append { t with
        fetchedUrls := t.fetchedUrls ++ [url]
        lookedAt := t.lookedAt ++ [url] } := by
    simp [Examined.append]
  unfold examineOne
  cases steps.onFile with
  | none => exact (congrArg (Examined.fail · _) hlooked).trans (append_fail _ _ _)
  | some onFile =>
      cases onFile with
      | some text =>
          exact (congrArg (readDocument steps text) hlooked).trans (readDocument_append _ _ _ _)
      | none =>
          simp only [hfetched]
          split
          · exact append_fail _ _ _
          · cases steps.extracted with
            | none => exact append_fail _ _ _
            | some text =>
                simp only
                split
                · exact append_fail _ _ _
                · split
                  · exact append_fail _ _ _
                  · exact readDocument_append _ _ _ _

/-- What one candidate adds. -/
def DocumentSteps.effect (steps : DocumentSteps F) (url : Text) : Examined F :=
  examineOne steps url {}

theorem examineOne_eq (steps : DocumentSteps F) (url : Text) (s : Examined F) :
    examineOne steps url s = s.append (steps.effect url) := by
  rw [DocumentSteps.effect, ← examineOne_append, append_empty]

theorem appendAll_eq (appended : F → Option F) (features : List F) (s : Examined F) :
    (appendAll appended features s).features = s.features ++ writtenOf appended features ∧
    (appendAll appended features s).usableDocuments = s.usableDocuments ∧
    (appendAll appended features s).fetchedUrls = s.fetchedUrls ∧
    (appendAll appended features s).lookedAt = s.lookedAt := by
  induction features generalizing s with
  | nil => exact ⟨(List.append_nil _).symm, rfl, rfl, rfl⟩
  | cons feature rest ih =>
      unfold appendAll writtenOf
      cases appended feature with
      | none => exact ⟨(List.append_nil _).symm, rfl, rfl, rfl⟩
      | some record =>
          obtain ⟨hfeatures, hrest⟩ := ih { s with features := s.features ++ [record] }
          refine ⟨hfeatures.trans ?_, hrest⟩
          rw [List.append_assoc, List.singleton_append]

/-- What a candidate with these impacts leaves behind, started from `s`. -/
structure Leaves (appended : F → Option F) (impacts : Option (List F)) (s t : Examined F) :
    Prop where
  features : t.features = s.features ++ writtenOf appended (impacts.getD [])
  usable : t.usableDocuments =
    s.usableDocuments + (impacts.any fun impacts => !impacts.isEmpty).toNat
  fetchedUrls : t.fetchedUrls = s.fetchedUrls
  lookedAt : t.lookedAt = s.lookedAt
  failed : impacts = none → t.documentCodes ≠ []

theorem leaves_fail (appended : F → Option F) (s : Examined F) (stage : Stage) :
    Leaves appended none s (s.fail stage) where
  features := (List.append_nil _).symm
  usable := rfl
  fetchedUrls := rfl
  lookedAt := rfl
  failed := fun _ => List.append_ne_nil_of_right_ne_nil _ (List.cons_ne_nil stage [])

theorem leaves_readDocument (steps : DocumentSteps F) (text : String) (s : Examined F) :
    Leaves steps.appended (if text = "" then none else steps.impacts) s
      (readDocument steps text s) := by
  unfold readDocument
  by_cases htext : text = ""
  · rw [if_pos htext, if_pos htext]
    exact leaves_fail _ s _
  rw [if_neg htext, if_neg htext]
  cases steps.impacts with
  | none => exact leaves_fail _ s _
  | some impacts =>
      cases impacts with
      | nil => exact ⟨(List.append_nil _).symm, rfl, rfl, rfl, nofun⟩
      | cons feature rest =>
          obtain ⟨hfeatures, husable, hfetched, hlooked⟩ := appendAll_eq steps.appended
            (feature :: rest) { s with usableDocuments := s.usableDocuments + 1 }
          exact ⟨hfeatures, husable, hfetched, hlooked, nofun⟩

/-- **What one candidate adds**: its written features, one to the usable documents where it yields,
a fetch where no document is on file, and a code after a technical failure. -/
theorem effect_leaves (steps : DocumentSteps F) (url : Text) : Leaves steps.appended steps.found
      { fetchedUrls := if steps.needsFetch then [url] else [], lookedAt := [url] }
      (steps.effect url) := by
  unfold DocumentSteps.effect examineOne DocumentSteps.found DocumentSteps.document
    DocumentSteps.needsFetch
  cases steps.onFile with
  | none => exact leaves_fail _ _ _
  | some onFile =>
      cases onFile with
      | some text => exact leaves_readDocument steps text _
      | none =>
          by_cases hfetched : steps.fetched = true
          swap
          · simp only [hfetched, Bool.false_eq_true, not_false_eq_true, if_true, if_false]
            exact leaves_fail _ _ _
          simp only [hfetched, not_true_eq_false, if_false, if_true]
          cases steps.extracted with
          | none => exact leaves_fail _ _ _
          | some text =>
              by_cases htext : text = ""
              · simp only [htext, if_true, Option.bind_some, ne_eq, not_true_eq_false, false_and,
                  if_false]
                exact leaves_fail _ _ _
              by_cases hpersisted : steps.persisted = true
              swap
              · have hunpersisted : ¬ (text ≠ "" ∧ steps.persisted = true) :=
                  fun h => hpersisted h.2
                rw [Option.bind_some, if_neg hunpersisted]
                simp only [if_neg htext, if_pos hpersisted]
                exact leaves_fail _ _ _
              simp only [htext, hpersisted, Option.bind_some, if_false, not_true_eq_false, ne_eq,
                not_false_eq_true, and_self, if_true]
              have hread := leaves_readDocument steps text
                { fetchedUrls := [url], lookedAt := [url] }
              rw [if_neg htext] at hread
              exact hread

/-! ### The loop over the candidates -/

/-- The candidates the loop looks at: while its budgets last. -/
def reached (steps : Text → DocumentSteps F) (maxDocuments maxAttempts : Nat) :
    List Text → Nat → Nat → List Text
  | [], _, _ => []
  | url :: rest, usable, fetched =>
      if maxDocuments ≤ usable ∨ maxAttempts ≤ fetched then []
      else url :: reached steps maxDocuments maxAttempts rest
        (usable + (steps url).yields.toNat) (fetched + (steps url).needsFetch.toNat)

/-- What some candidates add, one after the other. -/
def effects (steps : Text → DocumentSteps F) (urls : List Text) : Examined F :=
  urls.foldr (fun url t => ((steps url).effect url).append t) {}

theorem effect_usable (steps : DocumentSteps F) (url : Text) :
    (steps.effect url).usableDocuments = steps.yields.toNat :=
  (effect_leaves steps url).usable.trans (Nat.zero_add _)

theorem effect_fetchedUrls (steps : DocumentSteps F) (url : Text) :
    (steps.effect url).fetchedUrls = if steps.needsFetch then [url] else [] :=
  (effect_leaves steps url).fetchedUrls

theorem effect_features (steps : DocumentSteps F) (url : Text) :
    (steps.effect url).features = steps.written :=
  (effect_leaves steps url).features

section

variable (steps : Text → DocumentSteps F)

/-- **The loop adds up what the candidates it reaches add.** -/
theorem examineAll_eq (maxDocuments maxAttempts : Nat) (urls : List Text) (s : Examined F) :
    examineAll steps maxDocuments maxAttempts urls s =
      s.append (effects steps (reached steps maxDocuments maxAttempts urls s.usableDocuments
        s.fetchedUrls.length)) := by
  induction urls generalizing s with
  | nil => exact (append_empty s).symm
  | cons url rest ih =>
      rw [examineAll, reached]
      by_cases husable : maxDocuments ≤ s.usableDocuments
      · rw [if_pos husable, if_pos (Or.inl husable)]
        exact (append_empty s).symm
      by_cases hattempts : maxAttempts ≤ s.fetchedUrls.length
      · rw [if_neg husable, if_pos hattempts, if_pos (Or.inr hattempts)]
        exact (append_empty s).symm
      rw [if_neg husable, if_neg hattempts, if_neg (not_or.mpr ⟨husable, hattempts⟩), ih,
        examineOne_eq, append_assoc]
      have hone : (s.append ((steps url).effect url)).usableDocuments =
          s.usableDocuments + (steps url).yields.toNat :=
        congrArg (s.usableDocuments + ·) (effect_usable (steps url) url)
      have hfetched : (s.append ((steps url).effect url)).fetchedUrls.length =
          s.fetchedUrls.length + (steps url).needsFetch.toNat := by
        show (s.fetchedUrls ++ _).length = _
        rw [effect_fetchedUrls, List.length_append]
        cases (steps url).needsFetch <;> rfl
      rw [hone, hfetched]
      rfl

section

variable (urls : List Text)

theorem effects_features :
    (effects steps urls).features = urls.flatMap fun url => (steps url).written := by
  induction urls with
  | nil => rfl
  | cons url rest ih =>
      show ((steps url).effect url).features ++ (effects steps rest).features = _
      rw [effect_features, ih, List.flatMap_cons]

theorem effects_usable :
    (effects steps urls).usableDocuments = urls.countP fun url => (steps url).yields := by
  induction urls with
  | nil => rfl
  | cons url rest ih =>
      show ((steps url).effect url).usableDocuments + (effects steps rest).usableDocuments = _
      rw [effect_usable, ih, List.countP_cons, Nat.add_comm]
      cases (steps url).yields <;> rfl

theorem effects_fetchedUrls :
    (effects steps urls).fetchedUrls = urls.filter fun url => (steps url).needsFetch := by
  induction urls with
  | nil => rfl
  | cons url rest ih =>
      show ((steps url).effect url).fetchedUrls ++ (effects steps rest).fetchedUrls = _
      rw [effect_fetchedUrls, ih, List.filter_cons]
      cases (steps url).needsFetch <;> rfl

theorem effects_lookedAt : (effects steps urls).lookedAt = urls := by
  induction urls with
  | nil => rfl
  | cons url rest ih =>
      show ((steps url).effect url).lookedAt ++ (effects steps rest).lookedAt = _
      rw [(effect_leaves (steps url) url).lookedAt, ih, List.singleton_append]

end

/-- No technical failure among the candidates that left no code. -/
theorem found_of_effects {urls : List Text}
    (h : (effects steps urls).documentCodes = []) {url : Text} (hurl : url ∈ urls) :
    (steps url).found.isSome := by
  induction urls with
  | nil => cases hurl
  | cons first rest ih =>
      obtain ⟨hfirst, hrest⟩ := List.append_eq_nil_iff.mp
        (show ((steps first).effect first).documentCodes ++ (effects steps rest).documentCodes = []
          from h)
      rcases List.mem_cons.mp hurl with rfl | hmem
      · rw [Option.isSome_iff_ne_none]
        exact fun hnone => (effect_leaves (steps url) url).failed hnone hfirst
      · exact ih hrest hmem

/-! ### The budgets -/

theorem reached_initial (maxDocuments maxAttempts : Nat) (urls : List Text) (usable fetched : Nat) :
    reached steps maxDocuments maxAttempts urls usable fetched <+: urls := by
  induction urls generalizing usable fetched with
  | nil => exact List.prefix_refl []
  | cons url rest ih =>
      rw [reached]
      split
      · exact List.nil_prefix
      · exact List.cons_prefix_cons.mpr ⟨rfl, ih _ _⟩

/-- **No more is fetched than the attempts allow.** -/
theorem fetched_bounded (maxDocuments maxAttempts : Nat)
    (urls : List Text) (usable fetched : Nat) (hfetched : fetched ≤ maxAttempts) :
    fetched + ((reached steps maxDocuments maxAttempts urls usable fetched).filter
      fun url => (steps url).needsFetch).length ≤ maxAttempts := by
  induction urls generalizing usable fetched with
  | nil => exact hfetched
  | cons url rest ih =>
      rw [reached]
      by_cases hstop : maxDocuments ≤ usable ∨ maxAttempts ≤ fetched
      · rw [if_pos hstop]
        exact hfetched
      rw [if_neg hstop, List.filter_cons]
      have hroom : fetched < maxAttempts := Nat.lt_of_not_le fun h => hstop (Or.inr h)
      have hrest := ih (usable + (steps url).yields.toNat) (fetched + (steps url).needsFetch.toNat)
      cases hneeds : (steps url).needsFetch with
      | true =>
          rw [hneeds] at hrest
          have := hrest hroom
          rw [if_pos rfl, List.length_cons]
          simp only [Bool.toNat_true] at this ⊢
          omega
      | false =>
          rw [hneeds] at hrest
          exact hrest hfetched

/-- While nothing yields and there are as many attempts as candidates, every one is reached. -/
theorem reached_eq_self {maxDocuments maxAttempts : Nat}
    (hdocuments : 0 < maxDocuments) {urls : List Text} {fetched : Nat}
    (hattempts : fetched + urls.length ≤ maxAttempts)
    (hquiet : ∀ url ∈ reached steps maxDocuments maxAttempts urls 0 fetched,
      (steps url).yields = false) :
    reached steps maxDocuments maxAttempts urls 0 fetched = urls := by
  induction urls generalizing fetched with
  | nil => rfl
  | cons url rest ih =>
      rw [List.length_cons] at hattempts
      have hon : ¬ (maxDocuments ≤ 0 ∨ maxAttempts ≤ fetched) := by omega
      rw [reached, if_neg hon] at hquiet ⊢
      have hyields : 0 + (steps url).yields.toNat = 0 := by
        rw [hquiet url List.mem_cons_self]
        rfl
      rw [hyields] at hquiet ⊢
      have hneeds : (steps url).needsFetch.toNat ≤ 1 := Bool.toNat_le _
      rw [ih (by omega) fun u hu => hquiet u (List.mem_cons_of_mem _ hu)]

end

end InvestmentPlatform.News
