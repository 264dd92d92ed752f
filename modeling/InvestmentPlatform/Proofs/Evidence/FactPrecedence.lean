/-
The order in which facts arrive does not decide what stands.

What stands after a merge is a fact of the highest authority among those that say something.  One
step shows it of the list with one fact more, and the fold follows; the order of the list does not
occur in it, so every order ends at the same authority.
-/
import InvestmentPlatform.Evidence.FinancialFacts

namespace InvestmentPlatform.Evidence.Precedence

open List Bool

variable {K V R : Type}
variable {key : K} {facts : List (Fact K V R)} {existing survivor : Option (Fact K V R)}
variable {held fact : Fact K V R} {allow : Bool}

/-! ### What stands -/

/-- The survivor is a fact that says something, of the highest authority; where nothing says
anything, there is none. -/
def Best (facts : List (Fact K V R)) : Option (Fact K V R) → Prop
  | none => ∀ fact ∈ facts, fact.value.missing = true
  | some survivor => survivor ∈ facts ∧ survivor.value.missing = false ∧
      ∀ fact ∈ facts, fact.value.missing = false → fact.authority ≤ survivor.authority

/-- Why an incoming fact takes the place of one that says something. -/
structure Replaces (held incoming : Fact K V R) (allow : Bool) : Prop where
  speaks : incoming.value.missing = false
  automated : incoming.sourceTier ≠ .userUpload
  wins : held.authority < incoming.authority ∨
    held.authority = incoming.authority ∧ incoming.sourceTier = .officialNse ∧ allow = true

/-- Nothing of a user's upload outranks what says something. -/
theorem automated_of_lt (h : held.authority < fact.authority) : fact.sourceTier ≠ .userUpload := by
  intro htier
  have hzero : fact.authority = 0 := by rw [Fact.authority, htier]; rfl
  rw [hzero] at h
  exact Nat.not_lt_zero _ h

theorem Replaces.authority_le (h : Replaces held fact allow) : held.authority ≤ fact.authority := by
  rcases h.wins with hlt | ⟨heq, -, -⟩
  · exact Nat.le_of_lt hlt
  · exact Nat.le_of_eq heq

/-- What stands has the same authority as anything else that may stand of the same facts. -/
theorem Best.authority {others : List (Fact K V R)} {survivor' : Option (Fact K V R)}
    (h : Best facts survivor) (h' : Best others survivor') (hperm : others.Perm facts) :
    survivor'.map Fact.authority = survivor.map Fact.authority := by
  cases survivor with
  | none =>
    cases survivor' with
    | none => rfl
    | some other => cases (h other (hperm.mem_iff.mp h'.1)).symm.trans h'.2.1
  | some best =>
    cases survivor' with
    | none => cases (h' best (hperm.mem_iff.mpr h.1)).symm.trans h.2.1
    | some other =>
      have hle := h.2.2 other (hperm.mem_iff.mp h'.1) h'.2.1
      have hge := h'.2.2 best (hperm.mem_iff.mpr h.1) h.2.1
      exact congrArg some (Nat.le_antisymm hle hge)

section

variable [DecidableEq K]

/-- Each step of the merge leaves what stands, or replaces it for a reason. -/
def StepsGuarded (facts : List (Fact K V R × Bool)) : Prop :=
  ∀ before after incoming allow held, facts = before ++ (incoming, allow) :: after →
    mergeAll before = .ok (some held) →
      held.value.missing = false ∧
        (mergeFact (some held) (some incoming) allow = .ok (some held) ∨
          mergeFact (some held) (some incoming) allow = .ok (some incoming) ∧
            Replaces held incoming allow)

/-! ### One step -/

theorem mergeFact_missing (h : fact.value.missing = true) :
    mergeFact existing (some fact) allow = .ok existing := by
  unfold mergeFact
  exact if_pos h

theorem mergeFact_none (h : fact.value.missing = false) :
    mergeFact none (some fact) allow = .ok (some fact) := by
  unfold mergeFact
  exact if_neg (eq_false_iff.mp h)

theorem mergeFact_some (allow : Bool) (hheld : held.value.missing = false) (hkey : held.key = fact.key) :
    mergeFact (some held) (some fact) allow = .ok (some held) ∧
        (fact.value.missing = false → fact.authority ≤ held.authority) ∨
      mergeFact (some held) (some fact) allow = .ok (some fact) ∧ Replaces held fact allow := by
  by_cases hmissing : fact.value.missing = true
  · refine Or.inl ⟨mergeFact_missing hmissing, fun hspoken => ?_⟩
    cases hmissing.symm.trans hspoken
  · have hspoken := eq_false_iff.mpr hmissing
    unfold mergeFact
    simp only
    rw [if_neg hmissing, if_neg (eq_false_iff.mp hheld), if_neg (not_not_intro hkey)]
    by_cases hlt : held.authority < fact.authority
    · rw [if_pos hlt]
      exact Or.inr ⟨rfl, hspoken, automated_of_lt hlt, Or.inl hlt⟩
    · rw [if_neg hlt]
      have hle := Nat.not_lt.mp hlt
      by_cases hgt : fact.authority < held.authority
      · rw [if_pos hgt]
        exact Or.inl ⟨rfl, fun _ => hle⟩
      · rw [if_neg hgt]
        by_cases hcorrects : allow = true ∧ fact.sourceTier = .officialNse
        · rw [if_pos hcorrects]
          have hautomated : fact.sourceTier ≠ .userUpload := fun htier => by
            cases htier.symm.trans hcorrects.2
          refine Or.inr ⟨rfl, hspoken, hautomated, ?_⟩
          exact Or.inr ⟨Nat.le_antisymm (Nat.not_lt.mp hgt) hle, hcorrects.2, hcorrects.1⟩
        · rw [if_neg hcorrects]
          exact Or.inl ⟨rfl, fun _ => hle⟩

theorem Best.mergeFact (allow : Bool) (h : Best facts existing) (hfact : fact.key = key)
    (hkeys : ∀ given ∈ facts, given.key = key) :
    ∃ next, mergeFact existing (some fact) allow = .ok next ∧ Best (facts ++ [fact]) next := by
  cases existing with
  | none =>
    by_cases hmissing : fact.value.missing = true
    · refine ⟨none, mergeFact_missing hmissing, fun given hgiven => ?_⟩
      rcases mem_append.mp hgiven with hold | hnew
      · exact h given hold
      · rw [mem_singleton.mp hnew]
        exact hmissing
    · have hspoken := eq_false_iff.mpr hmissing
      refine ⟨some fact, mergeFact_none hspoken,
        mem_append_right _ (mem_singleton.mpr rfl), hspoken, fun given hgiven hgives => ?_⟩
      rcases mem_append.mp hgiven with hold | hnew
      · cases (h given hold).symm.trans hgives
      · rw [mem_singleton.mp hnew]
  | some held =>
    obtain ⟨hmem, hheld, hmax⟩ := h
    rcases mergeFact_some allow hheld ((hkeys held hmem).trans hfact.symm) with
      ⟨hkept, hle⟩ | ⟨htaken, hreplaces⟩
    · refine ⟨some held, hkept, mem_append_left _ hmem, hheld, fun given hgiven hgives => ?_⟩
      rcases mem_append.mp hgiven with hold | hnew
      · exact hmax given hold hgives
      · rw [mem_singleton.mp hnew] at hgives ⊢
        exact hle hgives
    · refine ⟨some fact, htaken, mem_append_right _ (mem_singleton.mpr rfl),
        hreplaces.speaks, fun given hgiven hgives => ?_⟩
      rcases mem_append.mp hgiven with hold | hnew
      · exact Nat.le_trans (hmax given hold hgives) hreplaces.authority_le
      · rw [mem_singleton.mp hnew]

/-! ### The fold -/

theorem Best.foldlM {before : List (Fact K V R)} (after : List (Fact K V R × Bool))
    (h : Best before existing) (hbefore : ∀ given ∈ before, given.key = key)
    (hafter : ∀ given ∈ after, given.1.key = key) :
    ∃ survivor, after.foldlM (fun existing given =>
        Precedence.mergeFact existing (some given.1) given.2) existing = .ok survivor ∧
      Best (before ++ after.map Prod.fst) survivor := by
  induction after generalizing before existing with
  | nil => exact ⟨existing, rfl, (append_nil before).symm ▸ h⟩
  | cons given after ih =>
    have hgiven := hafter given mem_cons_self
    obtain ⟨next, hnext, hbest⟩ := h.mergeFact given.2 hgiven hbefore
    have hbefore' : ∀ other ∈ before ++ [given.1], other.key = key := by
      intro other hother
      rcases mem_append.mp hother with hold | hnew
      · exact hbefore other hold
      · rw [mem_singleton.mp hnew]
        exact hgiven
    obtain ⟨survivor, hrest, hsurvivor⟩ := ih hbest hbefore' fun other hother =>
      hafter other (mem_cons_of_mem _ hother)
    refine ⟨survivor, ?_, ?_⟩
    · rw [foldlM_cons, hnext]
      exact hrest
    · rw [List.append_assoc] at hsurvivor
      exact hsurvivor

theorem best_mergeAll {facts : List (Fact K V R × Bool)}
    (hkeys : ∀ given ∈ facts, given.1.key = key) :
    ∃ survivor, mergeAll facts = .ok survivor ∧ Best (facts.map Prod.fst) survivor :=
  have hnone : Best ([] : List (Fact K V R)) none := fun _ hmem => absurd hmem not_mem_nil
  hnone.foldlM facts (fun _ hmem => absurd hmem not_mem_nil) hkeys

theorem stepsGuarded {facts : List (Fact K V R × Bool)}
    (hkeys : ∀ given ∈ facts, given.1.key = key) : StepsGuarded facts := by
  intro before after incoming allow held hfacts hheld
  have hbefore : ∀ given ∈ before, given.1.key = key := fun given hgiven =>
    hkeys given (hfacts ▸ mem_append_left _ hgiven)
  have hincoming : incoming.key = key :=
    hkeys (incoming, allow) (hfacts ▸ mem_append_right _ mem_cons_self)
  obtain ⟨survivor, hsurvivor, hbest⟩ := best_mergeAll hbefore
  cases hheld.symm.trans hsurvivor
  obtain ⟨hmem, hspoken, -⟩ := hbest
  obtain ⟨given, hgiven, rfl⟩ := mem_map.mp hmem
  exact ⟨hspoken, (mergeFact_some allow hspoken ((hbefore given hgiven).trans hincoming.symm)).imp_left
    And.left⟩

/-- **Precedence does not depend on the order of arrival**: the facts of one identity, merged in
any order and with any correction flags, leave one of the highest authority among those that say
something, and no step replaces a fact by one that has no right to it. -/
theorem precedence_law {facts : List (Fact K V R × Bool)}
    (hkeys : ∀ given ∈ facts, given.1.key = key) :
    ∃ survivor, mergeAll facts = .ok survivor ∧ Best (facts.map Prod.fst) survivor ∧
      StepsGuarded facts ∧
      ∀ others : List (Fact K V R × Bool), (others.map Prod.fst).Perm (facts.map Prod.fst) →
        ∃ survivor', mergeAll others = .ok survivor' ∧
          survivor'.map Fact.authority = survivor.map Fact.authority := by
  obtain ⟨survivor, hsurvivor, hbest⟩ := best_mergeAll hkeys
  refine ⟨survivor, hsurvivor, hbest, stepsGuarded hkeys, fun others hperm => ?_⟩
  have hothers : ∀ given ∈ others, given.1.key = key := by
    intro given hgiven
    obtain ⟨given', hgiven', heq⟩ :=
      List.mem_map.mp (hperm.mem_iff.mp (List.mem_map.mpr ⟨given, hgiven, rfl⟩))
    rw [← heq]
    exact hkeys given' hgiven'
  obtain ⟨survivor', hsurvivor', hbest'⟩ := best_mergeAll hothers
  exact ⟨survivor', hsurvivor', hbest.authority hbest' hperm⟩

end

/-- An upload, a filing of NSE, its correction and a blank text. -/
def sampleFacts : List (Fact String Nat Unit × Bool) :=
  [(⟨"revenue", .other 7, .userUpload, ()⟩, true), (⟨"revenue", .other 8, .officialNse, ()⟩, false),
    (⟨"revenue", .other 9, .officialNse, ()⟩, true),
    (⟨"revenue", .text " ", .officialRegulatory, ()⟩, true)]

theorem precedence_law_sample :
    ∃ survivor, mergeAll sampleFacts = .ok survivor ∧ Best (sampleFacts.map Prod.fst) survivor ∧
      StepsGuarded sampleFacts ∧
      ∀ others : List (Fact String Nat Unit × Bool),
        (others.map Prod.fst).Perm (sampleFacts.map Prod.fst) →
        ∃ survivor', mergeAll others = .ok survivor' ∧
          survivor'.map Fact.authority = survivor.map Fact.authority :=
  have hkeys : ∀ given ∈ sampleFacts, given.1.key = "revenue" := by decide
  precedence_law hkeys

/-! ### The store's merge -/

/-- A fact of the store: its value is a number or missing. -/
def given (fact : FinancialFact) : Fact FinancialFactKey FactNumber FinancialFact where
  key := fact.key
  value := fact.value.value.elim .none .other
  sourceTier := fact.sourceTier
  rest := fact

theorem missing_given (fact : FinancialFact) :
    (given fact).value.missing = true ↔ fact.value.value = none := by
  unfold given
  cases fact.value.value with
  | none => exact ⟨fun _ => rfl, fun _ => rfl⟩
  | some value => exact ⟨fun h => (by cases h), fun h => (by cases h)⟩

/-- The store's merge is this one. -/
theorem mergeFact_given (existing : Option FinancialFact) (incoming : FinancialFact) (allow : Bool) :
    mergeFact (existing.map given) (some (given incoming)) allow =
      (Evidence.mergeFact existing incoming allow).map fun
        | .existing => existing.map given
        | .incoming => some (given incoming) := by
  unfold mergeFact Evidence.mergeFact
  by_cases hincoming : incoming.value.value = none
  · rw [if_pos hincoming]
    exact if_pos ((missing_given incoming).mpr hincoming)
  · rw [if_neg hincoming]
    simp only
    rw [if_neg (mt (missing_given incoming).mp hincoming)]
    cases existing with
    | none => rfl
    | some held =>
      simp only [Option.map_some, missing_given]
      change (if held.value.value = none then _ else if held.key ≠ incoming.key then _
        else if factSourceAuthority held.sourceTier < factSourceAuthority incoming.sourceTier then _
        else if factSourceAuthority incoming.sourceTier < factSourceAuthority held.sourceTier then _
        else if allow = true ∧ incoming.sourceTier = .officialNse then _ else _) = _
      split_ifs <;> rfl

end InvestmentPlatform.Evidence.Precedence
