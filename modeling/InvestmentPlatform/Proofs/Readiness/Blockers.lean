/-
What a stale verdict names.

The verdict goes by any fresh evidence of an input, the list of blockers by its most authoritative
evidence.  An input without fresh evidence is on the list either way; the list is exact where no
input has stale evidence of more authority beside fresh evidence of less.
-/
import InvestmentPlatform.Readiness.Policy

namespace InvestmentPlatform.Readiness

open List Selection

open Selection (firstMin sortOn)

variable {fold : String → String} {requirement : ResearchRequirement}
variable {authority : ProviderAuthorityPolicy} {policy : FreshnessPolicy} {now : Time}
variable {snapshot : RequirementSnapshot} {evidence : List ResearchEvidence}
variable {readiness : ResearchRequirementReadiness}

/-! ### What is promised -/

/-- The evidence that a snapshot has for the rules. -/
def eligibleEvidence (policy : FreshnessPolicy) (snapshot : RequirementSnapshot) (now : Time) :
    List ResearchEvidence :=
  policy.scoreInputEvidence now
    (durableEvidence snapshot.applicability.excludedInputs snapshot.evidence)

/-- A mandatory input has no fresh complete evidence. -/
def Blocking (requirement : ResearchRequirement) (policy : FreshnessPolicy) (now : Time)
    (evidence : List ResearchEvidence) (inputId : String) : Prop :=
  inputId ∈ requirement.mandatoryInputs ∧
    ∀ item ∈ candidates requirement.inputIds evidence inputId, policy.isFresh item now = false

/-- Some input has stale evidence of the most authority, and fresh evidence of less. -/
def Mixed (requirement : ResearchRequirement) (authority : ProviderAuthorityPolicy)
    (policy : FreshnessPolicy) (now : Time) (evidence : List ResearchEvidence) : Prop :=
  ∃ inputId ∈ requirement.mandatoryInputs, ∃ chosen,
    firstMin authority.orderKey (candidates requirement.inputIds evidence inputId) = some chosen ∧
      policy.isFresh chosen now = false ∧
      ∃ item ∈ candidates requirement.inputIds evidence inputId, policy.isFresh item now = true

/-- The ids stand in the reason, and the evidence reported is complete and covers one of them. -/
structure Named (requirement : ResearchRequirement) (evidence : List ResearchEvidence)
    (readiness : ResearchRequirementReadiness) (listed : List String) : Prop where
  reason : readiness.missingReason =
    some ("FRESHNESS_POLICY_EXPIRED" ++ ":" ++ ",".intercalate listed)
  sorted : listed.Pairwise (· < ·)
  nonempty : listed ≠ []
  mandatory : ∀ inputId ∈ listed, inputId ∈ requirement.mandatoryInputs
  reported : ∃ selected ∈ evidence, readiness.selected = some selected ∧ selected.complete = true ∧
    ∃ inputId ∈ listed, selected.covers requirement.inputIds inputId = true

/-- The reason lists just the blocking inputs. -/
def NamesBlockers (requirement : ResearchRequirement) (policy : FreshnessPolicy) (now : Time)
    (evidence : List ResearchEvidence) (readiness : ResearchRequirementReadiness) : Prop :=
  ∃ listed, Named requirement evidence readiness listed ∧
    ∀ inputId, inputId ∈ listed ↔ Blocking requirement policy now evidence inputId

/-! ### The list -/

variable {inputId : String}

theorem mem_candidates {inputIds : List String} {item : ResearchEvidence} :
    item ∈ candidates inputIds evidence inputId ↔
      item ∈ evidence ∧ item.complete = true ∧ item.covers inputIds inputId = true := by
  unfold candidates
  rw [mem_filter, Bool.and_eq_true]

theorem mem_blockers {chosen : ResearchEvidence} :
    (inputId, chosen) ∈ blockers requirement authority policy now evidence ↔
      inputId ∈ requirement.mandatoryInputs ∧
        firstMin authority.orderKey (candidates requirement.inputIds evidence inputId) =
          some chosen ∧ policy.isFresh chosen now = false := by
  unfold blockers
  rw [mem_filterMap]
  constructor
  · rintro ⟨other, hother, h⟩
    split at h
    · cases h
    · rename_i found hfound
      split at h
      · cases h
      · rename_i hstale
        cases h
        exact ⟨hother, hfound, Bool.eq_false_iff.mpr hstale⟩
  · rintro ⟨hmandatory, hchosen, hstale⟩
    refine ⟨inputId, hmandatory, ?_⟩
    rw [hchosen]
    exact if_neg (Bool.eq_false_iff.mp hstale)

/-- The ids that are listed. -/
def listed (requirement : ResearchRequirement) (authority : ProviderAuthorityPolicy)
    (policy : FreshnessPolicy) (now : Time) (evidence : List ResearchEvidence) : List String :=
  sortOn id ((blockers requirement authority policy now evidence).map Prod.fst)

theorem nodup_blockers :
    ((blockers requirement authority policy now evidence).map Prod.fst).Nodup := by
  have hmandatory : requirement.mandatoryInputs.Nodup :=
    requirement.nodup.sublist (filter_sublist.map _)
  refine hmandatory.sublist (map_fst_filterMap_sublist (fun inputId pair h => ?_) _)
  split at h
  · cases h
  · split at h
    · cases h
    · cases h
      rfl

theorem sorted_listed : (listed requirement authority policy now evidence).Pairwise (· < ·) := by
  have hnodup : (listed requirement authority policy now evidence).Nodup :=
    (sortOn_perm id _).nodup_iff.mpr nodup_blockers
  have hsorted : (listed requirement authority policy now evidence).Pairwise (· ≤ ·) :=
    sortOn_pairwise id _
  exact hsorted.imp₂ (fun _ _ hle hne => lt_of_le_of_ne hle hne) hnodup

theorem mem_listed : inputId ∈ listed requirement authority policy now evidence ↔
      inputId ∈ requirement.mandatoryInputs ∧ ∃ chosen,
        firstMin authority.orderKey (candidates requirement.inputIds evidence inputId) =
          some chosen ∧ policy.isFresh chosen now = false := by
  unfold listed
  rw [(sortOn_perm id _).mem_iff, mem_map]
  constructor
  · rintro ⟨⟨other, chosen⟩, hpair, rfl⟩
    obtain ⟨hmandatory, hchosen⟩ := mem_blockers.mp hpair
    exact ⟨hmandatory, chosen, hchosen⟩
  · rintro ⟨hmandatory, chosen, hchosen⟩
    exact ⟨(inputId, chosen), mem_blockers.mpr ⟨hmandatory, hchosen⟩, rfl⟩

/-- Where every mandatory input is covered, a blocking one is listed. -/
theorem Blocking.mem_listed (h : Blocking requirement policy now evidence inputId)
    (hcovered : candidates requirement.inputIds evidence inputId ≠ []) :
    inputId ∈ listed requirement authority policy now evidence := by
  refine Readiness.mem_listed.mpr ⟨h.1, ?_⟩
  cases hchosen : firstMin authority.orderKey (candidates requirement.inputIds evidence inputId) with
  | none => exact absurd (firstMin_eq_none.mp hchosen) hcovered
  | some chosen => exact ⟨chosen, rfl, h.2 chosen (firstMin_mem hchosen).1⟩

theorem blocking_of_mem_listed (hmixed : ¬ Mixed requirement authority policy now evidence)
    (h : inputId ∈ listed requirement authority policy now evidence) :
    Blocking requirement policy now evidence inputId := by
  obtain ⟨hmandatory, chosen, hchosen, hstale⟩ := mem_listed.mp h
  refine ⟨hmandatory, fun item hitem => Bool.eq_false_iff.mpr fun hfresh => hmixed ?_⟩
  exact ⟨inputId, hmandatory, chosen, hchosen, hstale, item, hitem, hfresh⟩

/-! ### The verdict -/

/-- What holds of a requirement that the cascade finds stale. -/
theorem evidenceStatus_stale {durable : List ResearchEvidence}
    (h : (evidenceStatus fold requirement authority policy now snapshot durable evidence).1 =
      .readyStale) :
    (evidenceStatus fold requirement authority policy now snapshot durable evidence).2 =
        some "FRESHNESS_POLICY_EXPIRED" ∧
      (∀ inputId ∈ requirement.mandatoryInputs,
        candidates requirement.inputIds evidence inputId ≠ []) ∧
      requiredInputsAreFresh fold requirement authority policy now evidence = false := by
  unfold evidenceStatus at h ⊢
  simp only at h ⊢
  split at h
  · cases h
  · split at h
    · cases h
    · split at h
      · split at h
        · cases h
        · cases h
      · split at h
        · cases h
        · split at h
          · cases h
          · rename_i hmissing
            split at h
            · cases h
            · rename_i hrefreshing hconflict hempty hcount hstale
              rw [if_neg hrefreshing, if_neg hconflict, if_neg hempty, if_neg hcount,
                if_neg hmissing, if_neg hstale]
              refine ⟨rfl, fun inputId hinput hnone => ?_, Bool.eq_false_iff.mpr hstale⟩
              have hcovered := filter_eq_nil_iff.mp (not_not.mp hmissing) inputId hinput
              rw [decide_eq_true_eq, not_not] at hcovered
              have hkept := (mem_filter.mp hcovered).2
              rw [hnone] at hkept
              cases hkept

theorem exists_blocking (hmandatory : requirement.mandatoryInputs ≠ [])
    (h : requiredInputsAreFresh fold requirement authority policy now evidence = false) :
    ∃ inputId, Blocking requirement policy now evidence inputId := by
  unfold requiredInputsAreFresh at h
  rw [if_neg hmandatory, all_eq_false] at h
  obtain ⟨inputId, hinput, hnone⟩ := h
  refine ⟨inputId, hinput, fun item hitem => Bool.eq_false_iff.mpr fun hfresh => hnone ?_⟩
  exact any_eq_true.mpr ⟨item, hitem, hfresh⟩

theorem blockers_eq_nil (hmandatory : requirement.mandatoryInputs = []) :
    blockers requirement authority policy now evidence = [] := by
  unfold blockers
  rw [hmandatory]
  rfl

theorem oldest_mem {item : ResearchEvidence} (h : oldest policy evidence = some item) :
    item ∈ evidence := by
  unfold oldest at h
  split at h
  · exact (firstMin_mem h).1
  · cases h

/-- What is said where the blockers are named. -/
theorem named_of_nameBlockers {base : ResearchRequirementReadiness}
    (hbase : base.missingReason = some "FRESHNESS_POLICY_EXPIRED")
    (hblockers : blockers requirement authority policy now evidence ≠ [])
    (h : nameBlockers policy now (blockers requirement authority policy now evidence) base =
      some readiness) :
    Named requirement evidence readiness (listed requirement authority policy now evidence) := by
  unfold nameBlockers at h
  rw [if_neg hblockers] at h
  obtain ⟨selected, hselected, rfl⟩ := Option.map_eq_some_iff.mp h
  obtain ⟨⟨inputId, chosen⟩, hpair, rfl⟩ := mem_map.mp (oldest_mem hselected)
  obtain ⟨hmandatory, hchosen, hstale⟩ := mem_blockers.mp hpair
  obtain ⟨hevidence, hcomplete, hcovers⟩ := mem_candidates.mp (firstMin_mem hchosen).1
  have hlisted : inputId ∈ listed requirement authority policy now evidence :=
    mem_listed.mpr ⟨hmandatory, chosen, hchosen, hstale⟩
  refine ⟨?_, sorted_listed, ne_nil_of_mem hlisted, fun other hother => (mem_listed.mp hother).1,
    chosen, hevidence, rfl, hcomplete, inputId, hlisted, hcovers⟩
  rw [hbase]
  rfl

theorem stale_cases {base : ResearchRequirementReadiness}
    (hbase : base.missingReason = some "FRESHNESS_POLICY_EXPIRED")
    (hcovered : ∀ inputId ∈ requirement.mandatoryInputs,
      candidates requirement.inputIds evidence inputId ≠ [])
    (hfresh : requiredInputsAreFresh fold requirement authority policy now evidence = false)
    (h : nameBlockers policy now (blockers requirement authority policy now evidence) base =
      some readiness) :
    requirement.mandatoryInputs = [] ∧ readiness.missingReason = some "FRESHNESS_POLICY_EXPIRED" ∨
      ∃ listed, Named requirement evidence readiness listed ∧
        (∀ inputId, Blocking requirement policy now evidence inputId → inputId ∈ listed) ∧
        (¬ Mixed requirement authority policy now evidence →
          NamesBlockers requirement policy now evidence readiness) := by
  by_cases hmandatory : requirement.mandatoryInputs = []
  · rw [blockers_eq_nil hmandatory, nameBlockers, if_pos rfl] at h
    cases h
    exact Or.inl ⟨hmandatory, hbase⟩
  · have hall : ∀ inputId, Blocking requirement policy now evidence inputId →
        inputId ∈ listed requirement authority policy now evidence :=
      fun inputId hblocking => hblocking.mem_listed (hcovered inputId hblocking.1)
    obtain ⟨inputId, hblocking⟩ := exists_blocking hmandatory hfresh
    have hnonempty : blockers requirement authority policy now evidence ≠ [] := by
      intro hnil
      have hlisted := hall inputId hblocking
      unfold listed at hlisted
      rw [hnil] at hlisted
      cases hlisted
    have hnamed := named_of_nameBlockers hbase hnonempty h
    refine Or.inr ⟨_, hnamed, hall, fun hmixed => ⟨_, hnamed, fun other => ?_⟩⟩
    exact ⟨blocking_of_mem_listed hmixed, hall other⟩

/-- The three kinds of a stale verdict. -/
inductive StaleVerdict (requirement : ResearchRequirement) (authority : ProviderAuthorityPolicy)
    (policy : FreshnessPolicy) (snapshot : RequirementSnapshot) (now : Time)
    (readiness : ResearchRequirementReadiness) : Prop
  /-- The search for news is stale; no evidence is looked at. -/
  | news (hid : requirement.requirementId = "CURRENT_NEWS")
      (hsearch : snapshot.newsReadiness = some "STALE_SEARCH")
      (hreason : readiness.missingReason = some "STALE_SEARCH")
      (hselected : readiness.selected = none)
  /-- No input that applies is mandatory. -/
  | whole (hinputs : (requirement.without snapshot.applicability.excludedInputs).mandatoryInputs = [])
      (hreason : readiness.missingReason = some "FRESHNESS_POLICY_EXPIRED")
  | blocked (listed : List String)
      (hnamed : Named (requirement.without snapshot.applicability.excludedInputs)
        (eligibleEvidence policy snapshot now) readiness listed)
      (hblocking : ∀ inputId, Blocking (requirement.without snapshot.applicability.excludedInputs)
        policy now (eligibleEvidence policy snapshot now) inputId → inputId ∈ listed)
      (hexact : ¬ Mixed (requirement.without snapshot.applicability.excludedInputs) authority policy
        now (eligibleEvidence policy snapshot now) →
        NamesBlockers (requirement.without snapshot.applicability.excludedInputs) policy now
          (eligibleEvidence policy snapshot now) readiness)

/-- **A stale verdict names every input that blocks it**: for every requirement and all evidence. -/
theorem stale_verdict (h : classify fold requirement authority policy snapshot now = some readiness)
    (hstale : readiness.status = .readyStale) :
    StaleVerdict requirement authority policy snapshot now readiness := by
  unfold classify at h
  split at h
  · rename_i status hnews
    cases h
    split at hnews
    · rename_i hid
      obtain ⟨search, hsearch, hstatus⟩ := Option.bind_eq_some_iff.mp hnews
      have hvalue : search = "STALE_SEARCH" := by
        change status = .readyStale at hstale
        subst hstale
        unfold newsStatus at hstatus
        split at hstatus
        · cases hstatus
        · cases hstatus
        · rfl
        · cases hstatus
      subst hvalue
      exact .news hid hsearch hsearch rfl
    · cases hnews
  · split at h
    · cases h
      cases hstale
    · simp only at h
      split at h
      · cases h
        cases hstale
      · split at h
        · rename_i hstatus
          obtain ⟨hreason, hcovered, hfresh⟩ := evidenceStatus_stale hstatus
          rcases stale_cases hreason hcovered hfresh h with ⟨hinputs, hwhole⟩ | hblocked
          · exact .whole hinputs hwhole
          · obtain ⟨listed, hnamed, hblocking, hexact⟩ := hblocked
            exact .blocked listed hnamed hblocking hexact
        · rename_i hstatus
          cases h
          exact absurd hstale hstatus

/-! ### Three verdicts -/

theorem sampleInputs_nodup (importance : ResearchRequirementImportance) :
    ([⟨"ROE", importance⟩, ⟨"MARGINS", importance⟩].map ResearchRequirementInput.inputId).Nodup := by
  change ["ROE", "MARGINS"].Nodup
  decide

def sampleRequirement (requirementId : String) (importance : ResearchRequirementImportance) :
    ResearchRequirement where
  requirementId := requirementId
  ruleEngineArea := .growth
  mandatory := true
  freshnessPolicyId := "ANNUAL_FINANCIALS"
  inputs := [⟨"ROE", importance⟩, ⟨"MARGINS", importance⟩]
  nodup := sampleInputs_nodup importance

def samplePolicy : FreshnessPolicy where
  maximumAge := some 100

def sampleAuthority : ProviderAuthorityPolicy := ⟨["NSE"]⟩

def sampleEvidence (evidenceId source : String) (asOf : Time) (inputs : List String) :
    ResearchEvidence where
  evidenceId := evidenceId
  source := source
  sourceTier := .official
  retrievedAt := asOf
  asOf := some asOf
  coveredInputIds := inputs

/-- The official figures are old; another source has one of them new. -/
def mixedSnapshot : RequirementSnapshot where
  evidence := [sampleEvidence "1" "NSE" 0 ["ROE"], sampleEvidence "2" "YAHOO" 950 ["ROE"],
    sampleEvidence "3" "NSE" 0 ["MARGINS"]]

def classifySample (requirement : ResearchRequirement) (snapshot : RequirementSnapshot) :
    Option ResearchRequirementReadiness :=
  classify id requirement sampleAuthority samplePolicy snapshot 1000

theorem mixed_isSome :
    (classifySample (sampleRequirement "GROWTH_FACTS" .mandatory) mixedSnapshot).isSome := by rfl

def mixedReadiness : ResearchRequirementReadiness :=
  (classifySample (sampleRequirement "GROWTH_FACTS" .mandatory) mixedSnapshot).get mixed_isSome

theorem mixedReadiness_facts : mixedReadiness.status = .readyStale ∧
    mixedReadiness.missingReason = some "FRESHNESS_POLICY_EXPIRED:MARGINS,ROE" := by
  decide +kernel

theorem stale_verdict_sample : StaleVerdict (sampleRequirement "GROWTH_FACTS" .mandatory)
    sampleAuthority samplePolicy mixedSnapshot 1000 mixedReadiness := by
  have hclassify : classify id (sampleRequirement "GROWTH_FACTS" .mandatory) sampleAuthority
      samplePolicy mixedSnapshot 1000 = some mixedReadiness := (Option.some_get mixed_isSome).symm
  exact stale_verdict hclassify mixedReadiness_facts.1

def searchSnapshot : RequirementSnapshot where
  newsReadiness := some "STALE_SEARCH"

theorem search_isSome :
    (classifySample (sampleRequirement "CURRENT_NEWS" .mandatory) searchSnapshot).isSome := by rfl

def searchReadiness : ResearchRequirementReadiness :=
  (classifySample (sampleRequirement "CURRENT_NEWS" .mandatory) searchSnapshot).get search_isSome

theorem searchReadiness_facts : searchReadiness.status = .readyStale ∧
    searchReadiness.missingReason = some "STALE_SEARCH" := by
  decide

theorem optional_isSome :
    (classifySample (sampleRequirement "GROWTH_FACTS" .important) mixedSnapshot).isSome := by
  decide +kernel

def optionalReadiness : ResearchRequirementReadiness :=
  (classifySample (sampleRequirement "GROWTH_FACTS" .important) mixedSnapshot).get optional_isSome

theorem optionalReadiness_facts : optionalReadiness.status = .readyStale ∧
    optionalReadiness.missingReason = some "FRESHNESS_POLICY_EXPIRED" := by
  decide +kernel

theorem not_blocking_roe : ¬ Blocking (sampleRequirement "GROWTH_FACTS" .mandatory) samplePolicy 1000
    mixedSnapshot.evidence "ROE" := by
  intro h
  have hfresh := h.2 (sampleEvidence "2" "YAHOO" 950 ["ROE"]) (by decide)
  exact absurd hfresh (by decide)

/-- **Not every stale verdict names just its blockers**: a stale search names nothing, nor does a
requirement without mandatory inputs, and an input may be named that has fresh evidence. -/
theorem stale_verdicts_differ :
    (searchReadiness.status = .readyStale ∧
        ¬ NamesBlockers (sampleRequirement "CURRENT_NEWS" .mandatory) samplePolicy 1000
          searchSnapshot.evidence searchReadiness) ∧
      (optionalReadiness.status = .readyStale ∧
        ¬ NamesBlockers (sampleRequirement "GROWTH_FACTS" .important) samplePolicy 1000
          mixedSnapshot.evidence optionalReadiness) ∧
      (mixedReadiness.status = .readyStale ∧
        ¬ NamesBlockers (sampleRequirement "GROWTH_FACTS" .mandatory) samplePolicy 1000
          mixedSnapshot.evidence mixedReadiness) := by
  refine ⟨⟨searchReadiness_facts.1, fun h => ?_⟩, ⟨optionalReadiness_facts.1, fun h => ?_⟩,
    mixedReadiness_facts.1, fun h => ?_⟩
  · obtain ⟨listed, hnamed, -⟩ := h
    have hreason := hnamed.reason
    rw [searchReadiness_facts.2, Option.some_inj] at hreason
    have hhead := congrArg (fun text => text.toList.head?) hreason
    simp only [String.toList_append] at hhead
    exact absurd hhead (by simp)
  · obtain ⟨listed, hnamed, -⟩ := h
    have hreason := hnamed.reason
    rw [optionalReadiness_facts.2, Option.some_inj] at hreason
    have hlength := congrArg String.length hreason
    rw [String.length_append, String.length_append] at hlength
    have hcolon : ":".length = 1 := rfl
    omega
  · obtain ⟨listed, hnamed, hexact⟩ := h
    have hmargins : ∀ inputId ∈ listed, inputId = "MARGINS" := by
      intro inputId hlisted
      have hmandatory := hnamed.mandatory inputId hlisted
      have hcases : inputId = "ROE" ∨ inputId = "MARGINS" := by
        have hmem : inputId ∈ ["ROE", "MARGINS"] := hmandatory
        simpa using hmem
      rcases hcases with rfl | hmargins
      · exact absurd ((hexact _).mp hlisted) not_blocking_roe
      · exact hmargins
    have hreason := hnamed.reason
    rw [mixedReadiness_facts.2, Option.some_inj] at hreason
    cases hlisted : listed with
    | nil => exact hnamed.nonempty hlisted
    | cons first rest =>
      have hsorted := hnamed.sorted
      rw [hlisted] at hsorted hmargins
      have hfirst := hmargins first List.mem_cons_self
      cases rest with
      | nil =>
        rw [hlisted, hfirst] at hreason
        exact absurd hreason (by decide)
      | cons second rest =>
        have hsecond := hmargins second (List.mem_cons_of_mem _ List.mem_cons_self)
        have hlt := (List.pairwise_cons.mp hsorted).1 second List.mem_cons_self
        rw [hfirst, hsecond] at hlt
        exact lt_irrefl _ hlt

end InvestmentPlatform.Readiness
