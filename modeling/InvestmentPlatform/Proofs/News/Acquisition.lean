/-
What a news search may conclude, and when it does.

A run is complete exactly where everything that was searched is complete and the documents did not
leave it incomplete (`outcome_eq`), and the documents leave it incomplete only while none of them
is usable.  A document counts as usable before its impacts are written.  So the two ways a search
fails its promise are an address that cannot be put into canonical form, outside of what the loop
over the queries protects, and a candidate that yields while no write succeeds
(`search_honest_iff`).
-/
import InvestmentPlatform.Lib.Fallible
import InvestmentPlatform.Proofs.News.Gathering
import Mathlib.Data.List.Find

namespace InvestmentPlatform.News

open Selection UrlText List ProviderOutcome Dict

variable {F : Type} (unicode : Unicode) (quoting : Quoting) (input : NewsInput F)

/-! ### What is searched -/

/-- The providers, in the order they are asked. -/
def NewsInput.asked : List Provider := sortOn (fun p : Provider => p.providerName) input.providers

/-- What earlier discoveries are reused as. -/
def NewsInput.reused : List ProviderOutcome :=
  (persistedYahooDiscovery input.observations input.documents input.startedAt).1 ++
    (persistedOfficialDiscovery input.documents).1

/-- The rows of the earlier company news. -/
def NewsInput.yahooRows : List CandidateSearchResult :=
  (persistedYahooDiscovery input.observations input.documents input.startedAt).2

/-- The other rows, in the order they come in. -/
def NewsInput.otherRows : List CandidateSearchResult :=
  (persistedOfficialDiscovery input.documents).2 ++
    input.asked.flatMap fun p => foundBy p.answers (p.queries unicode input.plan.length)

/-- The address of a row. -/
def address (row : CandidateSearchResult) : Option Text := canonicalizeUrl unicode quoting row.url

/-- The row kept for an address: the last of the earlier company news, or else the first. -/
def NewsInput.keptRow (url : Text) : Option CandidateSearchResult :=
  ((input.yahooRows.filter fun row => address unicode quoting row = some url).getLast?).or
    ((input.otherRows unicode).find? fun row => address unicode quoting row = some url)

/-- Everything that was searched is complete. -/
def NewsInput.Searched : Prop :=
  0 < input.plan.length ∧ (∀ o ∈ input.reused, o.Complete) ∧
    ∀ p ∈ input.providers, p.Completes unicode input.plan.length

/-- Every address can be computed, and the rank of every row that is kept. -/
def NewsInput.Readable : Prop :=
  (∀ row ∈ input.yahooRows ++ input.otherRows unicode, (address unicode quoting row).isSome) ∧
    ∀ url row, input.keptRow unicode quoting url = some row → (urlparse unicode row.url).isSome

/-- The rows by their addresses. -/
def NewsInput.kept : Dict Text CandidateSearchResult :=
  (input.otherRows unicode).foldl
    (fun d row => d.setDefault ((address unicode quoting row).getD []) row)
    (input.yahooRows.foldl (fun d row => d.set ((address unicode quoting row).getD []) row)
      Dict.empty)

theorem gather_eq : gather unicode quoting input =
    if ∀ row ∈ input.yahooRows ++ input.otherRows unicode, (address unicode quoting row).isSome then
      some
        { candidates := input.kept unicode quoting
          outcomes := input.reused ++ input.asked.map fun p => p.outcome unicode input.plan.length
          calls := input.asked.flatMap fun p =>
            (p.queries unicode input.plan.length).map fun i => (p.providerName, i) }
    else none := by
  have hgather : gather unicode quoting input =
      (keyedRows (canonicalizeUrl unicode quoting) input.yahooRows).bind fun d =>
        (addRows (canonicalizeUrl unicode quoting) d (input.otherRows unicode)).map
          fun candidates =>
            { candidates
              outcomes := input.reused ++
                input.asked.map fun p => p.outcome unicode input.plan.length
              calls := input.asked.flatMap fun p =>
                (p.queries unicode input.plan.length).map fun i => (p.providerName, i) } := by
    show Option.bind _ _ = _
    refine congrArg (Option.bind _) (funext fun d => ?_)
    rw [NewsInput.otherRows, addRows_append]
    cases addRows (canonicalizeUrl unicode quoting) d
        (persistedOfficialDiscovery input.documents).2 with
    | none => rfl
    | some d' => exact askProviders_eq _ unicode input.plan.length input.asked _
  rw [hgather, keyedRows_eq]
  unfold address
  by_cases hyahoo : ∀ row ∈ input.yahooRows, (canonicalizeUrl unicode quoting row.url).isSome
  · rw [if_pos hyahoo, Option.bind_some, addRows_eq]
    by_cases hother : ∀ row ∈ input.otherRows unicode,
        (canonicalizeUrl unicode quoting row.url).isSome
    · rw [if_pos hother, if_pos (forall_mem_append.mpr ⟨hyahoo, hother⟩)]
      rfl
    · rw [if_neg hother, if_neg fun h => hother (forall_mem_append.mp h).2]
      rfl
  · rw [if_neg hyahoo, if_neg fun h => hyahoo (forall_mem_append.mp h).1]
    rfl

/-- A row is filed under its address. -/
theorem address_key {rows : List CandidateSearchResult}
    (h : ∀ row ∈ rows, (address unicode quoting row).isSome) (url : Text) :
    ∀ row ∈ rows, (decide ((address unicode quoting row).getD [] = url)) =
      decide (address unicode quoting row = some url) := by
  intro row hrow
  obtain ⟨key, hkey⟩ := Option.isSome_iff_exists.mp (h row hrow)
  rw [hkey, Option.getD_some]
  exact decide_eq_decide.mpr ⟨congrArg some, Option.some.inj⟩

theorem kept_get?
    (h : ∀ row ∈ input.yahooRows ++ input.otherRows unicode, (address unicode quoting row).isSome)
    (url : Text) : (input.kept unicode quoting).get? url = input.keptRow unicode quoting url := by
  obtain ⟨hyahoo, hother⟩ := forall_mem_append.mp h
  have hset := get?_foldl_set (fun row => (address unicode quoting row).getD []) id
    input.yahooRows empty url
  have hdefault := get?_foldl_setDefault (fun row => (address unicode quoting row).getD []) id
    (input.otherRows unicode) (input.yahooRows.foldl
      (fun d row => d.set ((address unicode quoting row).getD []) row) empty) url
  rw [filter_congr (address_key unicode quoting hyahoo url), Option.map_id] at hset
  rw [find?_congr (address_key unicode quoting hother url), Option.map_id] at hdefault
  refine hdefault.trans (congrArg (Option.or · _) (hset.trans ?_))
  exact Option.or_none

/-! ### The ranking -/

theorem rank_isSome_iff (knownDomains : List Text) (row : CandidateSearchResult) :
    (candidateRank unicode knownDomains row).isSome ↔ (urlparse unicode row.url).isSome := by
  rw [candidateRank, Option.isSome_map]

/-- The addresses by rank, where every rank can be computed. -/
theorem rankedUrls_isSome_iff (candidates : Dict Text CandidateSearchResult) :
    (rankedUrls unicode input candidates).isSome ↔
      ∀ url row, candidates.get? url = some row → (urlparse unicode row.url).isSome := by
  rw [rankedUrls, Option.isSome_map, Fallible.mapM_isSome_iff]
  simp only [Option.isSome_map, rank_isSome_iff]
  constructor
  · exact fun h url row hget => h (url, row) (mem_items.mpr hget)
  · exact fun h item hitem => h item.1 item.2 (mem_items.mp hitem)

theorem mapM_map_snd {α β γ : Type} (f : α × β → Option γ) {l : List (α × β)}
    {ranked : List (γ × α)}
    (h : l.mapM (fun item => (f item).map fun rank => (rank, item.1)) = some ranked) :
    ranked.map Prod.snd = l.map Prod.fst := by
  induction Fallible.mapM_eq_some.mp h with
  | nil => rfl
  | cons hfirst hrest ih =>
      obtain ⟨rank, -, rfl⟩ := Option.map_eq_some_iff.mp hfirst
      rw [map_cons, map_cons, ih (Fallible.mapM_eq_some.mpr hrest)]

theorem rankedUrls_perm {candidates : Dict Text CandidateSearchResult} {urls : List Text}
    (h : rankedUrls unicode input candidates = some urls) : urls.Perm candidates.keys := by
  obtain ⟨ranked, hranked, rfl⟩ := Option.map_eq_some_iff.mp h
  exact ((perm_insertionSort _ ranked).map Prod.snd).trans
    (List.Perm.of_eq (mapM_map_snd (fun item => candidateRank unicode input.knownDomains item.2)
      hranked))

/-- The addresses of the candidates, by rank. -/
def NewsInput.ranking : List Text :=
  (rankedUrls unicode input (input.kept unicode quoting)).getD []

/-- The candidates that the budgets let the search reach. -/
def NewsInput.reached : List Text :=
  News.reached input.steps input.maxDocuments
    (min (input.ranking unicode quoting).length (input.maxDocuments * 2))
    (input.ranking unicode quoting) 0 0

/-! ### The outcome of a run -/

/-- What a call may be given. -/
structure NewsInput.Valid : Prop where
  providers : 1 ≤ input.providers.length ∧ input.providers.length ≤ 3
  queries : 1 ≤ input.maxQueries ∧ input.maxQueries ≤ 20
  documents : 1 ≤ input.maxDocuments ∧ input.maxDocuments ≤ 20
  names : (input.providers.map Provider.providerName).Nodup
  reuse : ∀ p ∈ input.providers,
    p.providerName ≠ "YAHOO_FINANCE_MCP" ∧ p.providerName ≠ "OFFICIAL_FILING_REUSE"
  clock : input.startedAt ≤ input.completedAt

/-- The outcomes of everything that was searched. -/
def NewsInput.outcomes : List ProviderOutcome :=
  input.reused ++ input.asked.map fun p => p.outcome unicode input.plan.length

theorem mem_asked {p : Provider} : p ∈ input.asked ↔ p ∈ input.providers :=
  (sortOn_perm _ _).mem_iff

theorem reused_names :
    (input.reused.map provider).Sublist
      ["YAHOO_FINANCE_MCP", "OFFICIAL_FILING_REUSE"] := by
  have hyahoo : ((persistedYahooDiscovery input.observations input.documents
      input.startedAt).1.map provider).Sublist ["YAHOO_FINANCE_MCP"] := by
    unfold persistedYahooDiscovery
    dsimp only
    split
    · exact nil_sublist _
    · exact Sublist.refl _
  have hofficial : ((persistedOfficialDiscovery input.documents).1.map
      provider).Sublist ["OFFICIAL_FILING_REUSE"] := by
    unfold persistedOfficialDiscovery
    dsimp only
    split
    · exact nil_sublist _
    · exact Sublist.refl _
  rw [NewsInput.reused, map_append]
  exact hyahoo.append hofficial

theorem outcomes_names {input : NewsInput F} (h : input.Valid) :
    ((input.outcomes unicode).map provider).Nodup := by
  have hnames : (input.asked.map fun p => p.outcome unicode input.plan.length).map
      provider = input.asked.map Provider.providerName := by
    rw [map_map]
    exact map_congr_left fun p _ => outcome_provider unicode _ p
  rw [NewsInput.outcomes, map_append, hnames, nodup_append]
  refine ⟨(reused_names input).nodup (by decide), ?_, ?_⟩
  · exact ((sortOn_perm _ _).map _).nodup_iff.mpr h.names
  · rintro name hname name' hname' rfl
    obtain ⟨p, hp, rfl⟩ := mem_map.mp hname'
    obtain ⟨hyahoo, hofficial⟩ := h.reuse p ((mem_asked input).mp hp)
    rcases mem_cons.mp ((reused_names input).subset hname) with heq | hmem
    · exact hyahoo heq
    · exact hofficial (mem_singleton.mp hmem)

theorem not_complete_demoted (stages : List Stage) (p : ProviderOutcome) :
    ¬ (demoted stages p).Complete := by
  unfold demoted
  by_cases h : p.Successful
  · rw [if_pos h]
    rintro ⟨hdemoted | hdemoted, -⟩
    · cases hdemoted
    · cases hdemoted
  · rw [if_neg h]
    exact fun hcomplete => h hcomplete.1

theorem demoted_provider (stages : List Stage) (p : ProviderOutcome) :
    (demoted stages p).provider = p.provider := by
  unfold demoted
  split <;> rfl

/-- A run is recorded where the providers are distinct and the clock does not go back. -/
theorem aggregateSearch_eq (instrumentId : String) {providers : List ProviderOutcome}
    {startedAt completedAt : Moment} (events : Nat) (plan : List (Nat × String))
    (hnames : (providers.map provider).Nodup) (hclock : startedAt ≤ completedAt) :
    ∃ run, aggregateSearch instrumentId providers startedAt completedAt events plan = some run ∧
      run.qualifyingEvents = events ∧
      (run.outcome = .completeNoEvents ↔
        (providers ≠ [] ∧ ∀ p ∈ providers, p.Complete) ∧ events = 0) ∧
      (run.outcome = .completeWithEvents ↔
        (providers ≠ [] ∧ ∀ p ∈ providers, p.Complete) ∧ 0 < events) := by
  have hvalid : ¬ (¬ (providers.map provider).Nodup ∨
      completedAt < startedAt) := by
    rintro (h | h)
    · exact h hnames
    · exact absurd hclock (not_le.mpr h)
  obtain ⟨run, hrun, hevents, houtcome⟩ : ∃ run, aggregateSearch instrumentId providers startedAt
      completedAt events plan = some run ∧ run.qualifyingEvents = events ∧ run.outcome =
        if providers ≠ [] ∧ 0 < (providers.map queriesPlanned).sum ∧
            ∀ p ∈ providers, p.Complete then
          if 0 < events then .completeWithEvents else .completeNoEvents
        else if (providers.filter fun p => ¬ p.Down).any
            fun p => decide (0 < p.queriesCompleted ∨ 0 < p.candidateCount) then
          .partialCoverage
        else .failed :=
    ⟨_, if_neg hvalid, rfl, rfl⟩
  refine ⟨run, hrun, hevents, ?_⟩
  by_cases hcomplete : providers ≠ [] ∧ ∀ p ∈ providers, p.Complete
  · -- a provider that completed its plan had a plan, so the total is not zero
    obtain ⟨p, hp⟩ := exists_mem_of_ne_nil providers hcomplete.1
    have htotal : 0 < (providers.map queriesPlanned).sum :=
      List.sum_pos_iff_exists_pos_nat.mpr
        ⟨p.queriesPlanned, mem_map_of_mem hp, (hcomplete.2 p hp).2.2⟩
    rw [if_pos ⟨hcomplete.1, htotal, hcomplete.2⟩] at houtcome
    rw [houtcome, and_iff_right hcomplete, and_iff_right hcomplete]
    by_cases hsome : 0 < events
    · rw [if_pos hsome]
      exact ⟨iff_of_false nofun (Nat.pos_iff_ne_zero.mp hsome), iff_of_true rfl hsome⟩
    · rw [if_neg hsome]
      exact ⟨iff_of_true rfl (Nat.eq_zero_of_not_pos hsome), iff_of_false nofun hsome⟩
  · rw [if_neg fun h => hcomplete ⟨h.1, h.2.2⟩] at houtcome
    have hneither : run.outcome ≠ .completeNoEvents ∧ run.outcome ≠ .completeWithEvents := by
      rw [houtcome]
      split
      · exact ⟨nofun, nofun⟩
      · exact ⟨nofun, nofun⟩
    exact ⟨iff_of_false hneither.1 fun h => hcomplete h.1,
      iff_of_false hneither.2 fun h => hcomplete h.1⟩

theorem outcomes_complete_iff {input : NewsInput F} (h : input.Valid) :
    (∀ o ∈ input.outcomes unicode, o.Complete) ↔ input.Searched unicode := by
  have hproviders : (∀ o ∈ input.asked.map fun p => p.outcome unicode input.plan.length,
      o.Complete) ↔
      ∀ p ∈ input.providers, (p.outcome unicode input.plan.length).Complete := by
    rw [forall_mem_map]
    exact forall_congr' fun p => imp_congr_left (mem_asked input)
  rw [NewsInput.outcomes, forall_mem_append, hproviders, NewsInput.Searched]
  constructor
  · rintro ⟨hreused, hall⟩
    obtain ⟨p, hp⟩ := exists_mem_of_length_pos h.providers.1
    have hplan : 0 < input.plan.length := by
      have hplanned := (hall p hp).2.2
      unfold Provider.outcome at hplanned
      split at hplanned <;> exact hplanned
    exact ⟨hplan, hreused, fun p hp => (outcome_complete_iff unicode hplan p).mp (hall p hp)⟩
  · rintro ⟨hplan, hreused, hall⟩
    exact ⟨hreused, fun p hp => (outcome_complete_iff unicode hplan p).mpr (hall p hp)⟩

/-! ### What a call returns -/

/-- What the search does to the candidates it reaches. -/
def NewsInput.examined : Examined F :=
  effects input.steps (input.reached unicode quoting)

/-- The documents leave the search incomplete. -/
def NewsInput.Incomplete : Prop :=
  ((input.examined unicode quoting).documentCodes ≠ [] ∨
    input.maxDocuments < (input.ranking unicode quoting).length) ∧
    (input.examined unicode quoting).usableDocuments = 0

instance : Decidable (input.Incomplete unicode quoting) :=
  inferInstanceAs (Decidable ((_ ∨ _) ∧ _))

/-- What a call returns where every address and every rank can be computed. -/
structure Account (a : Acquired F) : Prop where
  features : a.features = (input.examined unicode quoting).features
  calls : a.calls = input.asked.flatMap fun p =>
    (p.queries unicode input.plan.length).map fun i => (p.providerName, i)
  fetchedUrls : a.fetchedUrls = (input.examined unicode quoting).fetchedUrls
  lookedAt : a.lookedAt = input.reached unicode quoting
  candidates : a.candidates = input.ranking unicode quoting
  ranked : a.candidates.Perm (input.kept unicode quoting).keys
  events : a.run.qualifyingEvents = (a.features.map input.eventKey).dedup.length
  noEvents : a.run.outcome = .completeNoEvents ↔
    (input.Searched unicode ∧ ¬ input.Incomplete unicode quoting) ∧ a.run.qualifyingEvents = 0
  withEvents : a.run.outcome = .completeWithEvents ↔
    (input.Searched unicode ∧ ¬ input.Incomplete unicode quoting) ∧ 0 < a.run.qualifyingEvents

theorem outcomes_ne_nil {input : NewsInput F} (h : input.Valid) :
    input.outcomes unicode ≠ [] := by
  obtain ⟨p, hp⟩ := exists_mem_of_length_pos h.providers.1
  have hmem : p.outcome unicode input.plan.length ∈ input.outcomes unicode :=
    mem_append_right _ (mem_map_of_mem ((mem_asked input).mpr hp))
  exact ne_nil_of_mem hmem

/-- The outcomes as they are recorded. -/
def NewsInput.recorded : List ProviderOutcome :=
  if input.Incomplete unicode quoting then
    (input.outcomes unicode).map (demoted (input.examined unicode quoting).documentCodes)
  else input.outcomes unicode

theorem recorded_complete_iff {input : NewsInput F} (h : input.Valid) :
    (input.recorded unicode quoting ≠ [] ∧ ∀ o ∈ input.recorded unicode quoting, o.Complete) ↔
      input.Searched unicode ∧ ¬ input.Incomplete unicode quoting := by
  obtain ⟨o, ho⟩ := exists_mem_of_ne_nil _ (outcomes_ne_nil unicode h)
  unfold NewsInput.recorded
  by_cases hincomplete : input.Incomplete unicode quoting
  · rw [if_pos hincomplete]
    refine iff_of_false (fun hall => ?_) fun hsearched => hsearched.2 hincomplete
    exact not_complete_demoted _ o (hall.2 _ (mem_map_of_mem ho))
  · rw [if_neg hincomplete, outcomes_complete_iff unicode h,
      and_iff_right (outcomes_ne_nil unicode h), and_iff_left hincomplete]

theorem recorded_names {input : NewsInput F} (h : input.Valid) :
    ((input.recorded unicode quoting).map provider).Nodup := by
  unfold NewsInput.recorded
  split
  · rw [map_map]
    exact (map_congr_left fun o _ => demoted_provider _ o) ▸ outcomes_names unicode h
  · exact outcomes_names unicode h

/-- A call raises where an address or a rank cannot be computed. -/
theorem readable_of_acquired {a : Acquired F} (h : acquireNews unicode quoting input = some a) :
    input.Readable unicode quoting := by
  unfold acquireNews at h
  split at h
  · cases h
  · obtain ⟨gathered, hgathered, h⟩ := Option.bind_eq_some_iff.mp h
    obtain ⟨urls, hurls, -⟩ := Option.bind_eq_some_iff.mp h
    rw [gather_eq] at hgathered
    split at hgathered
    · rename_i hrows
      obtain rfl := Option.some.inj hgathered
      refine ⟨hrows, fun url row hkept => ?_⟩
      rw [← kept_get? unicode quoting input hrows] at hkept
      exact (rankedUrls_isSome_iff unicode input _).mp (Option.isSome_of_eq_some hurls) url row hkept
    · cases hgathered

/-- **What a call returns.** -/
theorem acquired_of_readable {input : NewsInput F} (h : input.Valid)
    (hreadable : input.Readable unicode quoting) :
    ∃ a, acquireNews unicode quoting input = some a ∧ Account unicode quoting input a := by
  obtain ⟨hrows, hranks⟩ := hreadable
  have hbudgets : ¬ (¬ (1 ≤ input.providers.length ∧ input.providers.length ≤ 3) ∨
      ¬ (1 ≤ input.maxQueries ∧ input.maxQueries ≤ 20) ∨
      ¬ (1 ≤ input.maxDocuments ∧ input.maxDocuments ≤ 20)) := by
    rintro (hbad | hbad | hbad)
    · exact hbad h.providers
    · exact hbad h.queries
    · exact hbad h.documents
  obtain ⟨urls, hurls⟩ := Option.isSome_iff_exists.mp
    ((rankedUrls_isSome_iff unicode input (input.kept unicode quoting)).mpr fun url row hget =>
      hranks url row (kept_get? unicode quoting input hrows url ▸ hget))
  have hranking : input.ranking unicode quoting = urls := by
    rw [NewsInput.ranking, hurls, Option.getD_some]
  have hexamined : examineAll input.steps input.maxDocuments
      (min urls.length (input.maxDocuments * 2)) urls {} = input.examined unicode quoting := by
    rw [examineAll_eq, empty_append, NewsInput.examined, NewsInput.reached, hranking]
    rfl
  obtain ⟨run, hrun, hevents, hno, hwith⟩ := aggregateSearch_eq input.instrumentId
    ((input.examined unicode quoting).features.map input.eventKey).dedup.length input.plan
    (recorded_names unicode quoting h) h.clock
  rw [recorded_complete_iff unicode quoting h] at hno hwith
  refine ⟨{ run
            features := (input.examined unicode quoting).features
            calls := input.asked.flatMap fun p =>
              (p.queries unicode input.plan.length).map fun i => (p.providerName, i)
            fetchedUrls := (input.examined unicode quoting).fetchedUrls
            lookedAt := (input.examined unicode quoting).lookedAt
            candidates := urls }, ?_, rfl, rfl, rfl, effects_lookedAt _ _, hranking.symm,
    rankedUrls_perm unicode input hurls, hevents, hevents ▸ hno, hevents ▸ hwith⟩
  unfold acquireNews
  rw [if_neg hbudgets, gather_eq, if_pos hrows, Option.bind_some]
  rw [hurls, Option.bind_some]
  rw [hexamined, ← hranking]
  exact congrArg (Option.map _) hrun

/-! ### Honest outcomes -/

/-- What a search promises of what it returns. -/
structure Honest (a : Acquired F) : Prop where
  /-- The candidates are what was found, each address once. -/
  candidates : a.candidates.Nodup ∧ ∀ url, url ∈ a.candidates ↔
    ∃ row ∈ input.yahooRows ++ input.otherRows unicode, address unicode quoting row = some url
  /-- No events are certified only where nothing was left out and nothing found. -/
  noEvents : a.run.outcome = .completeNoEvents → input.Searched unicode ∧
    a.lookedAt = a.candidates ∧ ∀ url ∈ a.candidates, (input.steps url).Quiet
  withEvents : a.run.outcome = .completeWithEvents → input.Searched unicode ∧ a.features ≠ []
  /-- The features are those that were written. -/
  appended : a.features = a.lookedAt.flatMap fun url => (input.steps url).written
  events : a.run.qualifyingEvents = (a.features.map input.eventKey).dedup.length
  calls : a.calls.Nodup ∧ ∀ call ∈ a.calls, call.2 < input.plan.length
  /-- No call after three degraded, empty answers in a row. -/
  breaker : ∀ p ∈ input.providers, ∀ i j, (p.answers i).Degraded → (p.answers (i + 1)).Degraded →
    (p.answers (i + 2)).Degraded → i + 3 ≤ j → (p.providerName, j) ∉ a.calls
  fetches : a.fetchedUrls.Nodup ∧ a.fetchedUrls.length ≤ 2 * input.maxDocuments

/-- Where everything was searched and a candidate yields, a feature is written. -/
def NewsInput.Writes : Prop :=
  input.Searched unicode →
    (∃ url ∈ input.reached unicode quoting, (input.steps url).yields) →
      ∃ url ∈ input.reached unicode quoting, (input.steps url).written ≠ []

theorem keptRow_isSome_iff (url : Text) : (input.keptRow unicode quoting url).isSome ↔
    ∃ row ∈ input.yahooRows ++ input.otherRows unicode,
      address unicode quoting row = some url := by
  rw [NewsInput.keptRow, Option.isSome_or, Bool.or_eq_true, getLast?_isSome, find?_isSome]
  simp only [ne_eq, filter_eq_nil_iff, not_forall, exists_prop, not_not, mem_append,
    decide_eq_true_eq, or_and_right, exists_or]

theorem mem_calls {call : String × Nat} :
    (call ∈ input.asked.flatMap fun p =>
      (p.queries unicode input.plan.length).map fun i => (p.providerName, i)) ↔
      ∃ p ∈ input.asked, ∃ i ∈ p.queries unicode input.plan.length, (p.providerName, i) = call := by
  simp only [mem_flatMap, mem_map]

theorem calls_nodup {input : NewsInput F} (h : input.Valid) :
    (input.asked.flatMap fun p =>
      (p.queries unicode input.plan.length).map fun i => (p.providerName, i)).Nodup := by
  have hnames : (input.asked.map Provider.providerName).Nodup :=
    ((sortOn_perm _ _).map _).nodup_iff.mpr h.names
  rw [nodup_flatMap]
  refine ⟨fun p _ => (queries_bounded unicode _ p).1.map (Prod.mk_right_injective _), ?_⟩
  refine (pairwise_map.mp hnames).imp fun hne => ?_
  refine disjoint_left.mpr fun call hcall hcall' => ?_
  obtain ⟨i, -, rfl⟩ := mem_map.mp hcall
  obtain ⟨j, -, heq⟩ := mem_map.mp hcall'
  exact hne (Prod.mk.inj heq).1.symm

section

variable {unicode quoting input} {a : Acquired F} (h : input.Valid)
  (haccount : Account unicode quoting input a)

include haccount

theorem mem_candidates (hreadable : input.Readable unicode quoting) (url : Text) :
    url ∈ a.candidates ↔ ∃ row ∈ input.yahooRows ++ input.otherRows unicode,
      address unicode quoting row = some url := by
  rw [haccount.ranked.mem_iff, ← isSome_get?, kept_get? unicode quoting input hreadable.1,
    keptRow_isSome_iff]

theorem features_eq :
    a.features = (input.reached unicode quoting).flatMap fun url => (input.steps url).written :=
  haccount.features.trans (effects_features _ _)

theorem qualifyingEvents_eq_zero : a.run.qualifyingEvents = 0 ↔ a.features = [] := by
  rw [haccount.events, length_eq_zero_iff, dedup_eq_nil, map_eq_nil_iff]

/-- Where no impact is lost, no events are certified only for candidates that are all quiet. -/
theorem quiet_of_noEvents (h : input.Valid) (hwrites : input.Writes unicode quoting)
    (hnone : a.run.outcome = .completeNoEvents) : input.Searched unicode ∧
      a.lookedAt = a.candidates ∧ ∀ url ∈ a.candidates, (input.steps url).Quiet := by
  obtain ⟨⟨hsearched, hcomplete⟩, hevents⟩ := haccount.noEvents.mp hnone
  rw [qualifyingEvents_eq_zero haccount, features_eq haccount, flatMap_eq_nil_iff] at hevents
  have hyields : ∀ url ∈ input.reached unicode quoting, (input.steps url).yields = false := by
    intro url hurl
    by_contra hyields
    obtain ⟨other, hother, hwritten⟩ :=
      hwrites hsearched ⟨url, hurl, (Bool.not_eq_false _).mp hyields⟩
    exact hwritten (hevents other hother)
  have husable : (input.examined unicode quoting).usableDocuments = 0 := by
    rw [NewsInput.examined, effects_usable, countP_eq_zero]
    exact fun url hurl => by simp [hyields url hurl]
  rw [NewsInput.Incomplete, and_iff_left husable, not_or, not_not, not_lt] at hcomplete
  obtain ⟨hcodes, hfew⟩ := hcomplete
  have hreached : input.reached unicode quoting = input.ranking unicode quoting :=
    reached_eq_self input.steps h.documents.1 (by omega) hyields
  refine ⟨hsearched, ?_, fun url hurl => ?_⟩
  · rw [haccount.lookedAt, haccount.candidates, hreached]
  · rw [haccount.candidates, ← hreached] at hurl
    exact quiet_of_found (found_of_effects input.steps hcodes hurl) (hyields url hurl)

/-- **Where no impact is lost, what a search returns is honest.** -/
theorem honest_of_writes (h : input.Valid) (hreadable : input.Readable unicode quoting)
    (hwrites : input.Writes unicode quoting) : Honest unicode quoting input a := by
  have hnodup : a.candidates.Nodup := haccount.ranked.nodup_iff.mpr (nodup_keys _)
  have hreached : (input.reached unicode quoting).Nodup := by
    rw [haccount.candidates] at hnodup
    exact (reached_initial _ _ _ _ _ _).sublist.nodup hnodup
  refine ⟨⟨hnodup, mem_candidates haccount hreadable⟩, quiet_of_noEvents haccount h hwrites, ?_, ?_,
    haccount.events, ?_, ?_, ?_⟩
  · intro hwith
    obtain ⟨⟨hsearched, -⟩, hevents⟩ := haccount.withEvents.mp hwith
    refine ⟨hsearched, fun hnil => ?_⟩
    rw [(qualifyingEvents_eq_zero haccount).mpr hnil] at hevents
    exact lt_irrefl 0 hevents
  · rw [haccount.lookedAt]
    exact features_eq haccount
  · rw [haccount.calls]
    exact ⟨calls_nodup unicode h, fun call hcall => by
      obtain ⟨p, -, i, hi, rfl⟩ := (mem_calls unicode input).mp hcall
      exact (queries_bounded unicode _ p).2.1 i hi⟩
  · intro p hp i j h0 h1 h2 hij hcall
    rw [haccount.calls] at hcall
    obtain ⟨p', hp', j', hj', heq⟩ := (mem_calls unicode input).mp hcall
    obtain ⟨hname, rfl⟩ := Prod.mk.inj heq
    obtain rfl : p' = p :=
      inj_on_of_nodup_map h.names ((mem_asked input).mp hp') hp hname
    exact (queries_bounded unicode _ p').2.2 i j' h0 h1 h2 hij hj'
  · rw [haccount.fetchedUrls, NewsInput.examined, effects_fetchedUrls]
    refine ⟨hreached.filter _, ?_⟩
    have hbound := fetched_bounded input.steps input.maxDocuments
      (min (input.ranking unicode quoting).length (input.maxDocuments * 2))
      (input.ranking unicode quoting) 0 0 (Nat.zero_le _)
    rw [Nat.zero_add] at hbound
    exact (hbound.trans (min_le_right _ _)).trans (Nat.mul_comm _ _).le

/-- **Where what a search returns is honest, no impact is lost.** -/
theorem writes_of_honest (hhonest : Honest unicode quoting input a) :
    input.Writes unicode quoting := by
  rintro hsearched ⟨url, hurl, hyields⟩
  by_contra hlost
  push Not at hlost
  have hfeatures : a.features = [] := by
    rw [features_eq haccount]
    exact flatMap_eq_nil_iff.mpr hlost
  have husable : (input.examined unicode quoting).usableDocuments ≠ 0 := by
    rw [NewsInput.examined, effects_usable, ← Nat.pos_iff_ne_zero, countP_pos_iff]
    exact ⟨url, hurl, hyields⟩
  have hnone : a.run.outcome = .completeNoEvents :=
    haccount.noEvents.mpr ⟨⟨hsearched, fun hincomplete => husable hincomplete.2⟩,
      (qualifyingEvents_eq_zero haccount).mpr hfeatures⟩
  have hmem : url ∈ a.candidates := by
    rw [haccount.candidates]
    exact (reached_initial _ _ _ _ _ _).subset hurl
  have hquiet := yields_eq_false ((hhonest.noEvents hnone).2.2 url hmem)
  exact absurd (hyields.symm.trans hquiet) Bool.true_eq_false.mp

end

/-- **A search returns and is honest exactly where every address and every rank can be computed,
and, where everything was searched and a candidate yields, a feature is written.** -/
theorem search_honest_iff (h : input.Valid) :
    (∃ a, acquireNews unicode quoting input = some a ∧ Honest unicode quoting input a) ↔
      input.Readable unicode quoting ∧ input.Writes unicode quoting := by
  constructor
  · rintro ⟨a, ha, hhonest⟩
    have hreadable := readable_of_acquired unicode quoting input ha
    obtain ⟨a', ha', haccount⟩ := acquired_of_readable unicode quoting h hreadable
    obtain rfl := Option.some.inj (ha.symm.trans ha')
    exact ⟨hreadable, writes_of_honest haccount hhonest⟩
  · rintro ⟨hreadable, hwrites⟩
    obtain ⟨a, ha, haccount⟩ := acquired_of_readable unicode quoting h hreadable
    exact ⟨a, ha, honest_of_writes haccount h hreadable hwrites⟩

/-! ### Lost impacts -/

def plainUnicode : Unicode := ⟨fun text => text.map Char.toLower, id⟩

def plainQuoting : Quoting := ⟨id, id⟩

/-- One provider that finds one page, whose document has one impact. -/
def oneCandidate (url : Text) (appended : String → Option String) : NewsInput String where
  instrumentId := "I1"
  knownDomains := []
  providers :=
    [{ providerName := "SEARXNG"
       answers := fun _ => .rows
        [{ title := "New factory".toList
           url
           snippet := []
           discoveredAt := 0
           provider := "SEARXNG"
           queryId := "Q1"
           query := "factory"
           category := "CURRENT_NEWS" }] false }]
  queryPlan := [(1, "factory")]
  maxQueries := 1
  maxDocuments := 1
  startedAt := 0
  completedAt := 0
  observations := []
  documents := []
  steps := fun _ => ⟨some none, true, some "A new factory.", true, some ["factory"], appended⟩
  eventKey := id

def newsPage : Text := "https://news.test/factory".toList

theorem oneCandidate_valid (url : Text) (appended : String → Option String) :
    (oneCandidate url appended).Valid where
  providers := ⟨le_rfl, show 1 ≤ 3 by decide⟩
  queries := ⟨le_rfl, show 1 ≤ 20 by decide⟩
  documents := ⟨le_rfl, show 1 ≤ 20 by decide⟩
  names := nodup_singleton "SEARXNG"
  reuse := by
    intro p hp
    obtain rfl := mem_singleton.mp hp
    exact show "SEARXNG" ≠ _ ∧ "SEARXNG" ≠ _ by decide
  clock := le_rfl

/-- A search that finds one page and writes its impact. -/
theorem search_honest_onePage : ∃ a,
    acquireNews plainUnicode plainQuoting (oneCandidate newsPage some) = some a ∧
      Honest plainUnicode plainQuoting (oneCandidate newsPage some) a := by
  refine (search_honest_iff plainUnicode plainQuoting _ (oneCandidate_valid newsPage some)).mpr
    ⟨?_, fun _ _ => ⟨newsPage, by decide, by decide⟩⟩
  obtain ⟨a, ha⟩ := Option.isSome_iff_exists.mp (show (acquireNews plainUnicode plainQuoting
    (oneCandidate newsPage some)).isSome by decide)
  exact readable_of_acquired _ _ _ ha

/-- The page has an impact that cannot be written, and the search certifies that there are no
events; a row with a broken address makes it raise. -/
theorem lost_impact_certified :
    (¬ ∃ a, acquireNews plainUnicode plainQuoting (oneCandidate newsPage fun _ => none) = some a ∧
      Honest plainUnicode plainQuoting (oneCandidate newsPage fun _ => none) a) ∧
    acquireNews plainUnicode plainQuoting (oneCandidate "http://[".toList some) = none := by
  refine ⟨?_, Option.isNone_iff_eq_none.mp (by decide)⟩
  rintro ⟨a, ha, hhonest⟩
  have hrun : (acquireNews plainUnicode plainQuoting (oneCandidate newsPage fun _ => none)).map
      (fun a => (a.run.outcome, a.candidates)) = some (.completeNoEvents, [newsPage]) := by
    decide
  rw [ha, Option.map_some] at hrun
  obtain ⟨houtcome, hcandidates⟩ := Prod.mk.inj (Option.some.inj hrun)
  have hquiet := (hhonest.noEvents houtcome).2.2 newsPage
    (hcandidates ▸ List.mem_singleton_self newsPage)
  have hloud : (oneCandidate newsPage fun _ => none).steps newsPage |>.yields := by decide
  exact absurd (hloud.symm.trans (yields_eq_false hquiet)) Bool.true_eq_false.mp

end InvestmentPlatform.News
