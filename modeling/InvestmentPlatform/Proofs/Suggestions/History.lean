/-
The newest event of an append-only history.

The store asks for the newest event of a key and of an episode by sorting on time.  When an
event is appended that is later than every event it is compared with, it is the newest, and
for every other key and episode nothing changes.
-/
import InvestmentPlatform.Suggestions.Lifecycle

namespace InvestmentPlatform.Suggestions

open List Option

theorem newest_mem {events : List Event} {event : Event} (h : newest events = some event) :
    event ∈ events := by
  induction events with
  | nil => cases h
  | cons head rest ih =>
      unfold newest at h
      split at h
      · cases h
        exact mem_cons_self
      · rename_i best hbest
        split at h
        · cases h
          exact mem_cons_of_mem head (ih hbest)
        · cases h
          exact mem_cons_self

/-- An event later than all the others is the newest. -/
theorem newest_append_later {events : List Event} {event : Event}
    (h : ∀ earlier ∈ events, earlier.actionAt < event.actionAt) :
    newest (events ++ [event]) = some event := by
  induction events with
  | nil => rfl
  | cons head rest ih =>
      have hrest := ih fun earlier hmem => h earlier (mem_cons_of_mem head hmem)
      rw [cons_append, newest, hrest]
      exact if_pos (Or.inl (h head mem_cons_self))

section
variable {p : Event → Prop} [DecidablePred p] {history : List Event} {event : Event}

theorem newest_filter_append (hlater : ∀ earlier ∈ history, p earlier →
    earlier.actionAt < event.actionAt) :
    newest ((history ++ [event]).filter fun e => p e)
      = if p event then some event else newest (history.filter fun e => p e) := by
  rw [filter_append]
  split
  · rename_i hp
    rw [filter_cons_of_pos (by simpa using hp), filter_nil]
    refine newest_append_later fun earlier hmem => ?_
    obtain ⟨hin, hpe⟩ := mem_filter.mp hmem
    exact hlater earlier hin (by simpa using hpe)
  · rename_i hp
    rw [filter_cons_of_neg (by simpa using hp), filter_nil, append_nil]

theorem newest_filter_mem (h : newest (history.filter fun e => p e) = some event) :
    event ∈ history ∧ p event := by
  obtain ⟨hin, hp⟩ := mem_filter.mp (newest_mem h)
  exact ⟨hin, by simpa using hp⟩

end

/-! ### The two queries -/

theorem latestOfKey_mem {s : Store} {key : EpisodeKey} {event : Event}
    (h : latestOfKey s key = some event) : event ∈ s.history ∧ event.key = key :=
  newest_filter_mem h

theorem latestOfEpisode_mem {s : Store} {suggestionId : Uuid} {event : Event}
    (h : latestOfEpisode s suggestionId = some event) :
    event ∈ s.history ∧ event.suggestionId = suggestionId :=
  newest_filter_mem h

theorem latestOfKey_append {s s' : Store} {event : Event}
    (hhistory : s'.history = s.history ++ [event])
    (hlater : ∀ earlier ∈ s.history, earlier.key = event.key →
      earlier.actionAt < event.actionAt) (key : EpisodeKey) :
    latestOfKey s' key = if event.key = key then some event else latestOfKey s key := by
  unfold latestOfKey
  rw [hhistory]
  by_cases hkey : event.key = key
  · subst hkey
    exact newest_filter_append hlater
  · rw [if_neg hkey, filter_append, filter_cons_of_neg (by simpa using hkey),
      filter_nil, append_nil]

theorem latestOfEpisode_append {s s' : Store} {event : Event}
    (hhistory : s'.history = s.history ++ [event])
    (hlater : ∀ earlier ∈ s.history, earlier.suggestionId = event.suggestionId →
      earlier.actionAt < event.actionAt) (suggestionId : Uuid) :
    latestOfEpisode s' suggestionId = if event.suggestionId = suggestionId then some event
        else latestOfEpisode s suggestionId := by
  unfold latestOfEpisode
  rw [hhistory]
  by_cases hid : event.suggestionId = suggestionId
  · subst hid
    exact newest_filter_append hlater
  · rw [if_neg hid, filter_append, filter_cons_of_neg (by simpa using hid), filter_nil, append_nil]

/-! ### Where the rows come from -/

theorem mem_admittedCards {seen : List EpisodeKey} {cards : List Card}
    {entry : PublicAction × Card} (h : entry ∈ admittedCards seen cards) :
    entry.2 ∈ cards ∧ entry.2.publicAction = some entry.1 := by
  induction cards generalizing seen with
  | nil => cases h
  | cons card cards ih =>
      unfold admittedCards at h
      split at h
      · exact (ih h).imp_left (mem_cons_of_mem card)
      · rename_i action haction
        split at h
        · exact (ih h).imp_left (mem_cons_of_mem card)
        · rcases mem_cons.mp h with rfl | h
          · exact ⟨mem_cons_self, haction⟩
          · exact (ih h).imp_left (mem_cons_of_mem card)

section
variable {uuid4 : Nat → Uuid} {s : Store} {scan : Scan} {card : Card} {action : PublicAction}

/-- The chosen episode is an old one, or a fresh suggestion with the card's key and action. -/
theorem chooseEpisode_store {episode : Uuid × Store}
    (h : chooseEpisode uuid4 scan card action s = some episode) :
    episode.2 = s ∨ episode = openEpisode uuid4 scan card action s := by
  unfold chooseEpisode episodeFromHistory at h
  split at h
  · split at h
    · exact Or.inr (some.inj h).symm
    · rw [← some.inj h]
      exact Or.inl rfl
  · split at h
    · split at h
      · split at h
        · exact Or.inr (some.inj h).symm
        · cases h
      · rw [← some.inj h]
        exact Or.inl rfl
    · split at h
      · exact Or.inr (some.inj h).symm
      · cases h

theorem recordOnEpisode_history (episode : Uuid × Store) {event : Event}
    (h : event ∈ (recordOnEpisode uuid4 scan card action episode).history) :
    event ∈ episode.2.history ∨ event.action = action ∧
      event.globalInstrumentId = card.globalInstrumentId ∧ event.horizon = card.horizon := by
  have hinsert : event ∈ (insertGlobalHistoryEvent uuid4 episode.1 scan card action
      episode.2).history → event ∈ episode.2.history ∨ event.action = action ∧
        event.globalInstrumentId = card.globalInstrumentId ∧ event.horizon = card.horizon := by
    intro hmem
    rcases mem_append.mp hmem with hmem | hmem
    · exact Or.inl hmem
    · rw [mem_singleton.mp hmem]
      exact Or.inr ⟨rfl, rfl, rfl⟩
  have h : event ∈ (appendDeduplicated uuid4 episode.1 scan card action episode.2).history := h
  unfold appendDeduplicated at h
  split at h
  · split at h
    · exact Or.inl h
    · exact hinsert h
  · exact hinsert h

theorem recordOnEpisode_suggestions (episode : Uuid × Store) :
    (recordOnEpisode uuid4 scan card action episode).suggestions = episode.2.suggestions := by
  show (appendDeduplicated uuid4 episode.1 scan card action episode.2).suggestions = _
  unfold appendDeduplicated
  split
  · split <;> rfl
  · rfl

theorem mem_history_persistSingleSuggestion {event : Event}
    (h : event ∈ (persistSingleSuggestion uuid4 scan card action s).history) :
    event ∈ s.history ∨ event.action = action ∧
      event.globalInstrumentId = card.globalInstrumentId ∧ event.horizon = card.horizon := by
  unfold persistSingleSuggestion at h
  split at h
  · exact Or.inl h
  · rename_i episode hepisode
    refine (recordOnEpisode_history episode h).imp_left fun hmem => ?_
    rcases chooseEpisode_store hepisode with hstore | hopen
    · rw [hstore] at hmem
      exact hmem
    · rw [hopen] at hmem
      exact hmem

theorem suggestions_persistSingleSuggestion {id : Uuid} {row : Suggestion}
    (h : (persistSingleSuggestion uuid4 scan card action s).suggestions id = some row) :
    s.suggestions id = some row ∨ row.initialAction = action ∧
      row.globalInstrumentId = card.globalInstrumentId ∧ row.horizon = card.horizon := by
  unfold persistSingleSuggestion at h
  split at h
  · exact Or.inl h
  · rename_i episode hepisode
    rw [recordOnEpisode_suggestions] at h
    rcases chooseEpisode_store hepisode with hstore | hopen
    · rw [hstore] at h
      exact Or.inl h
    · rw [hopen] at h
      by_cases hid : id = uuid4 s.drawn
      · subst hid
        simp only [openEpisode, Table.put_self, some.injEq] at h
        rw [← h]
        exact Or.inr ⟨rfl, rfl, rfl⟩
      · simp only [openEpisode, Table.put_ne _ _ hid] at h
        exact Or.inl h

/-- Every event after a call was there before, or comes from one of its cards. -/
theorem mem_history_persist {cards : List Card} {event : Event}
    (h : event ∈ (persistGlobalSuggestionLifecycle uuid4 scan cards s).history) :
    event ∈ s.history ∨ ∃ card ∈ cards, card.publicAction = some event.action ∧
      event.globalInstrumentId = card.globalInstrumentId ∧ event.horizon = card.horizon := by
  have hrecorded : (recordGlobalMarketScan scan s).history = s.history := by
    unfold recordGlobalMarketScan
    split <;> rfl
  unfold persistGlobalSuggestionLifecycle at h
  simp only at h
  split at h
  · exact Or.inl (hrecorded ▸ h)
  · rw [← hrecorded]
    refine List.foldlRecOn (motive := fun s' : Store => event ∈ s'.history → _) _ _ Or.inl
      (fun s' ih entry hentry hmem => ?_) h
    rcases mem_history_persistSingleSuggestion hmem with hmem | ⟨haction, hid, hhorizon⟩
    · exact ih hmem
    · obtain ⟨hcard, hpublic⟩ := mem_admittedCards hentry
      exact Or.inr ⟨entry.2, hcard, haction ▸ hpublic, hid, hhorizon⟩

/-- Likewise every suggestion. -/
theorem suggestions_persist {cards : List Card} {id : Uuid} {row : Suggestion}
    (h : (persistGlobalSuggestionLifecycle uuid4 scan cards s).suggestions id = some row) :
    s.suggestions id = some row ∨ ∃ card ∈ cards, card.publicAction = some row.initialAction ∧
      row.globalInstrumentId = card.globalInstrumentId ∧ row.horizon = card.horizon := by
  have hrecorded : (recordGlobalMarketScan scan s).suggestions = s.suggestions := by
    unfold recordGlobalMarketScan
    split <;> rfl
  unfold persistGlobalSuggestionLifecycle at h
  simp only at h
  split at h
  · exact Or.inl (hrecorded ▸ h)
  · rw [← hrecorded]
    refine List.foldlRecOn (motive := fun s' : Store => s'.suggestions id = some row → _) _ _ Or.inl
      (fun s' ih entry hentry hrow => ?_) h
    rcases suggestions_persistSingleSuggestion hrow with hrow | ⟨haction, hid, hhorizon⟩
    · exact ih hrow
    · obtain ⟨hcard, hpublic⟩ := mem_admittedCards hentry
      exact Or.inr ⟨entry.2, hcard, haction ▸ hpublic, hid, hhorizon⟩

end

/-! ### The two shapes of the history -/

/-- Appending to an episode that has no SELL keeps the closed episodes closed. -/
theorem ClosedForGood.append {history : List Event} (h : ClosedForGood history) {event : Event}
    (hopen : ∀ sold ∈ history, sold.action = .sell → event.suggestionId ≠ sold.suggestionId) :
    ClosedForGood (history ++ [event]) := by
  refine pairwise_append.mpr ⟨h, pairwise_singleton _ _, ?_⟩
  intro sold hsold later hlater hsell
  rw [mem_singleton.mp hlater]
  exact hopen sold hsold hsell

/-- Appending a buy, or an event of an episode that exists, keeps the openings buys. -/
theorem OpensWithBuy.append {history : List Event} (h : OpensWithBuy history) {event : Event}
    (hevent : event.action.IsBuy ∨ ∃ earlier ∈ history,
      earlier.suggestionId = event.suggestionId) : OpensWithBuy (history ++ [event]) := by
  intro front first back heq hfirst
  rcases append_eq_append_iff.mp heq with ⟨rest, rfl, hlast⟩ | ⟨rest, rfl, hlast⟩
  · -- The split point is the appended event itself.
    cases rest with
    | nil =>
        simp only [nil_append, List.cons.injEq] at hlast
        obtain ⟨rfl, -⟩ := hlast
        rcases hevent with hbuy | ⟨earlier, hmem, hid⟩
        · exact hbuy
        · exact absurd hid (hfirst earlier (by simpa using hmem))
    | cons _ _ => simp at hlast
  · cases rest with
    | nil =>
        simp only [nil_append, List.cons.injEq] at hlast
        obtain ⟨rfl, -⟩ := hlast
        rcases hevent with hbuy | ⟨earlier, hmem, hid⟩
        · exact hbuy
        · exact absurd hid (hfirst earlier (by simpa using hmem))
    | cons head tail =>
        simp only [cons_append, List.cons.injEq] at hlast
        obtain ⟨rfl, -⟩ := hlast
        exact h front first tail rfl hfirst

end InvestmentPlatform.Suggestions
