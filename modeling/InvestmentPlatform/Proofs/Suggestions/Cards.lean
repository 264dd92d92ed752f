/-
One card, and the cards of one scan.

A scan persists at most one card for each key, and a card touches only its own key: so what
a scan does to a key is what its one card does, the cards before and after it being a frame.
-/
import InvestmentPlatform.Proofs.Suggestions.Track

namespace InvestmentPlatform.Suggestions

open List

variable {uuid4 : Nat → Uuid} {s s' : Store} {scan : Scan} {card : Card} {action : PublicAction}

/-! ### Which episode a card goes to -/

/-- Where every key with events has a projection, a card is ignored, opens an episode, or goes to
the one projected. -/
theorem chooseEpisode_cases (h : ∀ event ∈ s.history, ∃ current, s.current event.key = some current)
    (scan : Scan) (card : Card) (action : PublicAction) :
    (s.current card.key = none ∧ ¬ action.IsBuy ∧ chooseEpisode uuid4 scan card action s = none) ∨
    (action.IsBuy ∧ (∀ current, s.current card.key = some current → current.latestAction = .sell) ∧
      chooseEpisode uuid4 scan card action s = some (openEpisode uuid4 scan card action s)) ∨
    (∃ current, s.current card.key = some current ∧
      ¬ (current.latestAction = .sell ∧ action.IsBuy) ∧
      chooseEpisode uuid4 scan card action s = some (current.suggestionId, s)) := by
  unfold chooseEpisode
  cases hcurrent : s.current card.key with
  | some current =>
      simp only
      split
      · rename_i hreopen
        exact Or.inr (Or.inl ⟨hreopen.2, fun _ hsame => Option.some.inj hsame ▸ hreopen.1, rfl⟩)
      · rename_i hstay
        exact Or.inr (Or.inr ⟨current, rfl, hstay, rfl⟩)
  | none =>
      simp only
      unfold episodeFromHistory
      cases hlatest : latestOfKey s card.key with
      | some event =>
          -- A key with events has a projection.
          obtain ⟨hmem, hkey⟩ := latestOfKey_mem hlatest
          obtain ⟨current, hfound⟩ := h event hmem
          rw [hkey, hcurrent] at hfound
          cases hfound
      | none =>
          simp only
          split
          · rename_i hbuy
            exact Or.inr (Or.inl ⟨hbuy, fun _ hsame => (by cases hsame), rfl⟩)
          · rename_i hexit
            exact Or.inl ⟨trivial, hexit, rfl⟩

/-- A buy on a closed episode opens a fresh one. -/
theorem chooseEpisode_closed (h : Tracked uuid4 s) (hclosed : EpisodeClosed s card.key)
    (hbuy : action.IsBuy) :
    chooseEpisode uuid4 scan card action s = some (openEpisode uuid4 scan card action s) := by
  obtain ⟨event, hlatest, hsell⟩ := hclosed
  obtain ⟨hmem, hkey⟩ := latestOfKey_mem hlatest
  obtain ⟨current, hcurrent⟩ := h.projected event hmem
  rw [hkey] at hcurrent
  unfold chooseEpisode
  rw [hcurrent]
  exact if_pos ⟨h.sold card.key current event hcurrent hlatest hsell, hbuy⟩

theorem episodeFromHistory_closed (hclosed : EpisodeClosed s card.key) :
    episodeFromHistory uuid4 scan card action s
      = if action.IsBuy then some (openEpisode uuid4 scan card action s) else none := by
  obtain ⟨event, hlatest, hsell⟩ := hclosed
  unfold episodeFromHistory
  rw [hlatest]
  exact if_pos hsell

/-- On a closed episode the two branches agree exactly on the buys: an exit that the history
branch ignores is recorded by the projection branch. -/
theorem chooseEpisode_agrees_iff (h : Tracked uuid4 s) (hclosed : EpisodeClosed s card.key) :
    chooseEpisode uuid4 scan card action s = episodeFromHistory uuid4 scan card action s ↔
      action.IsBuy := by
  rw [episodeFromHistory_closed hclosed]
  constructor
  · intro heq
    by_contra hexit
    rw [if_neg hexit] at heq
    rcases chooseEpisode_cases h.projected scan card action with ⟨hnone, -, -⟩ | ⟨hbuy, -⟩ | ⟨_, -, -, hsome⟩
    · obtain ⟨event, hlatest, -⟩ := hclosed
      obtain ⟨hmem, hkey⟩ := latestOfKey_mem hlatest
      obtain ⟨current, hfound⟩ := h.projected event hmem
      rw [hkey, hnone] at hfound
      cases hfound
    · exact hexit hbuy
    · rw [hsome] at heq
      cases heq
  · intro hbuy
    rw [if_pos hbuy, chooseEpisode_closed h hclosed hbuy]

/-! ### What recording a card changes -/

/-- Nothing but the one key's projection, its events of that time and fresh suggestion rows
changes. -/
structure Frame (key : EpisodeKey) (time : Instant) (s s' : Store) : Prop where
  history : ∃ added, s'.history = s.history ++ added ∧
    ∀ event ∈ added, event.key = key ∧ event.actionAt = time
  current : ∀ other, other ≠ key → s'.current other = s.current other
  suggestions : ∀ suggestionId row, s.suggestions suggestionId = some row →
    s'.suggestions suggestionId = some row

theorem Frame.refl (key : EpisodeKey) (time : Instant) (s : Store) : Frame key time s s :=
  ⟨⟨[], (append_nil _).symm, by simp⟩, fun _ _ => rfl, fun _ _ h => h⟩

variable {key : EpisodeKey} {time : Instant}

theorem Frame.mem (h : Frame key time s s') {event : Event} (hmem : event ∈ s'.history) :
    event ∈ s.history ∨ (event.key = key ∧ event.actionAt = time) := by
  obtain ⟨added, hhistory, hadded⟩ := h.history
  rw [hhistory, mem_append] at hmem
  exact hmem.imp_right (hadded event)

theorem Frame.subset (h : Frame key time s s') {event : Event}
    (hmem : event ∈ s.history) : event ∈ s'.history := by
  obtain ⟨added, hhistory, -⟩ := h.history
  rw [hhistory]
  exact mem_append_left added hmem

theorem Frame.episodeClosed {other : EpisodeKey} (h : Frame key time s s')
    (hne : other ≠ key) : EpisodeClosed s' other ↔ EpisodeClosed s other := by
  have hlatest : latestOfKey s' other = latestOfKey s other := by
    obtain ⟨added, hhistory, hadded⟩ := h.history
    have hnone : (added.filter fun event => event.key = other) = [] := by
      rw [filter_eq_nil_iff]
      intro event hmem
      rw [(hadded event hmem).1]
      simpa using Ne.symm hne
    unfold latestOfKey
    rw [hhistory, filter_append, hnone, append_nil]
  unfold EpisodeClosed
  rw [hlatest]

/-- A fresh suggestion stays one when later cards are recorded under other keys. -/
theorem OpensFresh.later {mid : Store} (h : OpensFresh s scan action card mid)
    (hframe : Frame key time mid s') (hne : card.key ≠ key) : OpensFresh s scan action card s' := by
  obtain ⟨suggestionId, row, current, event, hnone, hunused, hrow, hinitial, hat, hprice, hcurrent,
    hid, horiginalAt, horiginalPrice, hmem, heventId, haction⟩ := h
  exact ⟨suggestionId, row, current, event, hnone, hunused, hframe.suggestions _ _ hrow, hinitial,
    hat, hprice, (hframe.current _ hne).trans hcurrent, hid, horiginalAt, horiginalPrice,
    hframe.subset hmem, heventId, haction⟩

/-- What is fresh after an earlier card was fresh before it. -/
theorem OpensFresh.earlier {mid : Store}
    (h : OpensFresh mid scan action card s') (hframe : Frame key time s mid) :
    OpensFresh s scan action card s' := by
  obtain ⟨suggestionId, row, current, event, hnone, hunused, hrest⟩ := h
  refine ⟨suggestionId, row, current, event, ?_, fun earlier hmem => ?_, hrest⟩
  · cases hold : s.suggestions suggestionId with
    | none => rfl
    | some old =>
        rw [hframe.suggestions suggestionId old hold] at hnone
        cases hnone
  · exact hunused earlier (hframe.subset hmem)

/-- A fresh episode has no newest event, so the card's event is appended. -/
theorem recordOnEpisode_open (hfresh : ∀ event ∈ s.history, event.suggestionId ≠ uuid4 s.drawn) :
    recordOnEpisode uuid4 scan card action (openEpisode uuid4 scan card action s)
      = upsertGlobalCurrent (uuid4 s.drawn) scan card action
          (insertGlobalHistoryEvent uuid4 (uuid4 s.drawn) scan card action
            (openEpisode uuid4 scan card action s).2) := by
  have hnone : latestOfEpisode (openEpisode uuid4 scan card action s).2 (uuid4 s.drawn) = none := by
    cases hlatest : latestOfEpisode (openEpisode uuid4 scan card action s).2 (uuid4 s.drawn) with
    | none => rfl
    | some event =>
        obtain ⟨hmem, hid⟩ := latestOfEpisode_mem hlatest
        exact absurd hid (hfresh event hmem)
  have hfst : (openEpisode uuid4 scan card action s).1 = uuid4 s.drawn := rfl
  unfold recordOnEpisode appendDeduplicated
  rw [hfst, hnone]

/-- What opening an episode for a card leaves behind. -/
theorem record_open (h : Tracked uuid4 s) (hinj : Function.Injective uuid4) (hbuy : action.IsBuy)
    (hlater : ∀ earlier ∈ s.history, earlier.key = card.key → earlier.actionAt < scan.completedAt) :
    Tracked uuid4 (recordOnEpisode uuid4 scan card action (openEpisode uuid4 scan card action s)) ∧
      Frame card.key scan.completedAt s
        (recordOnEpisode uuid4 scan card action (openEpisode uuid4 scan card action s)) ∧
      OpensFresh s scan action card
        (recordOnEpisode uuid4 scan card action (openEpisode uuid4 scan card action s)) := by
  obtain ⟨hfreshEvent, hfreshRow⟩ := h.fresh hinj
  rw [recordOnEpisode_open hfreshEvent]
  refine ⟨?_, ?_, ?_⟩
  · refine h.extend rfl rfl rfl rfl hlater ?_ ?_ (Or.inl hbuy) ?_ ?_ ?_
    · intro earlier hmem heq
      exact absurd heq (hfreshEvent earlier hmem)
    · intro sold hmem _ heq
      exact hfreshEvent sold hmem heq.symm
    · show s.drawn ≤ s.drawn + 1 + 1
      omega
    · exact ⟨s.drawn, by show s.drawn < s.drawn + 1 + 1; omega, rfl⟩
    · intro suggestionId row hrow
      show ∃ n, n < s.drawn + 1 + 1 ∧ suggestionId = uuid4 n
      change s.suggestions.put (uuid4 s.drawn) _ suggestionId = some row at hrow
      rw [Table.put_apply] at hrow
      split at hrow
      · rename_i heq
        exact ⟨s.drawn, by omega, heq⟩
      · obtain ⟨n, hn, heq⟩ := h.drawnRows suggestionId row hrow
        exact ⟨n, by omega, heq⟩
  · refine ⟨⟨[_], rfl, ?_⟩, ?_, ?_⟩
    · intro event hmem
      rw [mem_singleton.mp hmem]
      exact ⟨rfl, rfl⟩
    · intro other hne
      exact Table.put_ne _ _ hne
    · intro suggestionId row hrow
      refine (Table.put_ne _ _ ?_).trans hrow
      rintro rfl
      rw [hfreshRow] at hrow
      cases hrow
  · have hself : (openEpisode uuid4 scan card action s).2.suggestions (uuid4 s.drawn)
        = some _ := Table.put_self _ _ _
    refine ⟨uuid4 s.drawn, _, _, _, hfreshRow, hfreshEvent, hself, rfl, rfl, rfl,
      Table.put_self _ _ _, rfl, ?_, ?_, mem_append_right _ (mem_singleton_self _),
      rfl, rfl⟩
    · simp only [insertGlobalHistoryEvent, hself]
    · simp only [insertGlobalHistoryEvent, hself]

/-- What recording a card on the open episode its projection names leaves behind. -/
theorem record_continue (h : Tracked uuid4 s) {current : Current}
    (hcurrent : s.current card.key = some current) (hopen : ¬ EpisodeClosed s card.key)
    (hlater : ∀ earlier ∈ s.history, earlier.key = card.key → earlier.actionAt < scan.completedAt) :
    Tracked uuid4 (recordOnEpisode uuid4 scan card action (current.suggestionId, s)) ∧
      Frame card.key scan.completedAt s (recordOnEpisode uuid4 scan card action (current.suggestionId, s)) := by
  obtain ⟨newest, hnewest, hid⟩ := h.follows card.key current hcurrent
  obtain ⟨hmem, hkey⟩ := latestOfKey_mem hnewest
  have hlast : latestOfEpisode s current.suggestionId = some newest := by
    rw [← hid]
    exact h.tip card.key newest hnewest
  unfold recordOnEpisode appendDeduplicated
  simp only [hlast]
  split
  · refine ⟨h.refresh hcurrent ?_ hopen ?_ rfl rfl rfl, ?_⟩
    · rfl
    · rfl
    · exact ⟨⟨[], (append_nil _).symm, by simp⟩, fun _ hne => Table.put_ne _ _ hne,
        fun _ _ hrow => hrow⟩
  · refine ⟨?_, ⟨⟨[_], rfl, ?_⟩, fun _ hne => Table.put_ne _ _ hne, fun _ _ hrow => hrow⟩⟩
    · refine h.extend rfl rfl rfl rfl hlater ?_ (h.unsold hcurrent hopen)
        (Or.inr ⟨newest, hmem, hid⟩) ?_ ?_ ?_
      · intro earlier hearlier heq
        rw [h.oneKey earlier hearlier newest hmem (heq.trans hid.symm), hkey]
        rfl
      · exact Nat.le_succ s.drawn
      · obtain ⟨n, hn, heq⟩ := h.drawnEvents newest hmem
        exact ⟨n, Nat.lt_succ_of_lt hn, hid.symm.trans heq⟩
      · intro suggestionId row hrow
        obtain ⟨n, hn, heq⟩ := h.drawnRows suggestionId row hrow
        exact ⟨n, Nat.lt_succ_of_lt hn, heq⟩
    · intro event hevent
      rw [mem_singleton.mp hevent]
      exact ⟨rfl, rfl⟩

/-- **A card that is no exit on a closed episode keeps the track record.** -/
theorem persistSingleSuggestion_tracked (h : Tracked uuid4 s) (hinj : Function.Injective uuid4)
    (hexit : EpisodeClosed s card.key → action.IsBuy)
    (hlater : ∀ earlier ∈ s.history, earlier.key = card.key → earlier.actionAt < scan.completedAt) :
    Tracked uuid4 (persistSingleSuggestion uuid4 scan card action s) ∧
      Frame card.key scan.completedAt s (persistSingleSuggestion uuid4 scan card action s) ∧
      (EpisodeClosed s card.key →
        OpensFresh s scan action card (persistSingleSuggestion uuid4 scan card action s)) := by
  unfold persistSingleSuggestion
  by_cases hclosed : EpisodeClosed s card.key
  · rw [chooseEpisode_closed h hclosed (hexit hclosed)]
    obtain ⟨htracked, hframe, hfresh⟩ := record_open h hinj (hexit hclosed) hlater
    exact ⟨htracked, hframe, fun _ => hfresh⟩
  · rcases chooseEpisode_cases h.projected scan card action with
      ⟨-, -, heq⟩ | ⟨hbuy, -, heq⟩ | ⟨current, hcurrent, -, heq⟩
    · rw [heq]
      exact ⟨h, .refl _ _ _, fun hc => absurd hc hclosed⟩
    · rw [heq]
      obtain ⟨htracked, hframe, -⟩ := record_open h hinj hbuy hlater
      exact ⟨htracked, hframe, fun hc => absurd hc hclosed⟩
    · rw [heq]
      obtain ⟨htracked, hframe⟩ := record_continue h hcurrent hclosed hlater
      exact ⟨htracked, hframe, fun hc => absurd hc hclosed⟩

end InvestmentPlatform.Suggestions
