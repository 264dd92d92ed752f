/-
The current projection and what it stands for.

`Coherent` is what every sequence of scans keeps, whatever cards they bring: a projection names
an episode with an immutable row, carries that row's date and price, and the episode's events
belong to the projection's key alone.  It asks nothing of the cards, so an exit on a closed
episode is covered too.

Recording a card leaves its key `Written`: the projection is the one the card writes, and the
episode's newest event carries the card's fingerprint, whether it was appended just now or was
there before.  A card whose key is written changes nothing when it comes again.

Whether the newest event also carries the projection's action depends on the fingerprints: a
card that is not appended leaves the old event, and its action, in place.
-/
import InvestmentPlatform.Proofs.Suggestions.Episodes

namespace InvestmentPlatform.Suggestions

open List Option Nat Table

variable {uuid4 : Nat → Uuid} {s s' : Store} {scan : Scan} {card : Card} {action : PublicAction}

/-! ### The invariant -/

/-- Every projection stands for an episode of its own. -/
structure Coherent (uuid4 : Nat → Uuid) (s : Store) : Prop where
  drawnEvents : ∀ event ∈ s.history, ∃ n, n < s.drawn ∧ event.suggestionId = uuid4 n
  drawnRows : ∀ suggestionId row, s.suggestions suggestionId = some row →
    ∃ n, n < s.drawn ∧ suggestionId = uuid4 n
  projected : ∀ event ∈ s.history, ∃ current, s.current event.key = some current
  owned : ∀ key current, s.current key = some current →
    ∃ row, s.suggestions current.suggestionId = some row ∧
      current.originalSuggestedAt = row.suggestedAt ∧
      current.originalSuggestedPrice = row.suggestedPrice
  tip : ∀ key current, s.current key = some current →
    ∃ event, latestOfEpisode s current.suggestionId = some event
  oneKey : ∀ key current, s.current key = some current →
    ∀ event ∈ s.history, event.suggestionId = current.suggestionId → event.key = key

theorem Coherent.empty : Coherent uuid4 Store.empty := by
  refine ⟨?_, ?_, ?_, ?_, ?_, ?_⟩
  · intro event h
    cases h
  · intro _ _ h
    cases h
  · intro event h
    cases h
  · intro _ _ h
    cases h
  · intro _ _ h
    cases h
  · intro _ _ h
    cases h

theorem Coherent.fresh (h : Coherent uuid4 s) (hinj : Function.Injective uuid4) :
    (∀ event ∈ s.history, event.suggestionId ≠ uuid4 s.drawn) ∧
      s.suggestions (uuid4 s.drawn) = none := by
  constructor
  · intro event hmem heq
    obtain ⟨n, hn, hid⟩ := h.drawnEvents event hmem
    have := hinj (hid.symm.trans heq)
    omega
  · cases hrow : s.suggestions (uuid4 s.drawn) with
    | none => rfl
    | some row =>
        obtain ⟨n, hn, hid⟩ := h.drawnRows _ row hrow
        have := hinj hid
        omega

variable {key other : EpisodeKey} {current : Current}

/-- Two projections name two episodes. -/
theorem Coherent.suggestionId_ne (h : Coherent uuid4 s)
    {found : Current} (hcurrent : s.current key = some current)
    (hfound : s.current other = some found) (hne : other ≠ key) :
    found.suggestionId ≠ current.suggestionId := by
  intro heq
  obtain ⟨event, hlatest⟩ := h.tip key current hcurrent
  obtain ⟨hmem, hid⟩ := latestOfEpisode_mem hlatest
  exact hne ((h.oneKey other found hfound event hmem (hid.trans heq.symm)).symm.trans
    (h.oneKey key current hcurrent event hmem hid))

variable {time : Instant}

/-- An event of the projection's episode is of its key, so it is older than a later scan. -/
theorem Coherent.earlier (h : Coherent uuid4 s) (hcurrent : s.current key = some current)
    (hlater : ∀ earlier ∈ s.history, earlier.key = key → earlier.actionAt < time) :
    ∀ earlier ∈ s.history, earlier.suggestionId = current.suggestionId → earlier.actionAt < time :=
  fun earlier hmem hid => hlater earlier hmem (h.oneKey key current hcurrent earlier hmem hid)

/-- The projection a card writes for a suggestion. -/
def projection (suggestionId : Uuid) (scan : Scan) (card : Card) (action : PublicAction)
    (row : Suggestion) : Current :=
  { suggestionId, latestAction := action, latestActionAt := scan.completedAt,
    latestPrice := card.currentPrice, originalSuggestedAt := row.suggestedAt,
    originalSuggestedPrice := row.suggestedPrice, detail := card.detail,
    ranges := suggestRanges card, engineVersion := scan.engineVersion, lastScanId := scan.scanId }

variable {row : Suggestion}

theorem upsertGlobalCurrent_eq {suggestionId : Uuid} (h : s.suggestions suggestionId = some row) :
    upsertGlobalCurrent suggestionId scan card action s =
      { s with current := s.current.put card.key (projection suggestionId scan card action row) } := by
  simp only [upsertGlobalCurrent, h, projection]

/-- The key of a card is as the card leaves it. -/
def Written (scan : Scan) (card : Card) (action : PublicAction) (s : Store) : Prop :=
  (s.current card.key = none ∧ ¬ action.IsBuy) ∨
    ∃ suggestionId row event, s.suggestions suggestionId = some row ∧
      s.current card.key = some (projection suggestionId scan card action row) ∧
      latestOfEpisode s suggestionId = some event ∧ event.eventFingerprint = card.fingerprint

/-! ### One card -/

/-- What one card does to a coherent store. -/
structure Recorded (uuid4 : Nat → Uuid) (scan : Scan) (card : Card) (action : PublicAction)
    (s s' : Store) : Prop where
  coherent : Coherent uuid4 s'
  frame : Frame card.key scan.completedAt s s'
  written : Written scan card action s'
  agrees : AgreesAt s' card.key ↔ Covers s card action

section

variable (h : Coherent uuid4 s)
include h

/-- Append an event to the episode a projection names from now on. -/
theorem Coherent.extend {event : Event} (hhistory : s'.history = s.history ++ [event])
    (hcurrent : s'.current = s.current.put event.key current)
    (hid : current.suggestionId = event.suggestionId)
    (hrow : s'.suggestions event.suggestionId = some row)
    (horiginal : current.originalSuggestedAt = row.suggestedAt ∧
      current.originalSuggestedPrice = row.suggestedPrice)
    (hkept : ∀ suggestionId row, s.suggestions suggestionId = some row →
      s'.suggestions suggestionId = some row)
    (hepisode : ∀ earlier ∈ s.history, earlier.suggestionId = event.suggestionId →
      earlier.key = event.key ∧ earlier.actionAt < event.actionAt)
    (hother : ∀ key found, s.current key = some found → key ≠ event.key →
      found.suggestionId ≠ event.suggestionId)
    (hdrawn : s.drawn ≤ s'.drawn) (hdraw : ∃ n, n < s'.drawn ∧ event.suggestionId = uuid4 n)
    (hrows : ∀ suggestionId row, s'.suggestions suggestionId = some row →
      ∃ n, n < s'.drawn ∧ suggestionId = uuid4 n) : Coherent uuid4 s' := by
  have hlatest := latestOfEpisode_append hhistory fun earlier hmem heq =>
    (hepisode earlier hmem heq).2
  have hmem : ∀ e, e ∈ s'.history ↔ e ∈ s.history ∨ e = event := by
    intro e
    rw [hhistory, mem_append, mem_singleton]
  -- A projection of `s'` is the one just written, or one of `s` under another key.
  have hcases : ∀ key found, s'.current key = some found → key = event.key ∧ found = current ∨
        key ≠ event.key ∧ s.current key = some found := by
    intro key found hfound
    rw [hcurrent, put_apply] at hfound
    split at hfound
    · rename_i hkey
      exact Or.inl ⟨hkey, (some.inj hfound).symm⟩
    · rename_i hkey
      exact Or.inr ⟨hkey, hfound⟩
  refine ⟨?_, hrows, ?_, ?_, ?_, ?_⟩
  · intro e he
    rcases (hmem e).mp he with hold | rfl
    · obtain ⟨n, hn, heq⟩ := h.drawnEvents e hold
      exact ⟨n, by omega, heq⟩
    · exact hdraw
  · intro e he
    rw [hcurrent, put_apply]
    split
    · exact ⟨current, rfl⟩
    · rename_i hne
      rcases (hmem e).mp he with hold | rfl
      · exact h.projected e hold
      · exact absurd rfl hne
  · intro key found hfound
    rcases hcases key found hfound with ⟨-, rfl⟩ | ⟨-, hold⟩
    · exact ⟨row, hid ▸ hrow, horiginal⟩
    · obtain ⟨row', hrow', horiginal'⟩ := h.owned key found hold
      exact ⟨row', hkept _ _ hrow', horiginal'⟩
  · intro key found hfound
    rcases hcases key found hfound with ⟨-, rfl⟩ | ⟨hne, hold⟩
    · exact ⟨event, by rw [hlatest, if_pos hid.symm]⟩
    · rw [hlatest, if_neg fun heq => hother key found hold hne heq.symm]
      exact h.tip key found hold
  · intro key found hfound e he heq
    rcases hcases key found hfound with ⟨rfl, rfl⟩ | ⟨hne, hold⟩
    · rcases (hmem e).mp he with hin | rfl
      · exact (hepisode e hin (heq.trans hid)).1
      · rfl
    · rcases (hmem e).mp he with hin | rfl
      · exact h.oneKey key found hold e hin heq
      · exact absurd heq.symm (hother key found hold hne)

/-- Append the card's event to an episode that is the key's own, or a fresh one. -/
theorem recorded_append {mid : Store} {suggestionId : Uuid}
    (hhistory : mid.history = s.history) (hcurrent : mid.current = s.current)
    (hrow : mid.suggestions suggestionId = some row)
    (hkept : ∀ id row, s.suggestions id = some row → mid.suggestions id = some row)
    (hepisode : ∀ earlier ∈ s.history, earlier.suggestionId = suggestionId →
      earlier.key = card.key ∧ earlier.actionAt < scan.completedAt)
    (hother : ∀ key found, s.current key = some found → key ≠ card.key →
      found.suggestionId ≠ suggestionId)
    (hdrawn : s.drawn ≤ mid.drawn) (hdraw : ∃ n, n < mid.drawn + 1 ∧ suggestionId = uuid4 n)
    (hrows : ∀ id row, mid.suggestions id = some row → ∃ n, n < mid.drawn + 1 ∧ id = uuid4 n)
    (hcovers : Covers s card action) :
    Recorded uuid4 scan card action s (upsertGlobalCurrent suggestionId scan card action
        (insertGlobalHistoryEvent uuid4 suggestionId scan card action mid)) := by
  have hinserted : (insertGlobalHistoryEvent uuid4 suggestionId scan card action mid).suggestions
      suggestionId = some row := hrow
  rw [upsertGlobalCurrent_eq hinserted]
  have hafter : (insertGlobalHistoryEvent uuid4 suggestionId scan card action mid).history =
      s.history ++ [_] := congrArg (· ++ [_]) hhistory
  have hput : mid.current.put card.key (projection suggestionId scan card action row) =
      s.current.put card.key (projection suggestionId scan card action row) := by rw [hcurrent]
  have hlatest := latestOfEpisode_append hafter
    (fun earlier hmem heq => (hepisode earlier hmem heq).2) suggestionId
  rw [if_pos rfl] at hlatest
  refine ⟨?_, ⟨⟨[_], hafter, ?_⟩, ?_, hkept⟩, Or.inr ⟨suggestionId, row, _, hrow, ?_, hlatest, rfl⟩,
    ?_⟩
  · exact h.extend hafter hput rfl hrow ⟨rfl, rfl⟩ hkept hepisode hother
      (le_succ_of_le hdrawn) hdraw hrows
  · intro event hmem
    rw [mem_singleton.mp hmem]
    exact ⟨rfl, rfl⟩
  · intro other hne
    show mid.current.put card.key _ other = s.current other
    rw [put_ne _ _ hne, hcurrent]
  · exact put_self _ _ _
  · refine ⟨fun _ => hcovers, fun _ current hfound => ?_⟩
    have hsame : some (projection suggestionId scan card action row) = some current := by
      rw [← hfound]
      exact (put_self _ _ _).symm
    rw [← some.inj hsame]
    exact ⟨_, hlatest, rfl⟩

theorem recorded_open (hinj : Function.Injective uuid4) (hcovers : Covers s card action) :
    Recorded uuid4 scan card action s
      (recordOnEpisode uuid4 scan card action (openEpisode uuid4 scan card action s)) := by
  obtain ⟨hfreshEvent, hfreshRow⟩ := h.fresh hinj
  rw [recordOnEpisode_open hfreshEvent]
  refine recorded_append h rfl rfl (put_self _ _ _) ?_ ?_ ?_ (le_succ _) ?_ ?_ hcovers
  · intro id row hrow
    refine (put_ne _ _ ?_).trans hrow
    rintro rfl
    rw [hfreshRow] at hrow
    cases hrow
  · intro earlier hmem heq
    exact absurd heq (hfreshEvent earlier hmem)
  · intro key found hfound _ heq
    obtain ⟨event, hlatest⟩ := h.tip key found hfound
    obtain ⟨hmem, hid⟩ := latestOfEpisode_mem hlatest
    exact hfreshEvent event hmem (hid.trans heq)
  · exact ⟨s.drawn, by show s.drawn < s.drawn + 1 + 1; omega, rfl⟩
  · intro id row hrow
    show ∃ n, n < s.drawn + 1 + 1 ∧ id = uuid4 n
    change s.suggestions.put (uuid4 s.drawn) _ id = some row at hrow
    rw [put_apply] at hrow
    split at hrow
    · rename_i heq
      exact ⟨s.drawn, by omega, heq⟩
    · obtain ⟨n, hn, heq⟩ := h.drawnRows id row hrow
      exact ⟨n, by omega, heq⟩

/-- Rewrite the projection of a key, naming the same episode. -/
theorem recorded_refresh {event : Event} (hcurrent : s.current card.key = some current)
    (hstay : ¬ (current.latestAction = .sell ∧ action.IsBuy))
    (hrow : s.suggestions current.suggestionId = some row)
    (hlatest : latestOfEpisode s current.suggestionId = some event)
    (hfingerprint : event.eventFingerprint = card.fingerprint) :
    Recorded uuid4 scan card action s
      (upsertGlobalCurrent current.suggestionId scan card action s) := by
  rw [upsertGlobalCurrent_eq hrow]
  have hcases : ∀ key found,
      s.current.put card.key (projection current.suggestionId scan card action row) key =
        some found →
      key = card.key ∧ found = projection current.suggestionId scan card action row ∨
        s.current key = some found := by
    intro key found hfound
    rw [put_apply] at hfound
    split at hfound
    · rename_i hkey
      exact Or.inl ⟨hkey, (some.inj hfound).symm⟩
    · exact Or.inr hfound
  have hself : ∀ found, s.current.put card.key
      (projection current.suggestionId scan card action row) card.key = some found →
      projection current.suggestionId scan card action row = found := by
    intro found hfound
    rw [put_self] at hfound
    exact some.inj hfound
  refine ⟨⟨h.drawnEvents, h.drawnRows, ?_, ?_, ?_, ?_⟩,
    ⟨⟨[], (append_nil _).symm, by simp⟩, fun _ hne => put_ne _ _ hne, fun _ _ h => h⟩,
    Or.inr ⟨_, row, event, hrow, put_self _ _ _, hlatest, hfingerprint⟩, ?_⟩
  · intro e he
    show ∃ found, s.current.put card.key _ e.key = some found
    rw [put_apply]
    split
    · exact ⟨_, rfl⟩
    · exact h.projected e he
  · intro key found hfound
    rcases hcases key found hfound with ⟨-, rfl⟩ | hold
    · exact ⟨row, hrow, rfl, rfl⟩
    · exact h.owned key found hold
  · intro key found hfound
    rcases hcases key found hfound with ⟨-, rfl⟩ | hold
    · exact ⟨event, hlatest⟩
    · exact h.tip key found hold
  · intro key found hfound e he heq
    rcases hcases key found hfound with ⟨rfl, rfl⟩ | hold
    · exact h.oneKey _ current hcurrent e he heq
    · exact h.oneKey key found hold e he heq
  · constructor
    · intro hagrees found hfound _ newest hnewest _
      obtain ⟨last, hlast, haction⟩ := hagrees _ (put_self _ _ _)
      rw [hcurrent, some.injEq] at hfound
      have hsame : latestOfEpisode s current.suggestionId = some last := hlast
      rw [← hfound, hsame, some.injEq] at hnewest
      rw [← hnewest]
      exact haction
    · intro hcovers found hfound
      rw [← hself found hfound]
      exact ⟨event, hlatest, hcovers current hcurrent hstay event hlatest hfingerprint⟩

theorem recorded_continue (hcurrent : s.current card.key = some current)
    (hstay : ¬ (current.latestAction = .sell ∧ action.IsBuy))
    (hlater : ∀ earlier ∈ s.history, earlier.key = card.key → earlier.actionAt < scan.completedAt) :
    Recorded uuid4 scan card action s
      (recordOnEpisode uuid4 scan card action (current.suggestionId, s)) := by
  obtain ⟨row, hrow, -⟩ := h.owned card.key current hcurrent
  obtain ⟨event, hlatest⟩ := h.tip card.key current hcurrent
  unfold recordOnEpisode appendDeduplicated
  simp only [hlatest]
  split
  · rename_i hfingerprint
    exact recorded_refresh h hcurrent hstay hrow hlatest hfingerprint
  · rename_i hfresh
    refine recorded_append h rfl rfl hrow (fun _ _ h => h) ?_ ?_ (Nat.le_refl _) ?_ ?_ ?_
    · intro earlier hmem heq
      exact ⟨h.oneKey _ current hcurrent earlier hmem heq, h.earlier hcurrent hlater earlier hmem heq⟩
    · intro key found hfound hne
      exact h.suggestionId_ne hcurrent hfound hne
    · obtain ⟨n, hn, heq⟩ := h.drawnRows _ row hrow
      exact ⟨n, lt_succ_of_lt hn, heq⟩
    · intro id row' hrow'
      obtain ⟨n, hn, heq⟩ := h.drawnRows id row' hrow'
      exact ⟨n, lt_succ_of_lt hn, heq⟩
    · intro found hfound _ newest hnewest hsame
      rw [hcurrent, some.injEq] at hfound
      rw [← hfound, hlatest, some.injEq] at hnewest
      exact absurd (hnewest ▸ hsame) hfresh

end

theorem recorded_persistSingleSuggestion (action : PublicAction) (h : Coherent uuid4 s) (hinj : Function.Injective uuid4)
    (hlater : ∀ earlier ∈ s.history, earlier.key = card.key → earlier.actionAt < scan.completedAt) :
    Recorded uuid4 scan card action s (persistSingleSuggestion uuid4 scan card action s) := by
  unfold persistSingleSuggestion
  rcases chooseEpisode_cases h.projected scan card action with
    ⟨hnone, hexit, heq⟩ | ⟨hbuy, hopens, heq⟩ | ⟨current, hcurrent, hstay, heq⟩
  · rw [heq]
    refine ⟨h, .refl _ _ _, Or.inl ⟨hnone, hexit⟩, ?_⟩
    constructor
    · intro _ current hcurrent
      rw [hnone] at hcurrent
      cases hcurrent
    · intro _ current hcurrent
      rw [hnone] at hcurrent
      cases hcurrent
  · rw [heq]
    refine recorded_open h hinj fun current hcurrent hstay => ?_
    exact absurd ⟨hopens current hcurrent, hbuy⟩ hstay
  · rw [heq]
    exact recorded_continue h hcurrent hstay hlater

/-! ### The same card again -/

/-- A card whose key is written changes nothing. -/
theorem persistSingleSuggestion_again (h : ∀ event ∈ s.history, ∃ current,
      s.current event.key = some current) (hwritten : Written scan card action s) :
    persistSingleSuggestion uuid4 scan card action s = s := by
  unfold persistSingleSuggestion
  rcases hwritten with ⟨hnone, hexit⟩ | ⟨suggestionId, row, event, hrow, hcurrent, hlatest, hsame⟩
  · rcases chooseEpisode_cases h scan card action with ⟨-, -, heq⟩ | ⟨hbuy, -, -⟩ | ⟨_, hsome, -⟩
    · rw [heq]
    · exact absurd hbuy hexit
    · rw [hnone] at hsome
      cases hsome
  · have hchoose : chooseEpisode uuid4 scan card action s = some (suggestionId, s) := by
      unfold chooseEpisode
      rw [hcurrent]
      refine if_neg ?_
      rintro ⟨hsell, hbuy⟩
      have hsell : action = .sell := hsell
      rw [hsell] at hbuy
      rcases hbuy with hbuy | hbuy <;> cases hbuy
    have hdedup : appendDeduplicated uuid4 suggestionId scan card action s = s := by
      unfold appendDeduplicated
      rw [hlatest]
      exact if_pos hsame
    rw [hchoose]
    show upsertGlobalCurrent suggestionId scan card action
      (appendDeduplicated uuid4 suggestionId scan card action s) = s
    rw [hdedup, upsertGlobalCurrent_eq hrow, put_eq_self hcurrent]

/-! ### The cards of one scan -/

/-- Another key's card leaves the newest event of this key's episode in place. -/
theorem latestOfEpisode_frame (h : Coherent uuid4 s') (hframe : Frame key time s s')
    (hne : other ≠ key) (hcurrent : s.current other = some current) :
    latestOfEpisode s' current.suggestionId = latestOfEpisode s current.suggestionId := by
  obtain ⟨added, hhistory, hadded⟩ := hframe.history
  have hnone : (added.filter fun event => event.suggestionId = current.suggestionId) = [] := by
    rw [filter_eq_nil_iff]
    intro event hmem hid
    have hin : event ∈ s'.history := by
      rw [hhistory]
      exact mem_append_right _ hmem
    have hkey := h.oneKey other current ((hframe.current other hne).trans hcurrent) event hin
      (by simpa using hid)
    exact hne (hkey.symm.trans (hadded event hmem).1)
  unfold latestOfEpisode
  rw [hhistory, filter_append, hnone, append_nil]

theorem Written.later (h : Written scan card action s) (hcoherent : Coherent uuid4 s')
    (hframe : Frame key time s s') (hne : card.key ≠ key) :
    Written scan card action s' := by
  rcases h with ⟨hnone, hexit⟩ | ⟨suggestionId, row, event, hrow, hcurrent, hlatest, hsame⟩
  · exact Or.inl ⟨(hframe.current _ hne).trans hnone, hexit⟩
  · refine Or.inr ⟨suggestionId, row, event, hframe.suggestions _ _ hrow,
      (hframe.current _ hne).trans hcurrent, ?_, hsame⟩
    rw [← hlatest]
    exact latestOfEpisode_frame hcoherent hframe hne hcurrent

theorem agreesAt_frame (h : Coherent uuid4 s')
    (hframe : Frame key time s s') (hne : other ≠ key) : AgreesAt s' other ↔ AgreesAt s other := by
  unfold AgreesAt
  rw [hframe.current _ hne]
  refine forall_congr' fun current => forall_congr' fun hcurrent => ?_
  rw [latestOfEpisode_frame h hframe hne hcurrent]

/-- Whether a card is covered is a fact about its own key. -/
theorem covers_frame (h : Coherent uuid4 s') (hframe : Frame key time s s') (hne : card.key ≠ key) :
    Covers s' card action ↔ Covers s card action := by
  unfold Covers
  rw [hframe.current _ hne]
  refine forall_congr' fun current => forall_congr' fun hcurrent => ?_
  rw [latestOfEpisode_frame h hframe hne hcurrent]

/-- What the cards of one scan, one for each key, leave behind. -/
theorem persistCards_coherent (hinj : Function.Injective uuid4)
    (entries : List (PublicAction × Card)) (h : Coherent uuid4 s)
    (hdistinct : entries.Pairwise fun a b => a.2.key ≠ b.2.key)
    (hlater : ∀ entry ∈ entries, ∀ earlier ∈ s.history, earlier.key = entry.2.key →
      earlier.actionAt < scan.completedAt) :
    Coherent uuid4 (persistCards uuid4 scan entries s) ∧
      (∀ event ∈ (persistCards uuid4 scan entries s).history,
        event ∈ s.history ∨ event.actionAt = scan.completedAt) ∧
      (∀ entry ∈ entries, Written scan entry.2 entry.1 (persistCards uuid4 scan entries s)) ∧
      (∀ card action, (∀ entry ∈ entries, card.key ≠ entry.2.key) → Written scan card action s →
        Written scan card action (persistCards uuid4 scan entries s)) ∧
      (∀ key, AgreesAt (persistCards uuid4 scan entries s) key ↔
        if (∃ entry ∈ entries, entry.2.key = key) then
          ∀ entry ∈ entries, entry.2.key = key → Covers s entry.2 entry.1
        else AgreesAt s key) := by
  induction entries generalizing s with
  | nil =>
      exact ⟨h, fun _ hmem => Or.inl hmem, by simp, fun _ _ _ hwritten => hwritten,
        fun key => by simp [persistCards]⟩
  | cons entry entries ih =>
      rw [pairwise_cons] at hdistinct
      obtain ⟨hhead, htail⟩ := hdistinct
      have hone := recorded_persistSingleSuggestion entry.1 h hinj (hlater entry mem_cons_self)
      obtain ⟨hend, htimes, hwritten, hkeep, hagree⟩ := ih hone.coherent htail
        (fun other hmem earlier hearlier hkey => by
          rcases hone.frame.mem hearlier with hold | ⟨hsame, -⟩
          · exact hlater other (mem_cons_of_mem _ hmem) earlier hold hkey
          · exact absurd (hsame.symm.trans hkey) (hhead other hmem))
      refine ⟨hend, ?_, ?_, ?_, ?_⟩
      · intro event hmem
        rcases htimes event hmem with hmid | htime
        · exact (hone.frame.mem hmid).imp_right And.right
        · exact Or.inr htime
      · intro other hmem
        rcases mem_cons.mp hmem with rfl | hrest
        · exact hkeep other.2 other.1 hhead hone.written
        · exact hwritten other hrest
      · intro card action hne hold
        exact hkeep card action (fun other hmem => hne other (mem_cons_of_mem _ hmem))
          (hold.later hone.coherent hone.frame (hne entry mem_cons_self))
      · intro key
        rw [show persistCards uuid4 scan (entry :: entries) s = persistCards uuid4 scan entries
          (persistSingleSuggestion uuid4 scan entry.2 entry.1 s) from rfl, hagree]
        by_cases hkey : entry.2.key = key
        · -- the key of the first card, which no later card has
          have hnone : ¬ ∃ other ∈ entries, other.2.key = key := by
            rintro ⟨other, hmem, hother⟩
            exact hhead other hmem (hkey.trans hother.symm)
          rw [if_neg hnone, if_pos ⟨entry, mem_cons_self, hkey⟩, ← hkey, hone.agrees]
          constructor
          · intro hcovers other hmem hother
            rcases mem_cons.mp hmem with rfl | hrest
            · exact hcovers
            · exact absurd hother.symm (hhead other hrest)
          · intro hcovers
            exact hcovers entry mem_cons_self rfl
        · have hframe := agreesAt_frame hone.coherent hone.frame (Ne.symm hkey)
          by_cases hlater : ∃ other ∈ entries, other.2.key = key
          · obtain ⟨other, hmem, hother⟩ := hlater
            rw [if_pos ⟨other, hmem, hother⟩, if_pos ⟨other, mem_cons_of_mem _ hmem, hother⟩]
            constructor
            · intro hcovers found hfound hsame
              rcases mem_cons.mp hfound with rfl | hrest
              · exact absurd hsame hkey
              · exact (covers_frame hone.coherent hone.frame (hhead found hrest).symm).mp
                  (hcovers found hrest hsame)
            · intro hcovers found hfound hsame
              exact (covers_frame hone.coherent hone.frame (hhead found hfound).symm).mpr
                (hcovers found (mem_cons_of_mem _ hfound) hsame)
          · have hnone : ¬ ∃ other ∈ entry :: entries, other.2.key = key := by
              rintro ⟨other, hmem, hother⟩
              rcases mem_cons.mp hmem with rfl | hrest
              · exact hkey hother
              · exact hlater ⟨other, hrest, hother⟩
            rw [if_neg hlater, if_neg hnone, hframe]

/-! ### The runs -/

/-- The projections are coherent and the history lies in the past. -/
structure RadarCoherent (uuid4 : Nat → Uuid) (r : Radar) : Prop where
  coherent : Coherent uuid4 r.store
  past : ∀ event ∈ r.store.history, ∃ last, r.lastCompletedAt = some last ∧ event.actionAt ≤ last

theorem Coherent.recordGlobalMarketScan (h : Coherent uuid4 s) (scan : Scan) :
    Coherent uuid4 (recordGlobalMarketScan scan s) := by
  unfold Suggestions.recordGlobalMarketScan
  split
  · exact h
  · exact ⟨h.drawnEvents, h.drawnRows, h.projected, h.owned, h.tip, h.oneKey⟩

theorem recordGlobalMarketScan_current (scan : Scan) (s : Store) :
    (recordGlobalMarketScan scan s).current = s.current := by
  unfold recordGlobalMarketScan
  split <;> rfl

theorem recordGlobalMarketScan_some (scan : Scan) (s : Store) :
    ∃ row, (recordGlobalMarketScan scan s).scans scan.scanId = some row := by
  unfold recordGlobalMarketScan
  split
  · rename_i row hrow
    exact ⟨row, hrow⟩
  · exact ⟨scan, put_self _ _ _⟩

theorem persistCards_scans (entries : List (PublicAction × Card)) (s : Store) :
    (persistCards uuid4 scan entries s).scans = s.scans := by
  refine List.foldlRecOn (motive := fun s' : Store => s'.scans = s.scans) _ _ rfl
    fun mid hmid entry _ => ?_
  rw [← hmid]
  unfold persistSingleSuggestion
  split
  · rfl
  · rename_i episode hepisode
    have happend : (recordOnEpisode uuid4 scan entry.2 entry.1 episode).scans =
        episode.2.scans := by
      show (appendDeduplicated uuid4 episode.1 scan entry.2 entry.1 episode.2).scans = _
      unfold appendDeduplicated
      split
      · split <;> rfl
      · rfl
    rw [happend]
    rcases chooseEpisode_store hepisode with hstore | hopen
    · rw [hstore]
    · rw [hopen]
      rfl

/-- Cards whose keys are all written change nothing. -/
theorem persistCards_again (entries : List (PublicAction × Card))
    (h : ∀ event ∈ s.history, ∃ current, s.current event.key = some current)
    (hwritten : ∀ entry ∈ entries, Written scan entry.2 entry.1 s) :
    persistCards uuid4 scan entries s = s := by
  induction entries with
  | nil => rfl
  | cons entry entries ih =>
      have hone : persistSingleSuggestion uuid4 scan entry.2 entry.1 s = s :=
        persistSingleSuggestion_again h (hwritten entry mem_cons_self)
      show persistCards uuid4 scan entries (persistSingleSuggestion uuid4 scan entry.2 entry.1 s) = s
      rw [hone]
      exact ih fun other hmem => hwritten other (mem_cons_of_mem _ hmem)

variable {r : Radar}

/-- One call keeps the projections coherent, can be made again, and leaves a projection that
agrees with the history exactly where the fingerprints cover the actions. -/
theorem exec_coherent {r' : Radar} {call : ScanCall} (hinj : Function.Injective uuid4)
    (hinv : RadarCoherent uuid4 r) (h : exec uuid4 r call = some ((), r')) :
    RadarCoherent uuid4 r' ∧
      persistGlobalSuggestionLifecycle uuid4 call.1 call.2 r'.store = r'.store ∧
      ((∀ key, AgreesAt r.store key) →
        ((∀ key, AgreesAt r'.store key) ↔ FingerprintsCover r.store call.2)) := by
  obtain ⟨hadmissible, hstore, hlast⟩ := exec_eq_some h
  have hlater : ∀ event ∈ r.store.history, event.actionAt < call.1.completedAt := by
    intro event hmem
    obtain ⟨last, hsome, hle⟩ := hinv.past event hmem
    exact Int.lt_of_le_of_lt hle (hadmissible.2.2 last hsome)
  have hmid := hinv.coherent.recordGlobalMarketScan call.1
  obtain ⟨hend, htimes, hwritten, -, hagree⟩ := persistCards_coherent hinj
    (admittedCards [] call.2) hmid (admittedCards_distinct [] call.2).1
    (fun entry _ earlier hmem _ => hlater earlier (by
      rwa [recordGlobalMarketScan_history] at hmem))
  have hscan : ∃ row, r'.store.scans call.1.scanId = some row := by
    rw [hstore, persistCards_scans]
    exact recordGlobalMarketScan_some _ _
  rw [← hstore] at hend htimes hwritten hagree
  refine ⟨⟨hend, fun event hmem => ⟨call.1.completedAt, hlast, ?_⟩⟩, ?_, ?_⟩
  · rcases htimes event hmem with hold | htime
    · rw [recordGlobalMarketScan_history] at hold
      exact Int.le_of_lt (hlater event hold)
    · exact Int.le_of_eq htime
  · obtain ⟨row, hrow⟩ := hscan
    have hsame : recordGlobalMarketScan call.1 r'.store = r'.store := by
      unfold recordGlobalMarketScan
      rw [hrow]
    unfold persistGlobalSuggestionLifecycle
    simp only [hsame]
    rw [if_neg (by simp [hadmissible.1, hadmissible.2.1])]
    exact persistCards_again _ hend.projected hwritten
  · intro hbefore
    have hlatest : ∀ id, latestOfEpisode (recordGlobalMarketScan call.1 r.store) id =
        latestOfEpisode r.store id := by
      intro id
      unfold latestOfEpisode
      rw [recordGlobalMarketScan_history]
    have hcovers : ∀ card action, Covers (recordGlobalMarketScan call.1 r.store) card action ↔
        Covers r.store card action := by
      intro card action
      unfold Covers
      rw [recordGlobalMarketScan_current]
      simp only [hlatest]
    have hsame : ∀ key, AgreesAt (recordGlobalMarketScan call.1 r.store) key := by
      intro key current hcurrent
      rw [recordGlobalMarketScan_current] at hcurrent
      obtain ⟨event, hevent, haction⟩ := hbefore key current hcurrent
      exact ⟨event, (hlatest _).trans hevent, haction⟩
    constructor
    · intro hafter entry hmem
      have hkey := (hagree entry.2.key).mp (hafter _)
      rw [if_pos ⟨entry, hmem, rfl⟩] at hkey
      exact (hcovers _ _).mp (hkey entry hmem rfl)
    · intro hcover key
      rw [hagree]
      split
      · intro entry hmem _
        exact (hcovers _ _).mpr (hcover entry hmem)
      · exact hsame key

theorem reachable_coherent (hinj : Function.Injective uuid4)
    (h : (system uuid4).Reachable r) : RadarCoherent uuid4 r := by
  refine h.invariant ?_ ?_
  · rintro _ rfl
    exact ⟨Coherent.empty, by simp [Radar.empty, Store.empty]⟩
  · rintro before ⟨call, ⟨⟩⟩ after hinv hstep
    exact (exec_coherent hinj hinv hstep).1

theorem covered_agrees (hinj : Function.Injective uuid4) (h : (covered uuid4).Reachable r) :
    RadarCoherent uuid4 r ∧ ∀ key, AgreesAt r.store key := by
  refine h.invariant (I := fun r => RadarCoherent uuid4 r ∧ ∀ key, AgreesAt r.store key) ?_ ?_
  · rintro _ rfl
    refine ⟨⟨Coherent.empty, by simp [Radar.empty, Store.empty]⟩, ?_⟩
    intro key current hcurrent
    cases hcurrent
  · rintro before ⟨call, ⟨⟩⟩ after ⟨hinv, hagrees⟩ ⟨hcover, hstep⟩
    obtain ⟨hafter, -, hexact⟩ := exec_coherent hinj hinv hstep
    exact ⟨hafter, (hexact hagrees).mpr hcover⟩

/-- **The current projection stands for its episode.**  After every sequence of scans a
projection carries its suggestion's date and price, and the last call made again changes
nothing; where the fingerprints cover the actions, it carries the newest event's action too,
and a call that breaks this is one whose fingerprints do not. -/
theorem projection_agrees (hinj : Function.Injective uuid4) :
    (∀ r, (system uuid4).Reachable r → ProjectionLaw uuid4 r) ∧
    (∀ r, (covered uuid4).Reachable r → ∀ key, AgreesAt r.store key) ∧
    ∀ r call r', (covered uuid4).Reachable r → exec uuid4 r call = some ((), r') →
      ((∀ key, AgreesAt r'.store key) ↔ FingerprintsCover r.store call.2) := by
  refine ⟨?_, fun r hreach => (covered_agrees hinj hreach).2, ?_⟩
  · intro r hreach
    have hinv := reachable_coherent hinj hreach
    exact ⟨hinv.coherent.owned, fun call r' hstep => (exec_coherent hinj hinv hstep).2.1⟩
  · intro r call r' hreach hstep
    obtain ⟨hinv, hagrees⟩ := covered_agrees hinj hreach
    exact (exec_coherent hinj hinv hstep).2.2 hagrees

/-- BUY and SELL under one suggestion id, the projection at SELL. -/
theorem projection_agrees_of_sold :
    ∃ r, (covered id).Reachable r ∧ (∀ key, AgreesAt r.store key) ∧
      (r.store.current ("i1", .shortTerm)).map Current.latestAction = some .sell := by
  have hstart : (covered id).Reachable Radar.empty := .init rfl
  have hcovers : ∀ (s : Store) (call : ScanCall),
      (∀ entry ∈ admittedCards [] call.2, ∀ event ∈ s.history,
        event.eventFingerprint ≠ entry.2.fingerprint) → FingerprintsCover s call.2 := by
    intro s call hfresh entry hentry current _ _ event hlatest hsame
    exact absurd hsame (hfresh entry hentry event (latestOfEpisode_mem hlatest).1)
  have hbought := hstart.step (l := (oneCardScan 1 .buy "a", ()))
    ⟨hcovers _ (oneCardScan 1 .buy "a") (by decide), rfl⟩
  have hsold := hbought.step (l := (oneCardScan 2 .sell "b", ()))
    ⟨hcovers _ (oneCardScan 2 .sell "b") (by decide), rfl⟩
  exact ⟨_, hsold, (projection_agrees Function.injective_id).2.1 _ hsold, by decide⟩

/-- A SELL under the fingerprint of the BUY before it: the projection says SELL, the newest event
still says BUY. -/
theorem projection_runs_ahead :
    ∃ r, (system id).Reachable r ∧ ¬ AgreesAt r.store ("i1", .shortTerm) := by
  refine ⟨((Machine.replay (exec id) Radar.empty
    [oneCardScan 1 .buy "a", oneCardScan 2 .sell "a"]).get (by decide)).2,
    Machine.replay_reachable (Option.some_get _).symm, fun h => ?_⟩
  obtain ⟨event, hlatest, haction⟩ := h _ rfl
  obtain ⟨hmem, -⟩ := latestOfEpisode_mem hlatest
  have hbuy : event.action = .buy := by
    revert event
    decide
  rw [hbuy] at haction
  exact absurd haction (by decide)

end InvestmentPlatform.Suggestions
