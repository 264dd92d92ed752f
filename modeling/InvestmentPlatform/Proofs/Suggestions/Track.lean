/-
What one card does to the track record.

`Tracked` is the invariant that ties the history to the projection: every key with events
has a projection, the projection names the episode of the key's newest event, and once that
event is a SELL the projection says SELL too.  A card that is persisted either appends an
event and points the projection at it, or only rewrites the projection of an episode that is
still open.  The two are shown to keep the invariant; a card that meets the condition on
exits does one of them or nothing.
-/
import InvestmentPlatform.Proofs.Suggestions.History

namespace InvestmentPlatform.Suggestions

/-- The history and the projection tell one story. -/
structure Tracked (uuid4 : Nat → Uuid) (s : Store) : Prop where
  drawnEvents : ∀ event ∈ s.history, ∃ n, n < s.drawn ∧ event.suggestionId = uuid4 n
  drawnRows : ∀ suggestionId row, s.suggestions suggestionId = some row →
    ∃ n, n < s.drawn ∧ suggestionId = uuid4 n
  projected : ∀ event ∈ s.history, ∃ current, s.current event.key = some current
  follows : ∀ key current, s.current key = some current →
    ∃ event, latestOfKey s key = some event ∧ event.suggestionId = current.suggestionId
  sold : ∀ key current event, s.current key = some current → latestOfKey s key = some event →
    event.action = .sell → current.latestAction = .sell
  tip : ∀ key event, latestOfKey s key = some event →
    latestOfEpisode s event.suggestionId = some event
  oneKey : ∀ a ∈ s.history, ∀ b ∈ s.history, a.suggestionId = b.suggestionId → a.key = b.key
  sellLast : ∀ sold ∈ s.history, sold.action = .sell →
    ∃ event, latestOfEpisode s sold.suggestionId = some event ∧ event.action = .sell
  closed : ClosedForGood s.history
  opened : OpensWithBuy s.history

variable {uuid4 : Nat → Uuid} {s s' : Store}

theorem Tracked.empty : Tracked uuid4 Store.empty := by
  refine ⟨by simp [Store.empty], ?_, by simp [Store.empty], ?_, ?_, ?_, by simp [Store.empty],
    by simp [Store.empty], List.Pairwise.nil, ?_⟩
  · intro _ _ h
    simp [Store.empty, Table.empty] at h
  · intro _ _ h
    simp [Store.empty, Table.empty] at h
  · intro _ _ _ h
    simp [Store.empty, Table.empty] at h
  · intro _ _ h
    simp [Store.empty, latestOfKey, newest] at h
  · intro front event back h
    simp [Store.empty] at h

section

variable (h : Tracked uuid4 s)
include h

/-- An identifier not yet drawn is in no event and names no suggestion. -/
theorem Tracked.fresh (hinj : Function.Injective uuid4) :
    (∀ event ∈ s.history, event.suggestionId ≠ uuid4 s.drawn) ∧
      s.suggestions (uuid4 s.drawn) = none := by
  constructor
  · intro event hmem heq
    obtain ⟨n, hn, hid⟩ := h.drawnEvents event hmem
    have := hinj (hid.symm.trans heq)
    omega
  · cases hrow : s.suggestions (uuid4 s.drawn) with
    | none => rfl
    | some row =>
        obtain ⟨n, hn, hid⟩ := h.drawnRows _ row hrow
        have := hinj hid
        omega

/-- The episode a projection names has no SELL unless its key's newest event is one. -/
theorem Tracked.unsold {key : EpisodeKey} {current : Current}
    (hcurrent : s.current key = some current) (hopen : ¬ EpisodeClosed s key) :
    ∀ sold ∈ s.history, sold.action = .sell → current.suggestionId ≠ sold.suggestionId := by
  intro sold hsold hsell heq
  obtain ⟨event, hlatest, hid⟩ := h.follows key current hcurrent
  obtain ⟨last, hlast, hsell'⟩ := h.sellLast sold hsold hsell
  have htip := h.tip key event hlatest
  rw [hid, heq, hlast, Option.some.injEq] at htip
  subst htip
  exact hopen ⟨last, hlatest, hsell'⟩

/-- Append an event, newest of its key and of an episode without a SELL, and point at it. -/
theorem Tracked.extend {event : Event} {current : Current}
    (hhistory : s'.history = s.history ++ [event])
    (hcurrent : s'.current = s.current.put event.key current)
    (hid : current.suggestionId = event.suggestionId)
    (haction : current.latestAction = event.action)
    (hlater : ∀ earlier ∈ s.history, earlier.key = event.key → earlier.actionAt < event.actionAt)
    (hepisode : ∀ earlier ∈ s.history, earlier.suggestionId = event.suggestionId →
      earlier.key = event.key)
    (hunsold : ∀ sold ∈ s.history, sold.action = .sell → event.suggestionId ≠ sold.suggestionId)
    (hfirst : event.action.IsBuy ∨ ∃ earlier ∈ s.history, earlier.suggestionId = event.suggestionId)
    (hdrawn : s.drawn ≤ s'.drawn) (hdraw : ∃ n, n < s'.drawn ∧ event.suggestionId = uuid4 n)
    (hrows : ∀ suggestionId row, s'.suggestions suggestionId = some row →
      ∃ n, n < s'.drawn ∧ suggestionId = uuid4 n) : Tracked uuid4 s' := by
  have hkey := latestOfKey_append hhistory hlater
  have hlatest := latestOfEpisode_append hhistory fun earlier hmem heq =>
    hlater earlier hmem (hepisode earlier hmem heq)
  have hmem : ∀ e, e ∈ s'.history ↔ e ∈ s.history ∨ e = event := by
    intro e
    rw [hhistory, List.mem_append, List.mem_singleton]
  refine ⟨?_, hrows, ?_, ?_, ?_, ?_, ?_, ?_, ?_, ?_⟩
  · intro e he
    rcases (hmem e).mp he with hold | rfl
    · obtain ⟨n, hn, heq⟩ := h.drawnEvents e hold
      exact ⟨n, by omega, heq⟩
    · exact hdraw
  · intro e he
    rw [hcurrent, Table.put_apply]
    split
    · exact ⟨current, rfl⟩
    · rename_i hne
      rcases (hmem e).mp he with hold | rfl
      · exact h.projected e hold
      · exact absurd rfl hne
  · intro key found hfound
    rw [hcurrent, Table.put_apply] at hfound
    rw [hkey]
    split at hfound
    · rename_i heq
      cases hfound
      exact ⟨event, if_pos heq.symm, hid.symm⟩
    · rename_i hne
      rw [if_neg (Ne.symm hne)]
      exact h.follows key found hfound
  · intro key found e hfound he hsell
    rw [hcurrent, Table.put_apply] at hfound
    rw [hkey] at he
    split at hfound
    · rename_i heq
      cases hfound
      rw [if_pos heq.symm, Option.some.injEq] at he
      rw [haction, he, hsell]
    · rename_i hne
      rw [if_neg (Ne.symm hne)] at he
      exact h.sold key found e hfound he hsell
  · intro key e he
    rw [hkey] at he
    rw [hlatest]
    split at he
    · cases he
      exact if_pos rfl
    · rename_i hne
      -- The key of an older event differs, so its episode does.
      obtain ⟨hin, hekey⟩ := latestOfKey_mem he
      rw [if_neg fun heq => hne ((hepisode e hin heq.symm).symm.trans hekey)]
      exact h.tip key e he
  · intro a ha b hb heq
    rcases (hmem a).mp ha with hold | rfl <;> rcases (hmem b).mp hb with hold' | rfl
    · exact h.oneKey a hold b hold' heq
    · exact hepisode a hold heq
    · exact (hepisode b hold' heq.symm).symm
    · rfl
  · intro sold hsold hsell
    rw [hlatest]
    rcases (hmem sold).mp hsold with hold | rfl
    · rw [if_neg (hunsold sold hold hsell)]
      exact h.sellLast sold hold hsell
    · exact ⟨sold, if_pos rfl, hsell⟩
  · rw [hhistory]
    exact h.closed.append hunsold
  · rw [hhistory]
    exact h.opened.append hfirst

/-- Rewrite the projection of a key whose episode is open, naming the same episode. -/
theorem Tracked.refresh {key : EpisodeKey} {old current : Current}
    (hold : s.current key = some old) (hid : current.suggestionId = old.suggestionId)
    (hopen : ¬ EpisodeClosed s key) (hhistory : s'.history = s.history)
    (hcurrent : s'.current = s.current.put key current)
    (hsuggestions : s'.suggestions = s.suggestions) (hdrawn : s'.drawn = s.drawn) :
    Tracked uuid4 s' := by
  have hkey : ∀ k, latestOfKey s' k = latestOfKey s k := fun k => by
    unfold latestOfKey
    rw [hhistory]
  have hlatest : ∀ i, latestOfEpisode s' i = latestOfEpisode s i := fun i => by
    unfold latestOfEpisode
    rw [hhistory]
  refine ⟨?_, ?_, ?_, ?_, ?_, ?_, ?_, ?_, ?_, ?_⟩
  · rw [hhistory, hdrawn]
    exact h.drawnEvents
  · rw [hsuggestions, hdrawn]
    exact h.drawnRows
  · intro event hmem
    rw [hhistory] at hmem
    rw [hcurrent, Table.put_apply]
    split
    · exact ⟨current, rfl⟩
    · exact h.projected event hmem
  · intro k found hfound
    rw [hcurrent, Table.put_apply] at hfound
    rw [hkey]
    split at hfound
    · rename_i heq
      cases hfound
      rw [heq, hid]
      exact h.follows key old hold
    · exact h.follows k found hfound
  · intro k found event hfound hevent hsell
    rw [hcurrent, Table.put_apply] at hfound
    rw [hkey] at hevent
    split at hfound
    · rename_i heq
      rw [heq] at hevent
      exact absurd ⟨event, hevent, hsell⟩ hopen
    · exact h.sold k found event hfound hevent hsell
  · intro k event hevent
    rw [hkey] at hevent
    rw [hlatest]
    exact h.tip k event hevent
  · rw [hhistory]
    exact h.oneKey
  · intro sold hsold hsell
    rw [hhistory] at hsold
    rw [hlatest]
    exact h.sellLast sold hsold hsell
  · rw [hhistory]
    exact h.closed
  · rw [hhistory]
    exact h.opened

end

end InvestmentPlatform.Suggestions
