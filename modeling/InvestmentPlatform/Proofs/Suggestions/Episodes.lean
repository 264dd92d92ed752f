/-
The episode law, and the exit that breaks it.

Along every run whose scans bring no exit on a closed episode the track record is kept, and
with it the law.  Without that condition it fails: a PARTIAL_EXIT after a SELL is appended
to the closed episode, and the projection it leaves no longer says SELL, so that the next
BUY is appended to the closed episode as well.
-/
import InvestmentPlatform.Proofs.Suggestions.Cards

namespace InvestmentPlatform.Suggestions

open List

variable {uuid4 : Nat → Uuid} {s : Store} {scan : Scan}

/-! ### The cards of a scan -/

/-- The loop persists at most one card of each key, and none of a key it has seen. -/
theorem admittedCards_distinct (seen : List EpisodeKey) (cards : List Card) :
    (admittedCards seen cards).Pairwise (fun a b => a.2.key ≠ b.2.key) ∧
      ∀ entry ∈ admittedCards seen cards, entry.2.key ∉ seen := by
  induction cards generalizing seen with
  | nil => exact ⟨List.Pairwise.nil, by simp [admittedCards]⟩
  | cons card cards ih =>
      unfold admittedCards
      cases card.publicAction with
      | none => exact ih seen
      | some action =>
          simp only
          split
          · exact ih seen
          · rename_i hnew
            obtain ⟨hpairwise, hseen⟩ := ih (card.key :: seen)
            refine ⟨List.Pairwise.cons ?_ hpairwise, ?_⟩
            · intro entry hentry heq
              exact hseen entry hentry (heq ▸ mem_cons_self)
            · intro entry hentry
              rcases mem_cons.mp hentry with rfl | hrest
              · exact hnew
              · exact fun hmem => hseen entry hrest (mem_cons_of_mem _ hmem)

/-- What a list of cards with distinct keys does, given what each may find. -/
theorem persistCards_tracked (hinj : Function.Injective uuid4)
    (entries : List (PublicAction × Card)) (h : Tracked uuid4 s)
    (hdistinct : entries.Pairwise fun a b => a.2.key ≠ b.2.key)
    (hexit : ∀ entry ∈ entries, EpisodeClosed s entry.2.key → entry.1.IsBuy)
    (hlater : ∀ entry ∈ entries, ∀ earlier ∈ s.history, earlier.key = entry.2.key →
      earlier.actionAt < scan.completedAt) :
    Tracked uuid4 (persistCards uuid4 scan entries s) ∧
      (∀ event ∈ (persistCards uuid4 scan entries s).history,
        event ∈ s.history ∨ event.actionAt = scan.completedAt) ∧
      (∀ card action, (∀ entry ∈ entries, entry.2.key ≠ card.key) → ∀ old,
        OpensFresh old scan action card s →
          OpensFresh old scan action card (persistCards uuid4 scan entries s)) ∧
      ∀ entry ∈ entries, EpisodeClosed s entry.2.key →
        OpensFresh s scan entry.1 entry.2 (persistCards uuid4 scan entries s) := by
  induction entries generalizing s with
  | nil => exact ⟨h, fun _ hmem => Or.inl hmem, fun _ _ _ _ hfresh => hfresh, by simp⟩
  | cons entry entries ih =>
      obtain ⟨hhead, htail⟩ := pairwise_cons.mp hdistinct
      obtain ⟨htracked, hframe, hopens⟩ := persistSingleSuggestion_tracked h hinj
        (hexit entry mem_cons_self) (hlater entry mem_cons_self)
      -- The first card leaves the keys of the others as it found them.
      have hclosed : ∀ other ∈ entries,
          EpisodeClosed (persistSingleSuggestion uuid4 scan entry.2 entry.1 s) other.2.key ↔
            EpisodeClosed s other.2.key :=
        fun other hmem => hframe.episodeClosed (hhead other hmem).symm
      obtain ⟨hend, htimes, hkeep, hfresh⟩ := ih htracked htail
        (fun other hmem hc => hexit other (mem_cons_of_mem _ hmem) ((hclosed other hmem).mp hc))
        (fun other hmem earlier hearlier hkey => by
          rcases hframe.mem hearlier with hold | ⟨hsame, -⟩
          · exact hlater other (mem_cons_of_mem _ hmem) earlier hold hkey
          · exact absurd (hsame.symm.trans hkey) (hhead other hmem))
      refine ⟨hend, ?_, ?_, ?_⟩
      · intro event hmem
        rcases htimes event hmem with hmid | htime
        · exact (hframe.mem hmid).imp_right And.right
        · exact Or.inr htime
      · intro card action hne old hold
        have hmid := hold.later hframe (hne entry mem_cons_self).symm
        exact hkeep card action (fun other hmem => hne other (mem_cons_of_mem _ hmem)) old hmid
      · intro other hmem hc
        rcases mem_cons.mp hmem with rfl | hrest
        · exact hkeep other.2 other.1 (fun later hlater => (hhead later hlater).symm) s (hopens hc)
        · exact (hfresh other hrest ((hclosed other hrest).mpr hc)).earlier hframe

/-! ### The runs -/

/-- The track record is kept and lies in the past. -/
structure RadarInv (uuid4 : Nat → Uuid) (r : Radar) : Prop where
  tracked : Tracked uuid4 r.store
  past : ∀ event ∈ r.store.history, ∃ last, r.lastCompletedAt = some last ∧ event.actionAt ≤ last

theorem recordGlobalMarketScan_tracked (h : Tracked uuid4 s) (scan : Scan) :
    Tracked uuid4 (recordGlobalMarketScan scan s) := by
  unfold recordGlobalMarketScan
  split
  · exact h
  · exact ⟨h.drawnEvents, h.drawnRows, h.projected, h.follows, h.sold, h.tip, h.oneKey,
      h.sellLast, h.closed, h.opened⟩

theorem recordGlobalMarketScan_history (scan : Scan) (s : Store) :
    (recordGlobalMarketScan scan s).history = s.history := by
  unfold recordGlobalMarketScan
  split <;> rfl

theorem recordGlobalMarketScan_suggestions (scan : Scan) (s : Store) :
    (recordGlobalMarketScan scan s).suggestions = s.suggestions := by
  unfold recordGlobalMarketScan
  split <;> rfl

theorem episodeClosed_recorded (scan : Scan) (s : Store) (key : EpisodeKey) :
    EpisodeClosed (recordGlobalMarketScan scan s) key ↔ EpisodeClosed s key := by
  unfold EpisodeClosed latestOfKey
  rw [recordGlobalMarketScan_history]

theorem exec_eq_some {r r' : Radar} {call : ScanCall} (h : exec uuid4 r call = some ((), r')) :
    Admissible r call.1 ∧ r'.store = persistCards uuid4 call.1 (admittedCards [] call.2)
        (recordGlobalMarketScan call.1 r.store) ∧
      r'.lastCompletedAt = some call.1.completedAt := by
  unfold exec at h
  split at h
  · rename_i hadmissible
    simp only [Option.some.injEq, Prod.mk.injEq, true_and] at h
    subst h
    refine ⟨hadmissible, ?_, rfl⟩
    exact if_neg (by simp [hadmissible.1, hadmissible.2.1])
  · cases h

/-- One conforming call keeps the invariant and reopens closed episodes afresh. -/
theorem exec_conforming {r r' : Radar} {call : ScanCall} (hinj : Function.Injective uuid4)
    (hinv : RadarInv uuid4 r) (h : exec uuid4 r call = some ((), r'))
    (hexits : ExitsOpenEpisodes r.store call.2) :
    RadarInv uuid4 r' ∧ ∀ entry ∈ admittedCards [] call.2, EpisodeClosed r.store entry.2.key →
        OpensFresh r.store call.1 entry.1 entry.2 r'.store := by
  obtain ⟨hadmissible, hstore, hlast⟩ := exec_eq_some h
  have hlater : ∀ event ∈ r.store.history, event.actionAt < call.1.completedAt := by
    intro event hmem
    obtain ⟨last, hsome, hle⟩ := hinv.past event hmem
    exact Int.lt_of_le_of_lt hle (hadmissible.2.2 last hsome)
  obtain ⟨htracked, htimes, -, hfresh⟩ := persistCards_tracked hinj (admittedCards [] call.2)
    (recordGlobalMarketScan_tracked hinv.tracked call.1) (admittedCards_distinct [] call.2).1
    (fun entry hmem hc => hexits entry hmem ((episodeClosed_recorded _ _ _).mp hc))
    (fun entry _ earlier hmem _ => hlater earlier (by
      rwa [recordGlobalMarketScan_history] at hmem))
  rw [← hstore] at htracked htimes hfresh
  refine ⟨⟨htracked, fun event hmem => ⟨call.1.completedAt, hlast, ?_⟩⟩, ?_⟩
  · rcases htimes event hmem with hold | htime
    · rw [recordGlobalMarketScan_history] at hold
      exact Int.le_of_lt (hlater event hold)
    · exact Int.le_of_eq htime
  · intro entry hmem hc
    obtain ⟨suggestionId, row, current, event, hnone, hunused, hrest⟩ :=
      hfresh entry hmem ((episodeClosed_recorded _ _ _).mpr hc)
    rw [recordGlobalMarketScan_suggestions] at hnone
    rw [recordGlobalMarketScan_history] at hunused
    exact ⟨suggestionId, row, current, event, hnone, hunused, hrest⟩

theorem conforming_inv (hinj : Function.Injective uuid4) {r : Radar}
    (h : (conforming uuid4).Reachable r) : RadarInv uuid4 r := by
  refine h.invariant (I := RadarInv uuid4) ?_ ?_
  · rintro _ rfl
    exact ⟨Tracked.empty, by simp [Radar.empty, Store.empty]⟩
  · rintro before ⟨call, ⟨⟩⟩ after hinv ⟨hexits, hstep⟩
    exact (exec_conforming hinj hinv hstep hexits).1

/-- **Every run whose scans bring no exit on a closed episode obeys the episode law.** -/
theorem episodeLaw_of_conforming (hinj : Function.Injective uuid4) {r : Radar}
    (h : (conforming uuid4).Reachable r) : EpisodeLaw uuid4 r := by
  have hinv := conforming_inv hinj h
  refine ⟨hinv.tracked.closed, hinv.tracked.opened, ?_, ?_, ?_⟩
  · intro call r' hstep hexits
    exact (exec_conforming hinj hinv hstep hexits).2
  · intro call hexits entry hmem hclosed
    exact (chooseEpisode_agrees_iff hinv.tracked hclosed).mpr (hexits entry hmem hclosed)
  · intro scan card action hclosed hexit heq
    exact hexit ((chooseEpisode_agrees_iff hinv.tracked hclosed).mp heq)

/-- A completed production scan of one card. -/
def oneCardScan (time : Instant) (action : PublicAction) (fingerprint : String) : ScanCall :=
  ({ scanId := fingerprint, startedAt := time, completedAt := time, status := .completed,
     market := "NSE", exchange := some "NSE", universeCount := 1, shortlistCount := 1,
     evaluatedCount := 1, rankEligibleCount := 1, suppressedCount := 0,
     engineVersion := "STOCK_RULE_ENGINE_V1", controlled := false, failureReasonCode := none },
    [{ globalInstrumentId := "i1", horizon := .shortTerm, publicAction := some action,
       fingerprint, priceAtRecommendation := some 100, currentPrice := some 100 }])

/-- BUY, SELL and BUY again, under two suggestion ids. -/
theorem episodeLaw_of_soldAndBought : ∃ r, EpisodeLaw id r ∧
    r.store.history.map (fun event => (event.suggestionId, event.action))
      = [(0, .buy), (0, .sell), (3, .buy)] := by
  have hstart : (conforming id).Reachable Radar.empty := .init rfl
  have hbought := hstart.step (l := (oneCardScan 1 .buy "a", ()))
    ⟨by show ExitsOpenEpisodes _ _; decide, rfl⟩
  have hsold := hbought.step (l := (oneCardScan 2 .sell "b", ()))
    ⟨by show ExitsOpenEpisodes _ _; decide, rfl⟩
  have hagain := hsold.step (l := (oneCardScan 3 .buy "c", ()))
    ⟨by show ExitsOpenEpisodes _ _; decide, rfl⟩
  exact ⟨_, episodeLaw_of_conforming Function.injective_id hagain, by decide⟩

/-! ### The exit after the SELL -/

/-- BUY, SELL, then PARTIAL_EXIT and BUY. -/
def exitAfterSell : List ScanCall :=
  [oneCardScan 1 .buy "a", oneCardScan 2 .sell "b", oneCardScan 3 .partialExit "c",
    oneCardScan 4 .buy "d"]

/-- Four scans put all four events under one suggestion id, two of them after its SELL. -/
theorem exit_appends_to_closed_episode :
    ∃ r, (system id).Reachable r ∧ ¬ ClosedForGood r.store.history ∧
      r.store.history.map (fun event => (event.suggestionId, event.action))
        = [(0, .buy), (0, .sell), (0, .partialExit), (0, .buy)] :=
  ⟨((Machine.replay (exec id) Radar.empty exitAfterSell).get (by decide)).2,
    Machine.replay_reachable (Option.some_get _).symm, by decide, by decide⟩

end InvestmentPlatform.Suggestions
