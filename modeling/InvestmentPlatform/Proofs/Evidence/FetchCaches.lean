/-
The caches of a fetcher over whole runs.

Whatever the calls, what the record refuses the site refuses, and the byte cache keeps its counter,
its bounds and its promise.  That a refused request is not sent again needs every refusal to leave a
record that is as good as the refusal.  It is not, where the declared length of the reply is within
the limit and only the body is too large: the length is then all that is looked at.
-/
import InvestmentPlatform.Proofs.Evidence.OversizeCache
import Mathlib.Tactic.Linarith

namespace InvestmentPlatform.Evidence.FetchCaches

open UrlText (Text Unicode)
open FetchNetwork Dict Option List
open History

variable {settings : Settings} {unicode : Unicode} {site : Site} {clock : Nat → ℚ}
  {maxBytes : Option Nat} {url : Text} {oversize : Dict Text Oversize} {readings : Nat}
  {log : List Event} {s : Fetcher}

/-! ### What is asked of the log -/

/-- The request was refused with that limit, and the entry of its URL was not evicted since. -/
def Pending (log : List Event) (url : Text) (limit : Nat) (time : ℚ) : Prop :=
  Since (· = .refused url limit time) (· = .evicted url) log

/-- A request with a limit is not one that a pending refusal covers, unless that is too old. -/
def Unsettled (past : List Event) : Event → Prop
  | .sent url (some limit) time => ∀ refused refusedAt, Pending past url refused refusedAt →
      limit ≤ refused → oversizeCacheTtlSeconds < time - refusedAt
  | _ => True

/-- No request was sent that a refusal had settled. -/
def NotResent (log : List Event) : Prop := Always Unsettled log

variable {refused limit : Nat} {refusedAt : ℚ} {url' : Text}

theorem pending_sent {time : ℚ} :
    Pending (log ++ [.sent url' maxBytes time]) url refused refusedAt ↔
      Pending log url refused refusedAt :=
  since_concat_of_not Event.noConfusion Event.noConfusion

theorem pending_refused {time : ℚ} :
    Pending (log ++ [.refused url' limit time]) url refused refusedAt ↔
      (url' = url ∧ limit = refused ∧ time = refusedAt) ∨ Pending log url refused refusedAt := by
  unfold Pending
  rw [since_concat, Event.refused.injEq]
  refine or_congr_right ⟨And.left, fun h => ⟨h, Event.noConfusion⟩⟩

theorem pending_evicted : Pending (log ++ [.evicted url']) url refused refusedAt ↔
      Pending log url refused refusedAt ∧ url' ≠ url := by
  unfold Pending
  rw [since_concat, Event.evicted.injEq]
  exact ⟨fun h => h.resolve_left Event.noConfusion, Or.inr⟩

/-! ### What the record answers for -/

/-- The entry refuses every limit up to this one. -/
def Oversize.Covers (entry : Oversize) (refused : Nat) : Prop :=
  ∀ limit ≤ refused, entry.verdict limit ≠ none

/-- Every pending refusal is too old, or the entry of its URL answers for it. -/
structure Remembered (clock : Nat → ℚ) (oversize : Dict Text Oversize) (readings : Nat)
    (log : List Event) : Prop where
  pending : ∀ url refused refusedAt, Pending log url refused refusedAt →
    oversizeCacheTtlSeconds < clock readings - refusedAt ∨
      ∃ entry, oversize.get? url = some entry ∧ refusedAt ≤ entry.recordedAt ∧
        entry.Covers refused
  /-- No entry is from later. -/
  dated : ∀ url entry, oversize.get? url = some entry → entry.recordedAt ≤ clock readings
  unsent : NotResent log

theorem remembered_start : Remembered clock Dict.empty 0 [] where
  pending url refused refusedAt hpending := (not_since_nil hpending).elim
  dated url entry hget := by cases hget
  unsent := always_nil

theorem Remembered.later (hclock : Monotone clock) (h : Remembered clock oversize readings log) :
    Remembered clock oversize (readings + 1) log := by
  have htick : clock readings ≤ clock (readings + 1) := hclock (Nat.le_succ readings)
  refine ⟨fun url refused refusedAt hpending => ?_, fun url entry hget => ?_, h.unsent⟩
  · refine (h.pending url refused refusedAt hpending).imp_left fun hold => ?_
    linarith
  · exact (h.dated url entry hget).trans htick

/-- The order of the entries is nothing to it. -/
theorem Remembered.congr {oversize' : Dict Text Oversize}
    (h : Remembered clock oversize readings log)
    (hsame : ∀ url, oversize'.get? url = oversize.get? url) :
    Remembered clock oversize' readings log := by
  refine ⟨fun url refused refusedAt hpending => ?_, fun url entry hget => ?_, h.unsent⟩
  · rw [hsame]
    exact h.pending url refused refusedAt hpending
  · rw [hsame] at hget
    exact h.dated url entry hget

variable {entry : Oversize}

/-- An entry that is too old is deleted. -/
theorem Remembered.pop (h : Remembered clock oversize readings log)
    (hget : oversize.get? url = some entry)
    (hold : oversizeCacheTtlSeconds < clock readings - entry.recordedAt) :
    Remembered clock (oversize.pop url) readings log := by
  refine ⟨fun url' refused refusedAt hpending => ?_, fun url' entry' hget' => ?_, h.unsent⟩
  · rcases h.pending url' refused refusedAt hpending with hexpired | ⟨entry', hget', hle, hcovers⟩
    · exact Or.inl hexpired
    · by_cases hurl : url' = url
      · subst hurl
        cases some.inj (hget.symm.trans hget')
        refine Or.inl ?_
        linarith
      · refine Or.inr ⟨entry', ?_, hle, hcovers⟩
        rw [get?_pop, if_neg hurl]
        exact hget'
  · rw [get?_pop] at hget'
    split at hget'
    · cases hget'
    · exact h.dated url' entry' hget'

variable (maxBytes url) in
theorem Remembered.check (hclock : Monotone clock)
    (h : Remembered clock s.oversize s.readings s.log) :
    Remembered clock (raiseIfKnownOversize clock url maxBytes s).2.oversize
      (raiseIfKnownOversize clock url maxBytes s).2.readings
      (raiseIfKnownOversize clock url maxBytes s).2.log := by
  unfold raiseIfKnownOversize
  split
  · exact h
  · split
    · exact h
    · rename_i entry hget
      split
      · rename_i hold
        exact (h.pop hget hold).later hclock
      · exact (h.congr (get?_setLast_of_get? hget)).later hclock

/-- The record has no objection to a limit. -/
def Unobjected (url : Text) (maxBytes : Option Nat) (oversize : Dict Text Oversize) : Prop :=
  ∀ limit entry, maxBytes = some limit → oversize.get? url = some entry →
    entry.verdict limit = none

theorem unobjected_of_check (h : (raiseIfKnownOversize clock url maxBytes s).1 = none) :
    Unobjected url maxBytes (raiseIfKnownOversize clock url maxBytes s).2.oversize := by
  intro limit entry hlimit hget
  subst hlimit
  unfold raiseIfKnownOversize at h hget
  dsimp only at h hget
  split at hget
  · rename_i hnone
    rw [hnone] at hget
    cases hget
  · rename_i known hknown
    rw [hknown] at h
    dsimp only at h
    split at hget
    · rw [get?_pop, if_pos rfl] at hget
      cases hget
    · rename_i hfresh
      rw [if_neg hfresh] at h
      rw [get?_setLast, if_pos rfl] at hget
      cases some.inj hget
      exact h

/-- A request that the record does not object to was not settled by a refusal. -/
theorem Remembered.send (hclock : Monotone clock) (hunobjected : Unobjected url maxBytes s.oversize)
    (h : Remembered clock s.oversize s.readings s.log) :
    Remembered clock (send site clock maxBytes url s).2.oversize
      (send site clock maxBytes url s).2.readings (send site clock maxBytes url s).2.log := by
  have hlater := h.later hclock
  refine ⟨fun url' refused refusedAt hpending => ?_, hlater.dated, always_concat.mpr ⟨h.unsent, ?_⟩⟩
  · exact hlater.pending url' refused refusedAt (pending_sent.mp hpending)
  · cases hmax : maxBytes with
    | none => trivial
    | some limit =>
      intro refused refusedAt hpending hle
      refine (h.pending url refused refusedAt hpending).resolve_right fun hcovered => ?_
      obtain ⟨entry, hget, -, hcovers⟩ := hcovered
      exact hcovers limit hle (hunobjected limit entry hmax hget)

theorem Remembered.requestWithRetries (hclock : Monotone clock)
    (hunobjected : Unobjected url maxBytes s.oversize)
    (h : Remembered clock s.oversize s.readings s.log) :
    Remembered clock (requestWithRetries settings site clock maxBytes url s).2.oversize
      (requestWithRetries settings site clock maxBytes url s).2.readings
      (requestWithRetries settings site clock maxBytes url s).2.log := by
  have hkeep : ∀ s : Fetcher,
      (Unobjected url maxBytes s.oversize ∧ Remembered clock s.oversize s.readings s.log) →
      Unobjected url maxBytes (FetchCaches.send site clock maxBytes url s).2.oversize ∧
        Remembered clock (FetchCaches.send site clock maxBytes url s).2.oversize
          (FetchCaches.send site clock maxBytes url s).2.readings
          (FetchCaches.send site clock maxBytes url s).2.log :=
    fun s hs => ⟨hs.1, hs.2.send hclock hs.1⟩
  exact (retry_keeps hkeep settings.researchMaxRetries s (hkeep s ⟨hunobjected, h⟩)).2

theorem Remembered.tail {item : Text × Oversize} {rest : List (Text × Oversize)}
    (h : Remembered clock oversize readings log) (hitems : oversize.items = item :: rest) :
    Remembered clock oversize.tail readings (log ++ [.evicted item.1]) := by
  refine ⟨fun url refused refusedAt hpending => ?_, fun url entry hget => ?_,
    always_concat.mpr ⟨h.unsent, trivial⟩⟩
  · obtain ⟨hold, hne⟩ := pending_evicted.mp hpending
    rw [get?_tail hitems, if_neg (Ne.symm hne)]
    exact h.pending url refused refusedAt hold
  · rw [get?_tail hitems] at hget
    split at hget
    · cases hget
    · exact h.dated url entry hget

/-- The refusal is as good as the record that it leaves: the record covers it, and it covers what
the entry covers that it replaces. -/
structure Recorded (oversize : Dict Text Oversize) (url : Text) (entry : Oversize) : Prop where
  covers : entry.Covers entry.maxBytes
  replaces : ∀ old, oversize.get? url = some old →
    entry.recordedAt - old.recordedAt ≤ oversizeCacheTtlSeconds →
    ∀ refused, old.Covers refused → entry.Covers refused

theorem Remembered.setLast (h : Remembered clock oversize readings log)
    (hnow : entry.recordedAt = clock readings) (hrecorded : Recorded oversize url entry) :
    Remembered clock (oversize.setLast url entry) readings
      (log ++ [.refused url entry.maxBytes entry.recordedAt]) := by
  refine ⟨fun url' refused refusedAt hpending => ?_, fun url' entry' hget => ?_,
    always_concat.mpr ⟨h.unsent, trivial⟩⟩
  · rcases pending_refused.mp hpending with ⟨rfl, rfl, rfl⟩ | hold
    · refine Or.inr ⟨entry, ?_, le_refl _, hrecorded.covers⟩
      rw [get?_setLast, if_pos rfl]
    · rcases h.pending url' refused refusedAt hold with hexpired | ⟨old, hget, hle, hcovers⟩
      · exact Or.inl hexpired
      · rw [get?_setLast]
        by_cases hurl : url' = url
        · subst hurl
          rw [if_pos rfl]
          by_cases hlive : entry.recordedAt - old.recordedAt ≤ oversizeCacheTtlSeconds
          · have hdated : old.recordedAt ≤ entry.recordedAt := hnow ▸ h.dated url' old hget
            exact Or.inr ⟨entry, rfl, hle.trans hdated,
              hrecorded.replaces old hget hlive refused hcovers⟩
          · refine Or.inl ?_
            rw [← hnow]
            linarith
        · rw [if_neg hurl]
          exact Or.inr ⟨old, hget, hle, hcovers⟩
  · rw [get?_setLast] at hget
    split at hget
    · cases hget
      exact le_of_eq hnow
    · exact h.dated url' entry' hget

theorem Remembered.record (hclock : Monotone clock) {length : Option Nat}
    (h : Remembered clock s.oversize s.readings s.log)
    (hrecorded : Recorded s.oversize url ⟨clock s.readings, length, limit⟩) :
    Remembered clock (recordKnownOversize clock url length limit s).oversize
      (recordKnownOversize clock url length limit s).readings
      (recordKnownOversize clock url length limit s).log :=
  record_keeps (I := fun oversize log => Remembered clock oversize (s.readings + 1) log)
    ((h.setLast rfl hrecorded).later hclock) fun _ _ _ _ hitems hkept => hkept.tail hitems

/-! ### When a record is as good as its refusal -/

/-- A refusal of a request of this round leaves a record that is as good: the declared length, if
there is one, is too large by itself; and where there is neither a declared length nor a limit, the
entry that is replaced has no larger limit, or it is too old when the refusal is recorded. -/
def Recordable (site : Site) (clock : Nat → ℚ) (maxBytes : Option Nat) (url : Text) (s : Fetcher) :
    Prop :=
  ∀ reply length limit, site.answer url = .ok reply →
    reply.refused maxBytes = some (.oversize length limit) →
    (∀ declared, length = some declared → limit < declared) ∧
      (maxBytes = none → length = none → ∀ old, s.oversize.get? url = some old →
        clock (s.readings + 1) - old.recordedAt ≤ oversizeCacheTtlSeconds → old.maxBytes ≤ limit)

theorem verdict_of_none (h : entry.contentLength = none) (limit : Nat) :
    entry.verdict limit ≠ none ↔ limit ≤ entry.maxBytes := by
  rw [Oversize.verdict, h]
  dsimp only
  by_cases hle : limit ≤ entry.maxBytes
  · rw [if_pos hle]
    exact ⟨fun _ => hle, fun _ => some_ne_none _⟩
  · rw [if_neg hle]
    exact ⟨fun hne => absurd rfl hne, fun hle' => absurd hle' hle⟩

/-- Only the declared length counts, where there is one. -/
theorem verdict_of_some {declared : Nat} (h : entry.contentLength = some declared)
    (limit : Nat) : entry.verdict limit ≠ none ↔ limit < declared := by
  rw [Oversize.verdict, h]
  dsimp only
  by_cases hlt : limit < declared
  · rw [if_pos hlt]
    exact ⟨fun _ => hlt, fun _ => some_ne_none _⟩
  · rw [if_neg hlt]
    exact ⟨fun hne => absurd rfl hne, fun hlt' => absurd hlt' hlt⟩

/-- A refusal after a check that let the request pass. -/
theorem recorded_of_recordable {reply : Reply} {length : Option Nat} {now : ℚ}
    (hknown : Known site oversize) (hunobjected : Unobjected url maxBytes oversize)
    (hanswer : site.answer url = .ok reply)
    (hrefused : reply.refused maxBytes = some (.oversize length limit))
    (hdeclared : ∀ declared, length = some declared → limit < declared)
    (hlarger : maxBytes = none → length = none → ∀ old, oversize.get? url = some old →
      now - old.recordedAt ≤ oversizeCacheTtlSeconds → old.maxBytes ≤ limit) :
    Recorded oversize url ⟨now, length, limit⟩ := by
  obtain ⟨hlength, -, hgiven, -⟩ := refused_oversize hrefused
  refine ⟨fun limit' hle => ?_, fun old hget hlive refused hcovers limit' hle => ?_⟩
  · cases hdecl : length with
    | some declared =>
      rw [verdict_of_some rfl]
      exact lt_of_le_of_lt hle (hdeclared declared hdecl)
    | none =>
      rw [verdict_of_none rfl]
      exact hle
  · -- The old entry stands for the same reply.
    obtain ⟨reply', maxBytes', hanswer', hrefused'⟩ := hknown url old hget
    cases hanswer.symm.trans hanswer'
    have hsame : old.contentLength = length := (refused_oversize hrefused').1.symm.trans hlength
    have hold := hcovers limit' hle
    cases hdecl : length with
    | some declared =>
      rw [verdict_of_some (hsame.trans hdecl)] at hold
      rw [verdict_of_some rfl]
      exact hold
    | none =>
      rw [verdict_of_none (hsame.trans hdecl)] at hold
      rw [verdict_of_none rfl]
      refine hold.trans ?_
      cases hmax : maxBytes with
      | none => exact hlarger hmax hdecl old hget hlive
      | some given =>
        have hnone := hunobjected given old hmax hget
        have hlt : ¬ given ≤ old.maxBytes := fun hle' =>
          (verdict_of_none (hsame.trans hdecl) given).mpr hle' hnone
        rw [← hgiven given hmax]
        exact (not_le.mp hlt).le

/-! ### Rounds, fetches, runs -/

variable (settings unicode) in
/-- A round raises what is known, or it sends its request, or it records what came of that. -/
theorem round_cases (maxBytes : Option Nat) (left : Nat) (url : Text) (s : Fetcher) :
    let checked := raiseIfKnownOversize clock url maxBytes s
    let result := (round settings unicode site clock maxBytes left url s).2
    result = checked.2 ∨ (checked.1 = none ∧
        result = (requestWithRetries settings site clock maxBytes url checked.2).2) ∨
      (checked.1 = none ∧ ∃ reply length limit, site.answer url = .ok reply ∧
        reply.refused maxBytes = some (.oversize length limit) ∧
        result = recordKnownOversize clock url length limit
          (send site clock maxBytes url checked.2).2) := by
  dsimp only
  unfold round
  obtain ⟨known, s₁⟩ := raiseIfKnownOversize clock url maxBytes s
  cases known with
  | some error => exact Or.inl rfl
  | none =>
    refine Or.inr ?_
    dsimp only
    cases houtcome : requestWithRetries settings site clock maxBytes url s₁ with
    | mk outcome s₂ =>
      cases outcome with
      | ok reply =>
        refine Or.inl ⟨rfl, ?_⟩
        dsimp only
        split
        · rfl
        · rfl
        · rfl
      | error error =>
        dsimp only
        split
        · rename_i length limit s₃ heq
          cases heq
          have hfirst : (requestWithRetries settings site clock maxBytes url s₁).1 =
              .error (.oversize length limit) := by rw [houtcome]
          obtain ⟨⟨reply, hanswer, hrefused⟩, hsend⟩ := requestWithRetries_oversize hfirst
          rw [houtcome] at hsend
          exact Or.inr ⟨rfl, reply, length, limit, hanswer, hrefused, congrArg (recordKnownOversize clock url length limit) hsend⟩
        · rename_i heq
          cases heq
          exact Or.inl ⟨rfl, rfl⟩
        · rename_i heq
          cases heq

/-- The URLs that the rounds of the loop are about, with the states in which they begin. -/
def rounds (settings : Settings) (unicode : Unicode) (site : Site) (clock : Nat → ℚ)
    (maxBytes : Option Nat) (left : Nat) (url : Text) (s : Fetcher) : List (Text × Fetcher) :=
  (url, s) ::
    match round settings unicode site clock maxBytes left url s with
    | (.done _, _) => []
    | (.next target, s) =>
      match left with
      | 0 => []
      | left + 1 => rounds settings unicode site clock maxBytes left target s

/-- What every round keeps, the loop keeps. -/
theorem followRedirects_keeps {I : Fetcher → Prop} {P : Text → Fetcher → Prop}
    (hround : ∀ left url s, P url s → I s →
      I (round settings unicode site clock maxBytes left url s).2)
    (left : Nat) (hrounds : ∀ r ∈ rounds settings unicode site clock maxBytes left url s, P r.1 r.2)
    (h : I s) : I (followRedirects settings unicode site clock maxBytes left url s).2 := by
  induction left generalizing url s with
  | zero =>
    rw [rounds] at hrounds
    have hone := hround 0 url s (hrounds _ mem_cons_self) h
    rw [followRedirects]
    revert hone
    obtain ⟨outcome, s'⟩ := round settings unicode site clock maxBytes 0 url s
    intro hone
    cases outcome with
    | done result => exact hone
    | next target => exact hone
  | succ left ih =>
    rw [rounds] at hrounds
    have hone := hround (left + 1) url s (hrounds _ mem_cons_self) h
    rw [followRedirects]
    revert hrounds hone
    obtain ⟨outcome, s'⟩ := round settings unicode site clock maxBytes (left + 1) url s
    intro hrounds hone
    cases outcome with
    | done result => exact hone
    | next target => exact ih (fun r hr => hrounds r (mem_cons_of_mem _ hr)) hone

theorem known_round (left : Nat) (h : Known site s.oversize) :
    Known site (round settings unicode site clock maxBytes left url s).2.oversize := by
  have hchecked := h.check clock maxBytes url
  rcases round_cases settings unicode maxBytes left url s with
    hraised | ⟨-, hsent⟩ | ⟨-, reply, length, limit, hanswer, hrefused, hrecord⟩
  · rw [hraised]
    exact hchecked
  · rw [hsent]
    exact retry_keeps (p := fun s : Fetcher => Known site s.oversize) (fun _ hknown => hknown) _ _
      hchecked
  · rw [hrecord]
    exact Known.record (s := (send site clock maxBytes url _).2) hchecked
      ⟨reply, maxBytes, hanswer, hrefused⟩

theorem remembered_round (hclock : Monotone clock) (left : Nat)
    (hrecordable : Recordable site clock maxBytes url s) (hknown : Known site s.oversize)
    (h : Remembered clock s.oversize s.readings s.log) :
    Remembered clock (round settings unicode site clock maxBytes left url s).2.oversize
      (round settings unicode site clock maxBytes left url s).2.readings
      (round settings unicode site clock maxBytes left url s).2.log := by
  have hchecked := h.check maxBytes url hclock
  rcases round_cases settings unicode maxBytes left url s with
    hraised | ⟨hpass, hsent⟩ | ⟨hpass, reply, length, limit, hanswer, hrefused, hrecord⟩
  · rw [hraised]
    exact hchecked
  · rw [hsent]
    exact hchecked.requestWithRetries hclock (unobjected_of_check hpass)
  · rw [hrecord]
    have hunobjected := unobjected_of_check hpass
    obtain ⟨hdeclared, hlarger⟩ := hrecordable reply length limit hanswer hrefused
    refine (hchecked.send hclock hunobjected).record hclock ?_
    refine recorded_of_recordable (hknown.check clock maxBytes url) hunobjected hanswer hrefused hdeclared ?_
    -- Without a limit there is no check, and the record stands as the round began.
    intro hmax
    subst hmax
    exact hlarger rfl

theorem cached_round (left : Nat) (h : Cached site s.pdfs s.pdfBytes s.log) :
    Cached site (round settings unicode site clock maxBytes left url s).2.pdfs
      (round settings unicode site clock maxBytes left url s).2.pdfBytes
      (round settings unicode site clock maxBytes left url s).2.log := by
  have hchecked : Cached site (raiseIfKnownOversize clock url maxBytes s).2.pdfs
      (raiseIfKnownOversize clock url maxBytes s).2.pdfBytes
      (raiseIfKnownOversize clock url maxBytes s).2.log := by
    unfold raiseIfKnownOversize
    split
    · exact h
    · split
      · exact h
      · split
        · exact h
        · exact h
  have hsend : ∀ s : Fetcher, Cached site s.pdfs s.pdfBytes s.log →
      Cached site (send site clock maxBytes url s).2.pdfs (send site clock maxBytes url s).2.pdfBytes
        (send site clock maxBytes url s).2.log :=
    fun s hs => hs.event fun _ _ _ => Event.noConfusion
  rcases round_cases settings unicode maxBytes left url s with
    hraised | ⟨-, hsent⟩ | ⟨-, reply, length, limit, -, -, hrecord⟩
  · rw [hraised]
    exact hchecked
  · rw [hsent]
    exact retry_keeps hsend settings.researchMaxRetries _ (hsend _ hchecked)
  · rw [hrecord]
    exact record_keeps (I := fun _ log => Cached site _ _ log)
      ((hsend _ hchecked).event fun _ _ _ => Event.noConfusion)
      fun _ _ _ _ _ hkept => hkept.event fun _ _ _ => Event.noConfusion

/-- The rounds of a call, with the states in which they begin. -/
def callRounds (settings : Settings) (unicode : Unicode) (site : Site) (clock : Nat → ℚ)
    (s : Fetcher) : Call → List (Text × Option Nat × Fetcher)
  | .fetchNetwork url maxBytes =>
    match validatePublicHttpUrl unicode url with
    | .error _ => []
    | .ok () => (rounds settings unicode site clock maxBytes settings.researchMaxRedirects url s).map
        fun r => (r.1, maxBytes, r.2)
  | _ => []

/-- In every round of the calls, the refusal of its request leaves a record that is as good. -/
def Regular (settings : Settings) (unicode : Unicode) (site : Site) (clock : Nat → ℚ)
    (calls : List Call) : Prop :=
  ∀ before c after s, calls = before ++ c :: after →
    run settings unicode site clock before = some s →
    ∀ r ∈ callRounds settings unicode site clock s c, Recordable site clock r.2.1 r.1 r.2.2

/-- What holds of a fetcher whatever it was asked. -/
structure Kept (site : Site) (s : Fetcher) : Prop where
  known : Known site s.oversize
  cached : Cached site s.pdfs s.pdfBytes s.log

theorem kept_fetchNetwork (url : Text) (h : Kept site s) :
    Kept site (fetchNetwork settings unicode site clock url maxBytes s).2 := by
  unfold fetchNetwork
  split
  · exact h
  · exact followRedirects_keeps (P := fun _ _ => True)
      (fun left _ _ _ hs => ⟨known_round left hs.known, cached_round left hs.cached⟩) _
      (fun _ _ => trivial) h

/-! ### The byte cache is nothing to the record -/

/-- The event is about a body. -/
def Bodily : Event → Prop
  | .stored _ _ | .served _ _ _ => True
  | _ => False

/-- The record is untouched; the clock may have been read, and a body may have been logged. -/
structure Aside (s s' : Fetcher) : Prop where
  oversize : s'.oversize = s.oversize
  readings : s'.readings = s.readings ∨ s'.readings = s.readings + 1
  log : s'.log = s.log ∨ ∃ e, Bodily e ∧ s'.log = s.log ++ [e]

theorem aside_refl (s : Fetcher) : Aside s s := ⟨rfl, Or.inl rfl, Or.inl rfl⟩

theorem aside_cachedPdfResponse (url : Text) (s : Fetcher) :
    Aside s (cachedPdfResponse site clock url s).2 := by
  unfold cachedPdfResponse
  split
  · exact aside_refl s
  · dsimp only
    split
    · exact ⟨rfl, Or.inr rfl, Or.inl rfl⟩
    · exact ⟨rfl, Or.inr rfl, Or.inr ⟨.served url _ _, trivial, rfl⟩⟩

variable {s' : Fetcher}

theorem aside_cachePdfResponse {response : Response}
    (h : cachePdfResponse site clock response s = some s') : Aside s s' := by
  unfold cachePdfResponse at h
  split at h
  · cases h
    exact aside_refl s
  · split at h
    · cases h
      exact aside_refl s
    · dsimp only at h
      split at h
      · cases h
      · cases h
        exact ⟨rfl, Or.inr rfl, Or.inr ⟨.stored response _, trivial, rfl⟩⟩

theorem Remembered.bodily {e : Event} (he : Bodily e) (h : Remembered clock oversize readings log) :
    Remembered clock oversize readings (log ++ [e]) := by
  refine ⟨fun url refused refusedAt hpending => ?_, h.dated, always_concat.mpr ⟨h.unsent, ?_⟩⟩
  · refine h.pending url refused refusedAt ((since_concat_of_not ?_ ?_).mp hpending)
    · intro heq
      exact (heq ▸ he : Bodily (.refused url refused refusedAt))
    · intro heq
      exact (heq ▸ he : Bodily (.evicted url))
  · cases e with
    | stored => trivial
    | served => trivial
    | sent => exact he.elim
    | refused => exact he.elim
    | evicted => exact he.elim

theorem Remembered.aside {s : Fetcher} (hclock : Monotone clock) (haside : Aside s s')
    (h : Remembered clock s.oversize s.readings s.log) :
    Remembered clock s'.oversize s'.readings s'.log := by
  have hread : Remembered clock s.oversize s'.readings s.log := by
    rcases haside.readings with hsame | htick
    · rw [hsame]
      exact h
    · rw [htick]
      exact h.later hclock
  rw [haside.oversize]
  rcases haside.log with hsame | ⟨e, he, hlog⟩
  · rw [hsame]
    exact hread
  · rw [hlog]
    exact hread.bodily he

/-! ### Calls and runs -/

variable (settings unicode clock) in
theorem kept_call (c : Call) (h : Kept site s) :
    ∃ s', call settings unicode site clock s c = some s' ∧ Kept site s' := by
  cases c with
  | fetchNetwork url maxBytes => exact ⟨_, rfl, kept_fetchNetwork url h⟩
  | cachedPdfResponse url =>
    refine ⟨_, rfl, ?_, cached_cachedPdfResponse url h.cached⟩
    rw [(aside_cachedPdfResponse url s).oversize]
    exact h.known
  | cachePdfResponse response =>
    obtain ⟨s', hs', hcached⟩ := cached_cachePdfResponse clock response h.cached
    refine ⟨s', hs', ?_, hcached⟩
    rw [(aside_cachePdfResponse hs').oversize]
    exact h.known

theorem remembered_call {c : Call} (hclock : Monotone clock)
    (hregular : ∀ r ∈ callRounds settings unicode site clock s c,
      Recordable site clock r.2.1 r.1 r.2.2)
    (hknown : Known site s.oversize) (h : Remembered clock s.oversize s.readings s.log)
    (hcall : call settings unicode site clock s c = some s') :
    Remembered clock s'.oversize s'.readings s'.log := by
  cases c with
  | fetchNetwork url maxBytes =>
    cases hcall
    unfold fetchNetwork
    cases hguard : validatePublicHttpUrl unicode url with
    | error message => exact h
    | ok _ =>
      have hrounds : ∀ r ∈ rounds settings unicode site clock maxBytes
          settings.researchMaxRedirects url s, Recordable site clock maxBytes r.1 r.2 := by
        intro r hr
        refine hregular (r.1, maxBytes, r.2) ?_
        rw [callRounds, hguard]
        exact List.mem_map_of_mem hr
      exact (followRedirects_keeps
        (I := fun s => Known site s.oversize ∧ Remembered clock s.oversize s.readings s.log)
        (fun left _ _ hrecordable hs =>
          ⟨known_round left hs.1, remembered_round hclock left hrecordable hs.1 hs.2⟩)
        settings.researchMaxRedirects hrounds ⟨hknown, h⟩).2
  | cachedPdfResponse url =>
    cases hcall
    exact h.aside hclock (aside_cachedPdfResponse url s)
  | cachePdfResponse response => exact h.aside hclock (aside_cachePdfResponse hcall)

variable (settings unicode site clock) in
/-- No run raises out of the byte cache, and every run keeps both caches. -/
theorem run_kept (calls : List Call) :
    ∃ s, run settings unicode site clock calls = some s ∧ Kept site s := by
  induction calls using List.reverseRecOn with
  | nil => exact ⟨Fetcher.start, rfl, fun _ _ hget => (nomatch hget), cached_start⟩
  | append_singleton calls c ih =>
    obtain ⟨s, hrun, hkept⟩ := ih
    obtain ⟨s', hcall, hkept'⟩ := kept_call settings unicode clock c hkept
    refine ⟨s', ?_, hkept'⟩
    unfold run at hrun ⊢
    rw [foldlM_append, hrun]
    show [c].foldlM (call settings unicode site clock) s = some s'
    rw [foldlM_cons, hcall]
    rfl

theorem run_remembered (hclock : Monotone clock) {calls : List Call}
    (hregular : Regular settings unicode site clock calls)
    (hrun : run settings unicode site clock calls = some s) :
    Remembered clock s.oversize s.readings s.log := by
  induction calls using List.reverseRecOn generalizing s with
  | nil =>
    cases hrun
    exact remembered_start
  | append_singleton calls c ih =>
    obtain ⟨mid, hmid, hkept⟩ := run_kept settings unicode site clock calls
    have hcall : call settings unicode site clock mid c = some s := by
      unfold run at hrun hmid
      rw [foldlM_append, hmid] at hrun
      change [c].foldlM (call settings unicode site clock) mid = some s at hrun
      rw [foldlM_cons] at hrun
      obtain ⟨s', hs', hnil⟩ := bind_eq_some_iff.mp hrun
      cases hnil
      exact hs'
    refine remembered_call hclock (hregular calls c [] mid rfl hmid) hkept.known ?_ hcall
    refine ih (fun before c' after s' heq => ?_) hmid
    exact hregular before c' (after ++ [c]) s' (by rw [heq, List.append_assoc, cons_append])

/-! ### What is claimed -/

/-- Where the record refuses a URL and a limit, the site refuses them too. -/
def Sound (settings : Settings) (site : Site) (clock : Nat → ℚ) (s : Fetcher) : Prop :=
  ∀ url maxBytes, (raiseIfKnownOversize clock url maxBytes s).1 ≠ none →
    ∃ limit, maxBytes = some limit ∧ TooLarge settings site clock url limit

theorem Known.sound (h : Known site s.oversize) : Sound settings site clock s := by
  intro url maxBytes hraised
  unfold raiseIfKnownOversize at hraised
  split at hraised
  · exact absurd rfl hraised
  · rename_i limit
    refine ⟨limit, rfl, ?_⟩
    split at hraised
    · exact absurd rfl hraised
    · rename_i entry hget
      split at hraised
      · exact absurd rfl hraised
      · exact (h url entry hget).tooLarge hraised

variable (settings unicode site) in
/-- **The caches over any calls.**  What is refused as known would be refused by the site; the byte
cache keeps its counter and its bounds and gives nothing but fresh bodies; and no request is sent
that a refusal has settled, in every run all of whose refusals leave a record that is as good. -/
theorem caches_sound (hclock : Monotone clock) (calls : List Call) :
    ∃ s, run settings unicode site clock calls = some s ∧
      Sound settings site clock s ∧ Counted s.pdfs s.pdfBytes ∧ FreshlyServed site s.log ∧
      (Regular settings unicode site clock calls → NotResent s.log) := by
  obtain ⟨s, hrun, hkept⟩ := run_kept settings unicode site clock calls
  exact ⟨s, hrun, hkept.known.sound, hkept.cached.toCounted, hkept.cached.served,
    fun hregular => (run_remembered hclock hregular hrun).unsent⟩

/-- Every run is regular at a site that declares the lengths of its bodies. -/
theorem regular_of_declared (hdeclared : ∀ url reply, site.answer url = .ok reply →
      reply.contentLength = some reply.bodyBytes) (calls : List Call) :
    Regular settings unicode site clock calls := by
  intro before c after s hcalls hrun r hr reply length limit hanswer hrefused
  obtain ⟨hlength, hlarge, -⟩ := refused_oversize hrefused
  have hsome : length = some reply.bodyBytes :=
    hlength.symm.trans (hdeclared r.1 reply hanswer)
  refine ⟨fun declared hdecl => ?_, fun _ hnone => ?_⟩
  · cases hsome.symm.trans hdecl
    rw [hsome] at hlarge
    rcases hlarge with hany | hlt
    · exact of_decide_eq_true hany
    · exact hlt
  · cases hsome.symm.trans hnone

/-! ### A body that is larger than its declared length -/

/-- A site that gives one reply for every URL. -/
def siteOf (reply : Reply) : Site := ⟨fun _ => .ok reply, fun _ location => some location, some⟩

/-- A clock that is read once a second. -/
def seconds (n : Nat) : ℚ := n

theorem seconds_mono : Monotone seconds := fun _ _ hle => Nat.cast_le.mpr hle

def annualReport : Text := "https://archives.example/annual.pdf".toList

/-- A fetch of the report with a limit of 500 bytes, and the same again. -/
def twice : List Call := [.fetchNetwork annualReport (some 500), .fetchNetwork annualReport (some 500)]

/-- The law at work: the report has the 1000 bytes that it declares. -/
theorem caches_sound_sample :
    ∃ s, run defaults asciiUnicode (siteOf ⟨200, true, some 1000, 1000, none⟩) seconds twice =
      some s ∧ NotResent s.log := by
  obtain ⟨s, hrun, -, -, -, hregular⟩ := caches_sound defaults asciiUnicode
    (siteOf ⟨200, true, some 1000, 1000, none⟩) seconds_mono twice
  refine ⟨s, hrun, hregular (regular_of_declared (fun url reply hanswer => ?_) twice)⟩
  cases hanswer
  rfl

/-- The log of the two fetches, where 100 compressed bytes are declared and 1000 are read. -/
theorem log_of_compressed :
    (run defaults asciiUnicode (siteOf ⟨200, true, some 100, 1000, none⟩) seconds twice).map
        Fetcher.log =
      some [.sent annualReport (some 500) 0, .refused annualReport 500 1,
        .sent annualReport (some 500) 3, .refused annualReport 500 4] := by
  decide +kernel

/-- **The compressed report is fetched again, although it was refused two seconds before.** -/
theorem compressed_is_resent :
    ∃ s, run defaults asciiUnicode (siteOf ⟨200, true, some 100, 1000, none⟩) seconds twice =
      some s ∧ ¬ NotResent s.log := by
  obtain ⟨s, hrun, hlog⟩ := Option.map_eq_some_iff.mp log_of_compressed
  refine ⟨s, hrun, fun hnot => ?_⟩
  rw [hlog] at hnot
  have hpending : Pending
      [.sent annualReport (some 500) 0, .refused annualReport 500 1] annualReport 500 1 :=
    ⟨[.sent annualReport (some 500) 0], _, [], rfl, rfl, fun _ hlater =>
      (List.not_mem_nil hlater).elim⟩
  have hage := hnot [.sent annualReport (some 500) 0, .refused annualReport 500 1]
    (.sent annualReport (some 500) 3) [.refused annualReport 500 4] rfl 500 1 hpending le_rfl
  unfold oversizeCacheTtlSeconds at hage
  norm_num at hage

end InvestmentPlatform.Evidence.FetchCaches
