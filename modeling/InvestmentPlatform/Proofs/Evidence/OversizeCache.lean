/-
What a fetcher knows to be too large.

An entry stands for a refusal: the site's answer for its URL was refused for its size, with the
declared length and the limit that the entry holds.  As the answer does not change, what the entry
refuses the site's answer is refused for as well.

The other direction is about the log.  A refusal is pending until its URL is evicted.  While it is
not too old, a pending refusal is answered for by the entry of its URL: the entry refuses every
limit up to the refused one.  A refusal that is recorded keeps this, unless the entry it leaves
refuses less than the refusal or than the entry it replaces.
-/
import InvestmentPlatform.Lib.Machine
import InvestmentPlatform.Proofs.Evidence.FetchNetwork
import Mathlib.Algebra.Order.BigOperators.Group.List

namespace InvestmentPlatform.Evidence.FetchCaches

open UrlText (Text Unicode)
open FetchNetwork Option Dict
open History

variable {settings : Settings} {unicode : Unicode} {site : Site} {clock : Nat → ℚ}
  {maxBytes : Option Nat} {url : Text} {oversize : Dict Text Oversize} {readings : Nat}
  {log : List Event} {s : Fetcher}

/-! ### Refusals -/

variable {length : Option Nat} {limit : Nat}

/-- What a refusal for its size says of a reply: it is too large for every limit for which it
declares or has too many bytes. -/
theorem refused_oversize {reply : Reply}
    (h : reply.refused maxBytes = some (.oversize length limit)) :
    reply.contentLength = length ∧ (length.any (limit < ·) ∨ limit < reply.bodyBytes) ∧
      (∀ given, maxBytes = some given → given = limit) ∧
      ∀ limit', length.any (limit' < ·) ∨ limit' < reply.bodyBytes →
        reply.refused (some limit') = some (.oversize length limit') := by
  unfold Reply.refused at h
  dsimp only at h
  split at h
  · cases h
  · rename_i hrestricted
    split at h
    · cases h
    · rename_i hstatus
      split at h
      · cases h
      · rename_i effective heffective
        split at h
        · rename_i hlarge
          cases h
          refine ⟨rfl, hlarge, fun given hgiven => ?_, fun limit' hlarge' => ?_⟩
          · rw [hgiven, if_neg (fun hnone => nomatch hnone.1)] at heffective
            exact some.inj heffective
          · unfold Reply.refused
            dsimp only
            rw [if_neg hrestricted, if_neg hstatus, if_neg (fun hnone => nomatch hnone.1)]
            exact if_pos hlarge'
        · cases h

/-- Where an attempt settles the outcome, it is the only one. -/
theorem retry_settled {A R S : Type} {attempt : S → A × S} {settled : A → Option R}
    {exhausted : A → R} {s : S} {r : R} (h : settled (attempt s).1 = some r) (left : Nat) :
    retry attempt settled exhausted left s = (r, (attempt s).2) := by
  cases left with
  | zero => rw [retry, h, getD_some]
  | succ left => rw [retry, h]

/-- Where no attempt settles the outcome, the last one is what it comes to. -/
theorem retry_exhausted {A R S : Type} {attempt : S → A × S} {settled : A → Option R}
    {exhausted : A → R} {a : A} (ha : ∀ s, (attempt s).1 = a) (h : settled a = none) (left : Nat)
    (s : S) : (retry attempt settled exhausted left s).1 = exhausted a := by
  induction left generalizing s with
  | zero => rw [retry, ha, h, getD_none]
  | succ left ih =>
    rw [retry, ha, h]
    exact ih (attempt s).2

theorem settled_refused {reply : Reply} {error : FetchError}
    (h : reply.refused maxBytes = some error) :
    settled maxBytes (.ok reply) = some (.error error) := by
  rw [settled, h]

/-- A request that comes to a refusal for its size was a single one, and the site's reply was
refused. -/
theorem requestWithRetries_oversize (h : (requestWithRetries settings site clock maxBytes url s).1 =
      .error (.oversize length limit)) :
    (∃ reply, site.answer url = .ok reply ∧
        reply.refused maxBytes = some (.oversize length limit)) ∧
      (requestWithRetries settings site clock maxBytes url s).2 =
        (send site clock maxBytes url s).2 := by
  unfold requestWithRetries at h ⊢
  cases hsettled : settled maxBytes (site.answer url) with
  | none =>
    rw [retry_exhausted (a := site.answer url) (fun _ => rfl) hsettled] at h
    cases hanswer : site.answer url with
    | error timedOut =>
      rw [hanswer, exhausted] at h
      cases h
    | ok reply =>
      rw [hanswer, exhausted] at h
      cases h
  | some result =>
    have hone : retry (send site clock maxBytes url) (settled maxBytes) exhausted
        settings.researchMaxRetries s = (result, (send site clock maxBytes url s).2) :=
      retry_settled hsettled settings.researchMaxRetries
    rw [hone] at h ⊢
    refine ⟨?_, rfl⟩
    cases hanswer : site.answer url with
    | error timedOut =>
      rw [hanswer, settled] at hsettled
      cases hsettled
    | ok reply =>
      refine ⟨reply, rfl, ?_⟩
      rw [hanswer, settled] at hsettled
      split at hsettled
      · rename_i error herror
        cases some.inj hsettled
        rw [herror]
        exact congrArg some (Except.error.inj h)
      · split at hsettled
        · cases some.inj hsettled
          cases h
        · cases hsettled

/-! ### What an entry stands for -/

/-- The entry is what some refusal of the site's reply left. -/
def Justified (site : Site) (url : Text) (entry : Oversize) : Prop :=
  ∃ reply maxBytes, site.answer url = .ok reply ∧
    reply.refused maxBytes = some (.oversize entry.contentLength entry.maxBytes)

/-- Every entry is justified. -/
def Known (site : Site) (oversize : Dict Text Oversize) : Prop :=
  ∀ url entry, oversize.get? url = some entry → Justified site url entry

/-- A request for the URL with that limit is refused for its size, whenever it is made. -/
def TooLarge (settings : Settings) (site : Site) (clock : Nat → ℚ) (url : Text) (limit : Nat) :
    Prop :=
  ∀ s, ∃ length,
    (requestWithRetries settings site clock (some limit) url s).1 =
      .error (.oversize length limit)

theorem Justified.tooLarge {entry : Oversize} (h : Justified site url entry)
    (hverdict : entry.verdict limit ≠ none) : TooLarge settings site clock url limit := by
  obtain ⟨reply, maxBytes, hanswer, hrefused⟩ := h
  obtain ⟨-, hlarge, -, hagain⟩ := refused_oversize hrefused
  have hlimit : entry.contentLength.any (limit < ·) ∨ limit < reply.bodyBytes := by
    unfold Oversize.verdict at hverdict
    cases hlength : entry.contentLength with
    | some length =>
      rw [hlength] at hverdict
      refine Or.inl (decide_eq_true ?_)
      by_contra hnot
      exact hverdict (if_neg hnot)
    | none =>
      rw [hlength] at hverdict hlarge
      have hbody : entry.maxBytes < reply.bodyBytes := hlarge.resolve_left Bool.false_ne_true
      refine Or.inr (lt_of_le_of_lt ?_ hbody)
      by_contra hnot
      exact hverdict (if_neg hnot)
  intro s
  refine ⟨entry.contentLength, ?_⟩
  have hsettled : settled (some limit) (send site clock (some limit) url s).1 =
      some (.error (.oversize entry.contentLength limit)) := by
    show settled (some limit) (site.answer url) = _
    rw [hanswer]
    exact settled_refused (hagain limit hlimit)
  exact congrArg Prod.fst (retry_settled hsettled settings.researchMaxRetries)

/-! ### The record -/

/-- What the record of a refusal comes to, by what it is before any entry is evicted and what an
eviction keeps. -/
theorem record_keeps {I : Dict Text Oversize → List Event → Prop}
    (hstart : I (s.oversize.setLast url ⟨clock s.readings, length, limit⟩)
      (s.log ++ [.refused url limit (clock s.readings)]))
    (hdrop : ∀ oversize log item rest, oversize.items = item :: rest → I oversize log →
      I oversize.tail (log ++ [.evicted item.1])) :
    I (recordKnownOversize clock url length limit s).oversize
      (recordKnownOversize clock url length limit s).log := by
  refine (evict_spec _ _ hdrop (fun oversize _ hitems _ => ?_) hstart).1
  rw [Dict.size, hitems]
  rfl

theorem Known.tail {item : Text × Oversize} {rest : List (Text × Oversize)}
    (h : Known site oversize) (hitems : oversize.items = item :: rest) :
    Known site oversize.tail := by
  intro url entry hget
  rw [get?_tail hitems] at hget
  split at hget
  · cases hget
  · exact h url entry hget

theorem Known.setLast {entry : Oversize} (h : Known site oversize)
    (hentry : Justified site url entry) : Known site (oversize.setLast url entry) := by
  intro url' entry' hget
  rw [get?_setLast] at hget
  split at hget
  · rename_i hsame
    cases hget
    exact hsame ▸ hentry
  · exact h url' entry' hget

variable (clock maxBytes url) in
theorem Known.check (h : Known site s.oversize) :
    Known site (raiseIfKnownOversize clock url maxBytes s).2.oversize := by
  unfold raiseIfKnownOversize
  split
  · exact h
  · split
    · exact h
    · rename_i entry hget
      split
      · intro url' entry' hget'
        rw [get?_pop] at hget'
        split at hget'
        · cases hget'
        · exact h url' entry' hget'
      · exact h.setLast (h url entry hget)

theorem Known.record (h : Known site s.oversize)
    (hentry : Justified site url ⟨clock s.readings, length, limit⟩) :
    Known site (recordKnownOversize clock url length limit s).oversize :=
  record_keeps (I := fun oversize _ => Known site oversize) (h.setLast hentry)
    fun _ _ _ _ hitems hknown => hknown.tail hitems

end InvestmentPlatform.Evidence.FetchCaches

/-!
The byte cache of PDFs.

Its counter is the sum of the lengths of the bodies it holds, and both are within bounds whenever a
call is over.  A body is in it because it was stored, under the canonical form of its own URL and at
the time that stands beside it; so what it gives for a URL was stored not long ago, under the same
canonical URL.
-/

namespace InvestmentPlatform.Evidence.FetchCaches

open UrlText (Text Unicode)
open FetchNetwork
open History

variable {settings : Settings} {unicode : Unicode} {site : Site} {clock : Nat → ℚ}
  {pdfs : Dict Text (ℚ × Response)} {pdfBytes : ℤ} {log : List Event} {s : Fetcher}

/-- A body that is given for a URL was stored before, less than the time to live ago, and the two
URLs have one canonical form. -/
def Fresh (site : Site) (past : List Event) : Event → Prop
  | .served url response time =>
    ∃ key storedAt, site.canonicalize url = some key ∧
      site.canonicalize response.finalUrl = some key ∧
      .stored response storedAt ∈ past ∧ time - storedAt < pdfByteCacheTtlSeconds
  | _ => True

/-- Every body that was given was fresh. -/
def FreshlyServed (site : Site) (log : List Event) : Prop := Always (Fresh site) log

/-- The counter and the items are what they should be. -/
structure Counted (pdfs : Dict Text (ℚ × Response)) (pdfBytes : ℤ) : Prop where
  counted : pdfBytes = pdfs.weight bodySize
  bytes : pdfBytes ≤ pdfByteCacheMaxBytes
  entries : pdfs.size ≤ pdfByteCacheMax

structure Cached (site : Site) (pdfs : Dict Text (ℚ × Response)) (pdfBytes : ℤ)
    (log : List Event) : Prop extends Counted pdfs pdfBytes where
  /-- What is held was stored. -/
  stored : ∀ key saved, pdfs.get? key = some saved →
    site.canonicalize saved.2.finalUrl = some key ∧ .stored saved.2 saved.1 ∈ log
  served : FreshlyServed site log

/-! ### Nothing else touches it -/

theorem cached_start : Cached site Dict.empty 0 [] where
  counted := rfl
  bytes := by decide
  entries := by decide
  stored key saved hget := by cases hget
  served := always_nil

/-- An event that gives no body. -/
theorem Cached.event {e : Event} (h : Cached site pdfs pdfBytes log)
    (he : ∀ url response time, e ≠ .served url response time) :
    Cached site pdfs pdfBytes (log ++ [e]) where
  toCounted := h.toCounted
  stored key saved hget :=
    ⟨(h.stored key saved hget).1, List.mem_append_left [e] (h.stored key saved hget).2⟩
  served := by
    refine always_concat.mpr ⟨h.served, ?_⟩
    cases e with
    | served url response time => exact absurd rfl (he url response time)
    | sent => trivial
    | refused => trivial
    | evicted => trivial
    | stored => trivial

/-! ### A body is looked up -/

theorem Cached.purge {gone : ℚ × Response → Bool} (h : Cached site pdfs pdfBytes log) :
    Cached site (pdfs.purge gone bodySize pdfBytes).1 (pdfs.purge gone bodySize pdfBytes).2
      log := by
  obtain ⟨hitems, hcount⟩ := Dict.purge_spec bodySize gone pdfs pdfBytes
  have hcounted := h.counted
  have hless : (pdfs.purge gone bodySize pdfBytes).1.weight bodySize ≤ pdfs.weight bodySize := by
    rw [Dict.weight, Dict.weight, hitems]
    refine List.Sublist.sum_le_sum (List.filter_sublist.map _) fun size hsize => ?_
    obtain ⟨item, -, rfl⟩ := List.mem_map.mp hsize
    exact Int.natCast_nonneg _
  have hshort : (pdfs.purge gone bodySize pdfBytes).1.size ≤ pdfs.size := by
    rw [Dict.size, Dict.size, hitems]
    exact List.length_filter_le _ _
  have hbytes := h.bytes
  have hentries := h.entries
  refine ⟨⟨by omega, by omega, by omega⟩, fun key saved hget => ?_, h.served⟩
  exact h.stored key saved ((Dict.get?_purge gone pdfs pdfBytes key saved).mp hget).1

theorem Cached.setLast {key : Text} {saved : ℚ × Response} (h : Cached site pdfs pdfBytes log)
    (hget : pdfs.get? key = some saved) :
    Cached site (pdfs.setLast key saved) pdfBytes log where
  counted := by
    rw [Dict.weight_setLast, hget, Option.elim_some, h.counted]
    omega
  bytes := h.bytes
  entries := by
    rw [Dict.size_setLast_of_get? hget]
    exact h.entries
  stored key' saved' hget' := by
    rw [Dict.get?_setLast_of_get? hget] at hget'
    exact h.stored key' saved' hget'
  served := h.served

theorem cached_cachedPdfResponse (url : Text) (h : Cached site s.pdfs s.pdfBytes s.log) :
    Cached site (cachedPdfResponse site clock url s).2.pdfs
      (cachedPdfResponse site clock url s).2.pdfBytes
      (cachedPdfResponse site clock url s).2.log := by
  unfold cachedPdfResponse
  cases hkey : site.canonicalize url with
  | none => exact h
  | some key =>
    dsimp only
    split
    · exact h.purge
    · rename_i saved hget
      have hkept := (Dict.get?_purge _ _ _ _ _).mp hget
      have hlast := h.purge.setLast hget
      refine ⟨hlast.toCounted, fun key' saved' hget' => ?_, ?_⟩
      · obtain ⟨hcanonical, hmem⟩ := hlast.stored key' saved' hget'
        exact ⟨hcanonical, List.mem_append_left _ hmem⟩
      · refine always_concat.mpr ⟨h.served, ?_⟩
        obtain ⟨hcanonical, hmem⟩ := h.stored key saved hkept.1
        have hfresh := of_decide_eq_false hkept.2
        exact ⟨key, saved.1, hkey, hcanonical, hmem, not_le.mp hfresh⟩

/-! ### A body is stored -/

/-- What holds of the cache while it makes room: all but the bounds. -/
structure Filled (site : Site) (log : List Event) (pdfs : Dict Text (ℚ × Response))
    (pdfBytes : ℤ) : Prop where
  counted : pdfBytes = pdfs.weight bodySize
  stored : ∀ key saved, pdfs.get? key = some saved →
    site.canonicalize saved.2.finalUrl = some key ∧ .stored saved.2 saved.1 ∈ log

theorem Filled.tail {item : Text × (ℚ × Response)} {rest : List (Text × (ℚ × Response))}
    (hitems : pdfs.items = item :: rest) (h : Filled site log pdfs pdfBytes) :
    Filled site log pdfs.tail (pdfBytes - bodySize item.2) where
  counted := by rw [Dict.weight_tail hitems, h.counted]
  stored key saved hget := by
    rw [Dict.get?_tail hitems] at hget
    split at hget
    · cases hget
    · exact h.stored key saved hget

/-- An empty cache does not hold too much. -/
theorem Filled.not_tooMuch (hitems : pdfs.items = []) (h : Filled site log pdfs pdfBytes) :
    tooMuch pdfs pdfBytes = false := by
  have hbytes : pdfBytes = 0 := by rw [h.counted, Dict.weight, hitems, Buckets.total_nil]
  have hsize : pdfs.size = 0 := by rw [Dict.size, hitems, List.length_nil]
  rw [tooMuch, hbytes, hsize]
  rfl

variable (clock) in
theorem cached_cachePdfResponse (response : Response) (h : Cached site s.pdfs s.pdfBytes s.log) :
    ∃ s', cachePdfResponse site clock response s = some s' ∧
      Cached site s'.pdfs s'.pdfBytes s'.log := by
  unfold cachePdfResponse
  split
  · exact ⟨s, rfl, h⟩
  · cases hkey : site.canonicalize response.finalUrl with
    | none => exact ⟨s, rfl, h⟩
    | some key =>
      dsimp only
      have hfilled : Filled site (s.log ++ [.stored response (clock s.readings)])
          (s.pdfs.setLast key (clock s.readings, response))
          (s.pdfBytes - (s.pdfs.get? key).elim 0 bodySize + response.content.length) := by
        refine ⟨?_, fun key' saved hget => ?_⟩
        · rw [Dict.weight_setLast, h.counted]
          rfl
        · rw [Dict.get?_setLast] at hget
          split at hget
          · rename_i hsame
            cases hget
            refine ⟨hsame ▸ hkey, List.mem_append_right _ (List.mem_singleton_self _)⟩
          · obtain ⟨hcanonical, hmem⟩ := h.stored key' saved hget
            exact ⟨hcanonical, List.mem_append_left _ hmem⟩
      obtain ⟨hkept, hfits⟩ := Dict.evict_spec tooMuch
        (fun pdfBytes item => pdfBytes - bodySize item.2)
        (I := Filled site (s.log ++ [.stored response (clock s.readings)]))
        (fun _ _ _ _ hitems hfilled => hfilled.tail hitems)
        (fun _ _ hitems hfilled => hfilled.not_tooMuch hitems) hfilled
      rw [hfits, if_neg Bool.false_ne_true]
      refine ⟨_, rfl, ⟨hkept.counted, ?_, ?_⟩, hkept.stored, ?_⟩
      · exact not_lt.mp (of_decide_eq_false (Bool.or_eq_false_iff.mp hfits).1)
      · exact not_lt.mp (of_decide_eq_false (Bool.or_eq_false_iff.mp hfits).2)
      · exact always_concat.mpr ⟨h.served, trivial⟩

end InvestmentPlatform.Evidence.FetchCaches
