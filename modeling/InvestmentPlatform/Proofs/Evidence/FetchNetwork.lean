/-
Which addresses a fetch connects to.

Every request of a fetch goes to a URL that the guard has accepted.  The guard has read the host of
that URL, so where the host is an address, the address is not blocked.  Where it is a name, or a
spelling of an address that only the resolver knows, the guard has read nothing about the address.
-/
import InvestmentPlatform.Evidence.FetchNetwork

namespace InvestmentPlatform.Evidence.FetchNetwork

open Option List

open UrlText (Text Unicode urlsplit)

variable {settings : Settings} {unicode : Unicode} {world : World} {maxBytes : Option Nat}
  {url host : Text} {ip ip' : IpAddress} {log : Log}

/-! ### What the guard has read -/

def Accepted (unicode : Unicode) (url : Text) : Prop := validatePublicHttpUrl unicode url = .ok ()

/-- The host of an accepted URL is no blocked address. -/
theorem Accepted.not_blocked (h : Accepted unicode url) (hhost : hostOf unicode url = some host)
    (hip : IpAddress.ofText host = some ip) : isBlockedIp ip = false := by
  unfold Accepted validatePublicHttpUrl at h
  unfold hostOf at hhost
  cases hsplit : urlsplit unicode url with
  | none =>
    rw [hsplit] at hhost
    cases hhost
  | some split =>
    rw [hsplit] at h hhost
    rw [bind_some] at hhost
    dsimp only at h
    split at h
    · cases h
    · cases hname : split.hostname unicode with
      | none =>
        rw [hname] at hhost
        cases hhost
      | some hostname =>
        rw [hname] at h hhost
        rw [map_some] at hhost
        dsimp only at h
        rw [some.inj hhost] at h
        split at h
        · cases h
        · rw [hip] at h
          dsimp only at h
          split at h
          · cases h
          · rename_i hblocked
            exact Bool.eq_false_iff.mpr hblocked

/-! ### Where the requests go -/

/-- The resolver gives the address for the host of the URL at some request. -/
def Asked (unicode : Unicode) (world : World) (url : Text) (ip : IpAddress) : Prop :=
  ∃ n host, hostOf unicode url = some host ∧ world.resolve n host = some ip

theorem asked_of_send (hip : ip ∈ (send unicode world url log).2.sent) :
    ip ∈ log.sent ∨ Asked unicode world url ip := by
  unfold send at hip
  split at hip
  · exact Or.inl hip
  · rename_i ip' hresolve
    rcases mem_append.mp hip with hold | hnew
    · exact Or.inl hold
    · obtain ⟨host, hhost, hip'⟩ := bind_eq_some_iff.mp hresolve
      rw [mem_singleton.mp hnew]
      exact Or.inr ⟨log.requests, host, hhost, hip'⟩

theorem sent_send (hip : ip ∈ log.sent) : ip ∈ (send unicode world url log).2.sent := by
  unfold send
  split
  · exact hip
  · exact mem_append_left _ hip

/-- What the attempts keep of a state, all of them together keep. -/
theorem retry_keeps {A R S : Type} {attempt : S → A × S} {settled : A → Option R}
    {exhausted : A → R} {p : S → Prop} (hkeep : ∀ s, p s → p (attempt s).2) (left : Nat) (s : S)
    (h : p (attempt s).2) : p (retry attempt settled exhausted left s).2 := by
  induction left generalizing s with
  | zero => exact h
  | succ left ih =>
    rw [retry]
    split
    · exact h
    · exact ih _ (hkeep _ h)

/-- What the retries connect to, whatever comes back. -/
theorem asked_of_requestWithRetries (left : Nat)
    (hip : ip ∈ (requestWithRetries unicode world maxBytes url left log).2.sent) :
    ip ∈ log.sent ∨ Asked unicode world url ip := by
  by_contra hnot
  rw [not_or] at hnot
  have hkeep : ∀ log' : Log, ip ∉ log'.sent → ip ∉ (send unicode world url log').2.sent :=
    fun log' hold hsent => (asked_of_send hsent).elim hold hnot.2
  exact retry_keeps hkeep left log (hkeep log hnot.1) hip

theorem sent_requestWithRetries (left : Nat) (hip : ip ∈ (send unicode world url log).2.sent) :
    ip ∈ (requestWithRetries unicode world maxBytes url left log).2.sent :=
  retry_keeps (p := fun log' => ip ∈ log'.sent) (fun _ => sent_send) left log hip

theorem accepted_of_redirectTarget {left : Nat} {reply : Reply} {target : Text}
    (h : redirectTarget unicode world left url reply = .ok (some target)) :
    Accepted unicode target := by
  unfold redirectTarget at h
  split at h
  · split at h
    · cases h
    · split at h
      · cases h
      · cases h
      · split at h
        · cases h
        · split at h
          · cases h
          · rename_i hguard
            cases h
            exact hguard
  · cases h

/-- A round of the loop: it ends before the request or after it, or it goes on to a target that
the guard has accepted. -/
theorem followRedirects_cases (left : Nat) (url : Text) (log : Log) :
    (maxBytes.bind (world.knownOversize url) ≠ none ∧
      (followRedirects settings unicode world maxBytes left url log).2 = log) ∨
    (followRedirects settings unicode world maxBytes left url log).2 =
      (requestWithRetries unicode world maxBytes url settings.researchMaxRetries log).2 ∨
    ∃ left' target, left = left' + 1 ∧ Accepted unicode target ∧
      followRedirects settings unicode world maxBytes left url log =
        followRedirects settings unicode world maxBytes left' target
          (requestWithRetries unicode world maxBytes url settings.researchMaxRetries log).2 := by
  rw [followRedirects]
  cases hknown : maxBytes.bind (world.knownOversize url) with
  | some error => exact Or.inl ⟨nofun, rfl⟩
  | none =>
    refine Or.inr ?_
    dsimp only
    obtain ⟨outcome, log'⟩ :=
      requestWithRetries unicode world maxBytes url settings.researchMaxRetries log
    cases outcome with
    | error error => exact Or.inl rfl
    | ok reply =>
      dsimp only
      cases htarget : redirectTarget unicode world left url reply with
      | error error => exact Or.inl rfl
      | ok next =>
        cases next with
        | none => exact Or.inl rfl
        | some target =>
          cases left with
          | zero => exact Or.inl rfl
          | succ left' =>
            exact Or.inr ⟨left', target, rfl, accepted_of_redirectTarget htarget, rfl⟩

/-- Every hop goes to a URL that the guard has accepted. -/
theorem asked_of_followRedirects (left : Nat) (haccepted : Accepted unicode url)
    (hip : ip ∈ (followRedirects settings unicode world maxBytes left url log).2.sent) :
    ip ∈ log.sent ∨ ∃ url', Accepted unicode url' ∧ Asked unicode world url' ip := by
  have hround : ∀ {url' log'}, Accepted unicode url' →
      ip ∈ (requestWithRetries unicode world maxBytes url' settings.researchMaxRetries
        log').2.sent →
      ip ∈ log'.sent ∨ ∃ url', Accepted unicode url' ∧ Asked unicode world url' ip :=
    fun haccepted' hsent => (asked_of_requestWithRetries _ hsent).imp_right fun hasked =>
      ⟨_, haccepted', hasked⟩
  induction left generalizing url log with
  | zero =>
    rcases followRedirects_cases 0 url log with ⟨-, hsame⟩ | hlast | ⟨left', target, hleft, -⟩
    · exact Or.inl (hsame ▸ hip)
    · exact hround haccepted (hlast ▸ hip)
    · cases hleft
  | succ left ih =>
    rcases followRedirects_cases (left + 1) url log with
      ⟨-, hsame⟩ | hlast | ⟨left', target, hleft, htarget, hnext⟩
    · exact Or.inl (hsame ▸ hip)
    · exact hround haccepted (hlast ▸ hip)
    · cases hleft
      rw [hnext] at hip
      exact (ih htarget hip).elim (hround haccepted) Or.inr

/-- What was connected to stays in the log. -/
theorem sent_followRedirects (left : Nat) (hip : ip ∈ log.sent) :
    ip ∈ (followRedirects settings unicode world maxBytes left url log).2.sent := by
  have hround : ∀ {url' log'}, ip ∈ log'.sent →
      ip ∈ (requestWithRetries unicode world maxBytes url' settings.researchMaxRetries
        log').2.sent := fun hsent => sent_requestWithRetries _ (sent_send hsent)
  induction left generalizing url log with
  | zero =>
    rcases followRedirects_cases 0 url log with ⟨-, hsame⟩ | hlast | ⟨left', target, hleft, -⟩
    · rw [hsame]
      exact hip
    · rw [hlast]
      exact hround hip
    · cases hleft
  | succ left ih =>
    rcases followRedirects_cases (left + 1) url log with
      ⟨-, hsame⟩ | hlast | ⟨left', target, hleft, -, hnext⟩
    · rw [hsame]
      exact hip
    · rw [hlast]
      exact hround hip
    · cases hleft
      rw [hnext]
      exact ih (hround hip)

/-- The first request of a fetch without a limit is made. -/
theorem sent_fetchNetwork (haccepted : Accepted unicode url) (n : Nat)
    (hhost : hostOf unicode url = some host) (hip : world.resolve n host = some ip) :
    ip ∈ (fetchNetwork settings unicode world none n url).2.sent := by
  have hsend : ip ∈ (send unicode world url ⟨n, []⟩).2.sent := by
    rw [send, hhost, bind_some, hip]
    exact mem_singleton.mpr rfl
  have hround : ip ∈ (requestWithRetries unicode world none url settings.researchMaxRetries
      ⟨n, []⟩).2.sent := sent_requestWithRetries settings.researchMaxRetries hsend
  rw [fetchNetwork, haccepted]
  dsimp only
  rcases followRedirects_cases settings.researchMaxRedirects url ⟨n, []⟩ with
    ⟨hknown, -⟩ | hlast | ⟨left', target, -, -, hnext⟩
  · exact absurd (bind_none _) hknown
  · rw [hlast]
    exact hround
  · rw [hnext]
    exact sent_followRedirects left' hround

/-! ### What is asked for -/

/-- No fetch connects to a blocked address, wherever it begins and whatever it is answered. -/
def Safe (settings : Settings) (unicode : Unicode) (world : World) : Prop :=
  ∀ maxBytes n url, ∀ ip ∈ (fetchNetwork settings unicode world maxBytes n url).2.sent,
    isBlockedIp ip = false

/-- The host that is no address, of a URL that the guard lets through. -/
def Named (unicode : Unicode) (host : Text) : Prop :=
  IpAddress.ofText host = none ∧ ∃ url, Accepted unicode url ∧ hostOf unicode url = some host

/-- **No fetch connects to a blocked address exactly where the resolver never gives one for a name
that the guard lets through.** -/
theorem safe_iff
    (hliteral : ∀ n host ip ip', IpAddress.ofText host = some ip →
      world.resolve n host = some ip' → ip' = ip) :
    Safe settings unicode world ↔
      ∀ n host ip, Named unicode host → world.resolve n host = some ip →
        isBlockedIp ip = false := by
  constructor
  · rintro hsafe n host ip ⟨-, url, haccepted, hhost⟩ hip
    exact hsafe none n url ip (sent_fetchNetwork haccepted n hhost hip)
  · intro hnames maxBytes n url ip hip
    unfold fetchNetwork at hip
    split at hip
    · exact absurd hip List.not_mem_nil
    · rename_i haccepted
      rcases asked_of_followRedirects _ haccepted hip with hnil | ⟨url', haccepted', hasked⟩
      · exact absurd hnil List.not_mem_nil
      · obtain ⟨m, host, hhost, hresolve⟩ := hasked
        cases hname : IpAddress.ofText host with
        | none => exact hnames m host ip ⟨hname, url', haccepted', hhost⟩ hresolve
        | some literal =>
          rw [hliteral m host literal ip hname hresolve]
          exact haccepted'.not_blocked hhost hname

/-! ### A host that only the resolver reads as an address -/

/-- What Unicode says of the hosts below, which are ASCII. -/
def asciiUnicode : Unicode := ⟨fun text => text.map Char.toLower, id⟩

def defaults : Settings := ⟨5, 2⟩

/-- A world in which every host but an address has the given one, and every page is there. -/
def webOf (named : IpAddress) : World where
  resolve _ host := some ((IpAddress.ofText host).getD named)
  answer _ _ := .ok { statusCode := 200 }
  join _ location := some location
  knownOversize _ _ := none

theorem webOf_literal (named : IpAddress) (n : Nat) (host : Text) (ip ip' : IpAddress)
    (hip : IpAddress.ofText host = some ip) (hresolve : (webOf named).resolve n host = some ip') :
    ip' = ip := by
  have hsome : (IpAddress.ofText host).getD named = ip' := some.inj hresolve
  rw [hip] at hsome
  exact hsome.symm

/-- The law at work: all names are at `93.184.216.34`. -/
theorem safe_iff_sample : Safe defaults asciiUnicode (webOf (.v4 0x5db8d822)) :=
  (safe_iff (webOf_literal _)).mpr fun n host ip hnamed hresolve => by
    have hsome : (IpAddress.ofText host).getD (.v4 0x5db8d822) = ip := Option.some.inj hresolve
    rw [hnamed.1, Option.getD_none] at hsome
    rw [← hsome]
    decide

/-- **The guard lets `127.1` through, and the resolver reads it as the loopback address.** -/
theorem abbreviated_loopback :
    (∀ n host ip ip', IpAddress.ofText host = some ip →
      (webOf (.v4 0x7f000001)).resolve n host = some ip' → ip' = ip) ∧
    Accepted asciiUnicode "http://127.1/".toList ∧
    (fetchNetwork defaults asciiUnicode (webOf (.v4 0x7f000001)) none 0
      "http://127.1/".toList).2.sent = [.v4 0x7f000001] ∧
    isBlockedIp (.v4 0x7f000001) = true :=
  ⟨webOf_literal _, rfl, by decide, by decide⟩

end InvestmentPlatform.Evidence.FetchNetwork
