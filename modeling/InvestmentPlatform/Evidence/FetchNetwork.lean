/-
`validate_public_http_url` of `app/url_security.py`, and the requests that
`HttpResearchFetcher.fetch_network` sends.

The guard is asked about the URL that a fetch begins with and about the target of every redirect.
The client connects to the address that its resolver gives for the host of a URL; it follows no
redirect by itself.  Requests are counted, so that the resolver may answer every one differently.
-/
import InvestmentPlatform.Lib.OrderedDict
import InvestmentPlatform.Lib.UrlText
import Mathlib.Algebra.Order.Ring.Rat

namespace InvestmentPlatform.Evidence.FetchNetwork

open UrlText (Text Unicode urlsplit)

/-! ### The guard -/

def blockedHosts : List Text := ["localhost".toList, "metadata.google.internal".toList]

/-- `BLOCKED_IPS`: `169.254.169.254` and `100.100.100.200`. -/
def blockedIps : List IpAddress := [.v4 0xa9fea9fe, .v4 0x646464c8]

def isBlockedIp (ip : IpAddress) : Bool :=
  ip ∈ blockedIps || ip.isPrivate || ip.isLoopback || ip.isLinkLocal || ip.isMulticast ||
    ip.isReserved || ip.isUnspecified

/-- The host of a URL, as the guard reads it. -/
def hostOf (unicode : Unicode) (url : Text) : Option Text :=
  (urlsplit unicode url).bind fun split => (split.hostname unicode).map unicode.lower

/-- `validate_public_http_url` with `resolve_dns` at its default, which every caller keeps. -/
def validatePublicHttpUrl (unicode : Unicode) (url : Text) : Except String Unit :=
  match urlsplit unicode url with
  | none => .error "ValueError"
  | some split =>
    if split.scheme ≠ "http".toList ∧ split.scheme ≠ "https".toList then
      .error "Only http and https URLs are permitted"
    else
      match split.hostname unicode with
      | none => .error "URL host is required"
      | some hostname =>
        let host := unicode.lower hostname
        if blockedHosts.any (· = host) ∨ ".localhost".toList.isSuffixOf host then
          .error "Localhost and metadata hosts are not permitted"
        else
          match IpAddress.ofText host with
          | none => .ok ()
          | some ip =>
            if isBlockedIp ip then
              .error "Private, local, link-local, multicast, and metadata IPs are not permitted"
            else .ok ()

/-! ### The fetch -/

structure Settings where
  researchMaxRedirects : Nat
  researchMaxRetries : Nat

/-- What the server answers to one request. -/
structure Reply where
  statusCode : Nat
  isPdf : Bool := false
  contentLength : Option Nat := none
  bodyBytes : Nat := 0
  location : Option Text := none
  deriving DecidableEq, Repr

inductive FetchError
  | unsafeUrl (message : String)
  | restricted (statusCode : Nat)
  | httpStatus (statusCode : Nat)
  | oversize (contentLength : Option Nat) (maxBytes : Nat)
  /-- `"Fetch timed out"` or `"Fetch transport failed"`. -/
  | transport (timedOut : Bool)
  | fetch (message : String)
  deriving DecidableEq, Repr

/-- What the fetch finds outside. -/
structure World where
  /-- The address for a host when the `n`-th request is made. -/
  resolve : Nat → Text → Option IpAddress
  /-- What comes back; or that it timed out, or that the transport failed. -/
  answer : Nat → Text → Except Bool Reply
  /-- `httpx.URL(final_url).join(location)`, `none` where it raises. -/
  join : Text → Text → Option Text
  /-- `_raise_if_known_oversize`, as its record stands when the fetch begins. -/
  knownOversize : Text → Nat → Option FetchError

/-- The requests that were made, and the addresses that were connected to. -/
structure Log where
  requests : Nat
  sent : List IpAddress
  deriving DecidableEq, Repr

def pdfDocumentMaxBytes : Nat := 32 * 1024 * 1024

/-- Attempts until one settles the outcome, and what the last one comes to. -/
def retry {A R S : Type} (attempt : S → A × S) (settled : A → Option R) (exhausted : A → R) :
    Nat → S → R × S
  | 0, s => ((settled (attempt s).1).getD (exhausted (attempt s).1), (attempt s).2)
  | left + 1, s =>
    match settled (attempt s).1 with
    | some result => (result, (attempt s).2)
    | none => retry attempt settled exhausted left (attempt s).2

section

variable (settings : Settings) (unicode : Unicode) (world : World) (maxBytes : Option Nat)

/-- One `client.stream("GET", url)`.  A host without an address is a `ConnectError`. -/
def send (url : Text) (log : Log) : Except Bool Reply × Log :=
  match (hostOf unicode url).bind (world.resolve log.requests) with
  | none => (.error false, { log with requests := log.requests + 1 })
  | some ip =>
    (world.answer log.requests url, ⟨log.requests + 1, log.sent ++ [ip]⟩)

/-- What is raised for a reply before it is taken for a result. -/
def Reply.refused (reply : Reply) : Option FetchError :=
  let effectiveMaxBytes :=
    if maxBytes = none ∧ reply.isPdf then some pdfDocumentMaxBytes else maxBytes
  if reply.statusCode ∈ [401, 403, 407, 451] then some (.restricted reply.statusCode)
  else if 400 ≤ reply.statusCode ∧ reply.statusCode < 500 ∧ reply.statusCode ∉ [408, 429] then
    some (.httpStatus reply.statusCode)
  else
    match effectiveMaxBytes with
    | none => none
    | some limit =>
      if reply.contentLength.any (limit < ·) ∨ limit < reply.bodyBytes then
        some (.oversize reply.contentLength limit)
      else none

/-- What an attempt comes to without another one, if it does. -/
def settled : Except Bool Reply → Option (Except FetchError Reply)
  | .error _ => none
  | .ok reply =>
    match reply.refused maxBytes with
    | some error => some (.error error)
    | none =>
      if reply.statusCode ∉ [408, 429, 500, 502, 503, 504] then some (.ok reply) else none

/-- What the last attempt comes to. -/
def exhausted : Except Bool Reply → Except FetchError Reply
  | .error timedOut => .error (.transport timedOut)
  | .ok reply => .ok reply

/-- `__request_with_retries_body`, with so many retries left. -/
def requestWithRetries (url : Text) (left : Nat) (log : Log) : Except FetchError Reply × Log :=
  retry (send unicode world url) (settled maxBytes) exhausted left log

/-- `response.is_redirect`. -/
def Reply.isRedirect (reply : Reply) : Bool := 300 ≤ reply.statusCode && reply.statusCode ≤ 399

/-- Where the reply sends the fetch next, if anywhere. -/
def redirectTarget (left : Nat) (url : Text) (reply : Reply) : Except FetchError (Option Text) :=
  if reply.isRedirect then
    if left = 0 then .error (.fetch "Maximum redirects exceeded")
    else
      match reply.location with
      | none | some [] => .error (.fetch "Redirect without Location header")
      | some location =>
        match world.join url location with
        | none => .error (.fetch "InvalidURL")
        | some target =>
          match validatePublicHttpUrl unicode target with
          | .error message => .error (.unsafeUrl message)
          | .ok () => .ok (some target)
  else .ok none

/-- The loop over `current_url`, with so many redirects left. -/
def followRedirects (left : Nat) (url : Text) (log : Log) : Except FetchError Reply × Log :=
  match maxBytes.bind (world.knownOversize url) with
  | some error => (.error error, log)
  | none =>
    match requestWithRetries unicode world maxBytes url settings.researchMaxRetries log with
    | (.error error, log) => (.error error, log)
    | (.ok reply, log) =>
      match redirectTarget unicode world left url reply with
      | .error error => (.error error, log)
      | .ok none => (.ok reply, log)
      | .ok (some target) =>
        match left with
        | 0 => (.error (.fetch "Maximum redirects exceeded"), log)
        | left + 1 => followRedirects left target log

/-- `fetch_network`, from the given count of requests on. -/
def fetchNetwork (requests : Nat) (url : Text) : Except FetchError Reply × Log :=
  match validatePublicHttpUrl unicode url with
  | .error message => (.error (.unsafeUrl message), ⟨requests, []⟩)
  | .ok () =>
    followRedirects settings unicode world maxBytes settings.researchMaxRedirects url
      ⟨requests, []⟩

end

end InvestmentPlatform.Evidence.FetchNetwork

/-!
What `HttpResearchFetcher` of `app/research_fetching.py` remembers between fetches: the URLs that it
knows to be too large, and the bytes of PDFs that were read.

The site answers every request for a URL alike.  The clock is read where the code reads it, and
again when a request is sent; its readings are counted in the state.  The log is of no use to the
code: it is what happened, in order.
-/

namespace InvestmentPlatform.Evidence.FetchCaches

open UrlText (Text Unicode)
open FetchNetwork

/-- The outside, as far as it does not change. -/
structure Site where
  /-- What comes back for a URL; or that it times out, or that the transport fails. -/
  answer : Text → Except Bool Reply
  /-- `httpx.URL(final_url).join(location)`, `none` where it raises. -/
  join : Text → Text → Option Text
  /-- `canonicalize_url`, `none` where it raises. -/
  canonicalize : Text → Option Text

def Site.world (site : Site) : FetchNetwork.World where
  resolve _ _ := none
  answer _ := site.answer
  join := site.join
  knownOversize _ _ := none

/-- An entry of `_oversize_cache`. -/
structure Oversize where
  recordedAt : ℚ
  contentLength : Option Nat
  maxBytes : Nat
  deriving DecidableEq

/-- What the byte cache reads of a `NetworkFetchResult`. -/
structure Response where
  finalUrl : Text
  content : List UInt8
  deriving DecidableEq

inductive Event
  /-- A request for the URL, by a fetch with that limit. -/
  | sent (url : Text) (maxBytes : Option Nat) (time : ℚ)
  /-- The request for the URL was refused for its size, and that was recorded. -/
  | refused (url : Text) (limit : Nat) (time : ℚ)
  /-- The entry for the URL made room for another one. -/
  | evicted (url : Text)
  /-- The body was put into the byte cache. -/
  | stored (response : Response) (time : ℚ)
  /-- The body was what the byte cache gave for the URL. -/
  | served (url : Text) (response : Response) (time : ℚ)
  deriving DecidableEq

structure Fetcher where
  oversize : Dict Text Oversize
  pdfs : Dict Text (ℚ × Response)
  pdfBytes : ℤ
  readings : Nat
  log : List Event

/-- A fetcher that has just been made. -/
def Fetcher.start : Fetcher := ⟨Dict.empty, Dict.empty, 0, 0, []⟩

def oversizeCacheMax : Nat := 256

def oversizeCacheTtlSeconds : ℚ := 300

def pdfByteCacheMaxBytes : Nat := pdfDocumentMaxBytes

/-- How many bodies are kept at most. -/
def pdfByteCacheMax : Nat := 16

def pdfByteCacheTtlSeconds : ℚ := 300

section

variable (settings : Settings) (unicode : Unicode) (site : Site) (clock : Nat → ℚ)

/-! ### The known sizes -/

/-- What an entry that is still good says about a limit. -/
def Oversize.verdict (entry : Oversize) (limit : Nat) : Option FetchError :=
  match entry.contentLength with
  | some length => if limit < length then some (.oversize (some length) limit) else none
  | none => if limit ≤ entry.maxBytes then some (.oversize none limit) else none

/-- `_raise_if_known_oversize`. -/
def raiseIfKnownOversize (url : Text) (maxBytes : Option Nat) (s : Fetcher) :
    Option FetchError × Fetcher :=
  match maxBytes with
  | none => (none, s)
  | some limit =>
    match s.oversize.get? url with
    | none => (none, s)
    | some entry =>
      if oversizeCacheTtlSeconds < clock s.readings - entry.recordedAt then
        (none, { s with oversize := s.oversize.pop url, readings := s.readings + 1 })
      else
        (entry.verdict limit,
          { s with oversize := s.oversize.setLast url entry, readings := s.readings + 1 })

/-- The entries that are too many, from the oldest on, with what the log says of them. -/
def evictOversize (oversize : Dict Text Oversize) (log : List Event) :
    Dict Text Oversize × List Event :=
  Dict.evict (fun kept _ => decide (oversizeCacheMax < kept.size))
    (fun log item => log ++ [.evicted item.1]) oversize log

/-- `_record_known_oversize`. -/
def recordKnownOversize (url : Text) (contentLength : Option Nat) (limit : Nat) (s : Fetcher) :
    Fetcher :=
  let entry : Oversize := ⟨clock s.readings, contentLength, limit⟩
  let kept := evictOversize (s.oversize.setLast url entry)
    (s.log ++ [.refused url limit (clock s.readings)])
  { s with oversize := kept.1, readings := s.readings + 1, log := kept.2 }

/-! ### The fetch -/

/-- One `client.stream("GET", url)`. -/
def send (maxBytes : Option Nat) (url : Text) (s : Fetcher) : Except Bool Reply × Fetcher :=
  (site.answer url,
    { s with
      readings := s.readings + 1
      log := s.log ++ [.sent url maxBytes (clock s.readings)] })

/-- `_request_with_retries`. -/
def requestWithRetries (maxBytes : Option Nat) (url : Text) (s : Fetcher) :
    Except FetchError Reply × Fetcher :=
  retry (send site clock maxBytes url) (settled maxBytes) exhausted settings.researchMaxRetries s

/-- What a round of the loop over `current_url` comes to. -/
inductive Round
  | done (result : Except FetchError Reply)
  | next (target : Text)

/-- A round of the loop, with so many redirects left. -/
def round (maxBytes : Option Nat) (left : Nat) (url : Text) (s : Fetcher) : Round × Fetcher :=
  match raiseIfKnownOversize clock url maxBytes s with
  | (some error, s) => (.done (.error error), s)
  | (none, s) =>
    match requestWithRetries settings site clock maxBytes url s with
    | (.error (.oversize contentLength limit), s) =>
      (.done (.error (.oversize contentLength limit)),
        recordKnownOversize clock url contentLength limit s)
    | (.error error, s) => (.done (.error error), s)
    | (.ok reply, s) =>
      match redirectTarget unicode site.world left url reply with
      | .error error => (.done (.error error), s)
      | .ok none => (.done (.ok reply), s)
      | .ok (some target) => (.next target, s)

/-- The loop over `current_url`, with so many redirects left. -/
def followRedirects (maxBytes : Option Nat) (left : Nat) (url : Text) (s : Fetcher) :
    Except FetchError Reply × Fetcher :=
  match round settings unicode site clock maxBytes left url s with
  | (.done result, s) => (result, s)
  | (.next target, s) =>
    match left with
    | 0 => (.error (.fetch "Maximum redirects exceeded"), s)
    | left + 1 => followRedirects maxBytes left target s

/-- `fetch_network`. -/
def fetchNetwork (url : Text) (maxBytes : Option Nat) (s : Fetcher) :
    Except FetchError Reply × Fetcher :=
  match validatePublicHttpUrl unicode url with
  | .error message => (.error (.unsafeUrl message), s)
  | .ok () =>
    followRedirects settings unicode site clock maxBytes settings.researchMaxRedirects url s

/-! ### The bytes of PDFs -/

def bodySize (saved : ℚ × Response) : ℤ := saved.2.content.length

/-- `cached_pdf_response`, which gives nothing where `canonicalize_url` raises. -/
def cachedPdfResponse (url : Text) (s : Fetcher) : Option Response × Fetcher :=
  match site.canonicalize url with
  | none => (none, s)
  | some key =>
    let now := clock s.readings
    let kept := s.pdfs.purge (fun saved => decide (pdfByteCacheTtlSeconds ≤ now - saved.1)) bodySize
      s.pdfBytes
    let s := { s with pdfs := kept.1, pdfBytes := kept.2, readings := s.readings + 1 }
    match s.pdfs.get? key with
    | none => (none, s)
    | some entry =>
      (some entry.2,
        { s with
          pdfs := s.pdfs.setLast key entry
          log := s.log ++ [.served url entry.2 now] })

/-- Whether the byte cache holds too much. -/
def tooMuch (pdfs : Dict Text (ℚ × Response)) (pdfBytes : ℤ) : Bool :=
  (pdfByteCacheMaxBytes : ℤ) < pdfBytes || pdfByteCacheMax < pdfs.size

/-- `_cache_pdf_response`, `none` where `popitem` is asked of an empty dict. -/
def cachePdfResponse (response : Response) (s : Fetcher) : Option Fetcher :=
  if pdfByteCacheMaxBytes < response.content.length then some s
  else
    match site.canonicalize response.finalUrl with
    | none => some s
    | some key =>
      let now := clock s.readings
      let held := s.pdfBytes - (s.pdfs.get? key).elim 0 bodySize
      let kept := Dict.evict tooMuch (fun pdfBytes item => pdfBytes - bodySize item.2)
        (s.pdfs.setLast key (now, response)) (held + response.content.length)
      if tooMuch kept.1 kept.2 then none
      else some { s with
        pdfs := kept.1
        pdfBytes := kept.2
        readings := s.readings + 1
        log := s.log ++ [.stored response now] }

/-! ### Any calls -/

inductive Call
  | fetchNetwork (url : Text) (maxBytes : Option Nat)
  | cachedPdfResponse (url : Text)
  | cachePdfResponse (response : Response)

def call (s : Fetcher) : Call → Option Fetcher
  | .fetchNetwork url maxBytes =>
    some (fetchNetwork settings unicode site clock url maxBytes s).2
  | .cachedPdfResponse url => some (cachedPdfResponse site clock url s).2
  | .cachePdfResponse response => cachePdfResponse site clock response s

def run (calls : List Call) : Option Fetcher :=
  calls.foldlM (call settings unicode site clock) Fetcher.start

end

end InvestmentPlatform.Evidence.FetchCaches
