/-
What the login proxy lets out of its own token.

Two requests are the same but for the secrets when they read the same once the login cookies are
taken out of the Cookie header and the login token out of the query and of the referrer's.  Every
part of a call depends on that reading alone, with two exceptions that hand a header on as it
came: the referrer of a page of another origin, and the Cookie header of the redirect of a POST
when no cookie is left to write.  So the calls of the two requests are the same exactly when these
two headers are, where they are handed on.
-/
import InvestmentPlatform.Connector.LoginProxy

namespace InvestmentPlatform.Connector.LoginProxy

open UrlPath List Option Dict Nat

/-! ### Two requests that differ only in the secrets -/

section Proxy

variable (web : Web) (connector : ConnectorId)

/-- The cookies of a header, without the connector's own. -/
def visibleCookies (header : Text) : Dict Text Text :=
  ((web.cookies header).pop (loginCookieName connector)).pop loginContextCookie

/-- The referrers have the same parts, and the same query but for the login token. -/
inductive SameReferer : Text → Text → Prop
  | noUrl {value value' : Text} (h : web.urlsplit value = none) (h' : web.urlsplit value' = none) :
      SameReferer value value'
  | url {value value' : Text} {split split' : SplitUrl} (h : web.urlsplit value = some split)
      (h' : web.urlsplit value' = some split') (hscheme : split.scheme = split'.scheme)
      (hnetloc : split.netloc = split'.netloc) (hpath : split.path = split'.path)
      (hquery : queryWithoutLoginToken web split.query = queryWithoutLoginToken web split'.query) :
      SameReferer value value'

/-- Two values of a header say the same beside the secrets. -/
def SameValue (name : String) (value value' : Text) : Prop :=
  if name = "cookie" then visibleCookies web connector value = visibleCookies web connector value'
  else if name = "referer" then SameReferer web value value'
  else value = value'

variable {web connector} in
theorem SameReferer.symm {value value' : Text} (h : SameReferer web value value') :
    SameReferer web value' value := by
  cases h with
  | noUrl h h' => exact .noUrl h' h
  | url h h' hscheme hnetloc hpath hquery =>
    exact .url h' h hscheme.symm hnetloc.symm hpath.symm hquery.symm

variable {web connector} in
theorem SameValue.symm {name : String} {value value' : Text}
    (h : SameValue web connector name value value') :
    SameValue web connector name value' value := by
  unfold SameValue at h ⊢
  split
  · rename_i hcookie
    rw [if_pos hcookie] at h
    exact Eq.symm h
  · rename_i hcookie
    rw [if_neg hcookie] at h
    split
    · rename_i hreferer
      rw [if_pos hreferer] at h
      exact SameReferer.symm h
    · rename_i hreferer
      rw [if_neg hreferer] at h
      exact Eq.symm h

/-- The requests differ at most in the login token and the login cookies: those of the Cookie
header, of the query and of the referrer's query. -/
structure SameButSecrets (request request' : Request) : Prop where
  method : request.method = request'.method
  scheme : request.scheme = request'.scheme
  netloc : request.netloc = request'.netloc
  body : request.body = request'.body
  query : (request.query.filter fun item => item.1 ≠ "loginToken".toList) =
    request'.query.filter fun item => item.1 ≠ "loginToken".toList
  headers : Forall₂
    (fun item item' => item.1 = item'.1 ∧ SameValue web connector item.1 item.2 item'.2)
    request.headers request'.headers

variable {web connector}

namespace SameButSecrets

variable {request request' : Request} (same : SameButSecrets web connector request request')

include same

theorem publicOrigin : request.publicOrigin = request'.publicOrigin := by
  rw [Request.publicOrigin, Request.publicOrigin, same.scheme, same.netloc]

theorem params : request.params = request'.params := by
  rw [Request.params, Request.params, pop_ofList, pop_ofList, same.query]

/-- The first headers of a name say the same. -/
theorem find_header (name : String) :
    Option.Rel (fun item item' => item.1 = name ∧ item.1 = item'.1 ∧
        SameValue web connector item.1 item.2 item'.2)
      (request.headers.find? fun item => item.1 = name)
      (request'.headers.find? fun item => item.1 = name) := by
  have hheaders := same.headers
  generalize request.headers = headers, request'.headers = headers' at hheaders ⊢
  induction hheaders with
  | nil => exact .none
  | @cons item item' headers headers' h _ ih =>
    obtain ⟨hname, hvalue⟩ := h
    by_cases hitem : item.1 = name
    · rw [find?_cons_of_pos (by simp [hitem]), find?_cons_of_pos (by simp [← hname, hitem])]
      exact .some ⟨hitem, hname, hvalue⟩
    · rw [find?_cons_of_neg (by simp [hitem]), find?_cons_of_neg (by simp [← hname, hitem])]
      exact ih

/-- **The browser's cookies do not depend on the secrets.** -/
theorem browserCookies :
    browserCookies web connector request = browserCookies web connector request' := by
  have hfind := same.find_header "cookie"
  unfold LoginProxy.browserCookies Request.header
  cases hitem : request.headers.find? fun item => item.1 = "cookie" with
  | none =>
    rw [hitem] at hfind
    cases hitem' : request'.headers.find? fun item => item.1 = "cookie" with
    | none => rfl
    | some item' =>
      rw [hitem'] at hfind
      cases hfind
  | some item =>
    rw [hitem] at hfind
    cases hitem' : request'.headers.find? fun item => item.1 = "cookie" with
    | none =>
      rw [hitem'] at hfind
      cases hfind
    | some item' =>
      rw [hitem'] at hfind
      cases hfind with
      | some h =>
        obtain ⟨hname, -, hvalue⟩ := h
        rw [SameValue, if_pos hname] at hvalue
        exact hvalue

theorem gatewayCookieHeader (jar : Dict Text Text) (exclude : Bool) :
    gatewayCookieHeader web connector request jar exclude =
      gatewayCookieHeader web connector request' jar exclude := by
  simp only [LoginProxy.gatewayCookieHeader, gatewayCookieValues, same.browserCookies]

theorem cookieHeader (session : Session) (destination : Destination) :
    cookieHeader web connector session destination request =
      cookieHeader web connector session destination request' := by
  simp only [LoginProxy.cookieHeader, upstreamCookieHeader, same.gatewayCookieHeader,
    same.browserCookies]

/-- The redirect that is followed does not depend on the secrets, nor do the session's cookies. -/
theorem followedRedirect (base : BaseUrl) (session : Session) (destination : Destination)
    (response : Response) :
    followedRedirect web connector base session destination request response =
      followedRedirect web connector base session destination request' response := by
  simp only [LoginProxy.followedRedirect, jarOfRequest, same.cookieHeader, same.method]

/-- The headers that are handed on have the same names, and say the same. -/
theorem headerDict : request.headerDict.keys = request'.headerDict.keys ∧
      ∀ name, Option.Rel (SameValue web connector name) (request.headerDict.get? name)
        (request'.headerDict.get? name) := by
  refine ofList_forall₂ ?_
  have hheaders := same.headers
  generalize request.headers = headers, request'.headers = headers' at hheaders ⊢
  induction hheaders with
  | nil => exact .nil
  | @cons item item' headers headers' h _ ih =>
    by_cases hkeep : item.1 ∉ hopByHopHeaders ∧ item.1 ≠ "content-length"
    · rw [filter_cons_of_pos (by simpa using hkeep),
        filter_cons_of_pos (by simpa [← h.1] using hkeep)]
      exact .cons h ih
    · rw [filter_cons_of_neg (by simpa using hkeep),
        filter_cons_of_neg (by simpa [← h.1] using hkeep)]
      exact ih

end SameButSecrets

/-! ### Headers -/

theorem joinCookies_eq_nil {items : List (Text × Text)} : joinCookies items = [] ↔ items = [] := by
  cases items with
  | nil => simp [joinCookies, List.intercalate]
  | cons item items =>
    cases items with
    | nil => simp [joinCookies, List.intercalate]
    | cons item' items => simp [joinCookies, List.intercalate]

theorem items_set_ne_nil (d : Dict Text Text) (k v : Text) : (d.set k v).items ≠ [] := by
  intro hnil
  have hmem : k ∈ (d.set k v).keys := mem_keys_set.mpr (Or.inr rfl)
  rw [Dict.keys, hnil] at hmem
  cases hmem

theorem items_foldl_set_eq_nil {items : List (Text × Text)} {d : Dict Text Text} :
    (items.foldl (fun values item => values.set item.1 item.2) d).items = [] ↔
      d.items = [] ∧ items = [] := by
  induction items generalizing d with
  | nil => simp
  | cons item items ih =>
    rw [foldl_cons, ih]
    constructor
    · rintro ⟨hset, -⟩
      exact absurd hset (items_set_ne_nil _ _ _)
    · rintro ⟨-, hcons⟩
      cases hcons

/-- No cookie header is written when neither the browser nor the session has a cookie. -/
theorem gatewayCookieHeader_eq_nil {request : Request} {jar : Dict Text Text} :
    gatewayCookieHeader web connector request jar false = [] ↔
      jar.items = [] ∧ (browserCookies web connector request).items = [] := by
  rw [gatewayCookieHeader, joinCookies_eq_nil, gatewayCookieValues]
  exact items_foldl_set_eq_nil

/-- The headers agree in their names, and in all values but the cookies and the referrer. -/
def Agree (headers headers' : Dict String Text) : Prop :=
  headers.keys = headers'.keys ∧
    ∀ name, name ≠ "cookie" → name ≠ "referer" → headers.get? name = headers'.get? name

/-- Such headers with a cookie header written are equal when the referrers are and, where none was
written, the Cookie headers they had. -/
theorem withCookie_eq_iff {headers headers' : Dict String Text} (hagree : Agree headers headers')
    (cookie : Text) :
    withCookie headers cookie = withCookie headers' cookie ↔
      headers.get? "referer" = headers'.get? "referer" ∧
        (cookie = [] → headers.get? "cookie" = headers'.get? "cookie") := by
  obtain ⟨hkeys, hget⟩ := hagree
  unfold withCookie
  split
  · rename_i hcookie
    constructor
    · intro heq
      rw [heq]
      exact ⟨rfl, fun _ => rfl⟩
    · rintro ⟨hreferer, hcookies⟩
      refine ext_get? hkeys fun name => ?_
      by_cases hname : name = "cookie"
      · rw [hname]
        exact hcookies hcookie
      · by_cases hname' : name = "referer"
        · rw [hname', hreferer]
        · exact hget name hname hname'
  · rename_i hcookie
    have hne : "referer" ≠ "cookie" := by decide
    constructor
    · intro heq
      have hreferer := congrArg (fun d => d.get? "referer") heq
      simp only [get?_set_ne _ _ hne] at hreferer
      exact ⟨hreferer, fun hnil => absurd hnil hcookie⟩
    · rintro ⟨hreferer, -⟩
      refine ext_get? ?_ fun name => ?_
      · by_cases hmem : "cookie" ∈ headers.keys
        · rw [keys_set_of_mem hmem, keys_set_of_mem (hkeys ▸ hmem), hkeys]
        · rw [keys_set_of_notMem hmem, keys_set_of_notMem (hkeys ▸ hmem), hkeys]
      · by_cases hname : name = "cookie"
        · rw [hname, get?_set_self, get?_set_self]
        · rw [get?_set_ne _ _ hname, get?_set_ne _ _ hname]
          by_cases hname' : name = "referer"
          · rw [hname', hreferer]
          · exact hget name hname hname'

/-! ### Rewriting the referrer -/

variable (web) in
/-- The request comes from a page of another origin. -/
def ForeignReferer (request : Request) : Prop :=
  ∃ value split, request.headerDict.get? "referer" = some value ∧
    web.urlsplit value = some split ∧ isForeign web request.publicOrigin split = true

variable (web) in
/-- The request's referrer can be split. -/
def ReadableReferer (request : Request) : Prop :=
  ∀ value, request.headerDict.get? "referer" = some value → web.urlsplit value ≠ none

theorem rewriteHeader_cookie (publicOrigin targetPath targetOrigin value : Text) :
    rewriteHeader web connector publicOrigin targetPath targetOrigin "cookie" value = value := by
  simp [rewriteHeader]

/-- **A referrer is rewritten to the same text, unless it is handed on.** -/
theorem rewriteHeader_referer {value value' : Text} {split : SplitUrl}
    (h : SameReferer web value value') (hsplit : web.urlsplit value = some split)
    (publicOrigin targetPath targetOrigin : Text) :
    rewriteHeader web connector publicOrigin targetPath targetOrigin "referer" value =
        rewriteHeader web connector publicOrigin targetPath targetOrigin "referer" value' ↔
      (isForeign web publicOrigin split = true → value = value') := by
  cases h with
  | noUrl hnone _ =>
    rw [hsplit] at hnone
    cases hnone
  | url hsplit₁ hsplit' hscheme hnetloc hpath hquery =>
    rw [hsplit] at hsplit₁
    cases hsplit₁
    rename_i split'
    have hforeign : isForeign web publicOrigin split = isForeign web publicOrigin split' := by
      rw [isForeign, isForeign, hscheme, hnetloc]
    simp only [rewriteHeader, hsplit, hsplit', rewriteReferer, ← hforeign, hpath, stripLoginToken,
      hquery]
    cases isForeign web publicOrigin split
    · simp only [Bool.false_eq_true, if_false, false_imp_iff, iff_true]
      rfl
    · simp

/-- What rewriting does not raise on is rewritten value by value. -/
theorem rewriteOriginHeaders_eq {request : Request} {headers : Dict String Text}
    {targetPath targetOrigin : Text} (h : ∀ value, headers.get? "referer" = some value →
      web.urlsplit value ≠ none) :
    rewriteOriginHeaders web connector request targetPath targetOrigin headers =
      some (headers.update
        (rewriteHeader web connector request.publicOrigin targetPath targetOrigin)) := by
  unfold rewriteOriginHeaders
  split
  · rename_i hraise
    obtain ⟨value, hvalue, hnone⟩ := map_eq_some_iff.mp hraise
    exact absurd hnone (h value hvalue)
  · rfl

theorem firstCall_isSome (connector : ConnectorId) {request : Request} (hread : ReadableReferer web request)
    (base : BaseUrl) (session : Session) (destination : Destination) :
    ∃ call, firstCall web connector base session destination request = some call := by
  have hraise : ∀ value, (request.headerDict.pop "cookie").get? "referer" = some value →
      web.urlsplit value ≠ none := by
    rw [get?_pop, if_neg (by decide)]
    exact hread
  rw [firstCall, rewriteOriginHeaders_eq hraise]
  exact ⟨_, rfl⟩

namespace SameButSecrets

variable {request request' : Request} (same : SameButSecrets web connector request request')

include same

theorem symm : SameButSecrets web connector request' request where
  method := same.method.symm
  scheme := same.scheme.symm
  netloc := same.netloc.symm
  body := same.body.symm
  query := same.query.symm
  headers := by
    refine same.headers.flip.imp ?_
    rintro item' item ⟨hname, hvalue⟩
    exact ⟨hname.symm, hname ▸ hvalue.symm⟩

theorem readableReferer (h : ReadableReferer web request) : ReadableReferer web request' := by
  intro value' hvalue' hnone'
  have hrel := same.headerDict.2 "referer"
  rw [hvalue'] at hrel
  cases hvalue : request.headerDict.get? "referer" with
  | none =>
    rw [hvalue] at hrel
    cases hrel
  | some value =>
    rw [hvalue] at hrel
    cases hrel with
    | some hsame =>
      rw [SameValue, if_neg (by decide), if_pos rfl] at hsame
      cases hsame with
      | noUrl hnone _ => exact h value hvalue hnone
      | url _ hsplit' _ _ _ _ =>
        rw [hnone'] at hsplit'
        cases hsplit'

section

variable (hread : ReadableReferer web request)
include hread

/-- Rewritten, the headers that are handed on agree but for the referrer and the cookies, and the
referrers do unless they are of another origin. -/
theorem rewritten (targetPath targetOrigin : Text)
    {headers headers' : Dict String Text} (hkeys : headers.keys = headers'.keys)
    (hheaders : ∀ name, name ≠ "cookie" → headers.get? name = request.headerDict.get? name)
    (hheaders' : ∀ name, name ≠ "cookie" → headers'.get? name = request'.headerDict.get? name) :
    let rewrite := rewriteHeader web connector request.publicOrigin targetPath targetOrigin
    Agree (headers.update rewrite) (headers'.update rewrite) ∧
      ((headers.update rewrite).get? "referer" = (headers'.update rewrite).get? "referer" ↔
        (ForeignReferer web request →
          request.headerDict.get? "referer" = request'.headerDict.get? "referer")) := by
  intro rewrite
  refine ⟨⟨?_, ?_⟩, ?_⟩
  · rw [keys_update, keys_update, hkeys]
  · intro name hcookie hreferer
    have hrel := same.headerDict.2 name
    rw [get?_update, get?_update, hheaders name hcookie, hheaders' name hcookie]
    cases hvalue : request.headerDict.get? name with
    | none =>
      rw [hvalue] at hrel
      cases hvalue' : request'.headerDict.get? name with
      | none => rfl
      | some value' =>
        rw [hvalue'] at hrel
        cases hrel
    | some value =>
      rw [hvalue] at hrel
      cases hvalue' : request'.headerDict.get? name with
      | none =>
        rw [hvalue'] at hrel
        cases hrel
      | some value' =>
        rw [hvalue'] at hrel
        cases hrel with
        | some hsame =>
          rw [SameValue, if_neg hcookie, if_neg hreferer] at hsame
          rw [hsame]
  · have hrel := same.headerDict.2 "referer"
    have hne : "referer" ≠ "cookie" := by decide
    rw [get?_update, get?_update, hheaders _ hne, hheaders' _ hne]
    cases hvalue : request.headerDict.get? "referer" with
    | none =>
      rw [hvalue] at hrel
      cases hvalue' : request'.headerDict.get? "referer" with
      | none => simp
      | some value' =>
        rw [hvalue'] at hrel
        cases hrel
    | some value =>
      rw [hvalue] at hrel
      cases hvalue' : request'.headerDict.get? "referer" with
      | none =>
        rw [hvalue'] at hrel
        cases hrel
      | some value' =>
        rw [hvalue'] at hrel
        cases hrel with
        | some hsame =>
          rw [SameValue, if_neg hne, if_pos rfl] at hsame
          obtain ⟨split, hsplit⟩ := ne_none_iff_exists'.mp (hread value hvalue)
          have hforeign : ForeignReferer web request ↔
              isForeign web request.publicOrigin split = true := by
            constructor
            · rintro ⟨v, s, hv, hs, hf⟩
              rw [hvalue] at hv
              cases hv
              rw [hsplit] at hs
              cases hs
              exact hf
            · intro hf
              exact ⟨value, split, hvalue, hsplit, hf⟩
          rw [map_some, map_some, some.injEq, some.injEq, hforeign]
          exact rewriteHeader_referer hsame hsplit _ _ _

/-- **The first call is the same unless a referrer of another origin differs.** -/
theorem firstCall_eq_iff (base : BaseUrl) (session : Session) (destination : Destination) :
    firstCall web connector base session destination request =
        firstCall web connector base session destination request' ↔
      (ForeignReferer web request →
        request.headerDict.get? "referer" = request'.headerDict.get? "referer") := by
  have hpop : ∀ (r : Request) name, name ≠ "cookie" →
      (r.headerDict.pop "cookie").get? name = r.headerDict.get? name := by
    intro r name hname
    rw [get?_pop, if_neg hname]
  have hkeys : (request.headerDict.pop "cookie").keys = (request'.headerDict.pop "cookie").keys := by
    rw [keys_pop, keys_pop, same.headerDict.1]
  have hne : "referer" ≠ "cookie" := by decide
  have hraise : ∀ value, (request.headerDict.pop "cookie").get? "referer" = some value →
      web.urlsplit value ≠ none := by
    rw [hpop request _ hne]
    exact hread
  have hraise' : ∀ value, (request'.headerDict.pop "cookie").get? "referer" = some value →
      web.urlsplit value ≠ none := by
    rw [hpop request' _ hne]
    exact same.readableReferer hread
  obtain ⟨hagree, hreferer⟩ := same.rewritten hread destination.targetPath
    (destination.targetOrigin base) hkeys (hpop request) (hpop request')
  have hcookie : ∀ f : String → Text → Text,
      ((request.headerDict.pop "cookie").update f).get? "cookie" =
        ((request'.headerDict.pop "cookie").update f).get? "cookie" := by
    intro f
    rw [get?_update, get?_update, get?_pop, get?_pop, if_pos rfl, if_pos rfl]
  rw [firstCall, firstCall, rewriteOriginHeaders_eq hraise, rewriteOriginHeaders_eq hraise',
    map_some, map_some, some.injEq, Call.mk.injEq, ← same.publicOrigin,
    ← same.cookieHeader, withCookie_eq_iff hagree, hreferer]
  constructor
  · rintro ⟨-, -, -, -, hr, -⟩
    exact hr
  · intro hr
    exact ⟨same.method, rfl, same.params, same.body, hr, fun _ => hcookie _⟩

/-- **The redirect is the same unless, besides, the Cookie header it hands on differs.** -/
theorem redirectCall_eq_iff (jar : Dict Text Text) (redirect : Text × Text × Text) :
    redirectCall web connector request jar redirect =
        redirectCall web connector request' jar redirect ↔
      (ForeignReferer web request →
        request.headerDict.get? "referer" = request'.headerDict.get? "referer") ∧
      (jar.items = [] → (LoginProxy.browserCookies web connector request).items = [] →
        request.headerDict.get? "cookie" = request'.headerDict.get? "cookie") := by
  obtain ⟨hagree, hreferer⟩ := same.rewritten hread redirect.2.1 redirect.1 same.headerDict.1
    (fun _ _ => rfl) (fun _ _ => rfl)
  have hcookie : ∀ r : Request, (r.headerDict.update
      (rewriteHeader web connector request.publicOrigin redirect.2.1 redirect.1)).get? "cookie" =
        r.headerDict.get? "cookie" := by
    intro r
    rw [get?_update]
    cases r.headerDict.get? "cookie" with
    | none => rfl
    | some value => rw [map_some, rewriteHeader_cookie]
  rw [redirectCall, redirectCall, rewriteOriginHeaders_eq hread,
    rewriteOriginHeaders_eq (same.readableReferer hread), map_some, map_some,
    some.injEq, Call.mk.injEq, ← same.publicOrigin, ← same.gatewayCookieHeader,
    withCookie_eq_iff hagree, hreferer, hcookie, hcookie, gatewayCookieHeader_eq_nil]
  constructor
  · rintro ⟨-, -, -, -, hr, hc⟩
    exact ⟨hr, fun hjar hbrowser => hc ⟨hjar, hbrowser⟩⟩
  · rintro ⟨hr, hc⟩
    exact ⟨same.method, rfl, rfl, same.body, hr, fun h => hc h.1 h.2⟩

end

end SameButSecrets

/-! ### The calls of a request -/

theorem made_pos (answers : Nat → Answer) (attempts made : Nat) (h : 0 < attempts) :
    made < (attemptCalls answers attempts made).1 := by
  induction attempts generalizing made with
  | zero => omega
  | succ attempts ih =>
    rw [attemptCalls]
    split
    · by_cases hpos : 0 < attempts
      · exact Nat.lt_trans (lt_succ_self made) (ih (made + 1) hpos)
      · have hzero : attempts = 0 := by omega
        subst hzero
        exact lt_succ_self made
    · exact lt_succ_self made
    · exact lt_succ_self made

theorem attempts_pos (destination : Destination) : 0 < destination.attempts := by
  unfold Destination.attempts
  split <;> decide

/-- Calls with as many attempts are the same when the attempts and what follows are. -/
theorem replicate_append_inj {made : Nat} (hmade : 0 < made) {call call' : Call}
    {redirected redirected' : Option Call} :
    replicate made call ++ redirected.toList = replicate made call' ++ redirected'.toList ↔
      call = call' ∧ redirected = redirected' := by
  constructor
  · intro h
    obtain ⟨hfirst, hrest⟩ := append_inj h (by simp)
    have hcall : call = call' := by
      obtain ⟨n, rfl⟩ := exists_eq_succ_of_ne_zero (Nat.ne_of_gt hmade)
      rw [replicate_succ, replicate_succ] at hfirst
      exact (List.cons.inj hfirst).1
    refine ⟨hcall, ?_⟩
    cases redirected with
    | none =>
      cases redirected' with
      | none => rfl
      | some call' => cases hrest
    | some call =>
      cases redirected' with
      | none => cases hrest
      | some call' =>
        cases hrest
        rfl
  · rintro ⟨rfl, rfl⟩
    rfl

variable (web connector) in
/-- The call that follows the redirect of the answer to the last attempt. -/
def redirected (base : BaseUrl) (session : Session) (destination : Destination)
    (answers : Nat → Answer) (request : Request) : Option Call :=
  (attemptCalls answers destination.attempts 0).2.bind fun response =>
    (followedRedirect web connector base session destination request response).bind fun followed =>
      redirectCall web connector request followed.1 followed.2

theorem proxyLoginRequest_eq {base : BaseUrl} {session : Session} {destination : Destination}
    {answers : Nat → Answer} {request : Request} {call : Call}
    (htrading : Routes.Main.isTradingPath destination.targetPath = false)
    (hcall : firstCall web connector base session destination request = some call) :
    proxyLoginRequest web connector (some base) session destination answers request =
      replicate (attemptCalls answers destination.attempts 0).1 call ++
        (redirected web connector base session destination answers request).toList := by
  simp only [proxyLoginRequest, htrading, hcall]
  rfl

variable (web connector) in
/-- Where the request hands a header on as it came, that header holds nothing that differs: the
referrer of a page of another origin, and the Cookie header of a redirected POST when neither the
browser nor, after the answer, the session has another cookie. -/
structure HandsOnAlike (gateway : Option BaseUrl) (session : Session) (destination : Destination)
    (answers : Nat → Answer) (request request' : Request) : Prop where
  referer : ForeignReferer web request →
    request.headerDict.get? "referer" = request'.headerDict.get? "referer"
  cookie : ∀ base response jar redirect, gateway = some base →
    (attemptCalls answers destination.attempts 0).2 = some response →
    followedRedirect web connector base session destination request response =
      some (jar, redirect) →
    jar.items = [] → (browserCookies web connector request).items = [] →
    request.headerDict.get? "cookie" = request'.headerDict.get? "cookie"

theorem redirected_eq_iff {request request' : Request}
    (same : SameButSecrets web connector request request') (hread : ReadableReferer web request)
    (base : BaseUrl) (session : Session) (destination : Destination) (answers : Nat → Answer) :
    (ForeignReferer web request →
        request.headerDict.get? "referer" = request'.headerDict.get? "referer") ∧
      redirected web connector base session destination answers request =
        redirected web connector base session destination answers request' ↔
    HandsOnAlike web connector (some base) session destination answers request request' := by
  unfold redirected
  constructor
  · rintro ⟨hreferer, hredirected⟩
    refine ⟨hreferer, ?_⟩
    intro base' response jar redirect hbase hresponse hfollow hjar hbrowser
    cases hbase
    have hfollow' := (same.followedRedirect base session destination response).symm.trans hfollow
    rw [hresponse, bind_some, bind_some, hfollow, hfollow', bind_some,
      bind_some, same.redirectCall_eq_iff hread] at hredirected
    exact hredirected.2 hjar hbrowser
  · rintro ⟨hreferer, hcookie⟩
    refine ⟨hreferer, ?_⟩
    cases hresponse : (attemptCalls answers destination.attempts 0).2 with
    | none => rfl
    | some response =>
      rw [bind_some, bind_some, ← same.followedRedirect base session destination response]
      cases hfollow : followedRedirect web connector base session destination request response with
      | none => rfl
      | some followed =>
        rw [bind_some, bind_some, same.redirectCall_eq_iff hread]
        exact ⟨hreferer, hcookie base response followed.1 followed.2 rfl hresponse hfollow⟩

theorem firstCall_of_unreadable {request : Request} (h : ¬ ReadableReferer web request)
    (base : BaseUrl) (session : Session) (destination : Destination) :
    firstCall web connector base session destination request = none := by
  unfold ReadableReferer at h
  push Not at h
  obtain ⟨value, hvalue, hnone⟩ := h
  have hget : (request.headerDict.pop "cookie").get? "referer" = some value := by
    rw [get?_pop, if_neg (by decide), hvalue]
  simp [firstCall, rewriteOriginHeaders, hget, hnone]

/-- **The login proxy makes the same calls for two requests that differ only in the secrets exactly
when the headers it hands on as they came do not differ.**  A request that is refused, or whose
referrer cannot be split, makes no call. -/
theorem proxyLoginRequest_eq_iff (gateway : Option BaseUrl) (session : Session)
    (destination : Destination) (answers : Nat → Answer) {request request' : Request}
    (same : SameButSecrets web connector request request') :
    proxyLoginRequest web connector gateway session destination answers request =
        proxyLoginRequest web connector gateway session destination answers request' ↔
      (gateway.isSome = true → Routes.Main.isTradingPath destination.targetPath = false →
        ReadableReferer web request →
        HandsOnAlike web connector gateway session destination answers request request') := by
  cases gateway with
  | none => simp [proxyLoginRequest]
  | some base =>
    cases htrading : Routes.Main.isTradingPath destination.targetPath with
    | true => simp [proxyLoginRequest, htrading]
    | false =>
      by_cases hread : ReadableReferer web request
      · obtain ⟨call, hcall⟩ :=
          firstCall_isSome connector hread base session destination
        obtain ⟨call', hcall'⟩ :=
          firstCall_isSome connector (same.readableReferer hread) base session
            destination
        have hfirst := same.firstCall_eq_iff hread base session destination
        rw [hcall, hcall', Option.some.injEq] at hfirst
        have hmade := made_pos answers destination.attempts 0 (attempts_pos destination)
        rw [proxyLoginRequest_eq htrading hcall, proxyLoginRequest_eq htrading hcall',
          replicate_append_inj hmade, hfirst, redirected_eq_iff same hread]
        simp [hread]
      · have hread' : ¬ ReadableReferer web request' := fun h => hread (same.symm.readableReferer h)
        simp [proxyLoginRequest, firstCall_of_unreadable hread, firstCall_of_unreadable hread',
          hread]

end Proxy

/-! ### Plain texts -/

/-- The text before the first `c`, and the text behind it. -/
def cutAt (c : Char) (text : Text) : Text × Text :=
  (text.takeWhile (· ≠ c), (text.dropWhile (· ≠ c)).drop 1)

/-- The library on texts without quotes, escapes and capital letters. -/
def plainWeb : Web where
  lower text := text.map Char.toLower
  strip text := ((text.dropWhile (· = ' ')).reverse.dropWhile (· = ' ')).reverse
  cookies header :=
    Dict.ofList Prod.fst Prod.snd (((header.splitOn ';').filter ('=' ∈ ·)).map fun cookie =>
      cutAt '=' (cookie.dropWhile (· = ' ')))
  urlsplit url :=
    let (scheme, rest) := cutAt ':' url
    let (address, query) := cutAt '?' (rest.drop 2)
    some ⟨scheme, address.takeWhile (· ≠ '/'), address.dropWhile (· ≠ '/'), query⟩
  urlunsplit scheme netloc := scheme ++ "://".toList ++ netloc
  parseQsl query := if query = [] then [] else (query.splitOn '&').map (cutAt '=')
  urlencode items := List.intercalate ['&'] (items.map fun item => item.1 ++ '=' :: item.2)

def sampleConnector : ConnectorId := ⟨"0a-1b".toList, "0a1b".toList⟩

def sampleGateway : BaseUrl := ⟨"https".toList, "127.0.0.1:5000".toList, "/v1/api".toList⟩

def sampleSession : Session := ⟨Dict.empty, false⟩

/-- The login page, asked for from a page of the connector. -/
def pageRequest (scheme token : String) : Request where
  method := "GET"
  scheme := scheme.toList
  netloc := "connector".toList
  headers := [("referer", "https://connector/connector-sessions/0a-1b/login?loginToken=".toList ++
    token.toList)]
  query := [("loginToken".toList, token.toList)]
  body := []

/-- A POST with no cookie but the connector's own. -/
def postRequest (token : String) : Request where
  method := "POST"
  scheme := "https".toList
  netloc := "connector".toList
  headers := [("cookie", "aip_ibkr_login_0a1b=".toList ++ token.toList)]
  query := []
  body := []

theorem pageRequest_same (scheme : String) :
    SameButSecrets plainWeb sampleConnector (pageRequest scheme "red") (pageRequest scheme "blue") where
  method := rfl
  scheme := rfl
  netloc := rfl
  body := rfl
  query := by
    have hnone : ∀ token : String, ((pageRequest scheme token).query.filter fun item =>
        item.1 ≠ "loginToken".toList) = [] := by
      intro token
      refine filter_eq_nil_iff.mpr fun item hitem hkept => ?_
      have hname : item.1 = "loginToken".toList := by
        rw [mem_singleton.mp hitem]
      exact of_decide_eq_true hkept hname
    rw [hnone, hnone]
  headers := by
    refine .cons ⟨rfl, ?_⟩ .nil
    rw [SameValue, if_neg (by decide), if_pos rfl]
    exact .url rfl rfl (by rfl) (by rfl) (by rfl) (by decide)

theorem postRequest_same :
    SameButSecrets plainWeb sampleConnector (postRequest "red") (postRequest "blue") where
  method := rfl
  scheme := rfl
  netloc := rfl
  body := rfl
  query := rfl
  headers := by
    refine .cons ⟨rfl, ?_⟩ .nil
    rw [SameValue, if_pos rfl]
    exact eq_of_items (by decide)

/-- Asked for over the origin its page has, the login page is fetched the same way for any token. -/
theorem pageRequest_confined :
    proxyLoginRequest plainWeb sampleConnector (some sampleGateway) sampleSession
        ⟨"sso/Login".toList, none⟩ (fun _ => .otherError) (pageRequest "https" "red") =
      proxyLoginRequest plainWeb sampleConnector (some sampleGateway) sampleSession
        ⟨"sso/Login".toList, none⟩ (fun _ => .otherError) (pageRequest "https" "blue") := by
  refine (proxyLoginRequest_eq_iff (some sampleGateway) sampleSession ⟨"sso/Login".toList, none⟩
    (fun _ => .otherError) (pageRequest_same "https")).mpr fun _ _ _ => ⟨?_, ?_⟩
  · rintro ⟨value, split, hvalue, hsplit, hforeign⟩
    have hget : (pageRequest "https" "red").headerDict.get? "referer" = some
        "https://connector/connector-sessions/0a-1b/login?loginToken=red".toList := by
      rfl
    rw [hget] at hvalue
    cases hvalue
    have hown : (plainWeb.urlsplit
        "https://connector/connector-sessions/0a-1b/login?loginToken=red".toList).map
          (isForeign plainWeb (pageRequest "https" "red").publicOrigin) = some false := by
      rfl
    rw [hsplit, Option.map_some, hforeign] at hown
    cases hown
  · intro base response jar redirect _ hresponse
    cases hresponse

/-- Behind a proxy that ends TLS the login token goes out in the referrer, and on the redirect of a
POST in the Cookie header. -/
theorem secrets_go_out :
    (SameButSecrets plainWeb sampleConnector (pageRequest "http" "red") (pageRequest "http" "blue") ∧
      proxyLoginRequest plainWeb sampleConnector (some sampleGateway) sampleSession
          ⟨"sso/Login".toList, none⟩ (fun _ => .response ⟨200, [], []⟩) (pageRequest "http" "red") ≠
        proxyLoginRequest plainWeb sampleConnector (some sampleGateway) sampleSession
          ⟨"sso/Login".toList, none⟩ (fun _ => .response ⟨200, [], []⟩) (pageRequest "http" "blue")) ∧
    SameButSecrets plainWeb sampleConnector (postRequest "red") (postRequest "blue") ∧
      proxyLoginRequest plainWeb sampleConnector (some sampleGateway) sampleSession
          ⟨"Authenticator".toList, none⟩
          (fun _ => .response ⟨302, "https://api.ibkr.com/done".toList, []⟩) (postRequest "red") ≠
        proxyLoginRequest plainWeb sampleConnector (some sampleGateway) sampleSession
          ⟨"Authenticator".toList, none⟩
          (fun _ => .response ⟨302, "https://api.ibkr.com/done".toList, []⟩) (postRequest "blue") := by
  refine ⟨⟨pageRequest_same "http", ?_⟩, postRequest_same, ?_⟩
  · intro heq
    have hheaders := congrArg (List.map fun call => call.headers.items) heq
    revert hheaders
    decide
  · intro heq
    have hheaders := congrArg (List.map fun call => call.headers.items) heq
    revert hheaders
    decide

end InvestmentPlatform.Connector.LoginProxy
