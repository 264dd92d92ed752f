/-
`_proxy_login_request`: the login proxy of the IBKR connector.

A request is taken up behind the check of its login token, for the connector its route found.  It
is followed to the calls it makes: the first attempts, and the redirect of a POST that the proxy
follows itself.  The answers to the calls are given.  What the standard library reads out of a
text, a header of cookies, a URL or a query, is given too: nothing here depends on how it reads.
-/
import InvestmentPlatform.Connector.Routes
import InvestmentPlatform.Lib.Dict

namespace InvestmentPlatform.Connector.LoginProxy

open UrlPath
open Routes (removePrefix)

/-! ### Texts -/

/-- A URL as `urlsplit` takes it apart. -/
structure SplitUrl where
  scheme : Text
  netloc : Text
  path : Text
  query : Text
  deriving DecidableEq, Repr

/-- What the standard library makes of the texts. -/
structure Web where
  /-- `text.lower()`. -/
  lower : Text → Text
  /-- `text.strip()`. -/
  strip : Text → Text
  /-- `SimpleCookie(header)`, with the values of its morsels. -/
  cookies : Text → Dict Text Text
  /-- `urlsplit(url)`, unless it raises. -/
  urlsplit : Text → Option SplitUrl
  /-- `urlunsplit((scheme, netloc, "", "", ""))`. -/
  urlunsplit : Text → Text → Text
  /-- `parse_qsl(query, keep_blank_values=True)`. -/
  parseQsl : Text → List (Text × Text)
  urlencode : List (Text × Text) → Text

/-- `"; ".join(f"{name}={value}" for name, value in items)`. -/
def joinCookies (items : List (Text × Text)) : Text :=
  List.intercalate "; ".toList (items.map fun item => item.1 ++ '=' :: item.2)

/-- A connector's `str(connector_id)` and `connector_id.hex`. -/
structure ConnectorId where
  text : Text
  hex : Text
  deriving DecidableEq, Repr

/-- `_login_cookie_name`. -/
def loginCookieName (connector : ConnectorId) : Text := "aip_ibkr_login_".toList ++ connector.hex

/-- `LOGIN_CONTEXT_COOKIE`. -/
def loginContextCookie : Text := "aip_ibkr_login_context".toList

/-- `GATEWAY_BROWSER_IDENTITY_COOKIES`. -/
def gatewayBrowserIdentityCookies : List Text := ["USERID".toList]

/-- `HOP_BY_HOP_HEADERS`. -/
def hopByHopHeaders : List String :=
  ["connection", "host", "keep-alive", "proxy-authenticate", "proxy-authorization", "te", "trailer",
    "transfer-encoding", "upgrade", "http2-settings"]

/-! ### Requests, answers and calls -/

/-- The browser's request.  The names of its headers come in lower case. -/
structure Request where
  method : String
  scheme : Text
  netloc : Text
  headers : List (String × Text)
  query : List (Text × Text)
  body : Text
  deriving DecidableEq, Repr

namespace Request

/-- `request.headers.get(name, "")`, the first header of the name. -/
def header (request : Request) (name : String) : Text :=
  ((request.headers.find? fun item => item.1 = name).map Prod.snd).getD []

/-- `f"{request.url.scheme}://{request.url.netloc}"`. -/
def publicOrigin (request : Request) : Text := request.scheme ++ "://".toList ++ request.netloc

/-- The headers that are handed on, the last one of each name. -/
def headerDict (request : Request) : Dict String Text :=
  Dict.ofList Prod.fst Prod.snd
    (request.headers.filter fun item => item.1 ∉ hopByHopHeaders ∧ item.1 ≠ "content-length")

/-- `{k: v for k, v in request.query_params.items() if k != "loginToken"}`. -/
def params (request : Request) : List (Text × Text) :=
  ((Dict.ofList Prod.fst Prod.snd request.query).pop "loginToken".toList).items

end Request

structure Response where
  status : Nat
  location : Text
  setCookies : List Text
  deriving DecidableEq, Repr

/-- What comes of a call: `httpx.ConnectError` or `httpx.ConnectTimeout`, another error, or a
response. -/
inductive Answer
  | connectError
  | otherError
  | response (response : Response)
  deriving DecidableEq, Repr

/-- A call of `client.request`. -/
structure Call where
  method : String
  url : Text
  params : List (Text × Text)
  body : Text
  headers : Dict String Text

/-- `AIP_IBKR_GATEWAY_BASE_URL`, taken apart. -/
structure BaseUrl where
  scheme : Text
  netloc : Text
  path : Text
  deriving DecidableEq, Repr

/-- `settings.gateway_api_base_url.rsplit("/v1/api", 1)[0].rstrip("/")`. -/
def BaseUrl.loginOrigin (base : BaseUrl) : Text :=
  base.scheme ++ "://".toList ++ base.netloc ++
    (Routes.GatewayUrl.mk (base.scheme ++ "://".toList ++ base.netloc) base.path).loginPath

/-- The parts of a session the proxy uses. -/
structure Session where
  gatewayCookies : Dict Text Text
  gatewayBrowserResetPending : Bool

/-! ### Cookies -/

section Proxy

variable (web : Web) (connector : ConnectorId)

/-- The cookies of the browser, without the connector's own. -/
def browserCookies (request : Request) : Dict Text Text :=
  ((web.cookies (request.header "cookie")).pop (loginCookieName connector)).pop loginContextCookie

/-- The values of `_gateway_cookie_header`. -/
def gatewayCookieValues (request : Request) (jar : Dict Text Text) (excludeBrowserCookies : Bool) :
    Dict Text Text :=
  let browserValues := (browserCookies web connector request).items
  let browserValues :=
    if excludeBrowserCookies then
      browserValues.filter fun item => item.1 ∈ gatewayBrowserIdentityCookies
    else browserValues
  browserValues.foldl (fun values item => values.set item.1 item.2) jar

/-- `_gateway_cookie_header`. -/
def gatewayCookieHeader (request : Request) (jar : Dict Text Text)
    (excludeBrowserCookies : Bool) : Text :=
  joinCookies (gatewayCookieValues web connector request jar excludeBrowserCookies).items

/-- `_upstream_cookie_header`. -/
def upstreamCookieHeader (request : Request) (jar : Dict Text Text) : Text :=
  let parsed := jar.items.foldl
    (fun parsed item => if parsed.get? item.1 = some item.2 then parsed.pop item.1 else parsed)
    (browserCookies web connector request)
  joinCookies parsed.items

/-- `remember_gateway_request_cookies`. -/
def rememberGatewayRequestCookies (jar : Dict Text Text) (cookieHeader : Text) : Dict Text Text :=
  (web.cookies cookieHeader).items.foldl (fun jar item => jar.set item.1 item.2) jar

/-- `remember_gateway_response_cookies`. -/
def rememberGatewayResponseCookies (jar : Dict Text Text) (setCookies : List Text) :
    Dict Text Text :=
  setCookies.foldl (fun jar header =>
    (web.cookies header).items.foldl (fun jar item =>
      if item.2 ≠ [] then jar.set item.1 item.2 else jar.pop item.1) jar) jar

/-! ### Origin and Referer -/

/-- `_gateway_path_from_public_path`. -/
def gatewayPathFromPublicPath (path : Text) : Option Text :=
  let connectorPrefix := "/connector-sessions/".toList ++ connector.text
  let loginPrefix := connectorPrefix ++ "/login".toList
  let upstreamPrefix := connectorPrefix ++ "/upstream/".toList
  if path = loginPrefix then some "sso/Login".toList
  else if (loginPrefix ++ ['/']).isPrefixOf path then some (removePrefix (loginPrefix ++ ['/']) path)
  else if upstreamPrefix.isPrefixOf path then
    some (((removePrefix upstreamPrefix path).dropWhile (· ≠ '/')).drop 1)
  else if (connectorPrefix ++ ['/']).isPrefixOf path then
    some (removePrefix (connectorPrefix ++ ['/']) path)
  else if "/connector-sessions/".toList.isPrefixOf path then
    some (removePrefix "/connector-sessions/".toList path)
  else none

/-- `[(name, value) for name, value in parse_qsl(query) if name != "loginToken"]`. -/
def queryWithoutLoginToken (query : Text) : List (Text × Text) :=
  (web.parseQsl query).filter fun item => item.1 ≠ "loginToken".toList

/-- `_strip_login_token`. -/
def stripLoginToken (query : Text) : Text := web.urlencode (queryWithoutLoginToken web query)

/-- `_params_without_login_token`. -/
def paramsWithoutLoginToken (query : Text) : List (Text × Text) :=
  (Dict.ofList Prod.fst Prod.snd (queryWithoutLoginToken web query)).items

/-- The referrer is a page of another origin. -/
def isForeign (publicOrigin : Text) (split : SplitUrl) : Bool :=
  web.urlunsplit split.scheme split.netloc ≠ publicOrigin

/-- `_rewrite_referer`, with the value split. -/
def rewriteReferer (value : Text) (split : SplitUrl) (publicOrigin fallbackPath targetOrigin : Text) :
    Text :=
  if isForeign web publicOrigin split then value
  else
    let query := stripLoginToken web split.query
    let gatewayPath :=
      match gatewayPathFromPublicPath connector split.path with
      | some path => if path = [] then fallbackPath else path
      | none => fallbackPath
    targetOrigin ++ '/' :: lstrip gatewayPath ++ (if query = [] then [] else '?' :: query)

/-- The value of one header in `_rewrite_origin_headers`. -/
def rewriteHeader (publicOrigin targetPath targetOrigin : Text) (name : String) (value : Text) :
    Text :=
  if name = "origin" then if value = publicOrigin then targetOrigin else value
  else if name = "referer" then
    match web.urlsplit value with
    | some split => rewriteReferer web connector value split publicOrigin targetPath targetOrigin
    | none => value
  else value

/-- `_rewrite_origin_headers`, which raises on a referrer that is no URL. -/
def rewriteOriginHeaders (request : Request) (targetPath targetOrigin : Text)
    (headers : Dict String Text) : Option (Dict String Text) :=
  match (headers.get? "referer").map web.urlsplit with
  | some none => none
  | _ =>
    some (headers.update
      (rewriteHeader web connector request.publicOrigin targetPath targetOrigin))

/-! ### The redirect of a POST -/

/-- `IBKR_BROWSER_REDIRECT_HOSTS`. -/
def ibkrBrowserRedirectHosts : List Text :=
  ["api.ibkr.com".toList, "www.interactivebrokers.com".toList, "interactivebrokers.com".toList]

/-- `SERVER_SIDE_POST_REDIRECT_PATHS`. -/
def serverSidePostRedirectPaths : List Text := ["/authenticator".toList, "/report".toList]

/-- `_gateway_hosts`. -/
def gatewayHosts (base : BaseUrl) : List Text :=
  ["127.0.0.1:5000".toList, "localhost:5000".toList, base.netloc]

/-- The scheme and the host of `_upstream_origin`. -/
def upstreamOrigin (base : BaseUrl) (upstreamHost : Text) : Option (Text × Text) :=
  let normalized := web.lower (web.strip upstreamHost)
  if normalized = [] ∨ normalized.getLast? = some '.' ∨
      (normalized.any fun c => c ∈ [':', '/', '\\', '@', '%']) then none
  else if normalized ∈ ibkrBrowserRedirectHosts then some ("https".toList, normalized)
  else if normalized ∈ gatewayHosts base then
    some (if base.scheme = [] then "https".toList else base.scheme, normalized)
  else none

/-- `_server_side_post_redirect_target`: the origin, the path and the query. -/
def serverSidePostRedirectTarget (base : BaseUrl) (method : String) (currentPath : Text)
    (response : Response) : Option (Text × Text × Text) :=
  if method ≠ "POST" ∨ response.status ∉ [301, 302, 303] then none
  else if '/' :: lstrip (web.lower currentPath) ∉ serverSidePostRedirectPaths then none
  else
    match web.urlsplit response.location with
    | none => none
    | some split =>
      if split.scheme = [] ∨ split.netloc = [] then none
      else
        match upstreamOrigin web base split.netloc with
        | none => none
        | some (scheme, host) =>
          if host ∉ ibkrBrowserRedirectHosts then none
          else
            some (scheme ++ "://".toList ++ host,
              if split.path = [] then ['/'] else split.path, split.query)

/-! ### The request loop -/

/-- The attempts, from the `made`-th call on: how many calls are made in all, and the response. -/
def attemptCalls (answers : Nat → Answer) : Nat → Nat → Nat × Option Response
  | 0, made => (made, none)
  | attempts + 1, made =>
    match answers made with
    | .connectError => attemptCalls answers attempts (made + 1)
    | .otherError => (made + 1, none)
    | .response response => (made + 1, some response)

/-- `GATEWAY_LOGIN_STARTUP_ATTEMPTS`. -/
def gatewayLoginStartupAttempts : Nat := 8

/-- Where the proxy takes a request: its path, and the origin of an upstream route. -/
structure Destination where
  targetPath : Text
  upstreamOrigin : Option Text
  deriving DecidableEq, Repr

namespace Destination

variable (destination : Destination)

/-- `target_path.lstrip("/") == "sso/Login"` at the Gateway. -/
def isLoginPage : Bool :=
  destination.upstreamOrigin.isNone && lstrip destination.targetPath = "sso/Login".toList

def attempts : Nat := if destination.isLoginPage then gatewayLoginStartupAttempts else 1

def targetOrigin (base : BaseUrl) : Text := destination.upstreamOrigin.getD base.loginOrigin

end Destination

/-- `if cookie_header: headers["cookie"] = cookie_header`. -/
def withCookie (headers : Dict String Text) (cookieHeader : Text) : Dict String Text :=
  if cookieHeader = [] then headers else headers.set "cookie" cookieHeader

/-- The cookie header of the first call. -/
def cookieHeader (session : Session) (destination : Destination) (request : Request) : Text :=
  if destination.upstreamOrigin.isSome then
    upstreamCookieHeader web connector request session.gatewayCookies
  else
    gatewayCookieHeader web connector request session.gatewayCookies
      (destination.isLoginPage && session.gatewayBrowserResetPending)

/-- The call of every attempt, unless its headers cannot be written. -/
def firstCall (base : BaseUrl) (session : Session) (destination : Destination)
    (request : Request) : Option Call :=
  (rewriteOriginHeaders web connector request destination.targetPath
    (destination.targetOrigin base) (request.headerDict.pop "cookie")).map fun headers =>
    { method := request.method
      url := destination.targetOrigin base ++ '/' :: lstrip destination.targetPath
      params := request.params
      body := request.body
      headers := withCookie headers (cookieHeader web connector session destination request) }

/-- The session's cookies after the first call was put together. -/
def jarOfRequest (session : Session) (destination : Destination) (request : Request) :
    Dict Text Text :=
  let cookie := cookieHeader web connector session destination request
  if cookie ≠ [] ∧ destination.upstreamOrigin = none then
    rememberGatewayRequestCookies web session.gatewayCookies cookie
  else session.gatewayCookies

/-- The call that follows the redirect of a POST.  The headers are those of the request, its
cookie header with them. -/
def redirectCall (request : Request) (jar : Dict Text Text) (redirect : Text × Text × Text) :
    Option Call :=
  (rewriteOriginHeaders web connector request redirect.2.1 redirect.1 request.headerDict).map
    fun headers =>
    { method := request.method
      url := redirect.1 ++ '/' :: lstrip redirect.2.1
      params := paramsWithoutLoginToken web redirect.2.2
      body := request.body
      headers := withCookie headers (gatewayCookieHeader web connector request jar false) }

/-- The redirect that is followed, with the session's cookies by then. -/
def followedRedirect (base : BaseUrl) (session : Session) (destination : Destination)
    (request : Request) (response : Response) : Option (Dict Text Text × Text × Text × Text) :=
  if destination.upstreamOrigin.isSome then none
  else
    (serverSidePostRedirectTarget web base request.method destination.targetPath response).map
      fun redirect =>
        (rememberGatewayResponseCookies web (jarOfRequest web connector session destination request)
          response.setCookies, redirect)

/-- `_proxy_login_request`: the calls it makes. -/
def proxyLoginRequest (gateway : Option BaseUrl) (session : Session) (destination : Destination)
    (answers : Nat → Answer) (request : Request) : List Call :=
  match gateway with
  | none => []
  | some base =>
    if Routes.Main.isTradingPath destination.targetPath then []
    else
      match firstCall web connector base session destination request with
      | none => []
      | some call =>
        let (made, response) := attemptCalls answers destination.attempts 0
        let redirected : Option Call := do
          let (jar, redirect) ← followedRedirect web connector base session destination request
            (← response)
          redirectCall web connector request jar redirect
        List.replicate made call ++ redirected.toList

end Proxy

end InvestmentPlatform.Connector.LoginProxy
