/-
The routes of the IBKR connector that reach the Gateway, and the trading paths they refuse.

A request is taken up behind the check of its session, and followed to the call it makes with its
own path.  Two calls are no part of this: the question for the session's status, which
`gateway_get` puts before every read, and the redirect of a POST, whose path comes from an answer
and whose host is never the Gateway.

Only the ASCII letters have a case here.  Two more characters have an ASCII letter in their lower
case, the Kelvin sign and the dotted capital I: no trading term has a k, and the second brings a
combining dot along, behind which no term goes on.
-/
import InvestmentPlatform.Lib.UrlText

namespace InvestmentPlatform.Connector.Routes

open UrlPath

/-- `path.lower()`. -/
def lower (path : Text) : Text := path.map Char.toLower

/-- `term in text`. -/
def contains (text : Text) (term : String) : Bool := decide (term.toList <:+: text)

namespace Main

/-- The blocked terms of `main._is_trading_path`. -/
def blockedTerms : List String :=
  ["/orders", "/iserver/account/orders", "/iserver/reply", "/iserver/order", "/trades"]

/-- `main._is_trading_path`. -/
def isTradingPath (path : Text) : Bool :=
  let normalized := '/' :: lstrip (lower path)
  blockedTerms.any (contains normalized)

end Main

namespace Runtime

/-- The blocked terms of `runtime._is_trading_path`. -/
def blockedTerms : List String :=
  ["/orders", "/iserver/account/orders", "/iserver/reply", "/iserver/order"]

/-- `runtime._is_trading_path`. -/
def isTradingPath (path : Text) : Bool :=
  let normalized := lower path
  blockedTerms.any (contains normalized)

end Runtime

/-! ### Where a request goes -/

/-- `AIP_IBKR_GATEWAY_BASE_URL`, taken apart. -/
structure GatewayUrl where
  origin : Text
  path : Text
  deriving DecidableEq, Repr

/-- The part of a text before the last place where a term is in it. -/
def beforeLast (term : Text) : Text → Option Text
  | [] => if term = [] then some [] else none
  | c :: text =>
    match beforeLast term text with
    | some before => some (c :: before)
    | none => if term.isPrefixOf (c :: text) then some [] else none

namespace GatewayUrl

/-- The path of `gateway_api_base_url`. -/
def apiPath (url : GatewayUrl) : Text := rstrip url.path

/-- The path of `gateway_api_base_url.rsplit("/v1/api", 1)[0].rstrip("/")`. -/
def loginPath (url : GatewayUrl) : Text :=
  rstrip ((beforeLast "/v1/api".toList url.apiPath).getD url.apiPath)

end GatewayUrl

/-- What comes of a request: an error, or a call. -/
inductive Outcome
  | httpError (status : Nat) (detail : String)
  | connectorError (code message : String)
  /-- The call, by the origin, the target and the query it is sent with. -/
  | sent (origin target : Text) (params : List (Text × Text))
  deriving DecidableEq, Repr

/-- `{k: v for k, v in request.query_params.items() if k != "loginToken"}`. -/
def paramsWithoutLoginToken (query : List (Text × Text)) : List (Text × Text) :=
  query.filter fun param => param.1 ≠ "loginToken".toList

/-- `_proxy_login_request`. -/
def proxyLoginRequest (gateway : Option GatewayUrl) (query : List (Text × Text))
    (targetPath : Text) (upstreamOrigin : Option Text) : Outcome :=
  match gateway with
  | none => .httpError 503 "AIP_IBKR_GATEWAY_BASE_URL must be configured."
  | some url =>
    if Main.isTradingPath targetPath then .httpError 404 "Trading routes are not exposed."
    else match upstreamOrigin with
      | some origin => .sent origin ('/' :: lstrip targetPath) (paramsWithoutLoginToken query)
      | none =>
        .sent url.origin (url.loginPath ++ '/' :: lstrip targetPath)
          (paramsWithoutLoginToken query)

/-- `ConnectorManager._gateway_get`. -/
def gatewayGet (gateway : Option GatewayUrl) (path : Text) : Outcome :=
  match gateway with
  | none =>
    .connectorError "GATEWAY_BASE_URL_MISSING" "AIP_IBKR_GATEWAY_BASE_URL must be configured."
  | some url =>
    if Runtime.isTradingPath path then
      .connectorError "TRADING_FORBIDDEN" "Trading operations are not exposed by this connector."
    else .sent url.origin (url.apiPath ++ '/' :: lstrip path) []

/-! ### The escaped login route -/

/-- `_sso_recovery_path`. -/
def ssoRecoveryPath (browserPath : Text) : Option Text :=
  let path := '/' :: lstrip browserPath
  if path = "/Authenticator".toList then some "/sso/Authenticator".toList
  else if path = "/Dispatcher".toList then some "/sso/Dispatcher".toList
  else none

/-- `text.removeprefix(prefix)`. -/
def removePrefix (start text : Text) : Text :=
  if start.isPrefixOf text then text.drop start.length else text

/-- The target path of `_resolve_escaped_login_path`, unless its route is not found.  The
connector is the one its first segment names or, failing that, the one of the context cookie. -/
def resolveEscapedLoginPath (isUuid : Text → Bool) (contextConnector : Bool) (path : Text) :
    Option Text :=
  match (segments path).filter (· ≠ []) with
  | first :: rest =>
    let targetPath := removePrefix "login/".toList (join rest)
    if isUuid first && targetPath ≠ [] then
      some ((ssoRecoveryPath ('/' :: lstrip targetPath)).getD targetPath)
    else ofContext
  | [] => ofContext
where
  ofContext : Option Text :=
    if !contextConnector || path = [] then none
    else some ((ssoRecoveryPath ('/' :: lstrip path)).getD path)

/-! ### The routes -/

/-- A request, by its route. -/
inductive Request
  /-- `login_proxy`. -/
  | login (path : Text) (query : List (Text × Text))
  /-- `escaped_login_proxy`, with whether the context cookie names a connector. -/
  | escaped (path : Text) (query : List (Text × Text)) (contextConnector : Bool)
  /-- `upstream_login_proxy`, with what `_upstream_origin` makes of the host. -/
  | upstream (upstreamOrigin : Option Text) (path : Text) (query : List (Text × Text))
  | accounts
  | positions (accountId : Text) (page : Int)
  | instrument (conid : Text)
  | ledger (accountId : Text)
  deriving DecidableEq, Repr

/-- `"/portfolio/accounts"`. -/
def accountsPath : Text := "/portfolio/accounts".toList

/-- `f"/portfolio/{account_id}/positions/{page}"`. -/
def positionsPath (accountId : Text) (page : Int) : Text :=
  "/portfolio/".toList ++ accountId ++ "/positions/".toList ++ (toString page).toList

/-- `f"/iserver/contract/{conid}/info"`. -/
def instrumentPath (conid : Text) : Text :=
  "/iserver/contract/".toList ++ conid ++ "/info".toList

/-- `f"/portfolio/{account_id}/ledger"`. -/
def ledgerPath (accountId : Text) : Text :=
  "/portfolio/".toList ++ accountId ++ "/ledger".toList

section Routes

variable (isUuid : Text → Bool) (gateway : Option GatewayUrl)

/-- The answer of a route. -/
def handle : Request → Outcome
  | .login path query =>
    proxyLoginRequest gateway query (if path = [] then "sso/Login".toList else path) none
  | .escaped path query contextConnector =>
    match resolveEscapedLoginPath isUuid contextConnector path with
    | none => .httpError 404 "Connector login route was not found."
    | some targetPath => proxyLoginRequest gateway query targetPath none
  | .upstream none _ _ => .httpError 404 "Connector upstream route was not found."
  | .upstream (some origin) path query => proxyLoginRequest gateway query path (some origin)
  | .accounts => gatewayGet gateway accountsPath
  | .positions accountId page => gatewayGet gateway (positionsPath accountId page)
  | .instrument conid => gatewayGet gateway (instrumentPath conid)
  | .ledger accountId => gatewayGet gateway (ledgerPath accountId)

end Routes

/-! ### The order endpoints of the Gateway -/

/-- The segments without `v1/api` before them. -/
def withoutApiPrefix (segs : List Text) : List Text :=
  if ["v1".toList, "api".toList].isPrefixOf segs then segs.drop 2 else segs

/-- `iserver/account/{id}/orders`, `iserver/account/{id}/order`,
`iserver/account/{id}/order/{orderId}` or `iserver/reply/{id}`. -/
def isOrderPath : List Text → Bool
  | [a, b, _] => a == "iserver".toList && b == "reply".toList
  | [a, b, _, d] =>
    a == "iserver".toList && b == "account".toList && (d == "orders".toList || d == "order".toList)
  | [a, b, _, d, _] => a == "iserver".toList && b == "account".toList && d == "order".toList
  | _ => false

/-- The target is an endpoint that places, modifies, cancels or confirms an order. -/
def isOrderEndpoint (target : Text) : Bool := isOrderPath (withoutApiPrefix (canonical target))

end InvestmentPlatform.Connector.Routes
