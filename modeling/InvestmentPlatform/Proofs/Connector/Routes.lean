/-
Which order endpoints get past the trading guard.

The guard looks for terms in the path as it is written, the Gateway reads the path in its normal
form, and the single-order endpoints have no term of their own.  A request is mediated exactly
when its path spells no order endpoint or names a trading word where the guard sees it: directly
after a slash, with its letters as they are.  For a path in normal form the ones that get through
are the single-order endpoints.
-/
import InvestmentPlatform.Connector.Routes

namespace InvestmentPlatform.Connector.Routes

open UrlPath List Bool Main

/-! ### The words of the guard -/

/-- The segments begin with `orders`, or with `iserver` before `reply` or `order`. -/
def beginsOrders (segs : List Text) : Bool :=
  begins ["orders".toList] segs || begins ["iserver".toList, "reply".toList] segs ||
    begins ["iserver".toList, "order".toList] segs

/-- Some segment begins with `orders`, or is `iserver` before one that begins with `reply` or
`order`. -/
def namesOrders (segs : List Text) : Bool :=
  within ["orders".toList] segs || within ["iserver".toList, "reply".toList] segs ||
    within ["iserver".toList, "order".toList] segs

/-- Some segment begins with `trades`. -/
def namesTrades (segs : List Text) : Bool := within ["trades".toList] segs

theorem namesOrders_cons (s : Text) (ss : List Text) :
    namesOrders (s :: ss) = (beginsOrders (s :: ss) || namesOrders ss) := by
  simp only [namesOrders, beginsOrders, within]
  grind

theorem orders_ne_nil : "orders".toList ≠ [] := by decide
theorem iserver_ne_nil : "iserver".toList ≠ [] := by decide
theorem trades_ne_nil : "trades".toList ≠ [] := by decide

theorem namesOrders_lstrip (text : Text) :
    namesOrders (segments (lstrip text)) = namesOrders (segments text) := by
  simp only [namesOrders, within_segments_lstrip orders_ne_nil,
    within_segments_lstrip iserver_ne_nil]

theorem namesTrades_lstrip (text : Text) :
    namesTrades (segments (lstrip text)) = namesTrades (segments text) := by
  simp only [namesTrades, within_segments_lstrip trades_ne_nil]

/-- A term of the guard, by its pieces. -/
theorem contains_term {text p : Text} {ps : List Text} {term : String}
    (hterm : term.toList = '/' :: join (p :: ps)) (hfree : SlashFree (p :: ps)) :
    contains text term = within (p :: ps) (segments text).tail := by
  rw [contains, hterm, Bool.eq_iff_iff, decide_eq_true_iff]
  exact slash_join_infix_iff hfree

/-- The term for the account's orders adds nothing to the one for orders. -/
theorem within_orders_of_account {segs : List Text}
    (h : within ["iserver".toList, "account".toList, "orders".toList] segs = true) :
    within ["orders".toList] segs = true := by
  induction segs with
  | nil => exact h
  | cons s ss ih =>
    rw [within, or_eq_true] at h
    rcases h with h | h
    · have hdrop : begins ["orders".toList] ((s :: ss).drop 2) = true := by
        cases ss with
        | nil => simp [begins] at h
        | cons t rest =>
          cases rest with
          | nil => simp [begins] at h
          | cons u us =>
            simp only [begins, and_eq_true] at h
            exact h.2.2
      exact within_of_begins_drop (cons_ne_nil _ _) hdrop
    · rw [within, ih h, Bool.or_true]

/-- The terms that both guards look for. -/
theorem shared_terms (text : Text) :
    (contains text "/orders" || contains text "/iserver/account/orders" ||
      contains text "/iserver/reply" || contains text "/iserver/order") =
      namesOrders (segments text).tail := by
  have horders : contains text "/orders" = within ["orders".toList] (segments text).tail :=
    contains_term (by rfl) (by simp [SlashFree])
  have haccount : contains text "/iserver/account/orders" =
      within ["iserver".toList, "account".toList, "orders".toList] (segments text).tail :=
    contains_term (by rfl) (by simp [SlashFree])
  have hreply : contains text "/iserver/reply" =
      within ["iserver".toList, "reply".toList] (segments text).tail :=
    contains_term (by rfl) (by simp [SlashFree])
  have horder : contains text "/iserver/order" =
      within ["iserver".toList, "order".toList] (segments text).tail :=
    contains_term (by rfl) (by simp [SlashFree])
  have hadds := @within_orders_of_account (segments text).tail
  rw [horders, haccount, hreply, horder, namesOrders]
  grind

/-- **The guard of the proxy reads every segment behind the leading slashes.** -/
theorem Main.isTradingPath_eq (path : Text) : isTradingPath path =
      (namesOrders (segments (lower path)) || namesTrades (segments (lower path))) := by
  have htrades : contains ('/' :: lstrip (lower path)) "/trades" =
      namesTrades (segments ('/' :: lstrip (lower path))).tail :=
    contains_term (by rfl) (by simp [SlashFree])
  have hshared := shared_terms ('/' :: lstrip (lower path))
  rw [segments_slash, tail_cons, namesOrders_lstrip] at hshared
  rw [segments_slash, tail_cons, namesTrades_lstrip] at htrades
  rw [← hshared, ← htrades]
  simp only [isTradingPath, blockedTerms, any_cons, any_nil, Bool.or_false, Bool.or_assoc]

/-- **The guard of the reads looks behind the first slash, and for no trades.** -/
theorem Runtime.isTradingPath_eq (path : Text) :
    Runtime.isTradingPath path = namesOrders (segments (lower path)).tail := by
  rw [← shared_terms]
  simp only [Runtime.isTradingPath, Runtime.blockedTerms, any_cons, any_nil,
    Bool.or_false, Bool.or_assoc]

/-- The two guards agree exactly on the paths that name the orders after a slash, and on those
that neither begin with them nor name trades. -/
theorem guards_agree_iff (path : Text) : isTradingPath path = Runtime.isTradingPath path ↔
      namesOrders (segments (lower path)).tail = true ∨
        beginsOrders (segments (lower path)) = false ∧
          namesTrades (segments (lower path)) = false := by
  obtain ⟨s, ss, hs⟩ := exists_segments (lower path)
  rw [isTradingPath_eq, Runtime.isTradingPath_eq, hs, tail_cons, namesOrders_cons]
  cases namesOrders ss <;> simp

/-! ### Where a request is taken -/

/-- The path a route hands on, with the guard it hands it to. -/
inductive Route
  | proxied (upstreamOrigin : Option Text) (path : Text) (query : List (Text × Text))
  | read (path : Text)
  deriving DecidableEq

/-- The route of a request, unless it is not found. -/
def Request.route (isUuid : Text → Bool) : Request → Option Route
  | .login path query => some (.proxied none (if path = [] then "sso/Login".toList else path) query)
  | .escaped path query contextConnector =>
    (resolveEscapedLoginPath isUuid contextConnector path).map fun target =>
      .proxied none target query
  | .upstream origin path query => origin.map fun origin => .proxied (some origin) path query
  | .accounts => some (.read accountsPath)
  | .positions accountId page => some (.read (positionsPath accountId page))
  | .instrument conid => some (.read (instrumentPath conid))
  | .ledger accountId => some (.read (ledgerPath accountId))

namespace Route

/-- The target the Gateway would be sent. -/
def target (url : GatewayUrl) : Route → Text
  | .proxied none path _ => url.loginPath ++ '/' :: lstrip path
  | .proxied (some _) path _ => '/' :: lstrip path
  | .read path => url.apiPath ++ '/' :: lstrip path

/-- The path as it is written names a trading word where the guard of the route looks. -/
def named : Route → Bool
  | .proxied _ path _ =>
    namesOrders (segments (lower path)) || namesTrades (segments (lower path))
  | .read path => namesOrders (segments (lower path)).tail

/-- The call of a route that is not refused. -/
def Calls (url : GatewayUrl) (route : Route) (outcome : Outcome) : Prop :=
  ∃ origin params, outcome = .sent origin (route.target url) params

end Route

section Mediation

variable (isUuid : Text → Bool) (gateway : Option GatewayUrl) (request : Request)

/-- No call of the request reaches an order endpoint. -/
def Mediated : Prop :=
  ∀ origin target params, handle isUuid gateway request = .sent origin target params →
    isOrderEndpoint target = false

variable {isUuid gateway request}

theorem proxyLoginRequest_calls (url : GatewayUrl) (origin : Option Text) (path : Text)
    (query : List (Text × Text)) (h : (Route.proxied origin path query).named = false) :
    (Route.proxied origin path query).Calls url
      (proxyLoginRequest (some url) query path origin) := by
  have hguard : isTradingPath path = false := by
    rw [isTradingPath_eq]
    exact h
  cases origin with
  | none => exact ⟨url.origin, _, by simp only [proxyLoginRequest, hguard]; rfl⟩
  | some origin => exact ⟨origin, _, by simp only [proxyLoginRequest, hguard]; rfl⟩

theorem gatewayGet_calls (url : GatewayUrl) (path : Text) (h : (Route.read path).named = false) :
    (Route.read path).Calls url (gatewayGet (some url) path) := by
  have hguard : Runtime.isTradingPath path = false := by
    rw [Runtime.isTradingPath_eq]
    exact h
  exact ⟨url.origin, [], by simp only [gatewayGet, hguard]; rfl⟩

variable {host : Text} {params : List (Text × Text)}

/-- What is sent has passed the guard and goes to the target of its route. -/
theorem proxyLoginRequest_sent {origin : Option Text} {path : Text} {query : List (Text × Text)}
    {target : Text} (h : proxyLoginRequest gateway query path origin = .sent host target params) :
    ∃ url, gateway = some url ∧ (Route.proxied origin path query).named = false ∧
      target = (Route.proxied origin path query).target url := by
  cases gateway with
  | none => cases h
  | some url =>
    refine ⟨url, rfl, ?_⟩
    simp only [proxyLoginRequest] at h
    split at h
    · cases h
    · rename_i hguard
      rw [not_eq_true, isTradingPath_eq] at hguard
      refine ⟨hguard, ?_⟩
      cases origin with
      | none => cases h; rfl
      | some origin => cases h; rfl

theorem gatewayGet_sent {path target : Text}
    (h : gatewayGet gateway path = .sent host target params) :
    ∃ url, gateway = some url ∧ (Route.read path).named = false ∧
      target = (Route.read path).target url := by
  cases gateway with
  | none => cases h
  | some url =>
    refine ⟨url, rfl, ?_⟩
    simp only [gatewayGet] at h
    split at h
    · cases h
    · rename_i hguard
      rw [not_eq_true, Runtime.isTradingPath_eq] at hguard
      cases h
      exact ⟨hguard, rfl⟩

/-- A call is the one of the request's route. -/
theorem handle_sent {target : Text} (h : handle isUuid gateway request = .sent host target params) :
    ∃ route url, request.route isUuid = some route ∧ gateway = some url ∧ route.named = false ∧
      target = route.target url := by
  cases request with
  | login path query =>
    rw [handle] at h
    obtain ⟨url, hurl, hnamed, htarget⟩ := proxyLoginRequest_sent h
    exact ⟨_, url, rfl, hurl, hnamed, htarget⟩
  | escaped path query contextConnector =>
    simp only [handle] at h
    split at h
    · cases h
    · rename_i targetPath hresolve
      obtain ⟨url, hurl, hnamed, htarget⟩ := proxyLoginRequest_sent h
      exact ⟨_, url, by rw [Request.route, hresolve]; rfl, hurl, hnamed, htarget⟩
  | upstream origin path query =>
    cases origin with
    | none => cases h
    | some origin =>
      rw [handle] at h
      obtain ⟨url, hurl, hnamed, htarget⟩ := proxyLoginRequest_sent h
      exact ⟨_, url, rfl, hurl, hnamed, htarget⟩
  | accounts =>
    obtain ⟨url, hurl, hnamed, htarget⟩ := gatewayGet_sent h
    exact ⟨_, url, rfl, hurl, hnamed, htarget⟩
  | positions accountId page =>
    obtain ⟨url, hurl, hnamed, htarget⟩ := gatewayGet_sent h
    exact ⟨_, url, rfl, hurl, hnamed, htarget⟩
  | instrument conid =>
    obtain ⟨url, hurl, hnamed, htarget⟩ := gatewayGet_sent h
    exact ⟨_, url, rfl, hurl, hnamed, htarget⟩
  | ledger accountId =>
    obtain ⟨url, hurl, hnamed, htarget⟩ := gatewayGet_sent h
    exact ⟨_, url, rfl, hurl, hnamed, htarget⟩

/-- A route whose path names no trading word is called. -/
theorem handle_calls {route : Route} (url : GatewayUrl)
    (hroute : request.route isUuid = some route) (hnamed : route.named = false) :
    route.Calls url (handle isUuid (some url) request) := by
  cases request with
  | login path query =>
    cases hroute
    exact proxyLoginRequest_calls url none _ query hnamed
  | escaped path query contextConnector =>
    obtain ⟨targetPath, hresolve, rfl⟩ := Option.map_eq_some_iff.mp hroute
    rw [handle, hresolve]
    exact proxyLoginRequest_calls url none targetPath query hnamed
  | upstream origin path query =>
    obtain ⟨origin, rfl, rfl⟩ := Option.map_eq_some_iff.mp hroute
    exact proxyLoginRequest_calls url (some origin) path query hnamed
  | accounts => cases hroute; exact gatewayGet_calls url _ hnamed
  | positions accountId page => cases hroute; exact gatewayGet_calls url _ hnamed
  | instrument conid => cases hroute; exact gatewayGet_calls url _ hnamed
  | ledger accountId => cases hroute; exact gatewayGet_calls url _ hnamed

/-- **A request is mediated exactly when its target is no order endpoint or its path, as it is
written, names a trading word.** -/
theorem mediated_iff_named {route : Route} {url : GatewayUrl}
    (hroute : request.route isUuid = some route) (hurl : gateway = some url) :
    Mediated isUuid gateway request ↔
      (isOrderEndpoint (route.target url) = true → route.named = true) := by
  subst hurl
  constructor
  · intro hmediated horder
    by_contra hnamed
    obtain ⟨origin, params, hsent⟩ := handle_calls url hroute (not_eq_true _ ▸ hnamed)
    rw [hmediated origin _ params hsent] at horder
    exact Bool.noConfusion horder
  · intro himp origin target params hsent
    obtain ⟨route', url', hroute', hurl', hnamed, rfl⟩ := handle_sent hsent
    cases hroute.symm.trans hroute'
    cases hurl'
    by_contra horder
    rw [himp (not_eq_false _ ▸ horder)] at hnamed
    exact Bool.noConfusion hnamed

/-- A request without a route, or without a Gateway, makes no call. -/
theorem mediated_of_no_route (h : request.route isUuid = none ∨ gateway = none) :
    Mediated isUuid gateway request := by
  intro origin target params hsent
  obtain ⟨route, url, hroute, hurl, -, -⟩ := handle_sent hsent
  rcases h with h | h
  · rw [h] at hroute
    cases hroute
  · rw [h] at hurl
    cases hurl

end Mediation

/-! ### Paths in normal form -/

/-- The segments name a trading word, in whatever case. -/
def names (segs : List Text) : Bool :=
  namesOrders (segs.map lower) || namesTrades (segs.map lower)

/-- The segment begins with `orders` or `trades`, in whatever case. -/
def hidesWord (s : Text) : Bool :=
  "orders".toList.isPrefixOf (lower s) || "trades".toList.isPrefixOf (lower s)

/-- The first segment begins with `reply` or `order`, in whatever case. -/
def headsOrders : List Text → Bool
  | [] => false
  | s :: _ => "reply".toList.isPrefixOf (lower s) || "order".toList.isPrefixOf (lower s)

theorem names_nil : names [] = false := rfl

theorem names_cons (s : Text) (ss : List Text) : names (s :: ss) =
      (hidesWord s || ("iserver".toList == lower s && headsOrders ss) || names ss) := by
  cases ss with
  | nil => simp [names, namesOrders, namesTrades, hidesWord, headsOrders, within, begins]
  | cons t ts =>
    simp only [names, namesOrders, namesTrades, hidesWord, headsOrders, within, begins, map_cons]
    grind

/-- A single order, or one to be placed, whose identifiers name no trading word. -/
def isLooseOrder : List Text → Bool
  | [a, b, account, d] =>
    a == "iserver".toList && b == "account".toList && d == "order".toList &&
      !(hidesWord account || "iserver".toList == lower account)
  | [a, b, account, d, orderId] =>
    a == "iserver".toList && b == "account".toList && d == "order".toList &&
      !(hidesWord account || "iserver".toList == lower account || hidesWord orderId)
  | _ => false

/-- The fixed segments of the order endpoints, as the guard sees them. -/
theorem fixed_segments : hidesWord "iserver".toList = false ∧ hidesWord "account".toList = false ∧
      hidesWord "order".toList = false ∧ hidesWord "orders".toList = true ∧
      hidesWord "v1".toList = false ∧ hidesWord "api".toList = false ∧
      ("iserver".toList == lower "iserver".toList) = true ∧
      ("iserver".toList == lower "account".toList) = false ∧
      ("iserver".toList == lower "order".toList) = false ∧
      ("iserver".toList == lower "v1".toList) = false ∧
      ("iserver".toList == lower "api".toList) = false ∧
      (∀ ss, headsOrders ("reply".toList :: ss) = true) ∧
      (∀ ss, headsOrders ("order".toList :: ss) = true) ∧
      (∀ ss, headsOrders ("account".toList :: ss) = false) := by
  refine ⟨?_, ?_, ?_, ?_, ?_, ?_, ?_, ?_, ?_, ?_, ?_, ?_, ?_, ?_⟩
  all_goals first | rfl | exact fun _ => rfl

theorem names_withoutApiPrefix (segs : List Text) : names (withoutApiPrefix segs) = names segs := by
  obtain ⟨-, -, -, -, hv1, hapi, -, -, -, hv1', hapi', -⟩ := fixed_segments
  unfold withoutApiPrefix
  split
  · rename_i h
    obtain ⟨rest, rfl⟩ := isPrefixOf_iff_prefix.mp h
    simp only [cons_append, nil_append, drop_succ_cons, drop_zero]
    rw [names_cons, names_cons, hv1, hapi, hv1', hapi']
    simp
  · rfl

/-- **The order endpoints without a trading word are the loose ones.** -/
theorem isLooseOrder_eq (segs : List Text) :
    isLooseOrder segs = (isOrderPath segs && !names segs) := by
  obtain ⟨hi, ha, ho, hos, -, -, hii, hia, hio, -, -, hreply, horder, haccount⟩ := fixed_segments
  match segs with
  | [] => rfl
  | [_] => rfl
  | [_, _] => rfl
  | [a, b, id] =>
    rw [isLooseOrder, isOrderPath]
    · by_cases h : a = "iserver".toList ∧ b = "reply".toList
      · obtain ⟨rfl, rfl⟩ := h
        rw [names_cons, hreply, hii]
        simp
      · grind
    all_goals simp
  | [a, b, account, d] =>
    rw [isLooseOrder, isOrderPath]
    by_cases h : a = "iserver".toList ∧ b = "account".toList
    · obtain ⟨rfl, rfl⟩ := h
      rw [names_cons, names_cons, names_cons, names_cons, hi, ha, haccount, hii, hia, names_nil]
      by_cases hd : d = "orders".toList
      · subst hd
        rw [hos]
        simp
      · by_cases hd' : d = "order".toList
        · subst hd'
          rw [ho, hio, horder]
          simp
        · grind
    · grind
  | [a, b, account, d, orderId] =>
    rw [isLooseOrder, isOrderPath]
    by_cases h : a = "iserver".toList ∧ b = "account".toList ∧ d = "order".toList
    · obtain ⟨rfl, rfl, rfl⟩ := h
      rw [names_cons, names_cons, names_cons, names_cons, names_cons, hi, ha, ho, haccount, hii,
        hia, hio, horder, names_nil]
      simp [headsOrders]
    · grind
  | _ :: _ :: _ :: _ :: _ :: _ :: _ => rfl

theorem lower_slash (c : Char) : c.toLower = '/' ↔ c = '/' := by
  constructor
  · intro h
    by_contra hc
    unfold Char.toLower at h
    split at h
    · rename_i hupper
      have hlow : 65 ≤ c.toNat := UInt32.le_iff_toNat_le.mp hupper.1
      have hhigh : c.toNat ≤ 90 := UInt32.le_iff_toNat_le.mp hupper.2
      have hval := congrArg Char.toNat h
      change (c.val + ('a'.val - 'A'.val)).toNat = 47 at hval
      rw [UInt32.toNat_add] at hval
      have hshift : ('a'.val - 'A'.val).toNat = 32 := by decide
      have hnat : c.val.toNat = c.toNat := rfl
      omega
    · exact hc h
  · rintro rfl
    decide

theorem named_proxied (origin : Option Text) (path : Text) (query : List (Text × Text)) :
    (Route.proxied origin path query).named = names (segments (lstrip path)) := by
  have hlower : (segments (lstrip path)).map lower = segments (lstrip (lower path)) := by
    rw [lower, lstrip_map lower_slash, segments_map lower_slash]
    rfl
  rw [Route.named, names, hlower, namesOrders_lstrip, namesTrades_lstrip]

/-- **The normal forms that get past the proxy's guard are the single-order endpoints.** -/
theorem named_of_normal {url : GatewayUrl} {origin : Option Text} {path : Text}
    {query : List (Text × Text)} (hroot : origin.isSome = true ∨ url.loginPath = [])
    (hnormal : canonical ('/' :: lstrip path) = segments (lstrip path)) :
    (isOrderEndpoint ((Route.proxied origin path query).target url) = true →
        (Route.proxied origin path query).named = true) ↔
      isLooseOrder (withoutApiPrefix (segments (lstrip path))) = false := by
  have htarget : (Route.proxied origin path query).target url = '/' :: lstrip path := by
    cases origin with
    | none =>
      rcases hroot with h | h
      · cases h
      · rw [Route.target, h, nil_append]
    | some origin => rfl
  rw [htarget, isOrderEndpoint, hnormal, named_proxied, isLooseOrder_eq, names_withoutApiPrefix]
  cases isOrderPath (withoutApiPrefix (segments (lstrip path))) <;>
    cases names (segments (lstrip path)) <;> simp

/-! ### Complete mediation -/

/-- **The exact reach of the trading guard.**  A request is mediated exactly when its target is no
order endpoint or its path names a trading word after a slash, as it is written; a proxied path in
normal form, exactly when it is no single-order endpoint, or one whose identifiers name a trading
word.  The two guards agree exactly on the paths that name the orders after a slash and on those
that neither begin with them nor name trades. -/
theorem mediated_iff (isUuid : Text → Bool) :
    (∀ gateway request, Mediated isUuid gateway request ↔
      ∀ route url, request.route isUuid = some route → gateway = some url →
        isOrderEndpoint (route.target url) = true → route.named = true) ∧
    (∀ url request origin path query,
      request.route isUuid = some (.proxied origin path query) →
      (origin.isSome = true ∨ url.loginPath = []) →
      canonical ('/' :: lstrip path) = segments (lstrip path) →
      (Mediated isUuid (some url) request ↔
        isLooseOrder (withoutApiPrefix (segments (lstrip path))) = false)) ∧
    (∀ path, Main.isTradingPath path = Runtime.isTradingPath path ↔
      namesOrders (segments (lower path)).tail = true ∨
        beginsOrders (segments (lower path)) = false ∧
          namesTrades (segments (lower path)) = false) := by
  refine ⟨?_, ?_, guards_agree_iff⟩
  · intro gateway request
    constructor
    · intro hmediated route url hroute hurl
      exact (mediated_iff_named hroute hurl).mp hmediated
    · intro himp
      cases hroute : request.route isUuid with
      | none => exact mediated_of_no_route (Or.inl hroute)
      | some route =>
        cases gateway with
        | none => exact mediated_of_no_route (Or.inr rfl)
        | some url => exact (mediated_iff_named hroute rfl).mpr (himp route url hroute rfl)
  · intro url request origin path query hroute hroot hnormal
    rw [mediated_iff_named hroute rfl]
    exact named_of_normal hroot hnormal

/-- An account whose identifier begins with a trading word gives its orders away. -/
theorem mediated_named_account :
    Mediated (fun _ => false) (some ⟨"https://127.0.0.1:5000".toList, "/v1/api".toList⟩)
      (.login "v1/api/iserver/account/Orders-1/order".toList []) :=
  ((mediated_iff fun _ => false).2.1 ⟨"https://127.0.0.1:5000".toList, "/v1/api".toList⟩
    (.login "v1/api/iserver/account/Orders-1/order".toList []) none
    "v1/api/iserver/account/Orders-1/order".toList [] (by rfl)
    (Or.inr (by rfl)) (by rfl)).mpr (by rfl)

/-- The login route takes an order to the Gateway, and the guards differ on the trades. -/
theorem order_gets_through :
    ¬ Mediated (fun _ => false) (some ⟨"https://127.0.0.1:5000".toList, "/v1/api".toList⟩)
        (.login "v1/api/iserver/account/U1/order".toList []) ∧
      Main.isTradingPath "/iserver/account/trades".toList ≠
        Runtime.isTradingPath "/iserver/account/trades".toList := by
  constructor
  · intro hmediated
    have hrefused : isOrderEndpoint "/v1/api/iserver/account/U1/order".toList = false :=
      hmediated "https://127.0.0.1:5000".toList _ [] (by rfl)
    have horder : isOrderEndpoint "/v1/api/iserver/account/U1/order".toList = true := by
      rfl
    rw [horder] at hrefused
    exact Bool.noConfusion hrefused
  · decide

end InvestmentPlatform.Connector.Routes
