import AzsServer.Crow.RouterRules
import AzsServer.Server.Routes

/-!
# From a request to its route

`init_view_login` registers the rules of the server, and Crow adds one of its own for the
directory `static`.  A request, that is a method and a URL, comes to a route exactly if the route
has this method and this URL, and the other requests get one of the codes 404 and 405.
-/

namespace AzsServer
namespace Server

open Core Crow

/-! ## The rules -/

/-- The handlers that the rules of the server call. -/
inductive Handler where
  /-- The handler of `/public/<path>`, which gets the path. -/
  | publicFiles
  | page (route : Route)
  /-- The handler that Crow registers for `CROW_STATIC_ENDPOINT`. -/
  | staticDir
deriving DecidableEq

/-- `.methods("POST"_method)`, or the default. -/
def Route.method : Route → HTTPMethod
  | .auth => .post
  | .settingsDberrorSend => .post
  | .client .apiTrkSave => .post
  | .client .apiSettingsSet => .post
  | .client .apiSettingsDelete => .post
  | _ => .get

/-- The routes without a parameter, in the order of `init_view_login`. -/
def pages : List Route :=
  [.root, .auth, .settingsDberror, .settingsDberrorSend, .settingsDberrorCheck, .api,
    .client .mainTrk, .client .mainSettings, .client .mainSettingsConfig,
    .client .oldMainSettingsConfig, .client .apiTrkSave, .client .apiOut, .client .apiOutshift,
    .client .apiSettingsGet, .client .apiSettingsSet, .client .apiSettingsDelete,
    .client .apiSettingsKasaGet, .client .apiSettingsTanksGet, .client .apiSettingsTovarsGet,
    .client .apiSettingsTrksGet]

/-- The rule of a route without a parameter. -/
def pageRule (route : Route) : Rule Handler :=
  { rule := route.url, methods := methodBit route.method, handler := .page route }

/-- `CROW_ROUTE(app, "/public/<path>")` -/
def publicRule : Rule Handler := { rule := ascii "/public/<path>", handler := .publicFiles }

/-- The rule that `validate` of the application adds. -/
def staticRule : Rule Handler := { rule := ascii "/static/<path>", handler := .staticDir }

/-- The rules of the application. -/
def azsRules : List (Rule Handler) := publicRule :: pages.map pageRule ++ [staticRule]

/-- The route that the call of a handler comes to. -/
def Handler.route {δ : Type} (params : RoutingParams δ) : Handler → Option Route
  | .publicFiles => params.stringParams.head?.map Route.publicFiles
  | .page route => some route
  | .staticDir => none

/-! ## The URLs -/

theorem mem_pages_or (route : Route) : (∃ path, route = .publicFiles path) ∨ route ∈ pages := by
  cases route with
  | publicFiles path => exact .inl ⟨path, rfl⟩
  | client func => exact .inr (by cases func <;> decide)
  | _ => exact .inr (by decide)

theorem nodup_pageUrls : (pages.map Route.url).Nodup := by decide +kernel

theorem take_pageUrl : ∀ route ∈ pages, (route.url.take 8 ≠ ascii "/public/" ∧
    route.url.take 8 ≠ ascii "/static/") ∧ 60 ∉ route.url := by decide +kernel

/-- No two routes have one URL. -/
theorem url_injective : Function.Injective Route.url := by
  intro first second hUrl
  have hPublic : ∀ path, (Route.publicFiles path).url.take 8 = ascii "/public/" := fun _ => rfl
  rcases mem_pages_or first with ⟨path, rfl⟩ | hFirst <;>
    rcases mem_pages_or second with ⟨other, rfl⟩ | hSecond
  · exact congrArg Route.publicFiles (List.append_cancel_left hUrl)
  · exact absurd (hUrl ▸ hPublic path) (take_pageUrl second hSecond).1.1
  · exact absurd (hUrl ▸ hPublic other) (take_pageUrl first hFirst).1.1
  · exact List.inj_on_of_nodup_map nodup_pageUrls hFirst hSecond hUrl

/-- No route is in the directory that Crow serves itself. -/
theorem url_ne_static (route : Route) (path : Bytes) : route.url ≠ ascii "/static/" ++ path := by
  intro hUrl
  have hTake : route.url.take 8 = ascii "/static/" := hUrl ▸ rfl
  rcases mem_pages_or route with ⟨other, rfl⟩ | hMem
  · have hPublic : (Route.publicFiles other).url.take 8 = ascii "/public/" := rfl
    rw [hPublic] at hTake
    exact absurd hTake (by decide)
  · exact (take_pageUrl route hMem).1.2 hTake

/-! ## The router -/

/-- The router of the application behind `validate`. -/
def azsRouter : Router Handler :=
  match Router.validate azsRules with
  | .ok router => router
  | .error _ => fun _ => {}

/-- The rules of the application are taken: no two of a method are the same. -/
theorem validate_azsRules : Router.validate azsRules = .ok azsRouter := by
  have hValid : (Router.validate azsRules).toBool = true := by decide +kernel
  rw [azsRouter]
  cases hRouter : Router.validate azsRules with
  | error failure =>
      rw [hRouter] at hValid
      cases hValid
  | ok router => rfl

section Dispatch

variable {δ : Type} (strtod : Bytes → Option (δ × Nat))

/-- The method of a handler's rule. -/
def Handler.method : Handler → HTTPMethod
  | .page route => route.method
  | _ => .get

/-- The URL that a handler is called for, and the parameters that it gets. -/
def Handler.Answers (handler : Handler) (url : Bytes) (params : RoutingParams δ) : Prop :=
  match handler with
  | .publicFiles =>
      ∃ path ≠ [], url = (Route.publicFiles path).url ∧ params = { stringParams := [path] }
  | .page route => route ∈ pages ∧ url = route.url ∧ params = {}
  | .staticDir => ∃ path ≠ [], url = ascii "/static/" ++ path ∧ params = { stringParams := [path] }

theorem Route.method_eq (route : Route) : route.method = .get ∨ route.method = .post := by
  cases route with
  | client func => cases func <;> simp [Route.method]
  | _ => simp [Route.method]

theorem mem_foreachMethod_methodBit {method own : HTTPMethod} (hOwn : own = .get ∨ own = .post) :
    method ∈ foreachMethod (methodBit own) ↔ method = own := by
  rcases hOwn with rfl | rfl
  · exact (by decide +kernel : ∀ method ∈ HTTPMethod.all,
      method ∈ foreachMethod (methodBit .get) ↔ method = .get) method method.mem_all
  · exact (by decide +kernel : ∀ method ∈ HTTPMethod.all,
      method ∈ foreachMethod (methodBit .post) ↔ method = .post) method method.mem_all

/-- What a rule of the application matches. -/
theorem matchUrl_azsRules {rule : Rule Handler} (hMem : rule ∈ azsRules) (url : Bytes)
    (params : RoutingParams δ) :
    (matchUrl strtod rule.rule url = some params ↔ rule.handler.Answers url params) ∧
      ∀ method, method ∈ foreachMethod rule.methods ↔ method = rule.handler.method := by
  rcases List.mem_append.mp hMem with hMem | hMem
  · rcases List.mem_cons.mp hMem with rfl | hMem
    · have hRule : publicRule.rule = ascii "/public/" ++ ascii "<path>" := by decide
      rw [hRule]
      exact ⟨matchUrl_path strtod (by decide) url params,
        fun method => mem_foreachMethod_methodBit (.inl rfl)⟩
    · obtain ⟨route, hRoute, rfl⟩ := List.mem_map.mp hMem
      refine ⟨?_, fun method => mem_foreachMethod_methodBit route.method_eq⟩
      rw [pageRule, matchUrl_plain strtod (take_pageUrl route hRoute).2]
      exact (and_iff_right hRoute).symm
  · have hRule : staticRule.rule = ascii "/static/" ++ ascii "<path>" := by decide
    rw [List.mem_singleton.mp hMem, hRule]
    exact ⟨matchUrl_path strtod (by decide) url params,
      fun method => mem_foreachMethod_methodBit (.inl rfl)⟩

/-- A method and a URL that a rule of the application is made for. -/
def Offered (method : HTTPMethod) (url : Bytes) : Prop :=
  (∃ route : Route, route.method = method ∧ route.url = url ∧ route ≠ .publicFiles []) ∨
    method = .get ∧ ∃ path ≠ [], url = ascii "/static/" ++ path

/-- The rule of a route, or of the directory that Crow serves. -/
theorem exists_rule_of_offered {method : HTTPMethod} {url : Bytes} (hOffered : Offered method url) :
    ∃ rule ∈ azsRules, rule.handler.method = method ∧
      ∃ params : RoutingParams δ, rule.handler.Answers url params := by
  rcases hOffered with ⟨route, rfl, rfl, hWhole⟩ | ⟨rfl, path, hPath, rfl⟩
  · rcases mem_pages_or route with ⟨path, rfl⟩ | hMem
    · have hPath : path ≠ [] := fun hNil => hWhole (by rw [hNil])
      exact ⟨publicRule, List.mem_cons_self, rfl, _, path, hPath, rfl, rfl⟩
    · have hRule : pageRule route ∈ azsRules :=
        List.mem_append_left _ (List.mem_cons_of_mem _ (List.mem_map_of_mem hMem))
      exact ⟨pageRule route, hRule, rfl, {}, hMem, rfl, rfl⟩
  · exact ⟨staticRule, List.mem_append_right _ (List.mem_singleton_self _), rfl, _, path, hPath,
      rfl, rfl⟩

/-- Which routes a handler that answers a URL comes to. -/
theorem Handler.Answers.route_iff {handler : Handler} {url : Bytes} {params : RoutingParams δ}
    (hAnswers : handler.Answers url params) (route : Route) :
    handler.route params = some route ↔
      route.method = handler.method ∧ route.url = url ∧ route ≠ .publicFiles [] := by
  cases handler with
  | publicFiles =>
      obtain ⟨path, hPath, rfl, rfl⟩ := hAnswers
      constructor
      · intro hRoute
        obtain rfl : Route.publicFiles path = route := Option.some.inj hRoute
        exact ⟨rfl, rfl, fun hEq => hPath (Route.publicFiles.inj hEq)⟩
      · rintro ⟨-, hUrl, -⟩
        exact congrArg some (url_injective hUrl).symm
  | page own =>
      obtain ⟨hPage, rfl, rfl⟩ := hAnswers
      have hWhole : Route.publicFiles [] ∉ pages := by decide
      constructor
      · intro hRoute
        obtain rfl : own = route := Option.some.inj hRoute
        exact ⟨rfl, rfl, fun hEq => hWhole (hEq ▸ hPage)⟩
      · rintro ⟨-, hUrl, -⟩
        exact congrArg some (url_injective hUrl).symm
  | staticDir =>
      obtain ⟨path, hPath, rfl, rfl⟩ := hAnswers
      exact iff_of_false (by simp [Handler.route]) fun hAll => url_ne_static route path hAll.2.1

/-- What the search in the tree of a method finds. -/
theorem findIn_azsRouter (method : HTTPMethod) (url host : Bytes) :
    (azsRouter.findIn strtod method url).ruleIndex = 0 ∧ ¬ Offered method url ∨
      (azsRouter.findIn strtod method url).ruleIndex ≠ 0 ∧
        ∃ (handler : Handler) (params : RoutingParams δ),
          azsRouter.handle method (azsRouter.findIn strtod method url) url host =
              .call handler params ∧
            handler.method = method ∧ handler.Answers url params := by
  have hNul : ∀ rule ∈ azsRules, 0 ∉ rule.rule := by decide +kernel
  have hSlash : ∀ rule ∈ azsRules, rule.withoutTrailingSlash = none := by decide +kernel
  have hMerged := Router.merged_of_validate hNul (by decide) validate_azsRules method
  have hFinds := hMerged.finds_chosen strtod url host
  have hDirect : ¬ redirects strtod (rulesFor azsRules method) url = true := by
    simp only [redirects, List.any_eq_true, not_exists, not_and]
    intro rule hRule
    simp [hSlash rule (List.mem_filter.mp hRule).1]
  cases hChosen : chosen strtod (rulesFor azsRules method) url host with
  | none =>
      rw [hChosen] at hFinds
      refine .inl ⟨hFinds, fun hOffered => ?_⟩
      rw [chosen, if_neg hDirect, List.findSome?_eq_none_iff] at hChosen
      obtain ⟨rule, hMem, hMethod, params, hAnswers⟩ := exists_rule_of_offered (δ := δ) hOffered
      obtain ⟨hMatch, hBit⟩ := matchUrl_azsRules strtod hMem url params
      have hRule : rule ∈ rulesFor azsRules method :=
        List.mem_filter.mpr ⟨hMem, decide_eq_true ((hBit method).mpr hMethod.symm)⟩
      have hNone := hChosen rule hRule
      rw [hMatch.mpr hAnswers] at hNone
      cases hNone
  | some handled =>
      rw [hChosen] at hFinds
      rw [chosen, if_neg hDirect] at hChosen
      obtain ⟨rule, hRule, hMap⟩ := List.exists_of_findSome?_eq_some hChosen
      obtain ⟨params, hParams, rfl⟩ := Option.map_eq_some_iff.mp hMap
      obtain ⟨hMem, hIn⟩ := List.mem_filter.mp hRule
      obtain ⟨hMatch, hBit⟩ := matchUrl_azsRules strtod hMem url params
      exact .inr ⟨hFinds.1, rule.handler, params, hFinds.2,
        ((hBit method).mp (of_decide_eq_true hIn)).symm, hMatch.mp hParams⟩

/-- A handler answers only what a rule is made for. -/
theorem Handler.Answers.offered {handler : Handler} {url : Bytes} {params : RoutingParams δ}
    (hAnswers : handler.Answers url params) : Offered handler.method url := by
  cases handler with
  | publicFiles =>
      obtain ⟨path, hPath, rfl, rfl⟩ := hAnswers
      exact .inl ⟨.publicFiles path, rfl, rfl, fun hEq => hPath (Route.publicFiles.inj hEq)⟩
  | page route =>
      obtain ⟨hPage, rfl, rfl⟩ := hAnswers
      have hWhole : Route.publicFiles [] ∉ pages := by decide
      exact .inl ⟨route, rfl, rfl, fun hEq => hWhole (hEq ▸ hPage)⟩
  | staticDir =>
      obtain ⟨path, hPath, rfl, rfl⟩ := hAnswers
      exact .inr ⟨rfl, path, hPath, rfl⟩

/-- The tree of a method finds something exactly for what a rule is made for. -/
theorem findIn_ne_zero_iff (method : HTTPMethod) (url : Bytes) :
    (azsRouter.findIn strtod method url).ruleIndex ≠ 0 ↔ Offered method url := by
  rcases findIn_azsRouter strtod method url [] with
    ⟨hZero, hNot⟩ | ⟨hFound, handler, params, -, rfl, hAnswers⟩
  · exact iff_of_false (not_not.mpr hZero) hNot
  · exact iff_of_true hFound hAnswers.offered

/-- A request comes to the handler of a route. -/
def ComesTo (reply : Reply Handler δ) (route : Route) : Prop :=
  ∃ handler params skipBody, reply = .handled (.call handler params) skipBody ∧
    handler.route params = some route

/-- The methods of the requests to a route: a HEAD is answered as a GET. -/
def Route.Takes (route : Route) (method : HTTPMethod) : Prop :=
  route.method = method ∨ method = .head ∧ route.method = .get

theorem not_comesTo_ended (code : Nat) (allow : Option Bytes) (route : Route) :
    ¬ ComesTo (.ended code allow : Reply Handler δ) route := by
  rintro ⟨handler, params, skipBody, hReply, -⟩
  cases hReply

theorem comesTo_call_iff {handler : Handler} {params : RoutingParams δ} {skipBody : Bool}
    {route : Route} :
    ComesTo (.handled (.call handler params) skipBody) route ↔
      handler.route params = some route := by
  constructor
  · rintro ⟨other, found, skip, hReply, hRoute⟩
    cases hReply
    exact hRoute
  · exact fun hRoute => ⟨handler, params, skipBody, rfl, hRoute⟩

theorem not_offered_head (url : Bytes) : ¬ Offered .head url := by
  rintro (⟨route, hMethod, -⟩ | ⟨hMethod, -⟩)
  · rcases route.method_eq with hEq | hEq <;> rw [hEq] at hMethod <;> cases hMethod
  · cases hMethod

theorem not_takes_options (route : Route) : ¬ route.Takes .options := by
  rintro (hMethod | ⟨hMethod, -⟩)
  · rcases route.method_eq with hEq | hEq <;> rw [hEq] at hMethod <;> cases hMethod
  · cases hMethod

theorem any_findIn_iff (url : Bytes) :
    (HTTPMethod.all.any fun other => (azsRouter.findIn strtod other url).ruleIndex ≠ 0) = true ↔
      ∃ other, Offered other url := by
  simp only [List.any_eq_true, decide_eq_true_eq, findIn_ne_zero_iff, HTTPMethod.mem_all,
    true_and]

/-- What becomes of a request: the route that it comes to, or the code that refuses it. -/
structure Dispatched (reply : Reply Handler δ) (method : HTTPMethod) (url : Bytes) : Prop where
  reaches : ∀ route, ComesTo reply route ↔
    route.Takes method ∧ route.url = url ∧ route ≠ .publicFiles []
  notAllowed : reply = .ended 405 none ↔
    method ≠ .head ∧ method ≠ .options ∧ ¬ Offered method url ∧ ∃ other, Offered other url
  notFound : reply = .ended 404 none ↔
    if method = .head then ¬ Offered .get url
    else (∀ other, ¬ Offered other url) ∧ ¬ (method = .options ∧ url = ascii "/*")

/-- A handler is called, for GET or for the method of the request. -/
theorem dispatched_of_call {method : HTTPMethod} {url : Bytes} {handler : Handler}
    {params : RoutingParams δ} (skipBody : Bool) (hAnswers : handler.Answers url params)
    (hTakes : ∀ route : Route, route.Takes method ↔ route.method = handler.method)
    (hMethod : method = .head ∧ handler.method = .get ∨ method ≠ .head ∧ handler.method = method) :
    Dispatched (.handled (.call handler params) skipBody) method url where
  reaches := fun route => by
    rw [comesTo_call_iff, hTakes]
    exact hAnswers.route_iff route
  notAllowed := by
    refine iff_of_false (fun hReply => by cases hReply) ?_
    rintro ⟨hHead, -, hNot, -⟩
    rcases hMethod with ⟨hEq, -⟩ | ⟨-, hEq⟩
    · exact hHead hEq
    · exact hNot (hEq ▸ hAnswers.offered)
  notFound := by
    refine iff_of_false (fun hReply => by cases hReply) ?_
    rcases hMethod with ⟨rfl, hEq⟩ | ⟨hHead, -⟩
    · rw [if_pos rfl]
      exact not_not.mpr (hEq ▸ hAnswers.offered)
    · rw [if_neg hHead]
      exact fun hBoth => hBoth.1 handler.method hAnswers.offered

/-- A request that no rule of its method is made for comes to no route. -/
theorem not_requested {method : HTTPMethod} {url : Bytes} (hNot : ¬ Offered method url)
    (hGet : method = .head → ¬ Offered .get url) (route : Route) :
    ¬ (route.Takes method ∧ route.url = url ∧ route ≠ .publicFiles []) := by
  rintro ⟨hMethod | ⟨hHead, hMethod⟩, hUrl, hWhole⟩
  · exact hNot (.inl ⟨route, hMethod, hUrl, hWhole⟩)
  · exact hGet hHead (.inl ⟨route, hMethod, hUrl, hWhole⟩)

theorem dispatched_usual {method : HTTPMethod} (hHead : method ≠ .head)
    (hOptions : method ≠ .options) (url host : Bytes) :
    Dispatched (azsRouter.handleFull strtod method url host) method url := by
  rw [handleFull_of_usual strtod azsRouter hHead hOptions]
  rcases findIn_azsRouter strtod method url host with
    ⟨hZero, hNot⟩ | ⟨hFound, handler, params, hCall, hMethod, hAnswers⟩
  · have hNoRoute := not_requested hNot fun hEq => absurd hEq hHead
    rw [if_neg (not_not.mpr hZero)]
    by_cases hOther : ∃ other, Offered other url
    · rw [if_pos ((any_findIn_iff strtod url).mpr hOther)]
      refine ⟨fun route => iff_of_false (not_comesTo_ended _ _ route) (hNoRoute route),
        iff_of_true rfl ⟨hHead, hOptions, hNot, hOther⟩, ?_⟩
      rw [if_neg hHead]
      exact iff_of_false (by simp) fun hBoth => hOther.elim hBoth.1
    · rw [if_neg fun hAny => hOther ((any_findIn_iff strtod url).mp hAny)]
      refine ⟨fun route => iff_of_false (not_comesTo_ended _ _ route) (hNoRoute route),
        iff_of_false (by simp) fun hAll => hOther hAll.2.2.2, ?_⟩
      rw [if_neg hHead]
      exact iff_of_true rfl ⟨not_exists.mp hOther, fun hBoth => hOptions hBoth.1⟩
  · rw [if_pos hFound, hCall]
    refine dispatched_of_call false hAnswers (fun route => ?_) (.inr ⟨hHead, hMethod⟩)
    rw [hMethod]
    exact or_iff_left fun hBoth => hHead hBoth.1

theorem dispatched_head (url host : Bytes) :
    Dispatched (azsRouter.handleFull strtod .head url host) .head url := by
  have hNot := not_offered_head url
  have hNone : (azsRouter.findIn strtod .head url).ruleIndex = 0 :=
    not_not.mp fun hFound => hNot ((findIn_ne_zero_iff strtod .head url).mp hFound)
  rw [handleFull_head strtod azsRouter url host hNone]
  rcases findIn_azsRouter strtod .get url host with
    ⟨hZero, hGet⟩ | ⟨hFound, handler, params, hCall, hMethod, hAnswers⟩
  · rw [if_neg (not_not.mpr hZero)]
    refine ⟨fun route => iff_of_false (not_comesTo_ended _ _ route)
      (not_requested hNot (fun _ => hGet) route), ?_, ?_⟩
    · exact iff_of_false (by simp) fun hAll => hAll.1 rfl
    · rw [if_pos rfl]
      exact iff_of_true rfl hGet
  · rw [if_pos hFound, hCall]
    refine dispatched_of_call true hAnswers (fun route => ?_) (.inl ⟨rfl, hMethod⟩)
    have hRoute : route.method ≠ .head := by
      rcases route.method_eq with hEq | hEq <;> rw [hEq] <;> decide
    rw [hMethod, Route.Takes, or_iff_right hRoute, and_iff_right rfl]

theorem dispatched_options (url host : Bytes) :
    Dispatched (azsRouter.handleFull strtod .options url host) .options url := by
  have hNoRoute : ∀ route : Route,
      ¬ (route.Takes .options ∧ route.url = url ∧ route ≠ .publicFiles []) :=
    fun route hAll => not_takes_options route hAll.1
  rcases handleFull_options strtod azsRouter url host with
    ⟨hKnown, allow, hReply⟩ | ⟨hStar, hNone, hReply⟩
  · rw [hReply]
    refine ⟨fun route => iff_of_false (not_comesTo_ended _ _ route) (hNoRoute route),
      iff_of_false (by simp) fun hAll => hAll.2.1 rfl, iff_of_false (by simp) ?_⟩
    rw [if_neg (by decide)]
    rintro ⟨hNot, hOther⟩
    rcases hKnown with hUrl | ⟨other, hFound⟩
    · exact hOther ⟨rfl, hUrl⟩
    · exact hNot other ((findIn_ne_zero_iff strtod other url).mp hFound)
  · rw [hReply]
    refine ⟨fun route => iff_of_false (not_comesTo_ended _ _ route) (hNoRoute route),
      iff_of_false (by simp) fun hAll => hAll.2.1 rfl, iff_of_true rfl ?_⟩
    rw [if_neg (by decide)]
    refine ⟨fun other hOffered => ?_, fun hBoth => hStar hBoth.2⟩
    exact (findIn_ne_zero_iff strtod other url).mpr hOffered (hNone other)

/-- The rules of the application are accepted, and every request comes to the route with its method
and its URL, and to no other one.  Crow refuses the rest: with 405 if the URL is served under
another method, else with 404. -/
theorem request_reaches_route :
    Router.validate azsRules = .ok azsRouter ∧ ∀ (method : HTTPMethod) (url host : Bytes),
      Dispatched (azsRouter.handleFull strtod method url host) method url := by
  refine ⟨validate_azsRules, fun method url host => ?_⟩
  by_cases hHead : method = .head
  · rw [hHead]
    exact dispatched_head strtod url host
  · by_cases hOptions : method = .options
    · rw [hOptions]
      exact dispatched_options strtod url host
    · exact dispatched_usual strtod hHead hOptions url host

end Dispatch

end Server
end AzsServer
