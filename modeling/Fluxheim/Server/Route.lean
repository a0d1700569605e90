import Fluxheim.Server.StaticResolve

/-!
# Routes and access policies

The model of `native_http1_route_matcher.rs`, `native_http1_route_proxy_policy.rs`,
`decoded_route_policy_path` of the access policies, and the part of
`native_http1_route_proxy_handler.rs` that selects the routes, checks their access policies and
falls back to static files.

An access policy is the decision it makes on what is known of a client, and a regular expression the
set of the paths it matches.  Limits, redirects and hooks, which can only refuse a request on the
way, and the shortage of capacity for static files are left out.
-/

namespace Fluxheim

open Ascii Fallible Search

/-- What the path of a route is compared with. -/
inductive NativeHttp1RouteMatcher
  | exact (path : Bytes)
  | pathPrefix (path : Bytes)
  | regex (isMatch : Bytes → Bool)
  | fallback

/-- A route without methods takes all of them. -/
def routeMethodMatches (methods : List Bytes) (method : Bytes) : Bool :=
  methods.isEmpty || methods.any fun configured => eqIgnoreCase configured method

/-- A prefix ends where a segment of the path ends. -/
def routePrefixMatchesPath (pathPrefix path : Bytes) : Bool :=
  match pathPrefix.isPrefixOf path with
  | false => false
  | true =>
    let suffix := path.drop pathPrefix.length
    pathPrefix == ascii "/" || pathPrefix.getLast? == some 47 || suffix.isEmpty ||
      suffix.head? == some 47

/-- Whether a path matches. -/
def NativeHttp1RouteMatcher.isMatch (matcher : NativeHttp1RouteMatcher) (path : Bytes) : Bool :=
  match matcher with
  | .regex isMatch => isMatch path
  | .exact value => path == value
  | .pathPrefix value => routePrefixMatchesPath value path
  | .fallback => true

/-- The length of a prefix, by which the longest one is chosen. -/
def NativeHttp1RouteMatcher.prefixLen : NativeHttp1RouteMatcher → ℕ
  | .pathPrefix value => value.length
  | _ => 0

/-- `NativeHttp1RouteProxyRoute`, as far as it is selected and guarded.  An access policy decides on
what is known of a client, `C`. -/
structure NativeHttp1RouteProxyRoute (C : Type) where
  methods : List Bytes
  matcher : NativeHttp1RouteMatcher
  access : C → Bool
  corsEnabled : Bool

variable {C : Type}

/-- The loop of `select_route_with_fallback`, with the routes found so far. -/
def selectLoop (method path : Bytes) (includeFallback : Bool) :
    Option (NativeHttp1RouteProxyRoute C) → Option (NativeHttp1RouteProxyRoute C) →
    Option (NativeHttp1RouteProxyRoute C) → List (NativeHttp1RouteProxyRoute C) →
    Option (NativeHttp1RouteProxyRoute C)
  | fallback, bestPrefix, firstRegex, [] => (bestPrefix.or firstRegex).or fallback
  | fallback, bestPrefix, firstRegex, route :: routes =>
    if ¬ routeMethodMatches route.methods method then
      selectLoop method path includeFallback fallback bestPrefix firstRegex routes
    else
      match route.matcher with
      | .exact value =>
        if path = value then some route
        else selectLoop method path includeFallback fallback bestPrefix firstRegex routes
      | .pathPrefix _ =>
        if route.matcher.isMatch path ∧
            ∀ best ∈ bestPrefix, best.matcher.prefixLen < route.matcher.prefixLen then
          selectLoop method path includeFallback fallback (some route) firstRegex routes
        else selectLoop method path includeFallback fallback bestPrefix firstRegex routes
      | .regex _ =>
        if firstRegex.isNone ∧ route.matcher.isMatch path then
          selectLoop method path includeFallback fallback bestPrefix (some route) routes
        else selectLoop method path includeFallback fallback bestPrefix firstRegex routes
      | .fallback =>
        if includeFallback then
          selectLoop method path includeFallback (some route) bestPrefix firstRegex routes
        else selectLoop method path includeFallback fallback bestPrefix firstRegex routes

/-- The path for which policies are checked again: decoded once, if that makes a difference. -/
def decodedRoutePolicyPath (path : Bytes) : Option Bytes :=
  if 37 ∉ path then none
  else
    let decoded := percentDecode path
    if ¬ utf8Valid decoded then none
    else if decoded = path ∨ 0 ∈ decoded ∨ decoded.head? ≠ some 47 then none
    else some decoded

/-- `NativeHttp1RouteProxy`, as far as requests are selected and guarded. -/
structure NativeHttp1RouteProxy (C : Type) where
  routes : List (NativeHttp1RouteProxyRoute C)
  access : C → Bool
  fallbackWeb : Option NativeHttp1StaticWeb
  /-- Whether there is an upstream for what no route takes. -/
  hasFallback : Bool

/-- What is done with a request. -/
inductive RouteProxyOutcome (C : Type)
  /-- The responses 404, 403 and 500. -/
  | notFound
  | forbidden
  | internalError
  | route (route : NativeHttp1RouteProxyRoute C)
  | file (path : AbsolutePath)
  | directoryListing (path : AbsolutePath)
  | upstream

namespace NativeHttp1RouteProxy

variable (fs : FileSystem) (proxy : NativeHttp1RouteProxy C)

/-- The route for a path, with fallback routes or without. -/
def selectRouteWithFallback (method path : Bytes) (includeFallback : Bool) :
    Option (NativeHttp1RouteProxyRoute C) :=
  selectLoop method path includeFallback none none none proxy.routes

/-- The route for a path. -/
def selectRoute (method path : Bytes) : Option (NativeHttp1RouteProxyRoute C) :=
  proxy.selectRouteWithFallback method path true

/-- The route for the decoded path, no fallback route. -/
def selectDecodedPolicyRoute (method path : Bytes) : Option (NativeHttp1RouteProxyRoute C) :=
  (decodedRoutePolicyPath path).bind fun decodedPath =>
    proxy.selectRouteWithFallback method decodedPath false

/-- A route selected by the method that a preflight asks for, if its CORS policy is enabled, and
by the method of the request otherwise. -/
def preflightOr (select : Bytes → Option (NativeHttp1RouteProxyRoute C))
    (preflightMethod : Option Bytes) (method : Bytes) : Option (NativeHttp1RouteProxyRoute C) :=
  ((preflightMethod.bind select).filter fun route => route.corsEnabled).or (select method)

/-- `cors_preflight_requested_method`, from the single value of `Access-Control-Request-Method`. -/
def corsPreflightRequestedMethod (method : Bytes) (requestedMethod : Option Bytes) : Option Bytes :=
  if eqIgnoreCase method (ascii "OPTIONS") then requestedMethod else none

/-- The routes whose access policies are evaluated for a request: the one that is selected, and
the one that is selected for the decoded path. -/
def evaluatedRoutes (method : Bytes) (requestedMethod : Option Bytes) (path : Bytes) :
    List (NativeHttp1RouteProxyRoute C) :=
  let preflightMethod := corsPreflightRequestedMethod method requestedMethod
  (preflightOr (fun method => proxy.selectRoute method path) preflightMethod method).toList ++
    (preflightOr (fun method => proxy.selectDecodedPolicyRoute method path) preflightMethod
      method).toList

/-- `fallback_web_response`: a file or a listing, or else the upstream. -/
def fallbackResponse (method path : Bytes) : RouteProxyOutcome C :=
  let noResponse := if proxy.hasFallback then .upstream else .notFound
  match proxy.fallbackWeb with
  | none => noResponse
  | some web =>
    if ¬ NativeHttp1StaticWeb.staticWebMethodAllowed method then noResponse
    else
      match web.resolve fs path with
      | .error _ => .internalError
      | .ok (.found file) => .file file
      | .ok (.directoryListing directory) => .directoryListing directory
      | .ok .notFound => noResponse
      | .ok .forbidden => .forbidden

/-- The selection of the routes, their access policies, and who answers. -/
def handle (client : C) (method : Bytes) (requestedMethod : Option Bytes) (path : Bytes) :
    RouteProxyOutcome C :=
  let preflightMethod := corsPreflightRequestedMethod method requestedMethod
  let selectedRoute :=
    preflightOr (fun method => proxy.selectRoute method path) preflightMethod method
  if selectedRoute.isNone ∧ proxy.fallbackWeb.isNone ∧ ¬ proxy.hasFallback then .notFound
  else if ¬ proxy.access client ∨
      ∃ route ∈ proxy.evaluatedRoutes method requestedMethod path, ¬ route.access client then
    .forbidden
  else
    match selectedRoute with
    | some route => .route route
    | none => proxy.fallbackResponse fs method path

end NativeHttp1RouteProxy

end Fluxheim
