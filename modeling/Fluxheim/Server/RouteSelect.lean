import Mathlib.Data.List.MinMax
import Fluxheim.Server.Route

/-!
# Which route is selected

`select_route` goes over the routes once: it returns at an exact path and keeps three candidates
otherwise.
-/

namespace Fluxheim

open Ascii List NativeHttp1RouteProxyRoute

variable {C : Type} {method path : Bytes} {includeFallback : Bool}

/-- A prefix that ends where a segment of the path ends. -/
def SegmentPrefix (value path : Bytes) : Prop :=
  ∃ rest, path = value ++ rest ∧ (rest = [] ∨ rest.head? = some 47 ∨ value.getLast? = some 47)

theorem routePrefixMatchesPath_iff {v : Bytes} :
    routePrefixMatchesPath v path = true ↔ SegmentPrefix v path := by
  rw [routePrefixMatchesPath]
  cases hp : v.isPrefixOf path with
  | false =>
    simp only [Bool.false_eq_true, false_iff]
    rintro ⟨rest, rfl, -⟩
    simp [← Bool.not_eq_true, List.isPrefixOf_iff_prefix] at hp
  | true =>
    obtain ⟨rest, rfl⟩ := List.isPrefixOf_iff_prefix.1 hp
    have hroot : v = ascii "/" → v.getLast? = some 47 := by rintro rfl; rfl
    simp only [drop_left, Bool.or_eq_true, beq_iff_eq, List.isEmpty_iff, SegmentPrefix,
      append_cancel_left_eq, exists_eq_left']
    tauto

namespace NativeHttp1RouteProxyRoute

variable (path) (route : NativeHttp1RouteProxyRoute C)

/-- The route has this very path. -/
def isExact : Bool := match route.matcher with
  | .exact value => path = value
  | _ => false

/-- The route has a prefix of the path. -/
def isPrefix : Bool := match route.matcher with
  | .pathPrefix value => routePrefixMatchesPath value path
  | _ => false

/-- The route's expression matches. -/
def isRegex : Bool := match route.matcher with
  | .regex isMatch => isMatch path
  | _ => false

/-- The route takes what is left. -/
def isFallback : Bool := match route.matcher with
  | .fallback => true
  | _ => false

end NativeHttp1RouteProxyRoute

/-- The longest prefix, and of several the first; `best` is one that was there before. -/
def longest (path : Bytes) (best : Option (NativeHttp1RouteProxyRoute C))
    (routes : List (NativeHttp1RouteProxyRoute C)) : Option (NativeHttp1RouteProxyRoute C) :=
  (routes.filter (·.isPrefix path)).foldl
    (argAux fun b c => c.matcher.prefixLen < b.matcher.prefixLen) best

/-- The routes for a method. -/
def allowedRoutes (method : Bytes) (routes : List (NativeHttp1RouteProxyRoute C)) :
    List (NativeHttp1RouteProxyRoute C) :=
  routes.filter fun route => routeMethodMatches route.methods method

/-- The fallback that is left at the end. -/
def lastFallback (includeFallback : Bool) (routes : List (NativeHttp1RouteProxyRoute C)) :
    Option (NativeHttp1RouteProxyRoute C) :=
  if includeFallback then routes.reverse.find? (·.isFallback) else none

theorem longest_cons (best : Option (NativeHttp1RouteProxyRoute C)) (route routes) :
    longest path best (route :: routes) = longest path (if route.isPrefix path then
      argAux (fun b c => c.matcher.prefixLen < b.matcher.prefixLen) best route else best)
        routes := by
  cases h : route.isPrefix path <;> simp [longest, h]

theorem lastFallback_cons (route : NativeHttp1RouteProxyRoute C) (routes) :
    lastFallback includeFallback (route :: routes) = (lastFallback includeFallback routes).or
      (if includeFallback && route.isFallback then some route else none) := by
  cases includeFallback <;> cases h : route.isFallback <;> simp [lastFallback, h]

/-- **The loop, from any candidates.** -/
theorem selectLoop_eq (fallback longestPrefix firstRegex : Option (NativeHttp1RouteProxyRoute C))
    (routes : List (NativeHttp1RouteProxyRoute C)) :
    selectLoop method path includeFallback fallback longestPrefix firstRegex routes =
      ((allowedRoutes method routes).find? (·.isExact path)).or
        ((longest path longestPrefix (allowedRoutes method routes)).or
          ((firstRegex.or ((allowedRoutes method routes).find? (·.isRegex path))).or
            ((lastFallback includeFallback (allowedRoutes method routes)).or fallback))) := by
  induction routes generalizing fallback longestPrefix firstRegex with
  | nil => simp [selectLoop, allowedRoutes, longest, lastFallback, Option.or_assoc]
  | cons route routes ih =>
    rw [selectLoop, allowedRoutes, filter_cons, ← allowedRoutes]
    by_cases hm : routeMethodMatches route.methods method = true
    · rw [if_neg (not_not.2 hm), if_pos hm, longest_cons, lastFallback_cons, find?_cons]
      cases hk : route.matcher with
      | exact v =>
        have he : route.isExact path = decide (path = v) := by simp [isExact, hk]
        rw [he]
        by_cases hv : path = v <;> simp [hv, ih, isPrefix, isRegex, isFallback, hk]
      | pathPrefix v =>
        have hp : route.isPrefix path = route.matcher.isMatch path := by
          simp [isPrefix, hk, NativeHttp1RouteMatcher.isMatch]
        rw [← hk, ← hp]
        cases longestPrefix <;> cases hp' : route.isPrefix path <;>
          simp [ih, isExact, isRegex, isFallback, hk, argAux]
        split_ifs <;> rfl
      | regex isMatch =>
        have hr : route.isRegex path = isMatch path := by simp [isRegex, hk]
        cases firstRegex <;> cases hr' : isMatch path <;>
          simp [ih, isExact, isPrefix, isFallback, hk, hr, hr', NativeHttp1RouteMatcher.isMatch]
      | fallback =>
        have hf : route.isFallback = true := by simp [isFallback, hk]
        cases includeFallback <;>
          simp [ih, isExact, isPrefix, isRegex, hf, hk, Option.or_assoc]
    · rw [if_pos hm, if_neg hm, ih]

/-- **What `select_route` returns**, level by level: the first route with the exact path; else, of
the routes with a prefix that ends at a segment boundary, the first of the longest; else the first
regular expression that matches; else the last fallback; and nothing only without any of them. -/
theorem selectRoute_levels (proxy : NativeHttp1RouteProxy C) (method path : Bytes) :
    (proxy.selectRoute method path =
      ((allowedRoutes method proxy.routes).find? (·.isExact path)).or
        ((((allowedRoutes method proxy.routes).filter (·.isPrefix path)).argmax
            (·.matcher.prefixLen)).or
          (((allowedRoutes method proxy.routes).find? (·.isRegex path)).or
            ((allowedRoutes method proxy.routes).reverse.find? (·.isFallback))))) ∧
    (∀ route : NativeHttp1RouteProxyRoute C, route.isPrefix path = true ↔
      ∃ value, route.matcher = .pathPrefix value ∧ SegmentPrefix value path) ∧
    (proxy.selectRoute method path = none ↔ ∀ route ∈ allowedRoutes method proxy.routes,
      ¬ (route.isExact path ∨ route.isPrefix path ∨ route.isRegex path ∨ route.isFallback)) := by
  have heq : proxy.selectRoute method path = _ := selectLoop_eq none none none proxy.routes
  have hlong : longest path none (allowedRoutes method proxy.routes) =
      ((allowedRoutes method proxy.routes).filter (·.isPrefix path)).argmax
        (·.matcher.prefixLen) := rfl
  simp only [hlong, Option.none_or, Option.or_none, lastFallback, if_true] at heq
  refine ⟨heq, fun route => ?_, ?_⟩
  · cases hk : route.matcher <;> simp [isPrefix, hk, routePrefixMatchesPath_iff]
  · rw [heq]
    simp only [Option.or_eq_none_iff, find?_eq_none, argmax_eq_none, filter_eq_nil_iff, mem_reverse,
      not_or]
    constructor
    · rintro ⟨he, hp, hr, hf⟩ route hroute
      exact ⟨he route hroute, hp route hroute, hr route hroute, hf route hroute⟩
    · intro h
      exact ⟨fun r hr => (h r hr).1, fun r hr => (h r hr).2.1, fun r hr => (h r hr).2.2.1,
        fun r hr => (h r hr).2.2.2⟩

end Fluxheim
