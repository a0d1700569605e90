import Fluxheim.Server.RouteSelect

/-!
# Static files around access policies

A file of the static fallback is guarded by the access policy of a route only if that route is
selected for the path as it was sent, or for the path decoded once.  The resolver of static files
goes further: it drops empty segments and `.` segments, and serves an index file for a directory.
-/

namespace Fluxheim

open Ascii Fallible Search List NativeHttp1StaticWeb

variable {C : Type} {path method : Bytes}

/-- A path with no empty segment and no `.` segment. -/
def Canonical (path : Bytes) : Prop :=
  path = [47] ∨ ∀ segment ∈ (path.splitOn 47).tail, keptSegment segment = true

/-- The decoded path names a directory. -/
def NativeHttp1StaticWeb.NamesDirectory (web : NativeHttp1StaticWeb) (fs : FileSystem)
    (path : Bytes) : Prop :=
  fs.metadata (web.root ++ keptSegments (percentDecode path)) = .ok .directory

/-- A path is canonical if it is the path of what is kept of it. -/
theorem canonical_iff (rest : Bytes) :
    Canonical (47 :: rest) ↔ rootedPath (keptSegments (47 :: rest)) = 47 :: rest := by
  have hkept : keptSegments (47 :: rest) = (rest.splitOn 47).filter keptSegment := by
    rw [keptSegments, splitOn_cons_self, filter_cons_of_neg (by decide)]
  constructor
  · rw [Canonical, splitOn_cons_self, tail_cons, hkept]
    rintro (hroot | hall)
    · rw [show rest = [] from (cons.inj hroot).2]
      rfl
    · rw [filter_eq_self.2 hall, rootedPath, intercalate_splitOn]
  · intro h
    rw [← h]
    by_cases hnil : keptSegments (47 :: rest) = []
    · left
      rw [hnil]
      rfl
    · right
      rw [splitOn_rootedPath hnil not_mem_slash_of_kept]
      exact fun s hs => (mem_filter.1 hs).2

theorem canonical_percentDecode_iff {deny : Bool} (h : ¬ Refused deny path) :
    Canonical (percentDecode path) ↔
      rootedPath (keptSegments (percentDecode path)) = percentDecode path := by
  obtain ⟨rest, rfl⟩ := exists_cons_of_not_refused h
  exact canonical_iff _

/-- The canonical path of the file that is found is the decoded path exactly if that is canonical
and names no directory. -/
theorem rootedPath_eq_percentDecode_iff {fs : FileSystem} {web : NativeHttp1StaticWeb}
    {r : List Bytes} (h : web.resolve fs path = .ok (.found (web.root ++ r))) :
    rootedPath r = percentDecode path ↔
      Canonical (percentDecode path) ∧ ¬ web.NamesDirectory fs path := by
  obtain ⟨relative, tail, hrelative, htail, hfile, hdirectory⟩ :=
    resolve_eq_found h
  obtain rfl := append_cancel_left hfile
  obtain ⟨hrefused, hcomponents⟩ := relativeRequestPath_eq_some_iff.1 hrelative
  rw [NamesDirectory, canonical_percentDecode_iff hrefused, ← hcomponents, ← ne_eq, ← hdirectory]
  rcases htail with rfl | ⟨index, hindex, rfl⟩
  · simp
  · refine iff_of_false (fun heq => ?_) (by simp)
    -- an index file is a segment more than what is kept of the path
    obtain ⟨hnil, hslash, hdot, -⟩ := web.indexFiles_normal index hindex
    have hkept : ∀ s ∈ relative.components ++ [index], keptSegment s = true ∧ 47 ∉ s := by
      rw [hcomponents, forall_mem_append, forall_mem_singleton]
      exact ⟨fun s hs => ⟨(mem_filter.1 hs).2, not_mem_slash_of_kept s hs⟩,
        keptSegment_iff.2 ⟨hnil, hdot⟩, hslash⟩
    have hmore := keptSegments_rootedPath (fun s hs => (hkept s hs).1) fun s hs => (hkept s hs).2
    rw [heq, ← hcomponents] at hmore
    simpa using congrArg length hmore

/-- A table that selects no route for some path has no fallback route for the method. -/
theorem lastFallback_of_selectLoop {routes : List (NativeHttp1RouteProxyRoute C)}
    (h : selectLoop method path true none none none routes = none) :
    lastFallback true (allowedRoutes method routes) = none := by
  simp only [selectLoop_eq, Option.or_eq_none_iff] at h
  exact h.2.2.2.1

theorem selectLoop_of_no_fallback {routes : List (NativeHttp1RouteProxyRoute C)}
    (h : lastFallback true (allowedRoutes method routes) = none) :
    selectLoop method path true none none none routes =
      selectLoop method path false none none none routes := by
  rw [selectLoop_eq, selectLoop_eq, h]
  rfl

theorem eq_percentDecode_of_policyPath {decoded : Bytes}
    (h : decodedRoutePolicyPath path = some decoded) : decoded = percentDecode path := by
  unfold decodedRoutePolicyPath at h
  dsimp only at h
  split_ifs at h
  exact (Option.some.inj h).symm

theorem decodedRoutePolicyPath_of_not_refused {deny : Bool}
    (h : ¬ Refused deny path) (hdecoded : percentDecode path ≠ path) :
    decodedRoutePolicyPath path = some (percentDecode path) := by
  have hpercent : 37 ∈ path := by
    by_contra hnot
    exact hdecoded (percentDecode_of_not_mem hnot)
  obtain ⟨rest, rfl⟩ := exists_cons_of_not_refused h
  simp only [Refused, not_or, Bool.not_eq_false] at h
  obtain ⟨-, hutf, hzero, -⟩ := h
  have hhead : (percentDecode (47 :: rest)).head? = some 47 := by
    rfl
  unfold decodedRoutePolicyPath
  rw [if_neg (not_not.2 hpercent)]
  rw [if_neg (not_not.2 hutf), if_neg (by simp [hdecoded, hzero, hhead])]

/-- For a method that is served files no preflight is considered. -/
theorem corsPreflight_of_allowed
    (hmethod : NativeHttp1StaticWeb.staticWebMethodAllowed method = true)
    {requestedMethod : Option Bytes} :
    NativeHttp1RouteProxy.corsPreflightRequestedMethod method requestedMethod = none := by
  rw [staticWebMethodAllowed, Bool.or_eq_true, beq_iff_eq, beq_iff_eq]
    at hmethod
  rcases hmethod with rfl | rfl <;> rfl

theorem evaluatedRoutes_of_allowed (proxy : NativeHttp1RouteProxy C)
    (hmethod : NativeHttp1StaticWeb.staticWebMethodAllowed method = true)
    (requestedMethod : Option Bytes) :
    proxy.evaluatedRoutes method requestedMethod path =
      (proxy.selectRoute method path).toList ++
        (proxy.selectDecodedPolicyRoute method path).toList := by
  unfold NativeHttp1RouteProxy.evaluatedRoutes
  rw [corsPreflight_of_allowed hmethod]
  rfl

/-- **Which files are guarded.**  Whatever the routes are, the access policy of the route for the
canonical path of the file that is found is evaluated before the file is served exactly if that path
is the one that was sent, or the path decodes to a canonical one that names no directory. -/
theorem staticAccess_iff (C : Type) (fs : FileSystem) (web : NativeHttp1StaticWeb) (path : Bytes) :
    (∀ (proxy : NativeHttp1RouteProxy C) (method : Bytes) (requestedMethod : Option Bytes)
        (route : NativeHttp1RouteProxyRoute C) (r : List Bytes),
      proxy.fallbackWeb = some web → NativeHttp1StaticWeb.staticWebMethodAllowed method = true →
      proxy.selectRoute method path = none →
      web.resolve fs path = .ok (.found (web.root ++ r)) →
      proxy.selectRoute method (rootedPath r) = some route → route.matcher ≠ .fallback →
      route ∈ proxy.evaluatedRoutes method requestedMethod path) ↔
    ∀ r, web.resolve fs path = .ok (.found (web.root ++ r)) →
      rootedPath r = path ∨ (Canonical (percentDecode path) ∧ ¬ web.NamesDirectory fs path) := by
  constructor
  · intro hguarded r hr
    by_contra hneither
    rw [not_or, ← rootedPath_eq_percentDecode_iff hr] at hneither
    obtain ⟨hpath, hdecoded⟩ := hneither
    -- the only route is for the canonical path of the file, and it admits nobody
    let route : NativeHttp1RouteProxyRoute C := ⟨[], .exact (rootedPath r), fun _ => false, false⟩
    let proxy : NativeHttp1RouteProxy C := ⟨[route], fun _ => true, some web, false⟩
    have hselect : ∀ q includeFallback, q ≠ rootedPath r →
        proxy.selectRouteWithFallback (ascii "GET") q includeFallback = none := by
      intro q includeFallback hq
      exact if_neg hq
    have hnone : proxy.selectRoute (ascii "GET") path = none := hselect path true (Ne.symm hpath)
    have hroute : proxy.selectRoute (ascii "GET") (rootedPath r) = some route := if_pos rfl
    have hevaluated := hguarded proxy (ascii "GET") none route r rfl rfl hnone hr hroute
      (by simp [route])
    rw [evaluatedRoutes_of_allowed proxy rfl, hnone,
      NativeHttp1RouteProxy.selectDecodedPolicyRoute] at hevaluated
    cases hpolicy : decodedRoutePolicyPath path with
    | none =>
      rw [hpolicy] at hevaluated
      cases hevaluated
    | some decoded =>
      rw [hpolicy, Option.bind_some, eq_percentDecode_of_policyPath hpolicy,
        hselect _ false (Ne.symm hdecoded)] at hevaluated
      cases hevaluated
  · intro hguarded proxy method requestedMethod route r hweb hmethod hnone hr hroute hmatcher
    rcases hguarded r hr with hpath | hdecoded
    · rw [hpath, hnone] at hroute
      cases hroute
    · obtain ⟨relative, -, hrelative, -⟩ := resolve_eq_found hr
      have hrefused := (relativeRequestPath_eq_some_iff.1 hrelative).1
      have hrooted := (rootedPath_eq_percentDecode_iff hr).2 hdecoded
      have hne : percentDecode path ≠ path := by
        intro heq
        rw [hrooted, heq, hnone] at hroute
        cases hroute
      have hselected : proxy.selectRouteWithFallback method (percentDecode path) false =
          some route := by
        rw [← hroute, hrooted]
        exact (selectLoop_of_no_fallback (lastFallback_of_selectLoop hnone)).symm
      rw [evaluatedRoutes_of_allowed proxy hmethod, NativeHttp1RouteProxy.selectDecodedPolicyRoute,
        decodedRoutePolicyPath_of_not_refused hrefused hne, Option.bind_some, hselected]
      simp

/-- A route for one path that admits nobody. -/
def closedRoute (path : Bytes) : NativeHttp1RouteProxyRoute Unit where
  methods := []
  matcher := .exact path
  access _ := false
  corsEnabled := false

/-- A directory `/srv` in which everything is a file. -/
def siteFiles : FileSystem where
  canonicalize := .ok
  metadata path := .ok (if path = [ascii "srv"] then .directory else .file)
  symlinkMetadata _ := .ok .file
  readDir _ := .ok ()

/-- Two such routes before the files below `/srv`. -/
def adminProxy : NativeHttp1RouteProxy Unit where
  routes := [closedRoute (ascii "/admin"), closedRoute (ascii "/index.html")]
  access _ := true
  fallbackWeb := some ⟨[ascii "srv"], [ascii "index.html"], true, false, by decide⟩
  hasFallback := false

/-- A file is served to a `GET` request for a path, while no policy is evaluated and the route for
the file denies the client. -/
def ServedAround (path name : Bytes) : Prop :=
  http1RequestTarget (ascii "GET") path = .ok (.origin path path none) ∧
    adminProxy.evaluatedRoutes (ascii "GET") none path = [] ∧
    adminProxy.handle siteFiles () (ascii "GET") none path = .file [ascii "srv", name] ∧
    adminProxy.selectRoute (ascii "GET") (rootedPath [name]) =
      some (closedRoute (rootedPath [name])) ∧
    (closedRoute (rootedPath [name])).matcher ≠ .fallback ∧
    (closedRoute (rootedPath [name])).access () = false

/-- **Files around the policies of their routes**: `/./admin` is served from the file `admin`, and
`/` from the index file `index.html`. -/
theorem handle_dot_segment :
    ServedAround (ascii "/./admin") (ascii "admin") ∧
      ServedAround (ascii "/") (ascii "index.html") :=
  ⟨⟨rfl, rfl, rfl, rfl, by simp [closedRoute], rfl⟩, rfl, rfl, rfl, rfl, by simp [closedRoute], rfl⟩

end Fluxheim
