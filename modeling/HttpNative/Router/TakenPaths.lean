import HttpNative.Router.MatchingPanics
import HttpNative.Router.RequestSelection

/-!
# The requests that a route takes

A request that is matched is one that some route takes, and a request that some route
takes is matched, by that route or by one preferred to it.
-/

namespace HttpNative
namespace Router

open Routing

/-! ## Matches -/

/-- The route takes a path, with these values at its parameters. -/
inductive Takes (route : RouteInput) (path : Text) : List Text → Prop
  | exact :
      route.routeKind = routeKindExact → normalizePath route.path = path → Takes route path []
  | param :
      route.routeKind = routeKindParam →
      Fits (patternOf route.path) (nonEmptySegments path) →
      Takes route path (capturesOf (patternOf route.path) (nonEmptySegments path))

section Matches

variable {analysis : SourceAnalysis} {manifest : ManifestInput}

/-- With room for all captures a search finds the pattern that leads, or none fits. -/
theorem FewParameters.search
    (few : FewParameters analysis manifest)
    (method : Method)
    (path : Text) :
    (∃ pattern spec,
      PatternTree.Leads ((fromManifest analysis manifest).radixTree method)
        (nonEmptySegments path) pattern spec ∧
      ((fromManifest analysis manifest).radixTree method).search RouteTable.maxStackSegments
        (nonEmptySegments path) [] =
          .found spec (capturesOf pattern (nonEmptySegments path))) ∨
    PatternTree.NoneFits ((fromManifest analysis manifest).radixTree method)
      (nonEmptySegments path) ∧
      ((fromManifest analysis manifest).radixTree method).search RouteTable.maxStackSegments
        (nonEmptySegments path) [] = .missed := by
  have bounded := radixTree_capturesLE analysis manifest.middlewares
    fun route member isParam => few route member method isParam
  have distinct := radixTree_distinct analysis manifest.middlewares manifest.routes method
  exact PatternTree.search_spec distinct
    ⟨RouteTable.maxStackSegments, Nat.le_of_eq (Nat.zero_add _), bounded⟩

/-- What is matched was taken by a dynamic route of the method. -/
theorem takes_of_matchRoute
    (few : FewParameters analysis manifest)
    {method : Method} {path : Text} {matched : MatchedRoute}
    (found : (fromManifest analysis manifest).matchRoute method.code path = .ok (some matched)) :
    ∃ route ∈ manifest.routes, isPromoted analysis manifest.middlewares route = false ∧
      Method.fromCode route.methodCode = some method ∧
      matched.toDynamicRouteSpec = compileDynamicRouteSpec analysis manifest.middlewares route ∧
      Takes route path matched.paramValues := by
  rw [matchRoute_eq, Method.fromCode_code] at found
  simp only [dynamicExactRoutes_fromManifest, dynamicExactRoutes_addRoutes] at found
  cases exact_ : lastRoute (isExactAt analysis manifest.middlewares method (Utf8.encode path))
      manifest.routes with
  | some route =>
      rw [exact_] at found
      cases found
      obtain ⟨member, selected⟩ := of_lastRoute exact_
      simp only [isExactAt, isDynamic, Bool.and_eq_true, Bool.not_eq_true',
        decide_eq_true_eq, Utf8.encode_inj] at selected
      exact ⟨route, member, selected.1.1.1, selected.1.1.2, rfl,
        .exact selected.1.2 selected.2⟩
  | none =>
      rw [exact_] at found
      simp only [Option.map_none] at found
      rcases few.search method path with ⟨pattern, spec, leads, searched⟩ | ⟨_, searched⟩
      · rw [searched] at found
        cases found
        have stored := leads.stored
        rw [radixTree_fromManifest, lookup_radixTree] at stored
        obtain ⟨route, last, rfl⟩ := Option.map_eq_some_iff.mp stored
        obtain ⟨member, selected⟩ := of_lastRoute last
        simp only [isParamAt, isDynamic, Bool.and_eq_true, Bool.not_eq_true',
          decide_eq_true_eq] at selected
        obtain ⟨⟨⟨dynamic, ofMethod⟩, isParam⟩, rfl⟩ := selected
        exact ⟨route, member, dynamic, ofMethod, rfl, .param isParam leads.fits⟩
      · rw [searched] at found
        cases found

/-- What a dynamic route of the method takes is matched. -/
theorem matchRoute_of_takes
    (few : FewParameters analysis manifest)
    {route : RouteInput} {method : Method} {path : Text} {values : List Text}
    (member : route ∈ manifest.routes)
    (dynamic : isPromoted analysis manifest.middlewares route = false)
    (ofMethod : Method.fromCode route.methodCode = some method)
    (takes : Takes route path values) :
    ∃ matched, (fromManifest analysis manifest).matchRoute method.code path =
      .ok (some matched) := by
  rw [matchRoute_eq, Method.fromCode_code]
  simp only [dynamicExactRoutes_fromManifest, dynamicExactRoutes_addRoutes]
  cases exact_ : lastRoute (isExactAt analysis manifest.middlewares method (Utf8.encode path))
      manifest.routes with
  | some other => exact ⟨_, rfl⟩
  | none =>
      simp only [Option.map_none]
      cases takes with
      | exact isExact same =>
          have unselected := lastRoute_eq_none_iff.mp exact_ route member
          simp [isExactAt, isDynamic, dynamic, ofMethod, isExact, same] at unselected
      | param isParam fits =>
          rcases few.search method path with ⟨pattern, spec, _, searched⟩ | ⟨noneFits, _⟩
          · rw [searched]
            exact ⟨_, rfl⟩
          · have selected : isDynamic analysis manifest.middlewares method routeKindParam route =
                true := by
              simp [isDynamic, dynamic, ofMethod, isParam]
            exact absurd (noneFits _ fits)
              (lookup_ne_none analysis manifest.middlewares member selected)

end Matches

/-! ## Targets -/

theorem nonEmptySegments_normalizeRuntimePath
    (path : Text) :
    nonEmptySegments (normalizeRuntimePath path) = nonEmptySegments path := by
  unfold normalizeRuntimePath
  split
  · rfl
  · simp only
    split
    · rename_i _ blank
      rw [← nonEmptySegments_rdropWhile path, blank, root, nonEmptySegments_cons_slash]
    · split
      · exact nonEmptySegments_rdropWhile path
      · rw [nonEmptySegments_cons_slash, nonEmptySegments_rdropWhile]

section Targets

variable {analysis : SourceAnalysis} {manifest : ManifestInput} {parsed : Parser.ParsedRequest}

theorem exactStaticRoute_fromManifest
    (analysis : SourceAnalysis)
    (manifest : ManifestInput)
    (method : Method)
    (path : List UInt8) :
    (fromManifest analysis manifest).exactStaticRoute method path =
      lastRoute (isStaticAt analysis manifest.middlewares method path) manifest.routes := by
  rw [← exactStaticRoute_addRoutes]
  rfl

/-- A request that no static response answers goes to a matched handler, or to none. -/
theorem of_dispatchTarget
    {router : Router} {target : Target}
    (decided : router.dispatchTarget parsed = .ok target) :
    target = .notFound ∨ ∃ matched method, target = .handler matched ∧
      Method.fromBytes parsed.method = some method ∧
      router.matchRoute method.code (normalizeRuntimePath (Utf8.decodeLossy parsed.path)) =
        .ok (some matched) := by
  unfold dispatchTarget at decided
  simp only at decided
  split at decided
  · cases decided
    exact .inl rfl
  · unfold matchMethod at decided
    cases ofMethod : Method.fromBytes parsed.method with
    | none =>
        rw [ofMethod] at decided
        cases decided
        exact .inl rfl
    | some method =>
        rw [ofMethod] at decided
        simp only at decided
        cases found : router.matchRoute method.code
            (normalizeRuntimePath (Utf8.decodeLossy parsed.path)) with
        | error panic =>
            rw [found] at decided
            cases decided
        | ok matched =>
            rw [found] at decided
            cases matched with
            | none =>
                cases decided
                exact .inl rfl
            | some matched =>
                cases decided
                exact .inr ⟨matched, method, rfl, rfl, found⟩

/-- A static response is that of a promoted route, registered for the request's path. -/
theorem of_selectTarget_static
    {route : RouteInput}
    (plain : parsed.isWebsocketUpgrade = false)
    (selected : (fromManifest analysis manifest).selectTarget parsed =
      .ok (.staticResponse route)) :
    route ∈ manifest.routes ∧ isPromoted analysis manifest.middlewares route = true ∧
      parsed.method = octets "GET" ∧ Method.fromText route.method = some .get ∧
      parsed.path = Utf8.encode (normalizePath route.path) := by
  rw [selectTarget, webSocketTarget_of_plain plain] at selected
  cases isStatic : (fromManifest analysis manifest).staticTarget parsed with
  | none =>
      rw [isStatic] at selected
      rcases of_dispatchTarget selected with absent | ⟨_, _, handled, _⟩
      · cases absent
      · cases handled
  | some found =>
      rw [isStatic] at selected
      cases selected
      rw [staticTarget_eq] at isStatic
      split at isStatic
      · rename_i isGet
        rw [exactStaticRoute_fromManifest] at isStatic
        obtain ⟨member, selects⟩ := of_lastRoute isStatic
        simp only [isStaticAt, Bool.and_eq_true, decide_eq_true_eq] at selects
        exact ⟨member, selects.1.1, isGet.2, selects.1.2, selects.2.symm⟩
      · cases isStatic

/-- A handler is that of a dynamic route that takes the request's path. -/
theorem of_selectTarget_handler
    (few : FewParameters analysis manifest)
    {matched : MatchedRoute}
    (plain : parsed.isWebsocketUpgrade = false)
    (selected : (fromManifest analysis manifest).selectTarget parsed = .ok (.handler matched)) :
    ∃ method, Method.fromBytes parsed.method = some method ∧
      ∃ route ∈ manifest.routes, Method.fromCode route.methodCode = some method ∧
        matched.toDynamicRouteSpec = compileDynamicRouteSpec analysis manifest.middlewares route ∧
        Takes route (normalizeRuntimePath (Utf8.decodeLossy parsed.path))
          matched.paramValues := by
  rw [selectTarget, webSocketTarget_of_plain plain] at selected
  cases isStatic : (fromManifest analysis manifest).staticTarget parsed with
  | some found =>
      rw [isStatic] at selected
      cases selected
  | none =>
      rw [isStatic] at selected
      rcases of_dispatchTarget selected with absent | ⟨_, method, handled, ofMethod, found⟩
      · cases absent
      · cases handled
        obtain ⟨route, member, _, routeMethod, compiled, takes⟩ := takes_of_matchRoute few found
        exact ⟨method, ofMethod, route, member, routeMethod, compiled, takes⟩

/-- Without a body a request that a promoted route is registered for is answered. -/
theorem selectTarget_of_static
    {route : RouteInput}
    (member : route ∈ manifest.routes)
    (promoted : isPromoted analysis manifest.middlewares route = true)
    (ofText : Method.fromText route.method = some .get)
    (isGet : parsed.method = octets "GET")
    (noBody : parsed.hasBody = false)
    (asked : parsed.path = Utf8.encode (normalizePath route.path)) :
    ∃ found, (fromManifest analysis manifest).selectTarget parsed =
      .ok (.staticResponse found) := by
  have selects : isStaticAt analysis manifest.middlewares .get parsed.path route = true := by
    simp [isStaticAt, promoted, ofText, asked]
  cases last : lastRoute (isStaticAt analysis manifest.middlewares .get parsed.path)
      manifest.routes with
  | none =>
      rw [lastRoute_eq_none_iff.mp last route member] at selects
      cases selects
  | some found =>
      refine ⟨found, ?_⟩
      rw [selectTarget, staticTarget_eq, if_pos ⟨by simp [noBody], isGet⟩,
        exactStaticRoute_fromManifest, last]

/-- A request whose path a dynamic route takes is answered, unless the path climbs. -/
theorem selectTarget_of_takes
    (few : FewParameters analysis manifest)
    {route : RouteInput} {method : Method} {path : Text} {values : List Text}
    (plain : parsed.isWebsocketUpgrade = false)
    (member : route ∈ manifest.routes)
    (dynamic : isPromoted analysis manifest.middlewares route = false)
    (ofMethod : Method.fromCode route.methodCode = some method)
    (asked : Method.fromBytes parsed.method = some method)
    (path_eq : normalizeRuntimePath (Utf8.decodeLossy parsed.path) = path)
    (stays : containsPathTraversal path = false)
    (takes : Takes route path values) :
    ∃ target, (fromManifest analysis manifest).selectTarget parsed = .ok target ∧
      target ≠ .notFound := by
  rw [selectTarget, webSocketTarget_of_plain plain]
  cases (fromManifest analysis manifest).staticTarget parsed with
  | some found => exact ⟨_, rfl, by simp⟩
  | none =>
      obtain ⟨matched, found⟩ := matchRoute_of_takes few member dynamic ofMethod takes
      refine ⟨.handler matched, ?_, by simp⟩
      simp only [dispatchTarget, path_eq, stays, matchMethod, asked, found]
      rfl

end Targets

end Router
end HttpNative
