import HttpNative.Router.MatchingPanics
import HttpNative.Router.RequestSelection

/-!
# Routes promoted to static responses

A promoted route stands in a table of its own, which is looked up before all
others, with the raw path, for GET requests without a body. Kept as a dynamic
exact route it is looked up behind the upgrade and the traversal check, with the
normalized path, for all requests of its method.
-/

namespace HttpNative
namespace Router

open Routing

/-! ## The two arrangements -/

/-- The route as a dynamic exact route of its method. -/
def asDynamic (method : Method) (route : RouteInput) : RouteInput :=
  { route with
    methodCode := method.code
    routeKind := routeKindExact
    staticResponse := false }

/-- The router of a manifest in which the route between the others is kept as a
dynamic exact route. -/
def keptRouter
    (analysis : SourceAnalysis)
    (manifest : ManifestInput)
    (method : Method)
    (before : List RouteInput)
    (route : RouteInput)
    (after : List RouteInput) : Router :=
  { after.foldl (addRoute analysis manifest.middlewares)
      ((addRoutes analysis manifest.middlewares before).addDynamic (asDynamic method route)
        (compileDynamicRouteSpec analysis manifest.middlewares (asDynamic method route))) with
    wsRoutes := (fromManifest analysis manifest).wsRoutes }

/-- A manifest with a promoted route of known method between its other routes,
which have other handler ids. -/
structure Promoted
    (analysis : SourceAnalysis)
    (manifest : ManifestInput)
    (method : Method)
    (before : List RouteInput)
    (route : RouteInput)
    (after : List RouteInput) : Prop where
  routes : manifest.routes = before ++ route :: after
  promoted : isPromoted analysis manifest.middlewares route = true
  ofMethod : Method.fromText route.method = some method
  distinct : ∀ other ∈ before ++ after, other.handlerId ≠ route.handlerId

/-- Which route a request gets. -/
inductive RouteResult where
  | route (handlerId : Nat)
  | webSocket (handlerId : Nat)
  | notFound
  | panic
  /-- Answered before it is routed. -/
  | refused
deriving DecidableEq

def resultOf : Except CapacityError Target → RouteResult
  | .ok (.staticResponse route) => .route route.handlerId
  | .ok (.handler route) => .route route.handlerId
  | .ok (.webSocket handlerId) => .webSocket handlerId
  | .ok .notFound => .notFound
  | .error _ => .panic

/-- The octets that the path of a route is looked up with. -/
def pathKey (route : RouteInput) : List UInt8 :=
  Utf8.encode (normalizePath route.path)

/-- A request for the static response: without a body, with exactly the path
that the route is registered for. -/
def AsksStatic (method : Method) (route : RouteInput) (parsed : Parser.ParsedRequest) : Prop :=
  method = .get ∧ parsed.hasBody = false ∧ parsed.method = octets "GET" ∧
    parsed.path = pathKey route

/-- A request that looks up the path of the route once it is normalized. -/
def AsksPath (method : Method) (route : RouteInput) (parsed : Parser.ParsedRequest) : Prop :=
  Method.fromBytes parsed.method = some method ∧
    normalizeRuntimePath (Utf8.decodeLossy parsed.path) = normalizePath route.path

instance (method : Method) (route : RouteInput) (parsed : Parser.ParsedRequest) :
    Decidable (AsksStatic method route parsed) :=
  inferInstanceAs (Decidable (_ ∧ _ ∧ _ ∧ _))

instance (method : Method) (route : RouteInput) (parsed : Parser.ParsedRequest) :
    Decidable (AsksPath method route parsed) :=
  inferInstanceAs (Decidable (_ ∧ _))

section Condition

variable (analysis : SourceAnalysis) (middlewares : List Text)

def HasStaticAt (method : Method) (key : List UInt8) (routes : List RouteInput) : Prop :=
  ∃ route ∈ routes, isStaticAt analysis middlewares method key route = true

def HasExactAt (method : Method) (key : List UInt8) (routes : List RouteInput) : Prop :=
  ∃ route ∈ routes, isExactAt analysis middlewares method key route = true

instance (method : Method) (key : List UInt8) (routes : List RouteInput) :
    Decidable (HasStaticAt analysis middlewares method key routes) :=
  inferInstanceAs (Decidable (∃ route ∈ routes, _))

instance (method : Method) (key : List UInt8) (routes : List RouteInput) :
    Decidable (HasExactAt analysis middlewares method key routes) :=
  inferInstanceAs (Decidable (∃ route ∈ routes, _))

/-- Where the promotion of a route changes nothing for a request that is read
alike in both arrangements. -/
def UnseenBy
    (router : Router)
    (method : Method)
    (before : List RouteInput)
    (route : RouteInput)
    (after : List RouteInput)
    (parsed : Parser.ParsedRequest) : Prop :=
  if AsksStatic method route parsed then
    HasStaticAt analysis middlewares method (pathKey route) after ∨
      ¬ HasStaticAt analysis middlewares method (pathKey route) before ∧
      router.webSocketTarget parsed = none ∧
      containsPathTraversal (normalizePath route.path) = false ∧
      ¬ HasExactAt analysis middlewares method (pathKey route) after
  else
    AsksPath method route parsed → router.webSocketTarget parsed = none →
      containsPathTraversal (normalizePath route.path) = true ∨
        HasExactAt analysis middlewares method (pathKey route) after

end Condition

/-! ## The tables of the two arrangements -/

section Tables

variable {analysis : SourceAnalysis} {manifest : ManifestInput} {method : Method}
  {before after : List RouteInput} {route : RouteInput}

theorem hasStaticAt_iff
    {middlewares : List Text} {key : List UInt8} {routes : List RouteInput} :
    HasStaticAt analysis middlewares method key routes ↔
      lastRoute (isStaticAt analysis middlewares method key) routes ≠ none := by
  rw [Ne, lastRoute_eq_none_iff]
  simp [HasStaticAt]

theorem hasExactAt_iff
    {middlewares : List Text} {key : List UInt8} {routes : List RouteInput} :
    HasExactAt analysis middlewares method key routes ↔
      lastRoute (isExactAt analysis middlewares method key) routes ≠ none := by
  rw [Ne, lastRoute_eq_none_iff]
  simp [HasExactAt]

theorem Promoted.addRoutes_eq
    (promoted : Promoted analysis manifest method before route after) :
    addRoutes analysis manifest.middlewares manifest.routes =
      after.foldl (addRoute analysis manifest.middlewares)
        ((addRoutes analysis manifest.middlewares before).addExactStatic route) := by
  rw [promoted.routes, addRoutes, List.foldl_append, List.foldl_cons, addRoute,
    if_pos promoted.promoted]
  rfl

theorem Promoted.exactStaticRoute_eq
    (promoted : Promoted analysis manifest method before route after)
    (own : Method)
    (path : List UInt8) :
    (fromManifest analysis manifest).exactStaticRoute own path =
      (lastRoute (isStaticAt analysis manifest.middlewares own path) after).or
        (if method = own ∧ pathKey route = path then some route
        else lastRoute (isStaticAt analysis manifest.middlewares own path) before) := by
  change (addRoutes analysis manifest.middlewares manifest.routes).exactStaticRoute own path = _
  rw [promoted.addRoutes_eq, exactStaticRoute_foldl, exactStaticRoute_addExactStatic,
    exactStaticRoute_addRoutes, promoted.ofMethod]
  simp only [Option.some.injEq]
  rfl

theorem keptRouter_exactStaticRoute
    (own : Method)
    (path : List UInt8) :
    (keptRouter analysis manifest method before route after).exactStaticRoute own path =
      (lastRoute (isStaticAt analysis manifest.middlewares own path) after).or
        (lastRoute (isStaticAt analysis manifest.middlewares own path) before) := by
  change (after.foldl (addRoute analysis manifest.middlewares) _).exactStaticRoute own path = _
  rw [exactStaticRoute_foldl, exactStaticRoute_addDynamic, exactStaticRoute_addRoutes]

theorem Promoted.dynamicExactRoutes_eq
    (promoted : Promoted analysis manifest method before route after)
    (own : Method)
    (path : List UInt8) :
    (fromManifest analysis manifest).dynamicExactRoutes.get (own, path) =
      ((lastRoute (isExactAt analysis manifest.middlewares own path) after).map
        (compileDynamicRouteSpec analysis manifest.middlewares)).or
      ((lastRoute (isExactAt analysis manifest.middlewares own path) before).map
        (compileDynamicRouteSpec analysis manifest.middlewares)) := by
  rw [dynamicExactRoutes_fromManifest, promoted.addRoutes_eq, dynamicExactRoutes_foldl,
    addExactStatic_dynamicExactRoutes, dynamicExactRoutes_addRoutes]

theorem dynamicExactRoutes_asDynamic
    (router : Router)
    (spec : DynamicRouteSpec) :
    (router.addDynamic (asDynamic method route) spec).dynamicExactRoutes =
      router.dynamicExactRoutes.set (method, pathKey route) spec := by
  simp only [addDynamic, asDynamic, Method.fromCode_code, if_pos]
  rfl

theorem keptRouter_dynamicExactRoutes
    (own : Method)
    (path : List UInt8) :
    (keptRouter analysis manifest method before route after).dynamicExactRoutes.get (own, path) =
      ((lastRoute (isExactAt analysis manifest.middlewares own path) after).map
        (compileDynamicRouteSpec analysis manifest.middlewares)).or
      (if method = own ∧ pathKey route = path then
        some (compileDynamicRouteSpec analysis manifest.middlewares (asDynamic method route))
      else
        (lastRoute (isExactAt analysis manifest.middlewares own path) before).map
          (compileDynamicRouteSpec analysis manifest.middlewares)) := by
  change (after.foldl (addRoute analysis manifest.middlewares) _).dynamicExactRoutes.get _ = _
  rw [dynamicExactRoutes_foldl, dynamicExactRoutes_asDynamic, Dictionary.get_set,
    dynamicExactRoutes_addRoutes]
  simp only [Prod.mk.injEq]

theorem Promoted.radixTree_eq
    (promoted : Promoted analysis manifest method before route after)
    (own : Method) :
    (keptRouter analysis manifest method before route after).radixTree own =
      (fromManifest analysis manifest).radixTree own := by
  change (after.foldl (addRoute analysis manifest.middlewares) _).radixTree own = _
  rw [radixTree_fromManifest, promoted.addRoutes_eq]
  apply radixTree_foldl_congr
  rw [radixTree, radixTree, addExactStatic_radixTrees]
  simp only [addDynamic, asDynamic, Method.fromCode_code, if_pos]

/-! ## The match in the two arrangements -/

theorem keptRouter_matchMethod_of_asks
    {parsed : Parser.ParsedRequest}
    (asks : AsksPath method route parsed)
    (none : lastRoute (isExactAt analysis manifest.middlewares method (pathKey route)) after =
      none) :
    (keptRouter analysis manifest method before route after).matchMethod parsed.method
        (normalizeRuntimePath (Utf8.decodeLossy parsed.path)) =
      .ok (some {
        compileDynamicRouteSpec analysis manifest.middlewares (asDynamic method route) with
        paramValues := [] }) := by
  rw [matchMethod, asks.1, asks.2]
  simp only
  rw [matchRoute_eq, Method.fromCode_code]
  simp only [keptRouter_dynamicExactRoutes]
  rw [← pathKey, none, Option.map_none, Option.none_or]
  simp

/-- Where the route is not looked up, or a later one stands in its place, the
two routers match the same. -/
theorem Promoted.matchMethod_eq
    (promoted : Promoted analysis manifest method before route after)
    {parsed : Parser.ParsedRequest}
    (other : AsksPath method route parsed →
      lastRoute (isExactAt analysis manifest.middlewares method (pathKey route)) after ≠ none) :
    (keptRouter analysis manifest method before route after).matchMethod parsed.method
        (normalizeRuntimePath (Utf8.decodeLossy parsed.path)) =
      (fromManifest analysis manifest).matchMethod parsed.method
        (normalizeRuntimePath (Utf8.decodeLossy parsed.path)) := by
  unfold matchMethod
  cases named : Method.fromBytes parsed.method with
  | none => rfl
  | some own =>
      simp only
      rw [matchRoute_eq, matchRoute_eq, Method.fromCode_code]
      simp only [promoted.radixTree_eq, keptRouter_dynamicExactRoutes,
        promoted.dynamicExactRoutes_eq]
      by_cases same : method = own ∧ pathKey route =
          Utf8.encode (normalizeRuntimePath (Utf8.decodeLossy parsed.path))
      · obtain ⟨rfl, samePath⟩ := same
        rw [← samePath]
        have asks : AsksPath method route parsed :=
          ⟨named, (Utf8.encode_inj.mp samePath).symm⟩
        obtain ⟨later, last⟩ := Option.ne_none_iff_exists'.mp (other asks)
        rw [last]
        rfl
      · rw [if_neg same]

/-- Another route than the promoted one answers a match. -/
theorem Promoted.handlerId_ne_of_match
    (promoted : Promoted analysis manifest method before route after)
    {octets : Octets} {path : Text} {matched : MatchedRoute}
    (found : (fromManifest analysis manifest).matchMethod octets path = .ok (some matched)) :
    matched.handlerId ≠ route.handlerId := by
  unfold matchMethod at found
  split at found
  · cases found
  · obtain ⟨other, member, isDynamic, compiled⟩ := of_matchRoute found
    rw [promoted.routes] at member
    have elsewhere : other ∈ before ++ after := by
      rcases List.mem_append.mp member with early | late
      · exact List.mem_append_left _ early
      · rcases List.mem_cons.mp late with rfl | late
        · rw [promoted.promoted] at isDynamic
          cases isDynamic
        · exact List.mem_append_right _ late
    rw [compiled]
    exact promoted.distinct other elsewhere

/-! ## The results in the two arrangements -/

theorem resultOf_ofMatch_ne
    {matched : Except CapacityError (Option MatchedRoute)}
    {handlerId : Nat}
    (elsewhere : ∀ other, matched = .ok (some other) → other.handlerId ≠ handlerId) :
    resultOf (ofMatch matched) ≠ .route handlerId := by
  rcases matched with panic | (_ | other)
  · intro same
    cases same
  · intro same
    cases same
  · intro same
    exact elsewhere other rfl (RouteResult.route.inj same)

/-- Behind the static responses and the upgrade the promotion is not seen where
the path is refused, is not that of the route, or is that of a later one. -/
theorem Promoted.dispatch_iff
    (promoted : Promoted analysis manifest method before route after)
    (parsed : Parser.ParsedRequest) :
    resultOf ((fromManifest analysis manifest).dispatchTarget parsed) =
        resultOf ((keptRouter analysis manifest method before route after).dispatchTarget
          parsed) ↔
      (AsksPath method route parsed →
        containsPathTraversal (normalizePath route.path) = true ∨
          HasExactAt analysis manifest.middlewares method (pathKey route) after) := by
  unfold dispatchTarget
  simp only
  by_cases unlike : AsksPath method route parsed →
      lastRoute (isExactAt analysis manifest.middlewares method (pathKey route)) after ≠ none
  · rw [promoted.matchMethod_eq unlike]
    simp only [true_iff]
    exact fun asks => .inr (hasExactAt_iff.mpr (unlike asks))
  · obtain ⟨asks, last⟩ := Classical.not_imp.mp unlike
    have last := not_not.mp last
    have noLater : ¬ HasExactAt analysis manifest.middlewares method (pathKey route) after := by
      rw [hasExactAt_iff]
      exact not_not.mpr last
    rw [keptRouter_matchMethod_of_asks asks last, asks.2]
    by_cases leaves : containsPathTraversal (normalizePath route.path) = true
    · simp [leaves]
    · simp only [leaves, Bool.false_eq_true, if_false, asks, noLater, or_false, true_implies,
        iff_false]
      exact resultOf_ofMatch_ne fun other found => promoted.handlerId_ne_of_match found

/-- No other static response stands under the raw path of a request for the
path of the route. -/
theorem noStatic_of_asks
    {parsed : Parser.ParsedRequest} {middlewares : List Text} {routes : List RouteInput}
    (asks : AsksPath method route parsed)
    (notStatic : ¬ AsksStatic method route parsed)
    (plain : parsed.hasBody = false)
    (isGet : parsed.method = octets "GET") :
    lastRoute (isStaticAt analysis middlewares .get parsed.path) routes = none := by
  rw [lastRoute_eq_none_iff]
  intro other _
  rw [Bool.eq_false_iff]
  intro selected
  simp only [isStaticAt, Bool.and_eq_true, decide_eq_true_eq] at selected
  have samePath := asks.2
  rw [← selected.2, Utf8.decodeLossy_encode, normalizeRuntimePath_normalizePath] at samePath
  have isMethod : method = .get := by
    have named := asks.1
    rw [isGet] at named
    exact (Option.some.inj ((by decide : Method.fromBytes (octets "GET") = some .get).symm.trans
      named)).symm
  refine notStatic ⟨isMethod, plain, isGet, ?_⟩
  rw [pathKey, ← selected.2, samePath]

/-- A request for the static response. -/
theorem Promoted.result_iff_of_asksStatic
    (promoted : Promoted analysis manifest method before route after)
    {parsed : Parser.ParsedRequest}
    (asks : AsksStatic method route parsed) :
    resultOf ((fromManifest analysis manifest).selectTarget parsed) =
        resultOf ((keptRouter analysis manifest method before route after).selectTarget parsed) ↔
      (HasStaticAt analysis manifest.middlewares method (pathKey route) after ∨
        ¬ HasStaticAt analysis manifest.middlewares method (pathKey route) before ∧
        (fromManifest analysis manifest).webSocketTarget parsed = none ∧
        containsPathTraversal (normalizePath route.path) = false ∧
        ¬ HasExactAt analysis manifest.middlewares method (pathKey route) after) := by
  obtain ⟨rfl, plain, isGet, isPath⟩ := asks
  have sameSocket : (keptRouter analysis manifest .get before route after).webSocketTarget parsed =
      (fromManifest analysis manifest).webSocketTarget parsed := rfl
  simp only [selectTarget, staticTarget_eq, plain, isGet, isPath, Bool.not_false, if_true,
    promoted.exactStaticRoute_eq, keptRouter_exactStaticRoute, and_self, sameSocket,
    hasStaticAt_iff]
  cases lastRoute (isStaticAt analysis manifest.middlewares .get (pathKey route)) after with
  | some later => simp
  | none =>
      simp only [Option.none_or, ne_eq, not_true_eq_false, false_or]
      cases early : lastRoute (isStaticAt analysis manifest.middlewares .get (pathKey route))
          before with
      | some other =>
          have member : other ∈ before := (of_lastRoute early).1
          have elsewhere := promoted.distinct other (List.mem_append_left _ member)
          simp [resultOf, Ne.symm elsewhere]
      | none =>
          simp only [not_true_eq_false, not_false_eq_true, true_and]
          cases (fromManifest analysis manifest).webSocketTarget parsed with
          | some handlerId => simp [resultOf]
          | none =>
              have asksPath : AsksPath .get route parsed := by
                refine ⟨by rw [isGet]; decide, ?_⟩
                rw [isPath, pathKey, Utf8.decodeLossy_encode, normalizeRuntimePath_normalizePath]
              unfold dispatchTarget
              simp only [asksPath.2, true_and]
              by_cases leaves : containsPathTraversal (normalizePath route.path) = true
              · simp [leaves, resultOf]
              · simp only [leaves, Bool.false_eq_true, if_false, true_and]
                by_cases later : lastRoute (isExactAt analysis manifest.middlewares .get
                    (pathKey route)) after = none
                · rw [← asksPath.2, keptRouter_matchMethod_of_asks asksPath later, hasExactAt_iff]
                  simp [later, ofMatch, resultOf, compileDynamicRouteSpec, asDynamic]
                · rw [← asksPath.2, promoted.matchMethod_eq fun _ => later, hasExactAt_iff]
                  refine iff_of_false (Ne.symm (resultOf_ofMatch_ne ?_)) (not_not.mpr later)
                  exact fun other found => promoted.handlerId_ne_of_match found

/-- A promotion is not seen by a request that both routers read alike exactly
where the condition holds. -/
theorem Promoted.result_iff
    (promoted : Promoted analysis manifest method before route after)
    (parsed : Parser.ParsedRequest) :
    resultOf ((fromManifest analysis manifest).selectTarget parsed) =
        resultOf ((keptRouter analysis manifest method before route after).selectTarget parsed) ↔
      UnseenBy analysis manifest.middlewares (fromManifest analysis manifest) method before route
        after parsed := by
  unfold UnseenBy
  by_cases asksStatic : AsksStatic method route parsed
  · rw [if_pos asksStatic]
    exact promoted.result_iff_of_asksStatic asksStatic
  · rw [if_neg asksStatic]
    have sameSocket :
        (keptRouter analysis manifest method before route after).webSocketTarget parsed =
          (fromManifest analysis manifest).webSocketTarget parsed := rfl
    have sameStatic :
        (keptRouter analysis manifest method before route after).staticTarget parsed =
          (fromManifest analysis manifest).staticTarget parsed := by
      rw [staticTarget_eq, staticTarget_eq]
      by_cases plainGet : (!parsed.hasBody) = true ∧ parsed.method = octets "GET"
      · rw [if_pos plainGet, if_pos plainGet, promoted.exactStaticRoute_eq,
          keptRouter_exactStaticRoute, if_neg]
        rintro ⟨isMethod, samePath⟩
        exact asksStatic ⟨isMethod, by simpa using plainGet.1, plainGet.2, samePath.symm⟩
      · rw [if_neg plainGet, if_neg plainGet]
    unfold selectTarget
    rw [sameStatic, sameSocket]
    cases static : (fromManifest analysis manifest).staticTarget parsed with
    | some other =>
        -- a static response under the raw path belongs to another path
        simp only [true_iff]
        intro asks
        rw [staticTarget_eq] at static
        split at static
        · rename_i plainGet
          have plain : parsed.hasBody = false := by simpa using plainGet.1
          rw [promoted.exactStaticRoute_eq,
            noStatic_of_asks asks asksStatic plain plainGet.2,
            noStatic_of_asks asks asksStatic plain plainGet.2, if_neg] at static
          · cases static
          · rintro ⟨isMethod, samePath⟩
            exact asksStatic ⟨isMethod, plain, plainGet.2, samePath.symm⟩
        · cases static
    | none =>
        simp only
        cases (fromManifest analysis manifest).webSocketTarget parsed with
        | some handlerId => simp
        | none =>
            simp only [true_implies]
            exact promoted.dispatch_iff parsed

end Tables

end Router
end HttpNative
