import HttpNative.Router.NativeRouter

/-!
# What the tables of the router hold

Under each method and path the route registered there last, in each tree the
parameterised routes of its method; and the match of a request in these terms.
-/

namespace HttpNative
namespace Router

open Routing

/-! ## The last route -/

/-- The route registered last among those selected. -/
def lastRoute (selects : RouteInput → Bool) (routes : List RouteInput) : Option RouteInput :=
  (routes.filter selects).getLast?

theorem lastRoute_concat
    (selects : RouteInput → Bool)
    (routes : List RouteInput)
    (route : RouteInput) :
    lastRoute selects (routes ++ [route]) =
      if selects route then some route else lastRoute selects routes := by
  unfold lastRoute
  rw [List.filter_append]
  by_cases selected : selects route = true
  · simp [selected]
  · simp [selected]

theorem of_lastRoute
    {selects : RouteInput → Bool} {routes : List RouteInput} {route : RouteInput}
    (last : lastRoute selects routes = some route) :
    route ∈ routes ∧ selects route = true :=
  List.mem_filter.mp (List.mem_of_getLast? last)

theorem lastRoute_eq_none_iff
    {selects : RouteInput → Bool} {routes : List RouteInput} :
    lastRoute selects routes = none ↔ ∀ route ∈ routes, selects route = false := by
  unfold lastRoute
  rw [List.getLast?_eq_none_iff, List.filter_eq_nil_iff]
  simp

@[simp] theorem addExactStatic_dynamicExactRoutes
    (router : Router)
    (route : RouteInput) :
    (router.addExactStatic route).dynamicExactRoutes = router.dynamicExactRoutes := by
  unfold addExactStatic
  split
  · rfl
  · simp only
    split <;> rfl

@[simp] theorem addExactStatic_radixTrees
    (router : Router)
    (route : RouteInput) :
    (router.addExactStatic route).radixTrees = router.radixTrees := by
  unfold addExactStatic
  split
  · rfl
  · simp only
    split <;> rfl

/-- A static route answers its own method and path. -/
theorem exactStaticRoute_addExactStatic
    (router : Router)
    (route : RouteInput)
    (method : Method)
    (path : List UInt8) :
    (router.addExactStatic route).exactStaticRoute method path =
      if Method.fromText route.method = some method ∧
          Utf8.encode (normalizePath route.path) = path then
        some route
      else
        router.exactStaticRoute method path := by
  unfold addExactStatic
  cases ofText : Method.fromText route.method with
  | none => simp
  | some own =>
      simp only [Option.some.injEq]
      by_cases ownRoot : own = .get ∧ normalizePath route.path = root
      · rw [if_pos ownRoot, ownRoot.1, ownRoot.2]
        unfold exactStaticRoute
        by_cases isRoot : method = .get ∧ path = Utf8.encode root
        · rw [if_pos isRoot, if_pos ⟨isRoot.1.symm, isRoot.2.symm⟩]
        · rw [if_neg isRoot, if_neg isRoot, if_neg fun same => isRoot ⟨same.1.symm, same.2.symm⟩]
      · rw [if_neg ownRoot]
        unfold exactStaticRoute
        by_cases isRoot : method = .get ∧ path = Utf8.encode root
        · rw [if_pos isRoot, if_pos isRoot, if_neg]
          rintro ⟨rfl, same⟩
          exact ownRoot ⟨isRoot.1, Utf8.encode_inj.mp (same.trans isRoot.2)⟩
        · rw [if_neg isRoot, if_neg isRoot]
          simp only [Dictionary.get_set, Prod.mk.injEq]

@[simp] theorem exactStaticRoute_addDynamic
    (router : Router)
    (route : RouteInput)
    (spec : DynamicRouteSpec)
    (method : Method)
    (path : List UInt8) :
    (router.addDynamic route spec).exactStaticRoute method path =
      router.exactStaticRoute method path := by
  unfold addDynamic
  split
  · rfl
  · simp only
    split
    · rfl
    · split <;> rfl

section Contents

variable (analysis : SourceAnalysis) (middlewares : List Text)

/-- The route is answered by its handler, and matched in this way. -/
def isDynamic (method : Method) (routeKind : Nat) (route : RouteInput) : Bool :=
  !isPromoted analysis middlewares route && Method.fromCode route.methodCode = some method &&
    route.routeKind = routeKind

def isExactAt (method : Method) (path : List UInt8) (route : RouteInput) : Bool :=
  isDynamic analysis middlewares method routeKindExact route &&
    Utf8.encode (normalizePath route.path) = path

def isParamAt
    (method : Method)
    (pattern : List (PatternSegment Text))
    (route : RouteInput) : Bool :=
  isDynamic analysis middlewares method routeKindParam route && patternOf route.path = pattern

def isStaticAt (method : Method) (path : List UInt8) (route : RouteInput) : Bool :=
  isPromoted analysis middlewares route && Method.fromText route.method = some method &&
    Utf8.encode (normalizePath route.path) = path

/-- The tree of a method; one that was never written is empty. -/
def radixTree (router : Router) (method : Method) : RadixNode :=
  (router.radixTrees.get method).getD .empty

theorem addRoutes_concat
    (routes : List RouteInput)
    (route : RouteInput) :
    addRoutes analysis middlewares (routes ++ [route]) =
      addRoute analysis middlewares (addRoutes analysis middlewares routes) route := by
  rw [addRoutes, List.foldl_append]
  rfl

theorem dynamicExactRoutes_addRoute
    (router : Router)
    (route : RouteInput)
    (method : Method)
    (path : List UInt8) :
    (addRoute analysis middlewares router route).dynamicExactRoutes.get (method, path) =
      if isExactAt analysis middlewares method path route then
        some (compileDynamicRouteSpec analysis middlewares route)
      else
        router.dynamicExactRoutes.get (method, path) := by
  unfold addRoute isExactAt isDynamic
  by_cases promoted : isPromoted analysis middlewares route = true
  · rw [if_pos promoted, addExactStatic_dynamicExactRoutes]
    simp [promoted]
  · rw [if_neg promoted]
    unfold addDynamic
    cases code : Method.fromCode route.methodCode with
    | none => simp
    | some other =>
        simp only
        by_cases exactKind : route.routeKind = routeKindExact
        · rw [if_pos exactKind, Dictionary.get_set]
          simp [promoted, exactKind]
        · rw [if_neg exactKind]
          by_cases paramKind : route.routeKind = routeKindParam
          · rw [if_pos paramKind]
            simp [exactKind]
          · rw [if_neg paramKind]
            simp [exactKind]

/-- Routes are added behind those of a router, which keep the paths that no added
route has. -/
theorem dynamicExactRoutes_foldl
    (router : Router)
    (routes : List RouteInput)
    (method : Method)
    (path : List UInt8) :
    (routes.foldl (addRoute analysis middlewares) router).dynamicExactRoutes.get (method, path) =
      ((lastRoute (isExactAt analysis middlewares method path) routes).map
        (compileDynamicRouteSpec analysis middlewares)).or
          (router.dynamicExactRoutes.get (method, path)) := by
  induction routes using List.reverseRecOn with
  | nil => rfl
  | append_singleton routes route hypothesis =>
      rw [List.foldl_append, List.foldl_cons, List.foldl_nil, dynamicExactRoutes_addRoute,
        lastRoute_concat, hypothesis]
      split <;> rfl

theorem dynamicExactRoutes_addRoutes
    (routes : List RouteInput)
    (method : Method)
    (path : List UInt8) :
    (addRoutes analysis middlewares routes).dynamicExactRoutes.get (method, path) =
      (lastRoute (isExactAt analysis middlewares method path) routes).map
        (compileDynamicRouteSpec analysis middlewares) := by
  rw [addRoutes, dynamicExactRoutes_foldl, empty, Dictionary.get_nil, Option.or_none]

theorem exactStaticRoute_addRoute
    (router : Router)
    (route : RouteInput)
    (method : Method)
    (path : List UInt8) :
    (addRoute analysis middlewares router route).exactStaticRoute method path =
      if isStaticAt analysis middlewares method path route then some route
      else router.exactStaticRoute method path := by
  unfold addRoute isStaticAt
  by_cases promoted : isPromoted analysis middlewares route = true
  · rw [if_pos promoted, exactStaticRoute_addExactStatic]
    simp [promoted]
  · rw [if_neg promoted, exactStaticRoute_addDynamic]
    simp [promoted]

theorem exactStaticRoute_foldl
    (router : Router)
    (routes : List RouteInput)
    (method : Method)
    (path : List UInt8) :
    (routes.foldl (addRoute analysis middlewares) router).exactStaticRoute method path =
      (lastRoute (isStaticAt analysis middlewares method path) routes).or
        (router.exactStaticRoute method path) := by
  induction routes using List.reverseRecOn with
  | nil => rfl
  | append_singleton routes route hypothesis =>
      rw [List.foldl_append, List.foldl_cons, List.foldl_nil, exactStaticRoute_addRoute,
        lastRoute_concat, hypothesis]
      split <;> rfl

theorem exactStaticRoute_addRoutes
    (routes : List RouteInput)
    (method : Method)
    (path : List UInt8) :
    (addRoutes analysis middlewares routes).exactStaticRoute method path =
      lastRoute (isStaticAt analysis middlewares method path) routes := by
  have blank : empty.exactStaticRoute method path = none := by
    unfold exactStaticRoute
    split <;> rfl
  rw [addRoutes, exactStaticRoute_foldl, blank, Option.or_none]

theorem radixTree_addRoute
    (router : Router)
    (route : RouteInput)
    (method : Method) :
    (addRoute analysis middlewares router route).radixTree method =
      if isDynamic analysis middlewares method routeKindParam route then
        (router.radixTree method).insert (compileDynamicRouteSpec analysis middlewares route)
          (patternOf route.path)
      else
        router.radixTree method := by
  unfold addRoute isDynamic
  by_cases promoted : isPromoted analysis middlewares route = true
  · rw [if_pos promoted, radixTree, addExactStatic_radixTrees]
    simp [promoted, radixTree]
  · rw [if_neg promoted]
    unfold addDynamic
    cases code : Method.fromCode route.methodCode with
    | none => simp
    | some other =>
        simp only
        by_cases exactKind : route.routeKind = routeKindExact
        · rw [if_pos exactKind]
          simp [exactKind, routeKindExact, routeKindParam, radixTree]
        · rw [if_neg exactKind]
          by_cases paramKind : route.routeKind = routeKindParam
          · rw [if_pos paramKind]
            unfold radixTree
            simp only [Dictionary.get_set, parseSegments_eq, patternOf_normalizePath]
            by_cases same : other = method
            · simp [promoted, paramKind, same]
            · simp [same]
          · rw [if_neg paramKind]
            simp [paramKind]

/-- What holds of the empty tree and is kept by the insertions of a method's
routes holds of the method's tree. -/
theorem radixTree_induction
    {property : RadixNode → Prop} {routes : List RouteInput} {method : Method}
    (initial : property .empty)
    (kept : ∀ route ∈ routes, isDynamic analysis middlewares method routeKindParam route = true →
      ∀ tree, property tree → property (tree.insert
        (compileDynamicRouteSpec analysis middlewares route) (patternOf route.path))) :
    property ((addRoutes analysis middlewares routes).radixTree method) := by
  induction routes using List.reverseRecOn with
  | nil => exact initial
  | append_singleton routes route hypothesis =>
      have before : property ((addRoutes analysis middlewares routes).radixTree method) :=
        hypothesis fun other member => kept other (List.mem_append_left _ member)
      rw [addRoutes_concat, radixTree_addRoute]
      split
      · rename_i isParam
        exact kept route (by simp) isParam _ before
      · exact before

theorem lookup_radixTree
    (routes : List RouteInput)
    (method : Method)
    (pattern : List (PatternSegment Text)) :
    PatternTree.lookup pattern ((addRoutes analysis middlewares routes).radixTree method) =
      (lastRoute (isParamAt analysis middlewares method pattern) routes).map
        (compileDynamicRouteSpec analysis middlewares) := by
  induction routes using List.reverseRecOn with
  | nil => exact PatternTree.lookup_empty pattern
  | append_singleton routes route hypothesis =>
      rw [addRoutes_concat, radixTree_addRoute, lastRoute_concat]
      unfold isParamAt
      by_cases isParam : isDynamic analysis middlewares method routeKindParam route = true
      · rw [if_pos isParam, PatternTree.lookup_insert, hypothesis]
        simp only [isParam, Bool.true_and, decide_eq_true_eq]
        split <;> rfl
      · rw [if_neg isParam, hypothesis, if_neg (by simp [isParam])]
        rfl

theorem lookup_ne_none
    {routes : List RouteInput} {method : Method} {route : RouteInput}
    (member : route ∈ routes)
    (isParam : isDynamic analysis middlewares method routeKindParam route = true) :
    PatternTree.lookup (patternOf route.path)
      ((addRoutes analysis middlewares routes).radixTree method) ≠ none := by
  rw [lookup_radixTree, Ne, Option.map_eq_none_iff, lastRoute_eq_none_iff]
  intro unselected
  have selected := unselected route member
  simp [isParamAt, isParam] at selected

theorem radixTree_foldl_congr
    {router other : Router} {method : Method}
    (same : router.radixTree method = other.radixTree method)
    (routes : List RouteInput) :
    (routes.foldl (addRoute analysis middlewares) router).radixTree method =
      (routes.foldl (addRoute analysis middlewares) other).radixTree method := by
  induction routes using List.reverseRecOn with
  | nil => exact same
  | append_singleton routes route hypothesis =>
      simp only [List.foldl_append, List.foldl_cons, List.foldl_nil, radixTree_addRoute,
        hypothesis]

/-- What a tree stores was compiled from a parameterised route of the method. -/
def StoresCompiled (routes : List RouteInput) (method : Method) (tree : RadixNode) : Prop :=
  ∀ pattern spec, PatternTree.Stored pattern tree spec →
    ∃ route ∈ routes, isDynamic analysis middlewares method routeKindParam route = true ∧
      spec = compileDynamicRouteSpec analysis middlewares route

theorem radixTree_storesCompiled
    (routes : List RouteInput)
    (method : Method) :
    StoresCompiled analysis middlewares routes method
      ((addRoutes analysis middlewares routes).radixTree method) := by
  refine radixTree_induction analysis middlewares ?_ ?_
  · intro pattern spec stored
    exact absurd stored (PatternTree.not_stored_empty pattern spec)
  · intro route member isParam tree before pattern spec stored
    rcases PatternTree.stored_of_insert stored with ⟨_, rfl⟩ | old
    · exact ⟨route, member, isParam, rfl⟩
    · exact before pattern spec old

theorem radixTree_distinct
    (routes : List RouteInput)
    (method : Method) :
    PatternTree.EveryNode List.Nodup
      ((addRoutes analysis middlewares routes).radixTree method) := by
  refine radixTree_induction analysis middlewares (.empty List.nodup_nil) ?_
  intro route _ _ tree distinct
  refine distinct.insert List.nodup_nil ?_
  intro labels label _ absent nodup
  rw [← List.concat_eq_append]
  exact nodup.concat absent

theorem radixTree_capturesLE
    {routes : List RouteInput} {method : Method} {bound : Nat}
    (few : ∀ route ∈ routes, isDynamic analysis middlewares method routeKindParam route = true →
      captureCount (patternOf route.path) ≤ bound) :
    PatternTree.CapturesLE bound ((addRoutes analysis middlewares routes).radixTree method) := by
  refine radixTree_induction analysis middlewares (.empty bound) ?_
  intro route member isParam tree bounded
  exact bounded.insert (few route member isParam)

end Contents

@[simp] theorem dynamicExactRoutes_fromManifest
    (analysis : SourceAnalysis)
    (manifest : ManifestInput) :
    (fromManifest analysis manifest).dynamicExactRoutes =
      (addRoutes analysis manifest.middlewares manifest.routes).dynamicExactRoutes := rfl

@[simp] theorem radixTree_fromManifest
    (analysis : SourceAnalysis)
    (manifest : ManifestInput)
    (method : Method) :
    (fromManifest analysis manifest).radixTree method =
      (addRoutes analysis manifest.middlewares manifest.routes).radixTree method := rfl

theorem matchPath_empty
    (segments : List Text) :
    matchPath segments [] .empty = .ok (none, []) := by
  cases segments with
  | nil => rfl
  | cons segment segments => rfl

theorem length_normalizeRuntimePath
    (path : Text) :
    (normalizeRuntimePath path).length ≤ path.length := by
  unfold normalizeRuntimePath
  split
  · exact Nat.le_refl _
  · rename_i slash
    have ends : path.getLast? = some '/' := not_not.mp (not_or.mp slash).2
    obtain ⟨before, rfl⟩ := List.getLast?_eq_some_iff.mp ends
    have shorter : ((before ++ ['/']).rdropWhile (· = '/')).length ≤ before.length := by
      rw [List.rdropWhile_concat_pos _ _ _ (by simp)]
      exact (List.rdropWhile_prefix _ _).length_le
    have whole : (before ++ ['/']).length = before.length + 1 := by simp
    dsimp only
    split
    · rw [whole]
      exact Nat.succ_le_succ (Nat.zero_le _)
    · split
      · omega
      · rw [List.length_cons]
        omega

/-- A path that a route is registered for is normalized for requests too. -/
theorem normalizeRuntimePath_normalizePath
    (path : Text) :
    normalizeRuntimePath (normalizePath path) = normalizePath path := by
  have settled {normalized : Text} (noSlash : normalized = root ∨ normalized.getLast? ≠ some '/') :
      normalizeRuntimePath normalized = normalized := by
    rw [normalizeRuntimePath, if_pos noSlash]
  have trimmed : (path.rdropWhile (· = '/')).getLast? ≠ some '/' := by
    by_cases filled : path.rdropWhile (· = '/') = []
    · rw [filled]
      simp
    · rw [List.getLast?_eq_some_getLast filled]
      intro last
      exact List.rdropWhile_last_not _ _ filled (decide_eq_true (Option.some.inj last))
  apply settled
  unfold normalizePath normalizePathPrefix
  split
  · exact .inl rfl
  · simp only
    split
    · exact .inr trimmed
    · generalize path.rdropWhile (· = '/') = rest at trimmed
      cases rest with
      | nil => exact .inl rfl
      | cons char rest =>
          right
          rwa [List.getLast?_cons_cons]

/-- The lookup in the exact routes and the tree of a method. -/
theorem matchRoute_eq
    (router : Router)
    (methodCode : Nat)
    (path : Text) :
    router.matchRoute methodCode path =
      match Method.fromCode methodCode with
      | none => .ok none
      | some method =>
          match router.dynamicExactRoutes.get (method, Utf8.encode path) with
          | some spec => .ok (some { spec with paramValues := [] })
          | none =>
              match (router.radixTree method).search RouteTable.maxStackSegments
                (nonEmptySegments path) [] with
              | .found spec captured => .ok (some { spec with paramValues := captured })
              | .missed => .ok none
              | .overflow => .error {} := by
  unfold matchRoute
  cases Method.fromCode methodCode with
  | none => rfl
  | some method =>
      simp only
      cases router.dynamicExactRoutes.get (method, Utf8.encode path) with
      | some spec => rfl
      | none =>
          simp only [radixTree]
          cases router.radixTrees.get method with
          | none =>
              have missed := matchPath_empty (nonEmptySegments path)
              rw [matchPath_eq] at missed
              rw [Option.getD_none]
              cases searched : (PatternTree.empty : RadixNode).search
                  RouteTable.maxStackSegments (nonEmptySegments path) [] with
              | found spec captured => rw [searched] at missed; cases missed
              | overflow => rw [searched] at missed; cases missed
              | missed => rfl
          | some tree =>
              simp only [Option.getD_some, requestSegments_eq, splitRequestSegments_eq,
                matchPath_eq]
              cases tree.search RouteTable.maxStackSegments (nonEmptySegments path) [] <;> rfl

/-- What a match returns was compiled from a dynamic route of the manifest. -/
theorem of_matchRoute
    {analysis : SourceAnalysis} {manifest : ManifestInput} {methodCode : Nat} {path : Text}
    {matched : MatchedRoute}
    (found : (fromManifest analysis manifest).matchRoute methodCode path = .ok (some matched)) :
    ∃ route ∈ manifest.routes, isPromoted analysis manifest.middlewares route = false ∧
      matched.toDynamicRouteSpec = compileDynamicRouteSpec analysis manifest.middlewares route := by
  rw [matchRoute_eq] at found
  split at found
  · cases found
  · rename_i method _
    rw [dynamicExactRoutes_fromManifest, dynamicExactRoutes_addRoutes,
      radixTree_fromManifest] at found
    split at found
    · rename_i spec exact
      cases found
      obtain ⟨route, last, rfl⟩ := Option.map_eq_some_iff.mp exact
      obtain ⟨member, selected⟩ := of_lastRoute last
      simp only [isExactAt, isDynamic, Bool.and_eq_true, Bool.not_eq_true'] at selected
      exact ⟨route, member, selected.1.1.1, rfl⟩
    · split at found
      · rename_i spec captured searched
        cases found
        obtain ⟨pattern, _, stored⟩ := PatternTree.stored_of_search searched
        obtain ⟨route, member, isParam, rfl⟩ :=
          radixTree_storesCompiled analysis manifest.middlewares manifest.routes method _ _ stored
        simp only [isDynamic, Bool.and_eq_true, Bool.not_eq_true'] at isParam
        exact ⟨route, member, isParam.1.1, rfl⟩
      · cases found
      · cases found

/-- The parameters of a match are few, and segments of the path. -/
theorem paramValues_of_matchRoute
    {router : Router} {methodCode : Nat} {path : Text} {matched : MatchedRoute}
    (found : router.matchRoute methodCode path = .ok (some matched)) :
    matched.paramValues.length ≤ RouteTable.maxStackSegments ∧
      ∀ value ∈ matched.paramValues, value.length ≤ path.length := by
  rw [matchRoute_eq] at found
  split at found
  · cases found
  · split at found
    · cases found
      exact ⟨Nat.zero_le _, fun value member => absurd member List.not_mem_nil⟩
    · split at found
      · rename_i searched
        cases found
        obtain ⟨few, origins⟩ := PatternTree.captured_of_search (Nat.zero_le _) searched
        refine ⟨few, fun value member => ?_⟩
        rcases origins value member with none | segment
        · exact absurd none List.not_mem_nil
        · exact Text.length_le_of_mem_splitOn (List.mem_filter.mp segment).1
      · cases found
      · cases found

end Router
end HttpNative
