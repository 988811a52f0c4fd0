import HttpNative.Router.RouterTables

/-!
# The route that a request matches

`match_route` against a matcher that reads the list of routes: an exact route
of the path, else the parameterised route whose pattern prefers fixed segments,
and among equal ones the route registered last.
-/

namespace HttpNative
namespace Router

open Routing

/-! ## The shape of a route -/

/-- `path.slice(1)`; of a character of two code units the second is left, which
is neither a slash nor a colon. -/
def sliceOne : Text → Text
  | [] => []
  | char :: rest => if 0x10000 ≤ char.toNat then char :: rest else rest

/-- The segments of a path whose first character is taken for a slash. -/
def shapeSegments (path : Text) : List Text :=
  if path = root then [] else nonEmptySegments (sliceOne path)

def paramName : Text → Option Text
  | ':' :: name => some name
  | _ => none

/-- The parameter names of `compileRouteShape`. -/
def shapeParamNames (path : Text) : List Text :=
  (shapeSegments path).filterMap paramName

/-- The route kind of `compileRouteShape`. -/
def shapeRouteKind (path : Text) : Nat :=
  if (shapeParamNames path).length = 0 then routeKindExact else routeKindParam

/-- Only dynamic routes of at most 16 segments, with the kind and the names
that `compileRouteShape` computes. -/
structure Matchable (analysis : SourceAnalysis) (manifest : ManifestInput) : Prop where
  dynamic : ∀ route ∈ manifest.routes, isPromoted analysis manifest.middlewares route = false
  segments : ∀ route ∈ manifest.routes,
    (patternOf route.path).length ≤ RouteTable.maxStackSegments
  routeKind : ∀ route ∈ manifest.routes, route.routeKind = shapeRouteKind route.path
  paramNames : ∀ route ∈ manifest.routes, route.paramNames = shapeParamNames route.path

/-! ## The reference matcher -/

def exactCandidates
    (pathOf : RouteInput → Text)
    (routes : List RouteInput)
    (method : Method)
    (path : Text) : List RouteInput :=
  routes.filter fun route =>
    Method.fromCode route.methodCode = some method ∧ route.routeKind = routeKindExact ∧
      pathOf route = path

def paramCandidates
    (routes : List RouteInput)
    (method : Method)
    (path : Text) : List RouteInput :=
  routes.filter fun route =>
    Method.fromCode route.methodCode = some method ∧ route.routeKind = routeKindParam ∧
      Fits (patternOf route.path) (nonEmptySegments path)

/-- The candidates whose pattern is preferred to every other pattern. -/
def preferredRoutes (candidates : List RouteInput) : List RouteInput :=
  candidates.filter fun route =>
    ∀ other ∈ candidates, patternOf other.path = patternOf route.path ∨
      Prefers (patternOf route.path) (patternOf other.path)

/-- The route that answers a request and the segments at its parameters. The
first argument says which path an exact route is registered for. -/
def referenceMatch
    (pathOf : RouteInput → Text)
    (routes : List RouteInput)
    (methodCode : Nat)
    (path : Text) : Option (RouteInput × List Text) :=
  match Method.fromCode methodCode with
  | none => none
  | some method =>
      match (exactCandidates pathOf routes method path).getLast? with
      | some route => some (route, [])
      | none =>
          (preferredRoutes (paramCandidates routes method path)).getLast?.map fun route =>
            (route, capturesOf (patternOf route.path) (nonEmptySegments path))

/-- The route that an exact route is registered for: no slash at the end and
one in front. -/
def registeredPath (route : RouteInput) : Text :=
  normalizePath route.path

def matchedRoute
    (analysis : SourceAnalysis)
    (middlewares : List Text)
    (answer : RouteInput × List Text) : MatchedRoute :=
  { compileDynamicRouteSpec analysis middlewares answer.1 with paramValues := answer.2 }

/-! ## The tables and the candidates -/

section Candidates

variable {analysis : SourceAnalysis} {middlewares : List Text} {routes : List RouteInput}
  {method : Method} {path : Text}

theorem lastRoute_isExactAt
    (dynamic : ∀ route ∈ routes, isPromoted analysis middlewares route = false) :
    lastRoute (isExactAt analysis middlewares method (Utf8.encode path)) routes =
      (exactCandidates registeredPath routes method path).getLast? := by
  unfold lastRoute exactCandidates registeredPath
  congr 1
  apply List.filter_congr
  intro route member
  rw [Bool.eq_iff_iff]
  simp only [isExactAt, isDynamic, dynamic route member, Utf8.encode_inj,
    Bool.not_false, Bool.true_and, Bool.and_eq_true, decide_eq_true_eq, and_assoc]

theorem isDynamic_of
    (dynamic : ∀ route ∈ routes, isPromoted analysis middlewares route = false)
    {route : RouteInput}
    (member : route ∈ routes)
    (ofMethod : Method.fromCode route.methodCode = some method)
    (isParam : route.routeKind = routeKindParam) :
    isDynamic analysis middlewares method routeKindParam route = true := by
  simp [isDynamic, dynamic route member, ofMethod, isParam]

/-- A pattern with a value in the tree is that of a parameterised route. -/
theorem exists_of_lookup
    {pattern : List (PatternSegment Text)}
    (stored : PatternTree.lookup pattern
      ((addRoutes analysis middlewares routes).radixTree method) ≠ none) :
    ∃ route ∈ routes, Method.fromCode route.methodCode = some method ∧
      route.routeKind = routeKindParam ∧ patternOf route.path = pattern := by
  rw [lookup_radixTree] at stored
  cases last : lastRoute (isParamAt analysis middlewares method pattern) routes with
  | none => simp [last] at stored
  | some route =>
      obtain ⟨member, selected⟩ := of_lastRoute last
      simp only [isParamAt, isDynamic, Bool.and_eq_true, decide_eq_true_eq] at selected
      exact ⟨route, member, selected.1.1.2, selected.1.2, selected.2⟩

/-- The preferred candidates are the routes of the pattern that leads. -/
theorem preferredRoutes_of_leads
    (dynamic : ∀ route ∈ routes, isPromoted analysis middlewares route = false)
    {pattern : List (PatternSegment Text)} {spec : DynamicRouteSpec}
    (leads : PatternTree.Leads ((addRoutes analysis middlewares routes).radixTree method)
      (nonEmptySegments path) pattern spec) :
    preferredRoutes (paramCandidates routes method path) =
      routes.filter (isParamAt analysis middlewares method pattern) := by
  unfold preferredRoutes paramCandidates
  rw [List.filter_filter]
  apply List.filter_congr
  intro route member
  rw [Bool.eq_iff_iff]
  simp only [isParamAt, isDynamic, dynamic route member, Bool.not_false, Bool.true_and,
    Bool.and_eq_true, decide_eq_true_eq, List.mem_filter]
  constructor
  · rintro ⟨isPreferred, ofMethod, isParam, fits⟩
    refine ⟨⟨ofMethod, isParam⟩, ?_⟩
    obtain ⟨leader, leaderMember, leaderMethod, leaderKind, rfl⟩ :=
      exists_of_lookup (by rw [leads.stored]; simp)
    rcases leads.preferred _ fits (lookup_ne_none analysis middlewares member
      (isDynamic_of dynamic member ofMethod isParam)) with
      same | prefers
    · exact same
    · rcases isPreferred leader ⟨leaderMember, leaderMethod, leaderKind, leads.fits⟩ with
        same | reverse
      · exact same.symm
      · exact absurd reverse prefers.asymm
  · rintro ⟨⟨ofMethod, isParam⟩, rfl⟩
    refine ⟨?_, ofMethod, isParam, leads.fits⟩
    rintro other ⟨otherMember, otherMethod, otherKind, otherFits⟩
    exact leads.preferred _ otherFits
      (lookup_ne_none analysis middlewares otherMember
        (isDynamic_of dynamic otherMember otherMethod otherKind))

theorem paramCandidates_of_noneFits
    (dynamic : ∀ route ∈ routes, isPromoted analysis middlewares route = false)
    (none : PatternTree.NoneFits ((addRoutes analysis middlewares routes).radixTree method)
      (nonEmptySegments path)) :
    paramCandidates routes method path = [] := by
  rw [paramCandidates, List.filter_eq_nil_iff]
  intro route member candidate
  obtain ⟨ofMethod, isParam, fits⟩ := of_decide_eq_true candidate
  exact lookup_ne_none analysis middlewares member
    (isDynamic_of dynamic member ofMethod isParam) (none _ fits)

end Candidates

/-! ## The match -/

/-- With room for all captures a match is that of the reference. -/
theorem matchRoute_of_captures
    {analysis : SourceAnalysis} {manifest : ManifestInput}
    (dynamic : ∀ route ∈ manifest.routes, isPromoted analysis manifest.middlewares route = false)
    (few : ∀ route ∈ manifest.routes,
      captureCount (patternOf route.path) ≤ RouteTable.maxStackSegments)
    (methodCode : Nat)
    (path : Text) :
    (fromManifest analysis manifest).matchRoute methodCode path =
      .ok ((referenceMatch registeredPath manifest.routes methodCode path).map
        (matchedRoute analysis manifest.middlewares)) := by
  rw [matchRoute_eq]
  unfold referenceMatch
  cases Method.fromCode methodCode with
  | none => rfl
  | some method =>
      simp only [dynamicExactRoutes_fromManifest, radixTree_fromManifest]
      rw [dynamicExactRoutes_addRoutes, lastRoute_isExactAt dynamic]
      cases exact : (exactCandidates registeredPath manifest.routes method path).getLast? with
      | some route => rfl
      | none =>
          simp only [Option.map_none]
          have room : ∃ bound, ([] : List Text).length + bound ≤ RouteTable.maxStackSegments ∧
              PatternTree.CapturesLE bound
                ((addRoutes analysis manifest.middlewares manifest.routes).radixTree method) :=
            ⟨RouteTable.maxStackSegments, by simp,
              radixTree_capturesLE _ _ fun route member _ => few route member⟩
          rcases PatternTree.search_spec (radixTree_distinct _ _ _ _) room with
            ⟨pattern, spec, leads, found⟩ | ⟨none, missed⟩
          · rw [found, preferredRoutes_of_leads dynamic leads]
            have stored := leads.stored
            rw [lookup_radixTree, Option.map_eq_some_iff] at stored
            obtain ⟨route, last, rfl⟩ := stored
            have samePattern : patternOf route.path = pattern := by
              have selected := (of_lastRoute last).2
              simp only [isParamAt, Bool.and_eq_true, decide_eq_true_eq] at selected
              exact selected.2
            unfold lastRoute at last
            rw [last, ← samePattern]
            rfl
          · rw [missed, paramCandidates_of_noneFits dynamic none]
            rfl

theorem paramName_eq_none
    {segment : Text}
    (notParam : segment.head? ≠ some ':') :
    paramName segment = none := by
  unfold paramName
  split
  · exact absurd rfl notParam
  · rfl

theorem length_filterMap_paramName
    (segments : List Text) :
    (segments.filterMap paramName).length =
      captureCount (segments.map fun segment =>
        if segment.head? = some ':' then .capture else .fixed segment) := by
  induction segments with
  | nil => rfl
  | cons segment segments hypothesis =>
      unfold captureCount at hypothesis ⊢
      by_cases isParam : segment.head? = some ':'
      · obtain ⟨name, rfl⟩ : ∃ name, segment = ':' :: name := by
          cases segment with
          | nil => cases isParam
          | cons char name =>
              cases isParam
              exact ⟨name, rfl⟩
        rw [List.map_cons, if_pos isParam, List.count_cons_self, ← hypothesis]
        rfl
      · rw [List.map_cons, if_neg isParam, List.count_cons_of_ne (by simp), ← hypothesis,
          List.filterMap_cons_none (paramName_eq_none isParam)]

/-- Below a leading slash both sides see the same segments. -/
theorem length_shapeParamNames
    {path : Text}
    (slash : path.head? = some '/') :
    (shapeParamNames path).length = captureCount (patternOf path) := by
  have segments : shapeSegments path = nonEmptySegments path := by
    cases path with
    | nil => cases slash
    | cons char rest =>
        cases slash
        unfold shapeSegments
        split
        · rename_i isRoot
          rw [isRoot, root, nonEmptySegments_cons_slash, nonEmptySegments_nil]
        · rw [nonEmptySegments_cons_slash]
          rfl
  unfold shapeParamNames
  rw [segments, patternOf, length_filterMap_paramName]

/-- What the reference answers with. -/
theorem of_referenceMatch
    {pathOf : RouteInput → Text} {routes : List RouteInput} {methodCode : Nat} {path : Text}
    {answer : RouteInput × List Text}
    (matched : referenceMatch pathOf routes methodCode path = some answer) :
    answer.1 ∈ routes ∧
      (answer.1.routeKind = routeKindExact ∧ answer.2 = [] ∨
        Fits (patternOf answer.1.path) (nonEmptySegments path) ∧
          answer.2 = capturesOf (patternOf answer.1.path) (nonEmptySegments path)) := by
  unfold referenceMatch at matched
  split at matched
  · cases matched
  · split at matched
    · rename_i route last
      cases matched
      obtain ⟨member, selected⟩ := List.mem_filter.mp (List.mem_of_getLast? last)
      exact ⟨member, .inl ⟨(of_decide_eq_true selected).2.1, rfl⟩⟩
    · obtain ⟨route, last, rfl⟩ := Option.map_eq_some_iff.mp matched
      obtain ⟨candidate, _⟩ := List.mem_filter.mp (List.mem_of_getLast? last)
      obtain ⟨member, selected⟩ := List.mem_filter.mp candidate
      exact ⟨member, .inr ⟨(of_decide_eq_true selected).2.2, rfl⟩⟩

/-- A match is that of the reference on the paths that the exact routes are
registered for. The captures are as many as the parameter names of a route whose
path starts with a slash. -/
theorem matchRoute_eq_referenceMatch
    {analysis : SourceAnalysis} {manifest : ManifestInput}
    (matchable : Matchable analysis manifest)
    (methodCode : Nat)
    (path : Text) :
    (fromManifest analysis manifest).matchRoute methodCode path =
      .ok ((referenceMatch registeredPath manifest.routes methodCode path).map
        (matchedRoute analysis manifest.middlewares)) ∧
    ∀ answer, referenceMatch registeredPath manifest.routes methodCode path = some answer →
      answer.1.path.head? = some '/' → answer.2.length = answer.1.paramNames.length := by
  constructor
  · refine matchRoute_of_captures matchable.dynamic ?_ methodCode path
    intro route member
    exact le_trans List.count_le_length (matchable.segments route member)
  · intro answer matched slash
    obtain ⟨member, shape⟩ := of_referenceMatch matched
    rw [matchable.paramNames _ member]
    rcases shape with ⟨isExact, none⟩ | ⟨fits, captured⟩
    · rw [matchable.routeKind _ member, shapeRouteKind] at isExact
      rw [none, List.length_nil]
      by_contra some
      rw [if_neg (Ne.symm some)] at isExact
      cases isExact
    · rw [captured, fits.length_capturesOf, length_shapeParamNames slash]

/-- A GET route as the compiler describes it. -/
def shapedRoute (path : Text) : RouteInput where
  method := text "GET"
  methodCode := 1
  path := path
  routeKind := shapeRouteKind path
  handlerId := 1
  handlerSource := text "(req, res) => res.json(read(req))"
  paramNames := shapeParamNames path
  headerKeys := []
  fullHeaders := false
  needsPath := false
  needsUrl := false
  needsQuery := false
  cache := none
  staticResponse := false
  maxBodyBytes := none

def shapedManifest (paths : List Text) : ManifestInput where
  version := 1
  tls := none
  middlewares := []
  routes := paths.map shapedRoute
  wsRoutes := []

/-- An analyzer that finds neither responses nor templates. -/
def nothingFound : SourceAnalysis where
  staticResponse := fun _ => false
  dynamicTemplate := fun _ => false

theorem shapedManifest_matchable
    {paths : List Text}
    (segments : ∀ path ∈ paths, (patternOf path).length ≤ RouteTable.maxStackSegments) :
    Matchable nothingFound (shapedManifest paths) where
  dynamic := by
    intro route member
    obtain ⟨path, _, rfl⟩ := List.mem_map.mp member
    simp [isPromoted, analyzeRoute, shapedRoute, nothingFound]
  segments := by
    intro route member
    obtain ⟨path, inPaths, rfl⟩ := List.mem_map.mp member
    exact segments path inPaths
  routeKind := by
    intro route member
    obtain ⟨path, _, rfl⟩ := List.mem_map.mp member
    rfl
  paramNames := by
    intro route member
    obtain ⟨path, _, rfl⟩ := List.mem_map.mp member
    rfl

/-- The users named in a path, and the route of new users. -/
theorem matchRoute_eq_referenceMatch_users :
    (fromManifest nothingFound (shapedManifest [text "/users/:id", text "/users/new"])).matchRoute
        1 (text "/users/7/") =
      .ok (some (matchedRoute nothingFound [] (shapedRoute (text "/users/:id"), [text "7"]))) := by
  have matchable :
      Matchable nothingFound (shapedManifest [text "/users/:id", text "/users/new"]) :=
    shapedManifest_matchable (by decide)
  rw [(matchRoute_eq_referenceMatch matchable 1 (text "/users/7/")).1]
  decide

/-- An exact route of a path that ends with a slash does not match its own path,
and a route without a leading slash has more captures than names. -/
theorem not_matchRoute_eq_referenceMatch :
    (¬ ∀ (analysis : SourceAnalysis) (manifest : ManifestInput),
      Matchable analysis manifest → ∀ (methodCode : Nat) (path : Text),
        (fromManifest analysis manifest).matchRoute methodCode path =
          .ok ((referenceMatch RouteInput.path manifest.routes methodCode path).map
            (matchedRoute analysis manifest.middlewares))) ∧
    ¬ ∀ (analysis : SourceAnalysis) (manifest : ManifestInput),
      Matchable analysis manifest → ∀ (methodCode : Nat) (path : Text) (route : MatchedRoute),
        (fromManifest analysis manifest).matchRoute methodCode path = .ok (some route) →
          route.paramValues.length = route.paramNames.length := by
  constructor
  · intro everywhere
    have matchable : Matchable nothingFound (shapedManifest [text "/a/"]) :=
      shapedManifest_matchable (by decide)
    exact absurd (everywhere _ _ matchable 1 (text "/a/")) (by decide)
  · intro everywhere
    have matchable : Matchable nothingFound (shapedManifest [text ":a/:b"]) :=
      shapedManifest_matchable (by decide)
    have matched :
        (fromManifest nothingFound (shapedManifest [text ":a/:b"])).matchRoute 1 (text "/x/y") =
          .ok (some (matchedRoute nothingFound []
            (shapedRoute (text ":a/:b"), [text "x", text "y"]))) := by
      decide
    exact absurd (everywhere _ _ matchable 1 (text "/x/y") _ matched) (by decide)

end Router
end HttpNative
