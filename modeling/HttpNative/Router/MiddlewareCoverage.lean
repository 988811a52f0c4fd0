import HttpNative.Router.RouteTable

/-!
# Which middlewares run for a request

The middlewares of a route are chosen by its pattern. For literal prefixes that
is the choice by the request path exactly as long as no prefix leaves what the
pattern's literal start and the request path have in common.
-/

namespace HttpNative
namespace Routing

variable {Handler : Type} {analysis : SourceAnalysis}

/-! ## What the table holds -/

/-- No middleware applies to the pattern of the route. -/
def Uncovered (middlewares : List (Middleware Handler)) (route : CompiledRoute) : Prop :=
  ∀ middleware ∈ middlewares, pathPrefixMatches middleware.pathPrefix route.path = false

theorem uncovered_of_not_hasApplicableMiddleware
    {middlewares : List (Middleware Handler)} {route : CompiledRoute}
    (none : hasApplicableMiddleware route.path middlewares = false) :
    Uncovered middlewares route := by
  intro middleware member
  simpa using List.any_eq_false.mp none middleware member

/-- A route whose responses may be built ahead of its requests. -/
def Static (app : CompiledApplication Handler) (route : CompiledRoute) : Prop :=
  route ∈ app.routes ∧ Uncovered app.middlewares route

/-- A specification compiled from a route of the application. -/
def Compiled
    (analysis : SourceAnalysis)
    (app : CompiledApplication Handler)
    (spec : DynamicRouteSpec) : Prop :=
  ∃ route ∈ app.routes, spec = compileDynamicRouteSpec analysis app.middlewares route

/-- Everything in the table comes from a route of the application. -/
structure RouteTable.Sound
    (analysis : SourceAnalysis)
    (app : CompiledApplication Handler)
    (table : RouteTable) : Prop where
  getRoot : ∀ route, table.exactGetRoot = some route → Static app route
  exactStatic : ∀ key route, table.exactStaticRoutes.get key = some route → Static app route
  dynamicExact : ∀ key spec, table.dynamicExactRoutes.get key = some spec →
    Compiled analysis app spec
  radix : ∀ method tree, table.radixTrees.get method = some tree →
    ∀ pattern spec, PatternTree.Stored pattern tree spec → Compiled analysis app spec

theorem RouteTable.sound_empty
    (app : CompiledApplication Handler) :
    RouteTable.empty.Sound analysis app where
  getRoot := by simp [RouteTable.empty]
  exactStatic := by simp [RouteTable.empty]
  dynamicExact := by simp [RouteTable.empty]
  radix := by simp [RouteTable.empty]

theorem RouteTable.Sound.addExactStatic
    {app : CompiledApplication Handler} {table : RouteTable} {route : CompiledRoute}
    (sound : table.Sound analysis app)
    (isStatic : Static app route) :
    (table.addExactStatic route).Sound analysis app := by
  unfold RouteTable.addExactStatic
  simp only
  split
  · exact {
      getRoot := by
        intro other same
        cases same
        exact isStatic
      exactStatic := sound.exactStatic
      dynamicExact := sound.dynamicExact
      radix := sound.radix }
  · exact {
      getRoot := sound.getRoot
      exactStatic := by
        intro key other found
        rw [Dictionary.get_set] at found
        split at found
        · cases found
          exact isStatic
        · exact sound.exactStatic key other found
      dynamicExact := sound.dynamicExact
      radix := sound.radix }

theorem RouteTable.Sound.addDynamic
    {app : CompiledApplication Handler} {table : RouteTable} {route : CompiledRoute}
    (sound : table.Sound analysis app)
    (member : route ∈ app.routes) :
    (table.addDynamic analysis app.middlewares route).Sound analysis app := by
  unfold RouteTable.addDynamic
  simp only
  split
  · exact {
      getRoot := sound.getRoot
      exactStatic := sound.exactStatic
      dynamicExact := sound.dynamicExact
      radix := by
        intro method tree found pattern spec stored
        rw [Dictionary.get_set] at found
        split at found
        · cases found
          rcases PatternTree.stored_of_insert stored with ⟨_, rfl⟩ | before
          · exact ⟨route, member, rfl⟩
          · cases old : table.radixTrees.get route.method with
            | none =>
                rw [old] at before
                exact absurd before (PatternTree.not_stored_empty _ _)
            | some oldTree =>
                rw [old] at before
                exact sound.radix _ _ old pattern spec before
        · exact sound.radix _ _ found pattern spec stored }
  · exact {
      getRoot := sound.getRoot
      exactStatic := sound.exactStatic
      dynamicExact := by
        intro key spec found
        rw [Dictionary.get_set] at found
        split at found
        · cases found
          exact ⟨route, member, rfl⟩
        · exact sound.dynamicExact key spec found
      radix := sound.radix }

theorem RouteTable.Sound.addRoute
    {app : CompiledApplication Handler} {table : RouteTable} {route : CompiledRoute}
    (sound : table.Sound analysis app)
    (member : route ∈ app.routes) :
    (table.addRoute analysis app.middlewares route).Sound analysis app := by
  unfold RouteTable.addRoute
  split
  · rename_i isStatic
    apply sound.addExactStatic
    refine ⟨member, ?_⟩
    intro middleware registered
    have alone := List.filter_eq_nil_iff.mp (app.staticAlone route member isStatic) middleware registered
    simpa using alone
  · split
    · rename_i analyzed
      apply sound.addExactStatic
      refine ⟨member, uncovered_of_not_hasApplicableMiddleware ?_⟩
      simp only [analyzeRoute, Bool.and_eq_true, Bool.not_eq_true'] at analyzed
      exact analyzed.1.2
    · exact sound.addDynamic member

theorem RouteTable.sound_fromManifest
    (app : CompiledApplication Handler) :
    (RouteTable.fromManifest analysis app).Sound analysis app := by
  have adds : ∀ (routes : List CompiledRoute) (table : RouteTable),
      (∀ route ∈ routes, route ∈ app.routes) → table.Sound analysis app →
      (routes.foldl (RouteTable.addRoute analysis app.middlewares) table).Sound analysis app := by
    intro routes
    induction routes with
    | nil =>
        intro table _ sound
        exact sound
    | cons route rest hypothesis =>
        intro table members sound
        apply hypothesis
        · intro other member
          exact members other (List.mem_cons_of_mem _ member)
        · exact sound.addRoute (members route List.mem_cons_self)
  exact adds app.routes .empty (fun _ member => member) (RouteTable.sound_empty app)

/-! ## What answers a request -/

theorem RouteTable.Sound.compiled_of_matchRoute
    {app : CompiledApplication Handler} {table : RouteTable} {method : Method} {path : Text}
    {spec : DynamicRouteSpec}
    (sound : table.Sound analysis app)
    (matched : table.matchRoute method path = some spec) :
    Compiled analysis app spec := by
  unfold RouteTable.matchRoute at matched
  split at matched
  · rename_i exact_
    cases matched
    exact sound.dynamicExact _ _ exact_
  · split at matched
    · cases matched
    · rename_i tree found
      split at matched
      · rename_i searched
        cases matched
        obtain ⟨pattern, _, stored⟩ := PatternTree.stored_of_search searched
        exact sound.radix _ _ found pattern spec stored
      · cases matched
      · cases matched

/-- The kind of an answer and the route it is given for. -/
inductive AnsweredBy
    (app : CompiledApplication Handler)
    (request : Request)
    (stored : StoredResponses) :
    AnswerKind → CompiledRoute → Prop
  | exactStatic {route : CompiledRoute} :
      Uncovered app.middlewares route → AnsweredBy app request stored .exactStatic route
  | cachedResponse {route : CompiledRoute} :
      replays request route.cache stored = true →
      AnsweredBy app request stored .cachedResponse route
  | specializedResponse {route : CompiledRoute} :
      replays request route.cache stored = false →
      Uncovered app.middlewares route →
      AnsweredBy app request stored .specializedResponse route
  | bridgeRequest {route : CompiledRoute} :
      replays request route.cache stored = false →
      AnsweredBy app request stored .bridgeRequest route

theorem RouteTable.Sound.answeredBy_of_dispatchDecision
    {app : CompiledApplication Handler} {table : RouteTable} {request : Request}
    {stored : StoredResponses} {kind : AnswerKind} {handlerId : Nat}
    (sound : table.Sound analysis app)
    (decided : table.dispatchDecision request stored = some (kind, handlerId)) :
    ∃ route ∈ app.routes, route.handlerId = handlerId ∧
      AnsweredBy app request stored kind route := by
  unfold RouteTable.dispatchDecision at decided
  simp only at decided
  split at decided
  · cases decided
  · split at decided
    · cases decided
    · rename_i spec matched
      obtain ⟨method, _, matchedMethod⟩ := Option.bind_eq_some_iff.mp matched
      obtain ⟨route, member, rfl⟩ := sound.compiled_of_matchRoute matchedMethod
      refine ⟨route, member, ?_⟩
      split at decided
      · rename_i replayed
        cases decided
        exact ⟨rfl, .cachedResponse replayed⟩
      · rename_i notReplayed
        have notReplayed := Bool.eq_false_iff.mpr notReplayed
        split at decided
        · rename_i fast
          cases decided
          refine ⟨rfl, .specializedResponse notReplayed ?_⟩
          apply uncovered_of_not_hasApplicableMiddleware
          simp only [compileDynamicRouteSpec, analyzeDynamicFastPath, Bool.and_eq_true,
            Bool.not_eq_true'] at fast
          exact fast.2.1
        · cases decided
          exact ⟨rfl, .bridgeRequest notReplayed⟩

theorem RouteTable.Sound.answeredBy_of_serve
    {app : CompiledApplication Handler} {table : RouteTable} {request : Request}
    {stored : StoredResponses} {kind : AnswerKind} {handlerId : Nat}
    (sound : table.Sound analysis app)
    (served : table.serve request stored = some (kind, handlerId)) :
    ∃ route ∈ app.routes, route.handlerId = handlerId ∧
      AnsweredBy app request stored kind route := by
  unfold RouteTable.serve at served
  split at served
  · split at served
    · rename_i route found
      cases served
      have isStatic : Static app route := by
        unfold RouteTable.exactStaticRoute at found
        split at found
        · exact sound.getRoot route found
        · exact sound.exactStatic _ route found
      exact ⟨route, isStatic.1, rfl, .exactStatic isStatic.2⟩
    · exact sound.answeredBy_of_dispatchDecision served
  · exact sound.answeredBy_of_dispatchDecision served

/-! ## The middlewares that run -/

/-- The request is answered for this route, in this way. -/
def RoutedTo
    (analysis : SourceAnalysis)
    (app : CompiledApplication Handler)
    (request : Request)
    (stored : StoredResponses)
    (kind : AnswerKind)
    (route : CompiledRoute) : Prop :=
  (RouteTable.fromManifest analysis app).serve request stored = some (kind, route.handlerId) ∧
    app.routesById route.handlerId = some route

/-- Only a request that reaches the dispatcher runs the middlewares of its
route. -/
def middlewaresRun
    (app : CompiledApplication Handler)
    (kind : AnswerKind)
    (route : CompiledRoute) : List (Middleware Handler) :=
  if kind = .bridgeRequest then applicableMiddlewares app.middlewares route else []

def Middleware.isLiteral (middleware : Middleware Handler) : Bool :=
  !hasParameter middleware.pathPrefix

/-- The literal middlewares whose prefix the request path falls under. -/
def coveringMiddlewares
    (app : CompiledApplication Handler)
    (request : Request) : List (Middleware Handler) :=
  app.middlewares.filter fun middleware =>
    middleware.isLiteral && pathPrefixMatches middleware.pathPrefix request.pathText

/-- Of the middlewares with literal prefixes exactly those run that cover the
request path, and no native path answers a request that one covers. -/
structure RunsCovering
    (app : CompiledApplication Handler)
    (request : Request)
    (kind : AnswerKind)
    (route : CompiledRoute) : Prop where
  run : (middlewaresRun app kind route).filter Middleware.isLiteral =
    coveringMiddlewares app request
  native : kind ≠ .bridgeRequest → coveringMiddlewares app request = []

/-- The condition: no middleware covers a request that is replayed from a
cache; for any other request every literal prefix but the root stays within
what the pattern and the request path share. -/
def PrefixesShared
    (app : CompiledApplication Handler)
    (request : Request)
    (stored : StoredResponses)
    (route : CompiledRoute) : Prop :=
  if replays request route.cache stored then
    coveringMiddlewares app request = []
  else
    ∀ middleware ∈ app.middlewares, middleware.isLiteral = true →
      middleware.pathPrefix = root ∨
        StaysShared middleware.pathPrefix route.path request.pathText

/-- Two filters keep the same entries when they agree on every entry. -/
theorem filter_eq_filter_iff
    {Entry : Type} {left right : Entry → Bool} {entries : List Entry} :
    entries.filter left = entries.filter right ↔ ∀ entry ∈ entries, left entry = right entry := by
  constructor
  · intro same entry member
    have kept : entry ∈ entries.filter left ↔ entry ∈ entries.filter right := by rw [same]
    simp only [List.mem_filter, member, true_and] at kept
    exact Bool.eq_iff_iff.mpr kept
  · exact List.filter_congr

/-- Prefixes are shared when pattern and request path fall under the same
literal prefixes. -/
theorem shared_iff_agree
    (app : CompiledApplication Handler)
    (request : Request)
    (route : CompiledRoute) :
    (∀ middleware ∈ app.middlewares, middleware.isLiteral = true →
        middleware.pathPrefix = root ∨
          StaysShared middleware.pathPrefix route.path request.pathText) ↔
      (applicableMiddlewares app.middlewares route).filter Middleware.isLiteral =
        coveringMiddlewares app request := by
  rw [applicableMiddlewares, coveringMiddlewares, List.filter_filter, filter_eq_filter_iff]
  apply forall_congr'
  intro middleware
  apply imp_congr_right
  intro _
  cases literal : middleware.isLiteral with
  | false => simp
  | true =>
      simp only [Bool.true_and, true_implies]
      by_cases isRoot : middleware.pathPrefix = root
      · simp [isRoot, pathPrefixMatches_root]
      · rw [Middleware.isLiteral, Bool.not_eq_true'] at literal
        rw [staysShared_iff isRoot literal]
        simp [isRoot]

theorem applicableMiddlewares_of_uncovered
    {app : CompiledApplication Handler} {route : CompiledRoute}
    (uncovered : Uncovered app.middlewares route) :
    applicableMiddlewares app.middlewares route = [] := by
  apply List.filter_eq_nil_iff.mpr
  intro middleware member
  simp [uncovered middleware member]

/-- A native answer runs exactly the covering middlewares when there is none. -/
theorem runsCovering_of_native_iff
    {app : CompiledApplication Handler} {request : Request} {kind : AnswerKind}
    {route : CompiledRoute}
    (native : kind ≠ .bridgeRequest) :
    RunsCovering app request kind route ↔ coveringMiddlewares app request = [] := by
  constructor
  · intro runs
    exact runs.native native
  · intro none
    refine ⟨?_, fun _ => none⟩
    rw [middlewaresRun, if_neg native, none, List.filter_nil]

/-- The middlewares that run are those that cover the request path exactly when
the prefixes are shared. -/
theorem runsCovering_iff
    {app : CompiledApplication Handler} {request : Request} {stored : StoredResponses}
    {kind : AnswerKind} {route : CompiledRoute}
    (routed : RoutedTo analysis app request stored kind route) :
    RunsCovering app request kind route ↔ PrefixesShared app request stored route := by
  obtain ⟨served, byId⟩ := routed
  obtain ⟨answering, member, sameId, answered⟩ :=
    (RouteTable.sound_fromManifest app).answeredBy_of_serve served
  have same : answering = route := by
    have found := app.routesById_of_mem member
    rw [sameId, byId] at found
    exact (Option.some.inj found).symm
  subst same
  cases answered with
  | exactStatic uncovered =>
      rw [runsCovering_of_native_iff (by simp), PrefixesShared, shared_iff_agree,
        applicableMiddlewares_of_uncovered uncovered, List.filter_nil]
      split
      · rfl
      · exact eq_comm
  | cachedResponse replayed =>
      rw [runsCovering_of_native_iff (by simp), PrefixesShared, if_pos replayed]
  | specializedResponse notReplayed uncovered =>
      rw [runsCovering_of_native_iff (by simp), PrefixesShared, if_neg (by simp [notReplayed]),
        shared_iff_agree, applicableMiddlewares_of_uncovered uncovered, List.filter_nil]
      exact eq_comm
  | bridgeRequest notReplayed =>
      rw [PrefixesShared, if_neg (by simp [notReplayed]), shared_iff_agree]
      constructor
      · intro runs
        exact runs.run
      · intro agree
        exact ⟨agree, fun native => absurd rfl native⟩

/-! ## A parameter in the place of a protected segment -/

def userRoute : CompiledRoute where
  method := .get
  path := text "/users/:id"
  handlerId := 1
  cache := none
  staticResponse := false
  handlerSource := text "(req, res) => handle(req, res)"

/-- A middleware on `/users/admin` and a route `/users/:id`. -/
def protectedUsers : CompiledApplication Unit where
  middlewares := [⟨text "/users/admin", ()⟩]
  routes := [userRoute]
  distinct := by simp
  staticAlone := by simp [userRoute]

def noAnalysis : SourceAnalysis where
  staticResponse := fun _ => false
  dynamicTemplate := fun _ => false

def noStoredResponses : StoredResponses where
  route := false
  ncache := false

def getRequest (path : Text) : Request where
  method := some .get
  path := Utf8.encode path
  hasBody := false

theorem routedTo_protectedUsers :
    RoutedTo noAnalysis protectedUsers (getRequest (text "/users/admin")) noStoredResponses
      .bridgeRequest userRoute :=
  ⟨by decide, protectedUsers.routesById_of_mem List.mem_cons_self⟩

theorem runsCovering_iff_guest :
    RunsCovering protectedUsers (getRequest (text "/users/7")) .bridgeRequest userRoute ↔
      PrefixesShared protectedUsers (getRequest (text "/users/7")) noStoredResponses userRoute := by
  have routed : RoutedTo noAnalysis protectedUsers (getRequest (text "/users/7"))
      noStoredResponses .bridgeRequest userRoute :=
    ⟨by decide, protectedUsers.routesById_of_mem List.mem_cons_self⟩
  exact runsCovering_iff routed

/-- The middleware of the protected path does not run when the path is served
by the parameterised route. -/
theorem not_runsCovering_of_parameter :
    ¬ ∀ (analysis : SourceAnalysis) (app : CompiledApplication Unit) (request : Request)
      (stored : StoredResponses) (kind : AnswerKind) (route : CompiledRoute),
      RoutedTo analysis app request stored kind route → RunsCovering app request kind route := by
  intro everywhere
  have runs := everywhere noAnalysis protectedUsers (getRequest (text "/users/admin"))
    noStoredResponses .bridgeRequest userRoute routedTo_protectedUsers
  have covering : coveringMiddlewares protectedUsers (getRequest (text "/users/admin")) =
      [⟨text "/users/admin", ()⟩] := by
    rw [coveringMiddlewares, Request.pathText, getRequest, Utf8.decodeLossy_encode]
    decide
  have run := runs.run
  rw [covering] at run
  exact absurd run (by decide)

end Routing
end HttpNative
