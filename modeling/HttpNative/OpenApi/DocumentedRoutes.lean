import HttpNative.Compile.BuiltManifest
import HttpNative.OpenApi.DocumentedPaths
import HttpNative.Router.PromotedRoutes

/-!
# The document and the router

Both are made from the routes of one application. What the document describes is
routed, and what is routed is described, with the names and the values that the handler
is called with.
-/

namespace HttpNative
namespace OpenApi

open Router
open Routing
open TextTemplate

/-! ## Described requests -/

section Described

variable {Given : Type}

/-- A request of the method and the path is one of the operation, with these values at
its path parameters. -/
structure Describes
    (paths : Paths Given)
    (method : Method)
    (path : Text)
    (operation : Operation Given)
    (values : List Text) : Prop where
  written : ∃ pathKey, operationAt paths pathKey (Text.asciiLower method.name) = some operation ∧
    expand (scan braced pathKey) values = some path
  values : ∀ value ∈ values, IsValue value

/-- The names of the path parameters, in order. -/
def Operation.pathNames (operation : Operation Given) : List JsString :=
  ((operation.parameters.getD []).filter (·.location = .path)).map Parameter.name

theorem asciiLower_name_inj
    {method other : Method}
    (same : Text.asciiLower method.name = Text.asciiLower other.name) :
    method = other := by
  revert same
  cases method <;> cases other <;> decide

theorem getD_extractPathParams
    (path : Text) :
    (extractPathParams path : Option (List (Parameter Given))).getD [] =
      (names (pathParts path)).map pathParameter := by
  unfold extractPathParams
  simp only
  split
  · rename_i none
    exact (List.isEmpty_iff.mp none).symm
  · rfl

/-- The path parameters of an operation are the names in its route's path. -/
theorem pathNames_operationOf
    {Refinement : Type}
    (zod : ZodLibrary Refinement)
    (route : RouteEntry Refinement Given) :
    (operationOf zod route).pathNames = (names (pathParts route.path)).map JsString.ofText := by
  have inPath : ((names (pathParts route.path)).map pathParameter).filter
      (fun parameter : Parameter Given => parameter.location = .path) =
        (names (pathParts route.path)).map pathParameter := by
    rw [List.filter_eq_self]
    intro parameter member
    obtain ⟨name, _, rfl⟩ := List.mem_map.mp member
    rfl
  have own : ((operationOf zod route).parameters.getD []).filter (·.location = .path) =
      (names (pathParts route.path)).map pathParameter := by
    unfold operationOf
    simp only
    cases route.querySchema with
    | none => rw [getD_extractPathParams, inPath]
    | some schema =>
        have inQuery : (extractQueryParams zod schema).filter (·.location = .path) = [] := by
          rw [List.filter_eq_nil_iff]
          intro parameter member
          obtain ⟨field, _, rfl⟩ := List.mem_map.mp member
          exact Bool.false_ne_true
        rw [Option.getD_some, getD_extractPathParams, List.filter_append, inPath, inQuery,
          List.append_nil]
  rw [Operation.pathNames, own, List.map_map]
  rfl

end Described

theorem normalizePath_of_isNormalised
    {path : Text}
    (normalised : IsNormalised path) :
    normalizePath path = path := by
  unfold normalizePath normalizePathPrefix
  split
  · rename_i isRoot
    exact isRoot.symm
  · rename_i notRoot
    have trimmed : path.rdropWhile (· = '/') = path := by
      rw [List.rdropWhile_eq_self_iff]
      intro filled last
      refine normalised.ends.resolve_left notRoot ?_
      rw [List.getLast?_eq_some_getLast filled]
      exact congrArg some (of_decide_eq_true last)
    simp only [trimmed]
    exact if_pos normalised.starts

theorem method_of_fromBytes
    {bytes : Octets} {method : Method}
    (named : Method.fromBytes bytes = some method) :
    bytes = Utf8.encode method.name := by
  unfold Method.fromBytes at named
  have found := List.find?_some named
  exact (of_decide_eq_true found).symm

/-! ## Deployed applications -/

/-- An application whose routes can be documented and matched. -/
structure Deployable {Handler : Type} (compiled : CompiledApplication Handler) : Prop where
  segments : ∀ route ∈ compiled.routes, ∀ segment ∈ route.path.splitOn '/',
    PlainSegment segment
  few : ∀ route ∈ compiled.routes,
    captureCount (patternOf route.path) ≤ RouteTable.maxStackSegments

section Deployed

variable {Handler Refinement Given : Type}
  {handlerSource : RegisteredRoute → Text} {compiled : CompiledApplication Handler}
  (analysis : SourceAnalysis)
  (requestPlan : CompiledRoute → Bridge.RequestAccessPlan)
  (tls : Option TlsConfigInput)
  (wsRoutes : List (Text × Nat))
  (zod : ZodLibrary Refinement)
  (metaOf : CompiledRoute → Option (RouteMeta Refinement Given))

/-- The routes as a document is generated from. -/
def routeEntry (route : CompiledRoute) : RouteEntry Refinement Given where
  method := route.method.name
  path := route.path
  meta? := metaOf route

/-- The document of an application. -/
def documentOf (compiled : CompiledApplication Handler) : Paths Given :=
  generateSpec zod (compiled.routes.map (routeEntry metaOf))

/-- The router of an application. -/
def routerOf (compiled : CompiledApplication Handler) : Router :=
  fromManifest analysis (buildManifest requestPlan tls wsRoutes compiled)

theorem documentable_of_mem
    (from_ : CompiledFrom handlerSource compiled)
    (deployable : Deployable compiled)
    {route : CompiledRoute}
    (member : route ∈ compiled.routes) :
    Documentable route.path where
  starts := (from_.wellPlaced member).path.starts
  segments := deployable.segments route member

theorem few_buildManifest
    (deployable : Deployable compiled) :
    FewParameters analysis (buildManifest requestPlan tls wsRoutes compiled) := by
  intro input member method _
  obtain ⟨route, inRoutes, rfl⟩ := List.mem_map.mp member
  exact deployable.few route inRoutes

/-- A documented operation comes from a route of its path and method. -/
theorem exists_route_of_operationAt
    {pathKey : Text} {method : Method} {operation : Operation Given}
    (found : operationAt (documentOf zod metaOf compiled) pathKey
      (Text.asciiLower method.name) = some operation) :
    ∃ route ∈ compiled.routes, toOpenApiPath route.path = pathKey ∧ route.method = method ∧
      operation = operationOf zod (routeEntry metaOf route) := by
  rw [documentOf, operationAt_generateSpec] at found
  obtain ⟨entry, last, rfl⟩ := Option.map_eq_some_iff.mp found
  obtain ⟨inEntries, isAt⟩ := List.mem_filter.mp (List.mem_of_getLast? last)
  obtain ⟨route, member, rfl⟩ := List.mem_map.mp inEntries
  simp only [RouteEntry.isAt, Bool.and_eq_true, decide_eq_true_eq] at isAt
  exact ⟨route, member, isAt.1, asciiLower_name_inj isAt.2, rfl⟩

/-- A route is documented, by its own operation or a later one in its place, with the
names that the router knows. -/
theorem exists_operationAt
    (from_ : CompiledFrom handlerSource compiled)
    (deployable : Deployable compiled)
    {route : CompiledRoute}
    (member : route ∈ compiled.routes) :
    ∃ operation, operationAt (documentOf zod metaOf compiled) (toOpenApiPath route.path)
        (Text.asciiLower route.method.name) = some operation ∧
      operation.pathNames = (shapeParamNames route.path).map JsString.ofText := by
  have inEntries : routeEntry metaOf route ∈ compiled.routes.map (routeEntry metaOf) :=
    List.mem_map_of_mem member
  obtain ⟨operation, found⟩ : ∃ operation, operationAt (documentOf zod metaOf compiled)
      (toOpenApiPath route.path) (Text.asciiLower route.method.name) = some operation :=
    exists_operationAt_generateSpec zod inEntries
  refine ⟨operation, found, ?_⟩
  obtain ⟨other, inRoutes, samePath, _, same⟩ :=
    exists_route_of_operationAt zod metaOf found
  have parts : pathParts other.path = pathParts route.path := by
    rw [← (documentable_of_mem from_ deployable inRoutes).scan_toOpenApiPath, samePath,
      (documentable_of_mem from_ deployable member).scan_toOpenApiPath]
  rw [same, pathNames_operationOf, ← (documentable_of_mem from_ deployable member).names_pathParts,
    ← parts]
  rfl

theorem mem_buildManifest
    {route : CompiledRoute}
    (member : route ∈ compiled.routes) :
    manifestRoute (requestPlan route) route ∈
      (buildManifest requestPlan tls wsRoutes compiled).routes :=
  List.mem_map.mpr ⟨route, member, rfl⟩

/-- Only a GET route without a colon gets its response ahead of its requests. -/
theorem of_isPromoted
    (from_ : CompiledFrom handlerSource compiled)
    {route : CompiledRoute}
    (member : route ∈ compiled.routes)
    {middlewares : List Text}
    (promoted : isPromoted analysis middlewares (manifestRoute (requestPlan route) route) = true) :
    route.method = .get ∧ ':' ∉ route.path := by
  rcases (Bool.or_eq_true _ _).mp promoted with isStatic | analyzed
  · exact (from_.wellPlaced member).exact isStatic
  · simp only [Router.analyzeRoute, Bool.and_eq_true, Bool.not_eq_true', decide_eq_true_eq]
      at analyzed
    refine ⟨?_, ?_⟩
    · have isGet : route.method.name = text "GET" := analyzed.1.1.1
      revert isGet
      cases route.method <;> decide
    · have noColon : route.path.contains ':' = false := analyzed.1.1.2
      simpa using noColon

/-- A path that a template is filled to is taken by the template's route. -/
theorem takes_of_expand
    {path : Text}
    (documentable : Documentable path)
    (normalised : IsNormalised path)
    {filled : Text} {values : List Text}
    (proper : ∀ value ∈ values, IsValue value)
    (expanded : expand (pathParts path) values = some filled)
    {route : RouteInput}
    (path_eq : route.path = path)
    (routeKind : route.routeKind = shapeRouteKind path) :
    ∃ captured, Takes route (normalizeRuntimePath filled) captured := by
  by_cases isExact : shapeRouteKind path = routeKindExact
  · obtain ⟨_, rfl⟩ :=
      (expand_pathParts_of_noColon (documentable.noColon isExact)).mp expanded
    refine ⟨[], .exact (routeKind.trans isExact) ?_⟩
    rw [path_eq, ← normalizeRuntimePath_normalizePath, normalizePath_of_isNormalised normalised]
  · have isParam : route.routeKind = routeKindParam := by
      rw [routeKind]
      unfold shapeRouteKind at isExact ⊢
      split
      · rename_i none
        rw [if_pos none] at isExact
        exact absurd rfl isExact
      · rfl
    refine ⟨_, .param isParam ?_⟩
    rw [path_eq, nonEmptySegments_normalizeRuntimePath]
    exact (documentable.fits_of_expand proper expanded).1

/-- A described request is routed, unless its path climbs. -/
theorem selectTarget_of_describes
    (from_ : CompiledFrom handlerSource compiled)
    (deployable : Deployable compiled)
    {parsed : Parser.ParsedRequest}
    (plain : parsed.isWebsocketUpgrade = false)
    {method : Method} {path : Text} {operation : Operation Given} {values : List Text}
    (named : Method.fromBytes parsed.method = some method)
    (asked : parsed.path = Utf8.encode path)
    (noBody : method = .get → parsed.hasBody = false)
    (stays : containsPathTraversal (normalizeRuntimePath path) = false)
    (describes : Describes (documentOf zod metaOf compiled) method path operation values) :
    ∃ target, (routerOf analysis requestPlan tls wsRoutes compiled).selectTarget parsed =
      .ok target ∧ target ≠ .notFound := by
  obtain ⟨⟨pathKey, found, expanded⟩, proper⟩ := describes
  obtain ⟨route, member, rfl, rfl, rfl⟩ := exists_route_of_operationAt zod metaOf found
  have documentable := documentable_of_mem from_ deployable member
  rw [documentable.scan_toOpenApiPath] at expanded
  have inRoutes := mem_buildManifest requestPlan tls wsRoutes member
  have normalised := (from_.wellPlaced member).path
  cases promoted : isPromoted analysis (buildManifest requestPlan tls wsRoutes compiled).middlewares
      (manifestRoute (requestPlan route) route) with
  | true =>
      obtain ⟨isGet, noColon⟩ := of_isPromoted analysis requestPlan from_ member promoted
      obtain ⟨_, rfl⟩ := (expand_pathParts_of_noColon noColon).mp expanded
      have ofText : Method.fromText route.method.name = some .get := by
        rw [isGet]
        decide
      have method_eq : parsed.method = octets "GET" := by
        rw [method_of_fromBytes named, isGet]
        decide
      have path_eq : parsed.path = Utf8.encode (normalizePath route.path) := by
        rw [asked, normalizePath_of_isNormalised normalised]
      obtain ⟨target, selected⟩ :=
        selectTarget_of_static inRoutes promoted ofText method_eq (noBody isGet) path_eq
      exact ⟨_, selected, by simp⟩
  | false =>
      have same_path : (manifestRoute (requestPlan route) route).path = route.path := rfl
      obtain ⟨captured, takes⟩ :=
        takes_of_expand documentable normalised proper expanded same_path rfl
      have path_eq : normalizeRuntimePath (Utf8.decodeLossy parsed.path) =
          normalizeRuntimePath path := by
        rw [asked, Utf8.decodeLossy_encode]
      exact selectTarget_of_takes (few_buildManifest analysis requestPlan tls wsRoutes deployable)
        plain inRoutes promoted (Method.fromCode_code _) named path_eq stays takes

/-- A request that a handler gets is described, with the names and the values that the
handler gets; the path may have more slashes than the one described. -/
theorem describes_of_handler
    (from_ : CompiledFrom handlerSource compiled)
    (deployable : Deployable compiled)
    {parsed : Parser.ParsedRequest}
    (plain : parsed.isWebsocketUpgrade = false)
    {matched : MatchedRoute}
    (selected : (routerOf analysis requestPlan tls wsRoutes compiled).selectTarget parsed =
      .ok (.handler matched)) :
    ∃ method operation path, Method.fromBytes parsed.method = some method ∧
      Describes (documentOf zod metaOf compiled) method path operation matched.paramValues ∧
      operation.pathNames = matched.paramNames.map JsString.ofText ∧
      nonEmptySegments path = nonEmptySegments (Utf8.decodeLossy parsed.path) := by
  obtain ⟨method, named, input, inRoutes, ofMethod, compiledTo, takes⟩ :=
    of_selectTarget_handler (few_buildManifest analysis requestPlan tls wsRoutes deployable)
      plain selected
  obtain ⟨route, member, rfl⟩ := List.mem_map.mp inRoutes
  have documentable := documentable_of_mem from_ deployable member
  have normalised := (from_.wellPlaced member).path
  obtain ⟨operation, found, pathNames⟩ := exists_operationAt zod metaOf from_ deployable member
  have names_eq : matched.paramNames = shapeParamNames route.path :=
    congrArg DynamicRouteSpec.paramNames compiledTo
  have method_eq : route.method = method := by
    have coded : Method.fromCode route.method.code = some method := ofMethod
    rw [Method.fromCode_code] at coded
    exact Option.some.inj coded
  subst method_eq
  have filled : ∃ path, expand (pathParts route.path) matched.paramValues = some path ∧
      nonEmptySegments path = nonEmptySegments (Utf8.decodeLossy parsed.path) ∧
      ∀ value ∈ matched.paramValues, IsValue value := by
    rw [← nonEmptySegments_normalizeRuntimePath (Utf8.decodeLossy parsed.path)]
    generalize matched.paramValues = values at takes
    cases takes with
    | exact isExact same =>
        have noColon := documentable.noColon isExact
        refine ⟨route.path, (expand_pathParts_of_noColon noColon).mpr ⟨rfl, rfl⟩, ?_, by simp⟩
        rw [← same]
        exact (nonEmptySegments_normalizePath route.path).symm
    | param _ fits =>
        obtain ⟨path, expanded, segments⟩ := documentable.exists_expand fits
        refine ⟨path, expanded, segments, fun value inCaptures => ?_⟩
        exact of_mem_nonEmptySegments (mem_of_mem_capturesOf inCaptures)
  obtain ⟨path, expanded, segments, proper⟩ := filled
  refine ⟨route.method, operation, path, named, ⟨⟨_, found, ?_⟩, proper⟩, ?_, segments⟩
  · rw [documentable.scan_toOpenApiPath, expanded]
  · rw [pathNames, names_eq]

/-- A request that gets a static response is described by its own path. -/
theorem describes_of_static
    (from_ : CompiledFrom handlerSource compiled)
    (deployable : Deployable compiled)
    {parsed : Parser.ParsedRequest}
    (plain : parsed.isWebsocketUpgrade = false)
    {input : RouteInput}
    (selected : (routerOf analysis requestPlan tls wsRoutes compiled).selectTarget parsed =
      .ok (.staticResponse input)) :
    ∃ operation path, Method.fromBytes parsed.method = some .get ∧
      Describes (documentOf zod metaOf compiled) .get path operation [] ∧
      parsed.path = Utf8.encode path := by
  obtain ⟨inRoutes, promoted, isGet, _, path_eq⟩ := of_selectTarget_static plain selected
  obtain ⟨route, member, rfl⟩ := List.mem_map.mp inRoutes
  have documentable := documentable_of_mem from_ deployable member
  obtain ⟨method_eq, noColon⟩ := of_isPromoted analysis requestPlan from_ member promoted
  obtain ⟨operation, found, _⟩ := exists_operationAt zod metaOf from_ deployable member
  refine ⟨operation, route.path, ?_, ⟨⟨toOpenApiPath route.path, ?_, ?_⟩, by simp⟩, ?_⟩
  · rw [isGet]
    decide
  · rw [← method_eq]
    exact found
  · rw [documentable.scan_toOpenApiPath, expand_pathParts_of_noColon noColon]
    exact ⟨rfl, rfl⟩
  · rw [path_eq]
    exact congrArg Utf8.encode (normalizePath_of_isNormalised (from_.wellPlaced member).path)

end Deployed

/-! ## The users named in a path -/

/-- A GET request without a body. -/
def plainGet (path : Text) : Parser.ParsedRequest where
  method := octets "GET"
  target := Utf8.encode path
  path := Utf8.encode path
  keepAlive := true
  headerBytes := 0
  hasBody := false
  contentLength := none
  hasChunkedTe := false
  headers := []
  cookieHeader := none
  isWebsocketUpgrade := false
  wsKey := none
  acceptedEncoding := .identity

def memberApp : App Unit :=
  createApp.pushRoute .get (text "/users/:id") none false

def memberRoute : CompiledRoute where
  method := .get
  path := text "/users/:id"
  handlerId := 1
  cache := none
  staticResponse := false
  handlerSource := []

theorem memberRoutes_distinct : ([memberRoute].map fun route => route.handlerId).Nodup :=
  List.nodup_singleton _

theorem memberRoutes_alone :
    ∀ route ∈ [memberRoute], route.staticResponse = true →
      applicableMiddlewares ([] : List (Middleware Unit)) route = [] :=
  fun _ _ _ => rfl

def members : CompiledApplication Unit where
  middlewares := []
  routes := [memberRoute]
  distinct := memberRoutes_distinct
  staticAlone := memberRoutes_alone

theorem members_compiledFrom : CompiledFrom (fun _ => []) members := by
  refine ⟨memberApp, ?_, rfl⟩
  have registers : (createApp : App Unit).register (.route (some .get) (text "/users/:id") none) =
      .ok memberApp := rfl
  exact .registered .created registers

theorem members_deployable : Deployable members where
  segments := by decide
  few := by decide

end OpenApi
end HttpNative
