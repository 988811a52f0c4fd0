import HttpNative.Bridge.AccessAnalysis
import HttpNative.Router.JoinedPaths
import HttpNative.Router.RequestSelection
import HttpNative.Router.RouteMatching

/-!
# The manifest of an application

What the compiler writes down of each route, from what was registered. However an
application was configured, the paths in its manifest are normalised, and those of its
static routes have no parameters.
-/

namespace HttpNative
namespace Routing

variable {Handler : Type}

/-! ## Configured applications -/

/-- An application after any calls, those that threw left out. -/
inductive Configured : App Handler → Prop
  | created : Configured createApp
  | registered {app after : App Handler} {registration : Registration Handler} :
      Configured app → app.register registration = .ok after → Configured after

/-- A route as it may be registered. -/
structure WellPlaced (route : RegisteredRoute) : Prop where
  path : IsNormalised route.path
  exact : route.staticResponse = true → route.method = .get ∧ ':' ∉ route.path

/-- A path that was normalised for a route. -/
theorem isNormalised_of_normalizeRoutePath
    {method : Method} {path normalized : Text}
    (normalizes : normalizeRoutePath method path = .ok normalized) :
    IsNormalised normalized := by
  unfold normalizeRoutePath at normalizes
  split at normalizes
  · cases normalizes
    rw [normalizePathPrefix_eq]
    exact isNormalised_joinParts [path]
  · cases normalizes

def App.WellPlaced (app : App Handler) : Prop :=
  ∀ route ∈ app.routes, Routing.WellPlaced route

theorem App.WellPlaced.pushRoute
    {app : App Handler}
    (placed : app.WellPlaced)
    {method : Method} {path : Text} {staticResponse : Bool}
    (normalised : IsNormalised path)
    (exact_ : staticResponse = true → method = .get ∧ ':' ∉ path)
    (cache : Option Router.RouteCacheConfig) :
    (app.pushRoute method path cache staticResponse).WellPlaced := by
  intro route member
  rcases List.mem_append.mp member with old | new
  · exact placed route old
  · rw [List.mem_singleton] at new
    rw [new]
    exact ⟨normalised, exact_⟩

/-- `app.all` registers its path for one method after the other. -/
theorem App.WellPlaced.foldlM
    {path : Text} {cache : Option Router.RouteCacheConfig} {methods : List Method}
    {app after : App Handler}
    (placed : app.WellPlaced)
    (registers : methods.foldlM (fun current method => do
      let path ← normalizeRoutePath method path
      return current.pushRoute method path cache false) app = .ok after) :
    after.WellPlaced := by
  induction methods generalizing app with
  | nil =>
      cases registers
      exact placed
  | cons method methods hypothesis =>
      rw [List.foldlM_cons] at registers
      cases normalizes : normalizeRoutePath method path with
      | error message =>
          rw [normalizes] at registers
          cases registers
      | ok normalized =>
          rw [normalizes] at registers
          have pushed : (app.pushRoute method normalized cache false).WellPlaced :=
            placed.pushRoute (isNormalised_of_normalizeRoutePath normalizes)
              (fun isStatic => absurd isStatic Bool.false_ne_true) cache
          exact hypothesis pushed registers

theorem App.WellPlaced.register
    {app after : App Handler} {registration : Registration Handler}
    (placed : app.WellPlaced)
    (registers : app.register registration = .ok after) :
    after.WellPlaced := by
  cases registration with
  | use path handler =>
      cases registers
      exact placed
  | route method path cache => exact placed.foldlM registers
  | static path =>
      rw [App.register] at registers
      cases normalizes : normalizeRoutePath .get
          (applyGroupPrefixToRoutePath path app.groupPrefix) with
      | error message =>
          rw [normalizes] at registers
          cases registers
      | ok normalized =>
          rw [normalizes] at registers
          change (if ':' ∈ normalized then _ else _) = _ at registers
          split at registers
          · cases registers
          · rename_i noColon
            cases registers
            exact placed.pushRoute (isNormalised_of_normalizeRoutePath normalizes)
              (fun _ => ⟨rfl, noColon⟩) none
  | ws path =>
      rw [App.register] at registers
      cases normalizes : normalizeRoutePath .get path with
      | error message =>
          rw [normalizes] at registers
          cases registers
      | ok normalized =>
          rw [normalizes] at registers
          cases registers
          exact placed
  | enterGroup pathPrefix =>
      cases registers
      exact placed
  | leaveGroup =>
      cases registers
      exact placed

theorem Configured.wellPlaced
    {app : App Handler}
    (configured : Configured app) :
    app.WellPlaced := by
  induction configured with
  | created => exact fun route member => absurd member List.not_mem_nil
  | registered _ registers hypothesis => exact hypothesis.register registers

/-- An application compiled from a configured one. -/
def CompiledFrom
    (handlerSource : RegisteredRoute → Text)
    (compiled : CompiledApplication Handler) : Prop :=
  ∃ app, Configured app ∧ buildCompiledApplication app handlerSource = .ok compiled

theorem CompiledFrom.wellPlaced
    {handlerSource : RegisteredRoute → Text} {compiled : CompiledApplication Handler}
    (from_ : CompiledFrom handlerSource compiled)
    {route : CompiledRoute}
    (member : route ∈ compiled.routes) :
    WellPlaced route.toRegisteredRoute := by
  obtain ⟨app, configured, builds⟩ := from_
  unfold buildCompiledApplication at builds
  simp only at builds
  split at builds
  · cases builds
  · cases builds
    obtain ⟨registered, inRoutes, rfl⟩ := List.mem_map.mp member
    exact configured.wellPlaced registered inRoutes

/-! ## The manifest -/

/-- What is written of a route whose request plan is given. -/
def manifestRoute
    (requestPlan : Bridge.RequestAccessPlan)
    (route : CompiledRoute) : Router.RouteInput where
  method := route.method.name
  methodCode := route.method.code
  path := route.path
  routeKind := Router.shapeRouteKind route.path
  handlerId := route.handlerId
  handlerSource := route.handlerSource
  paramNames := Router.shapeParamNames route.path
  headerKeys := requestPlan.headerKeys
  fullHeaders := requestPlan.fullHeaders
  needsPath := requestPlan.path
  needsUrl := requestPlan.url
  needsQuery := requestPlan.fullQuery || !requestPlan.queryKeys.isEmpty
  cache := route.cache
  staticResponse := route.staticResponse
  maxBodyBytes := none

def buildManifest
    (requestPlan : CompiledRoute → Bridge.RequestAccessPlan)
    (tls : Option Router.TlsConfigInput)
    (wsRoutes : List (Text × Nat))
    (compiled : CompiledApplication Handler) : Router.ManifestInput where
  version := 1
  tls := tls
  middlewares := compiled.middlewares.map Middleware.pathPrefix
  routes := compiled.routes.map fun route => manifestRoute (requestPlan route) route
  wsRoutes := wsRoutes

end Routing
end HttpNative
