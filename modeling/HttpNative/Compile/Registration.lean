import HttpNative.Compile.FastPathProbe
import HttpNative.Router.PathPrefixes
import HttpNative.Router.VaryKeys
import Mathlib.Data.List.Nodup

/-!
# Registering routes and middlewares

`app.use`, the method registrars, `app.static`, `app.ws` and `app.group` as
calls on an application, and the compiled application made of what they
registered. Every route has a handler id of its own.
-/

namespace HttpNative
namespace Routing

/-- `HTTP_METHODS`. -/
inductive Method where
  | get
  | post
  | put
  | delete
  | patch
  | options
  | head
deriving DecidableEq, Repr

namespace Method

def name : Method → Text
  | .get => text "GET"
  | .post => text "POST"
  | .put => text "PUT"
  | .delete => text "DELETE"
  | .patch => text "PATCH"
  | .options => text "OPTIONS"
  | .head => text "HEAD"

/-- The methods that `app.all` registers, in order. -/
def all : List Method :=
  [.get, .post, .put, .delete, .patch, .options, .head]

end Method

structure Middleware (Handler : Type) where
  pathPrefix : Text
  handler : Handler
deriving DecidableEq

structure RegisteredRoute where
  method : Method
  path : Text
  handlerId : Nat
  cache : Option Router.RouteCacheConfig
  staticResponse : Bool

/-- An application while it is configured. -/
structure App (Handler : Type) where
  routes : List RegisteredRoute
  middlewares : List (Middleware Handler)
  groupPrefix : Text
  /-- The prefixes of the enclosing groups. -/
  outerPrefixes : List Text
  nextHandlerId : Nat
  below : ∀ route ∈ routes, route.handlerId < nextHandlerId
  distinct : (routes.map RegisteredRoute.handlerId).Nodup

/-- One call on the application; entering and leaving the callback of
`app.group` are calls of their own. -/
inductive Registration (Handler : Type) where
  | use (path : Option Text) (handler : Handler)
  /-- A method registrar; no method stands for `app.all`. -/
  | route (method : Option Method) (path : Text) (cache : Option Router.RouteCacheConfig)
  | static (path : Text)
  | ws (path : Text)
  | enterGroup (pathPrefix : Text)
  | leaveGroup

variable {Handler : Type}

def createApp : App Handler where
  routes := []
  middlewares := []
  groupPrefix := root
  outerPrefixes := []
  nextHandlerId := 1
  below := by simp
  distinct := by simp

/-- An error is the message of the `TypeError` that is thrown. -/
def normalizeRoutePath (method : Method) (path : Text) : Except Text Text :=
  if path.head? = some '/' then
    .ok (normalizePathPrefix path)
  else
    .error (text "Route path for " ++ method.name ++ text " must start with \"/\"")

namespace App

/-- Push a route with a fresh handler id. -/
def pushRoute
    (app : App Handler)
    (method : Method)
    (path : Text)
    (cache : Option Router.RouteCacheConfig)
    (staticResponse : Bool) :
    App Handler where
  routes := app.routes ++
    [{
      method := method
      path := path
      handlerId := app.nextHandlerId
      cache := cache
      staticResponse := staticResponse }]
  middlewares := app.middlewares
  groupPrefix := app.groupPrefix
  outerPrefixes := app.outerPrefixes
  nextHandlerId := app.nextHandlerId + 1
  below := by
    intro route member
    rcases List.mem_append.mp member with old | new
    · exact Nat.lt_succ_of_lt (app.below route old)
    · rw [List.mem_singleton] at new
      rw [new]
      exact Nat.lt_succ_self _
  distinct := by
    rw [List.map_append, List.map_singleton, List.nodup_append]
    refine ⟨app.distinct, List.nodup_singleton _, ?_⟩
    intro used member fresh isFresh
    obtain ⟨route, inRoutes, rfl⟩ := List.mem_map.mp member
    rw [List.mem_singleton] at isFresh
    rw [isFresh]
    exact Nat.ne_of_lt (app.below route inRoutes)

def register (app : App Handler) : Registration Handler → Except Text (App Handler)
  | .use path handler =>
      let pathPrefix :=
        match path with
        | some path => combinePathPrefixes app.groupPrefix (normalizePathPrefix path)
        | none => app.groupPrefix
      .ok { app with middlewares := app.middlewares ++ [⟨pathPrefix, handler⟩] }
  | .route method path cache =>
      let methods :=
        match method with
        | some method => [method]
        | none => Method.all
      let scopedPath := applyGroupPrefixToRoutePath path app.groupPrefix
      methods.foldlM (fun app method => do
        let path ← normalizeRoutePath method scopedPath
        return app.pushRoute method path cache false) app
  | .static path => do
      let path ← normalizeRoutePath .get (applyGroupPrefixToRoutePath path app.groupPrefix)
      if ':' ∈ path then
        .error (text "app.static() only supports exact GET paths without params")
      else
        .ok (app.pushRoute .get path none true)
  | .ws path => do
      let _ ← normalizeRoutePath .get path
      return { app with
        nextHandlerId := app.nextHandlerId + 1
        below := fun route member => Nat.lt_succ_of_lt (app.below route member) }
  | .enterGroup pathPrefix =>
      .ok { app with
        groupPrefix := combinePathPrefixes app.groupPrefix (normalizePathPrefix pathPrefix)
        outerPrefixes := app.groupPrefix :: app.outerPrefixes }
  | .leaveGroup =>
      .ok { app with
        groupPrefix := app.outerPrefixes.headD root
        outerPrefixes := app.outerPrefixes.tail }

end App

/-! ## The compiled application -/

/-- A route with the source its fast paths are looked for in. -/
structure CompiledRoute extends RegisteredRoute where
  handlerSource : Text

/-- The middlewares whose prefix the pattern of a route falls under. -/
def applicableMiddlewares
    (middlewares : List (Middleware Handler))
    (route : CompiledRoute) :
    List (Middleware Handler) :=
  middlewares.filter fun middleware => pathPrefixMatches middleware.pathPrefix route.path

/-- What the dispatcher and the manifest are made from. A static route that
middlewares apply to is not compiled. -/
structure CompiledApplication (Handler : Type) where
  middlewares : List (Middleware Handler)
  routes : List CompiledRoute
  distinct : (routes.map fun route => route.handlerId).Nodup
  staticAlone : ∀ route ∈ routes, route.staticResponse = true →
    applicableMiddlewares middlewares route = []

/-- Compile an application whose handlers have the given sources. -/
def buildCompiledApplication
    (app : App Handler)
    (handlerSource : RegisteredRoute → Text) :
    Except Text (CompiledApplication Handler) :=
  let routes := app.routes.map fun route => { route with handlerSource := handlerSource route }
  match refused : routes.find? fun route =>
      route.staticResponse && !(applicableMiddlewares app.middlewares route).isEmpty with
  | some route =>
      .error (text "app.static(" ++ Compile.stringify route.path ++
        text ") cannot be used with applicable middleware")
  | none =>
      .ok {
        middlewares := app.middlewares
        routes := routes
        distinct := by
          rw [List.map_map]
          exact app.distinct
        staticAlone := by
          intro route member isStatic
          have accepted := List.find?_eq_none.mp refused route member
          simpa [isStatic] using accepted }

namespace CompiledApplication

/-- `routesById.get`: a later route replaces an earlier one with its id. -/
def routesById (app : CompiledApplication Handler) (handlerId : Nat) : Option CompiledRoute :=
  app.routes.reverse.find? fun route => route.handlerId = handlerId

theorem routesById_of_mem
    (app : CompiledApplication Handler)
    {route : CompiledRoute}
    (member : route ∈ app.routes) :
    app.routesById route.handlerId = some route := by
  have same : ∀ other ∈ app.routes, other.handlerId = route.handlerId → other = route := by
    intro other otherMember sameId
    exact List.inj_on_of_nodup_map app.distinct otherMember member sameId
  unfold routesById
  cases search : app.routes.reverse.find? fun other => other.handlerId = route.handlerId with
  | none =>
      have absent := List.find?_eq_none.mp search route (List.mem_reverse.mpr member)
      simp at absent
  | some found =>
      have sameId := List.find?_some search
      have inRoutes := List.mem_reverse.mp (List.mem_of_find?_eq_some search)
      rw [same found inRoutes (by simpa using sameId)]

end CompiledApplication

end Routing
end HttpNative
