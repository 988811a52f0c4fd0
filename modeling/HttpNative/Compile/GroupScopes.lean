import HttpNative.Compile.Registration
import HttpNative.Router.JoinedPaths

/-!
# Groups of routes

The code that configures an application is a tree: the callback of a group makes calls,
opens groups of its own, and may throw. The prefix in force is one variable, set when a
group is entered and restored on every way out, so that at each call it is what the
prefixes of the enclosing groups come to.
-/

namespace HttpNative
namespace Routing

variable {Handler : Type}

/-! ## Configuring -/

/-- A call that is not one of a group. -/
def Registration.isPlain : Registration Handler → Bool
  | .enterGroup _ | .leaveGroup => false
  | _ => true

/-- A statement of the code that configures an application; `attempt` catches what is
thrown in its body. -/
inductive Configuration (Handler : Type) where
  | call (registration : Registration Handler) (plain : registration.isPlain = true)
  | group (pathPrefix : Text) (body : List (Configuration Handler))
  | throws
  | attempt (body : List (Configuration Handler))

/-- An application with the paths of its WebSocket routes. -/
structure Registry (Handler : Type) where
  app : App Handler
  wsRoutes : List Text

namespace Registry

def initial : Registry Handler where
  app := createApp
  wsRoutes := []

def withPrefix (registry : Registry Handler) (groupPrefix : Text) : Registry Handler :=
  { registry with app := { registry.app with groupPrefix } }

def perform
    (registry : Registry Handler)
    (registration : Registration Handler) :
    Except Text (Registry Handler) :=
  match registration with
  | .ws path => do
      let normalized ← normalizeRoutePath .get path
      let app ← registry.app.register registration
      return { app, wsRoutes := registry.wsRoutes ++ [normalized] }
  | _ => do
      let app ← registry.app.register registration
      return { registry with app }

end Registry

/-- A call that was made, with the prefixes of the groups around it and what was there
before it. -/
structure Entry (Handler : Type) where
  prefixes : List Text
  registration : Registration Handler
  before : Registry Handler

namespace Entry

def result (entry : Entry Handler) : Except Text (Registry Handler) :=
  entry.before.perform entry.registration

end Entry

/-- What running some code comes to. -/
structure Run (Handler : Type) where
  registry : Registry Handler
  threw : Bool
  entries : List (Entry Handler)

mutual

/-- Run a statement in the groups of the given prefixes. -/
def Configuration.run
    (prefixes : List Text)
    (registry : Registry Handler) :
    Configuration Handler → Run Handler
  | .call registration _ =>
      let entry := { prefixes, registration, before := registry }
      match registry.perform registration with
      | .ok after => { registry := after, threw := false, entries := [entry] }
      | .error _ => { registry, threw := true, entries := [entry] }
  | .group pathPrefix body =>
      let previousPrefix := registry.app.groupPrefix
      let groupPrefix := combinePathPrefixes previousPrefix (normalizePathPrefix pathPrefix)
      let inner := runAll (prefixes ++ [pathPrefix]) (registry.withPrefix groupPrefix) body
      { inner with registry := inner.registry.withPrefix previousPrefix }
  | .throws => { registry, threw := true, entries := [] }
  | .attempt body => { runAll prefixes registry body with threw := false }

/-- Run statements one after the other, as far as none throws. -/
def runAll
    (prefixes : List Text)
    (registry : Registry Handler) :
    List (Configuration Handler) → Run Handler
  | [] => { registry, threw := false, entries := [] }
  | statement :: statements =>
      let first := statement.run prefixes registry
      if first.threw then
        first
      else
        let others := runAll prefixes first.registry statements
        { others with entries := first.entries ++ others.entries }

end

/-- Run the code that configures a new application. -/
def configure (statements : List (Configuration Handler)) : Run Handler :=
  runAll [] .initial statements

/-! ## What one call does -/

namespace App

variable {app : App Handler}

/-- The routes of a call of a method registrar, one for each method. -/
theorem foldlM_pushRoute
    {normalize : Method → Except Text Text} {path : Text}
    (accepts : ∀ method, normalize method = .ok path)
    (cache : Option Router.RouteCacheConfig)
    (methods : List Method)
    (app : App Handler) :
    ∃ after added,
      methods.foldlM (fun app method => do
        let path ← normalize method
        return app.pushRoute method path cache false) app = .ok after ∧
      after.routes = app.routes ++ added ∧
      added.map RegisteredRoute.method = methods ∧
      (∀ route ∈ added, route.path = path) ∧
      after.middlewares = app.middlewares ∧
      after.groupPrefix = app.groupPrefix := by
  induction methods generalizing app with
  | nil => exact ⟨app, [], rfl, (List.append_nil _).symm, rfl, by simp, rfl, rfl⟩
  | cons method methods hypothesis =>
      obtain ⟨after, added, ends, routes, isAdded, paths, middlewares, groupPrefix⟩ :=
        hypothesis (app.pushRoute method path cache false)
      refine ⟨after, ⟨method, path, app.nextHandlerId, cache, false⟩ :: added, ?_, ?_, ?_, ?_,
        middlewares, groupPrefix⟩
      · rw [List.foldlM_cons, accepts]
        exact ends
      · rw [routes]
        exact List.append_assoc _ _ _
      · rw [List.map_cons, isAdded]
      · intro route member
        rcases List.mem_cons.mp member with rfl | later
        · rfl
        · exact paths route later

theorem normalizeRoutePath_of_slash
    {path : Text}
    (slash : path.head? = some '/')
    (method : Method) :
    normalizeRoutePath method path = .ok (normalizePathPrefix path) :=
  if_pos slash

theorem applyGroupPrefix_starts
    {path : Text}
    (slash : path.head? = some '/')
    (parts : List Text) :
    (applyGroupPrefixToRoutePath path (joinParts parts)).head? = some '/' := by
  unfold applyGroupPrefixToRoutePath
  split
  · exact slash
  · have starts := (isNormalised_joinParts parts).starts
    split
    · exact starts
    · rw [List.head?_append, starts]
      rfl

end App

namespace Entry

/-- The call of an entry adds a route. -/
def AddsRoute (entry : Entry Handler) (route : RegisteredRoute) : Prop :=
  ∃ after added, entry.result = .ok after ∧
    after.app.routes = entry.before.app.routes ++ added ∧ route ∈ added

/-- The call of an entry adds a middleware. -/
def AddsMiddleware (entry : Entry Handler) (middleware : Middleware Handler) : Prop :=
  ∃ after, entry.result = .ok after ∧
    after.app.middlewares = entry.before.app.middlewares ++ [middleware]

/-- The path of a call that adds routes. -/
def routePath? : Registration Handler → Option Text
  | .route _ path _ | .static path => some path
  | _ => none

/-- The methods of the routes that a call adds. -/
def methodsOf : Registration Handler → List Method
  | .route (some method) _ _ => [method]
  | .route none _ _ => Method.all
  | .static _ => [.get]
  | _ => []

/-- The prefix in force is that of the groups around the call. -/
def InForce (entry : Entry Handler) : Prop :=
  entry.before.app.groupPrefix = joinParts entry.prefixes

/-- A call adds what it says below the prefixes of the groups around it. -/
structure Scoped (entry : Entry Handler) : Prop where
  middleware : ∀ path handler, entry.registration = .use path handler →
    entry.AddsMiddleware ⟨joinParts (entry.prefixes ++ path.toList), handler⟩
  route : ∀ path, routePath? entry.registration = some path →
    path.head? = some '/' →
    (∀ path, entry.registration = .static path →
      ':' ∉ joinParts (entry.prefixes ++ [path])) →
      ∃ after added, entry.result = .ok after ∧
        after.app.routes = entry.before.app.routes ++ added ∧
        added.map RegisteredRoute.method = methodsOf entry.registration ∧
        ∀ route ∈ added, route.path = joinParts (entry.prefixes ++ [path])
  path : ∀ path route, routePath? entry.registration = some path →
    path.head? = some '/' →
    entry.AddsRoute route →
      route.path = joinParts (entry.prefixes ++ [path])
  refused : ∀ path, routePath? entry.registration = some path →
    path.head? ≠ some '/' → entry.prefixes = [] →
      ∃ message, entry.result = .error message

variable {entry : Entry Handler}

theorem addsMiddleware_use
    (inForce : entry.InForce)
    {path : Option Text} {handler : Handler}
    (isUse : entry.registration = .use path handler) :
    entry.AddsMiddleware ⟨joinParts (entry.prefixes ++ path.toList), handler⟩ := by
  cases path with
  | none =>
      have whole : joinParts (entry.prefixes ++ (none : Option Text).toList) =
          entry.before.app.groupPrefix := by
        rw [Option.toList_none, List.append_nil, inForce]
      rw [AddsMiddleware, result, isUse, whole]
      exact ⟨_, rfl, rfl⟩
  | some path =>
      have whole : joinParts (entry.prefixes ++ (some path).toList) =
          combinePathPrefixes entry.before.app.groupPrefix (normalizePathPrefix path) := by
        rw [Option.toList_some, joinParts_append, inForce, normalizePathPrefix_eq]
      rw [AddsMiddleware, result, isUse, whole]
      exact ⟨_, rfl, rfl⟩

/-- A method registrar goes through its methods. -/
theorem register_route
    (app : App Handler)
    (method : Option Method)
    (path : Text)
    (cache : Option Router.RouteCacheConfig) :
    app.register (.route method path cache) =
      (methodsOf (.route method path cache : Registration Handler)).foldlM
        (fun current method => do
          let path ← normalizeRoutePath method (applyGroupPrefixToRoutePath path app.groupPrefix)
          return current.pushRoute method path cache false) app := by
  cases method with
  | none => rfl
  | some method => rfl

theorem addsRoutes_route
    (inForce : entry.InForce)
    {method : Option Method} {path : Text} {cache : Option Router.RouteCacheConfig}
    (isRoute : entry.registration = .route method path cache)
    (slash : path.head? = some '/') :
    ∃ after added, entry.result = .ok after ∧
      after.app.routes = entry.before.app.routes ++ added ∧
      added.map RegisteredRoute.method = methodsOf entry.registration ∧
      ∀ route ∈ added, route.path = joinParts (entry.prefixes ++ [path]) := by
  have accepts : ∀ method, normalizeRoutePath method
      (applyGroupPrefixToRoutePath path entry.before.app.groupPrefix) =
        .ok (joinParts (entry.prefixes ++ [path])) := by
    intro method
    rw [inForce, App.normalizeRoutePath_of_slash (App.applyGroupPrefix_starts slash _),
      normalizePathPrefix_applyGroupPrefix slash]
  obtain ⟨after, added, ends, routes, isAdded, paths, _, _⟩ :=
    App.foldlM_pushRoute accepts cache (methodsOf entry.registration) entry.before.app
  refine ⟨{ entry.before with app := after }, added, ?_, routes, isAdded, paths⟩
  rw [isRoute] at ends
  rw [result, isRoute, Registry.perform, register_route, ends]
  · rfl
  · intro other isWs
    cases isWs

theorem addsRoutes_static
    (inForce : entry.InForce)
    {path : Text}
    (isStatic : entry.registration = .static path)
    (slash : path.head? = some '/')
    (literal : ':' ∉ joinParts (entry.prefixes ++ [path])) :
    ∃ after added, entry.result = .ok after ∧
      after.app.routes = entry.before.app.routes ++ added ∧
      added.map RegisteredRoute.method = methodsOf entry.registration ∧
      ∀ route ∈ added, route.path = joinParts (entry.prefixes ++ [path]) := by
  have accepts : normalizeRoutePath .get
      (applyGroupPrefixToRoutePath path entry.before.app.groupPrefix) =
        .ok (joinParts (entry.prefixes ++ [path])) := by
    rw [inForce, App.normalizeRoutePath_of_slash (App.applyGroupPrefix_starts slash _),
      normalizePathPrefix_applyGroupPrefix slash]
  have registered : entry.before.app.register (.static path) =
      .ok (entry.before.app.pushRoute .get (joinParts (entry.prefixes ++ [path])) none true) := by
    rw [App.register, accepts]
    exact if_neg literal
  refine ⟨{ entry.before with
      app := entry.before.app.pushRoute .get (joinParts (entry.prefixes ++ [path])) none true },
    [⟨.get, joinParts (entry.prefixes ++ [path]), entry.before.app.nextHandlerId, none, true⟩],
    ?_, rfl, ?_, ?_⟩
  · rw [result, isStatic, Registry.perform, registered]
    · rfl
    · intro other isWs
      cases isWs
  · rw [isStatic]
    rfl
  · intro route member
    rw [List.mem_singleton.mp member]

/-- A path without a slash is refused where no prefix stands before it. -/
theorem refused_of_not_slash
    (inForce : entry.InForce)
    {path : Text}
    (isPath : routePath? entry.registration = some path)
    (noSlash : path.head? ≠ some '/')
    (outside : entry.prefixes = []) :
    ∃ message, entry.result = .error message := by
  have unscoped : applyGroupPrefixToRoutePath path entry.before.app.groupPrefix = path := by
    rw [inForce, outside]
    rfl
  have refuses : ∀ method, ∃ message, normalizeRoutePath method path = .error message :=
    fun method => ⟨_, if_neg noSlash⟩
  unfold result Registry.perform
  cases called : entry.registration with
  | route method given cache =>
      rw [called] at isPath
      cases isPath
      simp only
      rw [register_route, unscoped]
      cases method with
      | none =>
          obtain ⟨message, refused⟩ := refuses .get
          refine ⟨message, ?_⟩
          rw [methodsOf, Method.all, List.foldlM_cons, refused]
          rfl
      | some method =>
          obtain ⟨message, refused⟩ := refuses method
          refine ⟨message, ?_⟩
          rw [methodsOf, List.foldlM_cons, refused]
          rfl
  | static given =>
      rw [called] at isPath
      cases isPath
      obtain ⟨message, refused⟩ := refuses .get
      refine ⟨message, ?_⟩
      simp only
      rw [App.register, unscoped, refused]
      rfl
  | _ =>
      rw [called] at isPath
      cases isPath

/-- A path with a parameter is refused for a static route. -/
theorem not_addsRoute_static
    (inForce : entry.InForce)
    {path : Text}
    (isStatic : entry.registration = .static path)
    (slash : path.head? = some '/')
    (parameter : ':' ∈ joinParts (entry.prefixes ++ [path]))
    (route : RegisteredRoute) :
    ¬ entry.AddsRoute route := by
  have accepts : normalizeRoutePath .get
      (applyGroupPrefixToRoutePath path entry.before.app.groupPrefix) =
        .ok (joinParts (entry.prefixes ++ [path])) := by
    rw [inForce, App.normalizeRoutePath_of_slash (App.applyGroupPrefix_starts slash _),
      normalizePathPrefix_applyGroupPrefix slash]
  have refused : entry.before.app.register (.static path) =
      .error (text "app.static() only supports exact GET paths without params") := by
    rw [App.register, accepts]
    exact if_pos parameter
  rintro ⟨after, added, succeeds, _⟩
  rw [result, isStatic, Registry.perform, refused] at succeeds
  · cases succeeds
  · intro other isWs
    cases isWs

theorem addsRoutes
    (inForce : entry.InForce)
    {path : Text}
    (isPath : routePath? entry.registration = some path)
    (slash : path.head? = some '/')
    (literal : ∀ path, entry.registration = .static path →
      ':' ∉ joinParts (entry.prefixes ++ [path])) :
    ∃ after added, entry.result = .ok after ∧
      after.app.routes = entry.before.app.routes ++ added ∧
      added.map RegisteredRoute.method = methodsOf entry.registration ∧
      ∀ route ∈ added, route.path = joinParts (entry.prefixes ++ [path]) := by
  cases called : entry.registration with
  | route method given cache =>
      rw [called] at isPath
      cases isPath
      rw [← called]
      exact addsRoutes_route inForce called slash
  | static given =>
      rw [called] at isPath
      cases isPath
      rw [← called]
      exact addsRoutes_static inForce called slash (literal _ called)
  | _ =>
      rw [called] at isPath
      cases isPath

theorem path_of_addsRoute
    (inForce : entry.InForce)
    {path : Text} {route : RegisteredRoute}
    (isPath : routePath? entry.registration = some path)
    (slash : path.head? = some '/')
    (adds : entry.AddsRoute route) :
    route.path = joinParts (entry.prefixes ++ [path]) := by
  have literal : ∀ path, entry.registration = .static path →
      ':' ∉ joinParts (entry.prefixes ++ [path]) := by
    intro given isStatic parameter
    rw [isStatic] at isPath
    cases isPath
    exact not_addsRoute_static inForce isStatic slash parameter route adds
  obtain ⟨after, added, succeeds, routes, _, paths⟩ := addsRoutes inForce isPath slash literal
  obtain ⟨other, otherAdded, otherSucceeds, otherRoutes, member⟩ := adds
  rw [succeeds, Except.ok.injEq] at otherSucceeds
  rw [← otherSucceeds, routes] at otherRoutes
  rw [← List.append_cancel_left otherRoutes] at member
  exact paths route member

theorem scoped_of_inForce
    (inForce : entry.InForce) :
    entry.Scoped where
  middleware := fun _ _ => addsMiddleware_use inForce
  route := fun _ => addsRoutes inForce
  path := fun _ _ => path_of_addsRoute inForce
  refused := fun _ => refused_of_not_slash inForce

end Entry

/-! ## Whole configurations -/

/-- A call adds behind what is there, and leaves the prefix in force as it is. -/
structure Extends (before after : App Handler) : Prop where
  groupPrefix : after.groupPrefix = before.groupPrefix
  routes : ∃ added, after.routes = before.routes ++ added
  middlewares : ∃ added, after.middlewares = before.middlewares ++ added ∧ added.length ≤ 1

theorem extends_refl
    (app : App Handler) :
    Extends app app where
  groupPrefix := rfl
  routes := ⟨[], (List.append_nil _).symm⟩
  middlewares := ⟨[], (List.append_nil _).symm, Nat.zero_le _⟩

theorem extends_pushRoute
    (app : App Handler)
    (method : Method)
    (path : Text)
    (cache : Option Router.RouteCacheConfig)
    (staticResponse : Bool) :
    Extends app (app.pushRoute method path cache staticResponse) where
  groupPrefix := rfl
  routes := ⟨_, rfl⟩
  middlewares := ⟨[], (List.append_nil _).symm, Nat.zero_le _⟩

theorem extends_of_foldlM
    {normalize : Method → Except Text Text} {cache : Option Router.RouteCacheConfig}
    {methods : List Method} {app after : App Handler}
    (ends : methods.foldlM (fun current method => do
      let path ← normalize method
      return current.pushRoute method path cache false) app = .ok after) :
    Extends app after := by
  induction methods generalizing app with
  | nil =>
      cases ends
      exact extends_refl _
  | cons method methods hypothesis =>
      rw [List.foldlM_cons] at ends
      cases normalized : normalize method with
      | error message =>
          rw [normalized] at ends
          cases ends
      | ok path =>
          rw [normalized] at ends
          have others := @hypothesis (app.pushRoute method path cache false) ends
          obtain ⟨added, routes⟩ := others.routes
          refine ⟨others.groupPrefix,
            ⟨⟨method, path, app.nextHandlerId, cache, false⟩ :: added, ?_⟩,
            others.middlewares⟩
          rw [routes]
          exact List.append_assoc _ _ _

theorem extends_of_register
    {app after : App Handler} {registration : Registration Handler}
    (plain : registration.isPlain = true)
    (registers : app.register registration = .ok after) :
    Extends app after := by
  cases registration with
  | use path handler =>
      cases registers
      exact ⟨rfl, ⟨[], (List.append_nil _).symm⟩, ⟨_, rfl, Nat.le_refl _⟩⟩
  | route method path cache =>
      rw [Entry.register_route] at registers
      exact extends_of_foldlM registers
  | static path =>
      rw [App.register] at registers
      cases normalized : normalizeRoutePath .get
          (applyGroupPrefixToRoutePath path app.groupPrefix) with
      | error message =>
          rw [normalized] at registers
          cases registers
      | ok found =>
          rw [normalized] at registers
          change (if ':' ∈ found then _ else _) = _ at registers
          split at registers
          · cases registers
          · cases registers
            exact extends_pushRoute app .get found none true
  | ws path =>
      rw [App.register] at registers
      cases normalized : normalizeRoutePath .get path with
      | error message =>
          rw [normalized] at registers
          cases registers
      | ok found =>
          rw [normalized] at registers
          cases registers
          exact ⟨rfl, ⟨[], (List.append_nil _).symm⟩,
            ⟨[], (List.append_nil _).symm, Nat.zero_le _⟩⟩
  | enterGroup pathPrefix => cases plain
  | leaveGroup => cases plain

theorem register_of_perform
    {registry after : Registry Handler} {registration : Registration Handler}
    (performs : registry.perform registration = .ok after) :
    registry.app.register registration = .ok after.app := by
  unfold Registry.perform at performs
  cases registered : registry.app.register registration with
  | error message =>
      rw [registered] at performs
      split at performs
      · rename_i path
        cases normalized : normalizeRoutePath .get path with
        | error _ =>
            rw [normalized] at performs
            cases performs
        | ok _ =>
            rw [normalized] at performs
            cases performs
      · cases performs
  | ok app =>
      rw [registered] at performs
      split at performs
      · rename_i path
        cases normalized : normalizeRoutePath .get path with
        | error _ =>
            rw [normalized] at performs
            cases performs
        | ok _ =>
            rw [normalized] at performs
            cases performs
            rfl
      · cases performs
        rfl

theorem extends_of_perform
    {registry after : Registry Handler} {registration : Registration Handler}
    (plain : registration.isPlain = true)
    (performs : registry.perform registration = .ok after) :
    Extends registry.app after.app :=
  extends_of_register plain (register_of_perform performs)

mutual

/-- Whatever a statement does, and however it ends, the prefix in force behind it is the
one before it. -/
theorem groupPrefix_run
    (prefixes : List Text)
    (registry : Registry Handler) :
    ∀ statement : Configuration Handler,
      (statement.run prefixes registry).registry.app.groupPrefix = registry.app.groupPrefix
  | .call registration plain => by
      rw [Configuration.run]
      cases performs : registry.perform registration with
      | error message => rfl
      | ok after => exact (extends_of_perform plain performs).groupPrefix
  | .group pathPrefix body => by
      rw [Configuration.run]
      rfl
  | .throws => by
      rw [Configuration.run]
  | .attempt body => by
      rw [Configuration.run]
      exact groupPrefix_runAll prefixes registry body

theorem groupPrefix_runAll
    (prefixes : List Text)
    (registry : Registry Handler) :
    ∀ statements : List (Configuration Handler),
      (runAll prefixes registry statements).registry.app.groupPrefix = registry.app.groupPrefix
  | [] => by
      rw [runAll]
  | statement :: statements => by
      have first := groupPrefix_run prefixes registry statement
      rw [runAll]
      simp only
      split
      · exact first
      · exact (groupPrefix_runAll prefixes _ statements).trans first

end

mutual

/-- At every call the prefix in force is that of the groups around it. -/
theorem inForce_run
    (prefixes : List Text)
    (registry : Registry Handler)
    (inForce : registry.app.groupPrefix = joinParts prefixes) :
    ∀ statement : Configuration Handler,
      ∀ entry ∈ (statement.run prefixes registry).entries, entry.InForce
  | .call registration plain => by
      intro entry member
      rw [Configuration.run] at member
      have isEntry : entry = ⟨prefixes, registration, registry⟩ := by
        cases performs : registry.perform registration with
        | error message =>
            rw [performs] at member
            exact List.mem_singleton.mp member
        | ok after =>
            rw [performs] at member
            exact List.mem_singleton.mp member
      rw [isEntry]
      exact inForce
  | .group pathPrefix body => by
      rw [Configuration.run]
      refine inForce_runAll (prefixes ++ [pathPrefix]) (registry.withPrefix _) ?_ body
      rw [joinParts_append, ← inForce, ← normalizePathPrefix_eq]
      rfl
  | .throws => by
      intro entry member
      rw [Configuration.run] at member
      cases member
  | .attempt body => by
      rw [Configuration.run]
      exact inForce_runAll prefixes registry inForce body

theorem inForce_runAll
    (prefixes : List Text)
    (registry : Registry Handler)
    (inForce : registry.app.groupPrefix = joinParts prefixes) :
    ∀ statements : List (Configuration Handler),
      ∀ entry ∈ (runAll prefixes registry statements).entries, entry.InForce
  | [] => by
      intro entry member
      rw [runAll] at member
      cases member
  | statement :: statements => by
      intro entry member
      rw [runAll] at member
      simp only at member
      split at member
      · exact inForce_run prefixes registry inForce statement entry member
      · have kept := (groupPrefix_run prefixes registry statement).trans inForce
        rcases List.mem_append.mp member with first | others
        · exact inForce_run prefixes registry inForce statement entry first
        · exact inForce_runAll prefixes _ kept statements entry others

end

/-! ## What the application has in the end -/

/-- Everything that was not there before comes from a call. -/
structure Accounts (before : App Handler) (run : Run Handler) : Prop where
  routes : ∀ route ∈ run.registry.app.routes,
    route ∈ before.routes ∨ ∃ entry ∈ run.entries, entry.AddsRoute route
  middlewares : ∀ middleware ∈ run.registry.app.middlewares,
    middleware ∈ before.middlewares ∨ ∃ entry ∈ run.entries, entry.AddsMiddleware middleware

theorem accounts_refl
    {registry : Registry Handler} {threw : Bool} {entries : List (Entry Handler)} :
    Accounts registry.app { registry, threw, entries } where
  routes := fun _ member => .inl member
  middlewares := fun _ member => .inl member

mutual

theorem accounts_run
    (prefixes : List Text)
    (registry : Registry Handler) :
    ∀ statement : Configuration Handler,
      Accounts registry.app (statement.run prefixes registry)
  | .call registration plain => by
      rw [Configuration.run]
      cases performs : registry.perform registration with
      | error message => exact accounts_refl
      | ok after =>
          have extended := extends_of_perform plain performs
          obtain ⟨routes, routesAdded⟩ := extended.routes
          obtain ⟨middlewares, middlewaresAdded, short⟩ := extended.middlewares
          refine ⟨?_, ?_⟩
          · intro route member
            rw [routesAdded] at member
            rcases List.mem_append.mp member with old | new
            · exact .inl old
            · exact .inr
                ⟨_, List.mem_singleton_self _, after, routes, performs, routesAdded, new⟩
          · intro middleware member
            rw [middlewaresAdded] at member
            rcases List.mem_append.mp member with old | new
            · exact .inl old
            · have alone : middlewares = [middleware] := by
                cases middlewares with
                | nil => cases new
                | cons first others =>
                    have none : others = [] := List.eq_nil_of_length_eq_zero (by
                      rw [List.length_cons] at short
                      omega)
                    rw [none] at new ⊢
                    rw [List.mem_singleton.mp new]
              rw [alone] at middlewaresAdded
              exact .inr ⟨_, List.mem_singleton_self _, after, performs, middlewaresAdded⟩
  | .group pathPrefix body => by
      have inner := accounts_runAll (prefixes ++ [pathPrefix]) (registry.withPrefix
        (combinePathPrefixes registry.app.groupPrefix (normalizePathPrefix pathPrefix))) body
      rw [Configuration.run]
      exact ⟨inner.routes, inner.middlewares⟩
  | .throws => by
      rw [Configuration.run]
      exact accounts_refl
  | .attempt body => by
      have inner := accounts_runAll prefixes registry body
      rw [Configuration.run]
      exact ⟨inner.routes, inner.middlewares⟩

theorem accounts_runAll
    (prefixes : List Text)
    (registry : Registry Handler) :
    ∀ statements : List (Configuration Handler),
      Accounts registry.app (runAll prefixes registry statements)
  | [] => by
      rw [runAll]
      exact accounts_refl
  | statement :: statements => by
      have first := accounts_run prefixes registry statement
      have others := accounts_runAll prefixes (statement.run prefixes registry).registry statements
      rw [runAll]
      simp only
      split
      · exact first
      · refine ⟨?_, ?_⟩
        · intro route member
          rcases others.routes route member with old | ⟨entry, isEntry, adds⟩
          · rcases first.routes route old with older | ⟨entry, isEntry, adds⟩
            · exact .inl older
            · exact .inr ⟨entry, List.mem_append_left _ isEntry, adds⟩
          · exact .inr ⟨entry, List.mem_append_right _ isEntry, adds⟩
        · intro middleware member
          rcases others.middlewares middleware member with old | ⟨entry, isEntry, adds⟩
          · rcases first.middlewares middleware old with older | ⟨entry, isEntry, adds⟩
            · exact .inl older
            · exact .inr ⟨entry, List.mem_append_left _ isEntry, adds⟩
          · exact .inr ⟨entry, List.mem_append_right _ isEntry, adds⟩

end

/-- What is registered is registered below the groups around it. A middleware that is
registered for a group covers the routes of the group; whether it covers another route is
told by the path of that route alone. -/
structure Run.WellScoped (run : Run Handler) : Prop where
  placed : ∀ entry ∈ run.entries, entry.Scoped
  routes : ∀ route ∈ run.registry.app.routes, ∃ entry ∈ run.entries, entry.AddsRoute route
  middlewares : ∀ middleware ∈ run.registry.app.middlewares,
    ∃ entry ∈ run.entries, entry.AddsMiddleware middleware
  covers : ∀ first ∈ run.entries, ∀ second ∈ run.entries, ∀ handler path route,
    first.registration = .use none handler →
    Entry.routePath? second.registration = some path →
    path.head? = some '/' →
    second.AddsRoute route →
    first.prefixes <+: second.prefixes →
      pathPrefixMatches (joinParts first.prefixes) route.path = true
  byPath : ∀ pathPrefix path, pathPrefixMatches pathPrefix path = true ↔
    pathPrefix = root ∨ pathPrefix ++ ['/'] <+: path ++ ['/']

theorem pathPrefixMatches_iff_root_or
    (pathPrefix path : Text) :
    pathPrefixMatches pathPrefix path = true ↔
      pathPrefix = root ∨ pathPrefix ++ ['/'] <+: path ++ ['/'] := by
  by_cases isRoot : pathPrefix = root
  · rw [isRoot, pathPrefixMatches_root]
    exact ⟨fun _ => .inl rfl, fun _ => rfl⟩
  · rw [pathPrefixMatches_iff isRoot]
    exact ⟨.inr, fun found => found.resolve_left isRoot⟩

/-- Every configuration registers its paths below the groups around them: normalised, and
the same for routes and for middlewares. The prefix in force is restored on every way out
of a group. -/
theorem configure_wellScoped
    (statements : List (Configuration Handler)) :
    (configure statements).WellScoped ∧
      (∀ parts : List Text, IsNormalised (joinParts parts) ∧
        ((∀ part ∈ parts, SingleSlashes (pathPart part)) →
          SingleSlashes (joinParts parts))) ∧
      ∀ (prefixes : List Text) (registry : Registry Handler) (statement : Configuration Handler),
        (statement.run prefixes registry).registry.app.groupPrefix = registry.app.groupPrefix := by
  have placed : ∀ entry ∈ (configure statements).entries, entry.Scoped := by
    intro entry member
    exact Entry.scoped_of_inForce (inForce_runAll [] .initial rfl statements entry member)
  have accounts := accounts_runAll [] .initial statements
  refine ⟨⟨placed, ?_, ?_, ?_, pathPrefixMatches_iff_root_or⟩, ?_, groupPrefix_run⟩
  · intro route member
    exact (accounts.routes route member).resolve_left (List.not_mem_nil)
  · intro middleware member
    exact (accounts.middlewares middleware member).resolve_left (List.not_mem_nil)
  · intro first _ second inSecond handler path route _ isPath slash adds inside
    obtain ⟨inner, nested⟩ := inside
    rw [(placed second inSecond).path path route isPath slash adds, ← nested, List.append_assoc]
    exact pathPrefixMatches_joinParts first.prefixes (inner ++ [path])
  · exact fun parts => ⟨isNormalised_joinParts parts, singleSlashes_joinParts⟩

/-- A group with a middleware, and a route outside of it that has a path below its
prefix. -/
def apiStatements : List (Configuration Unit) :=
  [.group (text "/api") [.call (.use none ()) rfl],
    .call (.route (some .get) (text "/api/status") none) rfl]

/-- A prefix that ends with a slash, and a path that begins with one. -/
theorem configure_wellScoped_api :
    (∀ part ∈ [text "/api/", text "/users"], SingleSlashes (pathPart part)) ∧
      SingleSlashes (joinParts [text "/api/", text "/users"]) := by
  have single : ∀ part ∈ [text "/api/", text "/users"], SingleSlashes (pathPart part) := by
    unfold SingleSlashes
    decide
  exact ⟨single, ((configure_wellScoped apiStatements).2.1 _).2 single⟩

/-- Everything that is registered is registered below the groups around it, WebSocket
routes and paths without a slash included, and a middleware of a group covers the routes of
the group and no others. -/
structure Run.KeepsWithinGroups (run : Run Handler) : Prop where
  placed : ∀ entry ∈ run.entries, entry.Scoped
  ws : ∀ entry ∈ run.entries, ∀ path after,
    entry.registration = .ws path →
    entry.result = .ok after →
      after.wsRoutes = entry.before.wsRoutes ++ [joinParts (entry.prefixes ++ [path])]
  refused : ∀ entry ∈ run.entries, ∀ path,
    Entry.routePath? entry.registration = some path →
    path.head? ≠ some '/' →
      ∃ message, entry.result = .error message
  covers : ∀ first ∈ run.entries, ∀ second ∈ run.entries, ∀ handler route,
    first.registration = .use none handler →
    second.AddsRoute route →
      (pathPrefixMatches (joinParts first.prefixes) route.path = true ↔
        first.prefixes <+: second.prefixes)

/-- A middleware of a group also covers what is registered below the prefix of the group
somewhere else. -/
theorem not_keepsWithinGroups :
    ¬ ∀ statements : List (Configuration Unit), (configure statements).KeepsWithinGroups := by
  intro keeps
  have useCall : ∃ before, (⟨[text "/api"], .use none (), before⟩ : Entry Unit) ∈
      (configure apiStatements).entries :=
    ⟨_, List.mem_cons_self⟩
  have getCall : ∃ before,
      (⟨[], .route (some .get) (text "/api/status") none, before⟩ : Entry Unit) ∈
        (configure apiStatements).entries :=
    ⟨_, List.mem_cons_of_mem _ List.mem_cons_self⟩
  obtain ⟨used, isUse⟩ := useCall
  obtain ⟨before, isGet⟩ := getCall
  have placed := (keeps apiStatements).placed _ isGet
  obtain ⟨after, added, succeeds, routes, methods, paths⟩ :=
    placed.route (text "/api/status") rfl rfl (fun _ isStatic => by cases isStatic)
  cases added with
  | nil => cases methods
  | cons route others =>
      have covered := (keeps apiStatements).covers _ isUse _ isGet () route rfl
        ⟨after, route :: others, succeeds, routes, List.mem_cons_self⟩
      rw [paths route List.mem_cons_self] at covered
      have falls : pathPrefixMatches (joinParts [text "/api"]) (joinParts [text "/api/status"]) =
          true := by
        decide
      have outside : ¬ [text "/api"] <+: ([] : List Text) := by decide
      exact outside (covered.mp falls)

end Routing
end HttpNative
