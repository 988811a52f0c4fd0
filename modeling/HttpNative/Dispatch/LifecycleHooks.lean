import HttpNative.Library.Dictionary
import HttpNative.Library.Text

/-!
# Decorators and lifecycle hooks

An application collects decorators and hooks, its own and those of its plugins, and
the dispatcher compiles chains of the hooks that its snapshot has. The snapshot of an
application has none, and no exit of the dispatcher calls a chain or decorates a
request. So a request sees its lifecycle exactly if there is nothing to see of it.
-/

namespace HttpNative
namespace Lifecycle

/-! ## Registration -/

/-- The keys of `lifecycleHooks`. -/
inductive HookEvent where
  | onRequest
  | onRoute
  | onResponse
  | onError
  | onClose
deriving DecidableEq

def HookEvent.name : HookEvent → Text
  | .onRequest => text "onRequest"
  | .onRoute => text "onRoute"
  | .onResponse => text "onResponse"
  | .onError => text "onError"
  | .onClose => text "onClose"

/-- `lifecycleHooks[event]` -/
def HookEvent.ofName (name : Text) : Option HookEvent :=
  [.onRequest, .onRoute, .onResponse, .onError, .onClose].find? fun event => event.name = name

inductive RegistrationError where
  | decoratorRegistered (name : Text)
  | unknownHookEvent (name : Text)
  | noSetup
  | pluginRegistered (name : Text)

def RegistrationError.message : RegistrationError → Text
  | .decoratorRegistered name => text "Decorator \"" ++ name ++ text "\" is already registered"
  | .unknownHookEvent name => text "Unknown hook event \"" ++ name ++ text "\""
  | .noSetup => text "Plugin must have a setup(app, options) function"
  | .pluginRegistered name => text "Plugin \"" ++ name ++ text "\" is already registered"

/-- What the start-up code of an application calls. The setup of a plugin makes calls
of its own. -/
inductive Registration (Value Hook : Type) where
  | decorate (name : Text) (value : Value)
  | addHook (event : Text) (hook : Hook)
  | register (plugin : Text) (setup : List (Registration Value Hook))
  | registerWithoutSetup

/-- A call of user code for one request, as the dispatcher sees it: it throws, or it
returns, perhaps with the response finished or with a promise. The promise rejects or
resolves, and the response is finished by then or not. -/
inductive CallBehaviour where
  | throws (finished : Bool)
  | returns (finished : Bool)
  | promises (finishedBefore rejects finishedAfter : Bool)

/-- What the dispatcher goes on with. -/
structure CallResult where
  throws : Bool
  finished : Bool

/-- A promise is awaited while the response is not finished. -/
def CallBehaviour.settle : CallBehaviour → CallResult
  | .throws finished => { throws := true, finished }
  | .returns finished => { throws := false, finished }
  | .promises true _ _ => { throws := false, finished := true }
  | .promises false rejects finishedAfter => { throws := rejects, finished := finishedAfter }

/-- What is known of a route when a request for it is dispatched, and what its user
code does with the request. -/
structure RouteCall where
  /-- `runtimeResponseCache.encoded` is there. -/
  isCached : Bool
  hasMiddlewares : Bool
  /-- The middlewares that the runner calls, in order. -/
  middlewares : List Nat
  runner : CallBehaviour
  handler : CallBehaviour
  streams : Bool
  /-- The response can be encoded. -/
  encodes : Bool

/-- A request envelope. -/
inductive Arrival where
  | undecodable
  | notFound
  | unknownHandler
  | routed (route : RouteCall)

structure Application (Value Hook : Type) where
  decorators : Dictionary Text Value
  lifecycleHooks : HookEvent → List Hook
  plugins : List Text
  errorHandlers : List (Arrival → CallBehaviour)

namespace Application

variable {Value Hook : Type}

def new (errorHandlers : List (Arrival → CallBehaviour)) : Application Value Hook where
  decorators := []
  lifecycleHooks := fun _ => []
  plugins := []
  errorHandlers := errorHandlers

def addHookFor
    (event : HookEvent)
    (hook : Hook)
    (app : Application Value Hook) :
    Application Value Hook :=
  { app with lifecycleHooks := fun other =>
      if other = event then app.lifecycleHooks other ++ [hook] else app.lifecycleHooks other }

mutual

/-- `decorate`, `addHook` and `register`: the application afterwards, and the error
that is thrown. -/
def apply (app : Application Value Hook) :
    Registration Value Hook → Application Value Hook × Option RegistrationError
  | .decorate name value =>
      if (app.decorators.get name).isSome then (app, some (.decoratorRegistered name))
      else ({ app with decorators := app.decorators.set name value }, none)
  | .addHook event hook =>
      match HookEvent.ofName event with
      | none => (app, some (.unknownHookEvent event))
      | some event => (app.addHookFor event hook, none)
  | .register plugin setup =>
      if plugin ∈ app.plugins then (app, some (.pluginRegistered plugin))
      else
        match app.applyAll setup with
        | (app, some error) => (app, some error)
        | (app, none) => ({ app with plugins := app.plugins ++ [plugin] }, none)
  | .registerWithoutSetup => (app, some .noSetup)

/-- Calls up to the first one that throws. -/
def applyAll (app : Application Value Hook) :
    List (Registration Value Hook) → Application Value Hook × Option RegistrationError
  | [] => (app, none)
  | registration :: rest =>
      match app.apply registration with
      | (app, some error) => (app, some error)
      | (app, none) => app.applyAll rest

end

end Application

section Registered

variable {Value Hook : Type} (event : HookEvent)

mutual

/-- The hooks of an event that a registration adds, those of a plugin in the order of its
setup. -/
def Registration.hooks : Registration Value Hook → List Hook
  | .decorate _ _ => []
  | .addHook name hook => if HookEvent.ofName name = some event then [hook] else []
  | .register _ setup => Registration.hooksOfAll setup
  | .registerWithoutSetup => []

def Registration.hooksOfAll : List (Registration Value Hook) → List Hook
  | [] => []
  | registration :: rest => registration.hooks ++ Registration.hooksOfAll rest

end

namespace Application

mutual

/-- Hooks are kept in the order of their registration. -/
theorem lifecycleHooks_apply
    (app : Application Value Hook)
    (registration : Registration Value Hook)
    (succeeds : (app.apply registration).2.isNone = true) :
    (app.apply registration).1.lifecycleHooks event =
      app.lifecycleHooks event ++ registration.hooks event := by
  cases registration with
  | decorate name value =>
      rw [Registration.hooks, List.append_nil, apply]
      split
      · rfl
      · rfl
  | addHook name hook =>
      unfold apply at succeeds ⊢
      rw [Registration.hooks]
      cases found : HookEvent.ofName name with
      | none =>
          rw [found] at succeeds
          cases succeeds
      | some other =>
          simp only [addHookFor, Option.some.injEq]
          by_cases same : event = other
          · rw [if_pos same, if_pos same.symm]
          · rw [if_neg same, if_neg (Ne.symm same), List.append_nil]
  | register plugin setup =>
      unfold apply at succeeds ⊢
      rw [Registration.hooks]
      by_cases known : plugin ∈ app.plugins
      · rw [if_pos known] at succeeds
        cases succeeds
      · rw [if_neg known] at succeeds ⊢
        have all := lifecycleHooks_applyAll app setup
        cases result : app.applyAll setup with
        | mk after error =>
            rw [result] at succeeds all
            cases error with
            | some error => cases succeeds
            | none => exact all rfl
  | registerWithoutSetup =>
      rw [apply] at succeeds
      cases succeeds

theorem lifecycleHooks_applyAll
    (app : Application Value Hook)
    (registrations : List (Registration Value Hook))
    (succeeds : (app.applyAll registrations).2.isNone = true) :
    (app.applyAll registrations).1.lifecycleHooks event =
      app.lifecycleHooks event ++ Registration.hooksOfAll event registrations := by
  cases registrations with
  | nil =>
      rw [applyAll, Registration.hooksOfAll, List.append_nil]
  | cons registration rest =>
      unfold applyAll at succeeds ⊢
      rw [Registration.hooksOfAll]
      have one := lifecycleHooks_apply app registration
      cases result : app.apply registration with
      | mk after error =>
          rw [result] at succeeds one
          cases error with
          | some error => cases succeeds
          | none =>
              have others := lifecycleHooks_applyAll after rest succeeds
              rw [one rfl, List.append_assoc] at others
              exact others

end

end Application

end Registered

/-! ## The dispatcher -/

/-- The part of a compiled snapshot that is about the lifecycle. -/
structure CompiledSnapshot (Hook : Type) where
  hooks : Option (HookEvent → List Hook)
  errorHandlers : List (Arrival → CallBehaviour)

/-- The snapshot of an application has no field `hooks`. -/
def compileSnapshot {Value Hook : Type} (app : Application Value Hook) : CompiledSnapshot Hook where
  hooks := none
  errorHandlers := app.errorHandlers

structure DispatchState (Hook : Type) where
  errorHandlers : List (Arrival → CallBehaviour)
  onRequest : Option (List Hook)
  onResponse : Option (List Hook)
  onError : Option (List Hook)

def compileHookChain {Hook : Type} (fns : List Hook) : Option (List Hook) :=
  match fns with
  | [] => none
  | fns => some fns

def buildDispatchState {Hook : Type} (snapshot : CompiledSnapshot Hook) : DispatchState Hook :=
  let hooks := snapshot.hooks.getD fun _ => []
  { errorHandlers := snapshot.errorHandlers
    onRequest := compileHookChain (hooks .onRequest)
    onResponse := compileHookChain (hooks .onResponse)
    onError := compileHookChain (hooks .onError) }

/-- What can be seen of a dispatch. -/
inductive Step (Value Hook : Type) where
  /-- The request object is made, with the decorators that can be read on it. -/
  | request (decorators : Dictionary Text Value)
  | middleware (position : Nat)
  | handler
  | errorHandler (position : Nat)
  | hook (event : HookEvent) (fn : Hook)
  | respond
  | startStream
  /-- The promise of the dispatch rejects. -/
  | reject

section Dispatch

variable {Value Hook : Type}

/-- The error handlers are called until the response is finished or one throws. -/
def errorHandlerSteps (arrival : Arrival) (finished : Bool) (position : Nat) :
    List (Arrival → CallBehaviour) → List (Step Value Hook)
  | [] => []
  | errorHandler :: rest =>
      if finished then []
      else
        let result := (errorHandler arrival).settle
        .errorHandler position ::
          if result.throws then [] else errorHandlerSteps arrival result.finished (position + 1) rest

def finalizeError
    (state : DispatchState Hook)
    (arrival : Arrival)
    (finished : Bool) :
    List (Step Value Hook) :=
  errorHandlerSteps arrival finished 0 state.errorHandlers ++ [.respond]

/-- The response of a route whose user code is done. -/
def finish (route : RouteCall) : List (Step Value Hook) :=
  if !route.encodes then [.reject]
  else if route.streams then [.startStream]
  else [.respond]

/-- The steps of a handler that is called. -/
def handle (state : DispatchState Hook) (route : RouteCall) : List (Step Value Hook) :=
  let result := route.handler.settle
  .handler ::
    if result.throws then finalizeError state (.routed route) result.finished else finish route

/-- The steps of a request from its first middleware on. -/
def run (state : DispatchState Hook) (route : RouteCall) : List (Step Value Hook) :=
  if route.hasMiddlewares then
    let result := route.runner.settle
    route.middlewares.map .middleware ++
      if result.throws then finalizeError state (.routed route) result.finished
      else if result.finished then finish route
      else handle state route
  else
    handle state route

/-- `dispatch` -/
def dispatch (state : DispatchState Hook) (arrival : Arrival) : List (Step Value Hook) :=
  match arrival with
  | .undecodable => [.respond]
  | .notFound => .request [] :: finalizeError state arrival false
  | .unknownHandler => [.respond]
  | .routed route => if route.isCached then [.respond] else .request [] :: run state route

end Dispatch

/-! ## What an application is promised -/

section Promises

variable {Value Hook : Type}

namespace Step

def isMiddleware : Step Value Hook → Bool
  | .middleware _ => true
  | _ => false

/-- The response is complete, as far as the dispatcher has to do with it. -/
def isAnswer : Step Value Hook → Bool
  | .respond => true
  | .startStream => true
  | .reject => true
  | _ => false

/-- The step neither makes the request object nor calls a hook. -/
def isPlain : Step Value Hook → Bool
  | .request _ => false
  | .hook _ _ => false
  | _ => true

/-- The hook of an event that is called. -/
def hookOf (event : HookEvent) : Step Value Hook → Option Hook
  | .hook other fn => if other = event then some fn else none
  | _ => none

end Step

/-- The hooks of an event in the order of their calls. -/
def hookCalls (event : HookEvent) (steps : List (Step Value Hook)) : List Hook :=
  steps.filterMap (Step.hookOf event)

/-- The user code of the route fails. -/
def RouteCall.fails (route : RouteCall) : Bool :=
  if route.hasMiddlewares then
    let result := route.runner.settle
    result.throws || (!result.finished && route.handler.settle.throws)
  else route.handler.settle.throws

/-- The request ends in an error. -/
def Arrival.fails : Arrival → Bool
  | .undecodable => true
  | .notFound => true
  | .unknownHandler => true
  | .routed route => !route.isCached && route.fails

/-- The dispatcher makes a request object. -/
def Arrival.hasRequest : Arrival → Bool
  | .undecodable => false
  | .notFound => true
  | .unknownHandler => false
  | .routed route => !route.isCached

/-- Decorators can be read on the request object; all `onRequest` hooks are called in
order before the first middleware, all `onResponse` hooks in order after the response,
and all `onError` hooks for a request that fails. -/
structure RunsLifecycle
    (app : Application Value Hook)
    (arrival : Arrival)
    (steps : List (Step Value Hook)) : Prop where
  decorated : ∀ decorators, Step.request decorators ∈ steps →
    ∀ entry ∈ app.decorators, entry ∈ decorators
  onRequest : hookCalls .onRequest steps = app.lifecycleHooks .onRequest
  beforeMiddlewares : hookCalls .onRequest (steps.takeWhile (!·.isMiddleware)) =
    app.lifecycleHooks .onRequest
  onResponse : hookCalls .onResponse steps = app.lifecycleHooks .onResponse
  afterResponse : hookCalls .onResponse (steps.takeWhile (!·.isAnswer)) = []
  onError : hookCalls .onError steps =
    if arrival.fails then app.lifecycleHooks .onError else []

/-! ## The steps of a dispatch -/

theorem isPlain_errorHandlerSteps
    (arrival : Arrival)
    (finished : Bool)
    (position : Nat)
    (errorHandlers : List (Arrival → CallBehaviour)) :
    ∀ step ∈ (errorHandlerSteps arrival finished position errorHandlers :
      List (Step Value Hook)), step.isPlain = true := by
  induction errorHandlers generalizing finished position with
  | nil => exact fun _ member => absurd member List.not_mem_nil
  | cons errorHandler rest hypothesis =>
      unfold errorHandlerSteps
      split
      · exact fun _ member => absurd member List.not_mem_nil
      · refine List.forall_mem_cons.mpr ⟨rfl, ?_⟩
        split
        · exact fun _ member => absurd member List.not_mem_nil
        · exact hypothesis _ _

variable (state : DispatchState Hook) (arrival : Arrival) (route : RouteCall)

theorem isPlain_finalizeError
    (finished : Bool) :
    ∀ step ∈ (finalizeError state arrival finished : List (Step Value Hook)),
      step.isPlain = true :=
  List.forall_mem_append.mpr
    ⟨isPlain_errorHandlerSteps arrival finished 0 state.errorHandlers,
      List.forall_mem_singleton.mpr rfl⟩

theorem isPlain_finish :
    ∀ step ∈ (finish route : List (Step Value Hook)), step.isPlain = true := by
  unfold finish
  split
  · exact List.forall_mem_singleton.mpr rfl
  · split
    · exact List.forall_mem_singleton.mpr rfl
    · exact List.forall_mem_singleton.mpr rfl

theorem isPlain_handle :
    ∀ step ∈ (handle state route : List (Step Value Hook)), step.isPlain = true := by
  refine List.forall_mem_cons.mpr ⟨rfl, ?_⟩
  split
  · exact isPlain_finalizeError state (.routed route) _
  · exact isPlain_finish route

theorem isPlain_run :
    ∀ step ∈ (run state route : List (Step Value Hook)), step.isPlain = true := by
  unfold run
  split
  · refine List.forall_mem_append.mpr ⟨fun step member => ?_, ?_⟩
    · obtain ⟨position, _, rfl⟩ := List.mem_map.mp member
      rfl
    · split
      · exact isPlain_finalizeError state (.routed route) _
      · split
        · exact isPlain_finish route
        · exact isPlain_handle state route
  · exact isPlain_handle state route

/-- A dispatch calls no hook, and makes at most one request object, without
decorators. -/
theorem dispatch_cases :
    ∃ rest : List (Step Value Hook), (∀ step ∈ rest, step.isPlain = true) ∧
      dispatch state arrival = if arrival.hasRequest then .request [] :: rest else rest := by
  cases arrival with
  | undecodable => exact ⟨[.respond], List.forall_mem_singleton.mpr rfl, rfl⟩
  | unknownHandler => exact ⟨[.respond], List.forall_mem_singleton.mpr rfl, rfl⟩
  | notFound => exact ⟨_, isPlain_finalizeError state .notFound false, rfl⟩
  | routed route =>
      cases cached : route.isCached with
      | true =>
          refine ⟨[.respond], List.forall_mem_singleton.mpr rfl, ?_⟩
          rw [dispatch, Arrival.hasRequest, cached]
          rfl
      | false =>
          refine ⟨_, isPlain_run state route, ?_⟩
          rw [dispatch, Arrival.hasRequest, cached]
          rfl

theorem isHook_dispatch :
    ∀ step ∈ (dispatch state arrival : List (Step Value Hook)),
      ∀ event, step.hookOf event = none := by
  obtain ⟨rest, plain, spelled⟩ := @dispatch_cases Value Hook state arrival
  have quiet : ∀ step ∈ rest, ∀ event, step.hookOf event = none := by
    intro step member event
    have isPlain := plain step member
    cases step with
    | hook other fn => cases isPlain
    | _ => rfl
  rw [spelled]
  split
  · exact List.forall_mem_cons.mpr ⟨fun _ => rfl, quiet⟩
  · exact quiet

theorem hookCalls_dispatch
    {steps : List (Step Value Hook)}
    (among : steps ⊆ dispatch state arrival)
    (event : HookEvent) :
    hookCalls event steps = [] :=
  List.filterMap_eq_nil_iff.mpr fun step member =>
    isHook_dispatch state arrival step (among member) event

/-- The request object has no decorators. -/
theorem request_mem_dispatch
    (decorators : Dictionary Text Value) :
    Step.request decorators ∈ dispatch state arrival ↔
      arrival.hasRequest = true ∧ decorators = [] := by
  obtain ⟨rest, plain, spelled⟩ := @dispatch_cases Value Hook state arrival
  have absent : Step.request decorators ∉ rest := fun member =>
    Bool.false_ne_true (plain _ member)
  rw [spelled]
  split
  case isTrue made =>
      rw [List.mem_cons, or_iff_left absent, Step.request.injEq]
      exact ⟨fun same => ⟨made, same⟩, And.right⟩
  case isFalse notMade =>
      exact ⟨fun member => absurd member absent, fun both => absurd both.1 notMade⟩

end Promises

/-- A request sees its lifecycle exactly if the application has no decorators, or the
request is answered without a request object, and it has no hooks for requests and
responses, and none for errors if the request fails. -/
theorem runsLifecycle_iff
    {Value Hook : Type}
    (app : Application Value Hook)
    (arrival : Arrival) :
    RunsLifecycle app arrival (dispatch (buildDispatchState (compileSnapshot app)) arrival) ↔
      (app.decorators = [] ∨ arrival.hasRequest = false) ∧
        app.lifecycleHooks .onRequest = [] ∧ app.lifecycleHooks .onResponse = [] ∧
        (arrival.fails = true → app.lifecycleHooks .onError = []) := by
  let state := buildDispatchState (compileSnapshot app)
  have none_called : ∀ event, hookCalls event (dispatch state arrival : List (Step Value Hook)) =
      [] := hookCalls_dispatch state arrival (List.Subset.refl _)
  have none_before : ∀ (event : HookEvent) (stops : Step Value Hook → Bool),
      hookCalls event ((dispatch state arrival).takeWhile stops) = [] := fun event stops =>
    hookCalls_dispatch state arrival (List.takeWhile_subset _) event
  constructor
  · intro runs
    refine ⟨?_, ?_, ?_, fun fails => ?_⟩
    · cases made : arrival.hasRequest with
      | false => exact .inr rfl
      | true =>
          refine .inl (List.eq_nil_iff_forall_not_mem.mpr fun entry member => ?_)
          have isMade : Step.request [] ∈ (dispatch state arrival : List (Step Value Hook)) :=
            (request_mem_dispatch state arrival []).mpr ⟨made, rfl⟩
          exact List.not_mem_nil (runs.decorated [] isMade entry member)
    · exact runs.onRequest.symm.trans (none_called .onRequest)
    · exact runs.onResponse.symm.trans (none_called .onResponse)
    · have called := runs.onError
      rw [if_pos fails] at called
      exact called.symm.trans (none_called .onError)
  · rintro ⟨undecorated, noRequest, noResponse, noError⟩
    constructor
    · intro decorators member entry isDecorator
      obtain ⟨made, _⟩ := (request_mem_dispatch state arrival decorators).mp member
      rw [undecorated.resolve_right (ne_false_of_eq_true made)] at isDecorator
      exact absurd isDecorator List.not_mem_nil
    · exact (none_called .onRequest).trans noRequest.symm
    · exact (none_before .onRequest _).trans noRequest.symm
    · exact (none_called .onResponse).trans noResponse.symm
    · exact none_before .onResponse _
    · rw [none_called .onError]
      split
      case isTrue fails => exact (noError fails).symm
      case isFalse => rfl

/-- An application with one plugin, which adds a hook for each request and one for each
response and decorates the requests. -/
def metricsApp : Application Nat Nat :=
  ((Application.new []).applyAll
    [.register (text "metrics")
      [.addHook (text "onRequest") 0, .addHook (text "onResponse") 1,
        .decorate (text "db") 7]]).1

/-- A request for a route with a middleware, whose handler answers. -/
def pageCall : RouteCall where
  isCached := false
  hasMiddlewares := true
  middlewares := [0]
  runner := .promises false false false
  handler := .returns true
  streams := false
  encodes := true

/-- The request passes the middleware and the handler, and the response is sent; the
hooks and the decorator of the plugin are nowhere. -/
theorem not_runsLifecycle :
    metricsApp.lifecycleHooks .onRequest = [0] ∧ metricsApp.lifecycleHooks .onResponse = [1] ∧
      metricsApp.decorators = [(text "db", 7)] ∧
      ¬ RunsLifecycle metricsApp (.routed pageCall)
        (dispatch (buildDispatchState (compileSnapshot metricsApp)) (.routed pageCall)) := by
  refine ⟨by decide, by decide, by decide, fun runs => ?_⟩
  exact absurd runs.onRequest (by decide)

end Lifecycle
end HttpNative
