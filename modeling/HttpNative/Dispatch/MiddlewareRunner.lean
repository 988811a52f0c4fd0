import Mathlib.Logic.Function.Basic
import HttpNative.Library.Machine

/-!
# The middleware runner

`createMiddlewareRunner` and the part of `dispatch` that runs the middlewares
of a route and then its handler, as a machine over the scheduled pieces of
JavaScript. User code is free: at each turn the code on top of the call stack
may call its `next`, finish the response, await something or end. Microtasks
run only when the call stack is empty. The machine stops when the dispatcher
has its response or its error, since it releases `req` and `res` there.
-/

namespace HttpNative

namespace MiddlewareRunner

/-- An applicable middleware, by the number of parameters of its handler. -/
structure Middleware where
  handlerLength : Nat
deriving DecidableEq, Repr

/-- `needsNext: mw.handler.length >= 3`. -/
def Middleware.needsNext (middleware : Middleware) : Bool :=
  decide (middleware.handlerLength ≥ 3)

inductive Outcome where
  | fulfilled
  | rejected
deriving DecidableEq, Repr

/-- What suspended code waits for: the promise of its `next()`, the rejected
promise of a further `next()`, or anything else. -/
inductive Awaited where
  | ownNext
  | repeatedNext
  | elsewhere
deriving DecidableEq, Repr

/-- A call of a middleware or of the route handler. -/
inductive HandlerCall where
  | notCalled
  | running
  | suspended (awaited : Awaited)
  | settled (outcome : Outcome)
deriving DecidableEq, Repr

/-- The call `dispatch(position)` that got past the `position <= index` check. -/
inductive DispatchCall where
  | notEntered
  | awaitsHandler
  | awaitsNext
  | settled (outcome : Outcome)
deriving DecidableEq, Repr

/-- How a call ends: with a plain value, with a promise, or by throwing. -/
inductive Completion where
  | returns
  | resolves
  | rejects
  | throws
deriving DecidableEq, Repr

@[simp] def Completion.outcome : Completion → Outcome
  | .returns | .resolves => .fulfilled
  | .rejects | .throws => .rejected

/-- User code on the call stack. Code that goes on after an `await` carries
what the awaited promise settled with; a callback is work that a middleware
(or the handler, for `none`) left behind. -/
inductive Code where
  | middleware (position : Nat) (resumedWith : Option Outcome)
  | callback (owner : Option Nat)
  | handler (resumedWith : Option Outcome)
deriving DecidableEq, Repr

/-- The middleware whose `next` the code holds. -/
def Code.nextOwner : Code → Option Nat
  | .middleware position _ => some position
  | .callback owner => owner
  | .handler _ => none

/-- The dispatcher's own position in `dispatch`. -/
inductive Dispatcher where
  | idle
  | callsMiddlewares
  | awaitsMiddlewares
  | callsHandler
  | awaitsHandler
  | responded
  | failed
deriving DecidableEq, Repr

/-- The calls made by one run of the runner. `started` records the order in
which middlewares were called. -/
structure Chain where
  index : Int
  dispatches : Nat → DispatchCall
  calls : Nat → HandlerCall
  finished : Bool
  started : List Nat

namespace Chain

def initial : Chain where
  index := -1
  dispatches := fun _ => .notEntered
  calls := fun _ => .notCalled
  finished := false
  started := []

def setCall (chain : Chain) (position : Nat) (call : HandlerCall) : Chain :=
  { chain with calls := Function.update chain.calls position call }

def setDispatch (chain : Chain) (position : Nat) (call : DispatchCall) : Chain :=
  { chain with dispatches := Function.update chain.dispatches position call }

/-- `index = position`. -/
def setIndex (chain : Chain) (position : Nat) : Chain :=
  { chain with index := position }

/-- Call the middleware at a position. -/
def startCall (chain : Chain) (position : Nat) : Chain :=
  { chain.setCall position .running with started := chain.started ++ [position] }

/-- `dispatch(position)` up to its first `await`, with the user code it leaves
on the stack. A second call for a position only returns a rejected promise. -/
def dispatch (chain : Chain) (middlewares : List Middleware) (position : Nat) :
    Chain × List Code :=
  if (position : Int) ≤ chain.index then
    (chain, [])
  else if middlewares.length ≤ position ∨ chain.finished = true then
    ((chain.setIndex position).setDispatch position (.settled .fulfilled), [])
  else
    (((chain.setIndex position).setDispatch position .awaitsHandler).startCall position,
      [.middleware position none])

end Chain

structure State where
  chain : Chain
  handler : HandlerCall
  stack : List Code
  dispatcher : Dispatcher

def State.initial : State where
  chain := .initial
  handler := .notCalled
  stack := []
  dispatcher := .idle

/-- The scheduled pieces of one dispatch. The first group is done by the code
on top of the stack, the second group is started by the event loop. -/
inductive Event where
  | begin
  | callNext
  | finish
  | suspend (awaited : Awaited)
  | complete (completion : Completion)
  | callbackDone
  | resume (position : Nat) (outcome : Outcome)
  | resumeHandler (outcome : Outcome)
  | callback (owner : Option Nat)
  | advance (position : Nat)
  | proceed
deriving DecidableEq, Repr

variable (middlewares : List Middleware)

/-- Whether the middleware at a position declares `next`. -/
def needsNextAt (position : Nat) : Bool :=
  (middlewares[position]?).any Middleware.needsNext

/-- What awaiting `next()` gives a middleware, once it can go on. `NOOP_NEXT`
returns `undefined`. -/
def nextOutcome (chain : Chain) (position : Nat) : Option Outcome :=
  if middlewares.length = 1 then
    some .fulfilled
  else
    match chain.dispatches (position + 1) with
    | .settled outcome => some outcome
    | _ => none

/-- The outcomes with which an awaited promise can wake its code. -/
def wakesWith (chain : Chain) (position : Nat) (outcome : Outcome) : Awaited → Bool
  | .ownNext => nextOutcome middlewares chain position == some outcome
  | .repeatedNext => outcome == .rejected
  | .elsewhere => true

/-- Whether a middleware holds a promise of this kind that it can await. -/
def canAwait (chain : Chain) (position : Nat) : Awaited → Bool
  | .ownNext =>
      needsNextAt middlewares position &&
        (middlewares.length == 1 || chain.dispatches (position + 1) != .notEntered)
  | .repeatedNext =>
      needsNextAt middlewares position && middlewares.length != 1 &&
        decide (((position + 1 : Nat) : Int) ≤ chain.index)
  | .elsewhere => true

/-- What the promise of the runner settled with. -/
def runnerOutcome (chain : Chain) : Option Outcome :=
  if middlewares.length = 1 then
    match chain.calls 0 with
    | .settled outcome => some outcome
    | _ => none
  else
    match chain.dispatches 0 with
    | .settled outcome => some outcome
    | _ => none

namespace State

/-- `if (!res.finished) route.compiledHandler(req, res)`. -/
def startHandler (state : State) : State :=
  if state.chain.finished then
    { state with dispatcher := .responded }
  else
    { state with
      dispatcher := .callsHandler
      handler := .running
      stack := .handler none :: state.stack }

/-- `runMiddlewares` has returned to the dispatcher: a promise is awaited only
while the response is open. -/
def returnFromRunner (state : State) (completion : Option Completion) : State :=
  if middlewares.length = 1 ∧ completion = some .returns then
    state.startHandler
  else if middlewares.length = 1 ∧ completion = some .throws then
    { state with dispatcher := .failed }
  else if state.chain.finished then
    { state with dispatcher := .responded }
  else
    { state with dispatcher := .awaitsMiddlewares }

/-- `compiledHandler` has returned to the dispatcher. -/
def returnFromHandler (state : State) (completion : Option Completion) : State :=
  if completion = some .throws then
    { state with dispatcher := .failed }
  else if completion = some .returns ∨ state.chain.finished = true then
    { state with dispatcher := .responded }
  else
    { state with dispatcher := .awaitsHandler }

/-- The code on top of the stack returns. An empty stack means that it was the
outermost call of the dispatcher, which then goes on. -/
def popStack (state : State) (completion : Option Completion) : State :=
  match state.stack.tail, state.dispatcher with
  | [], .callsMiddlewares =>
      { state with stack := [] }.returnFromRunner middlewares completion
  | [], .callsHandler => { state with stack := [] }.returnFromHandler completion
  | rest, _ => { state with stack := rest }

def withChain (state : State) (chain : Chain) : State :=
  { state with chain := chain }

/-- Run `dispatch(position)` from user code or from the runner. -/
def enter (state : State) (position : Nat) : State :=
  let (chain, code) := state.chain.dispatch middlewares position
  { state with chain := chain, stack := code ++ state.stack }

/-- `route.runMiddlewares(req, res)`, for no, one or many middlewares. -/
def begin (state : State) : State :=
  match middlewares with
  | [] => state.startHandler
  | [_] =>
      { state with
        chain := Chain.initial.startCall 0
        stack := [.middleware 0 none]
        dispatcher := .callsMiddlewares }
  | _ =>
      { state with chain := .initial, dispatcher := .callsMiddlewares }.enter middlewares 0

/-- The running code calls its `next`. -/
def callNext (state : State) : Option State := do
  let code ← state.stack.head?
  let position ← code.nextOwner
  if needsNextAt middlewares position ∧ state.chain.calls position ≠ .notCalled then
    if middlewares.length = 1 then
      some state
    else
      some (state.enter middlewares (position + 1))
  else
    none

/-- The running call ends its turn as suspended or settled. -/
def endTurn (state : State) (call : HandlerCall) (completion : Option Completion) :
    Option State :=
  match state.stack with
  | .middleware position _ :: _ =>
      if state.chain.calls position = .running then
        some ((state.withChain (state.chain.setCall position call)).popStack middlewares
          completion)
      else
        none
  | .handler _ :: _ =>
      if state.handler = .running then
        some ({ state with handler := call }.popStack middlewares completion)
      else
        none
  | _ => none

/-- Whether the running code holds a promise of this kind. -/
def holdsPromise (state : State) (awaited : Awaited) : Bool :=
  match state.stack with
  | .middleware position _ :: _ => canAwait middlewares state.chain position awaited
  | _ => awaited == .elsewhere

/-- The running call awaits a promise that it holds. -/
def suspend (state : State) (awaited : Awaited) : Option State :=
  if state.holdsPromise middlewares awaited then
    state.endTurn middlewares (.suspended awaited) none
  else
    none

/-- Microtask: suspended code of a middleware goes on. -/
def resume (state : State) (position : Nat) (outcome : Outcome) : Option State :=
  match state.chain.calls position with
  | .suspended awaited =>
      if wakesWith middlewares state.chain position outcome awaited then
        some
          { state with
            chain := state.chain.setCall position .running
            stack := [.middleware position (some outcome)] }
      else
        none
  | _ => none

/-- Microtask: suspended code of the route handler goes on. -/
def resumeHandler (state : State) (outcome : Outcome) : Option State :=
  match state.handler with
  | .suspended _ =>
      some { state with handler := .running, stack := [.handler (some outcome)] }
  | _ => none

/-- Work that a middleware or the handler left behind gets its turn. -/
def callback (state : State) : Option Nat → Option State
  | some position =>
      if state.chain.calls position ≠ .notCalled then
        some { state with stack := [.callback (some position)] }
      else
        none
  | none =>
      if state.handler ≠ .notCalled then
        some { state with stack := [.callback none] }
      else
        none

/-- Microtask: `dispatch(position)` goes on after one of its `await`s. -/
def advance (state : State) (position : Nat) : Option State :=
  match state.chain.dispatches position, state.chain.calls position with
  | .awaitsHandler, .settled .rejected =>
      some (state.withChain (state.chain.setDispatch position (.settled .rejected)))
  | .awaitsHandler, .settled .fulfilled =>
      if needsNextAt middlewares position ∨ state.chain.finished = true then
        some (state.withChain (state.chain.setDispatch position (.settled .fulfilled)))
      else if ((position + 1 : Nat) : Int) ≤ state.chain.index then
        some (state.withChain (state.chain.setDispatch position (.settled .rejected)))
      else
        some ((state.withChain (state.chain.setDispatch position .awaitsNext)).enter
          middlewares (position + 1))
  | .awaitsNext, _ =>
      match state.chain.dispatches (position + 1) with
      | .settled outcome =>
          some (state.withChain (state.chain.setDispatch position (.settled outcome)))
      | _ => none
  | _, _ => none

/-- Microtask: the dispatcher goes on after one of its `await`s. -/
def proceed (state : State) : Option State :=
  match state.dispatcher with
  | .awaitsMiddlewares =>
      match runnerOutcome middlewares state.chain with
      | some .fulfilled => some state.startHandler
      | some .rejected => some { state with dispatcher := .failed }
      | none => none
  | .awaitsHandler =>
      match state.handler with
      | .settled .fulfilled => some { state with dispatcher := .responded }
      | .settled .rejected => some { state with dispatcher := .failed }
      | _ => none
  | _ => none

/-- The dispatcher has released `req` and `res`. -/
def released (state : State) : Bool :=
  state.dispatcher == .responded || state.dispatcher == .failed

/-- One scheduled piece of the dispatch. -/
def step (state : State) (event : Event) : Option State :=
  if state.released then
    none
  else
    match event with
    | .begin => if state.dispatcher = .idle then some (state.begin middlewares) else none
    | .callNext => state.callNext middlewares
    | .finish =>
        if state.stack = [] then none
        else some (state.withChain { state.chain with finished := true })
    | .suspend awaited => state.suspend middlewares awaited
    | .complete completion =>
        state.endTurn middlewares (.settled completion.outcome) (some completion)
    | .callbackDone =>
        match state.stack with
        | .callback _ :: _ => some (state.popStack middlewares none)
        | _ => none
    | .resume position outcome =>
        if state.stack = [] then state.resume middlewares position outcome else none
    | .resumeHandler outcome =>
        if state.stack = [] then state.resumeHandler outcome else none
    | .callback owner => if state.stack = [] then state.callback owner else none
    | .advance position =>
        if state.stack = [] then state.advance middlewares position else none
    | .proceed => if state.stack = [] then state.proceed middlewares else none

end State

/-- The dispatch of one request to a route with these middlewares. -/
def machine : Machine State Event where
  start := .initial
  step := State.step middlewares

end MiddlewareRunner

end HttpNative
