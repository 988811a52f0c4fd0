import Mathlib.Data.Nat.Init
import HttpNative.Dispatch.MiddlewareOrder

/-!
# When the handler runs

The route handler starts once the promise of the runner has fulfilled and the
response is open. In runs whose next-aware middlewares end only after the
middleware behind them has, every middleware has then ended normally. Code
after an `await next()` waits for the middlewares behind it and never for the
handler.
-/

namespace HttpNative

namespace MiddlewareRunner

variable {middlewares : List Middleware}

/-! ## What a step does -/

namespace State

/-- The middleware whose call a step ends normally. -/
def completed (state : State) : Event → Option Nat
  | .complete completion =>
      match state.stack with
      | .middleware position _ :: _ =>
          if completion.outcome = .fulfilled then some position else none
      | _ => none
  | _ => none

/-- The chain of a state is ordered, and nothing has happened before the
dispatcher calls the runner. -/
structure Ordered (middlewares : List Middleware) (state : State) : Prop where
  chain : state.chain.Ordered middlewares
  idle : state.dispatcher = .idle → state = .initial

theorem ordered_initial : State.initial.Ordered middlewares :=
  ⟨Chain.ordered_initial, fun _ => rfl⟩

@[simp] theorem startHandler_chain (state : State) :
    state.startHandler.chain = state.chain := by
  unfold startHandler
  split <;> rfl

@[simp] theorem returnFromRunner_chain (state : State) (completion : Option Completion) :
    (state.returnFromRunner middlewares completion).chain = state.chain := by
  unfold returnFromRunner
  split
  · exact startHandler_chain state
  · split
    · rfl
    · split <;> rfl

@[simp] theorem returnFromHandler_chain (state : State) (completion : Option Completion) :
    (state.returnFromHandler completion).chain = state.chain := by
  unfold returnFromHandler
  split
  · rfl
  · split <;> rfl

@[simp] theorem popStack_chain (state : State) (completion : Option Completion) :
    (state.popStack middlewares completion).chain = state.chain := by
  unfold popStack
  split <;> simp

/-- Before the dispatcher calls the runner nothing else can happen. -/
theorem step_initial
    {next : State} {event : Event}
    (stepEq : State.initial.step middlewares event = some next) :
    event = .begin := by
  cases event with
  | callback owner => cases owner <;> cases stepEq
  | suspend awaited => cases awaited <;> cases stepEq
  | _ => first | rfl | cases stepEq

theorem startHandler_dispatcher (state : State) :
    state.startHandler.dispatcher ≠ .idle := by
  unfold startHandler
  split <;> nofun

theorem popStack_dispatcher
    {state : State} (completion : Option Completion) (begun : state.dispatcher ≠ .idle) :
    (state.popStack middlewares completion).dispatcher ≠ .idle := by
  unfold popStack
  split
  · unfold returnFromRunner
    split
    · exact startHandler_dispatcher _
    · split
      · nofun
      · split <;> nofun
  · unfold returnFromHandler
    split
    · nofun
    · split <;> nofun
  · exact begun

/-- The step that starts the route handler. -/
def startsHandler (state next : State) : Prop :=
  state.handler = .notCalled ∧ next.handler ≠ .notCalled

theorem returnFromRunner_handler
    {state : State} {completion : Option Completion}
    (before : state.handler = .notCalled)
    (starts : (state.returnFromRunner middlewares completion).handler ≠ .notCalled) :
    state.chain.finished = false ∧ middlewares.length = 1 ∧ completion = some .returns := by
  unfold returnFromRunner at starts
  split at starts
  case isTrue returned =>
    unfold startHandler at starts
    split at starts
    · exact absurd before starts
    · next isOpen => exact ⟨by simpa using isOpen, returned⟩
  case isFalse =>
    split at starts
    · exact absurd before starts
    · split at starts <;> exact absurd before starts

theorem returnFromHandler_handler (state : State) (completion : Option Completion) :
    (state.returnFromHandler completion).handler = state.handler := by
  unfold returnFromHandler
  split
  · rfl
  · split <;> rfl

theorem popStack_handler
    {state : State} {completion : Option Completion}
    (before : state.handler = .notCalled)
    (starts : (state.popStack middlewares completion).handler ≠ .notCalled) :
    state.chain.finished = false ∧ middlewares.length = 1 ∧ completion = some .returns := by
  unfold popStack at starts
  split at starts
  · exact @returnFromRunner_handler _ { state with stack := [] } _ before starts
  · rw [returnFromHandler_handler] at starts
    exact absurd before starts
  · exact absurd before starts

/-- What a step does to a state: a move of the chain, and the start of the
handler only while the response is open and the runner has fulfilled. -/
structure Effect (middlewares : List Middleware) (fulfils : Nat → Prop)
    (state next : State) : Prop where
  move : state.chain.Move middlewares fulfils next.chain
  begun : next.dispatcher ≠ .idle
  starts : state.startsHandler next →
    next.chain.finished = false ∧
      (middlewares.length = 0 ∨ runnerOutcome middlewares next.chain = some .fulfilled)

/-- A step that leaves the route handler alone. -/
theorem Effect.quiet
    {fulfils : Nat → Prop} {state next : State}
    (begun : next.dispatcher ≠ .idle)
    (handlerEq : state.handler = .notCalled → next.handler = .notCalled)
    (move : state.chain.Move middlewares fulfils next.chain) :
    Effect middlewares fulfils state next :=
  ⟨move, begun, fun starts => absurd (handlerEq starts.1) starts.2⟩

theorem startHandler_effect
    {fulfils : Nat → Prop} {state : State}
    (fulfilled : middlewares.length = 0 ∨
      runnerOutcome middlewares state.chain = some .fulfilled) :
    Effect middlewares fulfils state state.startHandler where
  move := by
    rw [startHandler_chain]
    exact .stay
  begun := startHandler_dispatcher state
  starts := by
    intro starts
    have after := starts.2
    rw [startHandler_chain]
    refine ⟨?_, fulfilled⟩
    unfold startHandler at after
    split at after
    · exact absurd starts.1 after
    · next isOpen => simpa using isOpen

theorem begin_effect {fulfils : Nat → Prop} :
    Effect middlewares fulfils .initial (State.initial.begin middlewares) := by
  unfold begin
  split
  · exact startHandler_effect (.inl rfl)
  · exact .quiet nofun (fun _ => rfl) (.single rfl rfl)
  · next notEmpty notSingle =>
    refine .quiet nofun (fun _ => rfl) (.first ?_ rfl)
    intro single
    obtain ⟨middleware, rfl⟩ := List.length_eq_one_iff.mp single
    exact notSingle middleware rfl

/-- The turn of a call ends, suspended or settled. -/
theorem endTurn_effect
    {state next : State} {call : HandlerCall} {completion : Option Completion}
    {fulfils : Nat → Prop}
    (ordered : state.chain.Ordered middlewares)
    (begun : state.dispatcher ≠ .idle)
    (callNe : call ≠ .notCalled)
    (returns : completion = some .returns → call = .settled .fulfilled)
    (ends : ∀ i resumedWith rest, state.stack = .middleware i resumedWith :: rest →
      call = .settled .fulfilled → fulfils i)
    (turnEq : state.endTurn middlewares call completion = some next) :
    Effect middlewares fulfils state next := by
  unfold endTurn at turnEq
  split at turnEq
  · next i resumedWith rest stackEq =>
    split at turnEq
    · next isRunning =>
      cases turnEq
      refine ⟨?_, popStack_dispatcher completion begun, fun starts => ?_⟩
      · rw [popStack_chain]
        exact .turn i call isRunning callNe (ends i resumedWith rest stackEq)
      · obtain ⟨isOpen, single, returned⟩ :=
          @popStack_handler _ (state.withChain (state.chain.setCall i call)) _
            starts.1 starts.2
        have isFirst : i = 0 := by
          have := (ordered.called i).mp (by simp [isRunning])
          have := ordered.withinList
          omega
        rw [popStack_chain]
        refine ⟨isOpen, .inr ?_⟩
        simp [runnerOutcome, single, withChain, Chain.setCall_calls, isFirst,
          returns returned]
    · cases turnEq
  · split at turnEq
    · next isRunning =>
      cases turnEq
      refine ⟨?_, popStack_dispatcher completion begun, fun starts => ?_⟩
      · rw [popStack_chain]
        exact .stay
      · simp [starts.1] at isRunning
    · cases turnEq
  · cases turnEq

/-- `dispatch(i)` going on is one of the moves. -/
theorem advance_spec
    {state next : State} {i : Nat} {fulfils : Nat → Prop}
    (ordered : state.chain.Ordered middlewares)
    (advanceEq : state.advance middlewares i = some next) :
    state.chain.Move middlewares fulfils next.chain ∧
      next.dispatcher = state.dispatcher ∧ next.handler = state.handler := by
  have justified := ordered.justified i
  unfold advance at advanceEq
  split at advanceEq
  · next awaits isRejected =>
    cases advanceEq
    exact ⟨.settle i .rejected (.inl awaits) (.inl isRejected), rfl, rfl⟩
  · next awaits isFulfilled =>
    rw [awaits] at justified
    split at advanceEq
    · next passes =>
      cases advanceEq
      refine ⟨.settle i .fulfilled (.inl awaits) (.inr ⟨isFulfilled, ?_⟩), rfl, rfl⟩
      by_cases needsNext : needsNextAt middlewares i = true
      · exact .inl needsNext
      · have isFinished := passes.resolve_left needsNext
        exact .inr (.inr ⟨isFinished, justified.2 (by simpa using needsNext)⟩)
    · next goesOn =>
      rw [not_or, Bool.not_eq_true] at goesOn
      split at advanceEq
      · next doubled =>
        exact absurd (justified.2 goesOn.1) ((ordered.entered (i + 1)).mpr doubled)
      · cases advanceEq
        exact ⟨.advance i awaits isFulfilled goesOn.1, rfl, rfl⟩
  · next awaits =>
    rw [awaits] at justified
    split at advanceEq
    · next outcome nextSettled =>
      cases advanceEq
      refine ⟨.settle i outcome (.inr awaits) ?_, rfl, rfl⟩
      cases outcome with
      | fulfilled => exact .inr ⟨justified.1, .inr (.inl nextSettled)⟩
      | rejected => exact .inr ⟨justified.1, justified.2, nextSettled⟩
    · cases advanceEq
  · cases advanceEq

/-- Everything a step does. -/
theorem step_effect
    {state next : State} {event : Event}
    (ordered : state.Ordered middlewares)
    (stepEq : state.step middlewares event = some next) :
    Effect middlewares (fun i => state.completed event = some i) state next := by
  by_cases isIdle : state.dispatcher = .idle
  · obtain rfl := ordered.idle isIdle
    obtain rfl := step_initial stepEq
    cases stepEq
    exact begin_effect
  unfold step at stepEq
  split at stepEq
  · cases stepEq
  cases event with
  | begin => cases stepEq
  | callNext =>
      simp only [callNext, Option.bind_eq_bind, Option.bind_eq_some_iff] at stepEq
      obtain ⟨code, -, i, -, stepEq⟩ := stepEq
      split at stepEq
      case isFalse => cases stepEq
      case isTrue entitled =>
        split at stepEq
        case isTrue =>
          cases stepEq
          exact .quiet isIdle id .stay
        case isFalse several =>
          cases stepEq
          exact .quiet isIdle id (.next i several entitled.1 entitled.2)
  | finish =>
      simp only at stepEq
      split at stepEq <;> cases stepEq
      exact .quiet isIdle id .finish
  | suspend awaited =>
      simp only [suspend] at stepEq
      split at stepEq
      · exact endTurn_effect ordered.chain isIdle (by simp) (by simp) (by simp) stepEq
      · cases stepEq
  | complete completion =>
      refine endTurn_effect ordered.chain isIdle (by simp) ?_ ?_ stepEq
      · intro returned
        cases returned
        rfl
      · intro i resumedWith rest stackEq isFulfilled
        simp only [HandlerCall.settled.injEq] at isFulfilled
        simp only [completed, stackEq, if_pos isFulfilled]
  | callbackDone =>
      simp only at stepEq
      split at stepEq <;> cases stepEq
      refine ⟨?_, popStack_dispatcher none isIdle, fun starts => ?_⟩
      · rw [popStack_chain]
        exact .stay
      · obtain ⟨-, -, returned⟩ := popStack_handler starts.1 starts.2
        cases returned
  | resume i outcome =>
      simp only [resume] at stepEq
      split at stepEq
      · split at stepEq
        · next awaited isSuspended =>
          split at stepEq <;> cases stepEq
          exact .quiet isIdle id (.wake i awaited isSuspended)
        · cases stepEq
      · cases stepEq
  | resumeHandler outcome =>
      simp only [resumeHandler] at stepEq
      split at stepEq
      · split at stepEq <;> cases stepEq
        next isSuspended =>
        exact .quiet isIdle (fun before => by simp [before] at isSuspended) .stay
      · cases stepEq
  | callback owner =>
      simp only [callback] at stepEq
      split at stepEq
      · split at stepEq <;> split at stepEq <;> cases stepEq <;> exact .quiet isIdle id .stay
      · cases stepEq
  | advance i =>
      simp only at stepEq
      split at stepEq
      · obtain ⟨move, dispatcherEq, handlerEq⟩ := advance_spec ordered.chain stepEq
        exact .quiet (dispatcherEq ▸ isIdle) handlerEq.trans move
      · cases stepEq
  | proceed =>
      simp only [proceed] at stepEq
      split at stepEq
      · split at stepEq
        · split at stepEq <;> cases stepEq
          · next runnerEq => exact startHandler_effect (.inr runnerEq)
          · exact .quiet (by simp) id .stay
        · split at stepEq <;> cases stepEq <;> exact .quiet (by simp) id .stay
        · cases stepEq
      · cases stepEq

/-! ## The invariant over runs -/

theorem step_ordered
    {state next : State} {event : Event}
    (ordered : state.Ordered middlewares)
    (stepEq : state.step middlewares event = some next) :
    next.Ordered middlewares :=
  have effect := step_effect ordered stepEq
  ⟨effect.move.ordered ordered.chain, fun isIdle => absurd isIdle effect.begun⟩

/-- The invariant holds in every run. -/
theorem ordered_of_reaches
    {state : State} (reaches : (machine middlewares).Reaches state) :
    state.Ordered middlewares :=
  reaches.invariant ordered_initial fun _ _ _ ordered _ stepEq => step_ordered ordered stepEq

end State

/-! ## Conduct of next-aware middlewares -/

namespace Chain

/-- The middleware at `i` has ended normally, and with it the wait for those
behind it that `dispatch(i)` does on its behalf. -/
def Passed (middlewares : List Middleware) (chain : Chain) (i : Nat) : Prop :=
  chain.calls i = .settled .fulfilled ∧
    (needsNextAt middlewares i = true ∨ middlewares.length ≤ i + 1 ∨
      chain.dispatches i = .settled .fulfilled)

instance (chain : Chain) (i : Nat) : Decidable (chain.Passed middlewares i) :=
  inferInstanceAs (Decidable (_ ∧ _))

/-- When the middleware at `i` takes `next`, the one behind it is through or
the response is finished. -/
def NextDone (middlewares : List Middleware) (chain : Chain) (i : Nat) : Prop :=
  needsNextAt middlewares i = true → i + 1 < middlewares.length →
    chain.finished = true ∨ chain.Passed middlewares (i + 1)

instance (chain : Chain) (i : Nat) : Decidable (chain.NextDone middlewares i) :=
  inferInstanceAs (Decidable (_ → _))

/-- Every middleware that ended normally left the one behind it done. -/
def Conducted (middlewares : List Middleware) (chain : Chain) : Prop :=
  ∀ i, chain.calls i = .settled .fulfilled → chain.NextDone middlewares i

variable {before after chain : Chain}

theorem Passed.later {i : Nat}
    (passed : before.Passed middlewares i) (later : before.Later after) :
    after.Passed middlewares i :=
  ⟨later.calls i _ passed.1, passed.2.imp_right (Or.imp_right (later.dispatches i _))⟩

theorem NextDone.later {i : Nat}
    (nextDone : before.NextDone middlewares i) (later : before.Later after) :
    after.NextDone middlewares i :=
  fun needsNext notLast =>
    (nextDone needsNext notLast).imp later.finished fun passed => passed.later later

theorem Ordered.calls_behind
    (ordered : chain.Ordered middlewares) {i : Nat} (behind : middlewares.length ≤ i) :
    chain.calls i = .notCalled := by
  by_contra isCalled
  have := (ordered.called i).mp isCalled
  have := ordered.withinList
  omega

/-- A fulfilled `dispatch(i)` of an open response has its middleware through. -/
theorem Ordered.passed_of_fulfilled
    (ordered : chain.Ordered middlewares)
    (isOpen : chain.finished = false)
    {i : Nat} (within : i < middlewares.length)
    (isFulfilled : chain.dispatches i = .settled .fulfilled) :
    chain.Passed middlewares i := by
  have justified := ordered.justified i
  rw [isFulfilled] at justified
  obtain ⟨-, isFinished | behind⟩ | ⟨callFulfilled, -⟩ := justified
  · simp [isOpen] at isFinished
  · omega
  · exact ⟨callFulfilled, .inr (.inr isFulfilled)⟩

/-- From one middleware that is through to the next one. -/
theorem Ordered.passed_succ
    (ordered : chain.Ordered middlewares)
    (conducted : chain.Conducted middlewares)
    (isOpen : chain.finished = false)
    {i : Nat} (within : i + 1 < middlewares.length)
    (passed : chain.Passed middlewares i) :
    chain.Passed middlewares (i + 1) := by
  obtain ⟨callFulfilled, needsNext | isLast | isFulfilled⟩ := passed
  · have nextDone := conducted i callFulfilled needsNext within
    exact nextDone.resolve_left (by simp [isOpen])
  · omega
  · have justified := ordered.justified i
    rw [isFulfilled] at justified
    obtain ⟨notCalled, -⟩ | ⟨-, needsNext | nextFulfilled | ⟨isFinished, -⟩⟩ := justified
    · simp [callFulfilled] at notCalled
    · have nextDone := conducted i callFulfilled needsNext within
      exact nextDone.resolve_left (by simp [isOpen])
    · exact ordered.passed_of_fulfilled isOpen within nextFulfilled
    · simp [isOpen] at isFinished

/-- Once `dispatch(first)` has fulfilled with the response open, every
middleware from there on is through. -/
theorem Ordered.passed_from
    (ordered : chain.Ordered middlewares)
    (conducted : chain.Conducted middlewares)
    (isOpen : chain.finished = false)
    {first : Nat} (isFulfilled : chain.dispatches first = .settled .fulfilled)
    {i : Nat} (follows : first ≤ i) (within : i < middlewares.length) :
    chain.Passed middlewares i := by
  induction i, follows using Nat.le_induction with
  | base => exact ordered.passed_of_fulfilled isOpen within isFulfilled
  | succ i _ inductionHypothesis =>
      exact ordered.passed_succ conducted isOpen within (inductionHypothesis (by omega))

/-- Awaiting `next()` is good conduct: when it gives a value, the middleware
behind is done. -/
theorem Ordered.nextDone_of_awaited
    (ordered : chain.Ordered middlewares) {i : Nat}
    (awaited : nextOutcome middlewares chain i = some .fulfilled) :
    chain.NextDone middlewares i := by
  intro _ notLast
  have several : middlewares.length ≠ 1 := by omega
  simp only [nextOutcome, if_neg several] at awaited
  split at awaited
  · next outcome isSettled =>
    cases awaited
    by_cases isFinished : chain.finished = true
    · exact .inl isFinished
    · exact .inr (ordered.passed_of_fulfilled (by simpa using isFinished) notLast isSettled)
  · cases awaited

end Chain

/-- The condition on a step: a next-aware middleware that ends normally while
the response is open leaves the middleware behind it done. -/
def WellConducted (middlewares : List Middleware) (state : State) (event : Event) : Prop :=
  ∀ i ∈ state.completed event, state.chain.NextDone middlewares i

instance (state : State) (event : Event) :
    Decidable (WellConducted middlewares state event) :=
  inferInstanceAs (Decidable (∀ i ∈ state.completed event, _))

theorem step_conducted
    {state next : State} {event : Event}
    (ordered : state.Ordered middlewares)
    (conducted : state.chain.Conducted middlewares)
    (meets : WellConducted middlewares state event)
    (stepEq : state.step middlewares event = some next) :
    next.chain.Conducted middlewares := by
  have move := (State.step_effect ordered stepEq).move
  have later := move.later ordered.chain
  intro i isFulfilled
  obtain before | ends := move.fulfilled isFulfilled
  · exact (conducted i before).later later
  · exact (meets i ends).later later

theorem conducted_of_reaches
    {state : State}
    (reaches : (machine middlewares).ReachesUnder (WellConducted middlewares) state) :
    state.chain.Conducted middlewares :=
  reaches.invariant_with (fun _ before => State.ordered_of_reaches before.reaches) nofun
    fun _ _ _ ordered conducted meets stepEq =>
      step_conducted ordered conducted meets stepEq

/-! ## All middlewares are through when the handler starts -/

/-- A call has settled without rejecting, or waits for its own `next()` only. -/
def HandlerCall.AtRest (call : HandlerCall) : Prop :=
  call = .settled .fulfilled ∨ call = .suspended .ownNext ∨ call = .suspended .repeatedNext

/-- What the handler may rely on: every middleware has been called in
registration order and is at rest, and none has finished the response. -/
structure Chain.ReadyForHandler (middlewares : List Middleware) (chain : Chain) : Prop where
  inOrder : chain.started = List.range middlewares.length
  atRest : ∀ i, i < middlewares.length → (chain.calls i).AtRest
  isOpen : chain.finished = false

theorem Chain.Ordered.fulfilled_of_runner
    {chain : Chain}
    (ordered : chain.Ordered middlewares)
    (conducted : chain.Conducted middlewares)
    (isOpen : chain.finished = false)
    (runnerEq : runnerOutcome middlewares chain = some .fulfilled)
    {i : Nat} (within : i < middlewares.length) :
    chain.calls i = .settled .fulfilled := by
  unfold runnerOutcome at runnerEq
  split at runnerEq
  case isTrue single =>
    obtain rfl : i = 0 := by omega
    split at runnerEq
    · next outcome isSettled =>
      cases runnerEq
      exact isSettled
    · cases runnerEq
  case isFalse =>
    split at runnerEq
    · next outcome isSettled =>
      cases runnerEq
      exact (ordered.passed_from conducted isOpen isSettled (Nat.zero_le i) within).1
    · cases runnerEq

theorem Chain.Ordered.started_of_all
    {chain : Chain}
    (ordered : chain.Ordered middlewares)
    (all : ∀ i, i < middlewares.length → chain.calls i ≠ .notCalled) :
    chain.started = List.range middlewares.length := by
  have lengthEq : chain.started.length = middlewares.length := by
    have within := ordered.withinList
    by_contra differs
    have := (ordered.called chain.started.length).mp (all _ (by omega))
    omega
  rw [← lengthEq]
  exact ordered.inOrder

/-- In a run of well-conducted steps the handler starts only when every
middleware has been called in order and has ended normally. -/
theorem readyForHandler_of_wellConducted
    {state next : State} {event : Event}
    (reaches : (machine middlewares).ReachesUnder (WellConducted middlewares) state)
    (meets : WellConducted middlewares state event)
    (stepEq : (machine middlewares).step state event = some next)
    (starts : state.startsHandler next) :
    next.chain.ReadyForHandler middlewares := by
  have reachesNext := reaches.step meets stepEq
  have ordered := State.ordered_of_reaches reachesNext.reaches
  have conducted := conducted_of_reaches reachesNext
  obtain ⟨isOpen, runner⟩ :=
    (State.step_effect (State.ordered_of_reaches reaches.reaches) stepEq).starts starts
  have fulfilled : ∀ i, i < middlewares.length → next.chain.calls i = .settled .fulfilled := by
    intro i within
    obtain isEmpty | runnerEq := runner
    · omega
    · exact ordered.chain.fulfilled_of_runner conducted isOpen runnerEq within
  exact
    { inOrder := ordered.chain.started_of_all fun i within => by simp [fulfilled i within]
      atRest := fun i within => .inl (fulfilled i within)
      isOpen := isOpen }

/-- A next-aware middleware that awaits `next()` in front of a plain one. -/
def awaitingMiddlewares : List Middleware :=
  [⟨3⟩, ⟨2⟩]

/-- Where a schedule of theirs ends. -/
def stateAfter (events : List Event) : State :=
  ((machine awaitingMiddlewares).runFrom (WellConducted awaitingMiddlewares) .initial
    events).getD .initial

/-- The first middleware awaits its `next()`, up to the settled runner. -/
def awaitingEvents : List Event :=
  [.begin, .callNext, .complete .resolves, .suspend .ownNext, .advance 1, .advance 1,
    .resume 0 .fulfilled, .complete .resolves, .advance 0]

theorem readyForHandler_of_wellConducted_awaiting :
    (stateAfter awaitingEvents).startsHandler (stateAfter (awaitingEvents ++ [.proceed])) ∧
      (stateAfter (awaitingEvents ++ [.proceed])).chain.ReadyForHandler
        awaitingMiddlewares := by
  have reaches : (machine awaitingMiddlewares).ReachesUnder
      (WellConducted awaitingMiddlewares) (stateAfter awaitingEvents) :=
    Machine.reachesUnder_of_run awaitingEvents rfl
  have meets : WellConducted awaitingMiddlewares (stateAfter awaitingEvents) .proceed := nofun
  have starts :
      (stateAfter awaitingEvents).startsHandler (stateAfter (awaitingEvents ++ [.proceed])) :=
    ⟨by decide, by decide⟩
  exact ⟨starts, readyForHandler_of_wellConducted reaches meets rfl starts⟩

/-- A next-aware middleware that ends without calling `next` lets the handler
start before the middleware behind it has been called. -/
theorem not_readyForHandler_of_missingNext :
    ¬ ∀ (middlewares : List Middleware) (state next : State) (event : Event),
      (machine middlewares).Reaches state →
      (machine middlewares).step state event = some next →
      state.startsHandler next →
      next.chain.ReadyForHandler middlewares := by
  intro always
  have reaches : (machine awaitingMiddlewares).Reaches _ :=
    Machine.reachesUnder_of_run [.begin, .complete .returns, .advance 0] rfl
  have ready := always awaitingMiddlewares _ _ .proceed reaches rfl ⟨rfl, by decide⟩
  exact absurd ready.inOrder (by decide)

end MiddlewareRunner

end HttpNative
