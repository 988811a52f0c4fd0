import HttpNative.Dispatch.HandlerOrder

/-!
# Code after `await next()`

An `await next()` waits for the middlewares behind it and throws what they
throw. The dispatcher starts the route handler after the chain, so the code
after the `await` has run by then, and a failing handler reaches the error
handlers without passing through the chain.
-/

namespace HttpNative

namespace MiddlewareRunner

variable {middlewares : List Middleware}

namespace Chain

variable {chain : Chain}

/-- The middleware at a position has failed, or it is a plain one and one
behind it has failed. -/
inductive FailsFrom (middlewares : List Middleware) (chain : Chain) : Nat → Prop
  | here {i : Nat} : chain.calls i = .settled .rejected → FailsFrom middlewares chain i
  | behind {i : Nat} :
      chain.calls i = .settled .fulfilled → needsNextAt middlewares i = false →
      FailsFrom middlewares chain (i + 1) → FailsFrom middlewares chain i

theorem FailsFrom.isCalled {i : Nat} (fails : chain.FailsFrom middlewares i) :
    chain.calls i ≠ .notCalled := by
  cases fails with
  | here isRejected => simp [isRejected]
  | behind isFulfilled => simp [isFulfilled]

/-- A rejected `dispatch(i)` has a failure behind it to pass on. -/
theorem Ordered.failsFrom_of_rejected
    (ordered : chain.Ordered middlewares) {i : Nat}
    (isRejected : chain.dispatches i = .settled .rejected) :
    chain.FailsFrom middlewares i := by
  have justified := ordered.justified i
  rw [isRejected] at justified
  obtain callRejected | ⟨isFulfilled, auto, nextRejected⟩ := justified
  · exact .here callRejected
  · have within : i < middlewares.length := by
      by_contra behind
      simp [ordered.calls_behind (Nat.le_of_not_lt behind)] at isFulfilled
    exact .behind isFulfilled auto (ordered.failsFrom_of_rejected nextRejected)
termination_by middlewares.length - i

/-- A failure is never turned into a fulfilled `dispatch(i)`. -/
theorem Ordered.not_fulfilled_of_failsFrom
    (ordered : chain.Ordered middlewares) {i : Nat}
    (fails : chain.FailsFrom middlewares i) :
    chain.dispatches i ≠ .settled .fulfilled := by
  induction fails with
  | @here i isRejected =>
      intro isFulfilled
      have justified := ordered.justified i
      rw [isFulfilled] at justified
      simp [Justified, isRejected] at justified
  | @behind i callFulfilled auto fails inductionHypothesis =>
      intro isFulfilled
      have justified := ordered.justified i
      rw [isFulfilled] at justified
      obtain ⟨notCalled, -⟩ | ⟨-, needsNext | nextFulfilled | ⟨-, notEntered⟩⟩ := justified
      · simp [callFulfilled] at notCalled
      · simp [auto] at needsNext
      · exact inductionHypothesis nextFulfilled
      · -- a middleware behind was called, so its `dispatch` was entered
        have several : middlewares.length ≠ 1 := by
          intro single
          have := (ordered.called (i + 1)).mp fails.isCalled
          have := ordered.withinList
          omega
        have called := (ordered.called (i + 1)).mp fails.isCalled
        have entered : ((i + 1 : Nat) : Int) ≤ chain.index := by
          have := ordered.behindIndex several
          omega
        exact (ordered.entered (i + 1)).mpr entered notEntered

/-- What code that goes on after `await next()` finds: the middleware behind
it has settled or will not be called, and the `await` throws exactly when
there was a failure to pass on. -/
structure AfterNext (middlewares : List Middleware) (chain : Chain) (i : Nat)
    (outcome : Outcome) : Prop where
  settled :
    (∃ behind, chain.calls (i + 1) = .settled behind) ∨
      (chain.calls (i + 1) = .notCalled ∧
        (chain.finished = true ∨ middlewares.length ≤ i + 1))
  throws : outcome = .rejected ↔ chain.FailsFrom middlewares (i + 1)

theorem Ordered.afterNext
    (ordered : chain.Ordered middlewares) {i : Nat} {outcome : Outcome}
    (awaited : nextOutcome middlewares chain i = some outcome) :
    chain.AfterNext middlewares i outcome := by
  unfold nextOutcome at awaited
  split at awaited
  case isTrue single =>
    cases awaited
    have notCalled : chain.calls (i + 1) = .notCalled := ordered.calls_behind (by omega)
    refine ⟨.inr ⟨notCalled, .inr (by omega)⟩, iff_of_false nofun ?_⟩
    exact fun fails => fails.isCalled notCalled
  case isFalse =>
    split at awaited
    · next isSettled =>
      cases awaited
      have justified := ordered.justified (i + 1)
      rw [isSettled] at justified
      cases outcome with
      | fulfilled =>
          refine ⟨?_, iff_of_false nofun fun fails =>
            ordered.not_fulfilled_of_failsFrom fails isSettled⟩
          obtain skipped | ⟨isFulfilled, -⟩ := justified
          · exact .inr skipped
          · exact .inl ⟨_, isFulfilled⟩
      | rejected =>
          refine ⟨.inl ?_, iff_of_true rfl (ordered.failsFrom_of_rejected isSettled)⟩
          obtain isRejected | ⟨isFulfilled, -⟩ := justified
          · exact ⟨_, isRejected⟩
          · exact ⟨_, isFulfilled⟩
    · cases awaited

end Chain

/-! ## The chain and the handler in one run -/

namespace State

/-- A step lets the middleware at `i` go on after `await next()`. -/
def resumesAfterNext (middlewares : List Middleware) (state : State) (i : Nat)
    (outcome : Outcome) : Prop :=
  state.chain.calls i = .suspended .ownNext ∧
    ∃ next, (machine middlewares).step state (.resume i outcome) = some next

theorem nextOutcome_of_resumes
    {state : State} {i : Nat} {outcome : Outcome}
    (resumes : state.resumesAfterNext middlewares i outcome) :
    nextOutcome middlewares state.chain i = some outcome := by
  obtain ⟨isSuspended, next, stepEq⟩ := resumes
  simp only [machine, step, resume, isSuspended] at stepEq
  split at stepEq
  · cases stepEq
  · split at stepEq
    · split at stepEq
      · next wakes => exact eq_of_beq wakes
      · cases stepEq
    · cases stepEq

end State

/-- After `await next()` gave a value with the response open, every later
middleware of a well-conducted run is through. -/
theorem passed_of_resumes
    {state : State} {i : Nat}
    (reaches : (machine middlewares).ReachesUnder (WellConducted middlewares) state)
    (resumes : state.resumesAfterNext middlewares i .fulfilled)
    (isOpen : state.chain.finished = false)
    {later : Nat} (follows : i < later) (within : later < middlewares.length) :
    state.chain.calls later = .settled .fulfilled := by
  have ordered := State.ordered_of_reaches reaches.reaches
  have several : middlewares.length ≠ 1 := by omega
  have awaited := State.nextOutcome_of_resumes resumes
  simp only [nextOutcome, if_neg several] at awaited
  split at awaited
  · next isSettled =>
    cases awaited
    have passed := ordered.chain.passed_from (conducted_of_reaches reaches) isOpen isSettled
      follows within
    exact passed.1
  · cases awaited

/-- The handler starts after the promise of the runner has fulfilled, so after
the first middleware has settled. -/
theorem first_of_startsHandler
    {state next : State} {event : Event}
    (reaches : (machine middlewares).Reaches state)
    (stepEq : state.step middlewares event = some next)
    (starts : state.startsHandler next)
    (notEmpty : 0 < middlewares.length) :
    next.chain.finished = false ∧ runnerOutcome middlewares next.chain = some .fulfilled ∧
      next.chain.calls 0 = .settled .fulfilled := by
  have ordered := State.ordered_of_reaches reaches
  obtain ⟨isOpen, runner⟩ := (State.step_effect ordered stepEq).starts starts
  have runnerEq := runner.resolve_left (by omega)
  refine ⟨isOpen, runnerEq, ?_⟩
  unfold runnerOutcome at runnerEq
  split at runnerEq
  · split at runnerEq
    · next isSettled =>
      cases runnerEq
      exact isSettled
    · cases runnerEq
  · split at runnerEq
    · next isSettled =>
      cases runnerEq
      have orderedNext := (State.step_ordered ordered stepEq).chain
      exact (orderedNext.passed_of_fulfilled isOpen notEmpty isSettled).1
    · cases runnerEq

/-- In a well-conducted run every middleware has ended normally from the start
of the handler on. -/
theorem fulfilled_of_handlerCalled
    {state : State}
    (reaches : (machine middlewares).ReachesUnder (WellConducted middlewares) state)
    (isCalled : state.handler ≠ .notCalled)
    {i : Nat} (within : i < middlewares.length) :
    state.chain.calls i = .settled .fulfilled := by
  induction reaches with
  | start => exact absurd rfl isCalled
  | @step state next event before meets stepEq inductionHypothesis =>
      have ordered := State.ordered_of_reaches before.reaches
      have effect := State.step_effect ordered stepEq
      by_cases notCalled : state.handler = .notCalled
      · have starts : state.startsHandler next := ⟨notCalled, isCalled⟩
        obtain ⟨isOpen, runner⟩ := effect.starts starts
        have after := before.step meets stepEq
        have orderedNext := State.ordered_of_reaches after.reaches
        exact orderedNext.chain.fulfilled_of_runner (conducted_of_reaches after) isOpen
          (runner.resolve_left (by omega)) within
      · exact (effect.move.later ordered.chain).calls i _ (inductionHypothesis notCalled)

/-- The first middleware of the pair, about to go on after its `await next()`. -/
def beforeAfterNext : List Event :=
  [.begin, .callNext, .complete .resolves, .suspend .ownNext, .advance 1, .advance 1]

end MiddlewareRunner

end HttpNative
