import HttpNative.Dispatch.MiddlewareRunner

/-!
# Order of middlewares and handler

What every run of the middleware runner keeps: middlewares are called in
registration order, and the promise of `dispatch(position)` settles only after
the middleware at that position has. What a next-aware middleware does with
its `next` is its own affair, so the handler is known to run after all
middlewares only in runs whose middlewares conduct themselves.
-/

namespace HttpNative

namespace MiddlewareRunner

variable {middlewares : List Middleware}

/-! ## The invariant of the chain -/

/-- What the state of `dispatch(i)` says about the calls at and after `i`. -/
def Chain.Justified (middlewares : List Middleware) (chain : Chain) (i : Nat) :
    DispatchCall → Prop
  | .notEntered => True
  | .awaitsHandler =>
      chain.calls i ≠ .notCalled ∧
        (needsNextAt middlewares i = false → chain.dispatches (i + 1) = .notEntered)
  | .awaitsNext =>
      chain.calls i = .settled .fulfilled ∧ needsNextAt middlewares i = false
  | .settled .fulfilled =>
      (chain.calls i = .notCalled ∧ (chain.finished = true ∨ middlewares.length ≤ i)) ∨
        (chain.calls i = .settled .fulfilled ∧
          (needsNextAt middlewares i = true ∨
            chain.dispatches (i + 1) = .settled .fulfilled ∨
            (chain.finished = true ∧ chain.dispatches (i + 1) = .notEntered)))
  | .settled .rejected =>
      chain.calls i = .settled .rejected ∨
        (chain.calls i = .settled .fulfilled ∧ needsNextAt middlewares i = false ∧
          chain.dispatches (i + 1) = .settled .rejected)

/-- What holds of the calls of one run at any moment. -/
structure Chain.Ordered (middlewares : List Middleware) (chain : Chain) : Prop where
  inOrder : chain.started = List.range chain.started.length
  called : ∀ i, chain.calls i ≠ .notCalled ↔ i < chain.started.length
  withinList : chain.started.length ≤ middlewares.length
  entered : ∀ i, chain.dispatches i ≠ .notEntered ↔ (i : Int) ≤ chain.index
  behindIndex : middlewares.length ≠ 1 → chain.started.length ≤ chain.index + 1
  unused : middlewares.length = 1 → chain.index = -1
  justified : ∀ i, chain.Justified middlewares i (chain.dispatches i)

/-- A later moment of the same run: what has settled stays as it is, and a
finished response stays finished. -/
structure Chain.Later (before after : Chain) : Prop where
  finished : before.finished = true → after.finished = true
  calls : ∀ i outcome, before.calls i = .settled outcome → after.calls i = .settled outcome
  dispatches : ∀ i outcome,
    before.dispatches i = .settled outcome → after.dispatches i = .settled outcome

namespace Chain

@[simp] theorem setCall_index (chain : Chain) (i : Nat) (call : HandlerCall) :
    (chain.setCall i call).index = chain.index := rfl

@[simp] theorem setCall_dispatches (chain : Chain) (i : Nat) (call : HandlerCall) :
    (chain.setCall i call).dispatches = chain.dispatches := rfl

@[simp] theorem setCall_finished (chain : Chain) (i : Nat) (call : HandlerCall) :
    (chain.setCall i call).finished = chain.finished := rfl

@[simp] theorem setCall_started (chain : Chain) (i : Nat) (call : HandlerCall) :
    (chain.setCall i call).started = chain.started := rfl

theorem setCall_calls (chain : Chain) (i j : Nat) (call : HandlerCall) :
    (chain.setCall i call).calls j = if j = i then call else chain.calls j := by
  simp [setCall, Function.update_apply]

@[simp] theorem setDispatch_index (chain : Chain) (i : Nat) (call : DispatchCall) :
    (chain.setDispatch i call).index = chain.index := rfl

@[simp] theorem setDispatch_calls (chain : Chain) (i : Nat) (call : DispatchCall) :
    (chain.setDispatch i call).calls = chain.calls := rfl

@[simp] theorem setDispatch_finished (chain : Chain) (i : Nat) (call : DispatchCall) :
    (chain.setDispatch i call).finished = chain.finished := rfl

@[simp] theorem setDispatch_started (chain : Chain) (i : Nat) (call : DispatchCall) :
    (chain.setDispatch i call).started = chain.started := rfl

theorem setDispatch_dispatches (chain : Chain) (i j : Nat) (call : DispatchCall) :
    (chain.setDispatch i call).dispatches j = if j = i then call else chain.dispatches j := by
  simp [setDispatch, Function.update_apply]

@[simp] theorem setIndex_index (chain : Chain) (i : Nat) :
    (chain.setIndex i).index = i := rfl

@[simp] theorem setIndex_dispatches (chain : Chain) (i : Nat) :
    (chain.setIndex i).dispatches = chain.dispatches := rfl

@[simp] theorem setIndex_calls (chain : Chain) (i : Nat) :
    (chain.setIndex i).calls = chain.calls := rfl

@[simp] theorem setIndex_started (chain : Chain) (i : Nat) :
    (chain.setIndex i).started = chain.started := rfl

@[simp] theorem startCall_index (chain : Chain) (i : Nat) :
    (chain.startCall i).index = chain.index := rfl

@[simp] theorem startCall_dispatches (chain : Chain) (i : Nat) :
    (chain.startCall i).dispatches = chain.dispatches := rfl

@[simp] theorem startCall_finished (chain : Chain) (i : Nat) :
    (chain.startCall i).finished = chain.finished := rfl

@[simp] theorem startCall_started (chain : Chain) (i : Nat) :
    (chain.startCall i).started = chain.started ++ [i] := rfl

theorem startCall_calls (chain : Chain) (i j : Nat) :
    (chain.startCall i).calls j = if j = i then .running else chain.calls j :=
  chain.setCall_calls i j .running

theorem Later.refl (chain : Chain) : chain.Later chain :=
  ⟨id, fun _ _ => id, fun _ _ => id⟩

theorem Later.trans {first second third : Chain}
    (early : first.Later second) (late : second.Later third) : first.Later third :=
  ⟨late.finished ∘ early.finished,
    fun i outcome => late.calls i outcome ∘ early.calls i outcome,
    fun i outcome => late.dispatches i outcome ∘ early.dispatches i outcome⟩

theorem ordered_initial : Chain.initial.Ordered middlewares where
  inOrder := rfl
  called := by simp [initial]
  withinList := Nat.zero_le _
  entered := by
    intro i
    simp only [initial, ne_eq, not_true_eq_false, false_iff]
    omega
  behindIndex := by simp [initial]
  unused := fun _ => rfl
  justified := fun _ => trivial

/-! ## One operation on the chain -/

/-- What a state of `dispatch(i)` says survives a change that leaves the call
of `i` alone and what is final or not begun about `dispatch(i + 1)`. -/
theorem Justified.mono
    {before after : Chain} {i : Nat} {call : DispatchCall}
    (justified : before.Justified middlewares i call)
    (callEq : after.calls i = before.calls i)
    (finished : before.finished = true → after.finished = true)
    (notEntered : before.dispatches (i + 1) = .notEntered →
      after.dispatches (i + 1) = .notEntered)
    (settled : ∀ outcome, before.dispatches (i + 1) = .settled outcome →
      after.dispatches (i + 1) = .settled outcome) :
    after.Justified middlewares i call := by
  cases call with
  | notEntered => trivial
  | awaitsHandler => exact ⟨callEq ▸ justified.1, notEntered ∘ justified.2⟩
  | awaitsNext => exact ⟨callEq ▸ justified.1, justified.2⟩
  | settled outcome =>
      cases outcome with
      | fulfilled =>
          rw [Justified, callEq]
          refine Or.imp ?_ ?_ justified
          · exact fun ⟨notCalled, reason⟩ => ⟨notCalled, reason.imp_left finished⟩
          · refine fun ⟨isFulfilled, next⟩ => ⟨isFulfilled, next.imp_right ?_⟩
            exact Or.imp (settled _) fun ⟨isFinished, isNew⟩ =>
              ⟨finished isFinished, notEntered isNew⟩
      | rejected =>
          rw [Justified, callEq]
          refine justified.imp_right ?_
          exact fun ⟨isFulfilled, auto, next⟩ => ⟨isFulfilled, auto, settled _ next⟩

theorem Ordered.finish {chain : Chain} (ordered : chain.Ordered middlewares) :
    ({ chain with finished := true } : Chain).Ordered middlewares where
  inOrder := ordered.inOrder
  called := ordered.called
  withinList := ordered.withinList
  entered := ordered.entered
  behindIndex := ordered.behindIndex
  unused := ordered.unused
  justified := fun i => (ordered.justified i).mono rfl (fun _ => rfl) id fun _ => id

theorem later_finish (chain : Chain) :
    chain.Later { chain with finished := true } :=
  ⟨fun _ => rfl, fun _ _ => id, fun _ _ => id⟩

/-- A call that has not settled may change between running, suspended and
settled. -/
theorem Ordered.setCall
    {chain : Chain} {i : Nat} {call : HandlerCall}
    (ordered : chain.Ordered middlewares)
    (isCalled : chain.calls i ≠ .notCalled)
    (isOpen : ∀ outcome, chain.calls i ≠ .settled outcome)
    (callNe : call ≠ .notCalled) :
    (chain.setCall i call).Ordered middlewares where
  inOrder := ordered.inOrder
  called := by
    intro j
    rw [setCall_calls]
    split
    case isTrue same =>
      subst same
      exact iff_of_true callNe ((ordered.called j).mp isCalled)
    case isFalse => exact ordered.called j
  withinList := ordered.withinList
  entered := ordered.entered
  behindIndex := ordered.behindIndex
  unused := ordered.unused
  justified := by
    intro j
    have justified := ordered.justified j
    obtain rfl | other := eq_or_ne j i
    · -- only the `await` of the handler fits a call that has not settled
      rw [setCall_dispatches]
      rcases stateEq : chain.dispatches j with _ | _ | _ | _ | _ <;>
        simp_all [Justified, setCall_calls]
    · exact justified.mono (by rw [setCall_calls, if_neg other]) id id fun _ => id

theorem later_setCall
    {chain : Chain} {i : Nat} {call : HandlerCall}
    (isOpen : ∀ outcome, chain.calls i ≠ .settled outcome) :
    chain.Later (chain.setCall i call) where
  finished := id
  calls := by
    intro j outcome settled
    have other : j ≠ i := fun same => isOpen _ (same ▸ settled)
    simpa [setCall_calls, other] using settled
  dispatches := fun _ _ => id

/-- A `dispatch(i)` that is under way may move on to a state that the calls
justify. -/
theorem Ordered.setDispatch
    {chain : Chain} {i : Nat} {call : DispatchCall}
    (ordered : chain.Ordered middlewares)
    (isEntered : chain.dispatches i ≠ .notEntered)
    (isOpen : ∀ outcome, chain.dispatches i ≠ .settled outcome)
    (callNe : call ≠ .notEntered)
    (justified : chain.Justified middlewares i call) :
    (chain.setDispatch i call).Ordered middlewares where
  inOrder := ordered.inOrder
  called := ordered.called
  withinList := ordered.withinList
  entered := by
    intro j
    rw [setDispatch_dispatches]
    split
    case isTrue same =>
      subst same
      exact iff_of_true callNe ((ordered.entered j).mp isEntered)
    case isFalse => exact ordered.entered j
  behindIndex := ordered.behindIndex
  unused := ordered.unused
  justified := by
    intro j
    have stable : ∀ {state}, chain.dispatches (j + 1) = state →
        chain.dispatches i ≠ state → (chain.setDispatch i call).dispatches (j + 1) = state := by
      intro state stateEq differs
      have other : j + 1 ≠ i := fun same => differs (same ▸ stateEq)
      rw [setDispatch_dispatches, if_neg other, stateEq]
    have keeps : ∀ {state}, chain.Justified middlewares j state →
        (chain.setDispatch i call).Justified middlewares j state := fun before =>
      before.mono rfl id (fun stateEq => stable stateEq isEntered)
        fun outcome stateEq => stable stateEq (isOpen outcome)
    rw [setDispatch_dispatches]
    split
    case isTrue same => exact keeps (same ▸ justified)
    case isFalse => exact keeps (ordered.justified j)

theorem later_setDispatch
    {chain : Chain} {i : Nat} {call : DispatchCall}
    (isOpen : ∀ outcome, chain.dispatches i ≠ .settled outcome) :
    chain.Later (chain.setDispatch i call) where
  finished := id
  calls := fun _ _ => id
  dispatches := by
    intro j outcome settled
    have other : j ≠ i := fun same => isOpen _ (same ▸ settled)
    simpa [setDispatch_dispatches, other] using settled

/-- `dispatch(position)` keeps the invariant when the middleware before it is
entitled to call it. -/
theorem Ordered.dispatch
    {chain : Chain} {position : Nat}
    (ordered : chain.Ordered middlewares)
    (severalMiddlewares : middlewares.length ≠ 1)
    (follows : position ≤ chain.started.length)
    (entitled : ∀ i, i + 1 = position →
      needsNextAt middlewares i = true ∨ chain.dispatches i = .awaitsNext) :
    (chain.dispatch middlewares position).1.Ordered middlewares := by
  unfold Chain.dispatch
  split
  case isTrue => exact ordered
  case isFalse isNew =>
    have positionEq : chain.started.length = position ∧ chain.index + 1 = position := by
      have := ordered.behindIndex severalMiddlewares
      omega
    have notCalled : chain.calls position = .notCalled := by
      by_contra isCalled
      have := (ordered.called position).mp isCalled
      omega
    have notEntered : chain.dispatches position = .notEntered := by
      by_contra isEntered
      exact isNew ((ordered.entered position).mp isEntered)
    have nextNotEntered : chain.dispatches (position + 1) = .notEntered := by
      by_contra isEntered
      have := (ordered.entered (position + 1)).mp isEntered
      omega
    -- the others keep their states, and none of them was waiting for this one
    have keeps : ∀ {after : Chain} {i : Nat}, i ≠ position →
        after.calls i = chain.calls i → after.finished = chain.finished →
        (∀ j, j ≠ position → after.dispatches j = chain.dispatches j) →
        after.Justified middlewares i (chain.dispatches i) := by
      intro after i other callEq finishedEq dispatchesEq
      have justified := ordered.justified i
      by_cases before : i + 1 = position
      · have entitled := entitled i before
        subst before
        rcases stateEq : chain.dispatches i with _ | _ | _ | _ | _ <;>
          simp_all [Justified]
      · refine justified.mono callEq (finishedEq ▸ id) ?_ fun outcome => ?_ <;>
          rw [dispatchesEq _ before] <;> exact id
    split
    case isTrue skipped =>
      exact
        { inOrder := ordered.inOrder
          called := ordered.called
          withinList := ordered.withinList
          entered := by
            intro i
            have := ordered.entered i
            rw [setDispatch_dispatches]
            split
            case isTrue same => simp [same]
            case isFalse other =>
              rw [setIndex_dispatches, this, setDispatch_index, setIndex_index]
              omega
          behindIndex := by
            intro _
            rw [setDispatch_started, setIndex_started, setDispatch_index, setIndex_index]
            omega
          unused := fun single => absurd single severalMiddlewares
          justified := by
            intro i
            rw [setDispatch_dispatches]
            split
            case isTrue same =>
              subst same
              exact .inl ⟨notCalled, skipped.symm⟩
            case isFalse other =>
              refine keeps other rfl rfl fun j other => ?_
              rw [setDispatch_dispatches, if_neg other, setIndex_dispatches] }
    case isFalse called =>
      rw [not_or] at called
      exact
        { inOrder := by
            rw [startCall_started, setDispatch_started, setIndex_started, List.length_append,
              List.length_singleton, List.range_succ, ← ordered.inOrder, positionEq.1]
          called := by
            intro i
            have := ordered.called i
            rw [startCall_calls, startCall_started, setDispatch_started, setIndex_started,
              setDispatch_calls, setIndex_calls, List.length_append, List.length_singleton]
            split
            case isTrue same =>
              simp only [ne_eq, reduceCtorEq, not_false_eq_true, true_iff]
              omega
            case isFalse other =>
              rw [this]
              omega
          withinList := by
            rw [startCall_started, setDispatch_started, setIndex_started,
              List.length_append, List.length_singleton]
            omega
          entered := by
            intro i
            have := ordered.entered i
            rw [startCall_dispatches, setDispatch_dispatches, startCall_index,
              setDispatch_index, setIndex_index, setIndex_dispatches]
            split
            case isTrue same => simp [same]
            case isFalse other =>
              rw [this]
              omega
          behindIndex := by
            intro _
            rw [startCall_started, setDispatch_started, setIndex_started, startCall_index,
              setDispatch_index, setIndex_index, List.length_append, List.length_singleton]
            omega
          unused := fun single => absurd single severalMiddlewares
          justified := by
            intro i
            rw [startCall_dispatches, setDispatch_dispatches]
            split
            case isTrue same =>
              subst same
              refine ⟨by simp [startCall_calls], fun _ => ?_⟩
              simpa [setDispatch_dispatches] using nextNotEntered
            case isFalse other =>
              refine keeps other ?_ rfl fun j other => ?_
              · rw [startCall_calls, if_neg other]
                rfl
              · rw [startCall_dispatches, setDispatch_dispatches, if_neg other,
                  setIndex_dispatches] }

theorem later_startCall
    {chain : Chain} {i : Nat}
    (isOpen : ∀ outcome, chain.calls i ≠ .settled outcome) :
    chain.Later (chain.startCall i) :=
  ⟨id, (later_setCall isOpen).calls, fun _ _ => id⟩

theorem later_setIndex (chain : Chain) (i : Nat) : chain.Later (chain.setIndex i) :=
  ⟨id, fun _ _ => id, fun _ _ => id⟩

theorem Ordered.later_dispatch
    {chain : Chain} (ordered : chain.Ordered middlewares)
    (severalMiddlewares : middlewares.length ≠ 1) (position : Nat) :
    chain.Later (chain.dispatch middlewares position).1 := by
  unfold Chain.dispatch
  split
  case isTrue => exact .refl chain
  case isFalse isNew =>
    have isOpen : ∀ outcome, chain.dispatches position ≠ .settled outcome := by
      intro outcome settled
      exact isNew ((ordered.entered position).mp (by simp [settled]))
    have notSettled : ∀ outcome, chain.calls position ≠ .settled outcome := by
      intro outcome settled
      have := (ordered.called position).mp (by simp [settled])
      have := ordered.behindIndex severalMiddlewares
      omega
    have entered := chain.later_setIndex position
    split
    case isTrue => exact entered.trans (later_setDispatch isOpen)
    case isFalse =>
      exact (entered.trans (later_setDispatch isOpen)).trans (later_startCall notSettled)

/-- The call of a single middleware. -/
theorem ordered_startSingle (single : middlewares.length = 1) :
    (initial.startCall 0).Ordered middlewares where
  inOrder := rfl
  called := by
    intro i
    rw [startCall_calls]
    split
    case isTrue same => simp [same, initial]
    case isFalse other => simpa [initial] using other
  withinList := Nat.le_of_eq single.symm
  entered := (ordered_initial : Chain.initial.Ordered middlewares).entered
  behindIndex := fun several => absurd single several
  unused := fun _ => rfl
  justified := fun _ => trivial

/-! ## What a step does to the chain -/

/-- Everything a step can do to the chain. `fulfils` names the middlewares
whose call the step ends normally. -/
inductive Move (middlewares : List Middleware) (fulfils : Nat → Prop) (chain : Chain) :
    Chain → Prop
  | stay : Move middlewares fulfils chain chain
  | finish : Move middlewares fulfils chain { chain with finished := true }
  | single :
      middlewares.length = 1 → chain = initial →
      Move middlewares fulfils chain (initial.startCall 0)
  | first :
      middlewares.length ≠ 1 → chain = initial →
      Move middlewares fulfils chain (chain.dispatch middlewares 0).1
  | next (i : Nat) :
      middlewares.length ≠ 1 → needsNextAt middlewares i = true →
      chain.calls i ≠ .notCalled →
      Move middlewares fulfils chain (chain.dispatch middlewares (i + 1)).1
  | turn (i : Nat) (call : HandlerCall) :
      chain.calls i = .running → call ≠ .notCalled →
      (call = .settled .fulfilled → fulfils i) →
      Move middlewares fulfils chain (chain.setCall i call)
  | wake (i : Nat) (awaited : Awaited) :
      chain.calls i = .suspended awaited →
      Move middlewares fulfils chain (chain.setCall i .running)
  | settle (i : Nat) (outcome : Outcome) :
      chain.dispatches i = .awaitsHandler ∨ chain.dispatches i = .awaitsNext →
      chain.Justified middlewares i (.settled outcome) →
      Move middlewares fulfils chain (chain.setDispatch i (.settled outcome))
  | advance (i : Nat) :
      chain.dispatches i = .awaitsHandler →
      chain.calls i = .settled .fulfilled → needsNextAt middlewares i = false →
      Move middlewares fulfils chain
        ((chain.setDispatch i .awaitsNext).dispatch middlewares (i + 1)).1

variable {fulfils : Nat → Prop} {chain after : Chain}

theorem Ordered.several
    (ordered : chain.Ordered middlewares) {i : Nat}
    (awaits : chain.dispatches i = .awaitsHandler) :
    middlewares.length ≠ 1 := by
  intro single
  have := (ordered.entered i).mp (by simp [awaits])
  have := ordered.unused single
  omega

/-- Moving on to `await dispatch(i + 1)`. -/
theorem Ordered.setAwaitsNext
    (ordered : chain.Ordered middlewares) {i : Nat}
    (awaits : chain.dispatches i = .awaitsHandler)
    (isFulfilled : chain.calls i = .settled .fulfilled)
    (auto : needsNextAt middlewares i = false) :
    (chain.setDispatch i .awaitsNext).Ordered middlewares :=
  ordered.setDispatch (by simp [awaits]) (by simp [awaits]) (by simp) ⟨isFulfilled, auto⟩

theorem Move.ordered
    (move : Move middlewares fulfils chain after)
    (ordered : chain.Ordered middlewares) :
    after.Ordered middlewares := by
  cases move with
  | stay => exact ordered
  | finish => exact ordered.finish
  | single isSingle => exact ordered_startSingle isSingle
  | first several => exact ordered.dispatch several (Nat.zero_le _) nofun
  | next i several needsNext isCalled =>
      refine ordered.dispatch several ((ordered.called i).mp isCalled) ?_
      intro j same
      cases same
      exact .inl needsNext
  | turn i call isRunning callNe =>
      exact ordered.setCall (by simp [isRunning]) (by simp [isRunning]) callNe
  | wake i awaited isSuspended =>
      exact ordered.setCall (by simp [isSuspended]) (by simp [isSuspended]) (by simp)
  | settle i outcome awaits justified =>
      refine ordered.setDispatch ?_ ?_ (by simp) justified <;>
        rcases awaits with awaits | awaits <;> simp [awaits]
  | advance i awaits isFulfilled auto =>
      have isCalled := (ordered.called i).mp (by simp [isFulfilled])
      refine (ordered.setAwaitsNext awaits isFulfilled auto).dispatch
        (ordered.several awaits) isCalled ?_
      intro j same
      cases same
      exact .inr (by simp [setDispatch_dispatches])

theorem Move.later
    (move : Move middlewares fulfils chain after)
    (ordered : chain.Ordered middlewares) :
    chain.Later after := by
  cases move with
  | stay => exact .refl chain
  | finish => exact later_finish chain
  | single _ isInitial =>
      subst isInitial
      exact later_startCall nofun
  | first several => exact ordered.later_dispatch several 0
  | next i several => exact ordered.later_dispatch several (i + 1)
  | turn i call isRunning => exact later_setCall (by simp [isRunning])
  | wake i awaited isSuspended => exact later_setCall (by simp [isSuspended])
  | settle i outcome awaits =>
      refine later_setDispatch ?_
      rcases awaits with awaits | awaits <;> simp [awaits]
  | advance i awaits isFulfilled auto =>
      have early : chain.Later (chain.setDispatch i .awaitsNext) :=
        later_setDispatch (by simp [awaits])
      exact early.trans ((ordered.setAwaitsNext awaits isFulfilled auto).later_dispatch
        (ordered.several awaits) (i + 1))

theorem dispatch_calls
    (middlewares : List Middleware) (chain : Chain) (position i : Nat) :
    (chain.dispatch middlewares position).1.calls i = chain.calls i ∨
      (chain.dispatch middlewares position).1.calls i = .running := by
  unfold Chain.dispatch
  split
  case isTrue => exact .inl rfl
  case isFalse =>
    split
    case isTrue => exact .inl rfl
    case isFalse =>
      rw [startCall_calls]
      split
      case isTrue => exact .inr rfl
      case isFalse => exact .inl rfl

/-- A call that has ended normally ended so before, or in this step. -/
theorem Move.fulfilled
    (move : Move middlewares fulfils chain after) {i : Nat}
    (isFulfilled : after.calls i = .settled .fulfilled) :
    chain.calls i = .settled .fulfilled ∨ fulfils i := by
  have ofDispatch : ∀ (before : Chain) {position : Nat}, before.calls i = chain.calls i →
      (before.dispatch middlewares position).1.calls i = .settled .fulfilled →
      chain.calls i = .settled .fulfilled := by
    intro before position callEq settled
    obtain same | isRunning := before.dispatch_calls middlewares position i
    · rw [← callEq, ← same, settled]
    · rw [isRunning] at settled
      cases settled
  cases move with
  | stay => exact .inl isFulfilled
  | finish => exact .inl isFulfilled
  | single =>
      rw [startCall_calls] at isFulfilled
      split at isFulfilled <;> cases isFulfilled
  | first => exact .inl (ofDispatch chain rfl isFulfilled)
  | next => exact .inl (ofDispatch chain rfl isFulfilled)
  | turn j call isRunning callNe ends =>
      rw [setCall_calls] at isFulfilled
      split at isFulfilled
      case isTrue same => exact .inr (same ▸ ends isFulfilled)
      case isFalse => exact .inl isFulfilled
  | wake j =>
      rw [setCall_calls] at isFulfilled
      split at isFulfilled
      case isTrue => cases isFulfilled
      case isFalse => exact .inl isFulfilled
  | settle => exact .inl isFulfilled
  | advance j => exact .inl (ofDispatch (chain.setDispatch j .awaitsNext) rfl isFulfilled)

end Chain

end MiddlewareRunner

end HttpNative
