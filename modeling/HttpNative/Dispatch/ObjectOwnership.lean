import HttpNative.Dispatch.Recycling

/-!
# Who owns a recycled object

When no code of a dispatch is left running at the release of its objects, no
two dispatches whose code can run share an object, and the response that is
encoded for a dispatch is made of its own writes.
-/

namespace HttpNative

namespace Recycling

variable {Plan Data : Type}

/-- The condition on a step: a dispatch has no code left that can run when an
object of it goes back to a pool. -/
def NoPendingWork (state : State Plan Data) : Event Plan Data → Prop
  | .release number ending => ∀ dispatch, state.dispatches number = some dispatch →
      dispatch.live = 0 ∨ state.NothingReturned ending
  | _ => True

/-- Isolation of the dispatches whose code can still run. -/
structure State.Isolated (state : State Plan Data) : Prop where
  exclusive : ∀ left right first second, left ≠ right →
    state.dispatches left = some first → state.dispatches right = some second →
    first.Holds canRun → second.Holds canRun →
      first.request ≠ second.request ∧ first.response ≠ second.response ∧
        first.state ≠ second.state
  throughOwn : ∀ number dispatch, state.dispatches number = some dispatch →
    dispatch.Holds canRun → ∀ id, state.stateOf dispatch.response = some id →
      id = dispatch.state
  ownSnapshot : ∀ number dispatch, state.dispatches number = some dispatch →
    dispatch.Holds isOpen →
      snapshot (state.states.objects dispatch.state) =
        snapshot (assign (acquireResponseState none) dispatch.stateWrites)

/-- The framework's properties of an open response state come from the writes
of its own dispatch. -/
def State.OwnWrites (state : State Plan Data) : Prop :=
  ∀ number dispatch, state.dispatches number = some dispatch → dispatch.Holds isOpen →
    ∀ name ∈ stateFieldNames,
      state.states.objects dispatch.state name =
        assign (acquireResponseState none) dispatch.stateWrites name

theorem State.ownWrites_initial : (State.initial : State Plan Data).OwnWrites :=
  nofun

variable {state : State Plan Data} {number : Nat} {dispatch : Dispatch Plan Data}

theorem canRun_of_isOpen (phase : Phase) (live : Nat) (isOpen : isOpen phase live) :
    canRun phase live :=
  .inl isOpen

/-- Recycling does not show in the properties that acquiring sets. -/
theorem acquireResponseState_of_mem
    (pooled : Option (Properties Plan Data)) {name : String} (mem : name ∈ stateFieldNames) :
    acquireResponseState pooled name = acquireResponseState none name := by
  cases pooled with
  | none => rfl
  | some recycled =>
      rw [acquireResponseState_none]
      exact assign_of_mem mem

theorem State.OwnWrites.acquire
    (ownWrites : state.OwnWrites) (exclusive : state.Exclusive canRun)
    (number : Nat) (route : Route Plan) (decoded : Envelope) :
    (state.acquire number route decoded).OwnWrites := by
  intro other holder holderEq holderOpen name mem
  rw [acquire_dispatches, Function.update_apply] at holderEq
  split at holderEq
  · cases holderEq
    change (state.states.acquire acquireResponseState).objects state.states.nextId name = _
    rw [ObjectPool.acquire_objects_nextId]
    exact acquireResponseState_of_mem _ mem
  · have differs := exclusive.states.ne_nextId
      (lease_of holderEq (canRun_of_isOpen _ _ holderOpen))
    change (state.states.acquire acquireResponseState).objects holder.state name = _
    rw [ObjectPool.acquire_objects_of_ne _ _ differs]
    exact ownWrites other holder holderEq holderOpen name mem

theorem State.OwnWrites.setDispatch
    (ownWrites : state.OwnWrites)
    (dispatchEq : state.dispatches number = some dispatch)
    (next : Dispatch Plan Data)
    (stateEq : next.state = dispatch.state)
    (writesEq : next.stateWrites = dispatch.stateWrites)
    (openFewer : next.Holds isOpen → dispatch.Holds isOpen) :
    (state.setDispatch number next).OwnWrites := by
  intro other holder holderEq holderOpen name mem
  simp only [State.setDispatch, Function.update_apply] at holderEq ⊢
  split at holderEq
  · cases holderEq
    rw [stateEq, writesEq]
    exact ownWrites number dispatch dispatchEq (openFewer holderOpen) name mem
  · exact ownWrites other holder holderEq holderOpen name mem

/-- A write of the dispatch to its own state. -/
theorem State.OwnWrites.writeOwn
    (ownWrites : state.OwnWrites) (exclusive : state.Exclusive canRun)
    (dispatchEq : state.dispatches number = some dispatch)
    (isLive : 0 < dispatch.live) (name : String) (value : Value Plan Data) :
    (state.writeState number dispatch dispatch.state name value).OwnWrites := by
  intro other holder holderEq holderOpen field mem
  simp only [State.writeState, Function.update_apply, if_pos] at holderEq ⊢
  split at holderEq
  · cases holderEq
    have before := ownWrites number dispatch dispatchEq holderOpen field mem
    rw [ObjectPool.modify_objects_self, assign_append, assign, assign, Function.update_apply,
      Function.update_apply, before]
  · next differs =>
    have otherState : holder.state ≠ dispatch.state := fun same => differs <|
      exclusive.states.exclusive other number dispatch.state
        (same ▸ lease_of holderEq (canRun_of_isOpen _ _ holderOpen))
        (lease_of dispatchEq (.inr isLive))
    rw [ObjectPool.modify_objects_of_ne _ _ otherState]
    exact ownWrites other holder holderEq holderOpen field mem

theorem State.OwnWrites.write
    (ownWrites : state.OwnWrites) (exclusive : state.Exclusive canRun)
    {target : Target} {name : String} {value : Value Plan Data} {after : State Plan Data}
    (dispatchEq : state.dispatches number = some dispatch)
    (isLive : 0 < dispatch.live)
    (writeEq : state.write number dispatch name value target = some after) :
    after.OwnWrites := by
  cases target with
  | request =>
      cases writeEq
      exact ownWrites
  | response =>
      cases writeEq
      exact ownWrites
  | state =>
      cases writeEq
      exact ownWrites.writeOwn exclusive dispatchEq isLive name value
  | throughResponse =>
      obtain ⟨id, refEq, rfl⟩ := Option.map_eq_some_iff.mp writeEq
      obtain rfl := exclusive.heldRef number dispatch dispatchEq (.inr isLive) id refEq
      exact ownWrites.writeOwn exclusive dispatchEq isLive name value

theorem State.OwnWrites.release
    (ownWrites : state.OwnWrites) (dispatchEq : state.dispatches number = some dispatch)
    (ending : Ending) :
    (state.release number dispatch ending).OwnWrites := by
  have kept := ownWrites.setDispatch dispatchEq { dispatch with phase := .released } rfl rfl
    fun held => absurd rfl held
  cases ending with
  | streamed => exact kept
  | encoded =>
      intro other holder holderEq holderOpen name mem
      change (state.states.release responsePoolMax dispatch.state).objects holder.state name = _
      rw [ObjectPool.release_objects]
      exact kept other holder holderEq holderOpen name mem

/-! ## Every run -/

variable [DecidableEq Plan] [DecidableEq Data]

theorem exclusive_of_noPendingWork
    (reaches : Machine.ReachesUnder machine NoPendingWork state) :
    state.Exclusive canRun := by
  refine reaches.invariant State.exclusive_initial ?_
  intro state event after exclusive meets stepEq
  refine exclusive.step canRun_of_isOpen ?_ ?_ ?_ stepEq
  · exact fun _ held => held.resolve_left fun open_ => open_ rfl
  · exact fun _ _ _ isLive => .inr isLive
  · rintro number dispatch ending rfl dispatchEq held
    refine (meets dispatch dispatchEq).resolve_left fun noCode => ?_
    exact absurd (held.resolve_left fun open_ => open_ rfl) (by omega)

theorem ownWrites_of_noPendingWork
    (reaches : Machine.ReachesUnder machine NoPendingWork state) :
    state.OwnWrites := by
  refine reaches.invariant_with (fun _ => exclusive_of_noPendingWork) State.ownWrites_initial ?_
  intro state event after exclusive ownWrites _ stepEq
  cases state.step_change stepEq with
  | acquired number route decoded => exact ownWrites.acquire exclusive number route decoded
  | turned number dispatch phase live dispatchEq sameEnd =>
      exact ownWrites.setDispatch dispatchEq _ rfl rfl fun held ended => held (sameEnd.mpr ended)
  | wrote number dispatch target name value _ dispatchEq isLive writeEq =>
      exact ownWrites.write exclusive dispatchEq isLive writeEq
  | released number dispatch ending dispatchEq => exact ownWrites.release dispatchEq ending

/-- In a run that releases objects only when no code of their dispatch is left,
the dispatches are isolated from each other. -/
theorem isolated_of_noPendingWork
    (reaches : Machine.ReachesUnder machine NoPendingWork state) :
    state.Isolated where
  exclusive := by
    intro left right first second differs leftEq rightEq firstRuns secondRuns
    have exclusive := exclusive_of_noPendingWork reaches
    refine ⟨fun same => differs ?_, fun same => differs ?_, fun same => differs ?_⟩
    · exact exclusive.requests.exclusive left right second.request
        (same ▸ lease_of leftEq firstRuns) (lease_of rightEq secondRuns)
    · exact exclusive.responses.exclusive left right second.response
        (same ▸ lease_of leftEq firstRuns) (lease_of rightEq secondRuns)
    · exact exclusive.states.exclusive left right second.state
        (same ▸ lease_of leftEq firstRuns) (lease_of rightEq secondRuns)
  throughOwn := (exclusive_of_noPendingWork reaches).heldRef
  ownSnapshot := by
    intro number dispatch dispatchEq dispatchOpen
    have ownWrites := ownWrites_of_noPendingWork reaches number dispatch dispatchEq dispatchOpen
    refine List.map_congr_left fun name mem => ownWrites name ?_
    simp only [List.mem_cons, List.not_mem_nil, or_false] at mem
    obtain rfl | rfl | rfl | rfl := mem <;> decide

/-- One dispatch that has settled its handler, released, and a second one. -/
theorem isolated_of_noPendingWork_settled :
    ∃ state : State Unit String, (state.dispatches 1).isSome ∧ state.Isolated := by
  have initial :
      Machine.ReachesUnder machine NoPendingWork (State.initial : State Unit String) := .start
  have acquired := initial.step
    (show NoPendingWork _ (.acquire 0 plainRoute plainEnvelope) from trivial) rfl
  have called := acquired.step (show NoPendingWork _ (.callUser 0) from trivial) rfl
  have settled := called.step (show NoPendingWork _ (.userReturns 0 true) from trivial) rfl
  have released := settled.step (show NoPendingWork _ (.release 0 .encoded) from ?_) rfl
  · have second := released.step
      (show NoPendingWork _ (.acquire 1 plainRoute plainEnvelope) from trivial) rfl
    exact ⟨_, rfl, isolated_of_noPendingWork second⟩
  · intro dispatch dispatchEq
    cases dispatchEq
    exact .inl rfl

/-- A handler that goes on after it has finished its response. -/
def lateHandler : List (Event Unit String) :=
  [.acquire 0 plainRoute plainEnvelope, .callUser 0, .write 0 .state "finished" (.flag true),
    .userReturns 0 false, .release 0 .encoded, .acquire 1 plainRoute plainEnvelope,
    .write 0 .throughResponse "status" (.number 500)]

/-- It alters the response of the dispatch that has taken over its objects. -/
theorem not_isolated_of_lateHandler :
    ¬ ∀ state : State Unit String, Machine.Reaches machine state → state.Isolated := by
  intro always
  have reaches : Machine.Reaches machine _ :=
    Machine.reachesUnder_of_run lateHandler rfl
  have unaltered := (always _ reaches).ownSnapshot 1 _ rfl nofun
  exact absurd unaltered (by decide)

end Recycling

end HttpNative
