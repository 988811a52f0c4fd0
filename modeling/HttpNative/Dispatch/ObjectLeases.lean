import HttpNative.Dispatch.RecycledObjects

/-!
# Leases of the recycled objects

A dispatch holds its three objects at least until its dispatcher releases
them. Whether it holds them longer depends on the code it leaves behind, so
the invariant is stated for any notion of holding that a step which returns an
object to its pool brings to an end.
-/

namespace HttpNative

namespace Recycling

variable {Plan Data : Type}

/-! ## What a step does -/

/-- A dispatch holds its objects, by its phase and its live pieces of code. -/
def Dispatch.Holds (dispatch : Dispatch Plan Data) (holds : Phase → Nat → Prop) : Prop :=
  holds dispatch.phase dispatch.live

/-- The dispatcher has not released the objects. -/
def isOpen (phase : Phase) (_ : Nat) : Prop :=
  phase ≠ .released

/-- Code of the dispatch, or its dispatcher, can still run. -/
def canRun (phase : Phase) (live : Nat) : Prop :=
  phase ≠ .released ∨ 0 < live

/-- A release that gives no object back, since every pool it would go to is
full. -/
def State.NothingReturned (state : State Plan Data) (ending : Ending) : Prop :=
  requestPoolMax ≤ state.requests.free.length ∧
    (ending = .encoded → responsePoolMax ≤ state.responses.free.length ∧
      responsePoolMax ≤ state.states.free.length)

/-- Everything that a step can do. -/
inductive State.Change (state : State Plan Data) : Event Plan Data → State Plan Data → Prop
  | acquired (number : Nat) (route : Route Plan) (decoded : Envelope) :
      state.dispatches number = none →
      Change state (.acquire number route decoded) (state.acquire number route decoded)
  | turned {event : Event Plan Data} (number : Nat) (dispatch : Dispatch Plan Data)
      (phase : Phase) (live : Nat) :
      state.dispatches number = some dispatch →
      (phase = .released ↔ dispatch.phase = .released) →
      (0 < live → dispatch.Holds canRun) →
      Change state event
        (state.setDispatch number { dispatch with phase := phase, live := live })
  | wrote (number : Nat) (dispatch : Dispatch Plan Data) (target : Target) (name : String)
      (value : Value Plan Data) (next : State Plan Data) :
      state.dispatches number = some dispatch →
      0 < dispatch.live →
      state.write number dispatch name value target = some next →
      Change state (.write number target name value) next
  | released (number : Nat) (dispatch : Dispatch Plan Data) (ending : Ending) :
      state.dispatches number = some dispatch →
      dispatch.phase = .idle →
      Change state (.release number ending) (state.release number dispatch ending)

theorem State.step_change [DecidableEq Plan] [DecidableEq Data]
    {state next : State Plan Data} {event : Event Plan Data}
    (stepEq : state.step event = some next) :
    state.Change event next := by
  cases event with
  | acquire number route decoded =>
      simp only [step] at stepEq
      split at stepEq <;> cases stepEq
      next isNew => exact .acquired number route decoded isNew
  | callUser number =>
      obtain ⟨dispatch, dispatchEq, stepEq⟩ := Option.bind_eq_some_iff.mp stepEq
      split at stepEq <;> cases stepEq
      next isIdle =>
      exact .turned number dispatch _ _ dispatchEq (by simp [isIdle])
        fun _ => .inl (by simp [isIdle])
  | userReturns number settled =>
      obtain ⟨dispatch, dispatchEq, stepEq⟩ := Option.bind_eq_some_iff.mp stepEq
      split at stepEq
      case isFalse => cases stepEq
      case isTrue inCall =>
        have open_ : dispatch.Holds canRun := .inl (by simp [inCall.1])
        split at stepEq
        · cases stepEq
          exact .turned number dispatch _ _ dispatchEq (by simp [inCall.1]) fun _ => open_
        · split at stepEq <;> cases stepEq <;>
            exact .turned number dispatch _ _ dispatchEq (by simp [inCall.1]) fun _ => open_
  | awaitedSettles number =>
      obtain ⟨dispatch, dispatchEq, stepEq⟩ := Option.bind_eq_some_iff.mp stepEq
      split at stepEq <;> cases stepEq
      next awaits =>
      exact .turned number dispatch _ _ dispatchEq (by simp [awaits.1])
        fun _ => .inl (by simp [awaits.1])
  | leaveWork number =>
      obtain ⟨dispatch, dispatchEq, stepEq⟩ := Option.bind_eq_some_iff.mp stepEq
      split at stepEq <;> cases stepEq
      next isLive =>
      exact .turned number dispatch _ _ dispatchEq Iff.rfl fun _ => .inr isLive
  | workEnds number =>
      obtain ⟨dispatch, dispatchEq, stepEq⟩ := Option.bind_eq_some_iff.mp stepEq
      split at stepEq <;> cases stepEq
      next isLive =>
      exact .turned number dispatch _ _ dispatchEq Iff.rfl
        fun _ => .inr (Nat.zero_lt_of_lt isLive)
  | write number target name value =>
      obtain ⟨dispatch, dispatchEq, stepEq⟩ := Option.bind_eq_some_iff.mp stepEq
      split at stepEq
      case isFalse => cases stepEq
      case isTrue isLive => exact .wrote number dispatch target name value next dispatchEq isLive stepEq
  | release number ending =>
      obtain ⟨dispatch, dispatchEq, stepEq⟩ := Option.bind_eq_some_iff.mp stepEq
      split at stepEq <;> cases stepEq
      next isIdle => exact .released number dispatch ending dispatchEq isIdle

/-! ## Leases of the dispatches -/

open Classical in
/-- What the dispatches that hold their objects lease of one pool. -/
noncomputable def lease (dispatches : Nat → Option (Dispatch Plan Data))
    (holds : Phase → Nat → Prop) (object : Dispatch Plan Data → Nat) (number : Nat) :
    Option Nat :=
  match dispatches number with
  | some dispatch => if dispatch.Holds holds then some (object dispatch) else none
  | none => none

variable {state : State Plan Data} {holds : Phase → Nat → Prop}
variable {dispatches : Nat → Option (Dispatch Plan Data)}
variable {object : Dispatch Plan Data → Nat}
variable {number : Nat} {dispatch next : Dispatch Plan Data}

theorem lease_eq_some_iff {id : Nat} :
    lease dispatches holds object number = some id ↔
      ∃ dispatch, dispatches number = some dispatch ∧ dispatch.Holds holds ∧
        object dispatch = id := by
  unfold lease
  split
  · next dispatch dispatchEq => simp [dispatchEq]
  · next isNew => simp [isNew]

theorem lease_of
    (dispatchEq : dispatches number = some dispatch) (dispatchHolds : dispatch.Holds holds) :
    lease dispatches holds object number = some (object dispatch) :=
  lease_eq_some_iff.mpr ⟨dispatch, dispatchEq, dispatchHolds, rfl⟩

theorem lease_update_self (notHeld : ¬ next.Holds holds) :
    lease (Function.update dispatches number (some next)) holds object number = none := by
  simp only [lease, Function.update_self, if_neg notHeld]

/-- A dispatch that changes without starting to hold anything. -/
theorem lease_update_fewer
    (dispatchEq : dispatches number = some dispatch)
    (objectEq : object next = object dispatch)
    (fewer : next.Holds holds → dispatch.Holds holds)
    {other id : Nat}
    (held : lease (Function.update dispatches number (some next)) holds object other = some id) :
    lease dispatches holds object other = some id := by
  rw [lease_eq_some_iff] at held ⊢
  obtain ⟨holder, holderEq, holderHolds, idEq⟩ := held
  rw [Function.update_apply] at holderEq
  split at holderEq
  case isTrue same =>
    cases holderEq
    subst same
    exact ⟨dispatch, dispatchEq, fewer holderHolds, objectEq ▸ idEq⟩
  case isFalse => exact ⟨holder, holderEq, holderHolds, idEq⟩

/-- A new dispatch that holds its objects. -/
theorem lease_update_new (newHolds : next.Holds holds) :
    lease (Function.update dispatches number (some next)) holds object =
      Function.update (lease dispatches holds object) number (some (object next)) := by
  funext other
  rw [Function.update_apply]
  split
  case isTrue same =>
    subst same
    exact lease_of (Function.update_self ..) newHolds
  case isFalse differs => simp only [lease, Function.update_of_ne differs]

/-- The objects of every dispatch are leased to it alone, and its response
object refers to its own state or to none. -/
structure State.Exclusive (holds : Phase → Nat → Prop) (state : State Plan Data) : Prop where
  requests : state.requests.Leased (lease state.dispatches holds Dispatch.request)
  responses : state.responses.Leased (lease state.dispatches holds Dispatch.response)
  states : state.states.Leased (lease state.dispatches holds Dispatch.state)
  openRef : ∀ number dispatch, state.dispatches number = some dispatch →
    dispatch.Holds isOpen → state.stateOf dispatch.response = some dispatch.state
  heldRef : ∀ number dispatch, state.dispatches number = some dispatch →
    dispatch.Holds holds → ∀ id, state.stateOf dispatch.response = some id →
      id = dispatch.state

theorem State.exclusive_initial :
    (State.initial : State Plan Data).Exclusive holds where
  requests := ObjectPool.leased_empty _
  responses := ObjectPool.leased_empty _
  states := ObjectPool.leased_empty _
  openRef := nofun
  heldRef := nofun

/-! ## Leases after a step -/

theorem State.acquire_dispatches
    (state : State Plan Data) (number : Nat) (route : Route Plan) (decoded : Envelope) :
    (state.acquire number route decoded).dispatches =
      Function.update state.dispatches number (some (state.newDispatch route decoded)) := rfl

theorem State.acquire_stateOf
    (state : State Plan Data) (number : Nat) (route : Route Plan) (decoded : Envelope) :
    (state.acquire number route decoded).stateOf =
      Function.update state.stateOf state.responses.nextId (some state.states.nextId) := rfl

theorem State.Exclusive.acquire
    (exclusive : state.Exclusive holds)
    (openHolds : ∀ phase live, isOpen phase live → holds phase live)
    (number : Nat) (route : Route Plan) (decoded : Envelope) :
    (state.acquire number route decoded).Exclusive holds := by
  have newHolds : (state.newDispatch route decoded).Holds holds :=
    openHolds _ _ (by simp [isOpen, newDispatch])
  -- an older holder has another response object, whose reference stays
  have older : ∀ other dispatch, other ≠ number →
      (state.acquire number route decoded).dispatches other = some dispatch →
      state.dispatches other = some dispatch ∧
        (dispatch.Holds holds →
          (state.acquire number route decoded).stateOf dispatch.response =
            state.stateOf dispatch.response) := by
    intro other dispatch differs dispatchEq
    rw [acquire_dispatches, Function.update_of_ne differs] at dispatchEq
    refine ⟨dispatchEq, fun dispatchHolds => ?_⟩
    have differs := exclusive.responses.ne_nextId (lease_of dispatchEq dispatchHolds)
    rw [acquire_stateOf, Function.update_of_ne differs]
  have newRef : (state.acquire number route decoded).stateOf
      (state.newDispatch route decoded).response =
        some (state.newDispatch route decoded).state :=
    Function.update_self ..
  exact
    { requests := by
        rw [acquire_dispatches, lease_update_new newHolds]
        exact exclusive.requests.acquire _ number
      responses := by
        rw [acquire_dispatches, lease_update_new newHolds]
        exact exclusive.responses.acquire _ number
      states := by
        rw [acquire_dispatches, lease_update_new newHolds]
        exact exclusive.states.acquire _ number
      openRef := by
        intro other dispatch dispatchEq dispatchOpen
        obtain rfl | differs := eq_or_ne other number
        · rw [acquire_dispatches, Function.update_self] at dispatchEq
          cases dispatchEq
          exact newRef
        · obtain ⟨dispatchEq, refEq⟩ := older other dispatch differs dispatchEq
          rw [refEq (openHolds _ _ dispatchOpen)]
          exact exclusive.openRef other dispatch dispatchEq dispatchOpen
      heldRef := by
        intro other dispatch dispatchEq dispatchHolds id ref
        obtain rfl | differs := eq_or_ne other number
        · rw [acquire_dispatches, Function.update_self] at dispatchEq
          cases dispatchEq
          exact Option.some.inj (ref.symm.trans newRef)
        · obtain ⟨dispatchEq, refEq⟩ := older other dispatch differs dispatchEq
          rw [refEq dispatchHolds] at ref
          exact exclusive.heldRef other dispatch dispatchEq dispatchHolds id ref }

/-- A dispatch may change its phase, its live code and its record as long as
it does not start to hold anything. -/
theorem State.Exclusive.setDispatch
    (exclusive : state.Exclusive holds)
    (dispatchEq : state.dispatches number = some dispatch)
    (next : Dispatch Plan Data)
    (requestEq : next.request = dispatch.request)
    (responseEq : next.response = dispatch.response)
    (stateEq : next.state = dispatch.state)
    (openFewer : next.Holds isOpen → dispatch.Holds isOpen)
    (fewer : next.Holds holds → dispatch.Holds holds) :
    (state.setDispatch number next).Exclusive holds where
  requests := exclusive.requests.mono fun _ _ => lease_update_fewer dispatchEq requestEq fewer
  responses :=
    exclusive.responses.mono fun _ _ => lease_update_fewer dispatchEq responseEq fewer
  states := exclusive.states.mono fun _ _ => lease_update_fewer dispatchEq stateEq fewer
  openRef := by
    intro other holder holderEq holderOpen
    simp only [State.setDispatch, Function.update_apply] at holderEq ⊢
    split at holderEq
    case isTrue same =>
      cases holderEq
      rw [responseEq, stateEq]
      exact exclusive.openRef number dispatch dispatchEq (openFewer holderOpen)
    case isFalse => exact exclusive.openRef other holder holderEq holderOpen
  heldRef := by
    intro other holder holderEq holderHolds id ref
    simp only [State.setDispatch, Function.update_apply] at holderEq ref
    split at holderEq
    case isTrue same =>
      cases holderEq
      rw [responseEq] at ref
      rw [stateEq]
      exact exclusive.heldRef number dispatch dispatchEq (fewer holderHolds) id ref
    case isFalse => exact exclusive.heldRef other holder holderEq holderHolds id ref

theorem State.Exclusive.writeState
    (exclusive : state.Exclusive holds)
    (dispatchEq : state.dispatches number = some dispatch)
    (id : Nat) (name : String) (value : Value Plan Data) :
    (state.writeState number dispatch id name value).Exclusive holds :=
  have kept := exclusive.setDispatch dispatchEq
    { dispatch with
      stateWrites :=
        if id = dispatch.state then dispatch.stateWrites ++ [(name, value)]
        else dispatch.stateWrites }
    rfl rfl rfl (fun held => held) (fun held => held)
  { requests := kept.requests
    responses := kept.responses
    states := kept.states.modify id (Function.update · name value)
    openRef := kept.openRef
    heldRef := kept.heldRef }

/-- User code writing a property moves no lease. -/
theorem State.Exclusive.write
    (exclusive : state.Exclusive holds)
    {target : Target} {name : String} {value : Value Plan Data} {after : State Plan Data}
    (dispatchEq : state.dispatches number = some dispatch)
    (writeEq : state.write number dispatch name value target = some after) :
    after.Exclusive holds := by
  cases target with
  | request =>
      cases writeEq
      exact
        { exclusive with
          requests :=
            exclusive.requests.modify dispatch.request (Function.update · name value) }
  | response =>
      cases writeEq
      exact
        { exclusive with
          responses :=
            exclusive.responses.modify dispatch.response (Function.update · name value) }
  | state =>
      cases writeEq
      exact exclusive.writeState dispatchEq dispatch.state name value
  | throughResponse =>
      obtain ⟨id, -, rfl⟩ := Option.map_eq_some_iff.mp writeEq
      exact exclusive.writeState dispatchEq id name value

/-- A release ends the lease of what it gives back. -/
theorem State.Exclusive.release
    (exclusive : state.Exclusive holds)
    (openHolds : ∀ phase live, isOpen phase live → holds phase live)
    {ending : Ending}
    (dispatchEq : state.dispatches number = some dispatch)
    (isIdle : dispatch.phase = .idle)
    (letsGo : holds .released dispatch.live → state.NothingReturned ending) :
    (state.release number dispatch ending).Exclusive holds := by
  let after : Dispatch Plan Data := { dispatch with phase := .released }
  have dispatchHolds : dispatch.Holds holds := openHolds _ _ (by simp [isOpen, isIdle])
  have fewer : ∀ {object : Dispatch Plan Data → Nat} {other id : Nat},
      object after = object dispatch →
      lease (Function.update state.dispatches number (some after)) holds object other =
        some id →
      lease state.dispatches holds object other = some id := fun objectEq =>
    lease_update_fewer dispatchEq objectEq fun _ => dispatchHolds
  have ends : ∀ {object : Dispatch Plan Data → Nat}, ¬ state.NothingReturned ending →
      lease (Function.update state.dispatches number (some after)) holds object number =
        none := fun returned => lease_update_self fun held => returned (letsGo held)
  have kept := exclusive.setDispatch dispatchEq after rfl rfl rfl
    (fun held => absurd rfl held) fun _ => dispatchHolds
  have requests : (releaseRequestObject state.requests dispatch.request).Leased
      (lease (Function.update state.dispatches number (some after)) holds
        Dispatch.request) := by
    unfold releaseRequestObject
    split
    case isTrue hasRoom =>
      refine ObjectPool.Leased.release (exclusive.requests.modify dispatch.request _)
        (lease_of dispatchEq dispatchHolds)
        (fun _ _ => fewer rfl) fun _ => ends ?_
      exact fun nothing => Nat.not_lt.mpr nothing.1 hasRoom
    case isFalse => exact kept.requests
  cases ending with
  | streamed => exact { kept with requests := requests }
  | encoded =>
      -- the reference is taken from the response object that only this dispatch holds
      have refOf : ∀ other holder, other ≠ number →
          state.dispatches other = some holder → holder.Holds holds →
          Function.update state.stateOf dispatch.response none holder.response =
            state.stateOf holder.response := by
        intro other holder differs holderEq holderHolds
        refine Function.update_of_ne (fun same => differs ?_) ..
        exact exclusive.responses.exclusive other number dispatch.response
          (same ▸ lease_of holderEq holderHolds) (lease_of dispatchEq dispatchHolds)
      exact
        { requests := requests
          responses := by
            refine ObjectPool.Leased.release
              (exclusive.responses.modify dispatch.response
                (assign · releasedResponseFields))
              (lease_of dispatchEq dispatchHolds) (fun _ _ => fewer rfl)
              fun hasRoom => ends ?_
            exact fun nothing => Nat.not_lt.mpr (nothing.2 rfl).1 hasRoom
          states := by
            refine ObjectPool.Leased.release exclusive.states
              (lease_of dispatchEq dispatchHolds) (fun _ _ => fewer rfl)
              fun hasRoom => ends ?_
            exact fun nothing => Nat.not_lt.mpr (nothing.2 rfl).2 hasRoom
          openRef := by
            intro other holder holderEq holderOpen
            simp only [State.release, Function.update_apply] at holderEq
            split at holderEq
            case isTrue =>
              cases holderEq
              exact absurd rfl holderOpen
            case isFalse differs =>
              have holderHolds : holder.Holds holds := openHolds _ _ holderOpen
              exact (refOf other holder differs holderEq holderHolds).trans
                (exclusive.openRef other holder holderEq holderOpen)
          heldRef := by
            intro other holder holderEq holderHolds id ref
            simp only [State.release, Function.update_apply] at holderEq
            split at holderEq
            case isTrue =>
              cases holderEq
              change Function.update state.stateOf dispatch.response none dispatch.response =
                some id at ref
              rw [Function.update_self] at ref
              cases ref
            case isFalse differs =>
              exact exclusive.heldRef other holder holderEq holderHolds id
                ((refOf other holder differs holderEq holderHolds).symm.trans ref) }

/-- Leases over one step. The step must not give back what is still held. -/
theorem State.Exclusive.step [DecidableEq Plan] [DecidableEq Data]
    (exclusive : state.Exclusive holds)
    (openHolds : ∀ phase live, isOpen phase live → holds phase live)
    (runs : ∀ live, holds .released live → 0 < live)
    (stays : ∀ live other, holds .released live → 0 < other → holds .released other)
    {event : Event Plan Data} {after : State Plan Data}
    (letsGo : ∀ number dispatch ending, event = .release number ending →
      state.dispatches number = some dispatch → holds .released dispatch.live →
        state.NothingReturned ending)
    (stepEq : state.step event = some after) :
    after.Exclusive holds := by
  cases state.step_change stepEq with
  | acquired number route decoded => exact exclusive.acquire openHolds number route decoded
  | turned number dispatch phase live dispatchEq sameEnd isLive =>
      refine exclusive.setDispatch dispatchEq _ rfl rfl rfl
        (fun held ended => held (sameEnd.mpr ended)) fun held => ?_
      by_cases ended : phase = .released
      · subst ended
        have oldEnded := sameEnd.mp rfl
        have oldLive := (isLive (runs live held)).resolve_left fun held => held oldEnded
        unfold Dispatch.Holds
        rw [oldEnded]
        exact stays live dispatch.live held oldLive
      · exact openHolds _ _ fun oldEnded => ended (sameEnd.mpr oldEnded)
  | wrote number dispatch target name value _ dispatchEq _ writeEq =>
      exact exclusive.write dispatchEq writeEq
  | released number dispatch ending dispatchEq isIdle =>
      exact exclusive.release openHolds dispatchEq isIdle
        (letsGo number dispatch ending rfl dispatchEq)

end Recycling

end HttpNative
