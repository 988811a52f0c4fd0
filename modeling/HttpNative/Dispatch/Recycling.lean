import HttpNative.Dispatch.ObjectLeases

/-!
# What survives recycling

Acquiring and releasing overwrite fixed lists of properties. When user code
leaves every other property of its objects as it found it, what a dispatch is
handed is what it would be handed in a fresh process.
-/

namespace HttpNative

namespace Recycling

variable {Plan Data : Type}

/-! ## Assigning properties -/

theorem assign_of_not_mem
    {object : Properties Plan Data} {fields : List (String × Value Plan Data)} {name : String}
    (notMem : name ∉ fields.map Prod.fst) :
    assign object fields name = object name := by
  induction fields generalizing object with
  | nil => rfl
  | cons field fields inductionHypothesis =>
      rw [List.map_cons, List.mem_cons, not_or] at notMem
      rw [assign, inductionHypothesis notMem.2, Function.update_of_ne notMem.1]

/-- Assigned properties do not depend on the object. -/
theorem assign_of_mem
    {left right : Properties Plan Data} {fields : List (String × Value Plan Data)}
    {name : String} (mem : name ∈ fields.map Prod.fst) :
    assign left fields name = assign right fields name := by
  induction fields generalizing left right with
  | nil => cases mem
  | cons field fields inductionHypothesis =>
      rw [assign, assign]
      by_cases later : name ∈ fields.map Prod.fst
      · exact inductionHypothesis later
      · obtain rfl := (List.mem_cons.mp mem).resolve_right later
        rw [assign_of_not_mem later, assign_of_not_mem later, Function.update_self,
          Function.update_self]

/-- Only the properties that are not assigned matter. -/
theorem assign_congr
    {left right : Properties Plan Data} {fields : List (String × Value Plan Data)}
    (agree : ∀ name, name ∉ fields.map Prod.fst → left name = right name) :
    assign left fields = assign right fields := by
  funext name
  by_cases mem : name ∈ fields.map Prod.fst
  · exact assign_of_mem mem
  · rw [assign_of_not_mem mem, assign_of_not_mem mem, agree name mem]

/-- Assigning what an object has already changes nothing. -/
theorem assign_self
    {object : Properties Plan Data} {fields : List (String × Value Plan Data)}
    (has : ∀ field ∈ fields, object field.1 = field.2) :
    assign object fields = object := by
  induction fields with
  | nil => rfl
  | cons field fields inductionHypothesis =>
      rw [List.forall_mem_cons] at has
      rw [assign, ← has.1, Function.update_eq_self]
      exact inductionHypothesis has.2

theorem assign_append
    (object : Properties Plan Data) (first second : List (String × Value Plan Data)) :
    assign object (first ++ second) = assign (assign object first) second := by
  induction first generalizing object with
  | nil => rfl
  | cons field first inductionHypothesis => exact inductionHypothesis _

/-! ## Clean objects -/

/-- The properties that `buildRequest` sets. -/
def requestFieldNames : List String :=
  ["_decoded", "_routeParamNames", "_plan", "_routeMethod", "method", "_path", "_url", "_ip",
    "_params", "_query", "_headers", "_headerLookup", "_bodyParsed"]

/-- The properties that `releaseRequestObject` sets. -/
def releasedRequestFieldNames : List String :=
  ["method", "_path", "_url", "_ip", "_params", "_query", "_headers", "_headerLookup",
    "_decoded", "_routeParamNames", "_plan", "_routeMethod", "validatedBody",
    "validatedQuery", "validatedParams"]

/-- The properties that `createResponseEnvelope` sets and `release` resets. -/
def responseFieldNames : List String :=
  ["_jsonSerializer", "locals"]

/-- The properties that `acquireResponseState` sets. -/
def stateFieldNames : List String :=
  ["status", "headers", "body", "finished", "locals", "ncache", "streaming", "streamId",
    "_sessionId", "_sessionIsNew", "_sessionCookie", "_sessionState"]

theorem requestFields_names (route : Route Plan) (decoded : Envelope) :
    (requestFields route decoded : List (String × Value Plan Data)).map Prod.fst = requestFieldNames := rfl

theorem releasedRequestFields_names :
    (releasedRequestFields : List (String × Value Plan Data)).map Prod.fst =
      releasedRequestFieldNames := rfl

theorem responseFields_names (route : Route Plan) :
    (responseFields route : List (String × Value Plan Data)).map Prod.fst = responseFieldNames := rfl

theorem pooledStateFields_names :
    (pooledStateFields : List (String × Value Plan Data)).map Prod.fst = stateFieldNames := rfl

/-- A request that differs from a new one only where `buildRequest` sets it. -/
def CleanRequest (request : Properties Plan Data) : Prop :=
  ∀ name, name ∉ requestFieldNames → request name = createPooledRequest name

/-- A response object with no further properties of its own. -/
def CleanResponse (response : Properties Plan Data) : Prop :=
  ∀ name, name ∉ responseFieldNames → response name = .undefined

/-- A response state with no further properties. -/
def CleanState (state : Properties Plan Data) : Prop :=
  ∀ name, name ∉ stateFieldNames → state name = .undefined

theorem cleanRequest_buildRequest (route : Route Plan) (decoded : Envelope) :
    CleanRequest (buildRequest route decoded none : Properties Plan Data) :=
  fun _ notMem => assign_of_not_mem notMem

theorem cleanResponse_createResponse (route : Route Plan) :
    CleanResponse (createResponse route none : Properties Plan Data) :=
  fun _ notMem => assign_of_not_mem notMem

/-- A pooled state and a new one differ in no property. -/
theorem acquireResponseState_none :
    (acquireResponseState none : Properties Plan Data) =
      assign noProperties pooledStateFields := by
  rw [pooledStateFields, assign_append, assign_self]
  · rfl
  · intro field mem
    simp only [List.mem_cons, List.not_mem_nil, or_false] at mem
    obtain rfl | rfl | rfl | rfl := mem <;> rfl

theorem cleanState_acquireResponseState :
    CleanState (acquireResponseState none : Properties Plan Data) := by
  intro name notMem
  rw [acquireResponseState_none]
  exact assign_of_not_mem notMem

theorem CleanRequest.buildRequest_some
    {request : Properties Plan Data} (isClean : CleanRequest request)
    (route : Route Plan) (decoded : Envelope) :
    buildRequest route decoded (some request) = buildRequest route decoded none :=
  assign_congr isClean

theorem CleanResponse.createResponse_some
    {response : Properties Plan Data} (isClean : CleanResponse response)
    (route : Route Plan) :
    createResponse route (some response) = createResponse route none :=
  assign_congr isClean

theorem CleanState.acquireResponseState_some
    {state : Properties Plan Data} (isClean : CleanState state) :
    acquireResponseState (some state) = acquireResponseState none := by
  rw [acquireResponseState_none]
  exact assign_congr isClean

/-- What `releaseRequestObject` assigns is what a new request has. -/
theorem assign_releasedRequestFields :
    assign (createPooledRequest : Properties Plan Data) releasedRequestFields =
      createPooledRequest := by
  refine assign_self fun field mem => ?_
  simp only [releasedRequestFields, List.mem_cons, List.not_mem_nil, or_false] at mem
  obtain rfl | rfl | rfl | rfl | rfl | rfl | rfl | rfl | rfl | rfl | rfl | rfl | rfl | rfl |
    rfl := mem <;> rfl

theorem cleanRequest_released
    {request : Properties Plan Data}
    (kept : ∀ name, name ∉ requestFieldNames → name ∉ releasedRequestFieldNames →
      request name = createPooledRequest name) :
    CleanRequest (assign request releasedRequestFields) := by
  intro name notMem
  by_cases isReset : name ∈ releasedRequestFieldNames
  · rw [← assign_releasedRequestFields]
    exact assign_of_mem isReset
  · rw [assign_of_not_mem isReset]
    exact kept name notMem isReset

theorem CleanResponse.released
    {response : Properties Plan Data} (isClean : CleanResponse response) :
    CleanResponse (assign response releasedResponseFields) := by
  intro name notMem
  rw [assign_of_not_mem]
  · exact isClean name notMem
  · simp only [responseFieldNames, List.mem_cons, List.not_mem_nil, or_false, not_or] at notMem
    simp [releasedResponseFields, notMem]

/-! ## Leaving things as found -/

/-- The properties of a written object that the next acquisition sets anew. -/
def Target.fieldNames : Target → List String
  | .request => requestFieldNames
  | .response => responseFieldNames
  | .state | .throughResponse => stateFieldNames

/-- Every object that goes back to its pool has, outside the properties that
releasing and acquiring set, the properties with which it was handed over. -/
structure State.LeftAsFound (state : State Plan Data) (dispatch : Dispatch Plan Data)
    (ending : Ending) : Prop where
  request : state.requests.free.length < requestPoolMax → ∀ name,
    name ∉ requestFieldNames → name ∉ releasedRequestFieldNames →
      state.requests.objects dispatch.request name = dispatch.handedRequest name
  response : ending = .encoded → state.responses.free.length < responsePoolMax → ∀ name,
    name ∉ responseFieldNames →
      state.responses.objects dispatch.response name = dispatch.handedResponse name
  state : ending = .encoded → state.states.free.length < responsePoolMax → ∀ name,
    name ∉ stateFieldNames →
      state.states.objects dispatch.state name = dispatch.handedState name

/-- The condition on a step: user code has left the objects as it found them
when they are released, and code that runs later writes only properties that
the next acquisition sets anew. -/
def Tidy (state : State Plan Data) : Event Plan Data → Prop
  | .write number target name _ => ∀ dispatch, state.dispatches number = some dispatch →
      dispatch.phase = .released → name ∈ target.fieldNames
  | .release number ending => ∀ dispatch, state.dispatches number = some dispatch →
      state.LeftAsFound dispatch ending
  | _ => True

/-- The free objects are clean, and every dispatch was handed what a fresh
process hands out for its route and its envelope. -/
structure State.Undisturbed (state : State Plan Data) : Prop where
  requests : state.requests.FreeAll CleanRequest
  responses : state.responses.FreeAll CleanResponse
  states : state.states.FreeAll CleanState
  handedRequest : ∀ number dispatch, state.dispatches number = some dispatch →
    dispatch.handedRequest = buildRequest dispatch.route dispatch.decoded none
  handedResponse : ∀ number dispatch, state.dispatches number = some dispatch →
    dispatch.handedResponse = createResponse dispatch.route none
  handedState : ∀ number dispatch, state.dispatches number = some dispatch →
    dispatch.handedState = acquireResponseState none

theorem State.undisturbed_initial : (State.initial : State Plan Data).Undisturbed where
  requests := ObjectPool.freeAll_empty _
  responses := ObjectPool.freeAll_empty _
  states := ObjectPool.freeAll_empty _
  handedRequest := nofun
  handedResponse := nofun
  handedState := nofun

variable {state : State Plan Data} {number : Nat} {dispatch next : Dispatch Plan Data}

namespace State.Undisturbed

/-- What the next dispatch is handed. -/
theorem initialised
    (undisturbed : state.Undisturbed) (route : Route Plan) (decoded : Envelope) :
    buildRequest route decoded state.requests.recycled = buildRequest route decoded none ∧
      createResponse route state.responses.recycled = createResponse route none ∧
      acquireResponseState state.states.recycled = acquireResponseState none :=
  ⟨undisturbed.requests.initialise_recycled
      fun _ isClean => isClean.buildRequest_some route decoded,
    undisturbed.responses.initialise_recycled
      fun _ isClean => isClean.createResponse_some route,
    undisturbed.states.initialise_recycled
      fun _ isClean => isClean.acquireResponseState_some⟩

theorem acquire
    (undisturbed : state.Undisturbed) (exclusive : state.Exclusive isOpen)
    (number : Nat) (route : Route Plan) (decoded : Envelope) :
    (state.acquire number route decoded).Undisturbed := by
  obtain ⟨requestEq, responseEq, stateEq⟩ := undisturbed.initialised route decoded
  have record : ∀ {property : Dispatch Plan Data → Prop},
      property (state.newDispatch route decoded) →
      (∀ number dispatch, state.dispatches number = some dispatch → property dispatch) →
      ∀ other dispatch, (state.acquire number route decoded).dispatches other = some dispatch →
        property dispatch := by
    intro property isNew older other dispatch dispatchEq
    rw [acquire_dispatches, Function.update_apply] at dispatchEq
    split at dispatchEq
    · cases dispatchEq
      exact isNew
    · exact older other dispatch dispatchEq
  exact
    { requests := undisturbed.requests.acquire exclusive.requests.freeNodup _
      responses := undisturbed.responses.acquire exclusive.responses.freeNodup _
      states := undisturbed.states.acquire exclusive.states.freeNodup _
      handedRequest := record requestEq undisturbed.handedRequest
      handedResponse := record responseEq undisturbed.handedResponse
      handedState := record stateEq undisturbed.handedState }

/-- A dispatch may change what is not recorded of its hand-over. -/
theorem setDispatch
    (undisturbed : state.Undisturbed)
    (dispatchEq : state.dispatches number = some dispatch)
    (next : Dispatch Plan Data)
    (routeEq : next.route = dispatch.route) (decodedEq : next.decoded = dispatch.decoded)
    (requestEq : next.handedRequest = dispatch.handedRequest)
    (responseEq : next.handedResponse = dispatch.handedResponse)
    (stateEq : next.handedState = dispatch.handedState) :
    (state.setDispatch number next).Undisturbed := by
  have record : ∀ {property : Dispatch Plan Data → Prop},
      (property dispatch → property next) →
      (∀ number dispatch, state.dispatches number = some dispatch → property dispatch) →
      ∀ other dispatch, (state.setDispatch number next).dispatches other = some dispatch →
        property dispatch := by
    intro property kept before other holder holderEq
    simp only [State.setDispatch, Function.update_apply] at holderEq
    split at holderEq
    · cases holderEq
      exact kept (before number dispatch dispatchEq)
    · exact before other holder holderEq
  exact
    { requests := undisturbed.requests
      responses := undisturbed.responses
      states := undisturbed.states
      handedRequest := record (fun held => by rw [requestEq, held, routeEq, decodedEq])
        undisturbed.handedRequest
      handedResponse := record (fun held => by rw [responseEq, held, routeEq])
        undisturbed.handedResponse
      handedState := record (fun held => by rw [stateEq, held]) undisturbed.handedState }

theorem writeState
    (undisturbed : state.Undisturbed)
    (dispatchEq : state.dispatches number = some dispatch)
    {id : Nat} {name : String} (value : Value Plan Data)
    (allowed : id ∈ state.states.free → name ∈ stateFieldNames) :
    (state.writeState number dispatch id name value).Undisturbed :=
  have kept := undisturbed.setDispatch dispatchEq
    { dispatch with
      stateWrites :=
        if id = dispatch.state then dispatch.stateWrites ++ [(name, value)]
        else dispatch.stateWrites }
    rfl rfl rfl rfl rfl
  { requests := kept.requests
    responses := kept.responses
    states := kept.states.modify fun isFree isClean other notMem => by
      have differs : other ≠ name := fun same => notMem (same ▸ allowed isFree)
      rw [Function.update_of_ne differs]
      exact isClean other notMem
    handedRequest := kept.handedRequest
    handedResponse := kept.handedResponse
    handedState := kept.handedState }

/-- Before the release the objects are not free; after it only properties are
written that acquiring sets anew. -/
theorem write
    (undisturbed : state.Undisturbed) (exclusive : state.Exclusive isOpen)
    {target : Target} {name : String} {value : Value Plan Data} {after : State Plan Data}
    (dispatchEq : state.dispatches number = some dispatch)
    (tidy : dispatch.phase = .released → name ∈ target.fieldNames)
    (writeEq : state.write number dispatch name value target = some after) :
    after.Undisturbed := by
  have allowed : ∀ {pool : ObjectPool (Properties Plan Data)}
      {object : Dispatch Plan Data → Nat},
      pool.Leased (lease state.dispatches isOpen object) → object dispatch ∈ pool.free →
        name ∈ target.fieldNames := by
    intro pool object leased isFree
    by_contra notMem
    have dispatchOpen : dispatch.Holds isOpen := fun ended => notMem (tidy ended)
    exact leased.notFree number _ (lease_of dispatchEq dispatchOpen) isFree
  cases target with
  | request =>
      cases writeEq
      exact
        { undisturbed with
          requests := undisturbed.requests.modify fun isFree isClean other notMem => by
            have differs : other ≠ name :=
              fun same => notMem (same ▸ allowed exclusive.requests isFree)
            rw [Function.update_of_ne differs]
            exact isClean other notMem }
  | response =>
      cases writeEq
      exact
        { undisturbed with
          responses := undisturbed.responses.modify fun isFree isClean other notMem => by
            have differs : other ≠ name :=
              fun same => notMem (same ▸ allowed exclusive.responses isFree)
            rw [Function.update_of_ne differs]
            exact isClean other notMem }
  | state =>
      cases writeEq
      exact undisturbed.writeState dispatchEq value (allowed exclusive.states)
  | throughResponse =>
      obtain ⟨id, refEq, rfl⟩ := Option.map_eq_some_iff.mp writeEq
      refine undisturbed.writeState dispatchEq value fun isFree => ?_
      by_contra notMem
      have dispatchOpen : dispatch.Holds isOpen := fun ended => notMem (tidy ended)
      have ownRef := exclusive.openRef number dispatch dispatchEq dispatchOpen
      rw [refEq] at ownRef
      cases ownRef
      exact notMem (allowed exclusive.states isFree)

theorem releaseRequest
    (undisturbed : state.Undisturbed) (exclusive : state.Exclusive isOpen)
    (dispatchEq : state.dispatches number = some dispatch)
    (dispatchOpen : dispatch.Holds isOpen) {ending : Ending}
    (leftAsFound : state.LeftAsFound dispatch ending) :
    (releaseRequestObject state.requests dispatch.request).FreeAll CleanRequest := by
  have notFree := exclusive.requests.notFree number _ (lease_of dispatchEq dispatchOpen)
  unfold releaseRequestObject
  split
  case isTrue hasRoom =>
    refine (undisturbed.requests.modify fun isFree => absurd isFree notFree).release fun _ => ?_
    rw [ObjectPool.modify_objects_self]
    refine cleanRequest_released fun name notMem notReset => ?_
    rw [leftAsFound.request hasRoom name notMem notReset,
      undisturbed.handedRequest number dispatch dispatchEq]
    exact cleanRequest_buildRequest _ _ name notMem
  case isFalse => exact undisturbed.requests

theorem release
    (undisturbed : state.Undisturbed) (exclusive : state.Exclusive isOpen)
    (dispatchEq : state.dispatches number = some dispatch)
    (isIdle : dispatch.phase = .idle) {ending : Ending}
    (leftAsFound : state.LeftAsFound dispatch ending) :
    (state.release number dispatch ending).Undisturbed := by
  have dispatchOpen : dispatch.Holds isOpen := by simp [Dispatch.Holds, isOpen, isIdle]
  have kept := undisturbed.setDispatch dispatchEq
    { dispatch with phase := .released } rfl rfl rfl rfl rfl
  have requests := undisturbed.releaseRequest exclusive dispatchEq dispatchOpen leftAsFound
  cases ending with
  | streamed => exact { kept with requests := requests }
  | encoded =>
      have responseNotFree :=
        exclusive.responses.notFree number _ (lease_of dispatchEq dispatchOpen)
      exact
        { kept with
          requests := requests
          responses := by
            refine (undisturbed.responses.modify fun isFree =>
              absurd isFree responseNotFree).release fun hasRoom => ?_
            rw [ObjectPool.modify_objects_self]
            refine CleanResponse.released fun name notMem => ?_
            rw [leftAsFound.response rfl hasRoom name notMem,
              undisturbed.handedResponse number dispatch dispatchEq]
            exact cleanResponse_createResponse _ name notMem
          states := undisturbed.states.release fun hasRoom name notMem => by
            rw [leftAsFound.state rfl hasRoom name notMem,
              undisturbed.handedState number dispatch dispatchEq]
            exact cleanState_acquireResponseState name notMem }

end State.Undisturbed

/-! ## Every run -/

variable [DecidableEq Plan] [DecidableEq Data]

theorem exclusive_of_reaches
    (reaches : Machine.Reaches machine state) :
    state.Exclusive isOpen :=
  reaches.invariant State.exclusive_initial fun _ _ _ exclusive _ stepEq =>
    exclusive.step (fun _ _ => id) (fun _ held => absurd rfl held)
      (fun _ _ held => absurd rfl held) (fun _ _ _ _ _ held => absurd rfl held) stepEq

theorem undisturbed_of_tidy
    (reaches : Machine.ReachesUnder machine Tidy state) :
    state.Undisturbed := by
  refine reaches.invariant_with (fun _ before => exclusive_of_reaches before.reaches)
    State.undisturbed_initial ?_
  intro state event after exclusive undisturbed tidy stepEq
  cases state.step_change stepEq with
  | acquired number route decoded => exact undisturbed.acquire exclusive number route decoded
  | turned number dispatch phase live dispatchEq =>
      exact undisturbed.setDispatch dispatchEq _ rfl rfl rfl rfl rfl
  | wrote number dispatch target name value _ dispatchEq _ writeEq =>
      exact undisturbed.write exclusive dispatchEq (tidy dispatch dispatchEq) writeEq
  | released number dispatch ending dispatchEq isIdle =>
      exact undisturbed.release exclusive dispatchEq isIdle (tidy dispatch dispatchEq)

/-- The objects that a step hands to a dispatch. -/
structure HandedOver (next : State Plan Data) (dispatch : Dispatch Plan Data)
    (route : Route Plan) (decoded : Envelope) : Prop where
  request : next.requests.objects dispatch.request = buildRequest route decoded none
  response : next.responses.objects dispatch.response = createResponse route none
  state : next.states.objects dispatch.state = acquireResponseState none
  ref : next.stateOf dispatch.response = some dispatch.state

/-- In a tidy run every dispatch is handed objects that are determined by its
route and its envelope. -/
theorem handedOver_of_tidy
    {next : State Plan Data} {route : Route Plan} {decoded : Envelope}
    (reaches : Machine.ReachesUnder machine Tidy state)
    (stepEq : machine.step state (.acquire number route decoded) = some next)
    (dispatchEq : next.dispatches number = some dispatch) :
    HandedOver next dispatch route decoded := by
  obtain ⟨requestEq, responseEq, stateEq⟩ :=
    (undisturbed_of_tidy reaches).initialised route decoded
  simp only [machine, State.step] at stepEq
  split at stepEq <;> cases stepEq
  rw [State.acquire_dispatches, Function.update_self] at dispatchEq
  cases dispatchEq
  exact
    { request := (state.requests.acquire_objects_nextId _).trans requestEq
      response := (state.responses.acquire_objects_nextId _).trans responseEq
      state := (state.states.acquire_objects_nextId _).trans stateEq
      ref := Function.update_self .. }

/-! ## One request after another -/

/-- Dispatches are handled one after another: a new one begins when no code of
an earlier one can run any more. -/
def Sequential (state : State Plan Data) : Event Plan Data → Prop
  | .acquire _ _ _ => ∀ number dispatch, state.dispatches number = some dispatch →
      ¬ dispatch.Holds canRun
  | _ => True

/-- A route without an access plan, and a `GET` of it with an empty envelope. -/
def plainRoute : Route Unit where
  plan := ()
  routeParamNames := []
  routeMethod := some "GET"
  jsonSerializer := "fallback"

def plainEnvelope : Envelope where
  handlerId := 1
  flags := 0
  methodCode := 1
  urlBytes := []
  pathBytes := []
  ipBytes := []
  paramValues := []
  rawHeaders := []
  bodyBytes := none

/-- A second dispatch after one whose validation middleware stored a body. -/
theorem handedOver_of_tidy_validated :
    ∃ (state next : State Unit String) (dispatch : Dispatch Unit String),
      state.requests.recycled.isSome ∧
        machine.step state (.acquire 1 plainRoute plainEnvelope) = some next ∧
        HandedOver next dispatch plainRoute plainEnvelope := by
  have extend : ∀ state : State Unit String, Machine.ReachesUnder machine Tidy state →
      state.dispatches 1 = none → ∃ next dispatch,
        machine.step state (.acquire 1 plainRoute plainEnvelope) = some next ∧
          next.dispatches 1 = some dispatch := by
    intro state _ isNew
    exact ⟨state.acquire 1 plainRoute plainEnvelope,
      state.newDispatch plainRoute plainEnvelope,
      by simp only [machine, State.step, isNew], rfl⟩
  have initial : Machine.ReachesUnder machine Tidy (State.initial : State Unit String) := .start
  have acquired := initial.step
    (show Tidy _ (.acquire 0 plainRoute plainEnvelope) from trivial) rfl
  have called := acquired.step (show Tidy _ (.callUser 0) from trivial) rfl
  have written := called.step
    (show Tidy _ (.write 0 .request "validatedBody" (.data "body")) from ?_) rfl
  · have settled := written.step (show Tidy _ (.userReturns 0 true) from trivial) rfl
    have released := settled.step (show Tidy _ (.release 0 .encoded) from ?_) rfl
    · obtain ⟨next, dispatch, stepEq, dispatchEq⟩ := extend _ released rfl
      exact ⟨_, next, dispatch, rfl, stepEq, handedOver_of_tidy released stepEq dispatchEq⟩
    · intro dispatch dispatchEq
      cases dispatchEq
      refine ⟨fun _ name _ notReset => ?_, fun _ _ _ _ => rfl, fun _ _ _ _ => rfl⟩
      have differs : name ≠ "validatedBody" := by
        rintro rfl
        exact notReset (by decide)
      exact Function.update_of_ne differs ..
  · intro dispatch dispatchEq ended
    cases dispatchEq
    cases ended

/-- A second dispatch after one that stored a session id on `res`. -/
theorem not_handedOver_of_session :
    ¬ ∀ (state next : State Unit String) (number : Nat) (dispatch : Dispatch Unit String)
        (route : Route Unit) (decoded : Envelope),
      Machine.ReachesUnder machine Sequential state →
      Sequential state (.acquire number route decoded) →
      machine.step state (.acquire number route decoded) = some next →
      next.dispatches number = some dispatch →
      HandedOver next dispatch route decoded := by
  intro always
  have initial : Machine.ReachesUnder machine Sequential (State.initial : State Unit String) :=
    .start
  have acquired := initial.step
    (show Sequential _ (.acquire 0 plainRoute plainEnvelope) from nofun) rfl
  have called := acquired.step (show Sequential _ (.callUser 0) from trivial) rfl
  have written := called.step
    (show Sequential _ (.write 0 .response "_sessionId" (.data "alice")) from trivial) rfl
  have settled := written.step (show Sequential _ (.userReturns 0 true) from trivial) rfl
  have released := settled.step (show Sequential _ (.release 0 .encoded) from trivial) rfl
  have leaked := (always _ _ 1 _ plainRoute plainEnvelope released ?_ rfl rfl).response
  · exact absurd (congrFun leaked "_sessionId") (by decide)
  · intro number dispatch dispatchEq
    obtain rfl | differs := eq_or_ne number 0
    · cases dispatchEq
      rintro (isOpen | isLive)
      · exact isOpen rfl
      · exact absurd isLive (by decide)
    · have isNew := dispatchEq.symm.trans <| (Function.update_of_ne differs ..).trans <|
        (Function.update_of_ne differs ..).trans <| (Function.update_of_ne differs ..).trans <|
        Function.update_of_ne differs ..
      cases isNew

end Recycling

end HttpNative
