import HttpNative.Library.Machine
import HttpNative.Library.ObjectPool

/-!
# Recycled request and response objects

The pools of request objects, response objects and response states, and the
concurrent dispatches that acquire and release them. An object is its
properties; the reference from a response object to its state is kept apart.
User code is any number of pieces of work of a dispatch, each of which may
write any plain value to any property of the objects it was handed, also after
the dispatcher has released them.
-/

namespace HttpNative

namespace Recycling

/-! ## Values and properties -/

/-- `decodeRequestEnvelope`'s result. -/
structure Envelope where
  handlerId : Nat
  flags : Nat
  methodCode : Nat
  urlBytes : List UInt8
  pathBytes : List UInt8
  ipBytes : List UInt8
  paramValues : List (List UInt8)
  rawHeaders : List (List UInt8 × List UInt8)
  bodyBytes : Option (List UInt8)
deriving DecidableEq

/-- What a request factory and a response envelope are made for. -/
structure Route (Plan : Type) where
  plan : Plan
  routeParamNames : List String
  routeMethod : Option String
  jsonSerializer : String

/-- Values of properties; `builtin` is a getter or method that the framework
defines, `data` anything that user code stores. -/
inductive Value (Plan Data : Type) where
  | undefined
  | null
  | text (content : String)
  | number (value : Nat)
  | flag (value : Bool)
  | emptyObject
  | emptyBuffer
  | builtin (name : String)
  | decoded (envelope : Envelope)
  | names (names : List String)
  | plan (plan : Plan)
  | jsonSerializer (kind : String)
  | data (data : Data)
deriving DecidableEq

/-- The own properties of an object; a missing one reads as `undefined`. -/
abbrev Properties (Plan Data : Type) :=
  String → Value Plan Data

variable {Plan Data : Type}

/-- Assign properties one after another. -/
def assign (object : Properties Plan Data) :
    List (String × Value Plan Data) → Properties Plan Data
  | [] => object
  | (name, value) :: fields => assign (Function.update object name value) fields

/-- `Object.create(null)` and `Object.create(RESPONSE_PROTO)`. -/
def noProperties : Properties Plan Data :=
  fun _ => .undefined

/-! ## Requests -/

/-- `METHOD_CODES` read backwards. -/
def methodNameFromCode (methodCode : Nat) : String :=
  match methodCode with
  | 1 => "GET"
  | 2 => "POST"
  | 3 => "PUT"
  | 4 => "DELETE"
  | 5 => "PATCH"
  | 6 => "OPTIONS"
  | 7 => "HEAD"
  | _ => ""

/-- `createPooledRequest`. -/
def createPooledRequest : Properties Plan Data :=
  assign noProperties
    [("_path", .undefined), ("_url", .undefined), ("_ip", .undefined),
      ("_params", .undefined), ("_query", .undefined), ("_headers", .undefined),
      ("_headerLookup", .undefined), ("_bodyParsed", .undefined), ("_decoded", .null),
      ("_routeParamNames", .null), ("_plan", .null), ("_routeMethod", .null),
      ("method", .text ""), ("path", .builtin "path"), ("url", .builtin "url"),
      ("ip", .builtin "ip"), ("params", .builtin "params"), ("query", .builtin "query"),
      ("headers", .builtin "headers"), ("header", .builtin "header"),
      ("body", .builtin "body"), ("json", .builtin "json"), ("text", .builtin "text"),
      ("arrayBuffer", .builtin "arrayBuffer")]

/-- The assignments of `buildRequest`. -/
def requestFields (route : Route Plan) (decoded : Envelope) :
    List (String × Value Plan Data) :=
  [("_decoded", .decoded decoded), ("_routeParamNames", .names route.routeParamNames),
    ("_plan", .plan route.plan),
    ("_routeMethod", route.routeMethod.elim .null .text),
    ("method", .text (route.routeMethod.getD (methodNameFromCode decoded.methodCode))),
    ("_path", .undefined), ("_url", .undefined), ("_ip", .undefined),
    ("_params", .undefined), ("_query", .undefined), ("_headers", .undefined),
    ("_headerLookup", .undefined), ("_bodyParsed", .undefined)]

/-- `createRequestFactory`'s `buildRequest`, on a pooled request or a new one. -/
def buildRequest (route : Route Plan) (decoded : Envelope)
    (pooled : Option (Properties Plan Data)) : Properties Plan Data :=
  assign (pooled.getD createPooledRequest) (requestFields route decoded)

/-- The assignments of `releaseRequestObject`. -/
def releasedRequestFields : List (String × Value Plan Data) :=
  [("method", .text ""), ("_path", .undefined), ("_url", .undefined), ("_ip", .undefined),
    ("_params", .undefined), ("_query", .undefined), ("_headers", .undefined),
    ("_headerLookup", .undefined), ("_decoded", .null), ("_routeParamNames", .null),
    ("_plan", .null), ("_routeMethod", .null), ("validatedBody", .undefined),
    ("validatedQuery", .undefined), ("validatedParams", .undefined)]

/-- `REQUEST_POOL_MAX`. -/
def requestPoolMax : Nat := 512

/-- `releaseRequestObject`: a full pool leaves the request as it is. -/
def releaseRequestObject (requests : ObjectPool (Properties Plan Data)) (id : Nat) :
    ObjectPool (Properties Plan Data) :=
  if requests.free.length < requestPoolMax then
    (requests.modify id (assign · releasedRequestFields)).release requestPoolMax id
  else
    requests

/-! ## Responses and their states -/

/-- The object literal of `acquireResponseState`. -/
def newStateFields : List (String × Value Plan Data) :=
  [("status", .number 200), ("headers", .emptyObject), ("body", .emptyBuffer),
    ("finished", .flag false), ("locals", .emptyObject), ("ncache", .null),
    ("streaming", .flag false), ("streamId", .null)]

/-- The assignments of `acquireResponseState` to a pooled state. -/
def pooledStateFields : List (String × Value Plan Data) :=
  newStateFields ++
    [("_sessionId", .undefined), ("_sessionIsNew", .undefined),
      ("_sessionCookie", .undefined), ("_sessionState", .undefined)]

/-- `acquireResponseState`. -/
def acquireResponseState (pooled : Option (Properties Plan Data)) : Properties Plan Data :=
  match pooled with
  | some state => assign state pooledStateFields
  | none => assign noProperties newStateFields

/-- The assignments of `createResponseEnvelope`, without `_state`. -/
def responseFields (route : Route Plan) : List (String × Value Plan Data) :=
  [("_jsonSerializer", .jsonSerializer route.jsonSerializer), ("locals", .emptyObject)]

/-- The response object of `createResponseEnvelope`. -/
def createResponse (route : Route Plan) (pooled : Option (Properties Plan Data)) :
    Properties Plan Data :=
  assign (pooled.getD noProperties) (responseFields route)

/-- The assignments of `release`, without `_state`; the default serializer is
the fallback one. -/
def releasedResponseFields : List (String × Value Plan Data) :=
  [("locals", .null), ("_jsonSerializer", .jsonSerializer "fallback")]

/-- `RESPONSE_POOL_MAX`. -/
def responsePoolMax : Nat := 512

/-- The response object in `release()` of its envelope. -/
def releaseResponse (responses : ObjectPool (Properties Plan Data)) (id : Nat) :
    ObjectPool (Properties Plan Data) :=
  (responses.modify id (assign · releasedResponseFields)).release responsePoolMax id

/-- `snapshot()`: all that the encoded response depends on. -/
def snapshot (state : Properties Plan Data) : List (Value Plan Data) :=
  ["status", "headers", "body", "ncache"].map state

/-! ## Dispatches -/

/-- The dispatcher of a request: between two calls of user code, in the
synchronous part of one, awaiting one, or done with the objects. -/
inductive Phase where
  | idle
  | calls
  | awaits
  | released
deriving DecidableEq, Repr

/-- One dispatch. `live` counts its pieces of user code that can still run.
The last four fields record what it was handed, before any user code, and what
its own code has written to its response state. -/
structure Dispatch (Plan Data : Type) where
  route : Route Plan
  decoded : Envelope
  request : Nat
  response : Nat
  state : Nat
  phase : Phase
  live : Nat
  handedRequest : Properties Plan Data
  handedResponse : Properties Plan Data
  handedState : Properties Plan Data
  stateWrites : List (String × Value Plan Data)

/-- The call of user code that the dispatcher is in, if any, counted. -/
def Dispatch.inCall (dispatch : Dispatch Plan Data) : Nat :=
  match dispatch.phase with
  | .calls | .awaits => 1
  | .idle | .released => 0

/-- The three pools, `res._state` of every response object, and the dispatches
by number. -/
structure State (Plan Data : Type) where
  requests : ObjectPool (Properties Plan Data)
  responses : ObjectPool (Properties Plan Data)
  states : ObjectPool (Properties Plan Data)
  stateOf : Nat → Option Nat
  dispatches : Nat → Option (Dispatch Plan Data)

def State.initial : State Plan Data where
  requests := .empty noProperties
  responses := .empty noProperties
  states := .empty noProperties
  stateOf := fun _ => none
  dispatches := fun _ => none

/-- What user code writes to: its request, its response object, the state it
was handed, or the state that its response object refers to by now. -/
inductive Target where
  | request
  | response
  | state
  | throughResponse
deriving DecidableEq, Repr

/-- How `dispatch` ends: with an encoded response (of the handler or of
`finalizeError`), or with a stream, which keeps the response and its state. -/
inductive Ending where
  | encoded
  | streamed
deriving DecidableEq, Repr

inductive Event (Plan Data : Type) where
  | acquire (dispatch : Nat) (route : Route Plan) (decoded : Envelope)
  | callUser (dispatch : Nat)
  | userReturns (dispatch : Nat) (settled : Bool)
  | awaitedSettles (dispatch : Nat)
  | leaveWork (dispatch : Nat)
  | workEnds (dispatch : Nat)
  | write (dispatch : Nat) (target : Target) (name : String) (value : Value Plan Data)
  | release (dispatch : Nat) (ending : Ending)

namespace State

def setDispatch (state : State Plan Data) (number : Nat) (dispatch : Dispatch Plan Data) :
    State Plan Data :=
  { state with dispatches := Function.update state.dispatches number (some dispatch) }

/-- The dispatch that takes the next objects. -/
def newDispatch (state : State Plan Data) (route : Route Plan) (decoded : Envelope) :
    Dispatch Plan Data where
  route := route
  decoded := decoded
  request := state.requests.nextId
  response := state.responses.nextId
  state := state.states.nextId
  phase := .idle
  live := 0
  handedRequest := buildRequest route decoded state.requests.recycled
  handedResponse := createResponse route state.responses.recycled
  handedState := acquireResponseState state.states.recycled
  stateWrites := []

/-- `route.requestFactory(decoded)` and `createResponseEnvelope`. -/
def acquire (state : State Plan Data) (number : Nat) (route : Route Plan)
    (decoded : Envelope) : State Plan Data where
  requests := state.requests.acquire (buildRequest route decoded)
  responses := state.responses.acquire (createResponse route)
  states := state.states.acquire acquireResponseState
  stateOf := Function.update state.stateOf state.responses.nextId (some state.states.nextId)
  dispatches :=
    Function.update state.dispatches number (some (state.newDispatch route decoded))

/-- `res.finished`, read through `res._state`. -/
def finished [DecidableEq Plan] [DecidableEq Data]
    (state : State Plan Data) (dispatch : Dispatch Plan Data) : Bool :=
  match state.stateOf dispatch.response with
  | some id => state.states.objects id "finished" == .flag true
  | none => false

/-- Code of a dispatch writes a property of a response state. -/
def writeState (state : State Plan Data) (number : Nat) (dispatch : Dispatch Plan Data)
    (id : Nat) (name : String) (value : Value Plan Data) : State Plan Data :=
  { state with
    states := state.states.modify id (Function.update · name value)
    dispatches := Function.update state.dispatches number <| some
      { dispatch with
        stateWrites :=
          if id = dispatch.state then dispatch.stateWrites ++ [(name, value)]
          else dispatch.stateWrites } }

/-- Code of a dispatch writes a property. -/
def write (state : State Plan Data) (number : Nat) (dispatch : Dispatch Plan Data)
    (name : String) (value : Value Plan Data) : Target → Option (State Plan Data)
  | .request =>
      some
        { state with
          requests := state.requests.modify dispatch.request (Function.update · name value) }
  | .response =>
      some
        { state with
          responses :=
            state.responses.modify dispatch.response (Function.update · name value) }
  | .state => some (state.writeState number dispatch dispatch.state name value)
  | .throughResponse =>
      -- `this._state` is `null` once the response object has been released
      (state.stateOf dispatch.response).map fun id =>
        state.writeState number dispatch id name value

/-- The end of `dispatch`. -/
def release (state : State Plan Data) (number : Nat) (dispatch : Dispatch Plan Data) :
    Ending → State Plan Data
  | .encoded =>
      { requests := releaseRequestObject state.requests dispatch.request
        responses := releaseResponse state.responses dispatch.response
        states := state.states.release responsePoolMax dispatch.state
        stateOf := Function.update state.stateOf dispatch.response none
        dispatches :=
          Function.update state.dispatches number (some { dispatch with phase := .released }) }
  | .streamed =>
      { state with
        requests := releaseRequestObject state.requests dispatch.request
        dispatches :=
          Function.update state.dispatches number (some { dispatch with phase := .released }) }

variable [DecidableEq Plan] [DecidableEq Data]

/-- One turn of the dispatcher or of user code. -/
def step (state : State Plan Data) : Event Plan Data → Option (State Plan Data)
  | .acquire number route decoded =>
      match state.dispatches number with
      | none => some (state.acquire number route decoded)
      | some _ => none
  | .callUser number => do
      let dispatch ← state.dispatches number
      if dispatch.phase = .idle then
        some (state.setDispatch number
          { dispatch with phase := .calls, live := dispatch.live + 1 })
      else
        none
  | .userReturns number settled => do
      let dispatch ← state.dispatches number
      if dispatch.phase = .calls ∧ 0 < dispatch.live then
        if settled then
          some (state.setDispatch number
            { dispatch with phase := .idle, live := dispatch.live - 1 })
        else if state.finished dispatch then
          -- the promise is not awaited, its code goes on by itself
          some (state.setDispatch number { dispatch with phase := .idle })
        else
          some (state.setDispatch number { dispatch with phase := .awaits })
      else
        none
  | .awaitedSettles number => do
      let dispatch ← state.dispatches number
      if dispatch.phase = .awaits ∧ 0 < dispatch.live then
        some (state.setDispatch number
          { dispatch with phase := .idle, live := dispatch.live - 1 })
      else
        none
  | .leaveWork number => do
      let dispatch ← state.dispatches number
      if 0 < dispatch.live then
        some (state.setDispatch number { dispatch with live := dispatch.live + 1 })
      else
        none
  | .workEnds number => do
      let dispatch ← state.dispatches number
      if dispatch.inCall < dispatch.live then
        some (state.setDispatch number { dispatch with live := dispatch.live - 1 })
      else
        none
  | .write number target name value => do
      let dispatch ← state.dispatches number
      if 0 < dispatch.live then
        state.write number dispatch name value target
      else
        none
  | .release number ending => do
      let dispatch ← state.dispatches number
      if dispatch.phase = .idle then
        some (state.release number dispatch ending)
      else
        none

end State

/-- All dispatches of one process. -/
def machine [DecidableEq Plan] [DecidableEq Data] :
    Machine (State Plan Data) (Event Plan Data) where
  start := .initial
  step := State.step

end Recycling

end HttpNative
