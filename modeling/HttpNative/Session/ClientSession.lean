import HttpNative.Bridge.RequestReaders
import HttpNative.Library.Json
import HttpNative.Library.Machine
import HttpNative.Session.SessionStore

/-!
# The session of a client

A client that echoes the session cookie it is sent, against the session
middleware with the in-memory store. The id of a request is resolved twice: by
the native layer before the handler runs, and by the middleware in it; each
makes a new id of its own when it finds no valid cookie, and the cookie is that
of the native layer.
-/

namespace HttpNative
namespace Session

open Bridge (AccessPlan RouteRequest reqHeader reqHeaders lastHeader)

structure SessionConfig where
  signer : Signer
  cookieName : Text
  named : cookieName ≠ []
  nameChars : ∀ char ∈ cookieName, isCookieNameChar char = true
  store : StoreConfig

variable (config : SessionConfig)

/-! ## Resolving the id -/

/-- The session that the cookie of a header stands for. -/
def validCookie (cookieHeader : Option Text) : Option SessionId :=
  (cookieHeader.bind (extractCookieValue config.cookieName)).bind (verifyCookie config.signer)

/-- `resolve_session`: the id, and whether it was made up. -/
def resolveSession (cookieHeader : Option Text) (newId : SessionId) : SessionId × Bool :=
  match validCookie config cookieHeader with
  | some id => (id, false)
  | none => (newId, true)

/-- The header as the middleware reads it. -/
def cookieHeaderOf
    {paramNames : List Text}
    (plan : AccessPlan)
    (request : RouteRequest paramNames) : Text :=
  match (reqHeader plan request (text "cookie")).filter (· ≠ []) with
  | some header => header
  | none => ((reqHeaders plan request).get (text "cookie")).getD []

/-- `sessionNewCookie` up to its first point. -/
def newSessionId (newId : SessionId) : Text :=
  (Text.cut '.' (buildCookieValue config.signer newId)).1

/-- `resolveSessionId`; ids are in hexadecimal here. -/
def resolveSessionId (cookieHeader : Text) (newId : SessionId) : Text :=
  match (cookieValueOf config.cookieName cookieHeader).filter (· ≠ []) with
  | some value =>
      match verifyCookie config.signer value with
      | some id => hexEncodeId id
      | none => newSessionId config newId
  | none => newSessionId config newId

/-! ## The operations of `req.session` -/

/-- `JSON.stringify`. -/
def stringify (value : Json) : Text :=
  value.render Json.stringifyWriter

/-- `MemoryStore.get`. -/
def memoryGet
    (now : Nat)
    (sessionId key : Text)
    (store : SessionMap) : Option Json × SessionMap :=
  match hexDecodeId sessionId with
  | none => (none, store)
  | some id =>
      let found := storeGet config.store now id store
      (((found.1.bind fun entry => entry.data.get key).bind Utf8.decode).map fun raw =>
        (Json.parse raw).getD (.string raw), found.2)

/-- `MemoryStore.set` and `MemoryStore.delete`; whether it fitted is not
looked at. -/
def memoryUpsert
    (now : Nat)
    (sessionId : Text)
    (mutations : Dictionary Text Octets)
    (deletedKeys : List Text)
    (store : SessionMap) : SessionMap :=
  match hexDecodeId sessionId with
  | none => store
  | some id => (upsert config.store now id mutations deletedKeys store).2

/-- `MemoryStore.destroy`. -/
def memoryDestroy (sessionId : Text) (store : SessionMap) : SessionMap :=
  match hexDecodeId sessionId with
  | none => store
  | some id => storeDestroy id store

/-! ## What a session is for -/

/-- What the handlers of a client did with their session, and the time that
passed. -/
inductive SessionOperation where
  | stored (key : Text) (value : Json)
  | removed (key : Text)
  | destroyed
  | returned (key : Text) (result : Option Json)
  | passed (seconds : Nat)

/-- The values of a session and the seconds since it was last used. -/
structure Expected where
  values : Text → Option Json
  idle : Nat

/-- The values that have not expired. -/
def Expected.live (expected : Expected) (maxAge : Nat) (key : Text) : Option Json :=
  if expected.idle < maxAge then expected.values key else none

/-- What a session holds after some operations, the last of them first. -/
def expectedAfter (maxAge : Nat) : List SessionOperation → Expected
  | [] => { values := fun _ => none, idle := 0 }
  | operation :: earlier =>
      let before := expectedAfter maxAge earlier
      match operation with
      | .stored key value =>
          { values := fun other => if other = key then some value else before.live maxAge other
            idle := 0 }
      | .removed key =>
          { values := fun other => if other = key then none else before.live maxAge other
            idle := 0 }
      | .destroyed => { values := fun _ => none, idle := 0 }
      | .returned _ _ => { values := before.live maxAge, idle := 0 }
      | .passed seconds => { before with idle := before.idle + seconds }

/-- The value of a key that was stored and not overwritten, removed, destroyed
or expired since. -/
def lastStored (maxAge : Nat) (history : List SessionOperation) (key : Text) : Option Json :=
  (expectedAfter maxAge history).live maxAge key

/-- Every value that was stored is returned. -/
def ReturnsStored (maxAge : Nat) : List SessionOperation → Prop
  | [] => True
  | operation :: earlier =>
      ReturnsStored maxAge earlier ∧
        match operation with
        | .returned key result =>
            ∀ value, lastStored maxAge earlier key = some value → result = some value
        | _ => True

/-! ## Runs of a client -/

/-- A request that is being handled. -/
structure ActiveRequest where
  plan : AccessPlan
  cookieHeader : Option Text
  nativeId : SessionId
  isNew : Bool
  /-- `req.sessionId`. -/
  sessionId : Text
  destroyed : Bool

structure ClientState where
  store : SessionMap
  now : Nat
  /-- The session whose cookie the client was sent. -/
  cookie : Option SessionId
  active : Option ActiveRequest
  history : List SessionOperation

/-- What others do to sessions of their own. -/
inductive StoreOperation where
  | get
  | upsert (mutations : Dictionary Text Octets) (deletedKeys : List Text)
  | destroy

inductive ClientEvent where
  | pass (seconds : Nat)
  | visitor (id : SessionId) (operation : StoreOperation)
  /-- The client sends a request to a route with some plan; the cookies stand
  before and after that of the session. The new ids are those that the native
  layer and the middleware would make. -/
  | begin (plan : AccessPlan) (paramNames : List Text) (request : RouteRequest paramNames)
      (before after : List Cookie) (nativeId middlewareId : SessionId)
  | get (key : Text)
  | set (key : Text) (value : Json)
  | delete (key : Text)
  | destroy
  /-- The response is sent; a streamed or a failed one carries no cookie. -/
  | respond (carriesCookie : Bool)

/-- The session cookie as the client echoes it. -/
def echoedCookie (id : SessionId) : Cookie where
  name := config.cookieName
  value := buildCookieValue config.signer id
  named := config.named
  nameChars := config.nameChars
  whole := by
    intro member
    exact absurd ((isSignedText_buildCookieValue config.signer id).2 _ member) (by decide)

/-- The request carries what a client with such a cookie sends: the cookie it
was sent among cookies of other names, or no valid cookie. -/
def sends
    (cookie : Option SessionId)
    (before after : List Cookie)
    (cookieHeader : Option Text) : Bool :=
  match cookie with
  | some id =>
      decide (cookieHeader = some (renderCookies (before ++ echoedCookie config id :: after))) &&
        (before ++ after).all fun other => other.name ≠ config.cookieName
  | none => (validCookie config cookieHeader).isNone

def beginRequest
    (plan : AccessPlan)
    {paramNames : List Text}
    (request : RouteRequest paramNames)
    (nativeId middlewareId : SessionId) : ActiveRequest where
  plan := plan
  cookieHeader := lastHeader request (text "cookie")
  nativeId := (resolveSession config (lastHeader request (text "cookie")) nativeId).1
  isNew := (resolveSession config (lastHeader request (text "cookie")) nativeId).2
  sessionId := resolveSessionId config (cookieHeaderOf plan request) middlewareId
  destroyed := false

namespace ClientState

variable (state : ClientState)

def visit (id : SessionId) : StoreOperation → ClientState
  | .get => { state with store := (storeGet config.store state.now id state.store).2 }
  | .upsert mutations deletedKeys =>
      { state with
        store := (upsert config.store state.now id mutations deletedKeys state.store).2 }
  | .destroy => { state with store := storeDestroy id state.store }

/-- `req.session.get`. -/
def get (request : ActiveRequest) (key : Text) : ClientState :=
  if request.destroyed then
    { state with history := .returned key none :: state.history }
  else
    let found := memoryGet config state.now request.sessionId key state.store
    { state with store := found.2, history := .returned key found.1 :: state.history }

/-- `req.session.set`; ignored once the session is destroyed. -/
def set (request : ActiveRequest) (key : Text) (value : Json) : ClientState :=
  if request.destroyed then
    state
  else
    { state with
      store := memoryUpsert config state.now request.sessionId
        [(key, Utf8.encode (stringify value))] []
        state.store
      history := .stored key value :: state.history }

/-- `req.session.delete`. -/
def delete (request : ActiveRequest) (key : Text) : ClientState :=
  if request.destroyed then
    state
  else
    { state with
      store := memoryUpsert config state.now request.sessionId [] [key] state.store
      history := .removed key :: state.history }

/-- `req.session.destroy`. -/
def destroy (request : ActiveRequest) : ClientState :=
  { state with
    store := memoryDestroy request.sessionId state.store
    active := some { request with destroyed := true }
    history := .destroyed :: state.history }

/-- The response to a request; a new session is put into the store and its
cookie goes to the client. -/
def respond (request : ActiveRequest) (carriesCookie : Bool) : ClientState :=
  if carriesCookie && request.isNew then
    { state with
      store := (upsert config.store state.now request.nativeId [] [] state.store).2
      cookie := some request.nativeId
      active := none }
  else
    { state with active := none }

end ClientState

/-- The client sends one request after the other. -/
def clientMachine : Machine ClientState ClientEvent where
  start := { store := [], now := 0, cookie := none, active := none, history := [] }
  step := fun state event =>
    match event, state.active with
    | .pass seconds, _ =>
        some { state with
          now := state.now + seconds
          history := .passed seconds :: state.history }
    | .visitor id operation, _ => some (state.visit config id operation)
    | .begin plan _ request before after nativeId middlewareId, none =>
        if sends config state.cookie before after (lastHeader request (text "cookie")) then
          some { state with active := some (beginRequest config plan request nativeId middlewareId) }
        else
          none
    | .get key, some request => some (state.get config request key)
    | .set key value, some request => some (state.set config request key value)
    | .delete key, some request => some (state.delete config request key)
    | .destroy, some request => some (state.destroy request)
    | .respond carriesCookie, some request => some (state.respond config request carriesCookie)
    | _, _ => none

end Session
end HttpNative
