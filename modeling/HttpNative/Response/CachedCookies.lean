import HttpNative.Response.CachedAnswers

/-!
# Cookies in the native caches

A response goes into the caches of the worker before the cookie of a native session
is added to it, so that cookie is never cached. A cookie that JavaScript sets is a
header of the envelope like any other, and is cached with the response.
-/

namespace HttpNative
namespace Response

open Envelope (AcceptedEncoding CompressionConfig Header Snapshot applyCompression)
open MessageHead
open Router (CacheEntry RouteCaches)

def setCookieName : Octets :=
  octets "set-cookie"

def isSetCookie (line : Octets) : Bool :=
  isFieldNamed setCookieName line

/-- A recipient reads a cookie in the head. -/
def hasSetCookie (response : Octets) : Bool :=
  (readLines [] response).any fun read => read.1.tail.any isSetCookie

/-- The headers of a response that are passed on set a cookie. -/
def setsCookie (headers : List Header) : Bool :=
  (spelledLines (passOn [contentLength, connection] headers)).any isSetCookie

/-- The headers of a response that goes into a cache set no cookie. -/
def Incoming.CachesNoCookie (incoming : Incoming) : Prop :=
  ∀ response status headers body, incoming.Responds response status headers body →
    incoming.isCacheable response = true → setsCookie headers = false

/-- The condition on the requests of a run. -/
def CachesNoCookie : ConnectionRun → ConnectionEvent → Prop
  | _, .request _ incoming => incoming.CachesNoCookie
  | _, _ => True

/-- Whatever request comes next, it is not answered with a cookie from the caches. -/
def ConnectionRun.ServesNoCookie (run : ConnectionRun) : Prop :=
  ∀ incoming entry keepAlive, (chooseAnswer run.caches incoming).2 =
    some (.decided (.cachedResponse entry keepAlive)) →
      hasSetCookie (cachedResponse entry keepAlive) = false

/-! ## The cookies of a stored response -/

/-- No field of the server is a cookie. -/
theorem isSetCookie_serverFields
    (length : Nat)
    (keepAlive : Bool)
    (applied : Option AcceptedEncoding) :
    ((ownFields length keepAlive ++ compressionFields applied).map lineOf).any isSetCookie =
      false := by
  obtain ⟨lengthToken, -, connectionToken, encodingToken, varyToken⟩ := tokens_ownFields
  have other {name : Octets} (token : IsToken name)
      (different : Octets.eqIgnoreAsciiCase name setCookieName = false) (value : Octets) :
      isSetCookie (lineOf (name, value)) = false := by
    rw [isSetCookie, lineOf, isFieldNamed_fieldLine token, different]
  have own : ((ownFields length keepAlive).map lineOf).any isSetCookie = false := by
    rw [ownFields, List.map_cons, List.map_cons, List.any_cons, List.any_cons,
      other lengthToken (by decide), other connectionToken (by decide)]
    rfl
  rw [List.map_append, List.any_append, own, Bool.false_or]
  cases applied with
  | none => rfl
  | some encoding =>
      rw [compressionFields, List.map_cons, List.map_cons, List.any_cons, List.any_cons,
        other encodingToken (by decide), other varyToken (by decide)]
      rfl

/-- A response to a dispatch has the cookies of its headers. -/
theorem hasSetCookie_fastForm
    (status : Nat)
    (headers : List Header)
    (body : Octets)
    (keepAlive : Bool)
    (encoding : AcceptedEncoding)
    (config : Option CompressionConfig) :
    hasSetCookie (fastForm status headers body keepAlive encoding config).octets =
      setsCookie headers := by
  have unbroken := (connects_fastForm status headers body keepAlive encoding config).unbroken
  have read := readLines_assemble unbroken status
    (passOn [contentLength, connection] headers ++ [])
    (applyCompression headers body encoding config).1
  rw [List.append_nil] at read
  have spelled : (fastForm status headers body keepAlive encoding config).octets =
      assemble status (fastForm status headers body keepAlive encoding config).serverFields
        (passOn [contentLength, connection] headers)
        (applyCompression headers body encoding config).1 :=
    ResponseForm.octets_of_cookie_none rfl
  rw [hasSetCookie, spelled, read, Option.any_some, List.tail_cons, List.any_append, setsCookie]
  have server := isSetCookie_serverFields (applyCompression headers body encoding config).1.length
    keepAlive (appliedEncoding headers body encoding config)
  exact congrArg (· || _) server

/-- What a request stores has a cookie just when the headers of its response set one:
that of a native session is not there yet. -/
theorem hasSetCookie_of_stores
    {config : Option CompressionConfig} {incoming : Incoming} {route : RouteMatch}
    {response : Octets} {entry : CacheEntry}
    (stores : Stores config incoming route response entry)
    (noCookie : incoming.CachesNoCookie)
    (keepAlive : Bool) :
    hasSetCookie (cachedResponse entry keepAlive) = false := by
  obtain ⟨status, headers, body, expiresAt, responds, rfl⟩ := stores.built
  rw [cachedResponse_cacheEntry, hasSetCookie_fastForm]
  exact noCookie response status headers body responds stores.cacheable

/-! ## Runs -/

/-- An entry is served without a cookie. -/
def IsBare (entry : CacheEntry) : Prop :=
  ∀ keepAlive, hasSetCookie (cachedResponse entry keepAlive) = false

def ConnectionRun.CachesBare (run : ConnectionRun) : Prop :=
  run.caches.AllEntries IsBare

theorem cachesBare_of_step
    {config : Option CompressionConfig} {run next : ConnectionRun} {event : ConnectionEvent}
    (before : run.CachesBare)
    (meets : CachesNoCookie run event)
    (stepped : run.step config event = some next) :
    next.CachesBare := by
  unfold ConnectionRun.CachesBare
  rcases caches_of_step stepped with ⟨here, incoming, rfl, same⟩ | ⟨valid, same⟩ | same
  · rw [same]
    exact allEntries_cachesBehind before fun route response entry stores keepAlive =>
      hasSetCookie_of_stores stores meets keepAlive
  · rw [same]
    exact before.retain valid
  · rw [same]
    exact before

/-- In a run without cookies in the headers of cacheable responses, no request is
answered with a cookie from the caches, whatever cookies the native sessions come
to. -/
theorem servesNoCookie_of_reachesUnder
    (config : Option CompressionConfig)
    (run : ConnectionRun)
    (reaches : (connectionMachine config).ReachesUnder CachesNoCookie run) :
    run.ServesNoCookie := by
  have all : run.CachesBare := by
    refine reaches.invariant ?_ fun _ _ _ before meets stepped =>
      cachesBare_of_step before meets stepped
    intro cacheNamespace cache absent
    cases absent
  intro incoming entry keepAlive chosen
  exact (chooseAnswer_entries all incoming).2 entry keepAlive chosen keepAlive

/-- A page with the cookie that its handler, or a middleware with a store of its own,
sets. -/
def page (cookie : Option Octets) : Snapshot where
  status := none
  headers := cookie.toList.map fun value => (setCookieName, value)
  body := octets "hello"
  ncache := none

/-- A request to a route that caches its responses for a minute. -/
def pageRequest (cookie nativeCookie : Option Octets) : Incoming where
  parsed :=
    { method := octets "GET", target := octets "/page", path := octets "/page"
      keepAlive := true, headerBytes := 60, hasBody := false, contentLength := none
      hasChunkedTe := false, headers := [], cookieHeader := none, isWebsocketUpgrade := false
      wsKey := none, acceptedEncoding := .identity }
  lookups :=
    { staticRoute := none, upgrades := false, bodyLimit := none
      matched := some
        { handlerId := 1, cacheNamespace := 1
          cacheConfig := some { key := 7, maxEntries := 16, ttlSecs := 60 }
          ncacheKey := 7, fastPath := none } }
  bodyArrives := true
  dispatched := (Envelope.encodeResponseEnvelope (page cookie)).toOption
  streamed := []
  setCookie := nativeCookie
  now := 0
  storedAt := 0

/-- The worker behind the first request for the page. -/
def afterPage (cookie nativeCookie : Option Octets) : ConnectionRun :=
  ((connectionMachine none).step (connectionMachine none).start
    (.request true (pageRequest cookie nativeCookie))).getD (connectionMachine none).start

theorem afterPage_stepped
    (cookie nativeCookie : Option Octets) :
    (connectionMachine none).step (connectionMachine none).start
      (.request true (pageRequest cookie nativeCookie)) =
        some (afterPage cookie nativeCookie) :=
  rfl

/-- The cookie of a native session stays with its client. -/
theorem servesNoCookie_afterPage :
    (afterPage none (some (octets "sid=alice"))).ServesNoCookie := by
  refine servesNoCookie_of_reachesUnder none _ (.step .start ?_ (afterPage_stepped _ _))
  rintro response status headers body ⟨dispatched, -, read⟩ -
  cases dispatched
  cases read
  decide

/-- The cookie of one client is in the answer to the next one, when JavaScript has
set it. -/
theorem not_servesNoCookie :
    ¬ ∀ config run, (connectionMachine config).Reaches run → run.ServesNoCookie := by
  intro everywhere
  have kept := everywhere none (afterPage (some (octets "sid=alice")) none)
    (.step .start trivial (afterPage_stepped _ _))
  obtain ⟨entry, chosen, served⟩ : ∃ entry,
      (chooseAnswer (afterPage (some (octets "sid=alice")) none).caches
        (pageRequest none none)).2 = some (.decided (.cachedResponse entry true)) ∧
      hasSetCookie (cachedResponse entry true) = true :=
    ⟨_, rfl, by decide⟩
  exact absurd ((kept _ _ _ chosen).symm.trans served) Bool.false_ne_true

end Response
end HttpNative
