import HttpNative.Library.Machine
import HttpNative.Parser.RequestHead
import HttpNative.Response.DispatchResponses
import HttpNative.Router.CachedEntries
import HttpNative.Streaming.ResponseStream

/-!
# Answers on a connection

How the connection loop answers a request: which of its ways it takes, what it
writes, what it stores in the caches of the worker, and whether it goes round again.
What the router has for a request and what the dispatcher resolves to is left open.
-/

namespace HttpNative
namespace Response

open Envelope
  (AcceptedEncoding CompressionConfig Header compressBody contentTypeName extractNcacheTrailer
    shouldCompress)
open Router (CacheEntry RouteCaches)

/-! ## Static routes -/

/-- A response that is known apart from the connection field. -/
structure FixedResponse where
  status : Nat
  headers : List Header
  body : Octets

structure ExactStaticRoute where
  closeResponse : Octets
  keepAliveResponse : Octets
  closeResponseBr : Option Octets
  keepAliveResponseBr : Option Octets
  closeResponseGzip : Option Octets
  keepAliveResponseGzip : Option Octets

/-- The compressed body of a static route. -/
def precompressed
    (config : Option CompressionConfig)
    (fixed : FixedResponse)
    (encoding : AcceptedEncoding) :
    Option Octets :=
  let contentType := Dictionary.get contentTypeName fixed.headers
  if (Dictionary.get (octets "content-encoding") fixed.headers).isSome then none
  else
    config.bind fun config =>
      (shouldCompress config encoding fixed.body.length contentType false).bind fun _ =>
        compressBody config fixed.body encoding contentType

/-- `build_exact_static_route` and `build_exact_static_route_from_spec`. -/
def buildExactStaticRoute
    (config : Option CompressionConfig)
    (fixed : FixedResponse) :
    ExactStaticRoute :=
  let plain (keepAlive : Bool) := buildResponseBytes fixed.status fixed.headers fixed.body keepAlive
  let compressed (encoding : AcceptedEncoding) (keepAlive : Bool) :=
    (precompressed config fixed encoding).map fun body =>
      buildCompressedResponseBytes fixed.status fixed.headers body keepAlive encoding
  { closeResponse := plain false
    keepAliveResponse := plain true
    closeResponseBr := compressed .brotli false
    keepAliveResponseBr := compressed .brotli true
    closeResponseGzip := compressed .gzip false
    keepAliveResponseGzip := compressed .gzip true }

/-- What `write_exact_static_response` writes. -/
def exactStaticResponse
    (route : ExactStaticRoute)
    (keepAlive : Bool)
    (encoding : AcceptedEncoding) :
    Octets :=
  match encoding, keepAlive with
  | .brotli, true => route.keepAliveResponseBr.getD route.keepAliveResponse
  | .brotli, false => route.closeResponseBr.getD route.closeResponse
  | .gzip, true => route.keepAliveResponseGzip.getD route.keepAliveResponse
  | .gzip, false => route.closeResponseGzip.getD route.closeResponse
  | .identity, true => route.keepAliveResponse
  | .identity, false => route.closeResponse

theorem exactStaticResponse_built
    (config : Option CompressionConfig)
    (fixed : FixedResponse)
    (keepAlive : Bool)
    (encoding : AcceptedEncoding) :
    exactStaticResponse (buildExactStaticRoute config fixed) keepAlive encoding =
      match precompressed config fixed encoding with
      | none => buildResponseBytes fixed.status fixed.headers fixed.body keepAlive
      | some body =>
          buildCompressedResponseBytes fixed.status fixed.headers body keepAlive encoding := by
  cases encoding with
  | identity =>
      have none : precompressed config fixed .identity = none := by
        unfold precompressed
        dsimp only
        split
        · rfl
        · cases config <;> rfl
      rw [none]
      cases keepAlive <;> rfl
  | gzip =>
      cases found : precompressed config fixed .gzip <;> cases keepAlive <;>
        simp [exactStaticResponse, buildExactStaticRoute, found]
  | brotli =>
      cases found : precompressed config fixed .brotli <;> cases keepAlive <;>
        simp [exactStaticResponse, buildExactStaticRoute, found]

/-! ## Requests -/

/-- The response cache of a route, with the key of the request. -/
structure CacheInsertion where
  key : UInt64
  maxEntries : Nat
  ttlSecs : Nat

/-- The route that a request matches; the response of a fast path has its body
rendered. -/
structure RouteMatch where
  handlerId : Nat
  cacheNamespace : UInt64
  cacheConfig : Option CacheInsertion
  ncacheKey : UInt64
  fastPath : Option FixedResponse

/-- What the router has for a request: a static response, a WebSocket route, a limit
for the body, a matching route. A path that leaves its directory matches none. -/
structure Lookups where
  staticRoute : Option FixedResponse
  upgrades : Bool
  bodyLimit : Option Nat
  matched : Option RouteMatch

/-- A request with all that its answer depends on. -/
structure Incoming where
  parsed : Parser.ParsedRequest
  lookups : Lookups
  /-- The body arrives in time. -/
  bodyArrives : Bool
  /-- What the dispatcher resolves to, if it is asked and not rejected. -/
  dispatched : Option Octets
  /-- The chunks that come from the stream, if one is started. -/
  streamed : List Octets
  /-- The cookie that the session of the request comes to. -/
  setCookie : Option Octets
  /-- When the caches are looked into, and when a response is stored. -/
  now : Nat
  storedAt : Nat

def encodingOf : Parser.AcceptedEncoding → AcceptedEncoding
  | .identity => .identity
  | .gzip => .gzip
  | .brotli => .brotli

namespace Incoming

def keepAlive (incoming : Incoming) : Bool :=
  incoming.parsed.keepAlive

def encoding (incoming : Incoming) : AcceptedEncoding :=
  encodingOf incoming.parsed.acceptedEncoding

end Incoming

/-! ## The choice of an answer -/

def notFoundHandlerId : Nat := 0

/-- `MAX_BODY_BYTES` -/
def maxBodyBytes : Nat := 1024 * 1024

inductive DispatchDecision where
  | bridgeRequest (cacheInsertion : Option CacheInsertion) (handlerId : Nat)
      (cacheNamespace : Option UInt64) (ncacheKey : UInt64)
  | specializedResponse (fixed : FixedResponse)
  | cachedResponse (entry : CacheEntry) (keepAlive : Bool)

def notFoundDecision : DispatchDecision :=
  .bridgeRequest none notFoundHandlerId none 0

def bridgeDecision (route : RouteMatch) : DispatchDecision :=
  .bridgeRequest route.cacheConfig route.handlerId (some route.cacheNamespace) route.ncacheKey

/-- The key under which a response to the request may be cached. -/
def RouteMatch.cacheKey (route : RouteMatch) : UInt64 :=
  match route.cacheConfig with
  | some insertion => insertion.key
  | none => route.ncacheKey

/-- `build_dispatch_decision_zero_copy` -/
def buildDispatchDecisionZeroCopy
    (caches : RouteCaches)
    (matched : Option RouteMatch)
    (keepAlive : Bool)
    (now : Nat) :
    RouteCaches × DispatchDecision :=
  match matched with
  | none => (caches, notFoundDecision)
  | some route =>
      match caches.lookup route.cacheNamespace route.cacheKey now with
      | (caches, some entry) => (caches, .cachedResponse entry keepAlive)
      | (caches, none) =>
          match route.fastPath with
          | some fixed => (caches, .specializedResponse fixed)
          | none => (caches, bridgeDecision route)

/-- `build_dispatch_decision_owned`: a route with a response cache does not look into
it, and the close variant is taken of what `res.ncache` has cached. -/
def buildDispatchDecisionOwned
    (caches : RouteCaches)
    (matched : Option RouteMatch)
    (now : Nat) :
    RouteCaches × DispatchDecision :=
  match matched with
  | none => (caches, notFoundDecision)
  | some route =>
      match route.cacheConfig with
      | some _ => (caches, bridgeDecision route)
      | none =>
          match caches.lookup route.cacheNamespace route.ncacheKey now with
          | (caches, some entry) => (caches, .cachedResponse entry false)
          | (caches, none) => (caches, bridgeDecision route)

/-- The ways in which the loop answers. -/
inductive Answer where
  | error (status : Nat) (body : Octets)
  | static (fixed : FixedResponse)
  | decided (decision : DispatchDecision)

def conflictingLength : Octets :=
  octets "\x7b\"error\":\"Bad Request: conflicting Content-Length and Transfer-Encoding\"\x7d"

def chunkedNotSupported : Octets :=
  octets "\x7b\"error\":\"Not Implemented: chunked transfer encoding is not supported\"\x7d"

def lengthRequired : Octets :=
  octets "\x7b\"error\":\"Length Required\"\x7d"

def payloadTooLarge : Octets :=
  octets "\x7b\"error\":\"Payload Too Large\"\x7d"

def requestTimeout : Octets :=
  octets "\x7b\"error\":\"Request Timeout\"\x7d"

def headerTooLarge : Octets :=
  octets "\x7b\"error\":\"Request Header Fields Too Large\"\x7d"

/-- The static response to a request without a body. -/
def Incoming.staticRoute (incoming : Incoming) : Option FixedResponse :=
  if !incoming.parsed.hasBody && incoming.parsed.method = octets "GET" then
    incoming.lookups.staticRoute
  else
    none

/-- The connection is handed over to the WebSocket loop. -/
def Incoming.isUpgraded (incoming : Incoming) : Bool :=
  incoming.parsed.isWebsocketUpgrade && incoming.parsed.wsKey.isSome && incoming.lookups.upgrades

/-- The way that `handle_connection_inner` takes for a request; no answer when it
hands the connection over or the body does not arrive. -/
def chooseAnswer
    (caches : RouteCaches)
    (incoming : Incoming) :
    RouteCaches × Option Answer :=
  let parsed := incoming.parsed
  if parsed.hasChunkedTe then
    if parsed.contentLength.isSome then
      (caches, some (.error 400 conflictingLength))
    else
      (caches, some (.error 501 chunkedNotSupported))
  else
    match incoming.staticRoute with
    | some fixed => (caches, some (.static fixed))
    | none =>
        if incoming.isUpgraded then
          (caches, none)
        else if !parsed.hasBody then
          let (caches, decision) := buildDispatchDecisionZeroCopy caches incoming.lookups.matched
            incoming.keepAlive incoming.now
          (caches, some (.decided decision))
        else
          match parsed.contentLength with
          | none => (caches, some (.error 411 lengthRequired))
          | some length =>
              if length > incoming.lookups.bodyLimit.getD maxBodyBytes then
                (caches, some (.error 413 payloadTooLarge))
              else if incoming.bodyArrives then
                let (caches, decision) := buildDispatchDecisionOwned caches
                  incoming.lookups.matched incoming.now
                (caches, some (.decided decision))
              else
                (caches, none)

/-! ## What is written and stored -/

/-- A stream that is started is passed on to its end. -/
def streamedBody (dispatched : Option Octets) (streamed : List Octets) : Octets :=
  if dispatched.any isStreamStart then
    Streaming.encodeChunks streamed ++ ChunkedCoding.lastChunk
  else
    []

/-- All that is written for an answer. -/
def Answer.response
    (config : Option CompressionConfig)
    (incoming : Incoming) :
    Answer → Octets
  | .error status body => buildErrorResponseBytes status body false
  | .static fixed =>
      exactStaticResponse (buildExactStaticRoute config fixed) incoming.keepAlive incoming.encoding
  | .decided (.bridgeRequest _ _ _ _) =>
      writeDynamicDispatchResponse incoming.dispatched incoming.keepAlive incoming.encoding config
        incoming.setCookie ++ streamedBody incoming.dispatched incoming.streamed
  | .decided (.specializedResponse fixed) =>
      buildResponseBytesFast fixed.status fixed.headers fixed.body incoming.keepAlive
        incoming.encoding config
  | .decided (.cachedResponse entry keepAlive) => cachedResponse entry keepAlive

/-- The loop goes round again behind the answer. -/
def Answer.readsOn (keepAlive : Bool) : Answer → Bool
  | .error _ _ => false
  | _ => keepAlive

/-- What `write_dynamic_dispatch_response` stores of a response. -/
def storeResponse
    (config : Option CompressionConfig)
    (incoming : Incoming)
    (caches : RouteCaches) :
    DispatchDecision → RouteCaches
  | .bridgeRequest cacheInsertion handlerId cacheNamespace ncacheKey =>
      match incoming.dispatched with
      | none => caches
      | some response =>
          if isStreamStart response then caches
          else
            match Envelope.buildHttpResponseFromDispatch response incoming.keepAlive
                incoming.encoding config with
            | .error _ => caches
            | .ok httpResponse =>
                let entry (ttlSecs : Nat) :=
                  cacheEntry httpResponse incoming.keepAlive (incoming.storedAt + ttlSecs)
                match cacheInsertion, cacheNamespace, extractNcacheTrailer response with
                | some insertion, some cacheNamespace, _ =>
                    caches.store cacheNamespace insertion.key (entry insertion.ttlSecs)
                      insertion.maxEntries
                | none, some cacheNamespace, some (ttlSecs, maxEntries) =>
                    if handlerId ≠ notFoundHandlerId ∧ ttlSecs > 0 then
                      caches.store cacheNamespace ncacheKey (entry ttlSecs) maxEntries
                    else
                      caches
                | _, _, _ => caches
  | _ => caches

/-! ## Runs -/

/-- A request, what was written for it, and whether the loop went round again. -/
structure Exchange where
  method : Octets
  response : Octets
  readsOn : Bool

/-- A worker with one of its connections. -/
structure ConnectionRun where
  caches : RouteCaches
  isOpen : Bool
  exchanges : List Exchange

inductive ConnectionEvent where
  /-- A request on this connection or on another one of the worker. -/
  | request (here : Bool) (incoming : Incoming)
  /-- A head with the method takes too long, or is too large. -/
  | headTimedOut (method : Octets)
  | headTooLarge (method : Octets)
  /-- The connection ends without an answer: a malformed head, a time-out, an
  error. -/
  | dropped
  | syncRouteCaches (valid : UInt64 → Bool)

namespace ConnectionRun

variable (config : Option CompressionConfig)

def errorExchange (method : Octets) (status : Nat) (body : Octets) : Exchange where
  method := method
  response := buildErrorResponseBytes status body false
  readsOn := false

/-- The exchange that an event comes to. -/
def exchange (run : ConnectionRun) : ConnectionEvent → Option Exchange
  | .request _ incoming =>
      (chooseAnswer run.caches incoming).2.map fun answer =>
        { method := incoming.parsed.method
          response := answer.response config incoming
          readsOn := answer.readsOn incoming.keepAlive }
  | .headTimedOut method => some (errorExchange method 408 requestTimeout)
  | .headTooLarge method => some (errorExchange method 431 headerTooLarge)
  | _ => none

/-- The caches behind a request. -/
def cachesBehind (run : ConnectionRun) (incoming : Incoming) : RouteCaches :=
  match chooseAnswer run.caches incoming with
  | (caches, some (.decided decision)) => storeResponse config incoming caches decision
  | (caches, _) => caches

/-- The connection behind an event that comes to an exchange or ends it. -/
def advance (run : ConnectionRun) : Option Exchange → ConnectionRun
  | some exchange =>
      { run with isOpen := exchange.readsOn, exchanges := run.exchanges ++ [exchange] }
  | none => { run with isOpen := false }

def step (run : ConnectionRun) (event : ConnectionEvent) : Option ConnectionRun :=
  match event with
  | .request false incoming => some { run with caches := run.cachesBehind config incoming }
  | .syncRouteCaches valid => some { run with caches := run.caches.retain valid }
  | .request true incoming =>
      if run.isOpen then
        some ({ run with caches := run.cachesBehind config incoming }.advance
          (run.exchange config event))
      else
        none
  | _ => if run.isOpen then some (run.advance (run.exchange config event)) else none

end ConnectionRun

def connectionMachine (config : Option CompressionConfig) :
    Machine ConnectionRun ConnectionEvent where
  start := { caches := fun _ => none, isOpen := true, exchanges := [] }
  step := ConnectionRun.step config

end Response
end HttpNative
