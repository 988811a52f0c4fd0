import HttpNative.Library.Machine
import HttpNative.Parser.HotRoot

/-!
# The connection loop

The loop that takes requests off a connection: it parses the buffer, reads more
octets into it while no head is complete, collects a body when there is one, and
hands the request to routing. A read of a head writes from the start of the
buffer.
-/

namespace HttpNative
namespace Parser

def maxBodyBytes : Nat := 1024 * 1024

/-- The most octets that one read of a body asks for. -/
def maxBodyRead : Nat := 65536

/-- What is handed to routing. -/
structure RoutedRequest where
  method : Octets
  target : Octets
  headers : List (Text × Text)
  body : Octets
deriving DecidableEq

/-- The server configuration, the router and what answers a request. -/
structure ConnectionConfig where
  httparse : Octets → Option RawRequest
  /-- The capacity of the read buffer. -/
  capacity : Nat
  maxHeaderBytes : Nat
  /-- The router has a static response for `GET /`. -/
  hasExactGetRoot : Bool
  /-- The router has a static response for a method and a path. -/
  hasExactStaticRoute : Octets → Octets → Bool
  /-- The router has a WebSocket route for a path. -/
  matchesWebsocket : Octets → Bool
  /-- The body limit of the route for a method and a path. -/
  routeBodyLimit : Octets → Octets → Option Nat
  /-- The response is built and written without an error. -/
  answers : RoutedRequest → Bool

inductive Phase where
  /-- The buffer is parsed for a head. -/
  | head
  /-- A body is collected, up to its length. -/
  | body (request : ParsedRequest) (collected : Octets) (length : Nat)
  /-- The loop has been left. -/
  | closed
deriving DecidableEq

structure ConnectionState where
  buffer : Octets
  /-- The octets of the connection that have not been read. -/
  pending : Octets
  routed : List RoutedRequest
  phase : Phase
deriving DecidableEq

/-! ## What becomes of a head -/

def parseBuffer (config : ConnectionConfig) (buffer : Octets) : Option ParsedRequest :=
  if config.hasExactGetRoot then
    (parseHotRootRequest defaultHotConfig buffer).or (parseRequestHttparse config.httparse buffer)
  else
    parseRequestHttparse config.httparse buffer

/-- A static response serves the request. -/
def servesStatic (config : ConnectionConfig) (request : ParsedRequest) : Bool :=
  !request.hasBody && request.method == octets "GET" &&
    ((request.path == octets "/" && config.hasExactGetRoot) ||
      config.hasExactStaticRoute request.method request.path)

/-- The connection is handed over to the WebSocket loop. -/
def upgrades (config : ConnectionConfig) (request : ParsedRequest) : Bool :=
  request.isWebsocketUpgrade && request.wsKey.isSome && config.matchesWebsocket request.path

inductive HeadDecision where
  /-- Answer with an error, or hand the connection over. -/
  | leave
  | route
  | collect (length : Nat)
deriving DecidableEq

def decideHead (config : ConnectionConfig) (request : ParsedRequest) : HeadDecision :=
  if request.hasChunkedTe then .leave
  else if servesStatic config request then .route
  else if upgrades config request then .leave
  else if !request.hasBody then .route
  else
    match request.contentLength with
    | none => .leave
    | some length =>
        if length > (config.routeBodyLimit request.method request.path).getD maxBodyBytes then
          .leave
        else
          .collect length

def routedRequest (request : ParsedRequest) (body : Octets) : RoutedRequest where
  method := request.method
  target := request.target
  headers := request.headers
  body := body

/-- The loop goes round again after a request. -/
def goesOn (config : ConnectionConfig) (request : ParsedRequest) (body : Octets) : Bool :=
  config.answers (routedRequest request body) && request.keepAlive

/-! ## Steps -/

namespace ConnectionState

variable (config : ConnectionConfig) (state : ConnectionState)

def close : ConnectionState :=
  { state with phase := .closed }

/-- Hand a request to routing, answer it, and go round again or leave. -/
def route (request : ParsedRequest) (body rest : Octets) : ConnectionState :=
  { state with
    buffer := rest
    routed := state.routed ++ [routedRequest request body]
    phase := if goesOn config request body then .head else .closed }

/-- What follows a head that was parsed. -/
def handleHead (request : ParsedRequest) : ConnectionState :=
  let rest := state.buffer.drop request.headerBytes
  match decideHead config request with
  | .leave => state.close
  | .route => state.route config request [] rest
  | .collect length =>
      if length ≤ rest.length then
        state.route config request (rest.take length) (rest.drop length)
      else
        { state with buffer := [], phase := .body request rest length }

/-- One round of the loop without a read; nothing when octets are missing. -/
def process : Option ConnectionState :=
  match state.phase with
  | .head =>
      match parseBuffer config state.buffer with
      | some request => some (state.handleHead config request)
      | none => if (findHeaderEnd state.buffer).isSome then some state.close else none
  | _ => none

/-- Read octets of a head: they replace what the buffer held. -/
def readHeadOctets (count : Nat) : ConnectionState :=
  let next := { state with
    buffer := state.pending.take count
    pending := state.pending.drop count }
  if next.buffer.length > config.maxHeaderBytes then next.close else next

/-- Read octets of a body; when it is complete the request is routed. -/
def readBodyOctets
    (request : ParsedRequest) (collected : Octets) (length count : Nat) : ConnectionState :=
  let body := collected ++ state.pending.take count
  let next := { state with pending := state.pending.drop count }
  if length ≤ body.length then
    next.route config request (body.take length) next.buffer
  else
    { next with phase := .body request body length }

/-- A read that yields some octets, at most as many as it asks for. -/
def read (count : Nat) : Option ConnectionState :=
  if 0 < count ∧ count ≤ state.pending.length then
    match state.phase with
    | .head =>
        if state.process config = none ∧ count ≤ config.capacity then
          some (state.readHeadOctets config count)
        else
          none
    | .body request collected length =>
        if count ≤ min (length - collected.length) maxBodyRead then
          some (state.readBodyOctets config request collected length count)
        else
          none
    | .closed => none
  else
    none

end ConnectionState

inductive ConnectionEvent where
  | process
  /-- A read yields that many octets. -/
  | read (count : Nat)
deriving DecidableEq

/-- The loop on a connection that carries a stream. -/
def connectionLoop
    (config : ConnectionConfig)
    (stream : Octets) : Machine ConnectionState ConnectionEvent where
  start := { buffer := [], pending := stream, routed := [], phase := .head }
  step := fun state event =>
    match event with
    | .process => state.process config
    | .read count => state.read config count

/-! ## All octets at once -/

/-- Go round the loop as long as no read is needed. -/
def processAll (config : ConnectionConfig) : Nat → ConnectionState → ConnectionState
  | 0, state => state
  | fuel + 1, state =>
      match state.process config with
      | none => state
      | some next => processAll config fuel next

/-- The requests that are routed when the stream stands in the buffer in one
piece; each round consumes a head, so its length bounds the rounds. -/
def inOnePiece (config : ConnectionConfig) (stream : Octets) : List RoutedRequest :=
  (processAll config (stream.length + 1)
    { buffer := stream, pending := [], routed := [], phase := .head }).routed

end Parser
end HttpNative
