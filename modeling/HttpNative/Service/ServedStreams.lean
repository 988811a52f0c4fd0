import HttpNative.Library.OctetEscapes
import HttpNative.Parser.AnsweredStreams
import HttpNative.Service.BridgedRequests

/-!
# Streams of requests that are served

A client sends requests one behind the other over a connection. The program is handed
each of them as it was sent, and the client reads the answers of the program, one for
each request and in their order.
-/

namespace HttpNative
namespace Service

open Envelope (DecodedRequest Header dispatchedRequest notFoundRequest)
open HttpNative.Parser
open MessageReader (IsResponse Message readMessages)
open Response
open Routing (root normalizeRuntimePath)

/-! ## Servers -/

/-- The connection loop of a worker. Writing to the connection does not fail. -/
def connectionConfig
    (worker : Worker)
    (capacity maxHeaderBytes : Nat) :
    ConnectionConfig where
  httparse := worker.httparse
  capacity := capacity
  maxHeaderBytes := maxHeaderBytes
  hasExactGetRoot := worker.router.exactGetRoot.isSome
  hasExactStaticRoute := fun method path =>
    (Routing.Method.fromBytes method).any fun method =>
      (worker.router.exactStaticRoute method path).isSome
  matchesWebsocket := fun path =>
    (worker.router.matchWsRoute ((Utf8.decode path).getD root)).isSome
  routeBodyLimit := fun method path =>
    match worker.router.matchMethod method
        (normalizeRuntimePath ((Utf8.decode path).getD root)) with
    | .ok matched => matched.bind fun route => route.maxBodyBytes
    | .error _ => none
  answers := fun _ => true

/-- A worker with its program; it has no static page for the root and does not compress. -/
structure Server where
  worker : Worker
  program : Program
  capacity : Nat
  maxHeaderBytes : Nat
  reads : HttparseReadsHeads worker.httparse
  noStaticRoot : worker.router.exactGetRoot = none
  uncompressed : worker.compression = none

def Server.config (server : Server) : ConnectionConfig :=
  connectionConfig server.worker server.capacity server.maxHeaderBytes

variable {worker : Worker} {capacity maxHeaderBytes : Nat} {parsed : ParsedRequest}

theorem upgrades_eq :
    upgrades (connectionConfig worker capacity maxHeaderBytes) parsed =
      (worker.router.webSocketTarget parsed).isSome := by
  unfold upgrades Router.webSocketTarget
  cases parsed.isWebsocketUpgrade <;> cases parsed.wsKey <;> simp [connectionConfig]

theorem webSocketTarget_of_bridges
    {route : Option Router.MatchedRoute}
    (bridges : Bridges worker parsed route) :
    worker.router.webSocketTarget parsed = none := by
  have selected := bridges.selected
  cases found : worker.router.webSocketTarget parsed with
  | none => rfl
  | some handlerId =>
      unfold Router.http1Selection Router.selectTarget at selected
      rw [found] at selected
      split at selected
      · split at selected
        · cases route <;> cases selected
        · cases route <;> cases selected
      · cases route <;> cases selected

/-- The body of a request that goes over the bridge is within the limit. -/
theorem length_of_bridges
    {route : Option Router.MatchedRoute}
    (bridges : Bridges worker parsed route)
    (hasBody : parsed.hasBody = true) :
    ∃ length, parsed.contentLength = some length ∧
      length ≤ ((connectionConfig worker capacity maxHeaderBytes).routeBodyLimit parsed.method
        parsed.path).getD Parser.maxBodyBytes := by
  have selected := bridges.selected
  unfold Router.http1Selection at selected
  rw [hasBody, webSocketTarget_of_bridges bridges] at selected
  simp only [Bool.not_true, Bool.false_eq_true, if_false] at selected
  simp only [connectionConfig]
  cases matched : worker.router.matchMethod parsed.method
      (normalizeRuntimePath ((Utf8.decode parsed.path).getD root)) with
  | error panic =>
      rw [matched] at selected
      cases selected
  | ok own =>
      rw [matched] at selected
      cases announced : parsed.contentLength with
      | none =>
          rw [announced] at selected
          cases route <;> cases selected
      | some length =>
          rw [announced] at selected
          dsimp only at selected
          split at selected
          · cases route <;> cases selected
          · rename_i within
            exact ⟨length, rfl, Nat.le_of_not_lt within⟩

/-- A request that goes over the bridge is routed by the loop. -/
theorem stays_of_bridges
    {route : Option Router.MatchedRoute}
    (bridges : Bridges worker parsed route) :
    decideHead (connectionConfig worker capacity maxHeaderBytes) parsed ≠ .leave := by
  have noUpgrade : upgrades (connectionConfig worker capacity maxHeaderBytes) parsed = false := by
    rw [upgrades_eq, webSocketTarget_of_bridges bridges]
    rfl
  unfold decideHead
  rw [bridges.uncoded, noUpgrade, if_neg Bool.false_ne_true]
  split
  · exact HeadDecision.noConfusion
  · rw [if_neg Bool.false_ne_true]
    cases hasBody : parsed.hasBody with
    | false => exact HeadDecision.noConfusion
    | true =>
        obtain ⟨length, announced, within⟩ := length_of_bridges bridges hasBody
        rw [announced]
        dsimp only
        rw [if_neg (by simp), if_neg (Nat.not_lt.mpr within)]
        exact HeadDecision.noConfusion

/-! ## Heads as they are parsed -/

/-- A name as it is handed over: in lower case when it is well known. -/
def handedName (name : Octets) : Octets :=
  Utf8.encode (internHeaderName (Octets.toText name))

/-- Whether the connection is kept after a field. -/
def keepsBehind (keepAlive : Bool) (header : RawHeader) : Bool :=
  if header.isNamed "connection" then readConnection keepAlive header.value else keepAlive

/-- What is left of a row of fields with UTF-8 values when they have been parsed. -/
theorem parsed_of_foldlM
    {headers : List RawHeader} {request parsed : ParsedRequest}
    (read : headers.foldlM parseHeader request = some parsed)
    (utf8 : ∀ header ∈ headers, ∃ value, header.value = Utf8.encode value) :
    parsed.method = request.method ∧ parsed.target = request.target ∧
      parsed.path = request.path ∧
      parsed.keepAlive = headers.foldl keepsBehind request.keepAlive ∧
      headerEntries parsed = headerEntries request ++
        headers.map fun header => (handedName header.name, header.value) := by
  induction headers generalizing request with
  | nil =>
      cases read
      exact ⟨rfl, rfl, rfl, rfl, (List.append_nil _).symm⟩
  | cons header rest hypothesis =>
      rw [List.foldlM_cons] at read
      obtain ⟨next, readFirst, readRest⟩ := Option.bind_eq_some_iff.mp read
      obtain ⟨value, spelled⟩ := utf8 header List.mem_cons_self
      have recorded : next = recordHeader request header value := by
        unfold parseHeader at readFirst
        split at readFirst
        · cases readFirst
        · rw [spelled, Utf8.decode_encode] at readFirst
          exact (Option.some.inj readFirst).symm
      obtain ⟨method, target, path, keepAlive, entries⟩ := hypothesis readRest
        fun other member => utf8 other (List.mem_cons_of_mem _ member)
      rw [recorded] at method target path keepAlive entries
      refine ⟨method, target, path, keepAlive, ?_⟩
      have first : headerEntries (recordHeader request header value) =
          headerEntries request ++ [(handedName header.name, header.value)] := by
        rw [headerEntries, recordHeader, List.map_append, List.map_singleton, ← spelled]
        rfl
      rw [entries, first, List.append_assoc, List.map_cons, List.singleton_append]

/-- The path of a target. -/
def pathOf (head : RequestHead) : Octets :=
  pathOfTarget head.line.target

/-- The header fields of a head as they are handed over. -/
def handedFields (head : RequestHead) : List Header :=
  head.fields.map fun line => (handedName line.name, line.value)

/-- Whether the connection is kept behind a request. -/
def keepsConnection (head : RequestHead) : Bool :=
  (head.fields.map FieldLine.header).foldl keepsBehind (decide (1 ≤ head.line.minor))

/-- The octets of ASCII text stay as they are. -/
theorem lossyOctets_of_ascii
    {part : Octets}
    (ascii : ∀ octet ∈ part, octet.toNat < 0x80) :
    lossyOctets part = part := by
  rw [lossyOctets, Utf8.decodeLossy_of_ascii ascii]
  induction part with
  | nil => rfl
  | cons octet rest hypothesis =>
      have small := ascii octet List.mem_cons_self
      have same : (Char.ofNat octet.toNat).toNat = octet.toNat :=
        Utf8.toNat_ofNat_of_valid (by omega)
      have others := hypothesis fun other member => ascii other (List.mem_cons_of_mem _ member)
      have first : String.utf8EncodeChar (Char.ofNat octet.toNat) = [octet] := by
        rw [PercentEncoding.utf8EncodeChar_of_ascii (by omega), same, UInt8.ofNat_toNat]
      rw [Utf8.encode, Octets.toText, List.map_cons, List.flatMap_cons, first,
        List.singleton_append]
      exact congrArg (octet :: ·) others

/-- What the server makes of a head whose values are UTF-8. -/
theorem parsed_of_head
    {httparse : Octets → Option RawRequest} {head : RequestHead} {parsed : ParsedRequest}
    (reads : HttparseReadsHeads httparse)
    (utf8 : ∀ line ∈ head.fields, ∃ value, line.value = Utf8.encode value)
    (isParsed : parseRequestHttparse httparse head.octets = some parsed) :
    parsed.method = head.line.method ∧ parsed.target = head.line.target ∧
      parsed.path = pathOf head ∧ parsed.keepAlive = keepsConnection head ∧
      headerEntries parsed = handedFields head := by
  obtain ⟨raw, complete, read⟩ := Option.bind_eq_some_iff.mp isParsed
  have alone := reads.complete head []
  rw [List.append_nil, complete] at alone
  unfold RequestHead.raw at alone
  split at alone
  case isFalse => cases alone
  case isTrue few =>
      cases alone
      unfold parseRawRequest at read
      split at read
      case isTrue => cases read
      case isFalse =>
          have values : ∀ header ∈ head.fields.map FieldLine.header,
              ∃ value, header.value = Utf8.encode value := by
            intro header member
            obtain ⟨line, inFields, rfl⟩ := List.mem_map.mp member
            exact utf8 line inFields
          obtain ⟨method, target, path, keepAlive, entries⟩ := parsed_of_foldlM read values
          refine ⟨method, target, path, keepAlive, ?_⟩
          rw [entries, List.map_map]
          rfl

/-! ## Requests of a client -/

/-- The request that a program is handed for a head, a body and a route. -/
def handedRequest
    (worker : Worker)
    (head : RequestHead)
    (body : Octets) :
    Option Router.MatchedRoute → DecodedRequest
  | none =>
      notFoundRequest (methodCodeFromBytes head.line.method) (pathOf head) head.line.target
        (handedFields head) body worker.peerIp
  | some route =>
      dispatchedRequest (bridgeRoute route) (methodCodeFromBytes head.line.method) (pathOf head)
        head.line.target (handedFields head) body worker.peerIp

/-- A request of a client that goes over the bridge, and whose answer can be read. -/
structure ClientRequest (server : Server) extends RequestMessage server.config where
  parsed : ParsedRequest
  isParsed : parseBuffer server.config head.octets = some parsed
  utf8 : ∀ line ∈ head.fields, ∃ value, line.value = Utf8.encode value
  route : Option Router.MatchedRoute
  bridges : Bridges server.worker parsed route
  short : body.length < LittleEndian.limit 4
  readable : Readable (isHeadMethod head.line.method)
    (server.program (handedRequest server.worker head body route))

namespace ClientRequest

variable {server : Server}

def isHead (request : ClientRequest server) : Bool :=
  isHeadMethod request.head.line.method

/-- What the client reads: the answer of the program to the request as it was sent. -/
def answer (request : ClientRequest server) : Message :=
  messageOf (server.program (handedRequest server.worker request.head request.body request.route))
    (keepsConnection request.head)

def routed (request : ClientRequest server) : RoutedMessage server.config where
  toRequestMessage := request.toRequestMessage
  parsed := request.parsed
  isParsed := request.isParsed
  stays := stays_of_bridges request.bridges

def responder (server : Server) : Responder :=
  respond server.worker server.program

theorem parsed_httparse
    (request : ClientRequest server) :
    parseRequestHttparse server.worker.httparse request.head.octets = some request.parsed := by
  have isParsed := request.isParsed
  have noRoot : server.config.hasExactGetRoot = false := by
    rw [Server.config, connectionConfig, server.noStaticRoot]
    rfl
  rw [parseBuffer, noRoot, if_neg Bool.false_ne_true] at isParsed
  exact isParsed

/-- The request is handed over as it was sent. -/
theorem handedOver_eq
    (request : ClientRequest server) :
    handedOver server.worker request.parsed request.body request.route =
      handedRequest server.worker request.head request.body request.route := by
  obtain ⟨method, target, path, -, entries⟩ :=
    parsed_of_head server.reads request.utf8 request.parsed_httparse
  have ascii : ∀ octet ∈ request.head.line.target, octet.toNat < 0x80 := by
    intro octet member
    have visible := request.head.line.targetVisible octet member
    simp only [isVisibleOctet, Bool.and_eq_true, decide_eq_true_eq] at visible
    omega
  have asciiPath : ∀ octet ∈ pathOf request.head, octet.toNat < 0x80 :=
    fun octet member => ascii octet ((List.takeWhile_sublist _).subset member)
  cases route : request.route with
  | none =>
      rw [handedOver, handedRequest, method, target, path, entries, lossyOctets_of_ascii ascii,
        lossyOctets_of_ascii asciiPath]
  | some matched =>
      rw [handedOver, handedRequest, method, target, path, entries, lossyOctets_of_ascii ascii,
        lossyOctets_of_ascii asciiPath]

/-- The response to a request is read as its answer. -/
theorem isResponse
    (request : ClientRequest server) :
    IsResponse request.isHead request.answer (request.routed.response (responder server)) := by
  obtain ⟨method, -, -, keepAlive, -⟩ :=
    parsed_of_head server.reads request.utf8 request.parsed_httparse
  have accepted := accepted_of_httparse request.parsed_httparse
  have bodyless : request.parsed.hasBody = false → request.body = [] := by
    intro noBody
    apply List.length_eq_zero_iff.mp
    rw [request.framed request.parsed request.isParsed, bodyLength, noBody,
      if_neg Bool.false_ne_true]
  have readable := request.readable
  rw [← request.handedOver_eq, ← method] at readable
  have read := isResponse_respond accepted request.bridges server.uncompressed request.short
    bodyless readable
  rw [request.handedOver_eq, method, keepAlive] at read
  exact read

end ClientRequest

/-- The requests up to the first that does not keep the connection. -/
def servedOf {server : Server} : List (ClientRequest server) → List (ClientRequest server)
  | [] => []
  | request :: rest => request :: if keepsConnection request.head then servedOf rest else []

def streamOfClient {server : Server} (requests : List (ClientRequest server)) : Octets :=
  streamOfRouted (requests.map ClientRequest.routed)

variable {server : Server}

theorem answeredOf_routed
    (requests : List (ClientRequest server)) :
    answeredOf (requests.map ClientRequest.routed) =
      (servedOf requests).map ClientRequest.routed := by
  induction requests with
  | nil => rfl
  | cons request rest hypothesis =>
      obtain ⟨-, -, -, keepAlive, -⟩ :=
        parsed_of_head server.reads request.utf8 request.parsed_httparse
      have again : goesOn server.config request.routed.parsed request.routed.body =
          keepsConnection request.head :=
        keepAlive
      rw [List.map_cons, answeredOf, again, servedOf, List.map_cons, hypothesis]
      split <;> rfl

/-- Every body is sent back. -/
def echo : Program := fun request =>
  { status := some 200
    headers := [(Envelope.contentTypeName, octets "text/plain")]
    body := request.bodyBytes.getD []
    ncache := none }

theorem noPeer_short : ∀ ip ∈ (none : Option Octets), ip.length ≤ 45 :=
  fun _ absent => absurd absent (Option.not_mem_none _)

def echoServer : Server where
  worker := {
    httparse := readHead
    hotConfig := defaultHotConfig
    router := Router.empty
    compression := none
    staticResponse := fun _ => ⟨200, [], []⟩
    fastPathResponse := fun _ _ => ⟨200, [], []⟩
    cacheNamespace := fun _ => 0
    interpolateCacheKey := fun _ _ _ => 0
    computeNcacheKey := fun _ => 0
    computeAcceptKey := fun _ => []
    peerIp := none
    peerIp_short := noPeer_short
    distinctLabels := distinctLabels_empty }
  program := echo
  capacity := 8192
  maxHeaderBytes := 16384
  reads := httparseReadsHeads_readHead
  noStaticRoot := rfl
  uncompressed := rfl

theorem parseBuffer_echo :
    parseBuffer echoServer.config postHead.octets = some parsedPostHead := by
  decide

theorem framed_echo
    (request : ParsedRequest)
    (parsed : parseBuffer echoServer.config postHead.octets = some request) :
    (octets "hello").length = bodyLength request := by
  rw [parseBuffer_echo] at parsed
  cases parsed
  decide

theorem bridges_echo :
    Bridges echoServer.worker parsedPostHead none where
  uncoded := rfl
  selected := by decide
  noCache := by simp
  noFastPath := by simp
  names := by decide

theorem utf8_echo :
    ∀ line ∈ postHead.fields, ∃ value, line.value = Utf8.encode value := by
  intro line member
  rw [List.mem_singleton.mp member]
  exact ⟨text "5", by decide⟩

theorem readable_echo :
    Readable (isHeadMethod postHead.line.method)
      (echoServer.program (handedRequest echoServer.worker postHead (octets "hello") none)) where
  fits := ⟨by decide, by decide, by decide, by decide⟩
  encodes := ⟨_, rfl⟩
  plain :=
    show ∀ header ∈ [(Envelope.contentTypeName, octets "text/plain")],
        header.1 = Envelope.contentTypeName →
          Envelope.inheritedProperties.get header.2 = none by
      decide
  status := by decide
  expected := by decide
  tokens := by decide
  uncoded := by decide

theorem within_echo :
    postHead.octets.length ≤ echoServer.config.maxHeaderBytes := by
  decide

theorem short_echo : (octets "hello").length < LittleEndian.limit 4 := by
  decide

def echoRequest : ClientRequest echoServer where
  head := postHead
  body := octets "hello"
  within := within_echo
  framed := framed_echo
  parsed := parsedPostHead
  isParsed := parseBuffer_echo
  utf8 := utf8_echo
  route := none
  bridges := bridges_echo
  short := short_echo
  readable := readable_echo

/-- The loop behind the request, whose body arrived in two reads. -/
def echoed : AnsweringState where
  connection := {
    buffer := []
    pending := []
    routed := [routedRequest parsedPostHead (octets "hello")]
    phase := .head }
  written := octets "HTTP/1.1 200 OK\r\ncontent-length: 5\r\nconnection: keep-alive\r\n" ++
    octets "content-type: text/plain\r\n\r\nhello"

end Service
end HttpNative
