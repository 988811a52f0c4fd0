import HttpNative.Envelope.RequestEnvelope
import HttpNative.Parser.HotRoot
import HttpNative.Response.ConnectionField
import HttpNative.Router.RequestSelection
import HttpNative.Router.RouteMatching

/-!
# Requests that are answered

What the connection loop does with a request whose head was parsed, up to the
response that is written. A request that goes over the bridge is put into an envelope
first; where that fails, and where a match panics, the connection ends without a
response.
-/

namespace HttpNative
namespace Response

open Envelope (CompressionConfig Header buildDispatchEnvelope buildNotFoundDispatchEnvelope
  shouldIncludeHeader)
open HttpNative.Parser (ParsedRequest RawRequest maxHeaderCount maxHeaderValueLength maxUrlLength)
open Router (CacheEntry RouteCaches)

/-! ## The loop -/

/-- A worker: its parsers, its router, and what belongs to the routes of that. The text
of the address of the peer is as short as such texts are. -/
structure Worker where
  httparse : Octets → Option RawRequest
  hotConfig : Parser.HotConfig
  router : Router
  compression : Option CompressionConfig
  staticResponse : Router.RouteInput → FixedResponse
  fastPathResponse : Router.MatchedRoute → ParsedRequest → FixedResponse
  cacheNamespace : Router.MatchedRoute → UInt64
  interpolateCacheKey : Router.RouteCacheConfig → Router.MatchedRoute → ParsedRequest → UInt64
  computeNcacheKey : ParsedRequest → UInt64
  computeAcceptKey : Text → Octets
  peerIp : Option Octets
  peerIp_short : ∀ ip ∈ peerIp, ip.length ≤ 45
  distinctLabels : router.DistinctLabels

/-- A request as it arrives, with its body, the caches, and what it comes to on the side
of JavaScript. -/
structure Arrival where
  buffer : Octets
  body : Octets
  caches : RouteCaches
  now : Nat
  /-- What the dispatcher resolves to for an envelope, if it is not rejected. -/
  dispatch : Octets → Option Octets
  streamed : List Octets
  setCookie : Option Octets

/-- How a connection ends without a response. -/
inductive Failure where
  | malformed
  | error (message : Text)
  | panic
deriving DecidableEq

/-- `build_upgrade_response` -/
def buildUpgradeResponse (acceptKey : Octets) : Octets :=
  octets "HTTP/1.1 101 Switching Protocols\r\nUpgrade: websocket\r\nConnection: Upgrade\r\n" ++
    (octets "Sec-WebSocket-Accept: " ++ (acceptKey ++ octets "\r\n\r\n"))

/-- The header fields as they are handed over. -/
def headerEntries (parsed : ParsedRequest) : List Header :=
  parsed.headers.map fun header => (Utf8.encode header.1, Utf8.encode header.2)

/-- The code of a method; an unknown one has the code zero. -/
def methodCodeFromBytes (method : Octets) : UInt8 :=
  match Routing.Method.fromBytes method with
  | some method => UInt8.ofNat method.code
  | none => 0

/-- A match as the envelope has it. -/
def bridgeRoute (route : Router.MatchedRoute) : Envelope.MatchedRoute where
  handlerId := UInt32.ofNat route.handlerId
  paramNames := route.paramNames.map Utf8.encode
  paramValues := route.paramValues.map Utf8.encode
  headerKeys := route.headerKeys.map Utf8.encode
  fullHeaders := route.fullHeaders
  needsPath := route.needsPath
  needsUrl := route.needsUrl
  needsQuery := route.needsQuery

/-- The text of a part of the target, as it is handed over. -/
def lossyOctets (part : Octets) : Octets :=
  Utf8.encode (Utf8.decodeLossy part)

namespace Worker

variable (worker : Worker)

/-- The head at the start of the buffer. -/
def parse (buffer : Octets) : Option ParsedRequest :=
  Router.parseHead worker.httparse worker.hotConfig worker.router buffer

/-- A match with the keys of the request. -/
def routeMatch (parsed : ParsedRequest) (route : Router.MatchedRoute) : RouteMatch where
  handlerId := route.handlerId
  cacheNamespace := worker.cacheNamespace route
  cacheConfig := route.cacheConfig.map fun config =>
    { key := worker.interpolateCacheKey config route parsed
      maxEntries := config.maxEntries
      ttlSecs := config.ttlSecs }
  ncacheKey := worker.computeNcacheKey parsed
  fastPath := if route.fastPath then some (worker.fastPathResponse route parsed) else none

/-- The decision for a match, or for none. -/
def decision
    (caches : RouteCaches)
    (now : Nat)
    (parsed : ParsedRequest)
    (route : Option Router.MatchedRoute) :
    DispatchDecision :=
  let matched := route.map (worker.routeMatch parsed)
  if parsed.hasBody then
    (buildDispatchDecisionOwned caches matched now).2
  else
    (buildDispatchDecisionZeroCopy caches matched parsed.keepAlive now).2

/-- The envelope of a request that goes over the bridge. -/
def envelope
    (parsed : ParsedRequest)
    (body : Octets) :
    Option Router.MatchedRoute → Except Text Octets
  | none =>
      buildNotFoundDispatchEnvelope (methodCodeFromBytes parsed.method) (lossyOctets parsed.path)
        (lossyOctets parsed.target) (headerEntries parsed) body worker.peerIp
  | some route =>
      buildDispatchEnvelope (bridgeRoute route) (methodCodeFromBytes parsed.method)
        (lossyOctets parsed.path) (lossyOctets parsed.target) (headerEntries parsed) body
        worker.peerIp

/-- A request that is left to `build_dispatch_decision_zero_copy` or to
`build_dispatch_decision_owned`, with its match. -/
def answerMatch
    (arrival : Arrival)
    (parsed : ParsedRequest)
    (route : Option Router.MatchedRoute) :
    Except Failure Octets :=
  let encoding := encodingOf parsed.acceptedEncoding
  match worker.decision arrival.caches arrival.now parsed route with
  | .bridgeRequest _ _ _ _ =>
      match worker.envelope parsed (if parsed.hasBody then arrival.body else []) route with
      | .error message => .error (.error message)
      | .ok envelope =>
          .ok (writeDynamicDispatchResponse (arrival.dispatch envelope) parsed.keepAlive encoding
            worker.compression arrival.setCookie ++
              streamedBody (arrival.dispatch envelope) arrival.streamed)
  | .specializedResponse fixed =>
      .ok (buildResponseBytesFast fixed.status fixed.headers fixed.body parsed.keepAlive encoding
        worker.compression)
  | .cachedResponse entry keepAlive => .ok (cachedResponse entry keepAlive)

/-- What is written for a request, or how the connection ends. -/
def answerParsed
    (arrival : Arrival)
    (parsed : ParsedRequest) :
    Except Failure Octets :=
  if parsed.hasChunkedTe then
    if parsed.contentLength.isSome then
      .ok (buildErrorResponseBytes 400 conflictingLength false)
    else
      .ok (buildErrorResponseBytes 501 chunkedNotSupported false)
  else
    match worker.router.http1Selection parsed with
    | .error _ => .error .panic
    | .ok .lengthRequired => .ok (buildErrorResponseBytes 411 lengthRequired false)
    | .ok .payloadTooLarge => .ok (buildErrorResponseBytes 413 payloadTooLarge false)
    | .ok (.selected (.staticResponse route)) =>
        .ok (exactStaticResponse
          (buildExactStaticRoute worker.compression (worker.staticResponse route))
          parsed.keepAlive (encodingOf parsed.acceptedEncoding))
    | .ok (.selected (.webSocket _)) =>
        .ok (buildUpgradeResponse (worker.computeAcceptKey (parsed.wsKey.getD [])))
    | .ok (.selected (.handler route)) => worker.answerMatch arrival parsed (some route)
    | .ok (.selected .notFound) => worker.answerMatch arrival parsed none

/-- One round of `handle_connection_inner` on a complete head. -/
def answer (arrival : Arrival) : Except Failure Octets :=
  match worker.parse arrival.buffer with
  | none => .error .malformed
  | some parsed => worker.answerParsed arrival parsed

/-! ## When there is an answer -/

/-- The header fields that a request hands over. -/
def handedHeaders (parsed : ParsedRequest) : Option Router.MatchedRoute → List Header
  | none => headerEntries parsed
  | some route =>
      (headerEntries parsed).filter fun header => shouldIncludeHeader (bridgeRoute route) header.1

/-- A request with this match is answered without the bridge, or none of the header
names that it hands over is too long for its field. -/
def NamesFit
    (arrival : Arrival)
    (parsed : ParsedRequest)
    (route : Option Router.MatchedRoute) :
    Prop :=
  (worker.decision arrival.caches arrival.now parsed route).IsBridge →
    ∀ header ∈ handedHeaders parsed route, header.1.length ≤ 255

/-- None of the paths that are matched comes to a seventeenth parameter, and the names
fit. -/
def Answerable (arrival : Arrival) (parsed : ParsedRequest) : Prop :=
  parsed.hasChunkedTe = true ∨
    (∀ path ∈ worker.router.matchedPaths parsed,
      ¬ worker.router.HasTooManyParameters parsed.method path) ∧
    (worker.router.http1Selection parsed = .ok (.selected .notFound) →
      worker.NamesFit arrival parsed none) ∧
    ∀ route, worker.router.http1Selection parsed = .ok (.selected (.handler route)) →
      worker.NamesFit arrival parsed (some route)

end Worker

/-! ## What the parsers accept -/

/-- The bounds of a head that was parsed. -/
structure Accepted (parsed : ParsedRequest) : Prop where
  target : parsed.target.length ≤ maxUrlLength
  path : parsed.path.length ≤ maxUrlLength
  count : parsed.headers.length ≤ maxHeaderCount
  values : ∀ header ∈ parsed.headers, header.2.length ≤ maxHeaderValueLength

/-- A field adds one header, or none. -/
theorem bounds_of_parseHeader
    {request parsed : ParsedRequest} {header : Parser.RawHeader}
    (read : Parser.parseHeader request header = some parsed)
    (values : ∀ header ∈ request.headers, header.2.length ≤ maxHeaderValueLength) :
    parsed.headers.length ≤ request.headers.length + 1 ∧
      ∀ header ∈ parsed.headers, header.2.length ≤ maxHeaderValueLength := by
  unfold Parser.parseHeader at read
  split at read
  · cases read
  · rename_i short
    split at read
    · cases read
      exact ⟨Nat.le_succ _, values⟩
    · rename_i value decoded
      cases read
      constructor
      · rw [Parser.recordHeader, List.length_append, List.length_singleton]
      · intro other member
        rcases List.mem_append.mp member with old | new
        · exact values other old
        · rw [List.mem_singleton] at new
          rw [new]
          exact (Utf8.length_decodeFrom decoded).trans (Nat.le_of_not_lt short)

theorem bounds_of_foldlM
    {headers : List Parser.RawHeader} {request parsed : ParsedRequest}
    (read : headers.foldlM Parser.parseHeader request = some parsed)
    (values : ∀ header ∈ request.headers, header.2.length ≤ maxHeaderValueLength) :
    parsed.headers.length ≤ request.headers.length + headers.length ∧
      ∀ header ∈ parsed.headers, header.2.length ≤ maxHeaderValueLength := by
  induction headers generalizing request with
  | nil =>
      cases read
      exact ⟨Nat.le_refl _, values⟩
  | cons header rest hypothesis =>
      rw [List.foldlM_cons] at read
      obtain ⟨next, readFirst, readRest⟩ := Option.bind_eq_some_iff.mp read
      obtain ⟨count, short⟩ := bounds_of_parseHeader readFirst values
      obtain ⟨restCount, restShort⟩ := hypothesis readRest short
      refine ⟨?_, restShort⟩
      rw [List.length_cons]
      omega

theorem accepted_of_httparse
    {httparse : Octets → Option RawRequest} {bytes : Octets} {parsed : ParsedRequest}
    (read : Parser.parseRequestHttparse httparse bytes = some parsed) :
    Accepted parsed := by
  obtain ⟨raw, _, read⟩ := Option.bind_eq_some_iff.mp read
  obtain ⟨_, target, path, _⟩ := Parser.line_of_parseRawRequest read
  unfold Parser.parseRawRequest at read
  split at read
  · cases read
  · rename_i short
    obtain ⟨count, values⟩ := bounds_of_foldlM read fun header member =>
      absurd member List.not_mem_nil
    have withinTarget : raw.target.length ≤ maxUrlLength := Nat.le_of_not_lt short
    refine ⟨?_, ?_, ?_, values⟩
    · rw [target]
      exact withinTarget
    · rw [path]
      exact (List.takeWhile_prefix _).length_le.trans withinTarget
    · rw [Parser.initialRequest, List.length_nil, Nat.zero_add] at count
      exact count.trans raw.fewHeaders

theorem accepted_of_hotRoot
    {config : Parser.HotConfig} {bytes : Octets} {parsed : ParsedRequest}
    (read : Parser.parseHotRootRequest config bytes = some parsed) :
    Accepted parsed := by
  obtain ⟨_, _, keeps⟩ := Parser.keepsLine_of_parseHotRootRequest read
  constructor
  · rw [keeps.target]
    exact show 1 ≤ maxUrlLength by decide
  · rw [keeps.path]
    exact show 1 ≤ maxUrlLength by decide
  · rw [keeps.headers]
    exact Nat.zero_le _
  · rw [keeps.headers]
    exact fun header member => absurd member List.not_mem_nil

theorem Worker.accepted_of_parse
    {worker : Worker} {buffer : Octets} {parsed : ParsedRequest}
    (read : worker.parse buffer = some parsed) :
    Accepted parsed := by
  unfold Worker.parse Router.parseHead at read
  split at read
  · rcases Option.or_eq_some_iff.mp read with hot | ⟨_, full⟩
    · exact accepted_of_hotRoot hot
    · exact accepted_of_httparse full
  · exact accepted_of_httparse read

/-! ## When an envelope is built -/

theorem length_lossyOctets
    {part : Octets}
    (short : part.length ≤ maxUrlLength) :
    (lossyOctets part).length ≤ 32768 := by
  have octets := Utf8.length_encode (Utf8.decodeLossy part)
  have chars := Utf8.length_decodeLossy part
  have bound : maxUrlLength = 8192 := rfl
  unfold lossyOctets
  omega

/-- The parameters of a match fit an envelope. -/
def ParamsFit (route : Router.MatchedRoute) : Prop :=
  route.paramValues.length ≤ 65535 ∧ ∀ value ∈ route.paramValues, value.length ≤ maxUrlLength

theorem paramsFit_of_dispatchTarget
    {router : Router} {parsed : ParsedRequest} {route : Router.MatchedRoute}
    (accepted : Accepted parsed)
    (selected : router.dispatchTarget parsed = .ok (.handler route)) :
    ParamsFit route := by
  unfold Router.dispatchTarget at selected
  dsimp only at selected
  split at selected
  · cases selected
  · rw [Router.matchMethod] at selected
    split at selected
    · cases selected
    · rename_i method _
      cases found : router.matchRoute method.code
          (Routing.normalizeRuntimePath (Utf8.decodeLossy parsed.path)) with
      | error panic =>
          rw [found] at selected
          cases selected
      | ok matched =>
          rw [found] at selected
          cases matched with
          | none => cases selected
          | some own =>
              cases selected
              obtain ⟨few, short⟩ := Router.paramValues_of_matchRoute found
              refine ⟨few.trans (by decide), fun value member => ?_⟩
              calc value.length
                _ ≤ (Routing.normalizeRuntimePath (Utf8.decodeLossy parsed.path)).length :=
                    short value member
                _ ≤ (Utf8.decodeLossy parsed.path).length := Router.length_normalizeRuntimePath _
                _ ≤ parsed.path.length := Utf8.length_decodeLossy _
                _ ≤ maxUrlLength := accepted.path

theorem paramsFit_of_selection
    {router : Router} {parsed : ParsedRequest} {route : Router.MatchedRoute}
    (accepted : Accepted parsed)
    (selected : router.http1Selection parsed = .ok (.selected (.handler route))) :
    ParamsFit route := by
  have routed : router.dispatchTarget parsed = .ok (.handler route) := by
    unfold Router.http1Selection at selected
    split at selected
    · unfold Router.selectTarget at selected
      split at selected
      · cases selected
      · split at selected
        · cases selected
        · cases target : router.dispatchTarget parsed with
          | error panic =>
              rw [target] at selected
              cases selected
          | ok own =>
              rw [target] at selected
              cases selected
              rfl
    · split at selected
      · cases selected
      · split at selected
        · cases selected
        · split at selected
          · cases selected
          · split at selected
            · cases selected
            · cases target : router.dispatchTarget parsed with
              | error panic =>
                  rw [target] at selected
                  cases selected
              | ok own =>
                  rw [target] at selected
                  cases selected
                  rfl
  exact paramsFit_of_dispatchTarget accepted routed

section Envelopes

variable {worker : Worker} {parsed : ParsedRequest}

theorem headerEntries_fit
    (accepted : Accepted parsed) :
    (headerEntries parsed).length ≤ 64 ∧ ∀ header ∈ headerEntries parsed, header.2.length ≤ 32768 := by
  refine ⟨?_, fun header member => ?_⟩
  · rw [headerEntries, List.length_map]
    exact accepted.count
  · obtain ⟨own, inHeaders, rfl⟩ := List.mem_map.mp member
    have chars := accepted.values own inHeaders
    have octets := Utf8.length_encode own.2
    have bound : maxHeaderValueLength = 8192 := rfl
    dsimp only
    omega

/-- Where everything else is short, the names of the headers decide. -/
theorem fits_iff
    {url path ip : Octets} {paramValues : List Octets} {headers : List Header}
    (urlFits : url.length ≤ 32768)
    (pathFits : path.length ≤ 32768)
    (ipFits : ip.length ≤ 45)
    (count : paramValues.length ≤ 65535)
    (values : ∀ value ∈ paramValues, value.length ≤ 32768)
    (few : headers.length ≤ 64)
    (short : ∀ header ∈ headers, header.2.length ≤ 32768) :
    Envelope.Fits url path ip paramValues headers.length headers ↔
      ∀ header ∈ headers, header.1.length ≤ 255 := by
  have one : LittleEndian.limit 1 = 256 := rfl
  have two : LittleEndian.limit 2 = 65536 := rfl
  have four : LittleEndian.limit 4 = 4294967296 := rfl
  constructor
  · intro fits header member
    have name := (fits.headers header member).1
    omega
  · intro names
    constructor
    · omega
    · omega
    · omega
    · omega
    · omega
    · intro value member
      have bound := values value member
      omega
    · intro header member
      have name := names header member
      have value := short header member
      omega

/-- Of an accepted request only the name of a header may not fit. -/
theorem Worker.envelope_iff
    (accepted : Accepted parsed)
    {route : Option Router.MatchedRoute}
    (paramsFit : ∀ matched ∈ route, ParamsFit matched)
    (body : Octets) :
    (∃ envelope, worker.envelope parsed body route = .ok envelope) ↔
      ∀ header ∈ handedHeaders parsed route, header.1.length ≤ 255 := by
  obtain ⟨few, short⟩ := headerEntries_fit accepted
  have url := length_lossyOctets accepted.target
  have path := length_lossyOctets accepted.path
  have ip : (worker.peerIp.getD []).length ≤ 45 := by
    cases address : worker.peerIp with
    | none => exact Nat.zero_le _
    | some ip => exact worker.peerIp_short ip address
  cases route with
  | none =>
      exact Envelope.buildEnvelope_iff.trans
        (fits_iff url path ip (Nat.zero_le _) (by simp) few short)
  | some matched =>
      obtain ⟨count, values⟩ := paramsFit matched rfl
      rw [Worker.envelope, buildDispatchEnvelope, Envelope.selectedHeaders_eq,
        Envelope.countSelectedHeaders_eq, Envelope.buildEnvelope_iff]
      refine fits_iff ?_ ?_ ip ?_ ?_ ((List.length_filter_le _ _).trans few) ?_
      · split
        · exact url
        · exact Nat.zero_le _
      · split
        · exact path
        · exact Nat.zero_le _
      · rw [bridgeRoute, List.length_map]
        exact count
      · intro value member
        obtain ⟨own, inValues, rfl⟩ := List.mem_map.mp member
        have chars := values own inValues
        have octets := Utf8.length_encode own
        have bound : maxUrlLength = 8192 := rfl
        omega
      · exact fun header member => short header (List.mem_filter.mp member).1

theorem Worker.answerMatch_iff
    (accepted : Accepted parsed)
    {route : Option Router.MatchedRoute}
    (paramsFit : ∀ matched ∈ route, ParamsFit matched)
    (arrival : Arrival) :
    (∃ response, worker.answerMatch arrival parsed route = .ok response) ↔
      worker.NamesFit arrival parsed route := by
  unfold Worker.answerMatch Worker.NamesFit
  dsimp only
  cases decided : worker.decision arrival.caches arrival.now parsed route with
  | specializedResponse fixed => exact iff_of_true ⟨_, rfl⟩ False.elim
  | cachedResponse entry keepAlive => exact iff_of_true ⟨_, rfl⟩ False.elim
  | bridgeRequest insertion handlerId cacheNamespace key =>
      rw [← worker.envelope_iff accepted paramsFit (if parsed.hasBody then arrival.body else [])]
      dsimp only [DispatchDecision.IsBridge]
      cases built : worker.envelope parsed (if parsed.hasBody then arrival.body else []) route with
      | error message => simp
      | ok envelope => simp

theorem Worker.answerParsed_iff
    (accepted : Accepted parsed)
    (arrival : Arrival) :
    (∃ response, worker.answerParsed arrival parsed = .ok response) ↔
      worker.Answerable arrival parsed := by
  unfold Worker.answerParsed Worker.Answerable
  cases chunked : parsed.hasChunkedTe with
  | true =>
      refine iff_of_true ?_ (.inl rfl)
      rw [if_pos rfl]
      split
      · exact ⟨_, rfl⟩
      · exact ⟨_, rfl⟩
  | false =>
      rw [if_neg Bool.false_ne_true]
      have panics_iff : worker.router.http1Selection parsed = .error {} ↔ _ :=
        Router.http1Selection_eq_error_iff worker.distinctLabels
      have few_iff : (∀ path ∈ worker.router.matchedPaths parsed,
          ¬ worker.router.HasTooManyParameters parsed.method path) ↔
            worker.router.http1Selection parsed ≠ .error {} := by
        rw [Ne, panics_iff]
        simp
      rw [few_iff]
      cases selected : worker.router.http1Selection parsed with
      | error panic => simp
      | ok selection =>
          cases selection with
          | lengthRequired => simp
          | payloadTooLarge => simp
          | selected target =>
              cases target with
              | staticResponse route => simp
              | webSocket handlerId => simp
              | notFound =>
                  dsimp only
                  rw [worker.answerMatch_iff accepted (by simp)]
                  simp
              | handler route =>
                  have paramsFit := paramsFit_of_selection accepted selected
                  dsimp only
                  rw [worker.answerMatch_iff accepted (by simpa using paramsFit)]
                  simp

end Envelopes

/-- A request that `parse_request_httparse` accepts is answered just when no match
comes to a seventeenth parameter and the names of the headers that it hands over fit. -/
theorem answer_iff
    {worker : Worker} {arrival : Arrival}
    (accepted : (Parser.parseRequestHttparse worker.httparse arrival.buffer).isSome = true) :
    (∃ response, worker.answer arrival = .ok response) ↔
      ∃ parsed, worker.parse arrival.buffer = some parsed ∧ worker.Answerable arrival parsed := by
  obtain ⟨parsed, read⟩ : ∃ parsed, worker.parse arrival.buffer = some parsed := by
    obtain ⟨full, readFull⟩ := Option.isSome_iff_exists.mp accepted
    unfold Worker.parse Router.parseHead
    rw [readFull]
    split
    · cases Parser.parseHotRootRequest worker.hotConfig arrival.buffer with
      | none => exact ⟨full, rfl⟩
      | some hot => exact ⟨hot, rfl⟩
    · exact ⟨full, rfl⟩
  rw [Worker.answer, read]
  dsimp only
  rw [worker.answerParsed_iff (Worker.accepted_of_parse read)]
  constructor
  · exact fun answerable => ⟨parsed, rfl, answerable⟩
  · rintro ⟨other, same, answerable⟩
    cases same
    exact answerable

/-! ## A long name -/

/-- A worker whose parser yields one head. -/
def workerOf (router : Router) (distinct : router.DistinctLabels) (raw : RawRequest) : Worker where
  httparse := fun _ => some raw
  hotConfig := Parser.defaultHotConfig
  router := router
  compression := none
  staticResponse := fun _ => ⟨200, [], []⟩
  fastPathResponse := fun _ _ => ⟨200, [], []⟩
  cacheNamespace := fun _ => 0
  interpolateCacheKey := fun _ _ _ => 0
  computeNcacheKey := fun _ => 0
  computeAcceptKey := fun _ => []
  peerIp := some (octets "127.0.0.1")
  peerIp_short := by decide
  distinctLabels := distinct

/-- `GET /users/7` with one header. -/
def namedHead (name : Octets) (named : name ≠ []) : RawRequest where
  method := octets "GET"
  target := octets "/users/7"
  version := 1
  headers := [⟨name, octets "1", named⟩]
  headerLength := name.length + 33
  fewHeaders := show 1 ≤ maxHeaderCount by decide

/-- A route with a parameter, whose handler is handed all headers. -/
def usersRouter : Router :=
  Router.fromManifest Router.nothingFound
    { Router.shapedManifest [] with
      routes := [{ Router.shapedRoute (text "/users/:id") with fullHeaders := true }] }

theorem distinctLabels_usersRouter : usersRouter.DistinctLabels := by
  intro method
  rw [usersRouter, Router.radixTree_fromManifest]
  exact Router.radixTree_distinct _ _ _ method

theorem distinctLabels_empty : Router.empty.DistinctLabels :=
  fun _ => .empty List.nodup_nil

def plainArrival : Arrival where
  buffer := []
  body := []
  caches := fun _ => none
  now := 0
  dispatch := fun _ => none
  streamed := []
  setCookie := none

def parsedNamed : ParsedRequest where
  method := octets "GET"
  target := octets "/users/7"
  path := octets "/users/7"
  keepAlive := true
  headerBytes := 288
  hasBody := false
  contentLength := none
  hasChunkedTe := false
  headers := [(List.replicate 255 'x', text "1")]
  cookieHeader := none
  isWebsocketUpgrade := false
  wsKey := none
  acceptedEncoding := .identity

def usersMatch : Router.MatchedRoute where
  handlerId := 1
  paramNames := [text "id"]
  headerKeys := []
  fullHeaders := true
  needsPath := false
  needsUrl := false
  needsQuery := false
  fastPath := false
  cacheConfig := none
  maxBodyBytes := none
  paramValues := [text "7"]

theorem http1Selection_usersRouter :
    usersRouter.http1Selection parsedNamed = .ok (.selected (.handler usersMatch)) := by
  decide

/-- A name of 255 octets is handed over. -/
theorem answer_iff_longestName :
    ∃ response, (workerOf usersRouter distinctLabels_usersRouter
      (namedHead (List.replicate 255 120) (by decide))).answer plainArrival = .ok response := by
  refine (answer_iff (by decide +kernel)).mpr ⟨parsedNamed, by decide +kernel, .inr ⟨?_, ?_, ?_⟩⟩
  · intro path member many
    have panics := (Router.http1Selection_eq_error_iff distinctLabels_usersRouter).mpr
      ⟨path, member, many⟩
    rw [http1Selection_usersRouter] at panics
    cases panics
  · intro selected
    cases http1Selection_usersRouter.symm.trans selected
  · intro route selected _ header member
    cases http1Selection_usersRouter.symm.trans selected
    revert member header
    decide +kernel

/-- A header with a name of 256 octets ends the connection of a request for a page that
is not there. -/
theorem not_answered_longName :
    ¬ ∀ (worker : Worker) (arrival : Arrival),
      (Parser.parseRequestHttparse worker.httparse arrival.buffer).isSome = true →
        ∃ response, worker.answer arrival = .ok response := by
  intro answered
  let worker := workerOf Router.empty distinctLabels_empty
    (namedHead (List.replicate 256 120) (by decide))
  obtain ⟨response, written⟩ := answered worker plainArrival (by decide)
  have failed : worker.answer plainArrival = .error (.error (text "field name too long")) := by
    decide +kernel
  rw [failed] at written
  cases written

end Response
end HttpNative
