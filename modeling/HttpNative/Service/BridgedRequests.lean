import HttpNative.Envelope.ResponseDelivery
import HttpNative.Response.AnsweredHeads
import HttpNative.Response.KeepAliveRuns
import HttpNative.Response.StreamEnvelope

/-!
# Requests that go over the bridge

A request that no native way answers is handed to the program on the side of
JavaScript, and what the program answers is written to the client. Here the two
directions are joined: the program is handed the request as it was parsed, and the
client reads the status, the headers and the body of the answer.
-/

namespace HttpNative
namespace Service

open Envelope
  (AcceptedEncoding DecodedRequest Header PlainContentType Snapshot buildDispatchEnvelope
    decodeRequestEnvelope dispatchedRequest encodeResponseEnvelope notFoundRequest readResponse)
open HttpNative.Parser (ParsedRequest)
open MessageHead
open MessageReader (IsResponse Message hasNoBody)
open Response

/-- The program on the side of JavaScript: how each request is answered. -/
abbrev Program := DecodedRequest → Snapshot

/-- What the dispatcher of a program resolves to for an envelope. -/
def dispatch (program : Program) (envelope : Octets) : Option Octets :=
  (decodeRequestEnvelope.run envelope).toOption.bind fun request =>
    (encodeResponseEnvelope (program request)).toOption

/-- A body that arrives at a worker without cached responses. -/
def arrivalOf (program : Program) (body : Octets) : Arrival where
  buffer := []
  body := body
  caches := fun _ => none
  now := 0
  dispatch := dispatch program
  streamed := []
  setCookie := none

/-- What is written for a request; nothing where the connection ends without a
response. -/
def respond
    (worker : Worker)
    (program : Program)
    (parsed : ParsedRequest)
    (body : Octets) :
    Octets :=
  (worker.answerParsed (arrivalOf program body) parsed).toOption.getD []

/-- What a request selects when it matches a route, or none. -/
def targetOf : Option Router.MatchedRoute → Router.Target
  | some route => .handler route
  | none => .notFound

/-- The request goes over the bridge: it matches a route without a cache and without a
fast path, or none, and the names of its headers fit an envelope. -/
structure Bridges
    (worker : Worker)
    (parsed : ParsedRequest)
    (route : Option Router.MatchedRoute) : Prop where
  uncoded : parsed.hasChunkedTe = false
  selected : worker.router.http1Selection parsed = .ok (.selected (targetOf route))
  noCache : ∀ matched ∈ route, matched.cacheConfig = none
  noFastPath : ∀ matched ∈ route, matched.fastPath = false
  names : ∀ header ∈ Worker.handedHeaders parsed route, header.1.length ≤ 255

/-- The request as the program is handed it. -/
def handedOver
    (worker : Worker)
    (parsed : ParsedRequest)
    (body : Octets) :
    Option Router.MatchedRoute → DecodedRequest
  | none =>
      notFoundRequest (methodCodeFromBytes parsed.method) (lossyOctets parsed.path)
        (lossyOctets parsed.target) (headerEntries parsed) body worker.peerIp
  | some route =>
      dispatchedRequest (bridgeRoute route) (methodCodeFromBytes parsed.method)
        (lossyOctets parsed.path) (lossyOctets parsed.target) (headerEntries parsed) body
        worker.peerIp

/-- The answer can be sent and read by its client: it fits an envelope, it is final, it
has a body only where one is expected, and its headers are named by tokens. -/
structure Readable (isHead : Bool) (snapshot : Snapshot) : Prop where
  fits : snapshot.Fits
  encodes : ∃ envelope, encodeResponseEnvelope snapshot = .ok envelope
  plain : PlainContentType snapshot
  status : 200 ≤ snapshot.statusCode ∧ snapshot.statusCode < 1000
  expected : hasNoBody isHead snapshot.statusCode = true → snapshot.body = []
  tokens : ∀ header ∈ snapshot.headers, IsToken header.1
  uncoded : ∀ header ∈ snapshot.headers,
    Octets.eqIgnoreAsciiCase header.1 transferEncoding = false

/-- What a client reads of an answer: the length and the connection field of the server,
then the headers of the answer but for those two and those with a line break. -/
def messageOf (snapshot : Snapshot) (keepAlive : Bool) : Message where
  status := snapshot.statusCode
  lines := (ownFields snapshot.body.length keepAlive).map lineOf ++
    (passOn [contentLength, connection] snapshot.headers).map lineOf
  body := snapshot.body

variable {worker : Worker} {program : Program} {parsed : ParsedRequest}
  {route : Option Router.MatchedRoute} {body : Octets}

/-! ## To the program -/

theorem methodCodeFromBytes_le
    (method : Octets) :
    (methodCodeFromBytes method).toNat ≤ 7 := by
  unfold methodCodeFromBytes
  cases Routing.Method.fromBytes method with
  | none => decide
  | some method => cases method <;> decide

/-- An envelope that is built is decoded to the request as it was parsed. -/
theorem decode_envelope
    {envelope : Octets}
    (built : worker.envelope parsed body route = .ok envelope)
    (short : body.length < LittleEndian.limit 4) :
    decodeRequestEnvelope.run envelope = .ok (handedOver worker parsed body route) := by
  have known := methodCodeFromBytes_le parsed.method
  cases route with
  | none => exact Envelope.decode_buildNotFoundDispatchEnvelope known short built
  | some matched => exact Envelope.decode_buildDispatchEnvelope known short built

theorem exists_envelope
    (accepted : Accepted parsed)
    (bridges : Bridges worker parsed route)
    (body : Octets) :
    ∃ envelope, worker.envelope parsed body route = .ok envelope := by
  refine (worker.envelope_iff accepted ?_ body).mpr bridges.names
  intro matched isRoute
  have selected := bridges.selected
  rw [Option.mem_def.mp isRoute] at selected
  exact paramsFit_of_selection accepted selected

/-- Without a cached response and a fast path the decision is for the bridge. -/
theorem isBridge_decision
    (bridges : Bridges worker parsed route)
    (now : Nat) :
    (worker.decision (fun _ => none) now parsed route).IsBridge := by
  unfold Worker.decision
  cases route with
  | none => cases parsed.hasBody <;> exact trivial
  | some matched =>
      have cacheConfig : (worker.routeMatch parsed matched).cacheConfig = none := by
        rw [Worker.routeMatch, bridges.noCache matched rfl]
        rfl
      have fastPath : (worker.routeMatch parsed matched).fastPath = none := by
        rw [Worker.routeMatch, bridges.noFastPath matched rfl]
        rfl
      cases parsed.hasBody with
      | true =>
          simp only [Option.map_some, if_true, buildDispatchDecisionOwned, cacheConfig,
            Router.RouteCaches.lookup]
          exact trivial
      | false =>
          simp only [Option.map_some, Bool.false_eq_true, if_false, buildDispatchDecisionZeroCopy,
            fastPath, Router.RouteCaches.lookup]
          exact trivial

/-- The response to a request that goes over the bridge is that to its envelope. -/
theorem answerParsed_of_bridges
    (accepted : Accepted parsed)
    (bridges : Bridges worker parsed route)
    (arrival : Arrival)
    (noCaches : arrival.caches = fun _ => none) :
    ∃ envelope,
      worker.envelope parsed (if parsed.hasBody then arrival.body else []) route = .ok envelope ∧
        worker.answerParsed arrival parsed =
          .ok (writeDynamicDispatchResponse (arrival.dispatch envelope) parsed.keepAlive
            (encodingOf parsed.acceptedEncoding) worker.compression arrival.setCookie ++
              streamedBody (arrival.dispatch envelope) arrival.streamed) := by
  obtain ⟨envelope, built⟩ :=
    exists_envelope accepted bridges (if parsed.hasBody then arrival.body else [])
  have isBridge := isBridge_decision bridges arrival.now
  have matched : worker.answerParsed arrival parsed = worker.answerMatch arrival parsed route := by
    rw [Worker.answerParsed, if_neg (by simp [bridges.uncoded]), bridges.selected]
    cases route <;> rfl
  refine ⟨envelope, built, ?_⟩
  rw [matched, Worker.answerMatch, noCaches]
  cases decided : worker.decision (fun _ => none) arrival.now parsed route with
  | bridgeRequest insertion handlerId cacheNamespace key =>
      dsimp only
      rw [built]
  | specializedResponse fixed =>
      rw [decided] at isBridge
      exact isBridge.elim
  | cachedResponse entry keepAlive =>
      rw [decided] at isBridge
      exact isBridge.elim

/-! ## Back to the client -/

/-- What is written of an answer that fits an envelope. -/
theorem dispatchForm_of_readable
    {isHead : Bool} {snapshot : Snapshot}
    (readable : Readable isHead snapshot)
    (keepAlive : Bool)
    (encoding : AcceptedEncoding) :
    ∃ response,
      encodeResponseEnvelope snapshot = .ok response ∧ isStreamStart response = false ∧
        (dispatchForm (some response) keepAlive encoding none none).octets =
          assemble snapshot.statusCode (ownFields snapshot.body.length keepAlive)
            (passOn [contentLength, connection] snapshot.headers) snapshot.body := by
  obtain ⟨response, encoded⟩ := readable.encodes
  have noStream : isStreamStart response = false := by
    rw [Bool.eq_false_iff]
    intro starts
    have sentinel := status_of_isStreamStart encoded starts
    have status := readable.status
    omega
  have sent := Envelope.sent_of_encode encoded
  have unchanged := Envelope.sentHeaders_of_plain readable.plain
  have headersFit := sent.headers
  have frame := sent.envelope
  rw [unchanged] at headersFit
  rw [unchanged, Envelope.responseFrame_eq] at frame
  have ran : readResponse.run response =
      .ok (snapshot.statusCode, snapshot.headers, snapshot.body) := by
    rw [frame]
    exact (Envelope.reads_readResponse readable.fits.status readable.fits.count
      readable.fits.body headersFit).run_append _
  refine ⟨response, encoded, noStream, ?_⟩
  rw [dispatchForm, noStream, ran]
  change (fastForm snapshot.statusCode snapshot.headers snapshot.body keepAlive encoding
    none).octets = _
  rw [ResponseForm.octets_of_cookie_none rfl]
  rfl

/-- A client reads an answer that is written as its message. -/
theorem isResponse_of_readable
    {isHead : Bool} {snapshot : Snapshot}
    (readable : Readable isHead snapshot)
    (keepAlive : Bool) :
    IsResponse isHead (messageOf snapshot keepAlive)
      (assemble snapshot.statusCode (ownFields snapshot.body.length keepAlive)
        (passOn [contentLength, connection] snapshot.headers) snapshot.body) := by
  have unbroken : ∀ header ∈ passOn [contentLength, connection] snapshot.headers,
      hasLineBreak header = false :=
    fun header member => unbroken_of_mem_passOn member
  obtain ⟨spelled, behind⟩ := spelled_of_unbroken unbroken
  have read : ∀ more, readLines []
      (assemble snapshot.statusCode (ownFields snapshot.body.length keepAlive)
        (passOn [contentLength, connection] snapshot.headers) snapshot.body ++ more) =
      some (statusRow snapshot.statusCode :: (messageOf snapshot keepAlive).lines,
        snapshot.body ++ more) := by
    intro more
    have server : ∀ header ∈ ownFields snapshot.body.length keepAlive,
        hasLineBreak header = false :=
      fun header member => unbroken_ownFields keepAlive member
    have lines := readLines_append (readLines_assemble server snapshot.statusCode
      (passOn [contentLength, connection] snapshot.headers) snapshot.body) more
    rw [spelled, behind, List.nil_append] at lines
    exact lines
  have hasStatus : MessageReader.readStatus (statusRow snapshot.statusCode) =
      some snapshot.statusCode :=
    readStatus_statusRow ⟨by have := readable.status.1; omega, readable.status.2⟩
  have unnamed : ∀ wanted, (∀ header ∈ passOn [contentLength, connection] snapshot.headers,
      Octets.eqIgnoreAsciiCase header.1 wanted = false) →
      valuesOf wanted ((passOn [contentLength, connection] snapshot.headers).map lineOf) = [] := by
    intro wanted others
    rw [valuesOf_eq_nil_iff]
    intro line member
    obtain ⟨header, passed, rfl⟩ := List.mem_map.mp member
    rw [lineOf, isFieldNamed_fieldLine (readable.tokens header (List.mem_filter.mp passed).1)]
    exact others header passed
  obtain ⟨lengths, codings, -⟩ := values_of_ownFields snapshot.body.length keepAlive
    ((passOn [contentLength, connection] snapshot.headers).map lineOf)
  rw [unnamed contentLength] at lengths
  · rw [unnamed transferEncoding] at codings
    · cases noBody : hasNoBody isHead snapshot.statusCode with
      | true =>
          have empty := readable.expected noBody
          have isEmpty : messageOf snapshot keepAlive =
              { status := snapshot.statusCode
                lines := (messageOf snapshot keepAlive).lines
                body := [] } := by
            rw [messageOf, empty]
          rw [isEmpty]
          refine MessageReader.isResponse_of_noBody (fun more => ?_) hasStatus noBody
          rw [read, empty, List.nil_append]
      | false =>
          exact MessageReader.isResponse_of_length read hasStatus noBody codings lengths
            (readNumber_decimalOctets _) (by simp)
    · exact fun header passed => readable.uncoded header (List.mem_filter.mp passed).1
  · intro header passed
    have kept := (List.mem_filter.mp passed).2
    simp only [isManaged, List.any_cons, List.any_nil, Bool.or_false, Bool.not_or,
      Bool.and_eq_true, Bool.not_eq_true'] at kept
    exact kept.1.1

/-- A request that goes over the bridge: the program is handed what was parsed, and the
client reads what the program answers. -/
theorem isResponse_respond
    (accepted : Accepted parsed)
    (bridges : Bridges worker parsed route)
    (uncompressed : worker.compression = none)
    (short : body.length < LittleEndian.limit 4)
    (bodyless : parsed.hasBody = false → body = [])
    (readable : Readable (isHeadMethod parsed.method)
      (program (handedOver worker parsed body route))) :
    IsResponse (isHeadMethod parsed.method)
      (messageOf (program (handedOver worker parsed body route)) parsed.keepAlive)
      (respond worker program parsed body) := by
  obtain ⟨envelope, built, answered⟩ :=
    answerParsed_of_bridges accepted bridges (arrivalOf program body) rfl
  have sameBody : (if parsed.hasBody then (arrivalOf program body).body else []) = body := by
    cases hasBody : parsed.hasBody with
    | true => rfl
    | false => exact (bodyless hasBody).symm
  rw [sameBody] at built
  obtain ⟨response, encoded, noStream, written⟩ :=
    dispatchForm_of_readable readable parsed.keepAlive (encodingOf parsed.acceptedEncoding)
  have dispatched : dispatch program envelope = some response := by
    rw [dispatch, decode_envelope built short]
    change (encodeResponseEnvelope (program (handedOver worker parsed body route))).toOption = _
    rw [encoded]
    rfl
  have octets : respond worker program parsed body =
      assemble (program (handedOver worker parsed body route)).statusCode
        (ownFields (program (handedOver worker parsed body route)).body.length parsed.keepAlive)
        (passOn [contentLength, connection]
          (program (handedOver worker parsed body route)).headers)
        (program (handedOver worker parsed body route)).body := by
    rw [respond, answered]
    change writeDynamicDispatchResponse (dispatch program envelope) parsed.keepAlive
      (encodingOf parsed.acceptedEncoding) worker.compression none ++
        streamedBody (dispatch program envelope) [] = _
    rw [dispatched, uncompressed, writeDynamicDispatchResponse_eq, written, streamedBody,
      Option.any_some, noStream, if_neg Bool.false_ne_true, List.append_nil]
  rw [octets]
  exact isResponse_of_readable readable parsed.keepAlive

end Service
end HttpNative
