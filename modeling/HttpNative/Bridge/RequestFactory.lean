import HttpNative.Bridge.AccessAnalysis
import HttpNative.Compile.Registration
import HttpNative.Envelope.RequestEnvelope
import HttpNative.Library.Utf8

/-!
# The request object of a route

What the native layer hands over of a request, and the object that the handler
of the route is called with, both cut down to the access plan of the route. With
an empty plan only the address and the body of a request come through.
-/

namespace HttpNative
namespace Bridge

open Envelope
  (DecodedRequest MatchedRoute bodyOf buildDispatchEnvelope decodeRequestEnvelope
    dispatchedRequest)

/-- `textDecoder.decode`. -/
def decodeOctets (input : Octets) : Text :=
  textDecode (Utf8.decodeLossy input)

/-- What a handler can read off its request object; `req.json()`, `req.text()` and
`req.arrayBuffer()` give readings of the body. -/
structure HandlerRequest where
  method : Text
  path : Text
  url : Text
  ip : Text
  params : Dictionary Text Text
  query : Dictionary Text QueryValue
  headers : Dictionary Text Text
  /-- What `req.header` looks in. -/
  headerLookup : Dictionary Text Text
  body : Option Octets

/-- `createRequestFactory`. -/
def createRequestFactory
    (plan : RequestAccessPlan)
    (paramNames : List Text)
    (method : Routing.Method)
    (decoded : DecodedRequest) :
    HandlerRequest :=
  let lookup := ensureHeaderLookup (decoded.rawHeaders.map fun header =>
    (Utf8.decodeLossy header.1, Utf8.decodeLossy header.2))
  { method := method.name
    path := decodeOctets decoded.pathBytes
    url := decodeOctets decoded.urlBytes
    ip := decodeOctets decoded.ipBytes
    params :=
      if plan.fullParams || !plan.paramKeys.isEmpty then
        materializeParamObject plan.toAccessPlan (decoded.paramValues.map Utf8.decodeLossy)
          paramNames
      else
        []
    query :=
      if plan.needsQuery then
        materializeQueryObject plan.toAccessPlan
          (decoded.flags &&& Envelope.requestFlagQueryPresent ≠ 0) (decodeOctets decoded.urlBytes)
      else
        []
    headers :=
      if plan.fullHeaders || !plan.headerKeys.isEmpty then
        if plan.fullHeaders then lookup
        else materializeSelectedHeadersFromLookup lookup plan.headerKeys
      else
        []
    headerLookup := lookup
    body := decoded.bodyBytes }

/-- The route as the native layer knows it from the manifest, with what a request
has matched. -/
def matchedRoute
    (plan : RequestAccessPlan)
    (route : Routing.CompiledRoute)
    (paramValues : List Octets) :
    MatchedRoute where
  handlerId := UInt32.ofNat route.handlerId
  paramNames := (Compile.paramNamesOf route.path).map Utf8.encode
  paramValues := paramValues
  headerKeys := plan.headerKeys.map Utf8.encode
  fullHeaders := plan.fullHeaders
  needsPath := plan.path
  needsUrl := plan.url
  needsQuery := plan.needsQuery

/-- A request that the native layer hands over for a route. -/
structure Delivery (plan : RequestAccessPlan) (route : Routing.CompiledRoute) where
  methodCode : UInt8
  path : Octets
  url : Octets
  headers : List Envelope.Header
  body : Octets
  peerIp : Option Octets
  paramValues : List Octets
  envelope : Octets
  methodCode_known : methodCode.toNat ≤ 7
  body_fits : body.length < LittleEndian.limit 4
  built : buildDispatchEnvelope (matchedRoute plan route paramValues) methodCode path url headers
    body peerIp = .ok envelope

namespace Delivery

variable {plan : RequestAccessPlan} {route : Routing.CompiledRoute}

/-- The request as the dispatcher decodes it. -/
def decoded (delivery : Delivery plan route) : DecodedRequest :=
  dispatchedRequest (matchedRoute plan route delivery.paramValues) delivery.methodCode
    delivery.path delivery.url delivery.headers delivery.body delivery.peerIp

theorem decode_envelope
    (delivery : Delivery plan route) :
    decodeRequestEnvelope.run delivery.envelope = .ok delivery.decoded :=
  Envelope.decode_buildDispatchEnvelope delivery.methodCode_known delivery.body_fits
    delivery.built

end Delivery

/-! ## Requests for an empty plan -/

/-- What comes through of a request for an empty plan. -/
structure Client where
  ip : Octets
  body : Octets
  ip_fits : ip.length < LittleEndian.limit 2
  body_fits : body.length < LittleEndian.limit 4

/-- The request object that shows nothing but the client. -/
def blindRequest (method : Routing.Method) (client : Client) : HandlerRequest where
  method := method.name
  path := []
  url := []
  ip := decodeOctets client.ip
  params := []
  query := []
  headers := []
  headerLookup := []
  body := bodyOf client.body

variable {route : Routing.CompiledRoute}

/-- The client of a request. -/
def Delivery.client (delivery : Delivery emptyAccessPlan route) : Client where
  ip := delivery.peerIp.getD []
  body := delivery.body
  ip_fits := by
    have built := delivery.built
    unfold buildDispatchEnvelope at built
    exact (Envelope.of_buildEnvelope built).1.ip
  body_fits := delivery.body_fits

/-- With an empty plan a handler sees nothing but the client. -/
theorem createRequestFactory_decoded
    (delivery : Delivery emptyAccessPlan route)
    (paramNames : List Text)
    (method : Routing.Method) :
    createRequestFactory emptyAccessPlan paramNames method delivery.decoded =
      blindRequest method delivery.client := by
  have noHeaders : delivery.decoded.rawHeaders = [] := by
    refine List.filter_eq_nil_iff.mpr ?_
    intro header _
    simp [Envelope.shouldIncludeHeader, matchedRoute, emptyAccessPlan]
  unfold createRequestFactory
  rw [noHeaders]
  rfl

/-- The envelope of a plain `GET` request of a client can be built. -/
theorem buildDispatchEnvelope_plain
    (route : Routing.CompiledRoute)
    (client : Client) :
    ∃ envelope, buildDispatchEnvelope (matchedRoute emptyAccessPlan route []) 1 [] [] []
      client.body (some client.ip) = .ok envelope := by
  have short : client.ip.length ≤ 65535 := Nat.le_of_lt_succ client.ip_fits
  simp [buildDispatchEnvelope, Envelope.buildEnvelope, Envelope.ensure, matchedRoute,
    emptyAccessPlan, AccessPlan.needsQuery, Envelope.countSelectedHeaders, Envelope.pushAll, short,
    bind, Except.bind, pure, Except.pure]

/-- Every client is that of some request. -/
theorem exists_delivery
    (route : Routing.CompiledRoute)
    (client : Client) :
    ∃ delivery : Delivery emptyAccessPlan route, delivery.client = client := by
  obtain ⟨envelope, built⟩ := buildDispatchEnvelope_plain route client
  exact ⟨⟨1, [], [], [], client.body, some client.ip, [], envelope, by decide, client.body_fits,
    built⟩, rfl⟩

end Bridge
end HttpNative
