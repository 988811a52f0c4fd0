import HttpNative.Bridge.NormalizedPlans
import HttpNative.Bridge.RequestFactory
import HttpNative.Library.Utf8Ascii

/-!
# Reads under a plan

A plan decides which headers the native layer hands over and which objects the bridge
builds of a request. What a handler reads under a key of its plan is what it would read
if all of the request were there.
-/

namespace HttpNative
namespace Bridge

open Envelope
  (DecodedRequest Header buildDispatchEnvelope decodeRequestEnvelope dispatchedRequest)

/-- A request as the native layer has it; the names of its headers are tokens. -/
structure NativeRequest where
  methodCode : UInt8
  path : Octets
  url : Octets
  headers : List Header
  body : Octets
  peerIp : Option Octets
  paramValues : List Octets
  methodCode_known : methodCode.toNat ≤ 7
  body_fits : body.length < LittleEndian.limit 4
  headerNames_ascii : ∀ header ∈ headers, ∀ octet ∈ header.1, octet.toNat < 0x80

namespace NativeRequest

/-- The request that the envelope for a plan stands for. -/
def decoded
    (request : NativeRequest)
    (plan : RequestAccessPlan)
    (route : Routing.CompiledRoute) :
    DecodedRequest :=
  dispatchedRequest (matchedRoute plan route request.paramValues) request.methodCode request.path
    request.url request.headers request.body request.peerIp

/-- What the handler of a route is called with under a plan; an envelope that cannot be
built is an error. -/
def handOver
    (request : NativeRequest)
    (plan : RequestAccessPlan)
    (route : Routing.CompiledRoute)
    (method : Routing.Method) :
    Except Text HandlerRequest := do
  let envelope ← buildDispatchEnvelope (matchedRoute plan route request.paramValues)
    request.methodCode request.path request.url request.headers request.body request.peerIp
  let decoded ← decodeRequestEnvelope.run envelope
  pure (createRequestFactory plan (Compile.paramNamesOf route.path) method decoded)

end NativeRequest

/-- `req.header`: what has been built of `req.headers` is looked at first. -/
def HandlerRequest.header
    (request : HandlerRequest)
    (headersBuilt : Bool)
    (name : Text) :
    Option Text :=
  match if headersBuilt then request.headers.get (toLowerCase name) else none with
  | some value => some value
  | none => request.headerLookup.get (toLowerCase name)

/-- The plan under which a handler has all of a request. -/
def wholePlan : RequestAccessPlan :=
  emptyAccessPlan.markAll

/-- Under the keys of a plan two request objects hold the same. -/
structure ReadsAlike (plan : RequestAccessPlan) (handler whole : HandlerRequest) : Prop where
  params : ∀ key ∈ plan.paramKeys, handler.params.get key = whole.params.get key
  query : ∀ key ∈ plan.queryKeys, handler.query.get key = whole.query.get key
  headers : ∀ key ∈ plan.headerKeys, handler.headers.get key = whole.headers.get key
  /-- In any case of the name, and whichever headers have been built before. -/
  header : ∀ key ∈ plan.headerKeys, ∀ name, toLowerCase name = toLowerCase key →
    ∀ built wholeBuilt, handler.header built name = whole.header wholeBuilt name

/-! ## What is read under a key -/

/-- Which other parameters are kept makes no difference to one. -/
theorem get_materializeParamsWith_congr
    {keeps keepsAlso : Text → Bool} {key : Text}
    (same : keeps key = keepsAlso key)
    (entries paramNames : List Text) :
    (materializeParamsWith keeps entries paramNames).get key =
      (materializeParamsWith keepsAlso entries paramNames).get key := by
  rw [materializeParamsWith, materializeParamsWith,
    Dictionary.get_foldl_set Prod.fst fun entry : Text × Text => textDecode entry.2,
    Dictionary.get_foldl_set Prod.fst fun entry : Text × Text => textDecode entry.2]
  by_cases kept : keeps key = true
  · rw [filter_kept keeps key kept, filter_kept keepsAlso key (same ▸ kept)]
  · rw [filter_dropped keeps key kept, filter_dropped keepsAlso key (same ▸ kept)]

theorem get_params
    {plan : RequestAccessPlan} {key : Text}
    (selected : key ∈ plan.paramKeys)
    (paramNames : List Text)
    (method : Routing.Method)
    (decoded decodedWhole : DecodedRequest)
    (same : decoded.paramValues = decodedWhole.paramValues) :
    (createRequestFactory plan paramNames method decoded).params.get key =
      (createRequestFactory wholePlan paramNames method decodedWhole).params.get key := by
  have notEmpty : plan.paramKeys ≠ [] := List.ne_nil_of_mem selected
  have whole : (createRequestFactory wholePlan paramNames method decodedWhole).params =
      materializeParamsWith (fun key => !isDangerousKey key)
        (decodedWhole.paramValues.map Utf8.decodeLossy) paramNames := rfl
  rw [whole, ← same]
  unfold createRequestFactory materializeParamObject
  dsimp only
  rw [if_pos (by simp [notEmpty])]
  split
  · rfl
  · rw [materializeSelectedParamPairs, if_neg notEmpty]
    apply get_materializeParamsWith_congr
    rw [List.contains_iff_mem.mpr selected, Bool.true_and]

theorem get_query
    {plan : RequestAccessPlan} {key : Text}
    (selected : key ∈ plan.queryKeys)
    (request : NativeRequest)
    (route : Routing.CompiledRoute)
    (paramNames : List Text)
    (method : Routing.Method) :
    (createRequestFactory plan paramNames method (request.decoded plan route)).query.get key =
      (createRequestFactory wholePlan paramNames method
        (request.decoded wholePlan route)).query.get key := by
  have notEmpty : plan.queryKeys ≠ [] := List.ne_nil_of_mem selected
  have needs : plan.needsQuery = true := by simp [AccessPlan.needsQuery, notEmpty]
  have wholeNeeds : wholePlan.needsQuery = true := rfl
  have whole : wholePlan.fullQuery = true := rfl
  have sameFlags : (request.decoded plan route).flags = (request.decoded wholePlan route).flags := by
    simp only [NativeRequest.decoded, dispatchedRequest, matchedRoute, needs, wholeNeeds]
  have sameUrl :
      (request.decoded plan route).urlBytes = (request.decoded wholePlan route).urlBytes := by
    simp only [NativeRequest.decoded, dispatchedRequest, matchedRoute, needs, wholeNeeds,
      Bool.or_true]
  unfold createRequestFactory materializeQueryObject
  dsimp only
  rw [if_pos needs, if_pos wholeNeeds, sameFlags, sameUrl]
  split
  · split
    · rfl
    · rw [parseSelectedQuery, if_neg notEmpty, parseQuery, get_parseQueryWith, get_parseQueryWith]
      simp [selected]
  · rfl

/-- A header is handed over when its name is a key in any case. -/
theorem shouldIncludeHeader_of_mem
    {plan : RequestAccessPlan} {key : Text} {name : Octets}
    (selected : key ∈ plan.headerKeys)
    (ascii : ∀ octet ∈ name, octet.toNat < 0x80)
    (named : Text.asciiLower (Utf8.decodeLossy name) = key)
    (route : Routing.CompiledRoute)
    (paramValues : List Octets) :
    Envelope.shouldIncludeHeader (matchedRoute plan route paramValues) name = true := by
  have lowerAscii : ∀ octet ∈ Octets.asciiLower name, octet.toNat < 0x80 := by
    intro octet member
    obtain ⟨original, inName, rfl⟩ := List.mem_map.mp member
    have small := ascii original inName
    have lowered := Octets.toNat_lower original
    omega
  have matched : Octets.eqIgnoreAsciiCase (Utf8.encode key) name = true := by
    rw [Utf8.eqIgnoreAsciiCase_decoded (Utf8.decode_encode key) lowerAscii,
      Text.eqIgnoreAsciiCase_iff, ← Utf8.decodeLossy_of_ascii ascii, ← named, Text.asciiLower_asciiLower]
  rw [Envelope.shouldIncludeHeader, Bool.or_eq_true, List.any_eq_true]
  exact .inr ⟨Utf8.encode key, List.mem_map_of_mem selected, matched⟩

/-- What is handed over of a header that is a key. -/
theorem get_headerLookup
    {plan : RequestAccessPlan} {key : Text}
    (selected : key ∈ plan.headerKeys ∨ plan.fullHeaders = true)
    (request : NativeRequest)
    (route : Routing.CompiledRoute)
    (paramNames : List Text)
    (method : Routing.Method) :
    (createRequestFactory plan paramNames method (request.decoded plan route)).headerLookup.get key =
      (ensureHeaderLookup (request.headers.map fun header =>
        (Utf8.decodeLossy header.1, Utf8.decodeLossy header.2))).get key := by
  unfold createRequestFactory NativeRequest.decoded dispatchedRequest
  dsimp only
  rw [get_ensureHeaderLookup, get_ensureHeaderLookup, List.filter_map, List.filter_map,
    List.filter_filter]
  congr 4
  apply List.filter_congr
  intro header member
  by_cases named : Text.asciiLower (Utf8.decodeLossy header.1) = key
  · have included : Envelope.shouldIncludeHeader (matchedRoute plan route request.paramValues)
        header.1 = true := by
      rcases selected with selected | full
      · exact shouldIncludeHeader_of_mem selected (request.headerNames_ascii header member) named
          route request.paramValues
      · rw [Envelope.shouldIncludeHeader, matchedRoute, full, Bool.true_or]
    simp [named, included]
  · simp [named]

/-- The headers of a plan hold what the lookup holds under a key. -/
theorem get_headers
    {plan : RequestAccessPlan} {key : Text}
    (selected : key ∈ plan.headerKeys ∨ plan.fullHeaders = true)
    (decoded : DecodedRequest)
    (paramNames : List Text)
    (method : Routing.Method) :
    (createRequestFactory plan paramNames method decoded).headers.get key =
      (createRequestFactory plan paramNames method decoded).headerLookup.get key := by
  unfold createRequestFactory
  dsimp only
  by_cases full : plan.fullHeaders = true
  · rw [if_pos (by simp [full]), if_pos full]
  · have member := selected.resolve_right full
    have notEmpty : plan.headerKeys ≠ [] := List.ne_nil_of_mem member
    rw [if_pos (by simp [notEmpty]), if_neg full, materializeSelectedHeadersFromLookup,
      Dictionary.get_foldl_copyKey]
    rw [get_ensureHeaderLookup]
    by_cases dangerous : isDangerousKey key = true
    · simp [dangerous]
    · simp [dangerous, member]

theorem header_eq
    {request : HandlerRequest} {name : Text}
    (same : request.headers.get (toLowerCase name) = request.headerLookup.get (toLowerCase name))
    (built : Bool) :
    request.header built name = request.headerLookup.get (toLowerCase name) := by
  unfold HandlerRequest.header
  cases built with
  | false => rfl
  | true =>
      rw [if_pos rfl, same]
      cases request.headerLookup.get (toLowerCase name) <;> rfl

/-- A handler is called with the request that its envelope stands for. -/
theorem of_handOver
    {plan : RequestAccessPlan} {route : Routing.CompiledRoute} {method : Routing.Method}
    {request : NativeRequest} {handler : HandlerRequest}
    (handed : request.handOver plan route method = .ok handler) :
    handler = createRequestFactory plan (Compile.paramNamesOf route.path) method
      (request.decoded plan route) := by
  obtain ⟨envelope, built, decodes⟩ := OctetReader.except_bind_eq_ok.mp handed
  rw [Envelope.decode_buildDispatchEnvelope request.methodCode_known request.body_fits built]
    at decodes
  exact (Except.ok.inj decodes).symm

/-- The request as a plan for everything would hand it over, whether or not it fits an
envelope. -/
def NativeRequest.whole
    (request : NativeRequest)
    (route : Routing.CompiledRoute)
    (method : Routing.Method) :
    HandlerRequest :=
  createRequestFactory wholePlan (Compile.paramNamesOf route.path) method
    (request.decoded wholePlan route)

/-- Under a key of its plan a handler reads what it would read of the whole request. -/
theorem readsAlike_of_handOver
    {plan : RequestAccessPlan} {route : Routing.CompiledRoute} {method : Routing.Method}
    {request : NativeRequest} {handler : HandlerRequest}
    (normalized : plan.Normalized)
    (handed : request.handOver plan route method = .ok handler) :
    ReadsAlike plan handler (request.whole route method) ∧
      ∀ whole, request.handOver wholePlan route method = .ok whole →
        ReadsAlike plan handler whole := by
  have lookupsAlike : ∀ key ∈ plan.headerKeys,
      handler.headerLookup.get key = (request.whole route method).headerLookup.get key := by
    intro key selected
    rw [of_handOver handed, NativeRequest.whole, get_headerLookup (.inl selected),
      get_headerLookup (.inr rfl)]
  have own : ∀ key ∈ plan.headerKeys, handler.headers.get key = handler.headerLookup.get key := by
    intro key selected
    rw [of_handOver handed]
    exact get_headers (.inl selected) _ _ _
  have wholeOwn : ∀ key, (request.whole route method).headers.get key =
      (request.whole route method).headerLookup.get key :=
    fun key => get_headers (.inr rfl) _ _ _
  have alike : ReadsAlike plan handler (request.whole route method) := by
    constructor
    · intro key selected
      rw [of_handOver handed]
      exact get_params selected _ _ _ _ rfl
    · intro key selected
      rw [of_handOver handed]
      exact get_query selected _ _ _ _
    · intro key selected
      rw [own key selected, wholeOwn, lookupsAlike key selected]
    · intro key selected name same built wholeBuilt
      have lower : toLowerCase name = key := same.trans (normalized key selected)
      rw [header_eq (lower ▸ own key selected), header_eq (wholeOwn _), lower,
        lookupsAlike key selected]
  refine ⟨alike, fun whole handedWhole => ?_⟩
  rw [of_handOver handedWhole]
  exact alike

def itemRoute : Routing.CompiledRoute where
  method := .get
  path := text "/items/:id"
  handlerId := 1
  cache := none
  staticResponse := false
  handlerSource := text "(req, res) => res.json([req.params.id, req.query.q, req.header('X-A')])"

/-- The plan of the source. -/
def itemPlan : RequestAccessPlan :=
  { emptyAccessPlan with
    paramKeys := [text "id"]
    queryKeys := [text "q"]
    headerKeys := [text "x-a"] }

/-- A header and a query key are there twice, once with a malformed escape. -/
def itemRequest : NativeRequest where
  methodCode := 1
  path := octets "/items/7"
  url := octets "/items/7?q=1&r=2&q=%zz"
  headers := [(octets "X-A", octets "one"), (octets "Host", octets "x"), (octets "x-a", octets "two")]
  body := []
  peerIp := none
  paramValues := [octets "7"]
  methodCode_known := by decide
  body_fits := by decide
  headerNames_ascii := by decide

def itemHandler (plan : RequestAccessPlan) : HandlerRequest :=
  createRequestFactory plan (Compile.paramNamesOf itemRoute.path) .get
    (itemRequest.decoded plan itemRoute)

theorem handOver_item
    {plan : RequestAccessPlan}
    (built : ∃ envelope, buildDispatchEnvelope (matchedRoute plan itemRoute itemRequest.paramValues)
      itemRequest.methodCode itemRequest.path itemRequest.url itemRequest.headers itemRequest.body
      itemRequest.peerIp = .ok envelope) :
    itemRequest.handOver plan itemRoute .get = .ok (itemHandler plan) := by
  obtain ⟨envelope, built⟩ := built
  have decodes := Envelope.decode_buildDispatchEnvelope itemRequest.methodCode_known
    itemRequest.body_fits built
  refine OctetReader.except_bind_eq_ok.mpr ⟨envelope, built, ?_⟩
  exact OctetReader.except_bind_eq_ok.mpr ⟨_, decodes, rfl⟩

theorem readsAlike_of_handOver_item :
    ReadsAlike itemPlan (itemHandler itemPlan) (itemRequest.whole itemRoute .get) ∧
      (itemHandler itemPlan).query.get (text "q") = some (.several [text "1", text "%zz"]) ∧
      (itemHandler itemPlan).header true (text "X-A") = some (text "two") :=
  ⟨(readsAlike_of_handOver (by decide) (handOver_item ⟨_, rfl⟩)).1,
    by decide, by decide⟩

end Bridge
end HttpNative
