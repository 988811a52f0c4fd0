import HttpNative.Envelope.RequestEnvelope

/-!
# Requests over HTTP/2 and HTTP/3

Both handlers write the envelope of a request with a layout of their own. The
reader expects another one: where it looks for the length of the IP address, the
first octets of the request target stand.
-/

namespace HttpNative
namespace Envelope

open LittleEndian (write value)

/-- The path and query of a URI in the HTTP crate: both rows have no control
characters, and have a slash where there is nothing. -/
structure PathAndQuery where
  /-- `path()` -/
  path : Octets
  /-- `as_str()` -/
  asStr : Octets
  zero_notMem_path : 0 ∉ path
  path_ne_nil : path ≠ []
  zero_notMem_asStr : 0 ∉ asStr
  asStr_ne_nil : asStr ≠ []

structure Uri where
  pathAndQuery : Option PathAndQuery
  /-- `query().is_some()` -/
  queryPresent : Bool

namespace Uri

def path (uri : Uri) : Octets :=
  (uri.pathAndQuery.map PathAndQuery.path).getD (octets "/")

def fullUri (uri : Uri) : Octets :=
  (uri.pathAndQuery.map PathAndQuery.asStr).getD (octets "/")

end Uri

/-- The text of an IP address. -/
abbrev IpText := { row : Octets // row.length ≤ 45 }

/-- What the handlers pass to the bridge; they refuse bodies above one megabyte. -/
structure BridgedRequest where
  methodCode : UInt8
  isMethod : methodCode.toNat ≤ 7
  headers : List Header
  uri : Uri
  body : Octets
  body_le : body.length ≤ 1048576
  peerIp : Option IpText
  matched : Option MatchedRoute

/-- The matched parameters as `k=v`, with a zero between them. -/
def paramsBuf (names values : List Octets) : Octets :=
  [0].intercalate (names.zipIdx.map fun (name, index) => name ++ ([61] ++ values.getD index []))

/-- The headers as `name:value`, with a zero between them. -/
def hdrBuf (headers : List Header) : Octets :=
  [0].intercalate (headers.map fun header => header.1 ++ ([58] ++ header.2))

/-- What stands before the request target: the lengths have two octets each, but
for that of the body. -/
def bridgeHead
    (methodCode : UInt8)
    (flags : Nat)
    (handlerId : UInt32)
    (urlLen pathLen ipLen paramsLen headersLen bodyLen : Nat) :
    Octets :=
  [bridgeVersion] ++ ([methodCode] ++ (write 2 flags ++ (write 4 handlerId.toNat ++
    (write 2 urlLen ++ (write 2 pathLen ++ (write 2 ipLen ++ (write 2 paramsLen ++
      (write 2 headersLen ++ write 4 bodyLen))))))))

/-- `build_h2_bridge_envelope`. -/
def buildH2BridgeEnvelope
    (methodCode : UInt8)
    (headers : List Header)
    (path url body : Octets)
    (peerIp : Option Octets)
    (queryPresent : Bool)
    (matched : Option MatchedRoute) :
    Octets :=
  let ip := peerIp.getD []
  let params := (matched.map fun route => paramsBuf route.paramNames route.paramValues).getD []
  let neededHeaders :=
    match matched with
    | none => headers
    | some route =>
        if route.fullHeaders then headers
        else headers.filter fun header =>
          route.headerKeys.any (Octets.eqIgnoreAsciiCase · header.1)
  let fields := hdrBuf neededHeaders
  bridgeHead methodCode (requestFlags queryPresent body)
      ((matched.map MatchedRoute.handlerId).getD notFoundHandlerId) url.length path.length
      ip.length params.length fields.length body.length ++
    (url ++ (path ++ (ip ++ (params ++ (fields ++ body)))))

namespace BridgedRequest

def ipText (request : BridgedRequest) : Option Octets :=
  request.peerIp.map Subtype.val

/-- The envelope over HTTP/2 and HTTP/3. -/
def bridgeEnvelope (request : BridgedRequest) : Octets :=
  buildH2BridgeEnvelope request.methodCode request.headers request.uri.path request.uri.fullUri
    request.body request.ipText request.uri.queryPresent request.matched

/-- The envelope of the same request over HTTP/1.1. -/
def http1Envelope (request : BridgedRequest) : Except Text Octets :=
  match request.matched with
  | some route =>
      buildDispatchEnvelope route request.methodCode request.uri.path request.uri.fullUri
        request.headers request.body request.ipText
  | none =>
      buildNotFoundDispatchEnvelope request.methodCode request.uri.path request.uri.fullUri
        request.headers request.body request.ipText

end BridgedRequest

/-- Two requests are the same but for their flags. -/
def SameRequest (left right : DecodedRequest) : Prop :=
  left = { right with flags := left.flags }

/-- A handler sees the same request as over HTTP/1.1. -/
def HandledAlike (request : BridgedRequest) : Prop :=
  ∃ envelope overHttp1 overBridge, request.http1Envelope = .ok envelope ∧
    decodeRequestEnvelope.run envelope = .ok overHttp1 ∧
    decodeRequestEnvelope.run request.bridgeEnvelope = .ok overBridge ∧
    SameRequest overBridge overHttp1

/-! ## What the reader takes for the length of the IP address -/

variable {row : Octets}

theorem length_of_take
    {length offset behind : Nat} {taken : Octets}
    (read : readBytes length row offset = .ok (taken, behind)) :
    taken.length = length := by
  obtain ⟨enough, rfl, -⟩ := OctetReader.take_eq_ok.mp read
  rw [List.length_take, List.length_drop]
  omega

theorem ipLength_of_decode
    {request : DecodedRequest} {behind : Nat}
    (decoded : decodeRequestEnvelope row 0 = .ok (request, behind)) :
    request.ipBytes.length = value ((row.drop 22).take 2) := by
  obtain ⟨version, _, read, decoded⟩ := OctetReader.bind_eq_ok.mp decoded
  obtain ⟨-, -, rfl⟩ := OctetReader.number_eq_ok.mp read
  by_cases isVersion : version ≠ bridgeVersion.toNat
  · rw [if_pos isVersion] at decoded
    cases decoded
  rw [if_neg isVersion] at decoded
  obtain ⟨methodCode, _, read, decoded⟩ := OctetReader.bind_eq_ok.mp decoded
  obtain ⟨-, -, rfl⟩ := OctetReader.number_eq_ok.mp read
  obtain ⟨flags, _, read, decoded⟩ := OctetReader.bind_eq_ok.mp decoded
  obtain ⟨-, -, rfl⟩ := OctetReader.number_eq_ok.mp read
  obtain ⟨handlerId, _, read, decoded⟩ := OctetReader.bind_eq_ok.mp decoded
  obtain ⟨-, -, rfl⟩ := OctetReader.number_eq_ok.mp read
  obtain ⟨urlLength, _, read, decoded⟩ := OctetReader.bind_eq_ok.mp decoded
  obtain ⟨-, -, rfl⟩ := OctetReader.number_eq_ok.mp read
  obtain ⟨pathLength, _, read, decoded⟩ := OctetReader.bind_eq_ok.mp decoded
  obtain ⟨-, -, rfl⟩ := OctetReader.number_eq_ok.mp read
  obtain ⟨paramCount, _, read, decoded⟩ := OctetReader.bind_eq_ok.mp decoded
  obtain ⟨-, -, rfl⟩ := OctetReader.number_eq_ok.mp read
  obtain ⟨headerCount, _, read, decoded⟩ := OctetReader.bind_eq_ok.mp decoded
  obtain ⟨-, -, rfl⟩ := OctetReader.number_eq_ok.mp read
  obtain ⟨bodyLength, _, read, decoded⟩ := OctetReader.bind_eq_ok.mp decoded
  obtain ⟨-, -, rfl⟩ := OctetReader.number_eq_ok.mp read
  obtain ⟨ipLength, _, read, decoded⟩ := OctetReader.bind_eq_ok.mp decoded
  obtain ⟨-, isLength, rfl⟩ := OctetReader.number_eq_ok.mp read
  obtain ⟨url, _, -, decoded⟩ := OctetReader.bind_eq_ok.mp decoded
  obtain ⟨path, _, -, decoded⟩ := OctetReader.bind_eq_ok.mp decoded
  obtain ⟨ip, _, read, decoded⟩ := OctetReader.bind_eq_ok.mp decoded
  obtain ⟨params, _, -, decoded⟩ := OctetReader.bind_eq_ok.mp decoded
  obtain ⟨headers, _, -, decoded⟩ := OctetReader.bind_eq_ok.mp decoded
  obtain ⟨body, _, -, decoded⟩ := OctetReader.bind_eq_ok.mp decoded
  by_cases unknown : methodCode ≠ 0 ∧ methodCode ∉ methodCodes
  · rw [if_pos unknown] at decoded
    cases decoded
  · rw [if_neg unknown] at decoded
    cases decoded
    exact (length_of_take read).trans isLength.symm

/-! ## The first octets of the target -/

namespace Uri

variable (uri : Uri)

theorem zero_notMem_path : 0 ∉ uri.path ∧ uri.path ≠ [] := by
  unfold path
  cases uri.pathAndQuery with
  | none => exact ⟨by decide, by decide⟩
  | some data => exact ⟨data.zero_notMem_path, data.path_ne_nil⟩

theorem zero_notMem_fullUri : 0 ∉ uri.fullUri ∧ uri.fullUri ≠ [] := by
  unfold fullUri
  cases uri.pathAndQuery with
  | none => exact ⟨by decide, by decide⟩
  | some data => exact ⟨data.zero_notMem_asStr, data.asStr_ne_nil⟩

end Uri

/-- Two octets of a target and a path make a number above every length of an IP
address. -/
theorem value_target
    {url path : Octets}
    (urlChars : 0 ∉ url ∧ url ≠ [])
    (pathChars : 0 ∉ path ∧ path ≠ [])
    (rest : Octets) :
    256 ≤ value ((url ++ (path ++ rest)).take 2) := by
  obtain ⟨first, second, others, spelled, isChar⟩ : ∃ first second others,
      url ++ (path ++ rest) = first :: second :: others ∧ second ≠ 0 := by
    obtain ⟨first, urlRest, rfl⟩ := List.exists_cons_of_ne_nil urlChars.2
    cases urlRest with
    | nil =>
        obtain ⟨second, pathRest, rfl⟩ := List.exists_cons_of_ne_nil pathChars.2
        exact ⟨first, second, pathRest ++ rest, rfl,
          fun zero => pathChars.1 (zero ▸ List.mem_cons_self)⟩
    | cons second others =>
        refine ⟨first, second, others ++ (path ++ rest), rfl, fun zero => urlChars.1 ?_⟩
        exact zero ▸ List.mem_cons_of_mem first List.mem_cons_self
  have positive : 0 < second.toNat := by
    rw [Nat.pos_iff_ne_zero]
    intro zero
    exact isChar (UInt8.toNat_inj.mp (zero.trans UInt8.toNat_zero.symm))
  rw [spelled]
  simp only [List.take_succ_cons, List.take_zero, value]
  omega

namespace BridgedRequest

variable (request : BridgedRequest)

theorem exists_bridgeEnvelope :
    ∃ front rest, request.bridgeEnvelope =
      front ++ (request.uri.fullUri ++ (request.uri.path ++ rest)) ∧ front.length = 22 := by
  refine ⟨_, _, rfl, ?_⟩
  simp [bridgeHead]

theorem ipBytes_http1
    {envelope : Octets} {decoded : DecodedRequest}
    (built : request.http1Envelope = .ok envelope)
    (read : decodeRequestEnvelope.run envelope = .ok decoded) :
    decoded.ipBytes.length ≤ 45 := by
  have bodyFits : request.body.length < LittleEndian.limit 4 :=
    Nat.lt_of_le_of_lt request.body_le (by decide)
  have ipShort : (request.ipText.getD []).length ≤ 45 := by
    unfold ipText
    cases request.peerIp with
    | none => exact Nat.zero_le 45
    | some ip => exact ip.2
  unfold http1Envelope at built
  split at built
  · rw [decode_buildDispatchEnvelope request.isMethod bodyFits built] at read
    cases read
    exact ipShort
  · rw [decode_buildNotFoundDispatchEnvelope request.isMethod bodyFits built] at read
    cases read
    exact ipShort

end BridgedRequest

/-- No request over HTTP/2 or HTTP/3 reaches its handler as it does over HTTP/1.1. -/
theorem not_handledAlike
    (request : BridgedRequest) :
    ¬ HandledAlike request := by
  rintro ⟨envelope, overHttp1, overBridge, built, readHttp1, readBridge, same⟩
  have short := request.ipBytes_http1 built readHttp1
  obtain ⟨behind, read⟩ := OctetReader.run_eq_ok.mp readBridge
  have ipLength := ipLength_of_decode read
  obtain ⟨front, rest, layout, frontLength⟩ := request.exists_bridgeEnvelope
  have long := value_target request.uri.zero_notMem_fullUri request.uri.zero_notMem_path rest
  rw [layout, List.drop_left' frontLength] at ipLength
  have sameIp : overBridge.ipBytes = overHttp1.ipBytes := by
    rw [same]
  rw [sameIp] at ipLength
  omega

theorem root_noZero : 0 ∉ octets "/" := by
  decide

theorem root_ne_nil : octets "/" ≠ [] := by
  decide

/-- The path and query of the root. -/
def rootPath : PathAndQuery where
  path := octets "/"
  asStr := octets "/"
  zero_notMem_path := root_noZero
  path_ne_nil := root_ne_nil
  zero_notMem_asStr := root_noZero
  asStr_ne_nil := root_ne_nil

theorem loopback_short : (octets "127.0.0.1").length ≤ 45 := by
  decide

theorem get_isMethod : (1 : UInt8).toNat ≤ 7 := by
  decide

/-- A request for the root that no route matches. -/
def rootRequest : BridgedRequest where
  methodCode := 1
  isMethod := get_isMethod
  headers := [(octets "host", octets "a")]
  uri := ⟨some rootPath, false⟩
  body := []
  body_le := Nat.zero_le _
  peerIp := some ⟨octets "127.0.0.1", loopback_short⟩
  matched := none

/-- The reader throws on its envelope over HTTP/2, and not over HTTP/1.1. -/
theorem not_handledAlike_root :
    ¬ ∀ request envelope, request.http1Envelope = .ok envelope → HandledAlike request := by
  intro alike
  obtain ⟨envelope, overHttp1, overBridge, -, -, read, -⟩ := alike rootRequest _ rfl
  have truncated : decodeRequestEnvelope.run rootRequest.bridgeEnvelope =
      .error requestTruncated := by
    decide
  rw [truncated] at read
  cases read

end Envelope
end HttpNative
