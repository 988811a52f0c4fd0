import HttpNative.Library.Decimal
import HttpNative.Library.OctetReader

/-!
# Request envelopes

The binary form in which the native layer hands requests and WebSocket events to
JavaScript, written on one side and read on the other. Strings stand as their
UTF-8 octets.
-/

namespace HttpNative
namespace Envelope

open LittleEndian (write)
open OctetReader (Reads)

abbrev Header := Octets × Octets

/-- `BRIDGE_VERSION`. -/
def bridgeVersion : UInt8 := 2

/-- `NOT_FOUND_HANDLER_ID`. -/
def notFoundHandlerId : UInt32 := 0

def requestFlagQueryPresent : Nat := 1 <<< 0

def requestFlagBodyPresent : Nat := 1 <<< 1

/-- A route with what a request has matched. -/
structure MatchedRoute where
  handlerId : UInt32
  paramNames : List Octets
  paramValues : List Octets
  headerKeys : List Octets
  fullHeaders : Bool
  needsPath : Bool
  needsUrl : Bool
  needsQuery : Bool

/-! ## The writer -/

def ensure (holds : Bool) (error : Text) : Except Text Unit :=
  if holds then .ok () else .error error

def pushStringPair (header : Header) : Except Text Octets := do
  ensure (header.1.length ≤ 255) (text "field name too long")
  ensure (header.2.length ≤ 65535) (text "field value too long")
  pure (write 1 header.1.length ++ (write 2 header.2.length ++ (header.1 ++ header.2)))

def pushStringValue (value : Octets) : Except Text Octets := do
  ensure (value.length ≤ 65535) (text "field value too long")
  pure (write 2 value.length ++ value)

/-- What is written for each member, one after the other. -/
def pushAll {Member : Type} (push : Member → Except Text Octets) :
    List Member → Except Text Octets
  | [] => pure []
  | member :: rest => do
      let first ← push member
      let others ← pushAll push rest
      pure (first ++ others)

def requestFlags (queryPresent : Bool) (body : Octets) : Nat :=
  (if queryPresent then requestFlagQueryPresent else 0) |||
    (if body.isEmpty then 0 else requestFlagBodyPresent)

/-- The octets of an envelope, with the rows of the parameters and headers. -/
def requestFrame
    (methodCode : UInt8)
    (flags : Nat)
    (handlerId : UInt32)
    (url path ip : Octets)
    (paramCount : Nat)
    (params : Octets)
    (headerCount : Nat)
    (fields : Octets)
    (body : Octets) :
    Octets :=
  [bridgeVersion] ++ ([methodCode] ++ (write 2 flags ++ (write 4 handlerId.toNat ++
    (write 4 url.length ++ (write 2 path.length ++ (write 2 paramCount ++
      (write 2 headerCount ++ (write 4 body.length ++ (write 2 ip.length ++
        (url ++ (path ++ (ip ++ (params ++ (fields ++ body))))))))))))))

/-- The envelope that both builders write. -/
def buildEnvelope
    (methodCode : UInt8)
    (flags : Nat)
    (handlerId : UInt32)
    (url path ip : Octets)
    (paramValues : List Octets)
    (headerCount : Nat)
    (headers : List Header)
    (body : Octets) :
    Except Text Octets := do
  ensure (url.length ≤ 4294967295) (text "request url too large")
  ensure (path.length ≤ 65535) (text "request path too large")
  ensure (paramValues.length ≤ 65535) (text "too many params")
  ensure (headerCount ≤ 65535) (text "too many headers")
  ensure (ip.length ≤ 65535) (text "request ip too large")
  let params ← pushAll pushStringValue paramValues
  let fields ← pushAll pushStringPair headers
  pure (requestFrame methodCode flags handlerId url path ip paramValues.length params headerCount
    fields body)

/-- `build_not_found_dispatch_envelope`. -/
def buildNotFoundDispatchEnvelope
    (methodCode : UInt8)
    (path url : Octets)
    (headerEntries : List Header)
    (body : Octets)
    (peerIp : Option Octets) :
    Except Text Octets :=
  buildEnvelope methodCode (requestFlags (url.contains 63) body) notFoundHandlerId url path
    (peerIp.getD []) [] headerEntries.length headerEntries body

def shouldIncludeHeader (route : MatchedRoute) (name : Octets) : Bool :=
  route.fullHeaders || route.headerKeys.any (Octets.eqIgnoreAsciiCase · name)

def countSelectedHeaders (route : MatchedRoute) (headerEntries : List Header) : Nat :=
  if route.fullHeaders then headerEntries.length
  else if route.headerKeys.isEmpty then 0
  else (headerEntries.filter fun header => shouldIncludeHeader route header.1).length

/-- `build_dispatch_envelope`. -/
def buildDispatchEnvelope
    (route : MatchedRoute)
    (methodCode : UInt8)
    (path url : Octets)
    (headerEntries : List Header)
    (body : Octets)
    (peerIp : Option Octets) :
    Except Text Octets :=
  buildEnvelope methodCode
    (requestFlags (route.needsQuery && url.contains 63) body) route.handlerId
    (if route.needsUrl || route.needsQuery then url else [])
    (if route.needsPath then path else [])
    (peerIp.getD []) route.paramValues (countSelectedHeaders route headerEntries)
    (if countSelectedHeaders route headerEntries > 0 then
      headerEntries.filter fun header => shouldIncludeHeader route header.1
    else
      [])
    body

/-! ## The reader -/

structure DecodedRequest where
  handlerId : Nat
  flags : Nat
  methodCode : Nat
  urlBytes : Octets
  pathBytes : Octets
  ipBytes : Octets
  paramValues : List Octets
  rawHeaders : List Header
  bodyBytes : Option Octets
deriving DecidableEq

def requestTruncated : Text := text "Request envelope truncated"

/-- `readU8`, `readU16` and `readU32`. -/
def readNumber (width : Nat) : OctetReader Text Nat :=
  OctetReader.number requestTruncated width

def readBytes (length : Nat) : OctetReader Text Octets :=
  OctetReader.take requestTruncated length

def readParam : OctetReader Text Octets := do
  let valueLength ← readNumber 2
  readBytes valueLength

def readHeader : OctetReader Text Header := do
  let nameLength ← readNumber 1
  let valueLength ← readNumber 2
  let name ← readBytes nameLength
  let value ← readBytes valueLength
  pure (name, value)

def readBody (bodyLength : Nat) : OctetReader Text (Option Octets) :=
  if bodyLength > 0 then do
    let body ← readBytes bodyLength
    pure (some body)
  else
    pure none

/-- `METHOD_CODES`: `GET`, `POST`, `PUT`, `DELETE`, `PATCH`, `OPTIONS` and `HEAD`. -/
def methodCodes : List Nat :=
  [1, 2, 3, 4, 5, 6, 7]

def decodeRequestEnvelope : OctetReader Text DecodedRequest := do
  let version ← readNumber 1
  if version ≠ bridgeVersion.toNat then
    OctetReader.fail (text "Unsupported request envelope version " ++ Decimal.write version)
  else
    let methodCode ← readNumber 1
    let flags ← readNumber 2
    let handlerId ← readNumber 4
    let urlLength ← readNumber 4
    let pathLength ← readNumber 2
    let paramCount ← readNumber 2
    let headerCount ← readNumber 2
    let bodyLength ← readNumber 4
    let ipLength ← readNumber 2
    let urlBytes ← readBytes urlLength
    let pathBytes ← readBytes pathLength
    let ipBytes ← readBytes ipLength
    let paramValues ← OctetReader.times readParam paramCount
    let rawHeaders ← OctetReader.times readHeader headerCount
    let bodyBytes ← readBody bodyLength
    if methodCode ≠ 0 ∧ methodCode ∉ methodCodes then
      OctetReader.fail (text "Unknown method code " ++ Decimal.write methodCode)
    else
      pure
        { handlerId, flags, methodCode, urlBytes, pathBytes, ipBytes, paramValues, rawHeaders,
          bodyBytes }

/-! ## What the writer accepts -/

variable {url path ip body envelope : Octets} {paramValues : List Octets} {headers : List Header}
  {methodCode : UInt8} {handlerId : UInt32} {flags headerCount : Nat}

theorem ensure_eq_ok
    {holds : Bool} {error : Text} {result : Unit} :
    ensure holds error = .ok result ↔ holds = true := by
  cases holds <;> simp [ensure]

/-- Every length fits its field. -/
structure Fits
    (url path ip : Octets)
    (paramValues : List Octets)
    (headerCount : Nat)
    (headers : List Header) : Prop where
  url : url.length < LittleEndian.limit 4
  path : path.length < LittleEndian.limit 2
  ip : ip.length < LittleEndian.limit 2
  paramCount : paramValues.length < LittleEndian.limit 2
  headerCount : headerCount < LittleEndian.limit 2
  paramValues : ∀ value ∈ paramValues, value.length < LittleEndian.limit 2
  headers : ∀ header ∈ headers,
    header.1.length < LittleEndian.limit 1 ∧ header.2.length < LittleEndian.limit 2

def encodeParam (value : Octets) : Octets :=
  write 2 value.length ++ value

def encodeHeader (header : Header) : Octets :=
  write 1 header.1.length ++ (write 2 header.2.length ++ (header.1 ++ header.2))

theorem of_pushAll
    {Member : Type} {push : Member → Except Text Octets} {encode : Member → Octets}
    {accepts : Member → Prop} {members : List Member} {rows : Octets}
    (one : ∀ member row, push member = .ok row → accepts member ∧ row = encode member)
    (pushed : pushAll push members = .ok rows) :
    (∀ member ∈ members, accepts member) ∧ rows = members.flatMap encode := by
  induction members generalizing rows with
  | nil =>
      cases pushed
      exact ⟨by simp, rfl⟩
  | cons member rest hypothesis =>
      obtain ⟨first, pushedFirst, pushed⟩ := OctetReader.except_bind_eq_ok.mp pushed
      obtain ⟨others, pushedOthers, result⟩ := OctetReader.except_bind_eq_ok.mp pushed
      obtain ⟨accepted, rfl⟩ := one member first pushedFirst
      obtain ⟨acceptedRest, rfl⟩ := hypothesis pushedOthers
      cases result
      exact ⟨List.forall_mem_cons.mpr ⟨accepted, acceptedRest⟩, List.flatMap_cons.symm⟩

theorem of_pushStringValue
    {value row : Octets}
    (pushed : pushStringValue value = .ok row) :
    value.length < LittleEndian.limit 2 ∧ row = encodeParam value := by
  obtain ⟨_, short, result⟩ := OctetReader.except_bind_eq_ok.mp pushed
  cases result
  rw [ensure_eq_ok, decide_eq_true_eq] at short
  exact ⟨Nat.lt_succ_of_le short, rfl⟩

theorem of_pushStringPair
    {header : Header} {row : Octets}
    (pushed : pushStringPair header = .ok row) :
    (header.1.length < LittleEndian.limit 1 ∧ header.2.length < LittleEndian.limit 2) ∧
      row = encodeHeader header := by
  obtain ⟨_, shortName, pushed⟩ := OctetReader.except_bind_eq_ok.mp pushed
  obtain ⟨_, shortValue, result⟩ := OctetReader.except_bind_eq_ok.mp pushed
  cases result
  rw [ensure_eq_ok, decide_eq_true_eq] at shortName shortValue
  exact ⟨⟨Nat.lt_succ_of_le shortName, Nat.lt_succ_of_le shortValue⟩, rfl⟩

theorem of_buildEnvelope
    (built : buildEnvelope methodCode flags handlerId url path ip paramValues headerCount headers
      body = .ok envelope) :
    Fits url path ip paramValues headerCount headers ∧
      envelope = requestFrame methodCode flags handlerId url path ip paramValues.length
        (paramValues.flatMap encodeParam) headerCount (headers.flatMap encodeHeader) body := by
  obtain ⟨_, urlFits, built⟩ := OctetReader.except_bind_eq_ok.mp built
  obtain ⟨_, pathFits, built⟩ := OctetReader.except_bind_eq_ok.mp built
  obtain ⟨_, paramsFit, built⟩ := OctetReader.except_bind_eq_ok.mp built
  obtain ⟨_, headersFit, built⟩ := OctetReader.except_bind_eq_ok.mp built
  obtain ⟨_, ipFits, built⟩ := OctetReader.except_bind_eq_ok.mp built
  obtain ⟨params, pushedParams, built⟩ := OctetReader.except_bind_eq_ok.mp built
  obtain ⟨fields, pushedFields, result⟩ := OctetReader.except_bind_eq_ok.mp built
  obtain ⟨valuesFit, rfl⟩ := of_pushAll (fun _ _ => of_pushStringValue) pushedParams
  obtain ⟨pairsFit, rfl⟩ := of_pushAll (fun _ _ => of_pushStringPair) pushedFields
  cases result
  rw [ensure_eq_ok, decide_eq_true_eq] at urlFits pathFits paramsFit headersFit ipFits
  exact ⟨⟨Nat.lt_succ_of_le urlFits, Nat.lt_succ_of_le pathFits, Nat.lt_succ_of_le ipFits,
    Nat.lt_succ_of_le paramsFit, Nat.lt_succ_of_le headersFit, valuesFit, pairsFit⟩, rfl⟩

theorem pushAll_of_forall
    {Member : Type} {push : Member → Except Text Octets} {members : List Member}
    (one : ∀ member ∈ members, ∃ row, push member = .ok row) :
    ∃ rows, pushAll push members = .ok rows := by
  induction members with
  | nil => exact ⟨[], rfl⟩
  | cons member rest hypothesis =>
      obtain ⟨first, pushedFirst⟩ := one member List.mem_cons_self
      obtain ⟨others, pushedOthers⟩ := hypothesis fun other inRest =>
        one other (List.mem_cons_of_mem _ inRest)
      refine ⟨first ++ others, ?_⟩
      rw [pushAll, pushedFirst, pushedOthers]
      rfl

theorem pushStringValue_of_fits
    {value : Octets}
    (fits : value.length < LittleEndian.limit 2) :
    ∃ row, pushStringValue value = .ok row := by
  have short : decide (value.length ≤ 65535) = true := decide_eq_true (Nat.le_of_lt_succ fits)
  rw [pushStringValue, short]
  exact ⟨_, rfl⟩

theorem pushStringPair_of_fits
    {header : Header}
    (fits : header.1.length < LittleEndian.limit 1 ∧ header.2.length < LittleEndian.limit 2) :
    ∃ row, pushStringPair header = .ok row := by
  have shortName : decide (header.1.length ≤ 255) = true :=
    decide_eq_true (Nat.le_of_lt_succ fits.1)
  have shortValue : decide (header.2.length ≤ 65535) = true :=
    decide_eq_true (Nat.le_of_lt_succ fits.2)
  rw [pushStringPair, shortName, shortValue]
  exact ⟨_, rfl⟩

/-- An envelope is built just when every length fits. -/
theorem buildEnvelope_iff :
    (∃ envelope, buildEnvelope methodCode flags handlerId url path ip paramValues headerCount
        headers body = .ok envelope) ↔
      Fits url path ip paramValues headerCount headers := by
  constructor
  · rintro ⟨envelope, built⟩
    exact (of_buildEnvelope built).1
  · intro fits
    have urlFits : decide (url.length ≤ 4294967295) = true :=
      decide_eq_true (Nat.le_of_lt_succ fits.url)
    have pathFits : decide (path.length ≤ 65535) = true :=
      decide_eq_true (Nat.le_of_lt_succ fits.path)
    have paramsFit : decide (paramValues.length ≤ 65535) = true :=
      decide_eq_true (Nat.le_of_lt_succ fits.paramCount)
    have headersFit : decide (headerCount ≤ 65535) = true :=
      decide_eq_true (Nat.le_of_lt_succ fits.headerCount)
    have ipFits : decide (ip.length ≤ 65535) = true := decide_eq_true (Nat.le_of_lt_succ fits.ip)
    obtain ⟨params, pushedParams⟩ := pushAll_of_forall fun value member =>
      pushStringValue_of_fits (fits.paramValues value member)
    obtain ⟨fields, pushedFields⟩ := pushAll_of_forall fun header member =>
      pushStringPair_of_fits (fits.headers header member)
    rw [buildEnvelope, urlFits, pathFits, paramsFit, headersFit, ipFits, pushedParams, pushedFields]
    exact ⟨_, rfl⟩

/-! ## Round trips -/

theorem reads_readParam
    {value : Octets}
    (fits : value.length < LittleEndian.limit 2) :
    Reads readParam (encodeParam value) value :=
  (OctetReader.reads_number _ fits).bind (OctetReader.reads_take _ value)

theorem reads_readHeader
    {header : Header}
    (fits : header.1.length < LittleEndian.limit 1 ∧ header.2.length < LittleEndian.limit 2) :
    Reads readHeader (encodeHeader header) header :=
  (OctetReader.reads_number _ fits.1).bind
    ((OctetReader.reads_number _ fits.2).bind
      ((OctetReader.reads_take _ header.1).bind
        ((OctetReader.reads_take _ header.2).bind_pure fun value => (header.1, value))))

/-- The body as it is read: none when it is empty. -/
def bodyOf (body : Octets) : Option Octets :=
  if body.isEmpty then none else some body

theorem reads_readBody
    (body : Octets) :
    Reads (readBody body.length) body (bodyOf body) := by
  cases body with
  | nil => exact OctetReader.reads_pure none
  | cons octet rest =>
      have notEmpty : (octet :: rest).length > 0 := Nat.succ_pos _
      rw [readBody, if_pos notEmpty]
      exact (OctetReader.reads_take _ (octet :: rest)).bind_pure some

/-- The reader finds what the writer wrote. -/
theorem reads_decodeRequestEnvelope
    (fits : Fits url path ip paramValues headerCount headers)
    (counted : headerCount = headers.length)
    (known : methodCode.toNat ≤ 7)
    (flagsFit : flags < LittleEndian.limit 2)
    (bodyFits : body.length < LittleEndian.limit 4) :
    Reads decodeRequestEnvelope
      (requestFrame methodCode flags handlerId url path ip paramValues.length
        (paramValues.flatMap encodeParam) headerCount (headers.flatMap encodeHeader) body)
      { handlerId := handlerId.toNat
        flags := flags
        methodCode := methodCode.toNat
        urlBytes := url
        pathBytes := path
        ipBytes := ip
        paramValues := paramValues
        rawHeaders := headers
        bodyBytes := bodyOf body } := by
  subst counted
  have params := OctetReader.reads_times fun value member =>
    reads_readParam (fits.paramValues value member)
  have fields := OctetReader.reads_times fun header member =>
    reads_readHeader (fits.headers header member)
  rw [List.map_id'] at params fields
  have isKnown : ¬ (methodCode.toNat ≠ 0 ∧ methodCode.toNat ∉ methodCodes) := by
    simp only [methodCodes, List.mem_cons, List.not_mem_nil, or_false]
    omega
  refine (OctetReader.reads_octet _ bridgeVersion).bind ?_
  rw [if_neg (not_not.mpr rfl)]
  refine (OctetReader.reads_octet _ methodCode).bind ?_
  refine (OctetReader.reads_number _ flagsFit).bind ?_
  refine (OctetReader.reads_number _ handlerId.toNat_lt).bind ?_
  refine (OctetReader.reads_number _ fits.url).bind ?_
  refine (OctetReader.reads_number _ fits.path).bind ?_
  refine (OctetReader.reads_number _ fits.paramCount).bind ?_
  refine (OctetReader.reads_number _ fits.headerCount).bind ?_
  refine (OctetReader.reads_number _ bodyFits).bind ?_
  refine (OctetReader.reads_number _ fits.ip).bind ?_
  refine (OctetReader.reads_take _ url).bind ?_
  refine (OctetReader.reads_take _ path).bind ?_
  refine (OctetReader.reads_take _ ip).bind ?_
  refine params.bind ?_
  refine fields.bind ?_
  simp only [if_neg isKnown]
  exact (reads_readBody body).bind_pure _

/-! ## The two builders -/

variable {route : MatchedRoute}

theorem countSelectedHeaders_eq
    (route : MatchedRoute)
    (headerEntries : List Header) :
    countSelectedHeaders route headerEntries =
      (headerEntries.filter fun header => shouldIncludeHeader route header.1).length := by
  unfold countSelectedHeaders
  split
  · rename_i full
    rw [List.filter_eq_self.mpr]
    intro header _
    rw [shouldIncludeHeader, full, Bool.true_or]
  · rename_i selective
    split
    · rename_i none
      rw [List.isEmpty_iff] at none
      rw [List.filter_eq_nil_iff.mpr, List.length_nil]
      intro header _
      rw [shouldIncludeHeader, none, List.any_nil, Bool.or_false]
      exact selective
    · rfl

theorem selectedHeaders_eq
    (route : MatchedRoute)
    (headerEntries : List Header) :
    (if countSelectedHeaders route headerEntries > 0 then
      headerEntries.filter fun header => shouldIncludeHeader route header.1
    else
      []) = headerEntries.filter fun header => shouldIncludeHeader route header.1 := by
  rw [countSelectedHeaders_eq]
  split
  · rfl
  · rename_i none
    exact (List.eq_nil_of_length_eq_zero (Nat.eq_zero_of_not_pos none)).symm

theorem requestFlags_lt
    (queryPresent : Bool)
    (body : Octets) :
    requestFlags queryPresent body < LittleEndian.limit 2 := by
  unfold requestFlags
  cases queryPresent <;> cases body.isEmpty <;> decide

/-- The request that the envelope of a matched route stands for. -/
def dispatchedRequest
    (route : MatchedRoute)
    (methodCode : UInt8)
    (path url : Octets)
    (headerEntries : List Header)
    (body : Octets)
    (peerIp : Option Octets) :
    DecodedRequest where
  handlerId := route.handlerId.toNat
  flags := requestFlags (route.needsQuery && url.contains 63) body
  methodCode := methodCode.toNat
  urlBytes := if route.needsUrl || route.needsQuery then url else []
  pathBytes := if route.needsPath then path else []
  ipBytes := peerIp.getD []
  paramValues := route.paramValues
  rawHeaders := headerEntries.filter fun header => shouldIncludeHeader route header.1
  bodyBytes := bodyOf body

/-- The request that the envelope of an unmatched request stands for. -/
def notFoundRequest
    (methodCode : UInt8)
    (path url : Octets)
    (headerEntries : List Header)
    (body : Octets)
    (peerIp : Option Octets) :
    DecodedRequest where
  handlerId := notFoundHandlerId.toNat
  flags := requestFlags (url.contains 63) body
  methodCode := methodCode.toNat
  urlBytes := url
  pathBytes := path
  ipBytes := peerIp.getD []
  paramValues := []
  rawHeaders := headerEntries
  bodyBytes := bodyOf body

theorem decode_buildDispatchEnvelope
    {peerIp : Option Octets}
    (known : methodCode.toNat ≤ 7)
    (bodyFits : body.length < LittleEndian.limit 4)
    (built : buildDispatchEnvelope route methodCode path url headers body peerIp = .ok envelope) :
    decodeRequestEnvelope.run envelope =
      .ok (dispatchedRequest route methodCode path url headers body peerIp) := by
  unfold buildDispatchEnvelope at built
  rw [selectedHeaders_eq] at built
  obtain ⟨fits, rfl⟩ := of_buildEnvelope built
  exact (reads_decodeRequestEnvelope fits (countSelectedHeaders_eq route headers) known
    (requestFlags_lt _ _) bodyFits).run

theorem decode_buildNotFoundDispatchEnvelope
    {peerIp : Option Octets}
    (known : methodCode.toNat ≤ 7)
    (bodyFits : body.length < LittleEndian.limit 4)
    (built : buildNotFoundDispatchEnvelope methodCode path url headers body peerIp =
      .ok envelope) :
    decodeRequestEnvelope.run envelope =
      .ok (notFoundRequest methodCode path url headers body peerIp) := by
  obtain ⟨fits, rfl⟩ := of_buildEnvelope built
  exact (reads_decodeRequestEnvelope fits rfl known (requestFlags_lt _ _) bodyFits).run

end Envelope
end HttpNative
