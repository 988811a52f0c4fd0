import HttpNative.Envelope.RequestEnvelope
import HttpNative.Library.Dictionary
import HttpNative.Library.Utf8

/-!
# Response envelopes

The binary form in which JavaScript answers a dispatch, and what the native
layer makes of it: the HTTP/1.1 response, the cache trailer and the session
trailer.
-/

namespace HttpNative
namespace Envelope

open LittleEndian (write)

/-! ## The writer -/

/-- `res.ncache`. -/
structure CacheHint where
  ttl : Nat
  maxEntries : Nat
deriving DecidableEq

/-- A response; the headers are the own properties of an object, with their values
as strings. -/
structure Snapshot where
  status : Option Nat
  headers : List Header
  body : Octets
  ncache : Option CacheHint

/-- `snapshot.status ?? 200`. -/
def Snapshot.statusCode (snapshot : Snapshot) : Nat :=
  snapshot.status.getD 200

def contentTypeName : Octets :=
  octets "content-type"

/-- The own properties of `PREENCODED_CT_VALUES`. -/
def preencodedValues : List Octets :=
  [octets "application/json; charset=utf-8", octets "text/plain; charset=utf-8",
    octets "text/html; charset=utf-8", octets "application/octet-stream"]

/-- What `PREENCODED_CT_VALUES` inherits: functions with their lengths, and the
prototype, which has none. -/
def inheritedProperties : Dictionary Octets (Option Nat) :=
  [(octets "constructor", some 1), (octets "hasOwnProperty", some 1),
    (octets "isPrototypeOf", some 1), (octets "propertyIsEnumerable", some 1),
    (octets "toLocaleString", some 0), (octets "toString", some 0), (octets "valueOf", some 0),
    (octets "__defineGetter__", some 2), (octets "__defineSetter__", some 2),
    (octets "__lookupGetter__", some 1), (octets "__lookupSetter__", some 1),
    (octets "__proto__", none)]

/-- The octets of a header value; `none` for an object without a length. Copying
from a function writes a zero for each of its missing elements. -/
def valueBytes (header : Header) : Option Octets :=
  if header.1 = contentTypeName ∧ header.2 ∉ preencodedValues then
    match inheritedProperties.get header.2 with
    | some length => length.map fun count => List.replicate count 0
    | none => some header.2
  else
    some header.2

def checkHeader (header : Header) : Except Text Unit := do
  ensure (header.1.length ≤ 0xff)
    (text "Response header name too long: " ++ Decimal.write header.1.length)
  ensure (((valueBytes header).getD []).length ≤ 0xffff)
    (text "Response header value too long: " ++
      Decimal.write ((valueBytes header).getD []).length)

def checkHeaders : List Header → Except Text Unit
  | [] => pure ()
  | header :: rest => do
      checkHeader header
      checkHeaders rest

def encodeHints : Option CacheHint → Octets
  | none => []
  | some hint => [0xca] ++ ([0xce] ++ (write 4 hint.ttl ++ write 4 hint.maxEntries))

/-- The octets of a response with its header fields as they are sent. -/
def responseFrame (status : Nat) (headers : List Header) (body : Octets)
    (ncache : Option CacheHint) : Octets :=
  write 2 status ++ (write 2 headers.length ++ (write 4 body.length ++
    (headers.flatMap encodeHeader ++ (body ++ encodeHints ncache))))

/-- The fields as they are sent. -/
def sentHeaders (headers : List Header) : List Header :=
  headers.map fun header => (header.1, (valueBytes header).getD [])

/-- `encodeResponseEnvelope`. A value without a length makes the total length no
number, which is refused when the buffer is made. -/
def encodeResponseEnvelope (snapshot : Snapshot) : Except Text Octets := do
  checkHeaders snapshot.headers
  ensure (snapshot.headers.all fun header => (valueBytes header).isSome)
    (text "The value of \"size\" is out of range.")
  pure (responseFrame snapshot.statusCode (sentHeaders snapshot.headers) snapshot.body
    snapshot.ncache)

/-! ## The HTTP/1.1 response -/

inductive AcceptedEncoding where
  | identity
  | gzip
  | brotli
deriving DecidableEq

/-- `CompressionConfig`, with what the compressors make of a body of a content
type. -/
structure CompressionConfig where
  minSize : Nat
  compress : AcceptedEncoding → Option Octets → Octets → Octets

def compressibleSubtypes : List Octets :=
  [octets "json", octets "javascript", octets "xml", octets "xhtml+xml", octets "x-javascript",
    octets "ld+json", octets "graphql+json", octets "manifest+json", octets "vnd.api+json"]

def isCompressibleContentType (contentType : Octets) : Bool :=
  let media := Octets.trimAscii (contentType.takeWhile (· ≠ 59))
  Octets.eqIgnoreAsciiCase (media.take 5) (octets "text/") ||
    (Octets.eqIgnoreAsciiCase (media.take 12) (octets "application/") &&
      compressibleSubtypes.any (Octets.eqIgnoreAsciiCase (media.drop 12))) ||
    Octets.eqIgnoreAsciiCase media (octets "image/svg+xml")

def shouldCompress
    (config : CompressionConfig)
    (encoding : AcceptedEncoding)
    (bodyLen : Nat)
    (contentType : Option Octets)
    (hasContentEncoding : Bool) :
    Option AcceptedEncoding :=
  if encoding = .identity then none
  else if bodyLen < config.minSize then none
  else if hasContentEncoding then none
  else if contentType.any fun value => !isCompressibleContentType value then none
  else some encoding

/-- `compress_body`: nothing when the result is not shorter. -/
def compressBody
    (config : CompressionConfig)
    (body : Octets)
    (encoding : AcceptedEncoding)
    (contentType : Option Octets) :
    Option Octets :=
  if encoding = .identity then none
  else if (config.compress encoding contentType body).length < body.length then
    some (config.compress encoding contentType body)
  else
    none

def encodingHeaderValue : AcceptedEncoding → Octets
  | .identity => octets "identity"
  | .gzip => octets "gzip"
  | .brotli => octets "br"

def statusReason (status : Nat) : Octets :=
  match status with
  | 200 => octets "OK"
  | 201 => octets "Created"
  | 202 => octets "Accepted"
  | 204 => octets "No Content"
  | 301 => octets "Moved Permanently"
  | 302 => octets "Found"
  | 304 => octets "Not Modified"
  | 400 => octets "Bad Request"
  | 401 => octets "Unauthorized"
  | 403 => octets "Forbidden"
  | 404 => octets "Not Found"
  | 405 => octets "Method Not Allowed"
  | 408 => octets "Request Timeout"
  | 409 => octets "Conflict"
  | 411 => octets "Length Required"
  | 413 => octets "Payload Too Large"
  | 415 => octets "Unsupported Media Type"
  | 422 => octets "Unprocessable Entity"
  | 429 => octets "Too Many Requests"
  | 431 => octets "Request Header Fields Too Large"
  | 500 => octets "Internal Server Error"
  | 501 => octets "Not Implemented"
  | 502 => octets "Bad Gateway"
  | 503 => octets "Service Unavailable"
  | 504 => octets "Gateway Timeout"
  | _ => octets "Unknown"

def crlf : Octets := [13, 10]

/-- `write_u16` and `write_usize`. -/
def decimalOctets (number : Nat) : Octets :=
  (Decimal.write number).map fun char => UInt8.ofNat char.toNat

def field (name value : Octets) : Octets :=
  name ++ (octets ": " ++ (value ++ crlf))

def statusLine (status : Nat) : Octets :=
  octets "HTTP/1.1 " ++ (decimalOctets status ++ ([32] ++ (statusReason status ++ crlf)))

def connectionValue (keepAlive : Bool) : Octets :=
  if keepAlive then octets "keep-alive" else octets "close"

/-- The row holds a carriage return or a line feed. -/
def breaksLine (row : Octets) : Bool :=
  row.any fun octet => octet = 13 || octet = 10

/-- A field of the snapshot that is passed on. -/
def isPassedOn (header : Header) : Bool :=
  !(Octets.eqIgnoreAsciiCase header.1 (octets "content-length") ||
    Octets.eqIgnoreAsciiCase header.1 (octets "connection")) &&
    !(breaksLine header.1 || breaksLine header.2)

def userField (header : Header) : Octets :=
  if isPassedOn header then field header.1 header.2 else []

/-- `StatusCode::from_u16` of the HTTP crate: it takes the codes from 100 to 999 and
keeps them. -/
structure StatusCodes where
  fromU16 : Nat → Option Nat
  isSome_fromU16 : ∀ code, (fromU16 code).isSome = true ↔ 100 ≤ code ∧ code < 1000
  fromU16_eq : ∀ code status, fromU16 code = some status → status = code

namespace StatusCodes

variable (codes : StatusCodes)

theorem getD_fromU16
    (code : Nat) :
    (codes.fromU16 code).getD 200 = if 100 ≤ code ∧ code < 1000 then code else 200 := by
  split
  · rename_i valid
    obtain ⟨status, taken⟩ := Option.isSome_iff_exists.mp ((codes.isSome_fromU16 code).mpr valid)
    rw [taken, Option.getD_some, codes.fromU16_eq code status taken]
  · rename_i invalid
    rw [← codes.isSome_fromU16, Bool.not_eq_true, Option.isSome_eq_false_iff,
      Option.isNone_iff_eq_none] at invalid
    rw [invalid, Option.getD_none]

end StatusCodes

def checkedCode (code : Nat) : Option Nat :=
  if 100 ≤ code ∧ code < 1000 then some code else none

theorem isSome_checkedCode
    (code : Nat) :
    (checkedCode code).isSome = true ↔ 100 ≤ code ∧ code < 1000 := by
  unfold checkedCode
  split
  · exact iff_of_true rfl ‹_›
  · exact iff_of_false Bool.false_ne_true ‹_›

theorem checkedCode_eq
    (code status : Nat)
    (taken : checkedCode code = some status) :
    status = code :=
  (Option.some.inj (Option.ite_none_right_eq_some.mp taken).2).symm

/-- The codes as the crate takes them. -/
def statusCodes : StatusCodes where
  fromU16 := checkedCode
  isSome_fromU16 := isSome_checkedCode
  fromU16_eq := checkedCode_eq

def responseTruncated : Text := text "response envelope truncated"

def readResponseHeader : OctetReader Text Header := do
  let nameLen ← OctetReader.number responseTruncated 1
  let valueLen ← OctetReader.number responseTruncated 2
  let name ← OctetReader.take responseTruncated nameLen
  let value ← OctetReader.take responseTruncated valueLen
  pure (name, value)

/-- Status, header fields and body. -/
def readResponse : OctetReader Text (Nat × List Header × Octets) := do
  let status ← OctetReader.number responseTruncated 2
  let headerCount ← OctetReader.number responseTruncated 2
  let bodyLength ← OctetReader.number responseTruncated 4
  let headers ← OctetReader.times readResponseHeader headerCount
  let body ← OctetReader.take (text "response body truncated") bodyLength
  pure (status, headers, body)

/-- The last field of a name. -/
def lastField (headers : List Header) (name : Octets) : Option Octets :=
  ((headers.filter fun header => Octets.eqIgnoreAsciiCase header.1 name).getLast?).map Prod.snd

/-- What compression comes to: the body and the fields that announce it. -/
def applyCompression
    (headers : List Header)
    (body : Octets)
    (encoding : AcceptedEncoding)
    (compressionConfig : Option CompressionConfig) :
    Octets × Octets :=
  let contentType := lastField headers contentTypeName
  let compressed := compressionConfig.bind fun config =>
    (shouldCompress config encoding body.length contentType
      (lastField headers (octets "content-encoding")).isSome).bind fun chosen =>
        (compressBody config body chosen contentType).map fun data => (data, chosen)
  match compressed with
  | some (data, chosen) =>
      (data, field (octets "content-encoding") (encodingHeaderValue chosen) ++
        field (octets "vary") (octets "accept-encoding"))
  | none => (body, [])

/-- `build_http_response_from_dispatch`. -/
def buildHttpResponseFromDispatch
    (dispatchBytes : Octets)
    (keepAlive : Bool)
    (encoding : AcceptedEncoding)
    (compressionConfig : Option CompressionConfig) :
    Except Text Octets := do
  let (status, headers, body) ← readResponse.run dispatchBytes
  let (finalBody, compressionFields) := applyCompression headers body encoding compressionConfig
  pure
    (statusLine status ++ (field (octets "content-length") (decimalOctets finalBody.length) ++
      (field (octets "connection") (connectionValue keepAlive) ++ (compressionFields ++
        (headers.flatMap userField ++ (crlf ++ finalBody))))))

/-! ## Trailers -/

def ncacheMaxTtlSecs : Nat := 86400

def ncacheMaxBodySize : Nat := 1024 * 1024

/-- Over one header field, to where the next one starts. -/
def skipHeader : OctetReader Unit Unit := do
  let nameLen ← OctetReader.number () 1
  let valueLen ← OctetReader.number () 2
  OctetReader.skip (nameLen + valueLen)

/-- The walk over an envelope to the end of its body, which gives up on bodies that
are too large. -/
def skipResponse (tooLarge : Nat → Bool) : OctetReader Unit Unit := do
  let _ ← OctetReader.number () 2
  let headerCount ← OctetReader.number () 2
  let bodyLength ← OctetReader.number () 4
  if tooLarge bodyLength then
    OctetReader.fail ()
  else
    let _ ← OctetReader.times skipHeader headerCount
    OctetReader.skip bodyLength

def readNcacheTrailer : OctetReader Unit (Nat × Nat) := do
  skipResponse fun bodyLength => bodyLength > ncacheMaxBodySize
  let first ← OctetReader.number () 1
  let second ← OctetReader.number () 1
  if first ≠ 0xca ∨ second ≠ 0xce then
    OctetReader.fail ()
  else
    let ttlSecs ← OctetReader.number () 4
    let maxEntries ← OctetReader.number () 4
    pure (min ttlSecs ncacheMaxTtlSecs, maxEntries)

/-- `extract_ncache_trailer`. -/
def extractNcacheTrailer (dispatchBytes : Octets) : Option (Nat × Nat) :=
  (readNcacheTrailer.run dispatchBytes).toOption

/-- `response_body_end_offset`. -/
def responseBodyEndOffset (dispatchBytes : Octets) : Option Nat :=
  (skipResponse (fun _ => false) dispatchBytes 0).toOption.map Prod.snd

/-- Where `write_dynamic_dispatch_response` looks for a session trailer. -/
def sessionScanOffset (dispatchBytes : Octets) : Option Nat :=
  (responseBodyEndOffset dispatchBytes).map fun bodyEnd =>
    if bodyEnd + 10 ≤ dispatchBytes.length ∧ dispatchBytes[bodyEnd]? = some 0xca ∧
        dispatchBytes[bodyEnd + 1]? = some 0xce then
      bodyEnd + 10
    else
      bodyEnd

inductive SessionAction where
  | update
  | destroy
  | regenerate
deriving DecidableEq

def SessionAction.fromByte (byte : Nat) : Option SessionAction :=
  match byte with
  | 1 => some .update
  | 2 => some .destroy
  | 3 => some .regenerate
  | _ => none

structure SessionWriteTrailer where
  action : SessionAction
  mutations : Dictionary Text Octets
  deletedKeys : List Text

def ofOption {Value : Type} : Option Value → OctetReader Unit Value
  | some value => pure value
  | none => OctetReader.fail ()

def readKey : OctetReader Unit Text := do
  let keyLen ← OctetReader.number () 2
  let key ← OctetReader.take () keyLen
  ofOption (Utf8.decode key)

def readMutation : OctetReader Unit (Text × Octets) := do
  let key ← readKey
  let valueLen ← OctetReader.number () 4
  let value ← OctetReader.take () valueLen
  pure (key, value)

def readSessionTrailer : OctetReader Unit SessionWriteTrailer := do
  let first ← OctetReader.number () 1
  let second ← OctetReader.number () 1
  if first ≠ 0x5e ∨ second ≠ 0x57 then
    OctetReader.fail ()
  else
    let action ← (do
      let byte ← OctetReader.number () 1
      ofOption (SessionAction.fromByte byte))
    let entryCount ← OctetReader.number () 2
    let deletedCount ← OctetReader.number () 2
    let entries ← OctetReader.times readMutation entryCount
    let deletedKeys ← OctetReader.times readKey deletedCount
    pure
      { action, deletedKeys
        mutations := entries.foldl (fun mutations entry => mutations.set entry.1 entry.2) [] }

/-- `extract_session_trailer`. -/
def extractSessionTrailer (dispatchBytes : Octets) (startOffset : Nat) :
    Option SessionWriteTrailer :=
  (readSessionTrailer dispatchBytes startOffset).toOption.map Prod.fst

end Envelope
end HttpNative
