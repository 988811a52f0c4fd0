import HttpNative.Envelope.ResponseEnvelope
import HttpNative.Library.MessageHead

/-!
# Response builders

The HTTP/1.1 responses that the native layer writes: those of static routes, of
native fast paths, of dispatches and of streams, and its own error responses; and
what is changed in a response afterwards.
-/

namespace HttpNative
namespace Response

open Envelope
  (AcceptedEncoding CompressionConfig Header applyCompression breaksLine compressBody
    connectionValue contentTypeName crlf decimalOctets encodingHeaderValue field lastField
    readResponse readResponseHeader shouldCompress statusLine)

def writeFields (headers : List Header) : Octets :=
  headers.flatMap fun header => field header.1 header.2

/-- A head with the fields of the server in front of those that are passed on. -/
def assemble
    (status : Nat)
    (serverFields passedOn : List Header)
    (body : Octets) :
    Octets :=
  statusLine status ++ (writeFields serverFields ++ (writeFields passedOn ++ (crlf ++ body)))

def contentLength : Octets := octets "content-length"

def transferEncoding : Octets := octets "transfer-encoding"

def connection : Octets := octets "connection"

/-- The fields that every response with a length starts with. -/
def ownFields (length : Nat) (keepAlive : Bool) : List Header :=
  [(contentLength, decimalOctets length), (connection, connectionValue keepAlive)]

def compressionFields : Option AcceptedEncoding → List Header
  | none => []
  | some encoding =>
      [(octets "content-encoding", encodingHeaderValue encoding),
        (octets "vary", octets "accept-encoding")]

def isManaged (managed : List Octets) (header : Header) : Bool :=
  managed.any (Octets.eqIgnoreAsciiCase header.1)

def hasLineBreak (header : Header) : Bool :=
  breaksLine header.1 || breaksLine header.2

/-- The headers without those that the builder writes itself and those with a line
break. -/
def passOn (managed : List Octets) (headers : List Header) : List Header :=
  headers.filter fun header => !isManaged managed header && !hasLineBreak header

/-! ## The builders -/

/-- `build_response_bytes`. -/
def buildResponseBytes
    (status : Nat)
    (headers : List Header)
    (body : Octets)
    (keepAlive : Bool) :
    Octets :=
  assemble status (ownFields body.length keepAlive) (passOn [] headers) body

/-- `build_compressed_response_bytes`. -/
def buildCompressedResponseBytes
    (status : Nat)
    (headers : List Header)
    (compressedBody : Octets)
    (keepAlive : Bool)
    (encoding : AcceptedEncoding) :
    Octets :=
  assemble status
    (ownFields compressedBody.length keepAlive ++ compressionFields (some encoding))
    (passOn [contentLength, connection, octets "content-encoding"] headers) compressedBody

/-- `build_response_bytes_fast`. -/
def buildResponseBytesFast
    (status : Nat)
    (headers : List Header)
    (body : Octets)
    (keepAlive : Bool)
    (encoding : AcceptedEncoding)
    (compressionConfig : Option CompressionConfig) :
    Octets :=
  let (finalBody, announced) := applyCompression headers body encoding compressionConfig
  statusLine status ++ (writeFields (ownFields finalBody.length keepAlive) ++ (announced ++
    (writeFields (passOn [contentLength, connection] headers) ++ (crlf ++ finalBody))))

/-- `build_error_response_bytes`. -/
def buildErrorResponseBytes
    (status : Nat)
    (body : Octets)
    (keepAlive : Bool) :
    Octets :=
  assemble status
    (ownFields body.length keepAlive ++
      [(octets "content-type", octets "application/json; charset=utf-8")]) [] body

/-- `response.len() >= 14 && response[0] == 0xFF && response[1] == 0x53`. -/
def isStreamStart (response : Octets) : Bool :=
  14 ≤ response.length && [0xff, 0x53].isPrefixOf response

/-- The headers of a stream-start envelope, up to one that is cut off. -/
def readStreamHeaders
    (response : Octets) :
    Nat → Nat → List Header
  | 0, _ => []
  | count + 1, offset =>
      match readResponseHeader response offset with
      | .ok (header, behind) => header :: readStreamHeaders response count behind
      | .error _ => []

def streamStatus (response : Octets) : Nat :=
  LittleEndian.value ((response.drop 10).take 2)

def streamHeaders (response : Octets) : List Header :=
  readStreamHeaders response (LittleEndian.value ((response.drop 12).take 2)) 14

/-- The headers that the head of a stream has of the envelope: line breaks are not
looked for. -/
def streamPassOn (headers : List Header) : List Header :=
  headers.filter fun header =>
    !isManaged [transferEncoding, contentLength, connection] header

/-- The fields that the head of a stream starts with. -/
def streamFields (keepAlive : Bool) : List Header :=
  [(transferEncoding, octets "chunked"), (connection, connectionValue keepAlive)]

/-- The header block of a stream in `write_dynamic_dispatch_response`; nothing for
an ordinary response. -/
def streamHead
    (response : Octets)
    (keepAlive : Bool) :
    Option Octets :=
  if isStreamStart response then
    some (assemble (streamStatus response) (streamFields keepAlive)
      (streamPassOn (streamHeaders response)) [])
  else
    none

/-! ## Changes to a response -/

/-- The first place of a row in a response gets another row. -/
def replaceFirst (find replace response : Octets) : Octets :=
  match Octets.find find response with
  | some position => response.take position ++ replace ++ response.drop (position + find.length)
  | none => response

/-- `patch_connection_header`. -/
def patchConnectionHeader (response : Octets) (keepAlive : Bool) : Octets :=
  replaceFirst (field connection (connectionValue !keepAlive))
    (field connection (connectionValue keepAlive)) response

/-- `inject_set_cookie_header`. -/
def injectSetCookieHeader (response cookieValue : Octets) : Octets :=
  match Octets.find (crlf ++ crlf) response with
  | some position =>
      response.take (position + 2) ++ field (octets "set-cookie") cookieValue ++
        response.drop (position + 2)
  | none => response

/-! ## The common form -/

theorem writeFields_append
    (left right : List Header) :
    writeFields (left ++ right) = writeFields left ++ writeFields right :=
  List.flatMap_append

/-- The coding of the body that `applyCompression` comes to. -/
def appliedEncoding
    (headers : List Header)
    (body : Octets)
    (encoding : AcceptedEncoding)
    (compressionConfig : Option CompressionConfig) :
    Option AcceptedEncoding :=
  let contentType := lastField headers contentTypeName
  compressionConfig.bind fun config =>
    (shouldCompress config encoding body.length contentType
      (lastField headers (octets "content-encoding")).isSome).bind fun chosen =>
        (compressBody config body chosen contentType).map fun _ => chosen

/-- A compressed body comes with the fields that announce its coding. -/
theorem applyCompression_announced
    (headers : List Header)
    (body : Octets)
    (encoding : AcceptedEncoding)
    (compressionConfig : Option CompressionConfig) :
    (applyCompression headers body encoding compressionConfig).2 =
      writeFields (compressionFields
        (appliedEncoding headers body encoding compressionConfig)) := by
  have same : appliedEncoding headers body encoding compressionConfig =
      (compressionConfig.bind fun config =>
        (shouldCompress config encoding body.length (lastField headers contentTypeName)
          (lastField headers (octets "content-encoding")).isSome).bind fun chosen =>
            (compressBody config body chosen (lastField headers contentTypeName)).map
              fun data => (data, chosen)).map Prod.snd := by
    simp only [appliedEncoding, Option.map_bind, Option.map_map, Function.comp_def]
  rw [same, applyCompression]
  split
  · rename_i chosen compressed
    rw [compressed]
    simp [compressionFields, writeFields]
  · rename_i compressed
    rw [compressed]
    rfl

theorem buildResponseBytesFast_eq
    (status : Nat)
    (headers : List Header)
    (body : Octets)
    (keepAlive : Bool)
    (encoding : AcceptedEncoding)
    (compressionConfig : Option CompressionConfig) :
    buildResponseBytesFast status headers body keepAlive encoding compressionConfig =
      assemble status
        (ownFields (applyCompression headers body encoding compressionConfig).1.length keepAlive ++
          compressionFields (appliedEncoding headers body encoding compressionConfig))
        (passOn [contentLength, connection] headers)
        (applyCompression headers body encoding compressionConfig).1 := by
  rw [buildResponseBytesFast, assemble, writeFields_append, ← applyCompression_announced,
    List.append_assoc]

/-- The headers of a dispatch are passed on as those of a fast path. -/
theorem flatMap_userField
    (headers : List Header) :
    headers.flatMap Envelope.userField = writeFields (passOn [contentLength, connection] headers) := by
  induction headers with
  | nil => rfl
  | cons header rest hypothesis =>
      have same : Envelope.isPassedOn header =
          (!isManaged [contentLength, connection] header && !hasLineBreak header) := by
        simp [Envelope.isPassedOn, isManaged, hasLineBreak, contentLength, connection]
      rw [List.flatMap_cons, hypothesis, Envelope.userField, same, passOn, passOn,
        List.filter_cons]
      split
      · rfl
      · rfl

/-- A response to a dispatch is built as that of a fast path. -/
theorem buildHttpResponseFromDispatch_eq
    (dispatchBytes : Octets)
    (keepAlive : Bool)
    (encoding : AcceptedEncoding)
    (compressionConfig : Option CompressionConfig) :
    Envelope.buildHttpResponseFromDispatch dispatchBytes keepAlive encoding compressionConfig =
      (readResponse.run dispatchBytes).map fun read =>
        buildResponseBytesFast read.1 read.2.1 read.2.2 keepAlive encoding compressionConfig := by
  rw [Envelope.buildHttpResponseFromDispatch]
  cases readResponse.run dispatchBytes with
  | error error => rfl
  | ok read =>
      obtain ⟨status, headers, body⟩ := read
      change Except.ok _ =
        Except.ok (buildResponseBytesFast status headers body keepAlive encoding compressionConfig)
      rw [flatMap_userField, buildResponseBytesFast]
      simp only [ownFields, writeFields, List.flatMap_cons, List.flatMap_nil, List.append_nil,
        List.append_assoc]
      rfl

end Response
end HttpNative
