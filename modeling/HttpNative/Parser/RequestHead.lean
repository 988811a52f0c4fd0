import HttpNative.Library.Decimal
import HttpNative.Library.Octets
import HttpNative.Library.Utf8

/-!
# Parsing a request head

What the server makes of the fields of a head that the HTTP parser has cut
into lines: persistence, body length, transfer encoding, cookie, WebSocket
upgrade and accepted encoding, in one pass over the fields.
-/

namespace HttpNative
namespace Parser

def maxHeaderCount : Nat := 64

def maxUrlLength : Nat := 8192

def maxHeaderValueLength : Nat := 8192

/-- The values of `usize`. -/
def usizeBound : Nat := 2 ^ 64

/-! ## What the HTTP parser yields -/

/-- A header field as it was cut out of the buffer; a name is a token. -/
structure RawHeader where
  name : Octets
  value : Octets
  named : name ≠ []
deriving DecidableEq

/-- A complete head. -/
structure RawRequest where
  method : Octets
  target : Octets
  /-- The minor version. -/
  version : Nat
  headers : List RawHeader
  /-- The octets of the head, its last line end included. -/
  headerLength : Nat
  fewHeaders : headers.length ≤ maxHeaderCount
deriving DecidableEq

/-! ## Values -/

/-- The white space of Rust's `char::is_whitespace`. -/
def isWhitespace (char : Char) : Bool :=
  [0x09, 0x0A, 0x0B, 0x0C, 0x0D, 0x20, 0x85, 0xA0, 0x1680, 0x2028, 0x2029, 0x202F, 0x205F,
    0x3000].contains char.toNat || (0x2000 ≤ char.toNat && char.toNat ≤ 0x200A)

/-- `str::trim`. -/
def trim (input : Text) : Text :=
  Text.trimWith isWhitespace input

/-- A plus sign that `str::parse` accepts before the digits of a number. -/
def stripPlus : Text → Text
  | [] => []
  | char :: rest => if char = '+' then rest else char :: rest

/-- `str::parse::<usize>`. -/
def parseUsize (input : Text) : Option Nat :=
  let digits := stripPlus input
  if digits ≠ [] ∧ digits.all Char.isDigit ∧ Decimal.value digits < usizeBound then
    some (Decimal.value digits)
  else
    none

def containsAsciiCaseInsensitive (haystack needle : Octets) : Bool :=
  if needle = [] then false
  else Octets.includes (Octets.asciiLower needle) (Octets.asciiLower haystack)

inductive AcceptedEncoding where
  | identity
  | gzip
  | brotli
deriving DecidableEq, Repr

/-- The weight `q=0` of an encoding, up to three decimals. -/
def rejectsEncoding (segment : Octets) : Bool :=
  match Octets.trimAscii segment with
  | letter :: equals :: weight =>
      Octets.lower letter == 113 && equals == 61 &&
        [octets "0", octets "0.", octets "0.0", octets "0.00", octets "0.000"].contains
          (Octets.trimAscii weight)
  | _ => false

/-- One encoding of the list. -/
def addEncoding (best : AcceptedEncoding) (part : Octets) : AcceptedEncoding :=
  let segments := (Octets.trimAscii part).splitOn 59
  if segments.tail.any rejectsEncoding then
    best
  else if Octets.eqIgnoreAsciiCase (Octets.trimAscii (segments.headD [])) (octets "br") then
    .brotli
  else if Octets.eqIgnoreAsciiCase (Octets.trimAscii (segments.headD [])) (octets "gzip") ∧
      best ≠ .brotli then
    .gzip
  else
    best

def parseAcceptEncoding (value : Octets) : AcceptedEncoding :=
  (value.splitOn 44).foldl addEncoding .identity

/-- The well-known header names, which are interned in lower case. -/
def internedNames : List Text :=
  [text "host", text "date", text "vary", text "accept", text "cookie", text "origin",
    text "referer", text "upgrade", text "connection", text "user-agent", text "content-type",
    text "authorization", text "cache-control", text "if-none-match", text "content-length",
    text "accept-charset", text "accept-encoding", text "accept-language",
    text "transfer-encoding", text "if-modified-since", text "content-disposition"]

def internHeaderName (raw : Text) : Text :=
  if Text.asciiLower raw ∈ internedNames then Text.asciiLower raw else raw

/-! ## The pass over the fields -/

structure ParsedRequest where
  method : Octets
  target : Octets
  path : Octets
  keepAlive : Bool
  headerBytes : Nat
  hasBody : Bool
  contentLength : Option Nat
  /-- A non-identity `Transfer-Encoding` was seen. -/
  hasChunkedTe : Bool
  headers : List (Text × Text)
  cookieHeader : Option Text
  isWebsocketUpgrade : Bool
  wsKey : Option Text
  acceptedEncoding : AcceptedEncoding
deriving DecidableEq

def RawHeader.isNamed (header : RawHeader) (name : String) : Bool :=
  Octets.eqIgnoreAsciiCase header.name (octets name)

/-- The number that a field gives for the body length, when it is one. -/
def readContentLength (header : RawHeader) (value : Text) : Option Nat :=
  if header.isNamed "content-length" then parseUsize (trim value) else none

/-- The field asks for a transfer encoding other than identity. -/
def asksTransferEncoding (header : RawHeader) (value : Text) : Bool :=
  header.isNamed "transfer-encoding" &&
    (trim value ≠ [] && !Text.eqIgnoreAsciiCase (trim value) (text "identity"))

/-- Whether the connection is kept after a `Connection` field. -/
def readConnection (keepAlive : Bool) (value : Octets) : Bool :=
  if containsAsciiCaseInsensitive value (octets "keep-alive") then true
  else if containsAsciiCaseInsensitive value (octets "close") then false
  else keepAlive

/-- Take a field with a well-formed value into account. -/
def recordHeader (request : ParsedRequest) (header : RawHeader) (value : Text) : ParsedRequest :=
  { request with
    keepAlive :=
      if header.isNamed "connection" then readConnection request.keepAlive header.value
      else request.keepAlive
    contentLength := (readContentLength header value).or request.contentLength
    hasBody :=
      request.hasBody || (readContentLength header value).any (0 < ·) ||
        asksTransferEncoding header value
    hasChunkedTe := request.hasChunkedTe || asksTransferEncoding header value
    cookieHeader := if header.isNamed "cookie" then some value else request.cookieHeader
    isWebsocketUpgrade :=
      request.isWebsocketUpgrade ||
        (header.isNamed "upgrade" && Text.eqIgnoreAsciiCase value (text "websocket"))
    wsKey := if header.isNamed "sec-websocket-key" then some value else request.wsKey
    acceptedEncoding :=
      if request.acceptedEncoding ≠ .brotli ∧ header.isNamed "accept-encoding" then
        parseAcceptEncoding header.value
      else
        request.acceptedEncoding
    headers := request.headers ++ [(internHeaderName (Octets.toText header.name), value)] }

/-- One round of the loop; a field whose value is not UTF-8 is skipped. -/
def parseHeader (request : ParsedRequest) (header : RawHeader) : Option ParsedRequest :=
  if header.value.length > maxHeaderValueLength then
    none
  else
    match Utf8.decode header.value with
    | none => some request
    | some value => some (recordHeader request header value)

/-- The target up to its query. -/
def pathOfTarget (target : Octets) : Octets :=
  target.takeWhile (· ≠ 63)

/-- The request before its fields are read. -/
def initialRequest (raw : RawRequest) : ParsedRequest where
  method := raw.method
  target := raw.target
  path := pathOfTarget raw.target
  keepAlive := decide (1 ≤ raw.version)
  headerBytes := raw.headerLength
  hasBody := false
  contentLength := none
  hasChunkedTe := false
  headers := []
  cookieHeader := none
  isWebsocketUpgrade := false
  wsKey := none
  acceptedEncoding := .identity

/-- `parse_request_httparse` on a head that the HTTP parser has accepted. -/
def parseRawRequest (raw : RawRequest) : Option ParsedRequest :=
  if raw.target.length > maxUrlLength then none
  else raw.headers.foldlM parseHeader (initialRequest raw)

/-- `parse_request_httparse`, given the HTTP parser: it yields a complete head
or, for a partial or malformed one, nothing. -/
def parseRequestHttparse
    (httparse : Octets → Option RawRequest)
    (bytes : Octets) : Option ParsedRequest :=
  (httparse bytes).bind parseRawRequest

/-! ## What the request line decides -/

theorem line_of_parseHeader
    {request parsed : ParsedRequest} {header : RawHeader}
    (read : parseHeader request header = some parsed) :
    parsed.method = request.method ∧ parsed.target = request.target ∧
      parsed.path = request.path ∧ parsed.headerBytes = request.headerBytes := by
  unfold parseHeader at read
  split at read
  · cases read
  · split at read <;>
      cases read <;>
        exact ⟨rfl, rfl, rfl, rfl⟩

theorem line_of_foldlM
    {headers : List RawHeader} {request parsed : ParsedRequest}
    (read : headers.foldlM parseHeader request = some parsed) :
    parsed.method = request.method ∧ parsed.target = request.target ∧
      parsed.path = request.path ∧ parsed.headerBytes = request.headerBytes := by
  induction headers generalizing request with
  | nil =>
      cases read
      exact ⟨rfl, rfl, rfl, rfl⟩
  | cons header rest hypothesis =>
      rw [List.foldlM_cons] at read
      obtain ⟨next, readFirst, readRest⟩ := Option.bind_eq_some_iff.mp read
      obtain ⟨method, target, path, headerBytes⟩ := hypothesis readRest
      obtain ⟨ownMethod, ownTarget, ownPath, ownBytes⟩ := line_of_parseHeader readFirst
      exact ⟨method.trans ownMethod, target.trans ownTarget, path.trans ownPath,
        headerBytes.trans ownBytes⟩

/-- The fields change nothing about the request line and the length of the head. -/
theorem line_of_parseRawRequest
    {raw : RawRequest} {parsed : ParsedRequest}
    (read : parseRawRequest raw = some parsed) :
    parsed.method = raw.method ∧ parsed.target = raw.target ∧
      parsed.path = pathOfTarget raw.target ∧ parsed.headerBytes = raw.headerLength := by
  unfold parseRawRequest at read
  split at read
  · cases read
  · exact line_of_foldlM read

end Parser
end HttpNative
