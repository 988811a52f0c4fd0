import HttpNative.Parser.RequestHead

/-!
# The hot path for `GET /`

A second scanner of heads: it recognises the request line by a configured
prefix, finds the end of the head and goes through its lines itself, without
the HTTP parser.
-/

namespace HttpNative
namespace Parser

/-- What the server configuration gives the hot path. -/
structure HotConfig where
  hotGetRootHttp11 : Octets
  hotGetRootHttp10 : Octets
  headerConnectionPrefix : Octets
  headerContentLengthPrefix : Octets
  headerTransferEncodingPrefix : Octets

def defaultHotConfig : HotConfig where
  hotGetRootHttp11 := octets "GET / HTTP/1.1\r\n"
  hotGetRootHttp10 := octets "GET / HTTP/1.0\r\n"
  headerConnectionPrefix := octets "connection:"
  headerContentLengthPrefix := octets "content-length:"
  headerTransferEncodingPrefix := octets "transfer-encoding:"

/-- A line end. -/
def lineEnd : Octets := [13, 10]

/-- `find_header_end`. -/
def findHeaderEnd (bytes : Octets) : Option Nat :=
  Octets.find [13, 10, 13, 10] bytes

def startsIgnoringCase (start line : Octets) : Bool :=
  start.length ≤ line.length && Octets.eqIgnoreAsciiCase (line.take start.length) start

/-- The length that the rest of a `Content-Length` line gives. -/
def readHotLength (value : Octets) : Option Nat :=
  (Utf8.decode (Octets.trimAscii value)).bind parseUsize

def asksHotTransferEncoding (value : Octets) : Bool :=
  Octets.trimAscii value ≠ [] &&
    !Octets.eqIgnoreAsciiCase (Octets.trimAscii value) (octets "identity")

/-- Take one line into account. -/
def scanLine (config : HotConfig) (request : ParsedRequest) (line : Octets) : ParsedRequest :=
  if startsIgnoringCase config.headerConnectionPrefix line then
    { request with
      keepAlive :=
        readConnection request.keepAlive (line.drop config.headerConnectionPrefix.length) }
  else if startsIgnoringCase config.headerContentLengthPrefix line then
    let length := readHotLength (line.drop config.headerContentLengthPrefix.length)
    { request with
      contentLength := length.or request.contentLength
      hasBody := request.hasBody || length.any (0 < ·) }
  else if startsIgnoringCase config.headerTransferEncodingPrefix line then
    let asks := asksHotTransferEncoding (line.drop config.headerTransferEncodingPrefix.length)
    { request with
      hasBody := request.hasBody || asks
      hasChunkedTe := request.hasChunkedTe || asks }
  else if request.acceptedEncoding ≠ .brotli ∧ 17 ≤ line.length ∧
      Octets.eqIgnoreAsciiCase (line.take 16) (octets "accept-encoding:") then
    { request with
      acceptedEncoding := parseAcceptEncoding (Octets.trimAscii (line.drop 16)) }
  else
    request

/-- The loop over the lines of the head, on what is left of it up to the line
end before the empty line; the fuel bounds the number of rounds. -/
def scanLines (config : HotConfig) : Nat → ParsedRequest → Octets → Option ParsedRequest
  | 0, request, _ => some request
  | fuel + 1, request, remaining =>
      if remaining.length < 4 then
        some request
      else
        match Octets.find lineEnd remaining with
        | none => none
        | some nextEnd =>
            if nextEnd = 0 then
              some request
            else
              scanLines config fuel (scanLine config request (remaining.take nextEnd))
                (remaining.drop (nextEnd + 2))

/-- The request of the hot path before its lines are read. -/
def hotRequest (keepAlive : Bool) (headerBytes : Nat) : ParsedRequest where
  method := octets "GET"
  target := octets "/"
  path := octets "/"
  keepAlive := keepAlive
  headerBytes := headerBytes
  hasBody := false
  contentLength := none
  hasChunkedTe := false
  headers := []
  cookieHeader := none
  isWebsocketUpgrade := false
  wsKey := none
  acceptedEncoding := .identity

/-- The persistence that the prefix of the buffer stands for. -/
def hotKeepAlive (config : HotConfig) (bytes : Octets) : Option Bool :=
  if config.hotGetRootHttp11.isPrefixOf bytes then some true
  else if config.hotGetRootHttp10.isPrefixOf bytes then some false
  else none

def parseHotRootRequest (config : HotConfig) (bytes : Octets) : Option ParsedRequest := do
  let keepAlive ← hotKeepAlive config bytes
  let headerEnd ← findHeaderEnd bytes
  let newline ← bytes.findIdx? (· = 10)
  scanLines config bytes.length (hotRequest keepAlive (headerEnd + 4))
    ((bytes.take (headerEnd + 2)).drop (newline + 1))

/-! ## What the request line decides -/

/-- What is taken from the request line alone is kept. -/
structure KeepsLine (request parsed : ParsedRequest) : Prop where
  method : parsed.method = request.method
  target : parsed.target = request.target
  path : parsed.path = request.path
  headers : parsed.headers = request.headers
  upgrade : parsed.isWebsocketUpgrade = request.isWebsocketUpgrade

theorem KeepsLine.trans
    {request next parsed : ParsedRequest}
    (first : KeepsLine request next)
    (others : KeepsLine next parsed) :
    KeepsLine request parsed where
  method := others.method.trans first.method
  target := others.target.trans first.target
  path := others.path.trans first.path
  headers := others.headers.trans first.headers
  upgrade := others.upgrade.trans first.upgrade

theorem keepsLine_scanLine
    (config : HotConfig)
    (request : ParsedRequest)
    (line : Octets) :
    KeepsLine request (scanLine config request line) := by
  unfold scanLine
  dsimp only
  repeat' split
  all_goals exact ⟨rfl, rfl, rfl, rfl, rfl⟩

theorem keepsLine_of_scanLines
    {config : HotConfig} {fuel : Nat} {request parsed : ParsedRequest} {remaining : Octets}
    (read : scanLines config fuel request remaining = some parsed) :
    KeepsLine request parsed := by
  induction fuel generalizing request remaining with
  | zero =>
      cases read
      exact ⟨rfl, rfl, rfl, rfl, rfl⟩
  | succ fuel hypothesis =>
      rw [scanLines] at read
      split at read
      · cases read
        exact ⟨rfl, rfl, rfl, rfl, rfl⟩
      · split at read
        · cases read
        · rename_i nextEnd _
          split at read
          · cases read
            exact ⟨rfl, rfl, rfl, rfl, rfl⟩
          · exact (keepsLine_scanLine config request (remaining.take nextEnd)).trans
              (hypothesis read)

/-- The hot path yields a `GET /` request without headers and without an upgrade. -/
theorem keepsLine_of_parseHotRootRequest
    {config : HotConfig} {bytes : Octets} {parsed : ParsedRequest}
    (read : parseHotRootRequest config bytes = some parsed) :
    ∃ keepAlive headerBytes, KeepsLine (hotRequest keepAlive headerBytes) parsed := by
  obtain ⟨keepAlive, _, read⟩ := Option.bind_eq_some_iff.mp read
  obtain ⟨headerEnd, _, read⟩ := Option.bind_eq_some_iff.mp read
  obtain ⟨newline, _, read⟩ := Option.bind_eq_some_iff.mp read
  exact ⟨keepAlive, headerEnd + 4, keepsLine_of_scanLines read⟩

end Parser
end HttpNative
