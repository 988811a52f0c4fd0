import HttpNative.Envelope.ResponseDelivery
import HttpNative.Library.Utf8Ascii
import HttpNative.Response.ResponseBuilders

/-!
# Header setters

The methods of a response object that set headers, and the envelope in which a
dispatch hands the response over to the native layer.
-/

namespace HttpNative
namespace Response

open Envelope (CacheHint Header Snapshot encodeHeader encodeResponseEnvelope)
open LittleEndian (write)

/-- What the methods of a response work on; a stream id is there while the response
is streaming. -/
structure ResponseState where
  status : Nat
  headers : Dictionary Text Text
  body : Octets
  finished : Bool
  ncache : Option CacheHint
  streamId : Option Nat

/-- `acquireResponseState`. -/
def acquireResponseState : ResponseState where
  status := 200
  headers := []
  body := []
  finished := false
  ncache := none
  streamId := none

/-- A call of a method, with the strings that its arguments are converted to. A
serializer may throw instead of returning a body. -/
inductive ResponseCall where
  | status (code : Nat)
  | set (name value : Text)
  | header (name value : Text)
  | type (value : Text)
  | json (serialized : Option Octets)
  | html (status : Nat) (headers : List (Text × Text)) (body : Octets)
  | sendBuffer (data : Octets)
  | sendString (data : Text)
  | sendNothing
  | sendStatus (code : Nat)
  | ncache (serialized : Option Octets) (hint : CacheHint)
  | stream (streamId : Nat) (contentType : Option Text)
  | redirect (url : Text) (status : Nat)

def includesBreak (value : Text) : Bool :=
  value.contains '\r' || value.contains '\n'

theorem includesBreak_append
    (value other : Text) :
    includesBreak (value ++ other) = (includesBreak value || includesBreak other) := by
  simp only [includesBreak, List.contains_eq_mem, List.mem_append, Bool.decide_or]
  ac_rfl

def contentTypeKey : Text := text "content-type"

def jsonType : Text := text "application/json; charset=utf-8"

def plainType : Text := text "text/plain; charset=utf-8"

def htmlType : Text := text "text/html; charset=utf-8"

def binaryType : Text := text "application/octet-stream"

/-- The value is there and not empty. -/
def isTruthy (value : Option Text) : Bool :=
  value.any (· ≠ [])

def normalizeContentType (type : Text) : Text :=
  if type.contains '/' then type
  else if type = text "json" then jsonType
  else if type = text "html" then htmlType
  else if type = text "text" then plainType
  else type

/-- A record of headers gets a content type unless it has one. -/
def defaultContentType (value : Text) (headers : Dictionary Text Text) : Dictionary Text Text :=
  if isTruthy (headers.get contentTypeKey) then headers else headers.set contentTypeKey value

namespace ResponseState

variable (toLowerCase : Text → Text)

def set (state : ResponseState) (name value : Text) : ResponseState :=
  if includesBreak (toLowerCase name) || includesBreak value then
    state
  else
    { state with headers := state.headers.set (toLowerCase name) value }

def withDefaultType (state : ResponseState) (value : Text) : ResponseState :=
  { state with headers := defaultContentType value state.headers }

def finish (state : ResponseState) (body : Octets) : ResponseState :=
  { state with body, finished := true }

def json (state : ResponseState) (serialized : Option Octets) : ResponseState :=
  if state.finished then state
  else
    let state := state.withDefaultType jsonType
    match serialized with
    | some body => state.finish body
    | none => state

/-- `normalizeHeaderRecord`. -/
def normalizeHeaderRecord (headers : List (Text × Text)) : Dictionary Text Text :=
  headers.foldl
    (fun normalized header =>
      if includesBreak (toLowerCase header.1) || includesBreak header.2 then normalized
      else normalized.set (toLowerCase header.1) header.2) []

/-- The headers of `buildHtmlResponsePayload` are assigned one after the other. -/
def html
    (state : ResponseState)
    (status : Nat)
    (headers : List (Text × Text))
    (body : Octets) :
    ResponseState :=
  if state.finished then state
  else
    let payload := defaultContentType htmlType (normalizeHeaderRecord toLowerCase headers)
    { state with
      status
      headers := payload.foldl (fun result header => result.set header.1 header.2) state.headers
      body
      finished := true }

def sendString (state : ResponseState) (data : Text) : ResponseState :=
  if state.finished then state
  else (state.withDefaultType plainType).finish (Utf8.encode data)

/-- `ncache`. -/
def cache
    (state : ResponseState)
    (serialized : Option Octets)
    (hint : CacheHint) :
    ResponseState :=
  if state.finished then state
  else
    let state := state.withDefaultType jsonType
    match serialized with
    | some body => { state.finish body with ncache := some hint }
    | none => state

/-- `options.contentType || "application/octet-stream"` goes into the headers as it
is. -/
def stream
    (state : ResponseState)
    (streamId : Nat)
    (contentType : Option Text) :
    ResponseState :=
  if state.finished then state
  else
    let chosen := if isTruthy contentType then contentType.getD [] else binaryType
    { state.withDefaultType chosen with finished := true, streamId := some streamId }

/-- A line break makes the method throw when the status is already set. -/
def redirect
    (state : ResponseState)
    (url : Text)
    (status : Nat) :
    ResponseState :=
  if state.finished then state
  else if includesBreak url then { state with status }
  else
    { state with
      status
      headers := state.headers.set (text "location") url
      body := []
      finished := true }

/-- What a call of a method makes of the state. -/
def call (state : ResponseState) : ResponseCall → ResponseState
  | .status code => { state with status := code }
  | .set name value | .header name value => state.set toLowerCase name value
  | .type value =>
      state.set toLowerCase contentTypeKey (normalizeContentType value)
  | .json serialized => state.json serialized
  | .html status headers body => state.html toLowerCase status headers body
  | .sendBuffer data =>
      if state.finished then state else (state.withDefaultType binaryType).finish data
  | .sendString data => state.sendString data
  | .sendNothing => if state.finished then state else state.finish []
  | .sendStatus code =>
      ({ state with status := code }.withDefaultType plainType).sendString (Decimal.write code)
  | .ncache serialized hint => state.cache serialized hint
  | .stream streamId contentType => state.stream streamId contentType
  | .redirect url status => state.redirect url status

def snapshot (state : ResponseState) : Snapshot where
  status := some state.status
  headers := state.headers.map fun entry => (Utf8.encode entry.1, Utf8.encode entry.2)
  body := state.body
  ncache := state.ncache

end ResponseState

/-! ## The envelope of a dispatch -/

/-- `writeU32`: the bit operations see a number as one of 32 bits. -/
def writeU32 (value : BitVec 32) : Octets :=
  [value &&& 0xff, (value >>> 8) &&& 0xff, (value >>> 16) &&& 0xff, (value >>> 24) &&& 0xff].map
    fun octet => UInt8.ofNat octet.toNat

/-- The octets of a stream id, by two numbers of 32 bits. -/
def streamIdOctets (streamId : Nat) : Octets :=
  let low := BitVec.ofNat 32 streamId &&& 0xffffffff
  let high := BitVec.ofNat 32 (streamId / 0x100000000)
  writeU32 low ++ writeU32 high

theorem writeU32_eq
    (value : BitVec 32) :
    writeU32 value = write 4 value.toNat := by
  have octet (shift : Nat) :
      UInt8.ofNat ((value >>> shift) &&& 0xff).toNat = UInt8.ofNat (value.toNat >>> shift) := by
    rw [← UInt8.toNat_inj, UInt8.toNat_ofNat', UInt8.toNat_ofNat', BitVec.toNat_and,
      BitVec.toNat_ushiftRight]
    exact (congrArg (· % 2 ^ 8) (Nat.and_two_pow_sub_one_eq_mod _ 8)).trans (Nat.mod_mod _ _)
  have lowest := octet 0
  rw [BitVec.ushiftRight_zero, Nat.shiftRight_zero] at lowest
  have divided (width : Nat) := LittleEndian.shiftRight_eq_div_limit value.toNat width
  simp only [writeU32, List.map_cons, List.map_nil, lowest, octet, write]
  rw [divided 1, divided 2, divided 3]
  simp only [LittleEndian.limit, Nat.div_div_eq_div_mul, Nat.mul_one, Nat.reduceMul]

/-- The two halves are the id in eight octets. -/
@[simp]
theorem streamIdOctets_eq
    (streamId : Nat) :
    streamIdOctets streamId = write 8 streamId := by
  have ones : (0xffffffff : BitVec 32) = BitVec.allOnes 32 := rfl
  have limit : LittleEndian.limit 4 = 2 ^ 32 := rfl
  rw [streamIdOctets, ones, BitVec.and_allOnes, writeU32_eq, writeU32_eq, BitVec.toNat_ofNat,
    BitVec.toNat_ofNat, ← limit, LittleEndian.write_mod, LittleEndian.write_mod]
  exact (LittleEndian.write_add 4 4 streamId).symm

/-- `encodeStreamStartEnvelope`: lengths that are too large lose their upper
octets. -/
def encodeStreamStartEnvelope (streamId : Nat) (snapshot : Snapshot) : Octets :=
  [0xff, 0x53] ++ (streamIdOctets streamId ++ (write 2 snapshot.statusCode ++
    (write 2 snapshot.headers.length ++ snapshot.headers.flatMap encodeHeader)))

/-- `buildDefaultErrorSnapshot`, with the body for statuses other than `404`. -/
def defaultErrorSnapshot (status : Nat) (body : Octets) : Snapshot where
  status := some status
  headers := [(Envelope.contentTypeName, Utf8.encode (if status = 404 then plainType else jsonType))]
  body := if status = 404 then octets "Not Found" else body
  ncache := none

/-- How the middleware and the handlers of a request come to an end: all have run,
or one has thrown, and then the error has a status and a body to show. -/
inductive Outcome where
  | returned
  | failed (status : Nat) (body : Octets)

/-- What is done with the response of a request: the calls of the middleware, the
handler and the error handlers, and how they end. -/
structure Handling where
  calls : List ResponseCall
  outcome : Outcome

namespace Handling

variable (toLowerCase : Text → Text)

def final (handling : Handling) : ResponseState :=
  handling.calls.foldl (ResponseState.call toLowerCase) acquireResponseState

/-- The stream that the dispatch starts, if the handlers have returned. -/
def startedStream (handling : Handling) : Option Nat :=
  match handling.outcome with
  | .returned => (handling.final toLowerCase).streamId
  | .failed _ _ => none

/-- The snapshot that is encoded. `finalizeError` falls back on the error where
nothing was finished, and on an internal error where the response cannot be
encoded. -/
def sentSnapshot (handling : Handling) : Snapshot :=
  let own := (handling.final toLowerCase).snapshot
  match handling.outcome with
  | .returned => own
  | .failed status body =>
      if (handling.final toLowerCase).finished then
        if (encodeResponseEnvelope own).toOption.isSome then own
        else defaultErrorSnapshot 500 body
      else
        defaultErrorSnapshot status body

/-- What the dispatch resolves to; nothing when it is rejected. -/
def envelope (handling : Handling) : Option Octets :=
  match handling.startedStream toLowerCase with
  | some streamId =>
      some (encodeStreamStartEnvelope streamId (handling.sentSnapshot toLowerCase))
  | none => (encodeResponseEnvelope (handling.sentSnapshot toLowerCase)).toOption

end Handling

end Response
end HttpNative
