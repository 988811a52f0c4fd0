import HttpNative.Envelope.RequestEnvelope

/-!
# Event envelopes

The events of WebSocket connections share the dispatcher with the requests. They
are told apart by their first octet.
-/

namespace HttpNative
namespace Envelope

open LittleEndian (write)
open OctetReader (Reads)

def eventSentinel : UInt8 := 0xFE

/-- What stands before the data of an event. -/
def eventHead (eventType : UInt8) (wsId : UInt64) (handlerId : UInt32) (dataLen : Nat) : Octets :=
  [eventSentinel] ++ ([eventType] ++ (write 8 wsId.toNat ++ (write 4 handlerId.toNat ++
    write 4 dataLen)))

/-- `build_ws_event_envelope`. -/
def buildWsEventEnvelope
    (eventType : UInt8)
    (wsId : UInt64)
    (handlerId : UInt32)
    (data : Octets) :
    Octets :=
  eventHead eventType wsId handlerId data.length ++ data

/-- The dispatcher takes the buffer for an event. -/
def isWebSocketEvent (buffer : Octets) : Bool :=
  buffer.head? = some eventSentinel

/-- `Number` of a BigInt: the nearest number of 53 significant bits, and the even
one of two. -/
def numberOfBigInt (value : Nat) : Nat :=
  let unit := 1 <<< (value.log2 - 52)
  let below := value / unit
  let rest := value % unit
  if unit < 2 * rest ∨ unit = 2 * rest ∧ below % 2 = 1 then
    (below + 1) * unit
  else
    below * unit

structure DecodedEvent where
  eventType : Nat
  wsId : Nat
  handlerId : Nat
  data : Option Octets
deriving DecidableEq

/-- The numbers of an event; a buffer that is too short is a range error. -/
def readEventHead : OctetReader Unit (Nat × Nat × Nat × Nat) := do
  OctetReader.skip 1
  let eventType ← OctetReader.number () 1
  let wsId ← OctetReader.number () 8
  let handlerId ← OctetReader.number () 4
  let dataLen ← OctetReader.number () 4
  pure (eventType, numberOfBigInt wsId, handlerId, dataLen)

/-- What the dispatcher reads off an event. -/
def decodeWsEvent (buffer : Octets) : Except Unit DecodedEvent :=
  (readEventHead.run buffer).map fun (eventType, wsId, handlerId, dataLen) =>
    { eventType, wsId, handlerId
      data := if dataLen > 0 then some ((buffer.drop 18).take dataLen) else none }

/-- Numbers up to two to the power of 53 are kept. -/
theorem numberOfBigInt_of_le
    {value : Nat}
    (small : value ≤ 9007199254740992) :
    numberOfBigInt value = value := by
  by_cases largest : value = 9007199254740992
  · rw [largest]
    rfl
  · have shift : value.log2 - 52 = 0 := by
      by_cases zero : value = 0
      · rw [zero]
        rfl
      · have bits : value.log2 < 53 := (Nat.log2_lt zero).mpr (by omega)
        omega
    simp only [numberOfBigInt, shift, Nat.shiftLeft_zero, Nat.div_one, Nat.mod_one]
    rw [if_neg (by omega), Nat.mul_one]

theorem reads_readEventHead
    (eventType : UInt8)
    (wsId : UInt64)
    (handlerId : UInt32)
    (dataLen : Nat) :
    Reads readEventHead (eventHead eventType wsId handlerId dataLen)
      (eventType.toNat, numberOfBigInt wsId.toNat, handlerId.toNat,
        dataLen % LittleEndian.limit 4) :=
  (OctetReader.reads_skip [eventSentinel]).bind
    ((OctetReader.reads_octet _ eventType).bind
      ((OctetReader.reads_number _ wsId.toNat_lt).bind
        ((OctetReader.reads_number _ handlerId.toNat_lt).bind
          ((OctetReader.reads_number_mod _ 4 dataLen).bind_pure _))))

/-- An event comes back with its id as a number, and with as much of its data as
the length says. -/
theorem decodeWsEvent_buildWsEventEnvelope
    (eventType : UInt8)
    (wsId : UInt64)
    (handlerId : UInt32)
    (data : Octets) :
    decodeWsEvent (buildWsEventEnvelope eventType wsId handlerId data) =
      .ok ⟨eventType.toNat, numberOfBigInt wsId.toNat, handlerId.toNat,
        bodyOf (data.take (data.length % LittleEndian.limit 4))⟩ := by
  have read := (reads_readEventHead eventType wsId handlerId data.length).run_append data
  have headLength : (eventHead eventType wsId handlerId data.length).length = 18 := by
    simp [eventHead]
  have body : ∀ length ≤ data.length,
      (if length > 0 then some (data.take length) else none) = bodyOf (data.take length) := by
    intro length within
    cases length with
    | zero => simp [bodyOf]
    | succ length =>
        cases data with
        | nil => simp at within
        | cons octet rest => simp [bodyOf]
  rw [decodeWsEvent, buildWsEventEnvelope, read, ← body _ (Nat.mod_le _ _), ← headLength]
  simp only [Except.map, List.drop_left]

/-! ## Both kinds together -/

theorem isWebSocketEvent_buildWsEventEnvelope
    (eventType : UInt8)
    (wsId : UInt64)
    (handlerId : UInt32)
    (data : Octets) :
    isWebSocketEvent (buildWsEventEnvelope eventType wsId handlerId data) = true :=
  rfl

theorem isWebSocketEvent_of_buildEnvelope
    {methodCode : UInt8} {flags headerCount : Nat} {handlerId : UInt32}
    {url path ip body envelope : Octets} {paramValues : List Octets} {headers : List Header}
    (built : buildEnvelope methodCode flags handlerId url path ip paramValues headerCount headers
      body = .ok envelope) :
    isWebSocketEvent envelope = false := by
  rw [(of_buildEnvelope built).2]
  rfl

/-- Accepted requests are decoded to what was sent, and none is taken for an event;
every event is taken for one, and is decoded to what was sent when its id is a
JavaScript number and its data has a length of 32 bits. -/
theorem envelopes_decode :
    (∀ (route : MatchedRoute) (methodCode : UInt8) (path url : Octets) (headers : List Header)
        (body : Octets) (peerIp : Option Octets) (envelope : Octets),
      methodCode.toNat ≤ 7 → body.length < 4294967296 →
      buildDispatchEnvelope route methodCode path url headers body peerIp = .ok envelope →
      decodeRequestEnvelope.run envelope =
          .ok (dispatchedRequest route methodCode path url headers body peerIp) ∧
        isWebSocketEvent envelope = false) ∧
    (∀ (methodCode : UInt8) (path url : Octets) (headers : List Header) (body : Octets)
        (peerIp : Option Octets) (envelope : Octets),
      methodCode.toNat ≤ 7 → body.length < 4294967296 →
      buildNotFoundDispatchEnvelope methodCode path url headers body peerIp = .ok envelope →
      decodeRequestEnvelope.run envelope =
          .ok (notFoundRequest methodCode path url headers body peerIp) ∧
        isWebSocketEvent envelope = false) ∧
    (∀ (eventType : UInt8) (wsId : UInt64) (handlerId : UInt32) (data : Octets),
      isWebSocketEvent (buildWsEventEnvelope eventType wsId handlerId data) = true ∧
        (wsId.toNat ≤ 9007199254740992 → data.length < 4294967296 →
          decodeWsEvent (buildWsEventEnvelope eventType wsId handlerId data) =
            .ok ⟨eventType.toNat, wsId.toNat, handlerId.toNat, bodyOf data⟩)) := by
  refine ⟨?_, ?_, ?_⟩
  · intro route methodCode path url headers body peerIp envelope known bodyFits built
    exact ⟨decode_buildDispatchEnvelope known bodyFits built,
      isWebSocketEvent_of_buildEnvelope built⟩
  · intro methodCode path url headers body peerIp envelope known bodyFits built
    exact ⟨decode_buildNotFoundDispatchEnvelope known bodyFits built,
      isWebSocketEvent_of_buildEnvelope built⟩
  · intro eventType wsId handlerId data
    refine ⟨isWebSocketEvent_buildWsEventEnvelope eventType wsId handlerId data, ?_⟩
    intro isNumber dataFits
    have whole : data.length % LittleEndian.limit 4 = data.length := Nat.mod_eq_of_lt dataFits
    rw [decodeWsEvent_buildWsEventEnvelope, numberOfBigInt_of_le isNumber, whole, List.take_length]

def searchRoute : MatchedRoute where
  handlerId := 7
  paramNames := [octets "id"]
  paramValues := [octets "5"]
  headerKeys := [octets "accept"]
  fullHeaders := false
  needsPath := true
  needsUrl := false
  needsQuery := true

/-- A request that is accepted, and a message. -/
theorem envelopes_decode_search :
    (∃ envelope, buildDispatchEnvelope searchRoute 1 (octets "/items/5") (octets "/items/5?q")
          [(octets "Accept", octets "*/*"), (octets "host", octets "a")] []
          (some (octets "::1")) = .ok envelope ∧
        decodeRequestEnvelope.run envelope =
          .ok ⟨7, 1, 1, octets "/items/5?q", octets "/items/5", octets "::1", [octets "5"],
            [(octets "Accept", octets "*/*")], none⟩) ∧
      decodeWsEvent (buildWsEventEnvelope 2 3 7 (octets "hi")) =
        .ok ⟨2, 3, 7, some (octets "hi")⟩ :=
  ⟨⟨_, rfl, (envelopes_decode.1 searchRoute 1 (octets "/items/5") (octets "/items/5?q")
      [(octets "Accept", octets "*/*"), (octets "host", octets "a")] [] (some (octets "::1")) _
      (by decide) (by decide) rfl).1⟩,
    (envelopes_decode.2.2 2 3 7 (octets "hi")).2 (by decide) (by decide)⟩

/-- An event comes back as it was, whatever its id and its data are. -/
def EventsExact : Prop :=
  ∀ (eventType : UInt8) (wsId : UInt64) (handlerId : UInt32) (data : Octets),
    decodeWsEvent (buildWsEventEnvelope eventType wsId handlerId data) =
      .ok ⟨eventType.toNat, wsId.toNat, handlerId.toNat, bodyOf data⟩

/-- Two ids next to each other become one number, and the length of a message
that is as long as its field can count becomes zero. -/
theorem not_eventsExact :
    (¬ ∀ wsId : UInt64, ∃ data, decodeWsEvent (buildWsEventEnvelope 1 wsId 0 []) =
        .ok ⟨1, wsId.toNat, 0, data⟩) ∧
      (¬ ∀ data : Octets, decodeWsEvent (buildWsEventEnvelope 2 1 0 data) =
        .ok ⟨2, 1, 0, bodyOf data⟩) ∧
      ¬ EventsExact := by
  have ids : ¬ ∀ wsId : UInt64, ∃ data, decodeWsEvent (buildWsEventEnvelope 1 wsId 0 []) =
      .ok ⟨1, wsId.toNat, 0, data⟩ := by
    intro exact
    obtain ⟨data, decoded⟩ := exact 9007199254740993
    rw [decodeWsEvent_buildWsEventEnvelope] at decoded
    have same : numberOfBigInt 9007199254740993 = 9007199254740993 :=
      congrArg DecodedEvent.wsId (Except.ok.inj decoded)
    exact absurd same (by decide)
  refine ⟨ids, ?_, fun exact => ids fun wsId => ⟨_, exact 1 wsId 0 []⟩⟩
  intro exact
  have decoded := exact (List.replicate 4294967296 0)
  rw [decodeWsEvent_buildWsEventEnvelope] at decoded
  have lost : (List.replicate 4294967296 (0 : UInt8)).length % LittleEndian.limit 4 = 0 := by
    rw [List.length_replicate]
    rfl
  rw [lost, List.take_zero] at decoded
  have same : bodyOf [] = bodyOf (List.replicate 4294967296 0) :=
    congrArg DecodedEvent.data (Except.ok.inj decoded)
  rw [bodyOf, bodyOf, List.isEmpty_nil, if_pos rfl, List.isEmpty_replicate, if_neg (by decide)]
    at same
  cases same

end Envelope
end HttpNative
