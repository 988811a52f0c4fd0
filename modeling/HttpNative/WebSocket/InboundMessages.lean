import HttpNative.Bridge.RequestReaders
import HttpNative.Envelope.EventEnvelope
import HttpNative.WebSocket.OutboundMessages

/-!
# Messages of a client

A client sends messages in one frame or in several. What it has sent lies in the
socket until the task of its connection reads it, and the handler gets what the
dispatcher makes of the frames.
-/

namespace HttpNative
namespace WebSocket

open Streaming (StreamMessage)
open Envelope (DecodedEvent decodeWsEvent buildWsEventEnvelope)

def opcodeContinuation : UInt8 := 0x0

/-! ## The messages of a client -/

/-- A message by the opcode of its first frame and all of its fragments. -/
structure ClientMessage where
  isBinary : Bool
  payload : Octets
deriving DecidableEq

/-- The text of a text message is well formed. -/
def ClientMessage.isValid (message : ClientMessage) : Bool :=
  message.isBinary || Utf8.encode (Utf8.decodeLossy message.payload) = message.payload

/-- What a client has sent, as the protocol reads it. -/
structure Conversation where
  messages : List ClientMessage
  /-- The fragments so far of a message that is not complete. -/
  fragment : Option ClientMessage
  pings : List Octets
  closed : Bool

namespace Conversation

def start : Conversation where
  messages := []
  fragment := none
  pings := []
  closed := false

/-- A message with its last fragment is complete. -/
def extend
    (conversation : Conversation)
    (message : ClientMessage)
    (fin : Bool) :
    Option Conversation :=
  if fin then
    if message.isValid then
      some { conversation with messages := conversation.messages ++ [message], fragment := none }
    else
      none
  else
    some { conversation with fragment := some message }

/-- Data frames follow each other as fragments; control frames stand between them,
whole and short. Nothing follows a close frame. -/
def add
    (conversation : Conversation)
    (frame : ClientFrame) :
    Option Conversation :=
  let opcode := UInt8.ofNat frame.opcode
  if conversation.closed then
    none
  else if opcode = opcodeContinuation then
    conversation.fragment.bind fun message =>
      conversation.extend { message with payload := message.payload ++ frame.payload } frame.fin
  else if opcode = opcodeText ∨ opcode = opcodeBinary then
    if conversation.fragment.isSome then none
    else conversation.extend ⟨opcode = opcodeBinary, frame.payload⟩ frame.fin
  else if frame.fin = false ∨ 125 < frame.payload.length then
    none
  else if opcode = opcodePing then
    some { conversation with pings := conversation.pings ++ [frame.payload] }
  else if opcode = opcodePong then
    some conversation
  else if opcode = opcodeClose then
    some { conversation with closed := true }
  else
    none

end Conversation

/-! ## The events of the dispatcher -/

/-- The argument of a message handler. -/
inductive HandlerMessage where
  | text (textData : Text)
  | binary (data : Octets)
deriving DecidableEq

/-- The message event of the dispatcher. -/
def onWsEvent (event : DecodedEvent) : Option HandlerMessage :=
  match event.eventType with
  | 2 => some (.text ((event.data.map fun data => Bridge.textDecode (Utf8.decodeLossy data)).getD []))
  | 4 => some (.binary (event.data.getD []))
  | _ => none

/-- What the handler gets of a frame that is dispatched. -/
def handlerMessage
    (wsId : UInt64)
    (handlerId : UInt32)
    (payload : Octets) :
    Option HandlerMessage :=
  match decodeWsEvent (buildWsEventEnvelope 2 wsId handlerId payload) with
  | .ok event => onWsEvent event
  | .error _ => none

/-- The message event of a task that waits for the handler. -/
def dispatched
    (wsId : UInt64)
    (handlerId : UInt32) :
    Task →
    List HandlerMessage
  | .dispatching .message payload => (handlerMessage wsId handlerId payload).toList
  | _ => []

/-- The handler gets a message as it was sent. -/
def Brings : HandlerMessage → ClientMessage → Prop
  | .text textData, message => message.isBinary = false ∧ Utf8.encode textData = message.payload
  | .binary data, message => message.isBinary = true ∧ data = message.payload

/-! ## A connection and its client -/

/-- A connection once it is upgraded, what the client has sent, and how many octets
of that have been taken off the socket. -/
structure Inbound where
  connection : Option Connection
  sent : List ClientFrame
  conversation : Conversation
  taken : Nat
  events : List HandlerMessage

inductive InboundEvent where
  | send (frame : ClientFrame)
  /-- The connection is upgraded, with some octets behind the request. -/
  | upgrade (count : Nat)
  | receive (count : Nat)
  | turn (hasSender accepted : Bool)
  | answer
  | stop
  | cleanup
  | streamEnd
  /-- A native call sends to the channel. -/
  | push (message : StreamMessage)

/-- A chunk is copied from a buffer. -/
def isChunk : StreamMessage → Bool
  | .chunk data => data.length < 9007199254740992
  | .end => true

namespace Inbound

def start : Inbound where
  connection := none
  sent := []
  conversation := .start
  taken := 0
  events := []

/-- The octets in the socket. -/
def unread (inbound : Inbound) : Octets :=
  (inbound.sent.flatMap ClientFrame.encode).drop inbound.taken

def onConnection
    (inbound : Inbound)
    (change : Connection → Option Connection) :
    Option Inbound :=
  (inbound.connection.bind change).map fun connection =>
    { inbound with connection := some connection }

/-- Take octets off the socket. -/
def take (inbound : Inbound) (count : Nat) : Inbound :=
  { inbound with taken := inbound.taken + count }

/-- A frame that is dispatched goes to the handler. -/
def dispatch
    (inbound : Inbound)
    (wsId : UInt64)
    (handlerId : UInt32) :
    Inbound :=
  { inbound with
    events := inbound.events ++
      (inbound.connection.map fun connection =>
        dispatched wsId handlerId connection.task).getD [] }

def step
    (wsId : UInt64)
    (handlerId : UInt32)
    (inbound : Inbound) :
    InboundEvent →
    Option Inbound
  | .send frame =>
      (inbound.conversation.add frame).map fun conversation =>
        { inbound with sent := inbound.sent ++ [frame], conversation }
  | .upgrade count =>
      if inbound.connection.isNone ∧ count ≤ inbound.unread.length then
        some { inbound.take count with
          connection := some { Connection.opened with buffer := inbound.unread.take count } }
      else
        none
  | .receive count =>
      if count ≤ inbound.unread.length then
        (inbound.take count).onConnection (·.receive (inbound.unread.take count))
      else
        none
  | .turn hasSender accepted =>
      (inbound.onConnection fun connection =>
        if connection.task = .looping then some (connection.turn hasSender accepted)
        else none).map (·.dispatch wsId handlerId)
  | .answer => inbound.onConnection (·.answer)
  | .stop => inbound.onConnection (·.stop)
  | .cleanup => inbound.onConnection (·.cleanup)
  | .streamEnd => inbound.onConnection fun connection => some { connection with registered := false }
  | .push message =>
      if isChunk message then
        inbound.onConnection fun connection =>
          (connection.channel.send message).map ({ connection with channel := · })
      else
        none

end Inbound

def inboundMachine
    (wsId : UInt64)
    (handlerId : UInt32) :
    Machine Inbound InboundEvent where
  start := .start
  step := Inbound.step wsId handlerId

/-! ## What the client may expect -/

/-- A row answers pings when its pongs have their payloads. -/
def Answers
    (row : Octets)
    (pings : List Octets) :
    Prop :=
  ∃ frames, ReadsFrames row frames ∧
    frames.filter (fun frame => frame.opcode = opcodePong) =
      pings.map fun payload => ⟨true, opcodePong, payload⟩

/-- The handler gets the messages in order, and pings are answered in order; none
is left once the task waits for more than the client has sent. -/
structure Receives
    (inbound : Inbound)
    (connection : Connection) :
    Prop where
  inOrder : ∃ messages, messages <+: inbound.conversation.messages ∧
    List.Forall₂ Brings inbound.events messages
  answered : ∃ pings, pings <+: inbound.conversation.pings ∧ Answers connection.written pings
  complete : connection.task = .reading → inbound.unread = [] →
    List.Forall₂ Brings inbound.events inbound.conversation.messages ∧
      Answers connection.written inbound.conversation.pings

/-- A frame that is no part of a message, or a whole text that is not too long and
does not begin with a byte order mark. -/
def ClientFrame.IsPlain (frame : ClientFrame) : Prop :=
  8 ≤ frame.opcode.val ∨
    (UInt8.ofNat frame.opcode = opcodeText ∧ frame.fin = true ∧
      frame.payload.length ≤ maxPayloadSize ∧
        (Utf8.decodeLossy frame.payload).head? ≠ some Bridge.byteOrderMark)

instance (frame : ClientFrame) : Decidable frame.IsPlain :=
  inferInstanceAs (Decidable (_ ∨ _))

/-- A read ends where a frame ends. -/
def Inbound.EndsFrame
    (inbound : Inbound)
    (count : Nat) :
    Prop :=
  ∃ whole ∈ List.range (inbound.sent.length + 1),
    inbound.taken + count = ((inbound.sent.take whole).flatMap ClientFrame.encode).length

instance (inbound : Inbound) (count : Nat) : Decidable (inbound.EndsFrame count) :=
  inferInstanceAs (Decidable (∃ whole ∈ _, _))

/-- Messages are texts in one frame, nothing comes with the upgrade, and reads end
where frames end. -/
def WholeTexts (inbound : Inbound) : InboundEvent → Prop
  | .send frame => frame.IsPlain
  | .upgrade count => count = 0
  | .receive count => inbound.EndsFrame count
  | _ => True

instance (inbound : Inbound) (event : InboundEvent) : Decidable (WholeTexts inbound event) := by
  cases event <;> unfold WholeTexts <;> infer_instance

end WebSocket
end HttpNative
