import HttpNative.Library.Utf8
import HttpNative.WebSocket.ConnectionSteps
import HttpNative.WebSocket.FrameCoding

/-!
# Messages of the handlers on the wire

What `ws.send` and `ws.publish` pass on goes through the channel of a connection
as a chunk. The task frames every chunk as text, and a published chunk is a frame
already.
-/

namespace HttpNative
namespace WebSocket

open Streaming (StreamMessage)

/-! ## The calls of the handlers -/

/-- A string of JavaScript by its code points, where `none` is a lone surrogate. -/
abbrev CodePoints := List (Option Char)

/-- The argument of `ws.send` and `ws.publish`. -/
inductive Payload where
  | string (msg : CodePoints)
  | buffer (data : Octets)
deriving DecidableEq

/-- `Buffer.from(msg)`. -/
def Payload.chunk : Payload → Octets
  | .string msg => Utf8.encode (msg.map (·.getD Utf8.replacement))
  | .buffer data => data

/-- A buffer has less than `2 ^ 53` octets. -/
structure OutMessage where
  payload : Payload
  fits : payload.chunk.length < 9007199254740992

namespace OutMessage

def chunk (message : OutMessage) : Octets :=
  message.payload.chunk

def isString (message : OutMessage) : Bool :=
  match message.payload with
  | .string _ => true
  | .buffer _ => false

/-- The frame that a message should come as. -/
def frame (message : OutMessage) : WsFrame where
  fin := true
  opcode :=
    match message.payload with
    | .string _ => opcodeText
    | .buffer _ => opcodeBinary
  payload := message.chunk

end OutMessage

/-- The connections, and the messages of the calls that went to each of them. -/
structure Messaging where
  system : SocketSystem
  addressed : Nat → List OutMessage

inductive MessagingEvent where
  | send (id : Nat) (message : OutMessage)
  | publish (topic : Text) (message : OutMessage) (order : List Nat)
  | other (event : SocketEvent)

/-- The events of the calls that pass data on. -/
def SocketEvent.passesData : SocketEvent → Bool
  | .streamWrite _ _ => true
  | .wsPublish _ _ _ => true
  | _ => false

namespace Messaging

/-- A call goes to the connections among its targets that are registered. -/
def addressing
    (messaging : Messaging)
    (message : OutMessage)
    (targets : List Nat)
    (next : SocketSystem) :
    Messaging where
  system := next
  addressed := fun id =>
    if id ∈ targets ∧ messaging.system.isRegistered id then
      messaging.addressed id ++ [message]
    else
      messaging.addressed id

def step
    (messaging : Messaging) :
    MessagingEvent →
    Option Messaging
  | .send id message =>
      (messaging.system.step (.streamWrite id message.chunk)).map
        (messaging.addressing message [id])
  | .publish topic message order =>
      (messaging.system.step (.wsPublish topic message.chunk order)).map
        (messaging.addressing message order)
  | .other event =>
      if event.passesData then none
      else (messaging.system.step event).map ({ messaging with system := · })

end Messaging

def messagingMachine : Machine Messaging MessagingEvent where
  start := { system := socketMachine.start, addressed := fun _ => [] }
  step := Messaging.step

/-! ## What the client reads -/

/-- A row is made up of frames. -/
inductive ReadsFrames : Octets → List WsFrame → Prop
  | nil : ReadsFrames [] []
  | cons {row rest : Octets} {frame : WsFrame} {frames : List WsFrame} :
      readServerFrame row = some (frame, rest) →
      ReadsFrames rest frames →
      ReadsFrames row (frame :: frames)

/-- Data frames, as against control frames. -/
def WsFrame.isData (frame : WsFrame) : Bool :=
  frame.opcode.toNat < 8

/-- The task may still write for the client. -/
def Task.inService : Task → Bool
  | .dispatching .close _ => false
  | .leaving => false
  | .gone => false
  | _ => true

/-- A row carries messages in its data frames. -/
def Carries
    (row : Octets)
    (messages : List OutMessage) :
    Prop :=
  ∃ frames, ReadsFrames row frames ∧ frames.filter WsFrame.isData = messages.map OutMessage.frame

/-- A connection has its messages in the order of the calls, and it has all of
them when none is on its way. -/
structure Delivers
    (messaging : Messaging)
    (id : Nat)
    (connection : Connection) :
    Prop where
  inOrder : ∃ messages, messages <+: messaging.addressed id ∧ Carries connection.written messages
  complete : connection.task.inService = true → connection.channel.queue = [] →
    (∀ send ∈ messaging.system.calls, send.target ≠ id) →
    Carries connection.written (messaging.addressed id)

/-- The loop of `ws_publish` does not find the sender that it looks up. -/
def SocketSystem.FindsNoSubscriber (system : SocketSystem) : Prop :=
  ∀ send, system.calls.head? = some send → send.found = false →
    system.isRegistered send.target = false

instance (system : SocketSystem) : Decidable system.FindsNoSubscriber := by
  unfold SocketSystem.FindsNoSubscriber
  infer_instance

/-- Strings are sent, and nothing that is published finds a subscriber. -/
def SendsStrings (messaging : Messaging) : MessagingEvent → Prop
  | .send id message => messaging.system.isRegistered id = true → message.isString = true
  | .other .progress => messaging.system.FindsNoSubscriber
  | _ => True

instance (messaging : Messaging) :
    (event : MessagingEvent) → Decidable (SendsStrings messaging event)
  | .send id message =>
      inferInstanceAs
        (Decidable (messaging.system.isRegistered id = true → message.isString = true))
  | .publish _ _ _ => .isTrue trivial
  | .other .progress => inferInstanceAs (Decidable messaging.system.FindsNoSubscriber)
  | .other .connect | .other (.answer _) | .other (.turn _ _) => .isTrue trivial
  | .other (.receive _ _) | .other (.stop _) | .other (.cleanup _) => .isTrue trivial
  | .other (.streamWrite _ _) | .other (.streamEnd _) => .isTrue trivial
  | .other (.wsPublish _ _ _) => .isTrue trivial
  | .other (.wsSubscribe _ _) | .other (.wsUnsubscribe _ _) => .isTrue trivial

/-! ## Rows of frames -/

theorem ReadsFrames.append
    {row more : Octets} {frames others : List WsFrame}
    (reads : ReadsFrames row frames)
    (readsMore : ReadsFrames more others) :
    ReadsFrames (row ++ more) (frames ++ others) := by
  induction reads with
  | nil => exact readsMore
  | cons read rest hypothesis => exact .cons (readServerFrame_append read more) hypothesis

/-- A row is read in one way. -/
theorem ReadsFrames.unique
    {row : Octets} {frames others : List WsFrame}
    (reads : ReadsFrames row frames)
    (readsOthers : ReadsFrames row others) :
    frames = others := by
  induction reads generalizing others with
  | nil =>
      cases readsOthers with
      | nil => rfl
      | cons read rest => cases read
  | cons read rest hypothesis =>
      cases readsOthers with
      | nil => cases read
      | cons otherRead otherRest =>
          cases read.symm.trans otherRead
          rw [hypothesis otherRest]

theorem readsFrames_encodeFrame
    (opcode : Fin 16)
    {payload : Octets}
    (fits : payload.length < LittleEndian.limit 8) :
    ReadsFrames (encodeFrame (UInt8.ofNat opcode) payload)
      [⟨true, UInt8.ofNat opcode, payload⟩] := by
  have read := readServerFrame_encodeFrame opcode fits []
  rw [List.append_nil] at read
  exact .cons read .nil

theorem carries_nil : Carries [] [] :=
  ⟨[], .nil, rfl⟩

/-- A control frame carries no message. -/
theorem Carries.control
    {row payload : Octets} {messages : List OutMessage} {opcode : Fin 16}
    (carries : Carries row messages)
    (isControl : 8 ≤ opcode.val)
    (fits : payload.length < LittleEndian.limit 8) :
    Carries (row ++ encodeFrame (UInt8.ofNat opcode) payload) messages := by
  obtain ⟨frames, reads, carried⟩ := carries
  refine ⟨_, reads.append (readsFrames_encodeFrame opcode fits), ?_⟩
  have notData : (⟨true, UInt8.ofNat opcode, payload⟩ : WsFrame).isData = false := by
    rw [WsFrame.isData, UInt8.toNat_ofNat', Nat.mod_eq_of_lt (by omega)]
    exact decide_eq_false (by omega)
  rw [List.filter_append, carried, List.filter_cons_of_neg (by rw [notData]; decide),
    List.filter_nil, List.append_nil]

theorem OutMessage.frame_of_isString
    {message : OutMessage}
    (isString : message.isString = true) :
    message.frame = ⟨true, opcodeText, message.chunk⟩ := by
  unfold OutMessage.isString at isString
  unfold OutMessage.frame
  split at isString
  · rfl
  · cases isString

theorem OutMessage.chunk_fits
    (message : OutMessage) :
    message.chunk.length < LittleEndian.limit 8 :=
  Nat.lt_trans message.fits (by decide)

/-- A string that is sent comes as its frame. -/
theorem Carries.message
    {row : Octets} {messages : List OutMessage} {message : OutMessage}
    (carries : Carries row messages)
    (isString : message.isString = true) :
    Carries (row ++ encodeFrame opcodeText message.chunk) (messages ++ [message]) := by
  obtain ⟨frames, reads, carried⟩ := carries
  refine ⟨_, reads.append (readsFrames_encodeFrame 1 message.chunk_fits), ?_⟩
  rw [List.filter_append, carried, List.map_append, List.map_singleton,
    OutMessage.frame_of_isString isString]
  rfl

/-! ## What comes otherwise -/

theorem carries_singleton_iff
    {chunk : Octets}
    (fits : chunk.length < LittleEndian.limit 8)
    (message : OutMessage) :
    Carries (encodeFrame opcodeText chunk) [message] ↔
      message.frame = ⟨true, opcodeText, chunk⟩ := by
  have reads : ReadsFrames (encodeFrame opcodeText chunk) [⟨true, opcodeText, chunk⟩] :=
    readsFrames_encodeFrame 1 fits
  constructor
  · rintro ⟨frames, readsFrames, carried⟩
    cases readsFrames.unique reads
    exact (List.cons.inj carried).1.symm
  · intro isFrame
    refine ⟨_, reads, ?_⟩
    rw [List.map_singleton, isFrame]
    rfl

/-- A message that is sent comes as it is just when it is a string. -/
theorem carries_sent_iff
    (message : OutMessage) :
    Carries (encodeFrame opcodeText message.chunk) [message] ↔ message.isString = true := by
  rw [carries_singleton_iff message.chunk_fits]
  constructor
  · intro isFrame
    unfold OutMessage.frame at isFrame
    unfold OutMessage.isString
    split
    · rfl
    · rename_i data isBuffer
      rw [isBuffer] at isFrame
      have differ : opcodeBinary ≠ opcodeText := by decide
      exact absurd (WsFrame.mk.inj isFrame).2.1 differ
  · exact OutMessage.frame_of_isString

theorem length_encodeFrame
    (opcode : UInt8)
    (payload : Octets) :
    payload.length + 2 ≤ (encodeFrame opcode payload).length ∧
      (encodeFrame opcode payload).length ≤ payload.length + 10 := by
  unfold encodeFrame
  split_ifs <;> simp only [List.length_cons, List.length_append, length_bigEndian, List.length_nil]
    <;> omega

/-- A message that is published never comes as it is. -/
theorem not_carries_published
    (message : OutMessage) :
    ¬ Carries (encodeFrame opcodeText (encodeFrame opcodeText message.chunk)) [message] := by
  obtain ⟨atLeast, atMost⟩ := length_encodeFrame opcodeText message.chunk
  have fits : (encodeFrame opcodeText message.chunk).length < LittleEndian.limit 8 := by
    have short : message.chunk.length < 9007199254740992 := message.fits
    have limit : 9007199254740992 + 10 < LittleEndian.limit 8 := by decide
    omega
  rw [carries_singleton_iff fits]
  intro isFrame
  have length := congrArg (fun frame => frame.payload.length) isFrame
  have unchanged : message.frame.payload = message.chunk := rfl
  simp only [unchanged] at length
  omega

end WebSocket
end HttpNative
