import HttpNative.WebSocket.InboundMessages

/-!
# Runs with inbound messages

While messages are whole texts and reads end where frames end, the frames of the
client are handled one after the other, and the buffer has the frames that are read
and not handled yet.
-/

namespace HttpNative
namespace WebSocket

open Streaming (StreamMessage)
open Envelope (decodeWsEvent_buildWsEventEnvelope)

variable {wsId : UInt64} {handlerId : UInt32}

/-! ## Frames that are plain -/

/-- The frames of a client whose messages are whole texts. -/
inductive Expected (frame : ClientFrame) : Prop
  | text (isText : UInt8.ofNat frame.opcode = opcodeText)
      (small : frame.payload.length ≤ maxPayloadSize)
      (noMark : (Utf8.decodeLossy frame.payload).head? ≠ some Bridge.byteOrderMark)
      (valid : Utf8.encode (Utf8.decodeLossy frame.payload) = frame.payload)
  | ping (isPing : UInt8.ofNat frame.opcode = opcodePing)
      (short : frame.payload.length ≤ 125)
  | pong (isPong : UInt8.ofNat frame.opcode = opcodePong)
      (short : frame.payload.length ≤ 125)
  | close (isClose : UInt8.ofNat frame.opcode = opcodeClose)
      (short : frame.payload.length ≤ 125)

def messageOf (frame : ClientFrame) : Option ClientMessage :=
  if UInt8.ofNat frame.opcode = opcodeText then some ⟨false, frame.payload⟩ else none

def pingOf (frame : ClientFrame) : Option Octets :=
  if UInt8.ofNat frame.opcode = opcodePing then some frame.payload else none

theorem Expected.small
    {frame : ClientFrame}
    (expected : Expected frame) :
    frame.payload.length ≤ maxPayloadSize := by
  have enough : 125 ≤ maxPayloadSize := by decide
  cases expected with
  | text isText small noMark valid => exact small
  | ping isPing short => exact Nat.le_trans short enough
  | pong isPong short => exact Nat.le_trans short enough
  | close isClose short => exact Nat.le_trans short enough

theorem filterMap_concat
    {Item Image : Type}
    (image : Item → Option Image)
    (items : List Item)
    (last : Item) :
    (items ++ [last]).filterMap image = items.filterMap image ++ (image last).toList := by
  rw [List.filterMap_append]
  cases found : image last <;> simp [found]

/-- The conversation is what the frames make up. -/
structure Understood
    (sent : List ClientFrame)
    (conversation : Conversation) :
    Prop where
  fragment : conversation.fragment = none
  messages : conversation.messages = sent.filterMap messageOf
  pings : conversation.pings = sent.filterMap pingOf
  expected : ∀ frame ∈ sent, Expected frame

theorem not_data_of_control
    {frame : ClientFrame}
    (isControl : 8 ≤ frame.opcode.val) :
    UInt8.ofNat frame.opcode ≠ opcodeContinuation ∧ UInt8.ofNat frame.opcode ≠ opcodeText ∧
      UInt8.ofNat frame.opcode ≠ opcodeBinary := by
  generalize frame.opcode = opcode at isControl
  revert opcode
  decide

theorem not_control_of_text
    {opcode : UInt8}
    (isText : opcode = opcodeText) :
    opcode ≠ opcodeContinuation ∧ opcode ≠ opcodePing := by
  rw [isText]
  decide

/-- A plain frame that the client may send. -/
theorem Understood.send
    {sent : List ClientFrame} {conversation next : Conversation} {frame : ClientFrame}
    (understood : Understood sent conversation)
    (plain : frame.IsPlain)
    (added : conversation.add frame = some next) :
    Understood (sent ++ [frame]) next := by
  obtain ⟨fragment, messages, pings, expected⟩ := understood
  have expectedAll : Expected frame → ∀ other ∈ sent ++ [frame], Expected other := by
    intro isExpected other isMember
    cases List.mem_append.mp isMember with
    | inl isEarlier => exact expected other isEarlier
    | inr isLast =>
        cases List.mem_singleton.mp isLast
        exact isExpected
  unfold Conversation.add at added
  dsimp only at added
  split at added
  · cases added
  · cases plain with
    | inl isControl =>
        obtain ⟨notContinuation, notText, notBinary⟩ := not_data_of_control isControl
        have noMessage : messageOf frame = none := if_neg notText
        rw [if_neg notContinuation, if_neg (not_or.mpr ⟨notText, notBinary⟩)] at added
        rw [Option.ite_none_left_eq_some] at added
        obtain ⟨whole, added⟩ := added
        have short : frame.payload.length ≤ 125 := by
          by_contra long
          exact whole (.inr (by omega))
        have messagesStay : conversation.messages =
            (sent ++ [frame]).filterMap messageOf := by
          rw [filterMap_concat, noMessage, messages]
          exact (List.append_nil _).symm
        have pingsStay : UInt8.ofNat frame.opcode ≠ opcodePing → conversation.pings =
            (sent ++ [frame]).filterMap pingOf := by
          intro notPing
          have notPinged : pingOf frame = none := if_neg notPing
          rw [filterMap_concat, notPinged, pings]
          exact (List.append_nil _).symm
        split_ifs at added with isPing isPong isClose
        · cases added
          refine ⟨fragment, messagesStay, ?_, expectedAll (.ping isPing short)⟩
          have isPinged : pingOf frame = some frame.payload := if_pos isPing
          rw [filterMap_concat, isPinged, ← pings]
          rfl
        · cases added
          exact ⟨fragment, messagesStay, pingsStay isPing, expectedAll (.pong isPong short)⟩
        · cases added
          exact ⟨fragment, messagesStay, pingsStay isPing, expectedAll (.close isClose short)⟩
    | inr isWhole =>
        obtain ⟨isText, isFin, small, noMark⟩ := isWhole
        obtain ⟨notContinuation, notPing⟩ := not_control_of_text isText
        have notBinary : opcodeText ≠ opcodeBinary := by decide
        rw [if_neg notContinuation, if_pos (.inl isText), fragment, Option.isSome_none,
          if_neg Bool.false_ne_true, Conversation.extend, if_pos isFin,
          Option.ite_none_right_eq_some, isText, decide_eq_false notBinary] at added
        obtain ⟨valid, added⟩ := added
        cases added
        have isMessage : messageOf frame = some ⟨false, frame.payload⟩ := if_pos isText
        have notPinged : pingOf frame = none := if_neg notPing
        refine ⟨rfl, ?_, ?_, expectedAll (.text isText small noMark ?_)⟩
        · rw [filterMap_concat, isMessage, ← messages]
          rfl
        · rw [filterMap_concat, notPinged, pings]
          exact (List.append_nil _).symm
        · simpa [ClientMessage.isValid] using valid

/-! ## Texts that are dispatched -/

theorem handlerMessage_eq
    {payload : Octets}
    (fits : payload.length < LittleEndian.limit 4) :
    handlerMessage wsId handlerId payload =
      some (.text (Bridge.textDecode (Utf8.decodeLossy payload))) := by
  rw [handlerMessage, decodeWsEvent_buildWsEventEnvelope, Nat.mod_eq_of_lt fits, List.take_length]
  cases payload with
  | nil => rfl
  | cons octet rest => rfl

theorem textDecode_of_noMark
    {input : Text}
    (noMark : input.head? ≠ some Bridge.byteOrderMark) :
    Bridge.textDecode input = input := by
  cases input with
  | nil => rfl
  | cons char rest =>
      rw [Bridge.textDecode, if_neg]
      intro isMark
      exact noMark (congrArg some isMark)

/-- A whole text comes as it was sent. -/
theorem exists_handlerMessage
    (wsId : UInt64)
    (handlerId : UInt32)
    {payload : Octets}
    (small : payload.length ≤ maxPayloadSize)
    (noMark : (Utf8.decodeLossy payload).head? ≠ some Bridge.byteOrderMark)
    (valid : Utf8.encode (Utf8.decodeLossy payload) = payload) :
    ∃ message, handlerMessage wsId handlerId payload = some message ∧
      Brings message ⟨false, payload⟩ := by
  have fits : payload.length < LittleEndian.limit 4 := Nat.lt_of_le_of_lt small (by decide)
  refine ⟨_, handlerMessage_eq fits, rfl, ?_⟩
  rw [textDecode_of_noMark noMark]
  exact valid

/-! ## Rows with pongs -/

theorem answers_nil : Answers [] [] :=
  ⟨[], .nil, rfl⟩

theorem Answers.pong
    {row payload : Octets} {pings : List Octets}
    (answers : Answers row pings)
    (fits : payload.length < LittleEndian.limit 8) :
    Answers (row ++ encodeFrame opcodePong payload) (pings ++ [payload]) := by
  obtain ⟨frames, reads, answered⟩ := answers
  refine ⟨_, reads.append (readsFrames_encodeFrame 10 fits), ?_⟩
  rw [List.filter_append, answered, List.map_append, List.map_singleton]
  rfl

/-- A frame that is no pong answers no ping. -/
theorem Answers.other
    {row payload : Octets} {pings : List Octets} {opcode : Fin 16}
    (answers : Answers row pings)
    (notPong : UInt8.ofNat opcode ≠ opcodePong)
    (fits : payload.length < LittleEndian.limit 8) :
    Answers (row ++ encodeFrame (UInt8.ofNat opcode) payload) pings := by
  obtain ⟨frames, reads, answered⟩ := answers
  refine ⟨_, reads.append (readsFrames_encodeFrame opcode fits), ?_⟩
  rw [List.filter_append, answered, List.filter_cons_of_neg (by simpa using notPong),
    List.filter_nil, List.append_nil]

/-- A connection that leaves, with a close frame or without. -/
theorem Answers.close
    {connection : Connection} {pings : List Octets}
    (answers : Answers connection.written pings)
    (accepted : Bool) :
    Answers (connection.write normalClosure accepted).written pings := by
  cases accepted with
  | false => exact answers
  | true =>
      have notPong : UInt8.ofNat (8 : Fin 16) ≠ opcodePong := by decide
      have fits : (bigEndian 2 1000 ++ []).length < LittleEndian.limit 8 := by decide
      exact answers.other notPong fits

/-! ## Turns of the loop -/

/-- What a turn does while the buffer has whole frames. -/
inductive Turned (before after : Connection) (waiting : List ClientFrame) : Prop
  /-- The first frame is handled. -/
  | handled (frame : ClientFrame) (rest : List ClientFrame) (isFirst : waiting = frame :: rest)
      (buffer : after.buffer = rest.flatMap ClientFrame.encode)
      (written : ∀ pings, Answers before.written pings →
        Answers after.written (pings ++ (pingOf frame).toList))
      (task : after.task = match messageOf frame with
        | some message => .dispatching .message message.payload
        | none => .looping)
  | left (task : after.task = .leaving)
      (written : ∀ pings, Answers before.written pings → Answers after.written pings)
  /-- There is no frame in the buffer. -/
  | outbound (nothing : waiting = []) (buffer : after.buffer = before.buffer)
      (task : after.task = .looping ∨ after.task = .reading)
      (written : ∀ pings, Answers before.written pings → Answers after.written pings)

theorem turned_handleFrame
    {connection base : Connection} {frame : ClientFrame} {rest : List ClientFrame}
    (expected : Expected frame)
    (looping : connection.task = .looping)
    (buffer : connection.buffer = rest.flatMap ClientFrame.encode)
    (written : connection.written = base.written)
    (accepted : Bool) :
    Turned base (connection.handleFrame frame.read accepted) (frame :: rest) := by
  have isOpcode : frame.read.opcode = UInt8.ofNat frame.opcode := rfl
  unfold Connection.handleFrame
  rw [isOpcode]
  cases expected with
  | text isText small noMark valid =>
      have isMessage : messageOf frame = some ⟨false, frame.payload⟩ := if_pos isText
      have notPinged : pingOf frame = none := if_neg (not_control_of_text isText).2
      rw [if_pos (.inl isText)]
      refine .handled frame rest rfl buffer ?_ ?_
      · intro pings answers
        rw [notPinged, Option.toList_none, List.append_nil]
        exact written ▸ answers
      · rw [isMessage]
        rfl
  | ping isPing short =>
      have notData : ¬ (opcodePing = opcodeText ∨ opcodePing = opcodeBinary) := by decide
      have noMessage : messageOf frame = none :=
        if_neg fun isText => notData (.inl (isPing.symm.trans isText))
      have isPinged : pingOf frame = some frame.payload := if_pos isPing
      rw [isPing, if_neg notData, if_pos rfl]
      cases accepted with
      | false => exact .left rfl fun pings answers => written ▸ answers
      | true =>
          refine .handled frame rest rfl buffer ?_ ?_
          · intro pings answers
            have fits : frame.payload.length < LittleEndian.limit 8 :=
              Nat.lt_of_le_of_lt short (by decide)
            rw [← written] at answers
            rw [isPinged]
            exact answers.pong fits
          · rw [noMessage]
            exact looping
  | pong isPong short =>
      have notData : ¬ (opcodePong = opcodeText ∨ opcodePong = opcodeBinary) := by decide
      have notPing : opcodePong ≠ opcodePing := by decide
      have notClose : opcodePong ≠ opcodeClose := by decide
      have noMessage : messageOf frame = none :=
        if_neg fun isText => notData (.inl (isPong.symm.trans isText))
      have notPinged : pingOf frame = none :=
        if_neg fun isPing => notPing (isPong.symm.trans isPing)
      rw [isPong, if_neg notData, if_neg notPing, if_neg notClose]
      refine .handled frame rest rfl buffer ?_ ?_
      · intro pings answers
        rw [notPinged, Option.toList_none, List.append_nil]
        exact written ▸ answers
      · rw [noMessage]
        exact looping
  | close isClose short =>
      have notData : ¬ (opcodeClose = opcodeText ∨ opcodeClose = opcodeBinary) := by decide
      have notPing : opcodeClose ≠ opcodePing := by decide
      rw [isClose, if_neg notData, if_neg notPing, if_pos rfl]
      refine .left rfl fun pings answers => ?_
      rw [← written] at answers
      exact answers.close accepted

theorem turned_turn
    {connection : Connection} {waiting : List ClientFrame}
    (expected : ∀ frame ∈ waiting, Expected frame)
    (looping : connection.task = .looping)
    (buffer : connection.buffer = waiting.flatMap ClientFrame.encode)
    (chunks : ∀ message ∈ connection.channel.queue, isChunk message = true)
    (hasSender accepted : Bool) :
    Turned connection (connection.turn hasSender accepted) waiting := by
  unfold Connection.turn
  cases waiting with
  | nil =>
      have noFrame : parseFrame connection.buffer = none := by
        rw [buffer]
        rfl
      simp only [noFrame]
      split
      · rename_i data channel received
        have fits : isChunk (.chunk data) = true := by
          refine chunks _ ?_
          rw [BoundedChannel.queue_of_receive received]
          exact List.mem_cons_self
        cases accepted with
        | false => exact .left rfl fun pings answers => answers
        | true =>
            refine .outbound rfl rfl (.inl looping) fun pings answers => ?_
            have notPong : UInt8.ofNat (1 : Fin 16) ≠ opcodePong := by decide
            have short : data.length < LittleEndian.limit 8 :=
              Nat.lt_trans (of_decide_eq_true fits) (by decide)
            exact answers.other notPong short
      · rename_i channel received
        refine .left rfl fun pings answers => ?_
        exact @Answers.close { connection with channel := channel } pings answers accepted
      · cases hasSender with
        | false => exact .left rfl fun pings answers => answers
        | true => exact .outbound rfl rfl (.inr rfl) fun pings answers => answers
  | cons frame rest =>
      have isExpected := expected frame List.mem_cons_self
      have parsed : parseFrame connection.buffer = some (frame.read, frame.encode.length) := by
        rw [buffer, List.flatMap_cons]
        exact parseFrame_encode frame isExpected.small _
      simp only [parsed]
      refine turned_handleFrame isExpected ?_ ?_ ?_ accepted
      · exact looping
      · rw [buffer, List.flatMap_cons, List.drop_left]
      · rfl

/-! ## The frames that are read and not handled -/

/-- The loop goes on with the buffer as it is. -/
def Task.inLoop : Task → Bool
  | .looping => true
  | .dispatching .message _ => true
  | _ => false

/-- The buffer has the frames that are read behind those that are done. -/
structure Buffered
    (taken : Nat)
    (connection : Connection)
    (done waiting : List ClientFrame) :
    Prop where
  taken : taken = ((done ++ waiting).flatMap ClientFrame.encode).length
  buffer : connection.buffer = waiting.flatMap ClientFrame.encode
  inLoop : waiting ≠ [] → connection.task.inLoop = true

/-- The frames that are done have gone to the handler, or are answered. -/
def InStep
    (sent : List ClientFrame)
    (taken : Nat)
    (events : List HandlerMessage)
    (connection : Connection) :
    Prop :=
  ∃ done rest, sent = done ++ rest ∧ List.Forall₂ Brings events (done.filterMap messageOf) ∧
    Answers connection.written (done.filterMap pingOf) ∧
      (connection.task.inService = true →
        ∃ waiting later, rest = waiting ++ later ∧ Buffered taken connection done waiting)

structure Follows (inbound : Inbound) : Prop where
  understood : Understood inbound.sent inbound.conversation
  fresh : inbound.connection = none → inbound.taken = 0 ∧ inbound.events = []
  chunks : ∀ connection, inbound.connection = some connection →
    ∀ message ∈ connection.channel.queue, isChunk message = true
  inStep : ∀ connection, inbound.connection = some connection →
    InStep inbound.sent inbound.taken inbound.events connection

theorem follows_start : Follows Inbound.start where
  understood := by
    refine ⟨rfl, rfl, rfl, ?_⟩
    intro frame isMember
    cases isMember
  fresh := fun _ => ⟨rfl, rfl⟩
  chunks := by
    intro connection found
    cases found
  inStep := by
    intro connection found
    cases found

variable {sent : List ClientFrame} {taken : Nat} {events : List HandlerMessage}
  {before after : Connection} {inbound next : Inbound}

/-- A change that handles no frame. -/
theorem InStep.quiet
    (inStep : InStep sent taken events before)
    (written : after.written = before.written)
    (stays : after.task.inService = true → before.task.inService = true)
    (buffered : ∀ done waiting, after.task.inService = true →
      Buffered taken before done waiting → Buffered taken after done waiting) :
    InStep sent taken events after := by
  obtain ⟨done, rest, all, brought, answers, serves⟩ := inStep
  refine ⟨done, rest, all, brought, written ▸ answers, fun inService => ?_⟩
  obtain ⟨waiting, later, restEq, isBuffered⟩ := serves (stays inService)
  exact ⟨waiting, later, restEq, buffered done waiting inService isBuffered⟩

theorem InStep.send
    (inStep : InStep sent taken events before)
    (frame : ClientFrame) :
    InStep (sent ++ [frame]) taken events before := by
  obtain ⟨done, rest, all, brought, answers, serves⟩ := inStep
  refine ⟨done, rest ++ [frame], ?_, brought, answers, fun inService => ?_⟩
  · rw [all, List.append_assoc]
  · obtain ⟨waiting, later, restEq, isBuffered⟩ := serves inService
    exact ⟨waiting, later ++ [frame], by rw [restEq, List.append_assoc], isBuffered⟩

theorem inStep_upgrade
    (sent : List ClientFrame) :
    InStep sent 0 [] { Connection.opened with buffer := [] } := by
  refine ⟨[], sent, rfl, .nil, answers_nil, fun _ => ⟨[], sent, rfl, rfl, rfl, ?_⟩⟩
  intro some
  exact absurd rfl some

theorem InStep.answer
    (inStep : InStep sent taken events before)
    (answered : before.answer = some after) :
    InStep sent taken events after := by
  unfold Connection.answer at answered
  split at answered
  · rename_i opening
    cases answered
    refine inStep.quiet rfl (fun _ => by rw [opening]; rfl) ?_
    intro done waiting inService buffered
    have none : waiting = [] := by
      by_contra some
      have inLoop := buffered.inLoop some
      rw [opening] at inLoop
      cases inLoop
    subst none
    exact ⟨buffered.taken, rfl, fun some => absurd rfl some⟩
  · rename_i dispatching
    cases answered
    refine inStep.quiet rfl (fun _ => by rw [dispatching]; rfl) ?_
    intro done waiting inService buffered
    exact ⟨buffered.taken, buffered.buffer, fun _ => rfl⟩
  · cases answered
    refine inStep.quiet rfl (fun inService => by cases inService) ?_
    intro done waiting inService
    cases inService
  · cases answered

/-- A task that leaves handles no more frames. -/
theorem InStep.leave
    (inStep : InStep sent taken events before)
    (written : after.written = before.written)
    (notInService : after.task.inService = false) :
    InStep sent taken events after := by
  have noService : ¬ after.task.inService = true := by
    rw [notInService]
    exact Bool.false_ne_true
  refine inStep.quiet written (fun inService => absurd inService noService) ?_
  intro done waiting inService
  exact absurd inService noService

theorem length_encode_ne_zero
    (frame : ClientFrame) :
    frame.encode.length ≠ 0 := by
  rw [ClientFrame.encode, List.length_cons]
  exact Nat.succ_ne_zero _

theorem eq_nil_of_flatMap_encode
    {frames : List ClientFrame}
    (nothing : frames.flatMap ClientFrame.encode = []) :
    frames = [] := by
  cases frames with
  | nil => rfl
  | cons frame rest =>
      rw [List.flatMap_cons] at nothing
      have length := congrArg List.length (List.append_eq_nil_iff.mp nothing).1
      exact absurd length (length_encode_ne_zero frame)

/-- What is left in the socket, once all that is read is done. -/
theorem unread_eq
    {done later : List ClientFrame}
    (all : inbound.sent = done ++ later)
    (takenEq : inbound.taken = (done.flatMap ClientFrame.encode).length) :
    inbound.unread = later.flatMap ClientFrame.encode := by
  rw [Inbound.unread, all, takenEq, List.flatMap_append, List.drop_left]

/-- A read that ends where a frame ends takes whole frames. -/
theorem exists_read
    {done later : List ClientFrame} {count : Nat}
    (all : inbound.sent = done ++ later)
    (takenEq : inbound.taken = (done.flatMap ClientFrame.encode).length)
    (endsFrame : inbound.EndsFrame count) :
    ∃ read unread, later = read ++ unread ∧
      count = (read.flatMap ClientFrame.encode).length := by
  obtain ⟨whole, isMember, ends⟩ := endsFrame
  rw [takenEq, all, List.take_append, List.flatMap_append, List.length_append] at ends
  by_cases behind : done.length ≤ whole
  · refine ⟨later.take (whole - done.length), later.drop (whole - done.length),
      (List.take_append_drop _ _).symm, ?_⟩
    rw [List.take_of_length_le behind] at ends
    omega
  · have nothing : whole - done.length = 0 := by omega
    have split := congrArg (fun frames => (frames.flatMap ClientFrame.encode).length)
      (List.take_append_drop whole done)
    simp only [List.flatMap_append, List.length_append] at split
    rw [nothing, List.take_zero] at ends
    refine ⟨[], later, rfl, ?_⟩
    simp only [List.flatMap_nil, List.length_nil] at ends ⊢
    omega

theorem InStep.receive
    {count : Nat}
    (inStep : InStep inbound.sent inbound.taken inbound.events before)
    (endsFrame : inbound.EndsFrame count)
    (received : before.receive (inbound.unread.take count) = some after) :
    InStep inbound.sent (inbound.taken + count) inbound.events after := by
  unfold Connection.receive at received
  split at received
  · rename_i reads
    obtain ⟨reading, notEmpty⟩ := reads
    cases received
    obtain ⟨done, rest, all, brought, answers, serves⟩ := inStep
    obtain ⟨waiting, later, restEq, buffered⟩ := serves (by rw [reading]; rfl)
    have none : waiting = [] := by
      by_contra some
      have inLoop := buffered.inLoop some
      rw [reading] at inLoop
      cases inLoop
    subst none
    have takenEq := buffered.taken
    rw [List.append_nil] at takenEq
    rw [List.nil_append] at restEq
    subst restEq
    obtain ⟨read, unread, laterEq, countEq⟩ := exists_read all takenEq endsFrame
    refine ⟨done, rest, all, brought, answers, fun _ => ⟨read, unread, laterEq, ?_, ?_, ?_⟩⟩
    · rw [takenEq, countEq, List.flatMap_append, List.length_append]
    · rw [unread_eq all takenEq, laterEq, List.flatMap_append, countEq, List.take_left]
    · intro some
      rfl
  · cases received

theorem dispatch_eq
    {connection : Connection}
    (found : inbound.connection = some connection) :
    inbound.dispatch wsId handlerId =
      { inbound with events := inbound.events ++ dispatched wsId handlerId connection.task } := by
  rw [Inbound.dispatch, found]
  rfl

theorem chunks_turn
    {hasSender accepted : Bool}
    (chunks : ∀ message ∈ before.channel.queue, isChunk message = true) :
    ∀ message ∈ (before.turn hasSender accepted).channel.queue, isChunk message = true := by
  have stays : ∀ {connection : Connection} {frame : Octets},
      (connection.write frame accepted).channel = connection.channel := by
    intro connection frame
    cases accepted <;> rfl
  unfold Connection.turn
  split
  · rename_i frame consumed parsed
    unfold Connection.handleFrame
    split_ifs
    · exact chunks
    · rw [stays]
      exact chunks
    · simp only [stays]
      exact chunks
    · exact chunks
  · split
    · rename_i data channel received
      rw [stays]
      intro message isMember
      refine chunks message ?_
      rw [BoundedChannel.queue_of_receive received]
      exact List.mem_cons_of_mem _ isMember
    · rename_i channel received
      simp only [stays]
      intro message isMember
      refine chunks message ?_
      rw [BoundedChannel.queue_of_receive received]
      exact List.mem_cons_of_mem _ isMember
    · exact chunks

theorem brings_dispatched
    {frame : ClientFrame} {done : List ClientFrame} {task : Task}
    (expected : Expected frame)
    (brought : List.Forall₂ Brings events (done.filterMap messageOf))
    (taskEq : task = match messageOf frame with
      | some message => .dispatching .message message.payload
      | none => .looping) :
    List.Forall₂ Brings (events ++ dispatched wsId handlerId task)
      ((done ++ [frame]).filterMap messageOf) := by
  rw [filterMap_concat, taskEq]
  cases isMessage : messageOf frame with
  | none =>
      rw [Option.toList_none, List.append_nil]
      exact (List.append_nil events).symm ▸ brought
  | some message =>
      have isText : UInt8.ofNat frame.opcode = opcodeText ∧ ⟨false, frame.payload⟩ = message := by
        rwa [messageOf, Option.ite_none_right_eq_some, Option.some.injEq] at isMessage
      obtain ⟨isText, rfl⟩ := isText
      cases expected with
      | text isText small noMark valid =>
          obtain ⟨event, delivered, brings⟩ :=
            exists_handlerMessage wsId handlerId small noMark valid
          simp only [dispatched, delivered, Option.toList_some]
          exact List.rel_append brought (.cons brings .nil)
      | ping isPing short =>
          rw [isPing] at isText
          exact absurd isText (by decide)
      | pong isPong short =>
          rw [isPong] at isText
          exact absurd isText (by decide)
      | close isClose short =>
          rw [isClose] at isText
          exact absurd isText (by decide)

theorem InStep.turn
    (wsId : UInt64)
    (handlerId : UInt32)
    (hasSender accepted : Bool)
    (inStep : InStep sent taken events before)
    (expected : ∀ frame ∈ sent, Expected frame)
    (chunks : ∀ message ∈ before.channel.queue, isChunk message = true)
    (looping : before.task = .looping) :
    InStep sent taken (events ++ dispatched wsId handlerId (before.turn hasSender accepted).task)
      (before.turn hasSender accepted) := by
  obtain ⟨done, rest, all, brought, answers, serves⟩ := inStep
  obtain ⟨waiting, later, restEq, buffered⟩ := serves (by rw [looping]; rfl)
  have expectedWaiting : ∀ frame ∈ waiting, Expected frame := by
    intro frame isMember
    refine expected frame ?_
    rw [all, restEq]
    exact List.mem_append_right _ (List.mem_append_left _ isMember)
  cases turned_turn expectedWaiting looping buffered.buffer chunks hasSender accepted with
  | handled frame others isFirst buffer written task =>
      subst isFirst
      have isExpected := expectedWaiting frame List.mem_cons_self
      refine ⟨done ++ [frame], others ++ later, ?_, brings_dispatched isExpected brought task, ?_,
        fun _ => ⟨others, later, rfl, ?_, buffer, fun _ => ?_⟩⟩
      · rw [all, restEq, List.append_assoc]
        rfl
      · rw [filterMap_concat]
        exact written _ answers
      · rw [List.append_assoc]
        exact buffered.taken
      · rw [task]
        cases messageOf frame <;> rfl
  | left task written =>
      rw [task]
      refine ⟨done, rest, all, ?_, written _ answers, fun inService => ?_⟩
      · exact (List.append_nil events).symm ▸ brought
      · rw [task] at inService
        cases inService
  | outbound nothing buffer task written =>
      have noEvent : dispatched wsId handlerId (before.turn hasSender accepted).task = [] := by
        cases task with
        | inl looping =>
            rw [looping]
            rfl
        | inr reading =>
            rw [reading]
            rfl
      rw [noEvent, List.append_nil]
      refine ⟨done, rest, all, brought, written _ answers, fun _ => ⟨waiting, later, restEq,
        buffered.taken, ?_, fun some => absurd nothing some⟩⟩
      rw [buffer]
      exact buffered.buffer

/-! ## Runs -/

theorem exists_of_onConnection
    {change : Connection → Option Connection}
    (stepEq : inbound.onConnection change = some next) :
    ∃ before after, inbound.connection = some before ∧ change before = some after ∧
      next = { inbound with connection := some after } := by
  obtain ⟨after, changed, rfl⟩ := Option.map_eq_some_iff.mp stepEq
  obtain ⟨before, found, changeEq⟩ := Option.bind_eq_some_iff.mp changed
  exact ⟨before, after, found, changeEq, rfl⟩

/-- A change of the connection alone. -/
theorem Follows.change
    (follows : Follows inbound)
    (queue : ∀ message ∈ after.channel.queue, isChunk message = true)
    (inStep : InStep inbound.sent inbound.taken inbound.events after) :
    Follows { inbound with connection := some after } where
  understood := follows.understood
  fresh := by
    intro isNone
    cases isNone
  chunks := by
    rintro connection ⟨⟩
    exact queue
  inStep := by
    rintro connection ⟨⟩
    exact inStep

theorem follows_step
    {event : InboundEvent}
    (follows : Follows inbound)
    (meets : WholeTexts inbound event)
    (stepEq : inbound.step wsId handlerId event = some next) :
    Follows next := by
  cases event with
  | send frame =>
      obtain ⟨conversation, added, rfl⟩ := Option.map_eq_some_iff.mp stepEq
      refine ⟨follows.understood.send meets added, follows.fresh, follows.chunks, ?_⟩
      intro connection found
      exact (follows.inStep connection found).send frame
  | upgrade count =>
      cases meets
      rw [Inbound.step, Option.ite_none_right_eq_some] at stepEq
      obtain ⟨⟨isNone, fits⟩, stepEq⟩ := stepEq
      cases stepEq
      obtain ⟨takenEq, eventsEq⟩ := follows.fresh (Option.isNone_iff_eq_none.mp isNone)
      refine ⟨follows.understood, ?_, ?_, ?_⟩
      · intro isNone
        cases isNone
      · rintro connection ⟨⟩ message isMember
        cases isMember
      · rintro connection ⟨⟩
        simp only [Inbound.take, takenEq, eventsEq]
        exact inStep_upgrade inbound.sent
  | receive count =>
      rw [Inbound.step, Option.ite_none_right_eq_some] at stepEq
      obtain ⟨before, after, found, received, rfl⟩ := exists_of_onConnection stepEq.2
      have inStep := (follows.inStep before found).receive meets received
      refine ⟨follows.understood, ?_, ?_, ?_⟩
      · intro isNone
        cases isNone
      · rintro connection ⟨⟩
        have queue := follows.chunks before found
        unfold Connection.receive at received
        split at received <;> cases received
        exact queue
      · rintro connection ⟨⟩
        exact inStep
  | turn hasSender accepted =>
      obtain ⟨turned, turnedEq, rfl⟩ := Option.map_eq_some_iff.mp stepEq
      obtain ⟨before, after, found, change, rfl⟩ := exists_of_onConnection turnedEq
      rw [Option.ite_none_right_eq_some] at change
      obtain ⟨looping, turn⟩ := change
      cases turn
      have inStep := (follows.inStep before found).turn wsId handlerId hasSender accepted
        follows.understood.expected (follows.chunks before found) looping
      rw [dispatch_eq rfl]
      refine ⟨follows.understood, ?_, ?_, ?_⟩
      · intro isNone
        cases isNone
      · rintro connection ⟨⟩
        exact chunks_turn (follows.chunks before found)
      · rintro connection ⟨⟩
        exact inStep
  | answer =>
      obtain ⟨before, after, found, answered, rfl⟩ := exists_of_onConnection stepEq
      have inStep := (follows.inStep before found).answer answered
      refine follows.change ?_ inStep
      have queue := follows.chunks before found
      unfold Connection.answer at answered
      split at answered <;> cases answered <;> exact queue
  | stop =>
      obtain ⟨before, after, found, stopped, rfl⟩ := exists_of_onConnection stepEq
      unfold Connection.stop at stopped
      split at stopped <;> cases stopped
      exact follows.change (follows.chunks before found)
        ((follows.inStep before found).leave rfl rfl)
  | cleanup =>
      obtain ⟨before, after, found, cleaned, rfl⟩ := exists_of_onConnection stepEq
      unfold Connection.cleanup at cleaned
      split at cleaned <;> cases cleaned
      exact follows.change (follows.chunks before found)
        ((follows.inStep before found).leave rfl rfl)
  | streamEnd =>
      obtain ⟨before, after, found, ended, rfl⟩ := exists_of_onConnection stepEq
      cases ended
      refine follows.change (follows.chunks before found) ?_
      refine (follows.inStep before found).quiet rfl (fun inService => inService) ?_
      intro done waiting inService buffered
      exact ⟨buffered.taken, buffered.buffer, buffered.inLoop⟩
  | push message =>
      rw [Inbound.step, Option.ite_none_right_eq_some] at stepEq
      obtain ⟨isChunk, stepEq⟩ := stepEq
      obtain ⟨before, after, found, pushed, rfl⟩ := exists_of_onConnection stepEq
      obtain ⟨channel, sent, rfl⟩ := Option.map_eq_some_iff.mp pushed
      refine follows.change ?_ ?_
      · intro other isMember
        have queue : other ∈ before.channel.queue ++ [message] := by
          rw [← BoundedChannel.queue_of_send sent]
          exact isMember
        cases List.mem_append.mp queue with
        | inl isEarlier => exact follows.chunks before found other isEarlier
        | inr isLast =>
            cases List.mem_singleton.mp isLast
            exact isChunk
      · refine (follows.inStep before found).quiet rfl (fun inService => inService) ?_
        intro done waiting inService buffered
        exact ⟨buffered.taken, buffered.buffer, buffered.inLoop⟩

theorem receives_of_follows
    {connection : Connection}
    (follows : Follows inbound)
    (found : inbound.connection = some connection) :
    Receives inbound connection := by
  obtain ⟨done, rest, all, brought, answers, serves⟩ := follows.inStep connection found
  have messages := follows.understood.messages
  have pings := follows.understood.pings
  rw [all, List.filterMap_append] at messages pings
  refine ⟨⟨_, ⟨_, messages.symm⟩, brought⟩, ⟨_, ⟨_, pings.symm⟩, answers⟩, ?_⟩
  intro reading nothing
  obtain ⟨waiting, later, restEq, buffered⟩ := serves (by rw [reading]; rfl)
  have noneWaits : waiting = [] := by
    by_contra some
    have inLoop := buffered.inLoop some
    rw [reading] at inLoop
    cases inLoop
  subst noneWaits
  have takenEq := buffered.taken
  rw [List.append_nil] at takenEq
  rw [List.nil_append] at restEq
  rw [unread_eq all takenEq] at nothing
  have noneLater := eq_nil_of_flatMap_encode nothing
  rw [noneLater, List.filterMap_nil, List.append_nil] at messages pings
  rw [messages, pings]
  exact ⟨brought, answers⟩

/-- In a run in which messages are whole texts, nothing comes with the upgrade, and
reads end where frames end, the handler gets every message and every ping is
answered. -/
theorem receives_of_wholeTexts
    (wsId : UInt64)
    (handlerId : UInt32)
    {connection : Connection}
    (reaches : (inboundMachine wsId handlerId).ReachesUnder WholeTexts inbound)
    (found : inbound.connection = some connection) :
    Receives inbound connection := by
  refine receives_of_follows (reaches.invariant follows_start ?_) found
  intro state event next follows meets stepEq
  exact follows_step follows meets stepEq

/-- The handler never gets binary data. -/
theorem isText_of_handlerMessage
    {payload : Octets} {message : HandlerMessage}
    (delivered : handlerMessage wsId handlerId payload = some message) :
    ∃ textData, message = .text textData := by
  rw [handlerMessage, decodeWsEvent_buildWsEventEnvelope] at delivered
  exact ⟨_, (Option.some.inj delivered).symm⟩

def OnlyTexts (inbound : Inbound) : Prop :=
  ∀ event ∈ inbound.events, ∃ textData, event = .text textData

theorem onlyTexts_of_reaches
    (reaches : (inboundMachine wsId handlerId).Reaches inbound) :
    OnlyTexts inbound := by
  refine reaches.invariant ?_ ?_
  · intro event isMember
    cases isMember
  · intro state event next texts meets stepEq
    have same : ∀ {change : Connection → Option Connection} {count : Nat},
        (state.take count).onConnection change = some next → next.events = state.events := by
      intro change count changed
      obtain ⟨before, after, found, changeEq, rfl⟩ := exists_of_onConnection changed
      rfl
    simp only [inboundMachine] at stepEq
    cases event with
    | send frame =>
        obtain ⟨conversation, added, rfl⟩ := Option.map_eq_some_iff.mp stepEq
        exact texts
    | upgrade count =>
        rw [Inbound.step, Option.ite_none_right_eq_some] at stepEq
        obtain ⟨fits, stepEq⟩ := stepEq
        cases stepEq
        exact texts
    | receive count =>
        rw [Inbound.step, Option.ite_none_right_eq_some] at stepEq
        rw [OnlyTexts, same stepEq.2]
        exact texts
    | turn hasSender accepted =>
        obtain ⟨turned, turnedEq, rfl⟩ := Option.map_eq_some_iff.mp stepEq
        obtain ⟨before, after, found, change, rfl⟩ := exists_of_onConnection turnedEq
        rw [dispatch_eq rfl]
        intro event isMember
        cases List.mem_append.mp isMember with
        | inl isEarlier => exact texts event isEarlier
        | inr isLast =>
            unfold dispatched at isLast
            split at isLast
            · exact isText_of_handlerMessage (Option.mem_toList.mp isLast)
            · cases isLast
    | answer =>
        rw [OnlyTexts, @same _ 0 stepEq]
        exact texts
    | stop =>
        rw [OnlyTexts, @same _ 0 stepEq]
        exact texts
    | cleanup =>
        rw [OnlyTexts, @same _ 0 stepEq]
        exact texts
    | streamEnd =>
        rw [OnlyTexts, @same _ 0 stepEq]
        exact texts
    | push message =>
        rw [Inbound.step, Option.ite_none_right_eq_some] at stepEq
        rw [OnlyTexts, @same _ 0 stepEq.2]
        exact texts

theorem onConnection_of_found
    {change : Connection → Option Connection}
    (found : inbound.connection = some before)
    (changed : change before = some after) :
    inbound.onConnection change = some { inbound with connection := some after } := by
  rw [Inbound.onConnection, found, Option.bind_some, changed, Option.map_some]

/-- What a step of the whole system does to a connection is a step here, as long as
what is read comes from the client. -/
theorem exists_step_of_change
    {system : SocketSystem} {event : SocketEvent} {id : Nat}
    (wsId : UInt64)
    (handlerId : UInt32)
    (change : ConnectionChange system id event before after)
    (found : inbound.connection = some before)
    (fromClient : ∀ data, event = .receive id data →
      ∃ count ≤ inbound.unread.length, data = inbound.unread.take count)
    (chunks : ∀ send ∈ system.calls, isChunk send.message = true) :
    ∃ inboundEvent next, inbound.step wsId handlerId inboundEvent = some next ∧
      next.connection = some after := by
  cases change with
  | @turn _ accepted looping =>
      refine ⟨.turn (system.isRegistered id || system.isSendingTo id) accepted,
        Inbound.dispatch { inbound with connection := some _ } wsId handlerId, ?_, rfl⟩
      rw [Inbound.step, onConnection_of_found found (if_pos looping)]
      rfl
  | @receive _ _ data received =>
      obtain ⟨count, within, rfl⟩ := fromClient data rfl
      refine ⟨.receive count, { inbound.take count with connection := some after }, ?_, rfl⟩
      rw [Inbound.step, if_pos within]
      exact onConnection_of_found found received
  | stop stopped => exact ⟨.stop, _, onConnection_of_found found stopped, rfl⟩
  | cleanup free cleaned => exact ⟨.cleanup, _, onConnection_of_found found cleaned, rfl⟩
  | answer calls answered => exact ⟨.answer, _, onConnection_of_found found answered, rfl⟩
  | streamEnd calls => exact ⟨.streamEnd, _, onConnection_of_found found rfl, rfl⟩
  | @push _ send rest channel calls target isFound notGone sent =>
      have isChunkSent := chunks send (by rw [calls]; exact List.mem_cons_self)
      refine ⟨.push send.message, { inbound with connection := some _ }, ?_, rfl⟩
      rw [Inbound.step, if_pos isChunkSent]
      refine onConnection_of_found found ?_
      rw [sent, Option.map_some]

/-! ## Greetings -/

def maskKey : Octets := [1, 2, 3, 4]

theorem length_maskKey : maskKey.length = 4 := rfl

/-- A masked frame. -/
def masked (fin : Bool) (opcode : Fin 16) (payload : Octets) : ClientFrame where
  fin := fin
  opcode := opcode
  key := maskKey
  key_length := length_maskKey
  payload := payload

def wholeEvents : List InboundEvent :=
  [.send (masked true 1 (octets "greetings")), .send (masked true 9 (octets "p")), .upgrade 0,
    .answer, .turn true true, .receive 22, .turn true true, .answer, .turn true true, .turn true true]

theorem receives_of_wholeTexts_greeting :
    ∃ inbound connection, (inboundMachine 1 7).ReachesUnder WholeTexts inbound ∧
      inbound.connection = some connection ∧ connection.task = .reading ∧ inbound.unread = [] ∧
      inbound.events = [.text (text "greetings")] ∧
      connection.written = encodeFrame opcodePong (octets "p") ∧ Receives inbound connection :=
  have reaches := Machine.reachesUnder_of_run wholeEvents rfl
  ⟨_, _, reaches, rfl, rfl, rfl, rfl, rfl, receives_of_wholeTexts 1 7 reaches rfl⟩

/-- A message in two frames. -/
def fragmentedEvents : List InboundEvent :=
  [.send (masked false 1 (octets "h")), .send (masked true 0 (octets "i")), .upgrade 0, .answer,
    .turn true true, .receive 14, .turn true true, .answer, .turn true true, .turn true true]

theorem not_receives_of_fragmented :
    ¬ ∀ inbound, (inboundMachine 1 7).Reaches inbound → ∀ connection,
      inbound.connection = some connection → Receives inbound connection := by
  intro receives
  have run : (((inboundMachine 1 7).runFrom (fun _ _ => True) (inboundMachine 1 7).start
      fragmentedEvents).bind fun inbound => inbound.connection.map fun connection =>
        (connection.task, inbound.unread, inbound.events, inbound.conversation.messages)) =
      some (.reading, [], [.text (text "h")], [⟨false, octets "hi"⟩]) := by
    rfl
  obtain ⟨inbound, reached, shown⟩ := Option.bind_eq_some_iff.mp run
  obtain ⟨connection, found, shape⟩ := Option.map_eq_some_iff.mp shown
  simp only [Prod.mk.injEq] at shape
  obtain ⟨reading, nothing, events, messages⟩ := shape
  have brought := ((receives inbound (Machine.reachesUnder_of_run fragmentedEvents reached)
    connection found).complete reading nothing).1
  rw [events, messages] at brought
  cases brought with
  | cons brings rest => exact absurd brings.2 (by decide)

end WebSocket
end HttpNative
