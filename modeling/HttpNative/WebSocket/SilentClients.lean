import HttpNative.WebSocket.CallsReturn
import HttpNative.WebSocket.ConnectionSteps

/-!
# Messages for silent clients

A task looks into its channel before it reads from the socket, and not while it
reads. What is sent to the channel of a reading task lies there until the client
or the idle time-out wakes the task.
-/

namespace HttpNative
namespace WebSocket

open Streaming (StreamMessage)

variable {system next : SocketSystem} {connection : Connection}

/-- What the loop writes for the messages of its channel; it leaves after an
end. -/
def outbound : List StreamMessage → Octets
  | [] => []
  | .chunk data :: rest => encodeFrame opcodeText data ++ outbound rest
  | .end :: _ => normalClosure

/-- No message waits for the client. -/
structure PromptDelivery (system : SocketSystem) : Prop where
  /-- A task that waits for octets of its client has nothing to write. -/
  notReading : ∀ id connection, system.connections id = some connection →
    connection.task = .reading → connection.channel.queue = []
  /-- A task in its loop writes its messages without anything from its client. -/
  writes : ∀ id connection, system.connections id = some connection →
    connection.task = .looping → parseFrame connection.buffer = none →
    ∃ final after, OwnSteps system final ∧ final.connections id = some after ∧
      after.written = connection.written ++ outbound connection.channel.queue

/-- The task that a native call sends to does not read. -/
def SocketSystem.TargetAwake (system : SocketSystem) : Prop :=
  ∀ send, system.calls.head? = some send → send.found = true →
    ∀ connection, system.connections send.target = some connection → connection.task ≠ .reading

instance (system : SocketSystem) : Decidable system.TargetAwake := by
  unfold SocketSystem.TargetAwake
  infer_instance

/-- A message reaches a channel while its task does not read. -/
def SendsToAwake (system : SocketSystem) : SocketEvent → Prop
  | .progress => system.TargetAwake
  | _ => True

instance (system : SocketSystem) : (event : SocketEvent) → Decidable (SendsToAwake system event)
  | .progress => inferInstanceAs (Decidable system.TargetAwake)
  | .connect | .answer _ | .turn _ _ | .receive _ _ | .stop _ | .cleanup _ => .isTrue trivial
  | .streamWrite _ _ | .streamEnd _ | .wsPublish _ _ _ => .isTrue trivial
  | .wsSubscribe _ _ | .wsUnsubscribe _ _ => .isTrue trivial

/-! ## Tasks that read -/

namespace Connection

theorem task_write_ne_reading
    (notReading : connection.task ≠ .reading)
    (frame : Octets)
    (accepted : Bool) :
    (connection.write frame accepted).task ≠ .reading := by
  cases accepted
  · simp [write]
  · exact notReading

theorem task_handleFrame_ne_reading
    (notReading : connection.task ≠ .reading)
    (frame : WsFrame)
    (accepted : Bool) :
    (connection.handleFrame frame accepted).task ≠ .reading := by
  unfold handleFrame
  split_ifs
  · simp
  · exact task_write_ne_reading notReading _ accepted
  · simp
  · exact notReading

/-- The loop comes to its read with an empty channel. -/
theorem queue_turn_of_reading
    {hasSender accepted : Bool}
    (looping : connection.task = .looping)
    (reading : (connection.turn hasSender accepted).task = .reading) :
    (connection.turn hasSender accepted).channel.queue = [] := by
  have notReading : connection.task ≠ .reading := by simp [looping]
  unfold turn at reading ⊢
  split at reading
  · refine absurd reading (task_handleFrame_ne_reading ?_ _ accepted)
    exact notReading
  · split at reading
    · refine absurd reading (task_write_ne_reading ?_ _ accepted)
      exact notReading
    · cases reading
    · rename_i nothing
      simpa [nothing] using BoundedChannel.queue_of_receive_none nothing

end Connection

/-- The channel of a reading task is empty. -/
def NothingUnread (system : SocketSystem) : Prop :=
  ∀ id connection, system.connections id = some connection →
    connection.task = .reading → connection.channel.queue = []

theorem nothingUnread_step
    {event : SocketEvent}
    (sound : NothingUnread system)
    (meets : SendsToAwake system event)
    (stepEq : system.step event = some next) :
    NothingUnread next := by
  intro id after stands reading
  cases atConnection_of_step stepEq stands with
  | same found => exact sound id after found reading
  | opened connects fresh isOpened =>
      rw [isOpened] at reading
      cases reading
  | changed before found change =>
      cases change with
      | turn looping => exact Connection.queue_turn_of_reading looping reading
      | receive changed =>
          unfold Connection.receive at changed
          split at changed <;> cases changed
          cases reading
      | stop changed =>
          unfold Connection.stop at changed
          split at changed <;> cases changed
          cases reading
      | cleanup free changed =>
          unfold Connection.cleanup at changed
          split at changed <;> cases changed
          cases reading
      | answer calls changed =>
          unfold Connection.answer at changed
          split at changed <;> cases changed <;> cases reading
      | streamEnd calls => exact sound id before found reading
      | push calls target isFound notGone sent =>
          subst target
          have awake := meets _ (by rw [calls]; rfl) isFound before found
          exact absurd reading awake

/-! ## Tasks in their loop -/

/-- A task in its loop writes what is in its channel. -/
theorem exists_written
    {messages : List StreamMessage} {id : Nat}
    (found : system.connections id = some connection)
    (looping : connection.task = .looping)
    (silent : parseFrame connection.buffer = none)
    (queue : connection.channel.queue = messages) :
    ∃ final after, OwnSteps system final ∧ final.connections id = some after ∧
      after.written = connection.written ++ outbound messages := by
  induction messages generalizing system connection with
  | nil => exact ⟨system, connection, .refl, found, by simp [outbound]⟩
  | cons message rest hypothesis =>
      obtain ⟨channel, receiveEq, restQueue⟩ := BoundedChannel.exists_receive queue
      have turn := step_turn found looping
      cases message with
      | chunk data =>
          have turned : connection.turn (system.isRegistered id || system.isSendingTo id) true =
              { connection with
                channel := channel
                written := connection.written ++ encodeFrame opcodeText data } := by
            simp [Connection.turn, silent, receiveEq, Connection.write]
          rw [turned] at turn
          obtain ⟨final, after, steps, atTarget, written⟩ :=
            @hypothesis
              { system with
                connections := Function.update system.connections id
                  (some { connection with
                    channel := channel
                    written := connection.written ++ encodeFrame opcodeText data }) }
              _ (Function.update_self ..) looping silent restQueue
          refine ⟨final, after, .head ⟨.turn id true, trivial, turn⟩ steps, atTarget, ?_⟩
          rw [written, outbound, List.append_assoc]
      | «end» =>
          have turned : connection.turn (system.isRegistered id || system.isSendingTo id) true =
              { connection with
                task := .leaving
                channel := channel
                written := connection.written ++ normalClosure } := by
            simp [Connection.turn, silent, receiveEq, Connection.write]
          rw [turned] at turn
          exact ⟨_, _, .single ⟨.turn id true, trivial, turn⟩, Function.update_self .., rfl⟩

/-- In a run in which messages reach the channels of tasks that do not read, no
message waits for a client. -/
theorem promptDelivery_of_sendsToAwake
    (reaches : socketMachine.ReachesUnder SendsToAwake system) :
    PromptDelivery system where
  notReading := by
    have sound : NothingUnread system := by
      refine reaches.invariant ?_ ?_
      · intro id connection found
        cases found
      · intro state event next sound meets stepEq
        exact nothingUnread_step sound meets stepEq
    exact sound
  writes _ _ found looping silent := exists_written found looping silent rfl

/-! ## Runs -/

/-- A handler that answers a message. -/
def echoEvents : List SocketEvent :=
  [.connect, .answer 1, .turn 1 true,
    .receive 1 (encodeFrame opcodeText (octets "hi")), .turn 1 true,
    .streamWrite 1 (octets "hi"), .progress, .answer 1, .turn 1 true, .turn 1 true]

theorem promptDelivery_of_sendsToAwake_echo :
    ∃ system, socketMachine.ReachesUnder SendsToAwake system ∧
      (system.connections 1).map (fun connection => (connection.task, connection.written)) =
        some (.reading, encodeFrame opcodeText (octets "hi")) ∧
      PromptDelivery system :=
  have reaches := Machine.reachesUnder_of_run echoEvents rfl
  ⟨_, reaches, rfl, promptDelivery_of_sendsToAwake reaches⟩

/-- A message published to an idle client is not written. -/
def idleSubscriberEvents : List SocketEvent :=
  [.connect, .wsSubscribe 1 (text "news"), .answer 1, .turn 1 true,
    .wsPublish (text "news") (octets "hi") [1], .progress, .progress]

theorem not_promptDelivery_of_idleSubscriber :
    ¬ ∀ system, socketMachine.Reaches system → PromptDelivery system := by
  intro delivers
  have run : ((socketMachine.runFrom (fun _ _ => True) socketMachine.start
      idleSubscriberEvents).bind fun system => (system.connections 1).map fun connection =>
        (connection.task, connection.channel.queue.length)) = some (.reading, 1) := by
    rfl
  obtain ⟨system, reached, shown⟩ := Option.bind_eq_some_iff.mp run
  obtain ⟨connection, found, shape⟩ := Option.map_eq_some_iff.mp shown
  obtain ⟨reading, length⟩ := Prod.mk.inj shape
  have empty := (delivers system
    (Machine.reachesUnder_of_run idleSubscriberEvents reached)).notReading 1 connection found reading
  rw [empty] at length
  cases length

end WebSocket
end HttpNative
