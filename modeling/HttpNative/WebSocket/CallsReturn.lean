import HttpNative.WebSocket.Connections
import Mathlib.Logic.Relation

/-!
# Native calls that return

The JavaScript thread waits for room in a channel, and the task that would make
room may wait for the JavaScript thread. Calls return in every run in which each
call finds, for every connection it sends to, room in the channel or a task that
is about to take a message out.
-/

namespace HttpNative
namespace WebSocket

open Streaming (StreamMessage)

variable {system next : SocketSystem} {connection : Connection}

/-! ## Connections that take another message -/

/-- The loop passes over a frame. -/
def isIgnored (opcode : UInt8) : Bool :=
  opcode ≠ opcodeText && opcode ≠ opcodeBinary && opcode ≠ opcodePing && opcode ≠ opcodeClose

/-- The complete frames of a buffer are all passed over; the fuel bounds their
number. -/
def quietFor : Nat → Octets → Bool
  | 0, buffer => (parseFrame buffer).isNone
  | fuel + 1, buffer =>
      match parseFrame buffer with
      | none => true
      | some (frame, consumed) => isIgnored frame.opcode && quietFor fuel (buffer.drop consumed)

/-- There is room in the channel, or the task is in its loop and comes to the
channel with the frames it has. -/
def Connection.Ready (connection : Connection) : Prop :=
  connection.channel.HasRoom ∨
    connection.task = .looping ∧ quietFor connection.buffer.length connection.buffer = true

instance (connection : Connection) : Decidable connection.Ready :=
  inferInstanceAs (Decidable (_ ∨ _))

def SocketSystem.TargetReady (system : SocketSystem) (id : Nat) : Prop :=
  ∀ connection ∈ system.connections id, connection.registered = true → connection.Ready

instance (system : SocketSystem) (id : Nat) : Decidable (system.TargetReady id) := by
  unfold SocketSystem.TargetReady
  infer_instance

/-- A native call finds every connection it sends to ready. -/
def CallsFindRoom (system : SocketSystem) : SocketEvent → Prop
  | .streamWrite id _ | .streamEnd id => system.TargetReady id
  | .wsPublish _ _ order => ∀ id ∈ order, system.TargetReady id
  | _ => True

instance (system : SocketSystem) (event : SocketEvent) :
    Decidable (CallsFindRoom system event) := by
  cases event <;> unfold CallsFindRoom <;> infer_instance

/-! ## What is promised -/

/-- The JavaScript thread is inside a send to a full channel. -/
def SocketSystem.BlockedOn (system : SocketSystem) (connection : Connection) : Prop :=
  ∃ send rest, system.calls = send :: rest ∧ send.found = true ∧
    system.connections send.target = some connection ∧ ¬ connection.channel.HasRoom

/-- Steps of the native call and of the loops, without an event of a client and
without a handler that returns. -/
def OwnStep : SocketEvent → Prop
  | .progress | .turn _ _ => True
  | _ => False

def OwnSteps : SocketSystem → SocketSystem → Prop :=
  Relation.ReflTransGen fun system next =>
    ∃ event, OwnStep event ∧ system.step event = some next

structure CallsReturn (system : SocketSystem) : Prop where
  /-- A task that would make room is not waiting for a handler. -/
  notWaiting : ∀ connection event data, system.BlockedOn connection →
    connection.task ≠ .dispatching event data
  /-- The native call comes to its end, so that handlers can return. -/
  returns : ∃ final, OwnSteps system final ∧ final.calls = []

/-! ## Frames that are passed over -/

theorem quietFor_mono
    {fuel more : Nat} {buffer : Octets}
    (quiet : quietFor fuel buffer = true)
    (enough : fuel ≤ more) :
    quietFor more buffer = true := by
  induction fuel generalizing more buffer with
  | zero =>
      rw [quietFor, Option.isNone_iff_eq_none] at quiet
      cases more <;> simp [quietFor, quiet]
  | succ fuel hypothesis =>
      obtain ⟨more, rfl⟩ : ∃ less, more = less + 1 := ⟨more - 1, by omega⟩
      cases parsed : parseFrame buffer with
      | none => simp [quietFor, parsed]
      | some result =>
          simp only [quietFor, parsed, Bool.and_eq_true] at quiet ⊢
          exact ⟨quiet.1, hypothesis quiet.2 (by omega)⟩

/-- The length of the buffer is fuel enough. -/
theorem quietFor_length
    {fuel : Nat} {buffer : Octets}
    (quiet : quietFor fuel buffer = true) :
    quietFor buffer.length buffer = true := by
  induction fuel generalizing buffer with
  | zero => exact quietFor_mono quiet (Nat.zero_le _)
  | succ fuel hypothesis =>
      cases parsed : parseFrame buffer with
      | none =>
          have noFrame : quietFor 0 buffer = true := by simp [quietFor, parsed]
          exact quietFor_mono noFrame (Nat.zero_le _)
      | some result =>
          simp only [quietFor, parsed, Bool.and_eq_true] at quiet
          have consumed : 2 ≤ result.2 ∧ result.2 ≤ buffer.length := consumed_of_parseFrame parsed
          have rest := hypothesis quiet.2
          obtain ⟨less, lengthEq⟩ : ∃ less, buffer.length = less + 1 :=
            ⟨buffer.length - 1, by omega⟩
          have shorter : (buffer.drop result.2).length ≤ less := by
            rw [List.length_drop]
            omega
          rw [lengthEq]
          simp only [quietFor, parsed, Bool.and_eq_true]
          exact ⟨quiet.1, quietFor_mono rest shorter⟩

/-! ## Turns of the loop -/

namespace Connection

@[simp]
theorem channel_write
    (frame : Octets)
    (accepted : Bool) :
    (connection.write frame accepted).channel = connection.channel := by
  cases accepted <;> rfl

@[simp]
theorem registered_write
    (frame : Octets)
    (accepted : Bool) :
    (connection.write frame accepted).registered = connection.registered := by
  cases accepted <;> rfl

theorem channel_handleFrame
    (frame : WsFrame)
    (accepted : Bool) :
    (connection.handleFrame frame accepted).channel = connection.channel := by
  unfold handleFrame
  split_ifs <;> simp

theorem registered_handleFrame
    (frame : WsFrame)
    (accepted : Bool) :
    (connection.handleFrame frame accepted).registered = connection.registered := by
  unfold handleFrame
  split_ifs <;> simp

theorem handleFrame_of_isIgnored
    {frame : WsFrame}
    (ignored : isIgnored frame.opcode = true)
    (accepted : Bool) :
    connection.handleFrame frame accepted = connection := by
  simp only [isIgnored, Bool.and_eq_true, decide_eq_true_eq] at ignored
  simp [handleFrame, ignored]

theorem registered_turn
    (hasSender accepted : Bool) :
    (connection.turn hasSender accepted).registered = connection.registered := by
  unfold turn
  split
  · rw [registered_handleFrame]
  · split <;> simp

theorem hasRoom_turn
    (room : connection.channel.HasRoom)
    (hasSender accepted : Bool) :
    (connection.turn hasSender accepted).channel.HasRoom := by
  unfold turn
  split
  · rw [channel_handleFrame]
    exact room
  · split
    · rw [channel_write]
      exact BoundedChannel.hasRoom_of_receive ‹_›
    · simp only [channel_write]
      exact BoundedChannel.hasRoom_of_receive ‹_›
    · exact room

/-- Without a frame the loop takes a message out of a full channel. -/
theorem hasRoom_turn_of_full
    (noFrame : parseFrame connection.buffer = none)
    (full : ¬ connection.channel.HasRoom)
    (hasSender accepted : Bool) :
    (connection.turn hasSender accepted).channel.HasRoom := by
  simp only [turn, noFrame]
  split
  · rw [channel_write]
    exact BoundedChannel.hasRoom_of_receive ‹_›
  · simp only [channel_write]
    exact BoundedChannel.hasRoom_of_receive ‹_›
  · rename_i nothing
    refine absurd ?_ full
    rw [BoundedChannel.HasRoom, BoundedChannel.queue_of_receive_none nothing]
    decide

/-- The loop passes over a frame. -/
theorem turn_of_isIgnored
    {frame : WsFrame} {consumed : Nat}
    (parsed : parseFrame connection.buffer = some (frame, consumed))
    (ignored : isIgnored frame.opcode = true)
    (hasSender accepted : Bool) :
    connection.turn hasSender accepted =
      { connection with buffer := connection.buffer.drop consumed } := by
  simp only [turn, parsed]
  exact handleFrame_of_isIgnored ignored accepted

theorem ready_turn
    (ready : connection.Ready)
    (hasSender accepted : Bool) :
    (connection.turn hasSender accepted).Ready := by
  by_cases room : connection.channel.HasRoom
  · exact .inl (hasRoom_turn room hasSender accepted)
  · obtain ⟨looping, quiet⟩ := ready.resolve_left room
    cases parsed : parseFrame connection.buffer with
    | none => exact .inl (hasRoom_turn_of_full parsed room hasSender accepted)
    | some result =>
        have consumed : 2 ≤ result.2 ∧ result.2 ≤ connection.buffer.length :=
          consumed_of_parseFrame parsed
        obtain ⟨less, lengthEq⟩ : ∃ less, connection.buffer.length = less + 1 :=
          ⟨connection.buffer.length - 1, by omega⟩
        rw [lengthEq] at quiet
        simp only [quietFor, parsed, Bool.and_eq_true] at quiet
        have turned : connection.turn hasSender accepted =
            { connection with buffer := connection.buffer.drop result.2 } :=
          turn_of_isIgnored parsed quiet.1 hasSender accepted
        rw [turned]
        exact .inr ⟨looping, quietFor_length quiet.2⟩

/-- A step of the task that leaves the connection ready and does not put its
sender into the registry. -/
structure KeepsReady (before after : Connection) : Prop where
  ready : before.Ready → after.Ready
  registered : after.registered = true → before.registered = true

/-- A task that was not in its loop had room in its channel. -/
theorem keepsReady_of_channel
    {before after : Connection}
    (notLooping : before.task ≠ .looping)
    (same : after.channel = before.channel)
    (registered : after.registered = true → before.registered = true) :
    KeepsReady before after where
  ready ready := by
    refine .inl ?_
    rw [same]
    exact ready.resolve_right fun looping => notLooping looping.1
  registered := registered

end Connection

/-! ## The targets of a call stay ready -/

/-- The sends that a call still has to make go to different connections, all of
them ready. -/
structure CallsReady (system : SocketSystem) : Prop where
  distinct : (system.calls.map Send.target).Nodup
  ready : ∀ send ∈ system.calls, ∀ connection,
    system.connections send.target = some connection →
    send.found = true ∨ connection.registered = true → connection.Ready

theorem callsReady_of_idle
    (idle : system.calls = []) :
    CallsReady system where
  distinct := by simp [idle]
  ready := by simp [idle]

/-- A change of one connection by its task. -/
theorem callsReady_onConnection
    {id : Nat} {change : Connection → Option Connection}
    (sound : CallsReady system)
    (keeps : ∀ before after, change before = some after → before.KeepsReady after)
    (stepEq : system.onConnection id change = some next) :
    CallsReady next := by
  obtain ⟨after, changed, rfl⟩ := Option.map_eq_some_iff.mp stepEq
  obtain ⟨before, found, changeEq⟩ := Option.bind_eq_some_iff.mp changed
  refine ⟨sound.distinct, fun send member connection atTarget known => ?_⟩
  by_cases same : send.target = id
  · simp only [same, Function.update_self, Option.some.injEq] at atTarget
    cases atTarget
    have kept := keeps before after changeEq
    exact kept.ready
      (sound.ready send member before (by rw [same, found]) (known.imp_right kept.registered))
  · simp only [Function.update_of_ne same] at atTarget
    exact sound.ready send member connection atTarget known

theorem callsReady_connect
    (sound : CallsReady system) :
    CallsReady system.connect where
  distinct := sound.distinct
  ready send member connection atTarget known := by
    by_cases same : send.target = system.nextStreamId
    · simp only [SocketSystem.connect, same, Function.update_self, Option.some.injEq] at atTarget
      cases atTarget
      exact .inl (by decide)
    · simp only [SocketSystem.connect, Function.update_of_ne same] at atTarget
      exact sound.ready send member connection atTarget known

theorem registered_of_isRegistered
    {id : Nat}
    (isRegistered : system.isRegistered id = true)
    (found : system.connections id = some connection) :
    connection.registered = true := by
  simpa [SocketSystem.isRegistered, found] using isRegistered

theorem callsReady_streamWrite
    {id : Nat} {data : Octets}
    (meets : system.TargetReady id) :
    CallsReady (system.streamWrite id data) := by
  by_cases isRegistered : system.isRegistered id = true
  · refine ⟨by simp [SocketSystem.streamWrite, isRegistered], ?_⟩
    intro send member connection atTarget known
    simp only [SocketSystem.streamWrite, isRegistered, if_true, List.mem_singleton] at member
    cases member
    exact meets connection atTarget (registered_of_isRegistered isRegistered atTarget)
  · exact callsReady_of_idle (by simp [SocketSystem.streamWrite, isRegistered])

theorem callsReady_streamEnd
    {id : Nat}
    (meets : system.TargetReady id) :
    CallsReady (system.streamEnd id) := by
  by_cases isRegistered : system.isRegistered id = true
  · refine ⟨by simp [SocketSystem.streamEnd, isRegistered], ?_⟩
    intro send member connection atTarget known
    simp only [SocketSystem.streamEnd, isRegistered, if_true, List.mem_singleton] at member
    cases member
    simp only [SocketSystem.streamEnd, if_true, Option.map_eq_some_iff] at atTarget
    obtain ⟨before, found, rfl⟩ := atTarget
    exact meets before found (registered_of_isRegistered isRegistered found)
  · exact callsReady_of_idle (by simp [SocketSystem.streamEnd, isRegistered])

theorem callsReady_wsPublish
    {topic : Text} {data : Octets} {order : List Nat}
    (meets : ∀ id ∈ order, system.TargetReady id)
    (stepEq : system.wsPublish topic data order = some next) :
    CallsReady next := by
  unfold SocketSystem.wsPublish at stepEq
  split at stepEq
  case isFalse => cases stepEq
  case isTrue subscribers =>
      cases stepEq
      refine ⟨?_, ?_⟩
      · simp only [List.map_map]
        rw [show Send.target ∘ (fun id => (⟨id, .chunk (encodeFrame opcodeText data), false⟩ :
          Send)) = id from rfl, List.map_id]
        exact subscribers.1
      · intro send member connection atTarget known
        obtain ⟨id, subscribed, rfl⟩ := List.mem_map.mp member
        exact meets id subscribed connection atTarget (known.resolve_left (by simp))

/-- The rest of a call, after its first send. -/
theorem callsReady_rest
    {send : Send} {rest : List Send}
    (sound : CallsReady system)
    (calls : system.calls = send :: rest) :
    CallsReady (system.endSend send rest) := by
  have distinct := sound.distinct
  have ready := sound.ready
  rw [calls] at distinct ready
  rw [List.map_cons, List.nodup_cons] at distinct
  exact ⟨distinct.2, fun other member => ready other (List.mem_cons_of_mem send member)⟩

/-- The first send goes to a connection to which no other send goes. -/
theorem callsReady_sent
    {send : Send} {rest : List Send} {sent : Connection}
    (sound : CallsReady system)
    (calls : system.calls = send :: rest) :
    CallsReady
      { system.endSend send rest with
        connections := Function.update system.connections send.target (some sent) } := by
  have remaining := callsReady_rest sound calls
  have distinct := sound.distinct
  rw [calls, List.map_cons, List.nodup_cons] at distinct
  refine ⟨remaining.distinct, fun other member connection atTarget known => ?_⟩
  have different : other.target ≠ send.target := by
    intro same
    exact distinct.1 (same ▸ List.mem_map_of_mem member)
  simp only [Function.update_of_ne different] at atTarget
  exact remaining.ready other member connection atTarget known

/-- The sender of the first send is looked up. -/
theorem callsReady_lookUp
    {send : Send} {rest : List Send}
    (sound : CallsReady system)
    (calls : system.calls = send :: rest)
    (found : system.connections send.target = some connection)
    (registered : connection.registered = true) :
    CallsReady { system with calls := { send with found := true } :: rest } := by
  have distinct := sound.distinct
  rw [calls] at distinct
  refine ⟨distinct, fun other member reached atTarget known => ?_⟩
  rcases List.mem_cons.mp member with rfl | inRest
  · have same : connection = reached := Option.some.inj (found.symm.trans atTarget)
    exact sound.ready send (by simp [calls]) reached atTarget (.inr (same ▸ registered))
  · exact sound.ready other (by simp [calls, inRest]) reached atTarget known

theorem callsReady_progress
    (sound : CallsReady system)
    (stepEq : system.progress = some next) :
    CallsReady next := by
  unfold SocketSystem.progress at stepEq
  split at stepEq
  · cases stepEq
  · rename_i send rest calls
    split at stepEq
    · cases stepEq
      exact callsReady_rest sound calls
    · rename_i connection found
      split_ifs at stepEq with isFound gone registered
      · cases stepEq
        exact callsReady_rest sound calls
      · obtain ⟨channel, sent, rfl⟩ := Option.map_eq_some_iff.mp stepEq
        exact callsReady_sent sound calls
      · cases stepEq
        exact callsReady_lookUp sound calls found registered
      · cases stepEq
        exact callsReady_rest sound calls

/-! ## Steps -/

theorem keepsReady_answer
    {before after : Connection}
    (changed : before.answer = some after) :
    before.KeepsReady after := by
  unfold Connection.answer at changed
  split at changed
  case h_4 => cases changed
  all_goals
    rename_i data task
    cases changed
    exact Connection.keepsReady_of_channel (by simp [task]) rfl fun registered => registered

theorem keepsReady_receive
    {data : Octets} {before after : Connection}
    (changed : before.receive data = some after) :
    before.KeepsReady after := by
  unfold Connection.receive at changed
  split at changed
  case isFalse => cases changed
  case isTrue reading =>
      cases changed
      exact Connection.keepsReady_of_channel (by simp [reading.1]) rfl fun registered => registered

theorem keepsReady_stop
    {before after : Connection}
    (changed : before.stop = some after) :
    before.KeepsReady after := by
  unfold Connection.stop at changed
  split at changed
  case isFalse => cases changed
  case isTrue reading =>
      cases changed
      exact Connection.keepsReady_of_channel (by simp [reading]) rfl fun registered => registered

theorem keepsReady_cleanup
    {before after : Connection}
    (changed : before.cleanup = some after) :
    before.KeepsReady after := by
  unfold Connection.cleanup at changed
  split at changed
  case isFalse => cases changed
  case isTrue leaving =>
      cases changed
      exact Connection.keepsReady_of_channel (by simp [leaving]) rfl fun registered => by
        cases registered

theorem keepsReady_turn
    {hasSender accepted : Bool} {before after : Connection}
    (changed : (if before.task = .looping then some (before.turn hasSender accepted) else none) =
      some after) :
    before.KeepsReady after := by
  split at changed
  case isFalse => cases changed
  case isTrue =>
      cases changed
      refine ⟨fun ready => Connection.ready_turn ready hasSender accepted, fun registered => ?_⟩
      rwa [Connection.registered_turn] at registered

theorem callsReady_step
    {event : SocketEvent}
    (sound : CallsReady system)
    (meets : CallsFindRoom system event)
    (stepEq : system.step event = some next) :
    CallsReady next := by
  unfold SocketSystem.step at stepEq
  split at stepEq
  · cases stepEq
    exact callsReady_connect sound
  · exact callsReady_onConnection sound (fun _ _ => keepsReady_turn) stepEq
  · exact callsReady_onConnection sound (fun _ _ => keepsReady_receive) stepEq
  · exact callsReady_onConnection sound (fun _ _ => keepsReady_stop) stepEq
  · split at stepEq
    · cases stepEq
    · exact callsReady_onConnection sound (fun _ _ => keepsReady_cleanup) stepEq
  · exact callsReady_progress sound stepEq
  · exact callsReady_onConnection sound (fun _ _ => keepsReady_answer) stepEq
  · cases stepEq
    exact callsReady_streamWrite meets
  · cases stepEq
    exact callsReady_streamEnd meets
  · exact callsReady_wsPublish meets stepEq
  · rename_i idle
    cases stepEq
    exact callsReady_of_idle idle
  · rename_i idle
    cases stepEq
    exact callsReady_of_idle idle
  · cases stepEq

/-! ## Calls come to their end -/

theorem OwnSteps.callsReady
    (steps : OwnSteps system next)
    (sound : CallsReady system) :
    CallsReady next := by
  induction steps with
  | refl => exact sound
  | tail _ last hypothesis =>
      obtain ⟨event, own, stepEq⟩ := last
      refine callsReady_step hypothesis ?_ stepEq
      cases event <;> trivial

theorem ownSteps_progress
    (stepEq : system.progress = some next) :
    OwnSteps system next :=
  .single ⟨.progress, trivial, stepEq⟩

theorem step_turn
    {id : Nat}
    (found : system.connections id = some connection)
    (looping : connection.task = .looping) :
    system.step (.turn id true) =
      some { system with
        connections := Function.update system.connections id
          (some (connection.turn (system.isRegistered id || system.isSendingTo id) true)) } := by
  simp only [SocketSystem.step, SocketSystem.onConnection, found, Option.bind_some, looping,
    if_true, Option.map_some]

/-- A task in its loop makes room with its own turns. -/
theorem exists_room
    {fuel id : Nat}
    (found : system.connections id = some connection)
    (looping : connection.task = .looping)
    (quiet : quietFor fuel connection.buffer = true)
    (full : ¬ connection.channel.HasRoom) :
    ∃ final after, OwnSteps system final ∧ final.calls = system.calls ∧
      final.connections id = some after ∧ after.channel.HasRoom := by
  induction fuel generalizing system connection with
  | zero =>
      rw [quietFor, Option.isNone_iff_eq_none] at quiet
      exact ⟨_, _, .single ⟨.turn id true, trivial, step_turn found looping⟩, rfl, Function.update_self ..,
        Connection.hasRoom_turn_of_full quiet full _ _⟩
  | succ fuel hypothesis =>
      have turn := step_turn found looping
      cases parsed : parseFrame connection.buffer with
      | none =>
          exact ⟨_, _, .single ⟨.turn id true, trivial, turn⟩, rfl, Function.update_self ..,
            Connection.hasRoom_turn_of_full parsed full _ _⟩
      | some result =>
          simp only [quietFor, parsed, Bool.and_eq_true] at quiet
          have turned : connection.turn (system.isRegistered id || system.isSendingTo id) true =
              { connection with buffer := connection.buffer.drop result.2 } :=
            Connection.turn_of_isIgnored parsed quiet.1 _ _
          rw [turned] at turn
          obtain ⟨final, after, steps, calls, atTarget, room⟩ :=
            @hypothesis { system with
              connections := Function.update system.connections id
                (some { connection with buffer := connection.buffer.drop result.2 }) }
              _ (Function.update_self ..) looping quiet.2 full
          exact ⟨final, after, .head ⟨.turn id true, trivial, turn⟩ steps, calls, atTarget, room⟩

/-- A sender that was looked up finds room. -/
theorem exists_sent
    {send : Send} {rest : List Send}
    (sound : CallsReady system)
    (calls : system.calls = send :: rest)
    (isFound : send.found = true) :
    ∃ final, OwnSteps system final ∧ final.calls = rest := by
  have pushes : ∀ {state : SocketSystem} {connection : Connection},
      state.calls = send :: rest → state.connections send.target = some connection →
      connection.channel.HasRoom → ∃ final, OwnSteps state final ∧ final.calls = rest := by
    intro state connection calls found room
    by_cases gone : connection.task = .gone
    · exact ⟨state.endSend send rest, ownSteps_progress (by
        simp only [SocketSystem.progress, calls, found, isFound, gone, if_true]), rfl⟩
    · obtain ⟨channel, sent⟩ := Option.isSome_iff_exists.mp
        ((BoundedChannel.send_isSome_iff connection.channel send.message).mpr room)
      have step : state.progress = some
          { state.endSend send rest with
            connections := Function.update state.connections send.target
              (some { connection with channel := channel }) } := by
        simp only [SocketSystem.progress, calls, found, isFound, if_true, if_neg gone, sent,
          Option.map_some]
      exact ⟨_, ownSteps_progress step, rfl⟩
  cases found : system.connections send.target with
  | none =>
      exact ⟨system.endSend send rest, ownSteps_progress (by
        simp only [SocketSystem.progress, calls, found]), rfl⟩
  | some connection =>
      by_cases room : connection.channel.HasRoom
      · exact pushes calls found room
      · have ready := sound.ready send (by simp [calls]) connection found (.inl isFound)
        obtain ⟨looping, quiet⟩ := ready.resolve_left room
        obtain ⟨middle, after, steps, sameCalls, atTarget, hasRoom⟩ :=
          exists_room found looping quiet room
        obtain ⟨final, sent, finalCalls⟩ := pushes (sameCalls.trans calls) atTarget hasRoom
        exact ⟨final, steps.trans sent, finalCalls⟩

/-- The first send of a call is made, or its connection has left. -/
theorem exists_rest
    {send : Send} {rest : List Send}
    (sound : CallsReady system)
    (calls : system.calls = send :: rest) :
    ∃ final, OwnSteps system final ∧ final.calls = rest := by
  by_cases isFound : send.found = true
  · exact exists_sent sound calls isFound
  · cases found : system.connections send.target with
    | none =>
        exact ⟨system.endSend send rest, ownSteps_progress (by
          simp only [SocketSystem.progress, calls, found]), rfl⟩
    | some connection =>
        by_cases registered : connection.registered = true
        · have lookUp : OwnSteps system
              { system with calls := { send with found := true } :: rest } :=
            ownSteps_progress (by
              simp only [SocketSystem.progress, calls, found, if_neg isFound, if_pos registered])
          obtain ⟨final, sent, finalCalls⟩ := exists_sent (lookUp.callsReady sound) rfl rfl
          exact ⟨final, lookUp.trans sent, finalCalls⟩
        · exact ⟨system.endSend send rest, ownSteps_progress (by
            simp only [SocketSystem.progress, calls, found, if_neg isFound, if_neg registered]),
            rfl⟩

theorem exists_idle
    {calls : List Send}
    (sound : CallsReady system)
    (callsEq : system.calls = calls) :
    ∃ final, OwnSteps system final ∧ final.calls = [] := by
  induction calls generalizing system with
  | nil => exact ⟨system, .refl, callsEq⟩
  | cons send rest hypothesis =>
      obtain ⟨middle, steps, middleCalls⟩ := exists_rest sound callsEq
      obtain ⟨final, others, idle⟩ := hypothesis (OwnSteps.callsReady steps sound) middleCalls
      exact ⟨final, steps.trans others, idle⟩

/-- A full channel is one whose task is in its loop. -/
theorem notWaiting_of_callsReady
    {event : HandlerEvent} {data : Octets}
    (sound : CallsReady system)
    (blocked : system.BlockedOn connection) :
    connection.task ≠ .dispatching event data := by
  obtain ⟨send, rest, calls, isFound, found, full⟩ := blocked
  have ready := sound.ready send (by simp [calls]) connection found (.inl isFound)
  simp [(ready.resolve_left full).1]

/-- In a run in which every native call finds the connections it sends to ready,
no call and no task wait for each other, and every call returns. -/
theorem callsReturn_of_callsFindRoom
    (reaches : socketMachine.ReachesUnder CallsFindRoom system) :
    CallsReturn system := by
  have sound : CallsReady system := by
    refine reaches.invariant (callsReady_of_idle rfl) ?_
    intro state event next sound meets stepEq
    exact callsReady_step sound meets stepEq
  exact ⟨fun _ _ _ blocked => notWaiting_of_callsReady sound blocked, exists_idle sound rfl⟩

/-! ## Runs -/

/-- Two clients in a topic, and a publish from the handler of one of them. -/
def publishEvents : List SocketEvent :=
  [.connect, .wsSubscribe 1 (text "news"), .answer 1, .connect, .wsSubscribe 2 (text "news"),
    .wsPublish (text "news") (octets "hi") [2, 1], .progress, .progress, .progress]

theorem callsReturn_of_callsFindRoom_publish :
    ∃ system, socketMachine.ReachesUnder CallsFindRoom system ∧
      system.calls.map Send.target = [1] ∧ CallsReturn system :=
  have reaches := Machine.reachesUnder_of_run publishEvents rfl
  ⟨_, reaches, rfl, callsReturn_of_callsFindRoom reaches⟩

/-- An `open` handler that sends sixty-five messages. -/
def floodEvents : List SocketEvent :=
  .connect :: (List.replicate 64 [.streamWrite 1 [], .progress]).flatten ++ [.streamWrite 1 []]

/-- The handler waits for room, and the task waits for the handler. -/
theorem not_callsReturn_of_flood :
    ¬ ∀ system, socketMachine.Reaches system → CallsReturn system := by
  intro returns
  have run : ((socketMachine.runFrom (fun _ _ => True) socketMachine.start floodEvents).map
      fun system => (system.calls.map fun send => (send.target, send.found),
        (system.connections 1).map fun connection =>
          (connection.task, connection.channel.queue.length))) =
      some ([(1, true)], some (.dispatching .open [], 64)) := by
    rfl
  obtain ⟨system, reached, shown⟩ := Option.map_eq_some_iff.mp run
  obtain ⟨calls, connections⟩ := Prod.mk.inj shown
  obtain ⟨send, callsEq, sendEq⟩ := List.map_eq_singleton_iff.mp calls
  obtain ⟨target, found⟩ := Prod.mk.inj sendEq
  obtain ⟨connection, atTarget, connectionEq⟩ := Option.map_eq_some_iff.mp connections
  obtain ⟨task, full⟩ := Prod.mk.inj connectionEq
  have blocked : system.BlockedOn connection :=
    ⟨send, [], callsEq, found, by rw [target, atTarget], by simp [BoundedChannel.HasRoom, full]⟩
  exact (returns system (Machine.reachesUnder_of_run floodEvents reached)).notWaiting
    connection .open [] blocked task

end WebSocket
end HttpNative
