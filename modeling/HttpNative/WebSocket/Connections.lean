import HttpNative.Library.Dictionary
import HttpNative.Library.Machine
import HttpNative.Streaming.ResponseStream
import HttpNative.WebSocket.Frames
import Mathlib.Data.Finset.Basic

/-!
# WebSocket connections

The tasks of the workers, the channels between the JavaScript thread and the
tasks, and the topics. A task hands an event over to the JavaScript thread and
waits for the handler; the JavaScript thread sends to a channel and waits for
room in it.
-/

namespace HttpNative
namespace WebSocket

open Streaming (StreamMessage)

/-- The events that are dispatched to the handlers of a route. -/
inductive HandlerEvent where
  | open
  | message
  | close
deriving DecidableEq

/-- Where the task of a connection is. -/
inductive Task where
  /-- It awaits the handler. -/
  | dispatching (event : HandlerEvent) (data : Octets)
  /-- At the head of its loop. -/
  | looping
  /-- It waits for octets of the client. -/
  | reading
  /-- Behind its loop, before it is removed from the registry. -/
  | leaving
  | gone
deriving DecidableEq

structure Connection where
  task : Task
  /-- The stream registry has the sender. -/
  registered : Bool
  channel : BoundedChannel 64 StreamMessage
  buffer : Octets
  written : Octets

/-- A send that a native call still has to make; its sender is looked up
first. -/
structure Send where
  target : Nat
  message : StreamMessage
  found : Bool

/-- The connections under their ids, the topics, and the sends of the native call
that the JavaScript thread is in. -/
structure SocketSystem where
  nextStreamId : Nat
  connections : Nat → Option Connection
  topics : Dictionary Text (Finset Nat)
  calls : List Send

inductive SocketEvent where
  /-- A connection is upgraded. -/
  | connect
  /-- The handler that a task awaits has returned. -/
  | answer (id : Nat)
  /-- A task goes through its loop; what it writes is accepted or not. -/
  | turn (id : Nat) (accepted : Bool)
  | receive (id : Nat) (data : Octets)
  /-- A read that ends the connection: time-out, end of input, or error. -/
  | stop (id : Nat)
  | cleanup (id : Nat)
  | streamWrite (id : Nat) (data : Octets)
  | streamEnd (id : Nat)
  /-- The subscribers are gone through in some order. -/
  | wsPublish (topic : Text) (data : Octets) (order : List Nat)
  | wsSubscribe (id : Nat) (topic : Text)
  | wsUnsubscribe (id : Nat) (topic : Text)
  /-- The native call goes on with its next send. -/
  | progress

/-! ## The task of a connection -/

namespace Connection

def opened : Connection where
  task := .dispatching .open []
  registered := true
  channel := .empty
  buffer := []
  written := []

def write (connection : Connection) (frame : Octets) (accepted : Bool) : Connection :=
  if accepted then { connection with written := connection.written ++ frame }
  else { connection with task := .leaving }

/-- A complete frame in front of the buffer. -/
def handleFrame
    (connection : Connection)
    (frame : WsFrame)
    (accepted : Bool) :
    Connection :=
  if frame.opcode = opcodeText ∨ frame.opcode = opcodeBinary then
    { connection with task := .dispatching .message frame.payload }
  else if frame.opcode = opcodePing then
    connection.write (encodeFrame opcodePong frame.payload) accepted
  else if frame.opcode = opcodeClose then
    { connection.write normalClosure accepted with task := .leaving }
  else
    connection

/-- The message loop: a frame of the client first, then a message of the
channel, and a read when there is neither. -/
def turn
    (connection : Connection)
    (hasSender accepted : Bool) :
    Connection :=
  match parseFrame connection.buffer with
  | some (frame, consumed) =>
      { connection with buffer := connection.buffer.drop consumed }.handleFrame frame accepted
  | none =>
      match connection.channel.receive with
      | some (.chunk data, channel) =>
          { connection with channel := channel }.write (encodeFrame opcodeText data) accepted
      | some (.end, channel) =>
          { { connection with channel := channel }.write normalClosure accepted with
            task := .leaving }
      | none => { connection with task := if hasSender then .reading else .leaving }

/-- The dispatcher returns; what has come with the upgrade is dropped. -/
def answer (connection : Connection) : Option Connection :=
  match connection.task with
  | .dispatching .open _ => some { connection with task := .looping, buffer := [] }
  | .dispatching .message _ => some { connection with task := .looping }
  | .dispatching .close _ => some { connection with task := .gone }
  | _ => none

/-- The octets read take the place of the buffer. -/
def receive (connection : Connection) (data : Octets) : Option Connection :=
  if connection.task = .reading ∧ data ≠ [] then
    some { connection with task := .looping, buffer := data }
  else
    none

def stop (connection : Connection) : Option Connection :=
  if connection.task = .reading then some { connection with task := .leaving, buffer := [] }
  else none

/-- The task removes its sender and dispatches the last event. -/
def cleanup (connection : Connection) : Option Connection :=
  if connection.task = .leaving then
    some { connection with task := .dispatching .close [], registered := false }
  else
    none

end Connection

/-! ## Topics -/

/-- `ws_subscribe`. -/
def wsSubscribe
    (id : Nat)
    (topic : Text)
    (topics : Dictionary Text (Finset Nat)) :
    Dictionary Text (Finset Nat) :=
  topics.set topic (insert id ((topics.get topic).getD ∅))

/-- `ws_unsubscribe`. -/
def wsUnsubscribe
    (id : Nat)
    (topic : Text)
    (topics : Dictionary Text (Finset Nat)) :
    Dictionary Text (Finset Nat) :=
  match topics.get topic with
  | none => topics
  | some subscribers =>
      if subscribers.erase id = ∅ then topics.erase topic
      else topics.set topic (subscribers.erase id)

/-- `ws_unsubscribe_all`. -/
def wsUnsubscribeAll
    (id : Nat)
    (topics : Dictionary Text (Finset Nat)) :
    Dictionary Text (Finset Nat) :=
  (topics.map fun entry => (entry.1, entry.2.erase id)).filter fun entry => entry.2 ≠ ∅

/-! ## The native calls -/

namespace SocketSystem

def isRegistered (system : SocketSystem) (id : Nat) : Bool :=
  (system.connections id).any (·.registered)

/-- The native call that the JavaScript thread is in has the sender of a
connection. -/
def isSendingTo (system : SocketSystem) (id : Nat) : Bool :=
  system.calls.head?.any fun send => send.target = id && send.found

/-- A sender that is taken from the registry in place keeps its entry locked. -/
def holdsEntry (system : SocketSystem) (id : Nat) : Bool :=
  system.isRegistered id && system.isSendingTo id

def onConnection
    (system : SocketSystem)
    (id : Nat)
    (change : Connection → Option Connection) :
    Option SocketSystem :=
  ((system.connections id).bind change).map fun connection =>
    { system with connections := Function.update system.connections id (some connection) }

/-- `stream_write`. It throws when the registry has no sender. -/
def streamWrite (system : SocketSystem) (id : Nat) (data : Octets) : SocketSystem :=
  { system with
    calls := if system.isRegistered id then [⟨id, .chunk data, true⟩] else [] }

/-- `stream_end`. The sender is taken out of the registry before it sends, and the
topics are cleared after that. -/
def streamEnd (system : SocketSystem) (id : Nat) : SocketSystem :=
  { system with
    connections := fun other =>
      if other = id then (system.connections id).map ({ · with registered := false })
      else system.connections other
    topics := if system.isRegistered id then system.topics else wsUnsubscribeAll id system.topics
    calls := if system.isRegistered id then [⟨id, .end, true⟩] else [] }

/-- `ws_publish`. -/
def wsPublish
    (system : SocketSystem)
    (topic : Text)
    (data : Octets)
    (order : List Nat) :
    Option SocketSystem :=
  if order.Nodup ∧ order.toFinset = (system.topics.get topic).getD ∅ then
    some { system with
      calls := order.map fun id => ⟨id, .chunk (encodeFrame opcodeText data), false⟩ }
  else
    none

/-- The native call is done with its first send. -/
def endSend (system : SocketSystem) (send : Send) (rest : List Send) : SocketSystem :=
  { system with
    topics :=
      match send.message with
      | .chunk _ => system.topics
      | .end => wsUnsubscribeAll send.target system.topics
    calls := rest }

/-- The next send of the native call; a full channel blocks it. -/
def progress (system : SocketSystem) : Option SocketSystem :=
  match system.calls with
  | [] => none
  | send :: rest =>
      match system.connections send.target with
      | none => some (system.endSend send rest)
      | some connection =>
          if send.found then
            if connection.task = .gone then
              some (system.endSend send rest)
            else
              (connection.channel.send send.message).map fun channel =>
                { system.endSend send rest with
                  connections := Function.update system.connections send.target
                    (some { connection with channel := channel }) }
          else if connection.registered then
            some { system with calls := { send with found := true } :: rest }
          else
            some (system.endSend send rest)

def connect (system : SocketSystem) : SocketSystem :=
  { system with
    nextStreamId := system.nextStreamId + 1
    connections := Function.update system.connections system.nextStreamId
      (some Connection.opened) }

/-- The JavaScript thread starts a call, or runs a handler to its end, only
outside of other calls. -/
def step
    (system : SocketSystem)
    (event : SocketEvent) :
    Option SocketSystem :=
  match event, system.calls with
  | .connect, _ => some system.connect
  | .turn id accepted, _ =>
      system.onConnection id fun connection =>
        if connection.task = .looping then
          some (connection.turn (system.isRegistered id || system.isSendingTo id) accepted)
        else
          none
  | .receive id data, _ => system.onConnection id (·.receive data)
  | .stop id, _ => system.onConnection id (·.stop)
  | .cleanup id, _ =>
      if system.holdsEntry id then none else system.onConnection id (·.cleanup)
  | .progress, _ => system.progress
  | .answer id, [] => system.onConnection id (·.answer)
  | .streamWrite id data, [] => some (system.streamWrite id data)
  | .streamEnd id, [] => some (system.streamEnd id)
  | .wsPublish topic data order, [] => system.wsPublish topic data order
  | .wsSubscribe id topic, [] => some { system with topics := wsSubscribe id topic system.topics }
  | .wsUnsubscribe id topic, [] =>
      some { system with topics := wsUnsubscribe id topic system.topics }
  | _, _ :: _ => none

end SocketSystem

/-- Ids start at one. -/
def socketMachine : Machine SocketSystem SocketEvent where
  start := { nextStreamId := 1, connections := fun _ => none, topics := [], calls := [] }
  step := SocketSystem.step

end WebSocket
end HttpNative
