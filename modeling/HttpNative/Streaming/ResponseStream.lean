import HttpNative.Library.BoundedChannel
import HttpNative.Library.ChunkedCoding
import HttpNative.Library.Json
import HttpNative.Library.Machine
import HttpNative.Library.Utf8
import Mathlib.Logic.Function.Basic

/-!
# Streamed responses

`res.stream` takes a stream id, and the handler writes to the stream under that
id. The channel behind the id is made later, when the worker has received the
stream-start envelope and inserts the sender into the stream registry; from then
on the worker passes the chunks of the channel on to the client.
-/

namespace HttpNative
namespace Streaming

/-- What a handler passes to `write`. -/
inductive StreamData where
  | string (value : Text)
  | buffer (octets : Octets)
  | object (value : Json)
  | other (printed : Text)

/-- The chunk that `write` makes of its argument. -/
def StreamData.chunk : StreamData → Octets
  | .string value => Utf8.encode value
  | .buffer octets => octets
  | .object value => Utf8.encode (value.render Json.stringifyWriter)
  | .other printed => Utf8.encode printed

inductive StreamMessage where
  | chunk (data : Octets)
  | end

/-- How far the dispatch of the request and the worker that awaits it are. -/
inductive Phase where
  /-- The promise of the dispatcher is open. -/
  | dispatching
  /-- It was resolved with a stream-start envelope. -/
  | answered
  /-- It was resolved with an ordinary response, since the handler has thrown. -/
  | failed
  /-- The worker is in the receive loop. -/
  | receiving
  /-- The worker has left the receive loop. -/
  | finished
deriving DecidableEq

/-- A stream, with the chunks passed to `write` before `end` and whether `end`
was called. -/
structure ResponseStream where
  phase : Phase
  /-- The stream registry has the sender. -/
  registered : Bool
  channel : BoundedChannel 16 StreamMessage
  /-- The octets written to the client behind the header block. -/
  body : Octets
  issued : List Octets
  ended : Bool

inductive StreamEvent where
  | write (data : StreamData)
  | end
  /-- The handler has returned, and `dispatch` returns the envelope. -/
  | answer
  /-- The handler has thrown. -/
  | fail
  /-- The worker has received the envelope. -/
  | insert
  /-- The worker receives; the client accepts what is written, or the
  connection is broken. -/
  | receive (accepted : Bool)

namespace ResponseStream

/-- `streamCreate`. -/
def created : ResponseStream where
  phase := .dispatching
  registered := false
  channel := .empty
  body := []
  issued := []
  ended := false

def issue (stream : ResponseStream) (chunk : Octets) : ResponseStream :=
  if stream.ended then stream else { stream with issued := stream.issued ++ [chunk] }

/-- `stream_write`. It throws when the registry has no sender, and a full
channel blocks it. -/
def streamWrite
    (stream : ResponseStream)
    (chunk : Octets) :
    Option ResponseStream :=
  if stream.registered then
    (stream.channel.send (.chunk chunk)).map fun channel =>
      { stream.issue chunk with channel := channel }
  else
    some (stream.issue chunk)

/-- `stream_end`. It does nothing when the registry has no sender. -/
def streamEnd (stream : ResponseStream) : Option ResponseStream :=
  if stream.registered then
    (stream.channel.send .end).map fun channel =>
      { stream with registered := false, channel := channel, ended := true }
  else
    some { stream with ended := true }

/-- The worker inserts a new channel, whether or not the stream was ended. -/
def insert (stream : ResponseStream) : ResponseStream :=
  { stream with phase := .receiving, registered := true, channel := .empty }

/-- The worker leaves the receive loop. -/
def leave (stream : ResponseStream) (last : Octets) : ResponseStream :=
  { stream with phase := .finished, registered := false, body := stream.body ++ last }

/-- One turn of the receive loop; an empty channel makes the worker wait as long
as there is a sender. -/
def receive
    (stream : ResponseStream)
    (accepted : Bool) :
    Option ResponseStream :=
  let last := if accepted then ChunkedCoding.lastChunk else []
  match stream.channel.receive with
  | none => if stream.registered then none else some (stream.leave last)
  | some (.chunk data, channel) =>
      if data.isEmpty then
        some { stream with channel := channel }
      else if accepted then
        some { stream with
          channel := channel, body := stream.body ++ ChunkedCoding.encodeChunk data }
      else
        some ({ stream with channel := channel }.leave [])
  | some (.end, channel) => some ({ stream with channel := channel }.leave last)

def step
    (stream : ResponseStream)
    (event : StreamEvent) :
    Option ResponseStream :=
  match event, stream.phase with
  | .write data, _ => stream.streamWrite data.chunk
  | .end, _ => stream.streamEnd
  | .answer, .dispatching => some { stream with phase := .answered }
  | .fail, .dispatching => some { stream with phase := .failed }
  | .insert, .answered => some stream.insert
  | .receive accepted, .receiving => stream.receive accepted
  | _, _ => none

/-- The worker's next turns on a stream, with a client that accepts. -/
def drain : Nat → ResponseStream → Option ResponseStream
  | 0, stream => some stream
  | turns + 1, stream => (stream.step (.receive true)).bind (drain turns)

end ResponseStream

/-! ## All streams -/

/-- The streams of a server under their ids. -/
structure StreamSystem where
  nextStreamId : Nat
  streams : Nat → Option ResponseStream

inductive SystemEvent where
  | streamCreate
  | onStream (streamId : Nat) (event : StreamEvent)

def StreamSystem.step
    (system : StreamSystem) :
    SystemEvent → Option StreamSystem
  | .streamCreate =>
      some
        { nextStreamId := system.nextStreamId + 1
          streams := Function.update system.streams system.nextStreamId
            (some ResponseStream.created) }
  | .onStream streamId event =>
      ((system.streams streamId).bind (·.step event)).map fun stream =>
        { system with streams := Function.update system.streams streamId (some stream) }

/-- Ids start at one. -/
def streamMachine : Machine StreamSystem SystemEvent where
  start := { nextStreamId := 1, streams := fun _ => none }
  step := StreamSystem.step

/-! ## What a client is promised -/

/-- Chunks as the worker writes them; empty ones are passed over. -/
def encodeChunks (chunks : List Octets) : Octets :=
  (chunks.filter (!·.isEmpty)).flatMap ChunkedCoding.encodeChunk

/-- Nothing that was written to the stream is lost. -/
structure Delivered (stream : ResponseStream) : Prop where
  /-- The body so far is a row of chunks that were written, in order. -/
  inOrder : stream.phase = .receiving →
    ∃ sent, sent <+: stream.issued ∧ stream.body = encodeChunks sent
  /-- With the messages in the channel the worker writes all other chunks; once
  the stream was ended it leaves the loop, and the body is read as the chunks put
  together. -/
  drains : stream.phase = .receiving →
    ∃ final, stream.drain stream.channel.queue.length = some final ∧
      if stream.ended then
        final.phase = .finished ∧
          ChunkedCoding.decode (stream.issued.length + 1) final.body =
            some (stream.issued.flatten, [])
      else
        final.body = encodeChunks stream.issued
  /-- The body of a finished stream is read as the chunks put together. -/
  decodes : stream.phase = .finished →
    ChunkedCoding.decode (stream.issued.length + 1) stream.body = some (stream.issued.flatten, [])
  /-- Nothing was written to a stream that no worker answers. -/
  unanswered : stream.phase = .failed → stream.issued = [] ∧ stream.ended = false

def AllDelivered (system : StreamSystem) : Prop :=
  ∀ streamId stream, system.streams streamId = some stream → Delivered stream

/-- The stream is in the registry when it is written to or ended, and the client
accepts what the worker writes. -/
def ResponseStream.Meets (stream : ResponseStream) : StreamEvent → Prop
  | .write _ | .end => stream.ended = false → stream.registered = true
  | .receive accepted => accepted = true
  | _ => True

instance (stream : ResponseStream) (event : StreamEvent) : Decidable (stream.Meets event) := by
  cases event <;> unfold ResponseStream.Meets <;> infer_instance

def WritesRegistered (system : StreamSystem) : SystemEvent → Prop
  | .streamCreate => True
  | .onStream streamId event => ∀ stream ∈ system.streams streamId, stream.Meets event

instance (system : StreamSystem) (event : SystemEvent) :
    Decidable (WritesRegistered system event) := by
  cases event <;> unfold WritesRegistered <;> infer_instance

end Streaming
end HttpNative
