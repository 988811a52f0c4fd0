import HttpNative.Streaming.ResponseStream

/-!
# Chunks of a stream that arrive

A stream that is written to and ended only while its sender is in the registry
delivers every chunk in order. A handler that writes before its dispatch is
answered loses what it writes, and the end of the stream with it.
-/

namespace HttpNative
namespace Streaming

open ChunkedCoding (encodeChunk lastChunk)

variable {stream next : ResponseStream}

/-! ## Chunks on the wire -/

@[simp]
theorem encodeChunks_nil : encodeChunks [] = [] :=
  rfl

theorem encodeChunks_append
    (before after : List Octets) :
    encodeChunks (before ++ after) = encodeChunks before ++ encodeChunks after := by
  rw [encodeChunks, List.filter_append, List.flatMap_append]
  rfl

theorem encodeChunks_singleton
    (chunk : Octets) :
    encodeChunks [chunk] = if chunk.isEmpty then [] else encodeChunk chunk := by
  cases chunk <;> simp [encodeChunks]

/-- The chunks on the wire are read as the chunks put together. -/
theorem decode_encodeChunks
    (chunks : List Octets) :
    ChunkedCoding.decode (chunks.length + 1) (encodeChunks chunks ++ lastChunk) =
      some (chunks.flatten, []) := by
  have filled : ∀ chunk ∈ chunks.filter (!·.isEmpty), chunk ≠ [] := by
    intro chunk member
    have notEmpty := (List.mem_filter.mp member).2
    rintro rfl
    simp at notEmpty
  have enough : (chunks.filter (!·.isEmpty)).length < chunks.length + 1 :=
    Nat.lt_succ_of_le (List.length_filter_le _ chunks)
  have read := ChunkedCoding.decode_encode filled enough []
  rw [List.append_nil, List.flatten_filter_not_isEmpty] at read
  exact read

/-! ## What holds of every stream -/

/-- The messages for the chunks that were not sent yet, and for the end. -/
def messagesFor (unsent : List Octets) (ended : Bool) : List StreamMessage :=
  unsent.map .chunk ++ if ended then [.end] else []

/-- The chunks are divided into those that the worker has written and those in
the channel. -/
structure Divided (stream : ResponseStream) (sent unsent : List Octets) : Prop where
  issued : stream.issued = sent ++ unsent
  queue : stream.channel.queue = messagesFor unsent stream.ended
  body : stream.body = encodeChunks sent
  registered : stream.registered = !stream.ended

/-- Nothing has happened to a stream that the worker does not know. -/
structure Untouched (stream : ResponseStream) : Prop where
  issued : stream.issued = []
  ended : stream.ended = false
  registered : stream.registered = false
  body : stream.body = []

structure Closed (stream : ResponseStream) : Prop where
  ended : stream.ended = true
  registered : stream.registered = false
  body : stream.body = encodeChunks stream.issued ++ lastChunk

def Sound (stream : ResponseStream) : Prop :=
  match stream.phase with
  | .dispatching | .answered | .failed => Untouched stream
  | .receiving => ∃ sent unsent, Divided stream sent unsent
  | .finished => Closed stream

theorem sound_receiving
    (phase : stream.phase = .receiving) :
    Sound stream ↔ ∃ sent unsent, Divided stream sent unsent := by
  rw [Sound, phase]

theorem Divided.sound
    {sent unsent : List Octets}
    (divided : Divided stream sent unsent)
    (phase : stream.phase = .receiving) :
    Sound stream :=
  (sound_receiving phase).mpr ⟨sent, unsent, divided⟩

theorem sound_finished
    (phase : stream.phase = .finished) :
    Sound stream ↔ Closed stream := by
  rw [Sound, phase]

theorem sound_untouched
    (notReceiving : stream.phase ≠ .receiving)
    (notFinished : stream.phase ≠ .finished) :
    Sound stream ↔ Untouched stream := by
  cases phase : stream.phase <;> simp_all [Sound]

/-- A registered stream is one whose worker receives. -/
theorem phase_of_registered
    (sound : Sound stream)
    (registered : stream.registered = true) :
    stream.phase = .receiving := by
  by_contra notReceiving
  by_cases finished : stream.phase = .finished
  · have closed := (sound_finished finished).mp sound
    simp [closed.registered] at registered
  · have untouched := (sound_untouched notReceiving finished).mp sound
    simp [untouched.registered] at registered

/-! ## Steps of the handler -/

theorem sound_streamWrite
    {chunk : Octets}
    (sound : Sound stream)
    (meets : stream.ended = false → stream.registered = true)
    (written : stream.streamWrite chunk = some next) :
    Sound next := by
  unfold ResponseStream.streamWrite at written
  split at written
  case isTrue registered =>
      have phase := phase_of_registered sound registered
      obtain ⟨sent, unsent, divided⟩ := (sound_receiving phase).mp sound
      have open' : stream.ended = false := by
        have same := divided.registered
        rw [registered] at same
        simpa using same.symm
      obtain ⟨channel, sentEq, rfl⟩ := Option.map_eq_some_iff.mp written
      have queue := BoundedChannel.queue_of_send sentEq
      have issue : stream.issue chunk = { stream with issued := stream.issued ++ [chunk] } := by
        rw [ResponseStream.issue, open']
        rfl
      rw [issue]
      have now : Divided
          { stream with issued := stream.issued ++ [chunk], channel := channel }
          sent (unsent ++ [chunk]) := by
        refine ⟨?_, ?_, divided.body, divided.registered⟩
        · simp [divided.issued]
        · simp [queue, divided.queue, messagesFor, open']
      exact now.sound phase
  case isFalse notRegistered =>
      have ended : stream.ended = true := by
        by_contra notEnded
        exact notRegistered (meets (by simpa using notEnded))
      cases written
      rw [ResponseStream.issue, if_pos ended]
      exact sound

theorem sound_streamEnd
    (sound : Sound stream)
    (meets : stream.ended = false → stream.registered = true)
    (wasEnded : stream.streamEnd = some next) :
    Sound next := by
  unfold ResponseStream.streamEnd at wasEnded
  split at wasEnded
  case isTrue registered =>
      have phase := phase_of_registered sound registered
      obtain ⟨sent, unsent, divided⟩ := (sound_receiving phase).mp sound
      have open' : stream.ended = false := by
        have same := divided.registered
        rw [registered] at same
        simpa using same.symm
      obtain ⟨channel, sentEq, rfl⟩ := Option.map_eq_some_iff.mp wasEnded
      have queue := BoundedChannel.queue_of_send sentEq
      have now : Divided
          { stream with registered := false, channel := channel, ended := true } sent unsent := by
        refine ⟨divided.issued, ?_, divided.body, rfl⟩
        simp [queue, divided.queue, messagesFor, open']
      exact now.sound phase
  case isFalse notRegistered =>
      have ended : stream.ended = true := by
        by_contra notEnded
        exact notRegistered (meets (by simpa using notEnded))
      cases wasEnded
      have same : { stream with ended := true } = stream := by
        cases stream
        simp_all
      rwa [same]

/-! ## Steps of the worker -/

theorem sound_insert
    (phase : stream.phase = .answered)
    (sound : Sound stream) :
    Sound stream.insert := by
  have untouched : Untouched stream :=
    (sound_untouched (by simp [phase]) (by simp [phase])).mp sound
  refine (sound_receiving rfl).mpr ⟨[], [], ?_, ?_, ?_, ?_⟩
  · exact untouched.issued
  · simp [ResponseStream.insert, messagesFor, untouched.ended]
  · exact untouched.body
  · simp [ResponseStream.insert, untouched.ended]

/-- The worker writes the next chunk. -/
theorem receive_chunk
    {chunk : Octets} {sent unsent : List Octets}
    (divided : Divided stream sent (chunk :: unsent)) :
    ∃ received, stream.receive true = some received ∧
      Divided received (sent ++ [chunk]) unsent ∧
      received.phase = stream.phase ∧ received.issued = stream.issued ∧
      received.ended = stream.ended := by
  have first : stream.channel.queue = .chunk chunk :: messagesFor unsent stream.ended :=
    divided.queue
  obtain ⟨channel, receiveEq, rest⟩ := BoundedChannel.exists_receive first
  have issued : stream.issued = sent ++ [chunk] ++ unsent := by
    rw [divided.issued, List.append_assoc, List.singleton_append]
  by_cases isEmpty : chunk.isEmpty = true
  · refine ⟨{ stream with channel := channel }, ?_, ⟨issued, rest, ?_, divided.registered⟩,
      rfl, rfl, rfl⟩
    · simp [ResponseStream.receive, receiveEq, isEmpty]
    · simp [encodeChunks_append, encodeChunks_singleton, isEmpty, divided.body]
  · refine ⟨{ stream with channel := channel, body := stream.body ++ encodeChunk chunk }, ?_,
      ⟨issued, rest, ?_, divided.registered⟩, rfl, rfl, rfl⟩
    · simp [ResponseStream.receive, receiveEq, isEmpty]
    · simp [encodeChunks_append, encodeChunks_singleton, isEmpty, divided.body]

/-- The worker comes to the end of the stream. -/
theorem receive_end
    {sent : List Octets}
    (divided : Divided stream sent [])
    (ended : stream.ended = true) :
    ∃ received, stream.receive true = some received ∧ received.phase = .finished ∧
      received.issued = stream.issued ∧ Closed received := by
  have first : stream.channel.queue = [.end] := by
    simp [divided.queue, messagesFor, ended]
  obtain ⟨channel, receiveEq, -⟩ := BoundedChannel.exists_receive first
  refine ⟨{ stream with channel := channel }.leave lastChunk, ?_, rfl, rfl, ended, rfl, ?_⟩
  · simp [ResponseStream.receive, receiveEq]
  · have issued : stream.issued = sent := by simpa using divided.issued
    simp [ResponseStream.leave, divided.body, issued]

/-- Without a message the worker waits. -/
theorem receive_nothing
    {sent : List Octets}
    (divided : Divided stream sent [])
    (notEnded : stream.ended = false) :
    stream.receive true = none := by
  have nothing : stream.channel.receive = none := by
    cases received : stream.channel.receive with
    | none => rfl
    | some result =>
        have queue : stream.channel.queue = result.1 :: result.2.queue :=
          BoundedChannel.queue_of_receive received
        simp [divided.queue, messagesFor, notEnded] at queue
  simp [ResponseStream.receive, nothing, divided.registered, notEnded]

theorem sound_receive
    (phase : stream.phase = .receiving)
    (sound : Sound stream)
    (received : stream.receive true = some next) :
    Sound next := by
  obtain ⟨sent, unsent, divided⟩ := (sound_receiving phase).mp sound
  cases unsent with
  | cons chunk unsent =>
      obtain ⟨result, receiveEq, rest, samePhase, -, -⟩ := receive_chunk divided
      cases receiveEq.symm.trans received
      exact rest.sound (samePhase.trans phase)
  | nil =>
      cases ended : stream.ended with
      | true =>
          obtain ⟨result, receiveEq, finished, -, closed⟩ := receive_end divided ended
          cases receiveEq.symm.trans received
          exact (sound_finished finished).mpr closed
      | false =>
          rw [receive_nothing divided ended] at received
          cases received

theorem sound_step
    {event : StreamEvent}
    (sound : Sound stream)
    (meets : stream.Meets event)
    (stepEq : stream.step event = some next) :
    Sound next := by
  unfold ResponseStream.step at stepEq
  split at stepEq
  · exact sound_streamWrite sound meets stepEq
  · exact sound_streamEnd sound meets stepEq
  case h_3 phase =>
      cases stepEq
      have untouched := (sound_untouched (by simp [phase]) (by simp [phase])).mp sound
      exact ⟨untouched.issued, untouched.ended, untouched.registered, untouched.body⟩
  case h_4 phase =>
      cases stepEq
      have untouched := (sound_untouched (by simp [phase]) (by simp [phase])).mp sound
      exact ⟨untouched.issued, untouched.ended, untouched.registered, untouched.body⟩
  case h_5 phase =>
      cases stepEq
      exact sound_insert phase sound
  case h_6 accepted phase =>
      cases (meets : accepted = true)
      exact sound_receive phase sound stepEq
  · cases stepEq

/-! ## The worker on its own -/

/-- The worker writes what is in the channel. -/
theorem drain_of_divided
    {sent unsent : List Octets}
    (phase : stream.phase = .receiving)
    (divided : Divided stream sent unsent) :
    ∃ final, stream.drain stream.channel.queue.length = some final ∧
      if stream.ended then
        final.phase = .finished ∧ final.body = encodeChunks stream.issued ++ lastChunk
      else
        final.body = encodeChunks stream.issued := by
  induction unsent generalizing stream sent with
  | nil =>
      have issued : stream.issued = sent := by simpa using divided.issued
      cases ended : stream.ended with
      | true =>
          obtain ⟨final, receiveEq, finished, same, closed⟩ := receive_end divided ended
          refine ⟨final, ?_, finished, ?_⟩
          · have turns : stream.channel.queue.length = 1 := by
              simp [divided.queue, messagesFor, ended]
            simp [turns, ResponseStream.drain, ResponseStream.step, phase, receiveEq]
          · rw [← same]
            exact closed.body
      | false =>
          refine ⟨stream, ?_, ?_⟩
          · have turns : stream.channel.queue.length = 0 := by
              simp [divided.queue, messagesFor, ended]
            rw [turns]
            rfl
          · rw [issued]
            exact divided.body
  | cons chunk unsent hypothesis =>
      obtain ⟨received, receiveEq, rest, samePhase, sameIssued, sameEnded⟩ :=
        receive_chunk divided
      obtain ⟨final, drained, result⟩ := hypothesis (samePhase.trans phase) rest
      refine ⟨final, ?_, ?_⟩
      · have turns : stream.channel.queue.length = received.channel.queue.length + 1 := by
          simp [divided.queue, rest.queue, messagesFor, sameEnded]
        have turn : stream.step (.receive true) = some received := by
          simp only [ResponseStream.step, phase, receiveEq]
        rw [turns, ResponseStream.drain, turn]
        exact drained
      · rw [← sameEnded, ← sameIssued]
        exact result

theorem delivered_of_sound
    (sound : Sound stream) :
    Delivered stream where
  inOrder phase := by
    obtain ⟨sent, unsent, divided⟩ := (sound_receiving phase).mp sound
    exact ⟨sent, ⟨unsent, divided.issued.symm⟩, divided.body⟩
  drains phase := by
    obtain ⟨sent, unsent, divided⟩ := (sound_receiving phase).mp sound
    obtain ⟨final, drained, result⟩ := drain_of_divided phase divided
    refine ⟨final, drained, ?_⟩
    split at result
    case isTrue ended =>
        rw [if_pos ended]
        refine ⟨result.1, ?_⟩
        rw [result.2]
        exact decode_encodeChunks stream.issued
    case isFalse notEnded =>
        rw [if_neg notEnded]
        exact result
  decodes phase := by
    have closed := (sound_finished phase).mp sound
    rw [closed.body]
    exact decode_encodeChunks stream.issued
  unanswered phase := by
    have untouched := (sound_untouched (by simp [phase]) (by simp [phase])).mp sound
    exact ⟨untouched.issued, untouched.ended⟩

/-! ## Runs -/

def AllSound (system : StreamSystem) : Prop :=
  ∀ streamId stream, system.streams streamId = some stream → Sound stream

theorem sound_systemStep
    {system nextSystem : StreamSystem} {event : SystemEvent}
    (sound : AllSound system)
    (meets : WritesRegistered system event)
    (stepEq : system.step event = some nextSystem) :
    AllSound nextSystem := by
  cases event with
  | streamCreate =>
      cases stepEq
      exact Machine.forall_update sound system.nextStreamId ⟨rfl, rfl, rfl, rfl⟩
  | onStream streamId event =>
      obtain ⟨written, stepped, rfl⟩ := Option.map_eq_some_iff.mp stepEq
      obtain ⟨before, found, streamStep⟩ := Option.bind_eq_some_iff.mp stepped
      exact Machine.forall_update sound streamId
        (sound_step (sound streamId before found) (meets before found) streamStep)

/-- In a run in which streams are written to and ended only while the registry
has their senders, every stream delivers what was written to it. -/
theorem allDelivered_of_writesRegistered
    {system : StreamSystem}
    (reaches : streamMachine.ReachesUnder WritesRegistered system) :
    AllDelivered system := by
  have sound : AllSound system := by
    refine reaches.invariant ?_ ?_
    · intro streamId stream found
      cases found
    · intro state event next sound meets stepEq
      exact sound_systemStep sound meets stepEq
  intro streamId stream found
  exact delivered_of_sound (sound streamId stream found)

/-- A stream that is written to after its insertion. -/
def servedEvents : List SystemEvent :=
  [.streamCreate, .onStream 1 .answer, .onStream 1 .insert,
    .onStream 1 (.write (.string (text "ab"))), .onStream 1 (.receive true),
    .onStream 1 (.write (.string (text "c"))), .onStream 1 .end,
    .onStream 1 (.receive true), .onStream 1 (.receive true)]

def servedStream : ResponseStream where
  phase := .finished
  registered := false
  channel := .empty
  body := octets "2\r\nab\r\n1\r\nc\r\n0\r\n\r\n"
  issued := [octets "ab", octets "c"]
  ended := true

theorem allDelivered_of_writesRegistered_served :
    ∃ system, streamMachine.ReachesUnder WritesRegistered system ∧
      system.streams 1 = some servedStream ∧ AllDelivered system :=
  have reaches := Machine.reachesUnder_of_run servedEvents rfl
  ⟨_, reaches, rfl, allDelivered_of_writesRegistered reaches⟩

/-- A handler that writes and ends its stream before it returns leaves the
worker waiting in front of an empty channel. -/
theorem not_allDelivered_of_writeBeforeInsert :
    ¬ ∀ system, streamMachine.Reaches system → AllDelivered system := by
  intro delivered
  have run : ((streamMachine.runFrom (fun _ _ => True) streamMachine.start
      [.streamCreate, .onStream 1 (.write (.string (text "a"))), .onStream 1 .end,
        .onStream 1 .answer, .onStream 1 .insert]).bind (·.streams 1)) =
      some
        { phase := .receiving
          registered := true
          channel := .empty
          body := []
          issued := [octets "a"]
          ended := true } := rfl
  obtain ⟨system, reached, found⟩ := Option.bind_eq_some_iff.mp run
  obtain ⟨final, drained, lost⟩ :=
    (delivered system (Machine.reachesUnder_of_run _ reached) 1 _ found).drains rfl
  cases drained
  cases lost.1

end Streaming
end HttpNative
