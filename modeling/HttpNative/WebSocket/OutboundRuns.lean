import HttpNative.WebSocket.OutboundMessages

/-!
# Runs with outbound messages

Every message of a call is in the row that was written, in the channel, or with the
native call that passes it on, until its connection ends.
-/

namespace HttpNative
namespace WebSocket

open Streaming (StreamMessage)

/-! ## What a task writes -/

theorem length_payload_of_parseFrame
    {buf : Octets} {frame : WsFrame} {consumed : Nat}
    (parsed : parseFrame buf = some (frame, consumed)) :
    frame.payload.length < LittleEndian.limit 8 := by
  unfold parseFrame at parsed
  split at parsed
  · obtain ⟨⟨payloadLength, lengthEnd⟩, lengthRead, parsed⟩ := Option.bind_eq_some_iff.mp parsed
    rw [Option.ite_none_left_eq_some] at parsed
    obtain ⟨small, parsed⟩ := parsed
    obtain ⟨⟨key, offset⟩, keyRead, parsed⟩ := Option.bind_eq_some_iff.mp parsed
    rw [Option.ite_none_left_eq_some] at parsed
    obtain ⟨enough, result⟩ := parsed
    cases result
    have maximum : maxPayloadSize < LittleEndian.limit 8 := by decide
    rw [length_unmask, List.length_take]
    omega
  · cases parsed

/-- What an event other than a native call means for the messages of a connection. -/
inductive Serves (before after : Connection) : Prop
  | quiet (written : after.written = before.written)
      (queue : after.task.inService = true → after.channel.queue = before.channel.queue)
  | control (opcode : Fin 16) (payload : Octets) (isControl : 8 ≤ opcode.val)
      (fits : payload.length < LittleEndian.limit 8)
      (written : after.written = before.written ++ encodeFrame (UInt8.ofNat opcode) payload)
      (queue : after.task.inService = true → after.channel.queue = before.channel.queue)
  | data (chunk : Octets)
      (inService : before.task.inService = true)
      (queue : before.channel.queue = .chunk chunk :: after.channel.queue)
      (written : after.written = before.written ++ encodeFrame opcodeText chunk)

namespace Connection

variable {connection : Connection}

/-- A control frame is written, or the connection ends. -/
theorem serves_write
    {base : Connection}
    (written : connection.written = base.written)
    (queue : connection.channel.queue = base.channel.queue)
    (opcode : Fin 16)
    (isControl : 8 ≤ opcode.val)
    {payload : Octets}
    (fits : payload.length < LittleEndian.limit 8)
    (accepted : Bool) :
    Serves base (connection.write (encodeFrame (UInt8.ofNat opcode) payload) accepted) := by
  cases accepted with
  | false => exact .quiet written fun _ => queue
  | true =>
      refine .control opcode payload isControl fits ?_ fun _ => queue
      rw [← written]
      rfl

/-- A connection that leaves with a close frame. -/
theorem serves_close
    {base : Connection}
    (written : connection.written = base.written)
    (accepted : Bool) :
    Serves base { connection.write normalClosure accepted with task := .leaving } := by
  cases accepted with
  | false => exact .quiet written fun inService => by cases inService
  | true =>
      refine .control 8 (bigEndian 2 1000 ++ []) (by decide) (by decide) ?_
        fun inService => by cases inService
      rw [← written]
      rfl

theorem serves_handleFrame
    {base : Connection}
    (written : connection.written = base.written)
    (queue : connection.channel.queue = base.channel.queue)
    {frame : WsFrame}
    (fits : frame.payload.length < LittleEndian.limit 8)
    (accepted : Bool) :
    Serves base (connection.handleFrame frame accepted) := by
  unfold handleFrame
  split_ifs
  · exact .quiet written fun _ => queue
  · exact serves_write written queue 10 (by decide) fits accepted
  · exact serves_close written accepted
  · exact .quiet written fun _ => queue

theorem serves_turn
    (looping : connection.task = .looping)
    (hasSender accepted : Bool) :
    Serves connection (connection.turn hasSender accepted) := by
  unfold turn
  split
  · rename_i frame consumed parsed
    refine serves_handleFrame ?_ ?_ (length_payload_of_parseFrame parsed) accepted
    · rfl
    · rfl
  · split
    · rename_i chunk channel received
      have queue := BoundedChannel.queue_of_receive received
      cases accepted with
      | false => exact .quiet rfl fun inService => by cases inService
      | true => exact .data chunk (by rw [looping]; rfl) queue rfl
    · refine serves_close ?_ accepted
      rfl
    · exact .quiet rfl fun _ => rfl

end Connection

/-- What serves a connection does not bring it back into service. -/
theorem serves_of_change
    {system : SocketSystem} {event : SocketEvent} {id : Nat} {before after : Connection}
    (change : ConnectionChange system id event before after)
    (notProgress : event ≠ .progress) :
    Serves before after ∧ (after.task.inService = true → before.task.inService = true) := by
  cases change with
  | turn looping => exact ⟨Connection.serves_turn looping _ _, fun _ => by rw [looping]; rfl⟩
  | receive changed =>
      unfold Connection.receive at changed
      split at changed
      · rename_i reading
        cases changed
        exact ⟨.quiet rfl fun _ => rfl, fun _ => by rw [reading.1]; rfl⟩
      · cases changed
  | stop changed =>
      unfold Connection.stop at changed
      split at changed
      · cases changed
        exact ⟨.quiet rfl fun _ => rfl, fun inService => by cases inService⟩
      · cases changed
  | cleanup free changed =>
      unfold Connection.cleanup at changed
      split at changed
      · cases changed
        exact ⟨.quiet rfl fun _ => rfl, fun inService => by cases inService⟩
      · cases changed
  | answer calls changed =>
      unfold Connection.answer at changed
      split at changed
      · rename_i dispatching
        cases changed
        exact ⟨.quiet rfl fun _ => rfl, fun _ => by rw [dispatching]; rfl⟩
      · rename_i dispatching
        cases changed
        exact ⟨.quiet rfl fun _ => rfl, fun _ => by rw [dispatching]; rfl⟩
      · cases changed
        exact ⟨.quiet rfl fun _ => rfl, fun inService => by cases inService⟩
      · cases changed
  | streamEnd calls => exact ⟨.quiet rfl fun _ => rfl, fun inService => inService⟩
  | push calls target isFound notGone sent => exact absurd rfl notProgress

theorem registered_of_inService
    {system : SocketSystem} {event : SocketEvent} {id : Nat} {before after : Connection}
    (change : ConnectionChange system id event before after)
    (inService : after.task.inService = true)
    (busy : system.calls ≠ [])
    (registered : before.registered = true) :
    after.registered = true := by
  refine registered_of_change change registered ?_ ?_
  · rintro rfl
    cases change with
    | streamEnd calls => exact busy calls
  · rintro rfl
    cases change with
    | cleanup free changed =>
        unfold Connection.cleanup at changed
        split at changed <;> cases changed
        cases inService

/-! ## The messages on their way -/

def chunkOf : StreamMessage → Option Octets
  | .chunk data => some data
  | .end => none

/-- What a send brings to a connection once it has the sender. -/
def Send.chunkFor
    (id : Nat)
    (send : Send) :
    Option Octets :=
  if send.target = id ∧ send.found = true then chunkOf send.message else none

/-- A send for which the sender is still to be looked up. -/
def LooksUp
    (id : Nat)
    (calls : List Send) :
    Prop :=
  ∃ send ∈ calls, send.target = id ∧ send.found = false

def chunksFor
    (id : Nat)
    (calls : List Send)
    (connection : Connection) :
    List Octets :=
  connection.channel.queue.filterMap chunkOf ++ calls.filterMap (Send.chunkFor id)

/-- The messages that wait for the task, and those that a publication has still to
pass on. -/
structure Waits
    (id : Nat)
    (calls : List Send)
    (connection : Connection)
    (waiting published : List OutMessage) :
    Prop where
  chunks : chunksFor id calls connection = waiting.map OutMessage.chunk
  strings : ∀ message ∈ waiting, message.isString = true
  lookedUp : published ≠ [] → connection.registered = true ∧ LooksUp id calls

/-- Every message is written, waits, or is dropped when the connection ends. -/
def Ledger
    (id : Nat)
    (calls : List Send)
    (addressed : List OutMessage)
    (connection : Connection) :
    Prop :=
  ∃ delivered rest, addressed = delivered ++ rest ∧ Carries connection.written delivered ∧
    (connection.task.inService = true →
      ∃ waiting published, rest = waiting ++ published ∧
        Waits id calls connection waiting published)

/-- The native call has the same in store for a connection. -/
structure SameSends
    (id : Nat)
    (calls later : List Send) :
    Prop where
  chunks : later.filterMap (Send.chunkFor id) = calls.filterMap (Send.chunkFor id)
  lookedUp : LooksUp id calls → LooksUp id later

theorem SameSends.refl
    (id : Nat)
    (calls : List Send) :
    SameSends id calls calls :=
  ⟨rfl, fun looksUp => looksUp⟩

variable {id : Nat} {calls later : List Send} {addressed : List OutMessage}
  {before after : Connection}

/-- A connection is served out of what waits for it. -/
theorem Ledger.serves
    (ledger : Ledger id calls addressed before)
    (serves : Serves before after)
    (stays : after.task.inService = true → before.task.inService = true)
    (registered : after.task.inService = true → calls ≠ [] → before.registered = true →
      after.registered = true)
    (same : SameSends id calls later) :
    Ledger id later addressed after := by
  obtain ⟨delivered, rest, all, carries, waits⟩ := ledger
  have lookedUp : ∀ {waiting published}, Waits id calls before waiting published →
      after.task.inService = true → published ≠ [] →
      after.registered = true ∧ LooksUp id later := by
    intro waiting published waits inService some
    obtain ⟨wasRegistered, looksUp⟩ := waits.lookedUp some
    obtain ⟨send, isMember, isFor⟩ := looksUp
    exact ⟨registered inService (List.ne_nil_of_mem isMember) wasRegistered,
      same.lookedUp ⟨send, isMember, isFor⟩⟩
  cases serves with
  | quiet written queue =>
      refine ⟨delivered, rest, all, written ▸ carries, fun inService => ?_⟩
      obtain ⟨waiting, published, restEq, waits⟩ := waits (stays inService)
      refine ⟨waiting, published, restEq, ?_, waits.strings, lookedUp waits inService⟩
      rw [chunksFor, queue inService, same.chunks]
      exact waits.chunks
  | control opcode payload isControl fits written queue =>
      refine ⟨delivered, rest, all, written ▸ carries.control isControl fits,
        fun inService => ?_⟩
      obtain ⟨waiting, published, restEq, waits⟩ := waits (stays inService)
      refine ⟨waiting, published, restEq, ?_, waits.strings, lookedUp waits inService⟩
      rw [chunksFor, queue inService, same.chunks]
      exact waits.chunks
  | data chunk inService queue written =>
      obtain ⟨waiting, published, restEq, waits⟩ := waits inService
      have chunks := waits.chunks
      rw [chunksFor, queue] at chunks
      cases waiting with
      | nil => cases chunks
      | cons message waiting =>
          obtain ⟨isChunk, chunks⟩ := List.cons.inj chunks
          have isString := waits.strings message List.mem_cons_self
          refine ⟨delivered ++ [message], waiting ++ published, ?_, ?_, fun inService => ?_⟩
          · rw [all, restEq, List.append_assoc]
            rfl
          · rw [written, isChunk]
            exact carries.message isString
          · refine ⟨waiting, published, rfl, ?_, ?_, lookedUp waits inService⟩
            · rw [chunksFor, same.chunks]
              exact chunks
            · intro other isMember
              exact waits.strings other (List.mem_cons_of_mem _ isMember)

theorem Ledger.sameSends
    (ledger : Ledger id calls addressed before)
    (same : SameSends id calls later) :
    Ledger id later addressed before :=
  ledger.serves (.quiet rfl fun _ => rfl) (fun inService => inService)
    (fun _ _ registered => registered) same

/-- A connection that is just opened has no messages. -/
theorem ledger_opened
    (nothing : calls.filterMap (Send.chunkFor id) = []) :
    Ledger id calls [] .opened := by
  refine ⟨[], [], rfl, carries_nil, fun _ => ⟨[], [], rfl, ?_, ?_, ?_⟩⟩
  · rw [chunksFor, nothing]
    rfl
  · intro message isMember
    cases isMember
  · intro some
    exact absurd rfl some

/-- A message that is sent is the last one that waits. -/
theorem Ledger.send
    {message : OutMessage}
    (ledger : Ledger id [] addressed before)
    (isString : message.isString = true) :
    Ledger id [⟨id, .chunk message.chunk, true⟩] (addressed ++ [message]) before := by
  obtain ⟨delivered, rest, all, carries, waits⟩ := ledger
  refine ⟨delivered, rest ++ [message], ?_, carries, fun inService => ?_⟩
  · rw [all, List.append_assoc]
  · obtain ⟨waiting, published, restEq, waits⟩ := waits inService
    have none : published = [] := by
      by_contra some
      obtain ⟨registered, send, isMember, isFor⟩ := waits.lookedUp some
      cases isMember
    subst none
    refine ⟨waiting ++ [message], [], ?_, ?_, ?_, fun some => absurd rfl some⟩
    · rw [restEq, List.append_nil, List.append_nil]
    · have chunks := waits.chunks
      rw [chunksFor, List.filterMap_nil, List.append_nil] at chunks
      rw [chunksFor, chunks, List.map_append, List.map_singleton, List.filterMap_cons_some]
      · rfl
      · rw [Send.chunkFor, if_pos ⟨rfl, rfl⟩]
        rfl
    · intro other isMember
      cases List.mem_append.mp isMember with
      | inl isWaiting => exact waits.strings other isWaiting
      | inr isLast =>
          cases List.mem_singleton.mp isLast
          exact isString

/-- A message that is published waits for the loop of `ws_publish`. -/
theorem Ledger.publish
    {message : OutMessage}
    (ledger : Ledger id [] addressed before)
    (registered : before.registered = true)
    (nothing : calls.filterMap (Send.chunkFor id) = [])
    (looksUp : LooksUp id calls) :
    Ledger id calls (addressed ++ [message]) before := by
  obtain ⟨delivered, rest, all, carries, waits⟩ := ledger
  refine ⟨delivered, rest ++ [message], ?_, carries, fun inService => ?_⟩
  · rw [all, List.append_assoc]
  · obtain ⟨waiting, published, restEq, waits⟩ := waits inService
    refine ⟨waiting, published ++ [message], ?_, ?_, waits.strings,
      fun _ => ⟨registered, looksUp⟩⟩
    · rw [restEq, List.append_assoc]
    · rw [chunksFor, nothing]
      exact waits.chunks

/-- A send that brings nothing to a connection. -/
theorem SameSends.skip
    {send : Send}
    (nothing : send.chunkFor id = none)
    (notLookedUp : ¬ (send.target = id ∧ send.found = false)) :
    SameSends id (send :: calls) calls where
  chunks := (List.filterMap_cons_none nothing).symm
  lookedUp := by
    rintro ⟨other, isMember, isFor⟩
    cases List.mem_cons.mp isMember with
    | inl same =>
        rw [same] at isFor
        exact absurd isFor notLookedUp
    | inr isLater => exact ⟨other, isLater, isFor⟩

theorem SameSends.other
    {send : Send}
    (notTarget : send.target ≠ id) :
    SameSends id (send :: calls) calls := by
  refine .skip ?_ ?_
  · rw [Send.chunkFor, if_neg]
    intro isFor
    exact notTarget isFor.1
  · intro isFor
    exact notTarget isFor.1

/-- A send that nobody takes is done. -/
theorem Ledger.skip
    {send : Send}
    (ledger : Ledger send.target (send :: calls) addressed before)
    (nobody : if send.found then before.task = .gone else before.registered = false) :
    Ledger send.target calls addressed before := by
  cases found : send.found with
  | true =>
      rw [found, if_pos rfl] at nobody
      obtain ⟨delivered, rest, all, carries, waits⟩ := ledger
      refine ⟨delivered, rest, all, carries, fun inService => ?_⟩
      rw [nobody] at inService
      cases inService
  | false =>
      rw [found, if_neg Bool.false_ne_true] at nobody
      obtain ⟨delivered, rest, all, carries, waits⟩ := ledger
      refine ⟨delivered, rest, all, carries, fun inService => ?_⟩
      obtain ⟨waiting, published, restEq, waits⟩ := waits inService
      have none : published = [] := by
        by_contra some
        have registered := (waits.lookedUp some).1
        rw [nobody] at registered
        cases registered
      refine ⟨waiting, published, restEq, ?_, waits.strings, fun some => absurd none some⟩
      have nothing : send.chunkFor send.target = Option.none := by
        rw [Send.chunkFor, found, if_neg]
        intro isFound
        cases isFound.2
      have chunks := waits.chunks
      rw [chunksFor, List.filterMap_cons_none nothing] at chunks
      exact chunks

/-- A send goes on into the channel of the connection. -/
theorem Ledger.push
    {send : Send} {channel : BoundedChannel 64 StreamMessage}
    (ledger : Ledger send.target (send :: calls) addressed before)
    (isFound : send.found = true)
    (sent : before.channel.send send.message = some channel) :
    Ledger send.target calls addressed { before with channel := channel } := by
  obtain ⟨delivered, rest, all, carries, waits⟩ := ledger
  refine ⟨delivered, rest, all, carries, fun inService => ?_⟩
  obtain ⟨waiting, published, restEq, waits⟩ := waits inService
  refine ⟨waiting, published, restEq, ?_, waits.strings, fun some => ?_⟩
  · have chunk : send.chunkFor send.target = chunkOf send.message := by
      rw [Send.chunkFor, if_pos ⟨rfl, isFound⟩]
    have chunks := waits.chunks
    rw [chunksFor, List.filterMap_cons, chunk] at chunks
    rw [chunksFor, BoundedChannel.queue_of_send sent, List.filterMap_append, List.append_assoc,
      ← chunks]
    cases chunkEq : chunkOf send.message with
    | none => rw [List.filterMap_cons_none chunkEq, List.filterMap_nil, List.nil_append]
    | some chunk => rw [List.filterMap_cons_some chunkEq, List.filterMap_nil, List.singleton_append]
  · obtain ⟨registered, other, isMember, isFor⟩ := waits.lookedUp some
    cases List.mem_cons.mp isMember with
    | inl same =>
        rw [same, isFound] at isFor
        cases isFor.2
    | inr isLater => exact ⟨registered, other, isLater, isFor⟩

/-! ## Steps -/

structure Sound (messaging : Messaging) : Prop where
  fresh : FreshIds messaging.system
  /-- Nothing has been passed on where no connection has been. -/
  absent : ∀ id, messaging.system.connections id = none →
    messaging.addressed id = [] ∧
      ∀ send ∈ messaging.system.calls, send.target = id → send.found = false
  ledger : ∀ id connection, messaging.system.connections id = some connection →
    Ledger id messaging.system.calls (messaging.addressed id) connection

theorem sound_start : Sound messagingMachine.start where
  fresh := freshIds_start
  absent := by
    intro id none
    refine ⟨rfl, ?_⟩
    intro send isMember
    cases isMember
  ledger := by
    intro id connection found
    cases found

variable {messaging : Messaging} {next : SocketSystem}

/-- An event that passes no data on leaves the native call, or starts one that ends
a connection. -/
theorem calls_of_step
    {event : SocketEvent}
    (passes : event.passesData = false)
    (notProgress : event ≠ .progress)
    (stepEq : messaging.system.step event = some next) :
    next.calls = messaging.system.calls ∨
      messaging.system.calls = [] ∧ ∃ endedId, messaging.system.isRegistered endedId = true ∧
        next.calls = [⟨endedId, .end, true⟩] := by
  have frame := frame_of_step stepEq
  have started := frame.started notProgress
  cases event with
  | streamEnd endedId =>
      by_cases idle : messaging.system.calls = []
      · by_cases registered : messaging.system.isRegistered endedId = true
        · simp only [callsAfter, SocketSystem.streamEnd, if_pos registered] at started
          exact .inr ⟨idle, endedId, registered, started⟩
        · simp only [callsAfter, SocketSystem.streamEnd, if_neg registered] at started
          exact .inl (started.trans idle.symm)
      · exact .inl (frame.calls notProgress idle)
  | streamWrite writtenId data => cases passes
  | wsPublish topic data order => cases passes
  | progress => exact absurd rfl notProgress
  | connect => exact .inl started
  | answer changedId => exact .inl started
  | turn changedId accepted => exact .inl started
  | receive changedId data => exact .inl started
  | stop changedId => exact .inl started
  | cleanup changedId => exact .inl started
  | wsSubscribe changedId topic => exact .inl started
  | wsUnsubscribe changedId topic => exact .inl started

theorem sameSends_of_step
    {event : SocketEvent}
    (passes : event.passesData = false)
    (notProgress : event ≠ .progress)
    (stepEq : messaging.system.step event = some next) :
    SameSends id messaging.system.calls next.calls := by
  cases calls_of_step passes notProgress stepEq with
  | inl same =>
      rw [same]
      exact .refl id _
  | inr ends =>
      obtain ⟨idle, endedId, registered, calls⟩ := ends
      rw [idle, calls]
      refine ⟨?_, ?_⟩
      · rw [List.filterMap_cons_none, List.filterMap_nil]
        rw [Send.chunkFor]
        split <;> rfl
      · rintro ⟨send, isMember, isFor⟩
        cases isMember

theorem exists_of_isRegistered
    {system : SocketSystem}
    (registered : system.isRegistered id = true) :
    system.connections id ≠ none := by
  obtain ⟨connection, found, isRegistered⟩ := isRegistered_iff.mp registered
  rw [found]
  exact Option.some_ne_none connection

/-- Where there is no connection there was none. -/
theorem absent_of_step
    {event : SocketEvent}
    (stepEq : messaging.system.step event = some next)
    (absent : next.connections id = none) :
    messaging.system.connections id = none := by
  by_contra present
  have stays := (frame_of_step stepEq).keeps id (Option.isSome_iff_ne_none.mpr present)
  rw [absent] at stays
  cases stays

theorem filterMap_chunkFor_eq_nil
    (notFound : ∀ send ∈ calls, send.target = id → send.found = false) :
    calls.filterMap (Send.chunkFor id) = [] := by
  rw [List.filterMap_eq_nil_iff]
  intro send isMember
  rw [Send.chunkFor, if_neg]
  rintro ⟨isTarget, isFound⟩
  rw [notFound send isMember isTarget] at isFound
  cases isFound

/-- A step that passes no data on, and is none of a native call. -/
theorem Sound.other
    {event : SocketEvent}
    (sound : Sound messaging)
    (passes : event.passesData = false)
    (notProgress : event ≠ .progress)
    (stepEq : messaging.system.step event = some next) :
    Sound { messaging with system := next } where
  fresh := freshIds_step sound.fresh stepEq
  absent := by
    intro id absent
    obtain ⟨nothing, notFound⟩ := sound.absent id (absent_of_step stepEq absent)
    refine ⟨nothing, ?_⟩
    intro send isMember isTarget
    cases calls_of_step passes notProgress stepEq with
    | inl same =>
        rw [same] at isMember
        exact notFound send isMember isTarget
    | inr ends =>
        obtain ⟨idle, endedId, registered, calls⟩ := ends
        rw [calls, List.mem_singleton] at isMember
        rw [isMember] at isTarget
        rw [← isTarget] at absent
        exact absurd (absent_of_step stepEq absent) (exists_of_isRegistered registered)
  ledger := by
    intro id after stands
    have same : SameSends id messaging.system.calls next.calls :=
      sameSends_of_step passes notProgress stepEq
    cases atConnection_of_step stepEq stands with
    | same found => exact (sound.ledger id after found).sameSends same
    | opened connects fresh isOpened =>
        obtain ⟨nothing, notFound⟩ := sound.absent id (sound.fresh id (Nat.le_of_eq fresh.symm))
        rw [isOpened, nothing]
        refine ledger_opened ?_
        rw [same.chunks]
        exact filterMap_chunkFor_eq_nil notFound
    | changed before found change =>
        obtain ⟨serves, stays⟩ := serves_of_change change notProgress
        exact (sound.ledger id before found).serves serves stays
          (registered_of_inService change) same

/-- The native call goes on, and finds no subscriber. -/
theorem Sound.progress
    (sound : Sound messaging)
    (meets : messaging.system.FindsNoSubscriber)
    (stepEq : messaging.system.step .progress = some next) :
    Sound { messaging with system := next } where
  fresh := freshIds_step sound.fresh stepEq
  absent := by
    intro id absent
    obtain ⟨nothing, notFound⟩ := sound.absent id (absent_of_step stepEq absent)
    refine ⟨nothing, ?_⟩
    intro send isMember isTarget
    cases progressed_of_progress stepEq with
    | skipped calls nobody =>
        exact notFound send (by rw [calls]; exact List.mem_cons_of_mem _ isMember) isTarget
    | pushed calls found isFound notGone sent =>
        exact notFound send (by rw [calls]; exact List.mem_cons_of_mem _ isMember) isTarget
    | lookedUp calls found isNotFound registered =>
        have unregistered := meets _ (by rw [calls]; rfl) isNotFound
        rw [isRegistered_iff.mpr ⟨_, found, registered⟩] at unregistered
        cases unregistered
  ledger := by
    intro id after stands
    cases progressed_of_progress stepEq with
    | @skipped send rest calls nobody =>
        have ledger := sound.ledger id after stands
        rw [calls] at ledger
        by_cases isTarget : send.target = id
        · subst isTarget
          exact ledger.skip (nobody after stands)
        · exact ledger.sameSends (.other isTarget)
    | @pushed send rest before channel calls found isFound notGone sent =>
        by_cases isTarget : id = send.target
        · subst isTarget
          simp only [Function.update_self, Option.some.injEq] at stands
          subst stands
          have ledger := sound.ledger send.target before found
          rw [calls] at ledger
          exact ledger.push isFound sent
        · simp only [Function.update_of_ne isTarget] at stands
          have ledger := sound.ledger id after stands
          rw [calls] at ledger
          exact ledger.sameSends (.other (Ne.symm isTarget))
    | lookedUp calls found isNotFound registered =>
        have unregistered := meets _ (by rw [calls]; rfl) isNotFound
        rw [isRegistered_iff.mpr ⟨_, found, registered⟩] at unregistered
        cases unregistered

theorem eq_of_step_streamWrite
    {data : Octets}
    (stepEq : messaging.system.step (.streamWrite id data) = some next) :
    messaging.system.calls = [] ∧ next = messaging.system.streamWrite id data := by
  cases calls : messaging.system.calls with
  | nil =>
      simp only [SocketSystem.step, calls, Option.some.injEq] at stepEq
      exact ⟨rfl, stepEq.symm⟩
  | cons send rest => simp only [SocketSystem.step, calls, reduceCtorEq] at stepEq

theorem eq_of_step_wsPublish
    {topic : Text} {data : Octets} {order : List Nat}
    (stepEq : messaging.system.step (.wsPublish topic data order) = some next) :
    messaging.system.calls = [] ∧
      next = { messaging.system with
        calls := order.map fun id => ⟨id, .chunk (encodeFrame opcodeText data), false⟩ } := by
  cases calls : messaging.system.calls with
  | nil =>
      simp only [SocketSystem.step, calls, SocketSystem.wsPublish] at stepEq
      split at stepEq <;> cases stepEq
      exact ⟨rfl, rfl⟩
  | cons send rest => simp only [SocketSystem.step, calls, reduceCtorEq] at stepEq

/-- A call is not addressed to a connection that is not there. -/
theorem addressed_of_absent
    {message : OutMessage} {targets : List Nat}
    (sound : Sound messaging)
    (absent : messaging.system.connections id = none) :
    (messaging.addressing message targets next).addressed id = [] := by
  have notAddressed : ¬ (id ∈ targets ∧ messaging.system.isRegistered id = true) := by
    intro isAddressed
    exact exists_of_isRegistered isAddressed.2 absent
  exact (if_neg notAddressed).trans (sound.absent id absent).1

theorem isRegistered_eq
    {system : SocketSystem} {connection : Connection}
    (found : system.connections id = some connection) :
    system.isRegistered id = connection.registered := by
  rw [SocketSystem.isRegistered, found]
  rfl

theorem Sound.send
    {message : OutMessage}
    (sound : Sound messaging)
    (meets : messaging.system.isRegistered id = true → message.isString = true)
    (stepEq : messaging.system.step (.streamWrite id message.chunk) = some next) :
    Sound (messaging.addressing message [id] next) := by
  obtain ⟨idle, rfl⟩ := eq_of_step_streamWrite stepEq
  refine ⟨sound.fresh, ?_, ?_⟩
  · intro other absent
    refine ⟨addressed_of_absent sound absent, ?_⟩
    intro send isMember isTarget
    simp only [Messaging.addressing, SocketSystem.streamWrite] at isMember
    split at isMember
    · rename_i registered
      rw [List.mem_singleton.mp isMember] at isTarget
      rw [← isTarget] at absent
      exact absurd absent (exists_of_isRegistered registered)
    · cases isMember
  · intro other connection found
    have ledger := sound.ledger other connection found
    rw [idle] at ledger
    simp only [Messaging.addressing, SocketSystem.streamWrite, List.mem_singleton]
    by_cases registered : messaging.system.isRegistered id = true
    · rw [if_pos registered]
      by_cases same : other = id
      · subst same
        rw [if_pos ⟨rfl, registered⟩]
        exact ledger.send (meets registered)
      · rw [if_neg fun isAddressed => same isAddressed.1]
        refine ledger.sameSends ⟨?_, ?_⟩
        · rw [List.filterMap_cons_none, List.filterMap_nil]
          rw [Send.chunkFor, if_neg]
          intro isFor
          exact same isFor.1.symm
        · rintro ⟨send, isMember, isFor⟩
          cases isMember
    · rw [if_neg registered, if_neg]
      · exact ledger
      · rintro ⟨rfl, isRegistered⟩
        exact registered isRegistered

theorem Sound.publish
    {topic : Text} {message : OutMessage} {order : List Nat}
    (sound : Sound messaging)
    (stepEq : messaging.system.step (.wsPublish topic message.chunk order) = some next) :
    Sound (messaging.addressing message order next) := by
  obtain ⟨idle, rfl⟩ := eq_of_step_wsPublish stepEq
  have notFound : ∀ id, ∀ send ∈ order.map fun id =>
      (⟨id, .chunk (encodeFrame opcodeText message.chunk), false⟩ : Send),
      send.target = id → send.found = false := by
    intro id send isMember isTarget
    obtain ⟨target, isSubscriber, rfl⟩ := List.mem_map.mp isMember
    rfl
  refine ⟨sound.fresh, ?_, ?_⟩
  · intro other absent
    exact ⟨addressed_of_absent sound absent, notFound other⟩
  · intro other connection found
    have ledger := sound.ledger other connection found
    rw [idle] at ledger
    have nothing := filterMap_chunkFor_eq_nil (notFound other)
    simp only [Messaging.addressing]
    split
    · rename_i isAddressed
      refine ledger.publish ?_ nothing ?_
      · rw [← isRegistered_eq found]
        exact isAddressed.2
      · exact ⟨_, List.mem_map.mpr ⟨other, isAddressed.1, rfl⟩, rfl, rfl⟩
    · refine ledger.sameSends ⟨nothing, ?_⟩
      rintro ⟨send, isMember, isFor⟩
      cases isMember

theorem sound_step
    {event : MessagingEvent} {final : Messaging}
    (sound : Sound messaging)
    (meets : SendsStrings messaging event)
    (stepEq : messagingMachine.step messaging event = some final) :
    Sound final := by
  cases event with
  | send id message =>
      obtain ⟨next, systemStep, rfl⟩ := Option.map_eq_some_iff.mp stepEq
      exact sound.send meets systemStep
  | publish topic message order =>
      obtain ⟨next, systemStep, rfl⟩ := Option.map_eq_some_iff.mp stepEq
      exact sound.publish systemStep
  | other event =>
      simp only [messagingMachine, Messaging.step, Option.ite_none_left_eq_some] at stepEq
      obtain ⟨passes, stepEq⟩ := stepEq
      obtain ⟨next, systemStep, rfl⟩ := Option.map_eq_some_iff.mp stepEq
      by_cases isProgress : event = .progress
      · subst isProgress
        exact sound.progress meets systemStep
      · exact sound.other (Bool.eq_false_of_not_eq_true passes) isProgress systemStep

/-! ## Runs -/

theorem delivers_of_ledger
    {connection : Connection}
    (ledger : Ledger id messaging.system.calls (messaging.addressed id) connection) :
    Delivers messaging id connection := by
  obtain ⟨delivered, rest, all, carries, waits⟩ := ledger
  refine ⟨⟨delivered, ⟨rest, all.symm⟩, carries⟩, fun inService queue notTarget => ?_⟩
  obtain ⟨waiting, published, restEq, waits⟩ := waits inService
  have noneWaits : waiting = [] := by
    have chunks := waits.chunks
    rw [chunksFor, queue, List.filterMap_nil, List.nil_append, filterMap_chunkFor_eq_nil] at chunks
    · exact List.map_eq_nil_iff.mp chunks.symm
    · intro send isMember isTarget
      exact absurd isTarget (notTarget send isMember)
  have nonePublished : published = [] := by
    by_contra some
    obtain ⟨registered, send, isMember, isTarget, isNotFound⟩ := waits.lookedUp some
    exact notTarget send isMember isTarget
  rw [all, restEq, noneWaits, nonePublished, List.append_nil, List.append_nil]
  exact carries

/-- In a run in which strings are sent and nothing that is published finds a
subscriber, every connection gets its messages. -/
theorem delivers_of_sendsStrings
    (reaches : messagingMachine.ReachesUnder SendsStrings messaging)
    {id : Nat} {connection : Connection}
    (found : messaging.system.connections id = some connection) :
    Delivers messaging id connection := by
  have sound : Sound messaging := by
    refine reaches.invariant sound_start ?_
    intro state event next sound meets stepEq
    exact sound_step sound meets stepEq
  exact delivers_of_ledger (sound.ledger id connection found)

/-! ## Greetings -/

theorem greeting_fits : (Payload.string [some 'h', some 'i']).chunk.length < 9007199254740992 := by
  decide

def greeting : OutMessage := ⟨.string [some 'h', some 'i'], greeting_fits⟩

def sentEvents : List MessagingEvent :=
  [.other .connect, .other (.answer 1), .send 1 greeting, .other .progress,
    .other (.turn 1 true)]

theorem delivers_of_sendsStrings_greeting :
    ∃ messaging connection, messagingMachine.ReachesUnder SendsStrings messaging ∧
      messaging.system.connections 1 = some connection ∧
      connection.written = encodeFrame opcodeText (octets "hi") ∧
      Delivers messaging 1 connection :=
  have reaches := Machine.reachesUnder_of_run sentEvents rfl
  ⟨_, _, reaches, rfl, rfl, delivers_of_sendsStrings reaches rfl⟩

def publishedEvents : List MessagingEvent :=
  [.other .connect, .other (.wsSubscribe 1 (text "news")), .other (.answer 1),
    .publish (text "news") greeting [1], .other .progress, .other .progress,
    .other (.turn 1 true)]

theorem not_delivers_of_published :
    ¬ ∀ messaging, messagingMachine.Reaches messaging → ∀ id connection,
      messaging.system.connections id = some connection → Delivers messaging id connection := by
  intro delivers
  have run : ((messagingMachine.runFrom (fun _ _ => True) messagingMachine.start
      publishedEvents).bind fun messaging => (messaging.system.connections 1).map
        fun connection => (messaging.addressed 1, connection.written, connection.task.inService,
          connection.channel.queue.length, messaging.system.calls.length)) =
      some ([greeting], encodeFrame opcodeText (encodeFrame opcodeText greeting.chunk), true, 0, 0) := by
    rfl
  obtain ⟨messaging, reached, shown⟩ := Option.bind_eq_some_iff.mp run
  obtain ⟨connection, found, shape⟩ := Option.map_eq_some_iff.mp shown
  simp only [Prod.mk.injEq] at shape
  obtain ⟨addressed, written, inService, queue, calls⟩ := shape
  have complete := (delivers messaging (Machine.reachesUnder_of_run publishedEvents reached) 1
    connection found).complete inService (List.length_eq_zero_iff.mp queue) (by
      rw [List.length_eq_zero_iff.mp calls]
      intro send isMember
      cases isMember)
  rw [addressed, written] at complete
  exact not_carries_published greeting complete

end WebSocket
end HttpNative
