import HttpNative.WebSocket.CallsReturn

/-!
# What a step does to one connection

Every step of the system leaves a connection as it is, opens it, or changes it
in one of a few ways.
-/

namespace HttpNative
namespace WebSocket

open Streaming (StreamMessage)

variable {system next : SocketSystem}

/-- The change of a connection by an event. -/
inductive ConnectionChange
    (system : SocketSystem)
    (id : Nat) :
    SocketEvent → Connection → Connection → Prop
  | turn {before : Connection} {accepted : Bool} :
      before.task = .looping →
      ConnectionChange system id (.turn id accepted) before
        (before.turn (system.isRegistered id || system.isSendingTo id) accepted)
  | receive {before after : Connection} {data : Octets} :
      before.receive data = some after →
      ConnectionChange system id (.receive id data) before after
  | stop {before after : Connection} :
      before.stop = some after →
      ConnectionChange system id (.stop id) before after
  | cleanup {before after : Connection} :
      system.holdsEntry id = false →
      before.cleanup = some after →
      ConnectionChange system id (.cleanup id) before after
  | answer {before after : Connection} :
      system.calls = [] →
      before.answer = some after →
      ConnectionChange system id (.answer id) before after
  | streamEnd {before : Connection} :
      system.calls = [] →
      ConnectionChange system id (.streamEnd id) before { before with registered := false }
  | push {before : Connection} {send : Send} {rest : List Send}
      {channel : BoundedChannel 64 StreamMessage} :
      system.calls = send :: rest →
      send.target = id →
      send.found = true →
      before.task ≠ .gone →
      before.channel.send send.message = some channel →
      ConnectionChange system id .progress before { before with channel := channel }

/-- What stands at an id after a step. -/
inductive AtConnection
    (system : SocketSystem)
    (id : Nat)
    (event : SocketEvent)
    (after : Connection) : Prop
  | same (found : system.connections id = some after)
  | opened (connects : event = .connect) (fresh : id = system.nextStreamId)
      (isOpened : after = .opened)
  | changed (before : Connection) (found : system.connections id = some before)
      (change : ConnectionChange system id event before after)

theorem atConnection_onConnection
    {id changedId : Nat} {event : SocketEvent} {change : Connection → Option Connection}
    {after : Connection}
    (changes : ∀ before after, change before = some after →
      ConnectionChange system changedId event before after)
    (stepEq : system.onConnection changedId change = some next)
    (found : next.connections id = some after) :
    AtConnection system id event after := by
  obtain ⟨result, changed, rfl⟩ := Option.map_eq_some_iff.mp stepEq
  obtain ⟨before, foundBefore, changeEq⟩ := Option.bind_eq_some_iff.mp changed
  by_cases same : id = changedId
  · subst same
    simp only [Function.update_self, Option.some.injEq] at found
    subst found
    exact .changed before foundBefore (changes before result changeEq)
  · simp only [Function.update_of_ne same] at found
    exact .same found

/-- What a native call does when it goes on. -/
inductive Progressed (system : SocketSystem) : SocketSystem → Prop
  /-- Nobody takes the message. -/
  | skipped {send : Send} {rest : List Send} :
      system.calls = send :: rest →
      (∀ connection, system.connections send.target = some connection →
        if send.found then connection.task = .gone else connection.registered = false) →
      Progressed system (system.endSend send rest)
  | lookedUp {send : Send} {rest : List Send} {connection : Connection} :
      system.calls = send :: rest →
      system.connections send.target = some connection →
      send.found = false →
      connection.registered = true →
      Progressed system { system with calls := { send with found := true } :: rest }
  | pushed {send : Send} {rest : List Send} {connection : Connection}
      {channel : BoundedChannel 64 StreamMessage} :
      system.calls = send :: rest →
      system.connections send.target = some connection →
      send.found = true →
      connection.task ≠ .gone →
      connection.channel.send send.message = some channel →
      Progressed system
        { system.endSend send rest with
          connections := Function.update system.connections send.target
            (some { connection with channel := channel }) }

theorem progressed_of_progress
    (stepEq : system.progress = some next) :
    Progressed system next := by
  unfold SocketSystem.progress at stepEq
  split at stepEq
  · cases stepEq
  · rename_i send rest calls
    split at stepEq
    · rename_i absent
      cases stepEq
      refine .skipped calls fun connection found => ?_
      rw [absent] at found
      cases found
    · rename_i before foundBefore
      split_ifs at stepEq with isFound gone registered
      · cases stepEq
        refine .skipped calls fun connection found => ?_
        cases foundBefore.symm.trans found
        rwa [if_pos isFound]
      · obtain ⟨channel, sent, rfl⟩ := Option.map_eq_some_iff.mp stepEq
        exact .pushed calls foundBefore isFound gone sent
      · cases stepEq
        exact .lookedUp calls foundBefore (Bool.eq_false_of_not_eq_true isFound) registered
      · cases stepEq
        refine .skipped calls fun connection found => ?_
        cases foundBefore.symm.trans found
        rw [if_neg isFound]
        exact Bool.eq_false_of_not_eq_true registered

theorem atConnection_progress
    {id : Nat} {after : Connection}
    (stepEq : system.progress = some next)
    (found : next.connections id = some after) :
    AtConnection system id .progress after := by
  cases progressed_of_progress stepEq with
  | skipped calls nobody => exact .same found
  | lookedUp calls foundBefore notFound registered => exact .same found
  | @pushed send rest before channel calls foundBefore isFound notGone sent =>
      by_cases same : id = send.target
      · subst same
        simp only [Function.update_self, Option.some.injEq] at found
        subst found
        exact .changed before foundBefore (.push calls rfl isFound notGone sent)
      · simp only [Function.update_of_ne same] at found
        exact .same found

/-- Every step does one of these to a connection. -/
theorem atConnection_of_step
    {event : SocketEvent} {id : Nat} {after : Connection}
    (stepEq : system.step event = some next)
    (found : next.connections id = some after) :
    AtConnection system id event after := by
  unfold SocketSystem.step at stepEq
  split at stepEq
  · cases stepEq
    by_cases same : id = system.nextStreamId
    · simp only [SocketSystem.connect, same, Function.update_self, Option.some.injEq] at found
      exact .opened rfl same found.symm
    · simp only [SocketSystem.connect, Function.update_of_ne same] at found
      exact .same found
  · refine atConnection_onConnection (fun before after changed => ?_) stepEq found
    split at changed
    case isTrue looping =>
        cases changed
        exact .turn looping
    case isFalse => cases changed
  · exact atConnection_onConnection (fun _ _ changed => .receive changed) stepEq found
  · exact atConnection_onConnection (fun _ _ changed => .stop changed) stepEq found
  · split at stepEq
    · cases stepEq
    · rename_i free
      exact atConnection_onConnection
        (fun _ _ changed => .cleanup (by simpa using free) changed) stepEq found
  · exact atConnection_progress stepEq found
  · rename_i calls
    exact atConnection_onConnection (fun _ _ changed => .answer calls changed) stepEq found
  · cases stepEq
    exact .same found
  · rename_i endedId calls
    cases stepEq
    by_cases same : id = endedId
    · subst same
      simp only [SocketSystem.streamEnd, if_true, Option.map_eq_some_iff] at found
      obtain ⟨before, foundBefore, rfl⟩ := found
      exact .changed before foundBefore (.streamEnd calls)
    · simp only [SocketSystem.streamEnd, if_neg same] at found
      exact .same found
  · unfold SocketSystem.wsPublish at stepEq
    split at stepEq
    · cases stepEq
      exact .same found
    · cases stepEq
  · cases stepEq
    exact .same found
  · cases stepEq
    exact .same found
  · cases stepEq

/-! ## Connections and topics that stay -/

/-- What an event does to the topics. -/
def topicsAfter (system : SocketSystem) : SocketEvent → Dictionary Text (Finset Nat)
  | .wsSubscribe id topic => wsSubscribe id topic system.topics
  | .wsUnsubscribe id topic => wsUnsubscribe id topic system.topics
  | .streamEnd id => (system.streamEnd id).topics
  | _ => system.topics

/-- The sends of the native call that an event starts. -/
def callsAfter (system : SocketSystem) : SocketEvent → List Send
  | .streamWrite id data => (system.streamWrite id data).calls
  | .streamEnd id => (system.streamEnd id).calls
  | .wsPublish _ data order =>
      order.map fun id => ⟨id, .chunk (encodeFrame opcodeText data), false⟩
  | _ => system.calls

/-- What a step does besides: every connection keeps its place, and a native call
is left to its own progress. -/
structure Frame
    (system next : SocketSystem)
    (event : SocketEvent) : Prop where
  keeps : ∀ id, (system.connections id).isSome = true → (next.connections id).isSome = true
  topics : event ≠ .progress → next.topics = topicsAfter system event
  calls : event ≠ .progress → system.calls ≠ [] → next.calls = system.calls
  started : event ≠ .progress → next.calls = callsAfter system event

theorem isSome_update
    {id other : Nat} {changed : Connection}
    (isSome : (system.connections id).isSome = true) :
    (Function.update system.connections other (some changed) id).isSome = true := by
  by_cases same : id = other
  · simp [same]
  · rwa [Function.update_of_ne same]

theorem frame_onConnection
    {event : SocketEvent} {id : Nat} {change : Connection → Option Connection}
    (topicsEq : topicsAfter system event = system.topics)
    (callsEq : callsAfter system event = system.calls)
    (stepEq : system.onConnection id change = some next) :
    Frame system next event := by
  obtain ⟨result, changed, rfl⟩ := Option.map_eq_some_iff.mp stepEq
  exact ⟨fun _ => isSome_update, fun _ => topicsEq.symm, fun _ _ => rfl, fun _ => callsEq.symm⟩

/-- The native call is done with its first send, or has looked up its sender. -/
theorem progress_cases
    (stepEq : system.progress = some next) :
    ∃ send rest, system.calls = send :: rest ∧
      (next.topics = (system.endSend send rest).topics ∧ next.calls = rest ∨
        next.topics = system.topics ∧ next.calls = { send with found := true } :: rest) := by
  cases progressed_of_progress stepEq with
  | skipped calls nobody => exact ⟨_, _, calls, .inl ⟨rfl, rfl⟩⟩
  | lookedUp calls found notFound registered => exact ⟨_, _, calls, .inr ⟨rfl, rfl⟩⟩
  | pushed calls found isFound notGone sent => exact ⟨_, _, calls, .inl ⟨rfl, rfl⟩⟩

theorem keeps_progress
    {id : Nat}
    (stepEq : system.progress = some next)
    (isSome : (system.connections id).isSome = true) :
    (next.connections id).isSome = true := by
  cases progressed_of_progress stepEq with
  | skipped calls nobody => exact isSome
  | lookedUp calls found notFound registered => exact isSome
  | pushed calls found isFound notGone sent => exact isSome_update isSome

theorem frame_of_step
    {event : SocketEvent}
    (stepEq : system.step event = some next) :
    Frame system next event := by
  unfold SocketSystem.step at stepEq
  split at stepEq
  · cases stepEq
    exact ⟨fun _ => isSome_update, fun _ => rfl, fun _ _ => rfl, fun _ => rfl⟩
  · exact frame_onConnection rfl rfl stepEq
  · exact frame_onConnection rfl rfl stepEq
  · exact frame_onConnection rfl rfl stepEq
  · split at stepEq
    · cases stepEq
    · exact frame_onConnection rfl rfl stepEq
  · exact ⟨fun _ => keeps_progress stepEq, fun other => absurd rfl other,
      fun other => absurd rfl other, fun other => absurd rfl other⟩
  · exact frame_onConnection rfl rfl stepEq
  · rename_i calls
    cases stepEq
    exact ⟨fun _ isSome => isSome, fun _ => rfl, fun _ busy => absurd calls busy,
      fun _ => rfl⟩
  · rename_i calls
    cases stepEq
    refine ⟨fun id isSome => ?_, fun _ => rfl, fun _ busy => absurd calls busy,
      fun _ => rfl⟩
    simp only [SocketSystem.streamEnd]
    split
    · rename_i same
      rwa [Option.isSome_map, ← same]
    · exact isSome
  · rename_i calls
    unfold SocketSystem.wsPublish at stepEq
    split at stepEq <;> cases stepEq
    exact ⟨fun _ isSome => isSome, fun _ => rfl, fun _ busy => absurd calls busy,
      fun _ => rfl⟩
  · cases stepEq
    exact ⟨fun _ isSome => isSome, fun _ => rfl, fun _ _ => rfl, fun _ => rfl⟩
  · cases stepEq
    exact ⟨fun _ isSome => isSome, fun _ => rfl, fun _ _ => rfl, fun _ => rfl⟩
  · cases stepEq

/-- An id is given to one connection. -/
def nextStreamIdAfter (system : SocketSystem) : SocketEvent → Nat
  | .connect => system.nextStreamId + 1
  | _ => system.nextStreamId

theorem nextStreamId_of_step
    {event : SocketEvent}
    (stepEq : system.step event = some next) :
    next.nextStreamId = nextStreamIdAfter system event := by
  have same : ∀ {id : Nat} {change : Connection → Option Connection},
      system.onConnection id change = some next → next.nextStreamId = system.nextStreamId := by
    intro id change changed
    obtain ⟨result, changed, rfl⟩ := Option.map_eq_some_iff.mp changed
    rfl
  unfold SocketSystem.step at stepEq
  split at stepEq
  · cases stepEq
    rfl
  · exact same stepEq
  · exact same stepEq
  · exact same stepEq
  · split at stepEq
    · cases stepEq
    · exact same stepEq
  · cases progressed_of_progress stepEq <;> rfl
  · exact same stepEq
  · cases stepEq
    rfl
  · cases stepEq
    rfl
  · unfold SocketSystem.wsPublish at stepEq
    split at stepEq <;> cases stepEq
    rfl
  · cases stepEq
    rfl
  · cases stepEq
    rfl
  · cases stepEq

/-- No connection stands at an id that is still to be given. -/
def FreshIds (system : SocketSystem) : Prop :=
  ∀ id, system.nextStreamId ≤ id → system.connections id = none

theorem freshIds_start : FreshIds socketMachine.start :=
  fun _ _ => rfl

theorem freshIds_step
    {event : SocketEvent}
    (fresh : FreshIds system)
    (stepEq : system.step event = some next) :
    FreshIds next := by
  intro id behind
  rw [nextStreamId_of_step stepEq] at behind
  have behindBefore : system.nextStreamId ≤ id := by
    unfold nextStreamIdAfter at behind
    split at behind <;> omega
  cases found : next.connections id with
  | none => rfl
  | some after =>
      cases atConnection_of_step stepEq found with
      | same foundBefore =>
          rw [fresh id behindBefore] at foundBefore
          cases foundBefore
      | opened connects given isOpened =>
          rw [connects, nextStreamIdAfter, given] at behind
          omega
      | changed before foundBefore change =>
          rw [fresh id behindBefore] at foundBefore
          cases foundBefore

theorem isRegistered_iff
    {id : Nat} :
    system.isRegistered id = true ↔
      ∃ connection, system.connections id = some connection ∧ connection.registered = true := by
  rw [SocketSystem.isRegistered, Option.any_eq_true]

theorem registered_of_change
    {event : SocketEvent} {id : Nat} {before after : Connection}
    (change : ConnectionChange system id event before after)
    (registered : before.registered = true)
    (notEnded : event ≠ .streamEnd id)
    (notCleaned : event ≠ .cleanup id) :
    after.registered = true := by
  cases change with
  | turn looping => rwa [Connection.registered_turn]
  | receive changed =>
      unfold Connection.receive at changed
      split at changed <;> cases changed
      exact registered
  | stop changed =>
      unfold Connection.stop at changed
      split at changed <;> cases changed
      exact registered
  | cleanup free changed => exact absurd rfl notCleaned
  | answer calls changed =>
      unfold Connection.answer at changed
      split at changed <;> cases changed <;> exact registered
  | streamEnd calls => exact absurd rfl notEnded
  | push calls target isFound notGone sent => exact registered

/-- A connection stays in the registry unless it is ended or cleaned up. -/
theorem isRegistered_of_step
    {event : SocketEvent} {id : Nat}
    (stepEq : system.step event = some next)
    (isRegistered : system.isRegistered id = true)
    (notEnded : event ≠ .streamEnd id)
    (notCleaned : event ≠ .cleanup id) :
    next.isRegistered id = true := by
  obtain ⟨before, foundBefore, registered⟩ := isRegistered_iff.mp isRegistered
  obtain ⟨after, stands⟩ := Option.isSome_iff_exists.mp
    ((frame_of_step stepEq).keeps id (by rw [foundBefore]; rfl))
  refine isRegistered_iff.mpr ⟨after, stands, ?_⟩
  cases atConnection_of_step stepEq stands with
  | same found =>
      cases found.symm.trans foundBefore
      exact registered
  | opened connects fresh isOpened =>
      rw [isOpened]
      rfl
  | changed other found change =>
      cases found.symm.trans foundBefore
      exact registered_of_change change registered notEnded notCleaned

end WebSocket
end HttpNative
