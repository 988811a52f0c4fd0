import HttpNative.Lifecycle.CacheNamespaces
import HttpNative.Router.NativeRouter
import HttpNative.WebSocket.ConnectionSteps

/-!
# Reloads that fail

A server takes the next snapshot in place of the one that it serves, ends the
WebSocket connections, and reloads the native router. When the reload throws, the
former snapshot is restored; connections that have been ended are not.
-/

namespace HttpNative
namespace Lifecycle
namespace Reloading

open WebSocket (SocketSystem SocketEvent FreshIds)

/-! ## The dispatcher -/

section Dispatchers

variable {Route WsRoute ErrorHandler : Type}

/-- A compiled snapshot with its routes under their handler ids. Its number stands
for what is made anew for it: the optimizer, the writer of comments, and the
listeners that clean these up. -/
structure CompiledSnapshot (Route WsRoute ErrorHandler : Type) where
  number : Nat
  compiledRoutes : List (Nat × Route)
  wsRoutes : List (Nat × WsRoute)
  errorHandlers : List ErrorHandler
  /-- `runtimeOptimizer.shouldCaptureDispatchTiming()`. -/
  capturesTiming : Bool
  manifestJson : Text

structure DispatchState (Route WsRoute ErrorHandler : Type) where
  snapshot : CompiledSnapshot Route WsRoute ErrorHandler
  routesById : Dictionary Nat Route
  wsRoutesById : Dictionary Nat WsRoute
  trackDispatchTiming : Bool

/-- `new Map(entries)`. -/
def mapOf {Value : Type} (entries : List (Nat × Value)) : Dictionary Nat Value :=
  entries.foldl (fun map entry => map.set entry.1 entry.2) []

def buildDispatchState
    (snapshot : CompiledSnapshot Route WsRoute ErrorHandler) :
    DispatchState Route WsRoute ErrorHandler where
  snapshot := snapshot
  routesById := mapOf snapshot.compiledRoutes
  wsRoutesById := mapOf snapshot.wsRoutes
  trackDispatchTiming := snapshot.capturesTiming

/-- The state of a dispatcher is always built from its snapshot. -/
structure Dispatcher (Route WsRoute ErrorHandler : Type) where
  currentState : DispatchState Route WsRoute ErrorHandler
  built : currentState = buildDispatchState currentState.snapshot
  activeWebSocketIds : List Nat

namespace Dispatcher

/-- `dispatch.replace` and `dispatch.restore`. -/
def replace
    (dispatcher : Dispatcher Route WsRoute ErrorHandler)
    (snapshot : CompiledSnapshot Route WsRoute ErrorHandler) :
    Dispatcher Route WsRoute ErrorHandler where
  currentState := buildDispatchState snapshot
  built := rfl
  activeWebSocketIds := dispatcher.activeWebSocketIds

/-- What `dispatch.closeWebSockets` does to the dispatcher. -/
def clearWebSockets
    (dispatcher : Dispatcher Route WsRoute ErrorHandler) :
    Dispatcher Route WsRoute ErrorHandler where
  currentState := dispatcher.currentState
  built := dispatcher.built
  activeWebSocketIds := []

/-- A snapshot that was replaced is restored with all that was built from it. -/
theorem currentState_restore
    (dispatcher : Dispatcher Route WsRoute ErrorHandler)
    (other : CompiledSnapshot Route WsRoute ErrorHandler) :
    ((dispatcher.replace other).clearWebSockets.replace
      dispatcher.currentState.snapshot).currentState = dispatcher.currentState :=
  dispatcher.built.symm

end Dispatcher

end Dispatchers

/-! ## Ending connections -/

/-- The JavaScript thread waits until its native call is done, while the tasks of
the workers go on. -/
inductive Returns : SocketSystem → SocketSystem → Prop
  | now {system : SocketSystem} :
      system.calls = [] →
      Returns system system
  | wait {system next final : SocketSystem} {event : SocketEvent} :
      system.calls ≠ [] →
      system.step event = some next →
      Returns next final →
      Returns system final

/-- `stream_end` for one connection after the other. -/
inductive EndsEach : List Nat → SocketSystem → SocketSystem → Prop
  | nil {system : SocketSystem} : EndsEach [] system system
  | cons {id : Nat} {ids : List Nat} {system next final : SocketSystem} :
      Returns (system.streamEnd id) next →
      EndsEach ids next final →
      EndsEach (id :: ids) system final

def IsSubscribed (system : SocketSystem) (id : Nat) (topic : Text) : Prop :=
  ∃ subscribers, (topic, subscribers) ∈ system.topics ∧ id ∈ subscribers

/-- The connections that are open stay open and subscribed. -/
def KeepsOpen (system final : SocketSystem) : Prop :=
  ∀ id, system.isRegistered id = true →
    final.isRegistered id = true ∧ ∀ topic, IsSubscribed system id topic → IsSubscribed final id topic

/-! ## The server -/

section Servers

variable {Route WsRoute ErrorHandler NativeRouter : Type}

/-- A server with the process that it runs in; its native handle is one of the
servers of the process. -/
structure HotServer (Route WsRoute ErrorHandler NativeRouter : Type) where
  dispatcher : Dispatcher Route WsRoute ErrorHandler
  /-- The snapshots that have been disposed of. -/
  disposed : List Nat
  sockets : SocketSystem
  process : CachingProcess NativeRouter
  handle : Nat

/-- What `NativeServerHandle::reload` takes a router from, or the reason why it
fails: the manifest is no JSON, is not valid, or no router is made of it. -/
def loadRouter
    (parse : Text → Except Text Router.ManifestInput)
    (construct : Router.ManifestInput → Except Text NativeRouter)
    (manifestJson : Text) : Except Text NativeRouter := do
  let manifest ← parse manifestJson
  Router.validateManifest manifest
  construct manifest

/-- The rest of `NativeServerHandle::reload`. -/
def reloadHandle
    (cacheNamespaces : NativeRouter → Finset UInt64)
    (process : CachingProcess NativeRouter)
    (handle : Nat)
    (router : NativeRouter) : CachingProcess NativeRouter :=
  match process.servers[handle]? with
  | none => process
  | some server => process.reload cacheNamespaces handle server router

variable (parse : Text → Except Text Router.ManifestInput)
  (construct : Router.ManifestInput → Except Text NativeRouter)
  (cacheNamespaces : NativeRouter → Finset UInt64)

/-- `_reloadCompiledSnapshot`, which returns or throws. -/
inductive ReloadCompiledSnapshot
    (server : HotServer Route WsRoute ErrorHandler NativeRouter)
    (next : CompiledSnapshot Route WsRoute ErrorHandler) :
    HotServer Route WsRoute ErrorHandler NativeRouter → Option Text → Prop
  | returns {sockets closed : SocketSystem} {router : NativeRouter} {ids : List Nat} :
      EndsEach server.dispatcher.activeWebSocketIds server.sockets sockets →
      loadRouter parse construct next.manifestJson = .ok router →
      -- `close_all_websocket_connections`
      (∀ id, sockets.isRegistered id = true → id ∈ ids) →
      EndsEach ids sockets closed →
      ReloadCompiledSnapshot server next
        { server with
          dispatcher := (server.dispatcher.replace next).clearWebSockets
          disposed := server.dispatcher.currentState.snapshot.number :: server.disposed
          sockets := closed
          process := reloadHandle cacheNamespaces server.process server.handle router }
        none
  | throws {sockets : SocketSystem} {message : Text} :
      EndsEach server.dispatcher.activeWebSocketIds server.sockets sockets →
      loadRouter parse construct next.manifestJson = .error message →
      ReloadCompiledSnapshot server next
        { server with
          dispatcher :=
            (server.dispatcher.replace next).clearWebSockets.replace
              server.dispatcher.currentState.snapshot
          disposed := next.number :: server.disposed
          sockets := sockets }
        (some message)

/-- The server can be called: its WebSocket connections come from a run, and the
JavaScript thread is in no native call. -/
structure HotServer.IsRunning
    (server : HotServer Route WsRoute ErrorHandler NativeRouter) : Prop where
  reaches : WebSocket.socketMachine.Reaches server.sockets
  idle : server.sockets.calls = []

/-- What can be observed is as before. -/
structure HotServer.IsRestored
    (before after : HotServer Route WsRoute ErrorHandler NativeRouter) : Prop where
  dispatches : after.dispatcher.currentState = before.dispatcher.currentState
  /-- The optimizer and the comments of the snapshot that is served. -/
  keepsSnapshot : before.dispatcher.currentState.snapshot.number ∈ after.disposed ↔
    before.dispatcher.currentState.snapshot.number ∈ before.disposed
  /-- The native routers and the cache namespaces. -/
  native : after.process = before.process
  sockets : KeepsOpen before.sockets after.sockets

/-- The next snapshot is another one than the one that is served, or this has been
disposed of; and none of the WebSocket connections known to the dispatcher is
open. -/
structure HotServer.LosesNothing
    (server : HotServer Route WsRoute ErrorHandler NativeRouter)
    (next : CompiledSnapshot Route WsRoute ErrorHandler) : Prop where
  another : next.number ≠ server.dispatcher.currentState.snapshot.number ∨
    server.dispatcher.currentState.snapshot.number ∈ server.disposed
  noneOpen : ∀ id ∈ server.dispatcher.activeWebSocketIds, server.sockets.isRegistered id = false

end Servers

/-! ## What becomes of the connections -/

section Sockets

variable {system next final : SocketSystem} {id : Nat}

theorem freshIds_of_reaches
    (reaches : WebSocket.socketMachine.Reaches system) :
    FreshIds system :=
  reaches.invariant WebSocket.freshIds_start fun _ _ _ fresh _ stepEq =>
    WebSocket.freshIds_step fresh stepEq

/-- The connection has left the registry. -/
def IsDeregistered (system : SocketSystem) (id : Nat) : Prop :=
  ∃ connection, system.connections id = some connection ∧ connection.registered = false

theorem IsDeregistered.isRegistered
    (deregistered : IsDeregistered system id) :
    system.isRegistered id = false := by
  obtain ⟨connection, found, registered⟩ := deregistered
  rw [SocketSystem.isRegistered, found, Option.any_some, registered]

theorem registered_eq_false_of_change
    {event : SocketEvent} {before after : WebSocket.Connection}
    (change : WebSocket.ConnectionChange system id event before after)
    (registered : before.registered = false) :
    after.registered = false := by
  cases change with
  | turn looping => rwa [WebSocket.Connection.registered_turn]
  | receive changed =>
      unfold WebSocket.Connection.receive at changed
      split at changed <;> cases changed
      exact registered
  | stop changed =>
      unfold WebSocket.Connection.stop at changed
      split at changed <;> cases changed
      exact registered
  | cleanup free changed =>
      unfold WebSocket.Connection.cleanup at changed
      split at changed <;> cases changed
      rfl
  | answer calls changed =>
      unfold WebSocket.Connection.answer at changed
      split at changed <;> cases changed <;> exact registered
  | streamEnd calls => rfl
  | push calls target isFound notGone sent => exact registered

/-- A connection does not come back into the registry. -/
theorem IsDeregistered.step
    {event : SocketEvent}
    (deregistered : IsDeregistered system id)
    (fresh : FreshIds system)
    (stepEq : system.step event = some next) :
    IsDeregistered next id := by
  obtain ⟨before, foundBefore, registered⟩ := deregistered
  obtain ⟨after, stands⟩ := Option.isSome_iff_exists.mp
    ((WebSocket.frame_of_step stepEq).keeps id (by rw [foundBefore]; rfl))
  refine ⟨after, stands, ?_⟩
  cases WebSocket.atConnection_of_step stepEq stands with
  | same found =>
      cases found.symm.trans foundBefore
      exact registered
  | opened connects given isOpened =>
      rw [fresh id (Nat.le_of_eq given.symm)] at foundBefore
      cases foundBefore
  | changed other found change =>
      cases found.symm.trans foundBefore
      exact registered_eq_false_of_change change registered

/-- What a native call leaves behind when it is done. -/
structure Keeps (system final : SocketSystem) : Prop where
  fresh : FreshIds final
  idle : final.calls = []
  isSome : ∀ id, (system.connections id).isSome = true → (final.connections id).isSome = true
  deregistered : ∀ id, IsDeregistered system id → IsDeregistered final id

theorem Returns.keeps
    (returns : Returns system final)
    (fresh : FreshIds system) :
    Keeps system final := by
  induction returns with
  | now idle => exact ⟨fresh, idle, fun _ isSome => isSome, fun _ deregistered => deregistered⟩
  | wait busy stepEq _ hypothesis =>
      have behind := hypothesis (WebSocket.freshIds_step fresh stepEq)
      exact ⟨behind.fresh, behind.idle,
        fun id isSome => behind.isSome id ((WebSocket.frame_of_step stepEq).keeps id isSome),
        fun id deregistered => behind.deregistered id (deregistered.step fresh stepEq)⟩

theorem step_streamEnd
    (idle : system.calls = [])
    (id : Nat) :
    system.step (.streamEnd id) = some (system.streamEnd id) := by
  unfold SocketSystem.step
  rw [idle]

theorem isDeregistered_streamEnd
    (isSome : (system.connections id).isSome = true) :
    IsDeregistered (system.streamEnd id) id := by
  obtain ⟨connection, found⟩ := Option.isSome_iff_exists.mp isSome
  refine ⟨{ connection with registered := false }, ?_, rfl⟩
  rw [SocketSystem.streamEnd]
  simp only [if_true, found, Option.map_some]

theorem EndsEach.keeps
    {ids : List Nat}
    (ends : EndsEach ids system final)
    (fresh : FreshIds system)
    (idle : system.calls = []) :
    Keeps system final := by
  induction ends with
  | nil => exact ⟨fresh, idle, fun _ isSome => isSome, fun _ deregistered => deregistered⟩
  | @cons ended ids system next final returns _ hypothesis =>
      have stepEq := step_streamEnd idle ended
      have one := returns.keeps (WebSocket.freshIds_step fresh stepEq)
      have rest := hypothesis one.fresh one.idle
      exact ⟨rest.fresh, rest.idle,
        fun id isSome => rest.isSome id (one.isSome id
          ((WebSocket.frame_of_step stepEq).keeps id isSome)),
        fun id deregistered => rest.deregistered id (one.deregistered id
          (deregistered.step fresh stepEq))⟩

/-- No connection that is ended is open in the end. -/
theorem EndsEach.isDeregistered
    {ids : List Nat}
    (ends : EndsEach ids system final)
    (fresh : FreshIds system)
    (idle : system.calls = [])
    (member : id ∈ ids)
    (isSome : (system.connections id).isSome = true) :
    IsDeregistered final id := by
  induction ends with
  | nil => exact absurd member List.not_mem_nil
  | @cons ended ids system next final returns rest hypothesis =>
      have stepEq := step_streamEnd idle ended
      have one := returns.keeps (WebSocket.freshIds_step fresh stepEq)
      rcases List.mem_cons.mp member with rfl | later
      · exact (rest.keeps one.fresh one.idle).deregistered id
          (one.deregistered id (isDeregistered_streamEnd isSome))
      · exact hypothesis one.fresh one.idle later
          (one.isSome id ((WebSocket.frame_of_step stepEq).keeps id isSome))

theorem KeepsOpen.trans
    (first : KeepsOpen system next)
    (second : KeepsOpen next final) :
    KeepsOpen system final := by
  intro id isRegistered
  obtain ⟨stays, subscribed⟩ := first id isRegistered
  obtain ⟨staysOn, subscribedOn⟩ := second id stays
  exact ⟨staysOn, fun topic subscriber => subscribedOn topic (subscribed topic subscriber)⟩

theorem isSubscribed_wsUnsubscribeAll
    {other : Nat} {topic : Text}
    (different : other ≠ id)
    (topicsEq : next.topics = WebSocket.wsUnsubscribeAll id system.topics)
    (subscribed : IsSubscribed system other topic) :
    IsSubscribed next other topic := by
  obtain ⟨subscribers, inTopics, member⟩ := subscribed
  have stays : other ∈ subscribers.erase id := Finset.mem_erase.mpr ⟨different, member⟩
  refine ⟨subscribers.erase id, ?_, stays⟩
  rw [topicsEq]
  refine List.mem_filter.mpr ⟨List.mem_map.mpr ⟨_, inTopics, rfl⟩, ?_⟩
  simpa using Finset.ne_empty_of_mem stays

/-- Ending a connection that is not open leaves the others alone, and sends
nothing. -/
theorem streamEnd_of_not_isRegistered
    (absent : system.isRegistered id = false) :
    (system.streamEnd id).calls = [] ∧ KeepsOpen system (system.streamEnd id) ∧
      ∀ other, system.isRegistered other = false →
        (system.streamEnd id).isRegistered other = false := by
  have away : ∀ other, other ≠ id →
      (system.streamEnd id).isRegistered other = system.isRegistered other := by
    intro other different
    rw [SocketSystem.isRegistered, SocketSystem.streamEnd]
    simp only [if_neg different]
    rfl
  refine ⟨?_, fun other isRegistered => ?_, fun other notRegistered => ?_⟩
  · rw [SocketSystem.streamEnd]
    simp only [absent, Bool.false_eq_true, if_false]
  · have different : other ≠ id := by
      rintro rfl
      rw [absent] at isRegistered
      cases isRegistered
    refine ⟨(away other different).trans isRegistered, fun topic subscribed => ?_⟩
    refine isSubscribed_wsUnsubscribeAll different ?_ subscribed
    rw [SocketSystem.streamEnd]
    simp only [absent, Bool.false_eq_true, if_false]
  · by_cases same : other = id
    · subst same
      rw [SocketSystem.isRegistered, SocketSystem.streamEnd]
      simp only [if_true, Option.any_map]
      cases system.connections other <;> rfl
    · rw [away other same, notRegistered]

theorem Returns.eq_of_idle
    (returns : Returns system final)
    (idle : system.calls = []) :
    final = system := by
  cases returns with
  | now _ => rfl
  | wait busy _ _ => exact absurd idle busy

/-- Where none of the connections to be ended is open, all that are open stay
open. -/
theorem EndsEach.keepsOpen
    {ids : List Nat}
    (ends : EndsEach ids system final)
    (absent : ∀ id ∈ ids, system.isRegistered id = false) :
    KeepsOpen system final := by
  induction ends with
  | nil => exact fun id isRegistered => ⟨isRegistered, fun _ subscribed => subscribed⟩
  | @cons ended ids system next final returns _ hypothesis =>
      obtain ⟨idle, keeps, stays⟩ := streamEnd_of_not_isRegistered
        (absent ended List.mem_cons_self)
      have same := returns.eq_of_idle idle
      subst same
      exact keeps.trans (hypothesis fun id member =>
        stays id (absent id (List.mem_cons_of_mem _ member)))

/-- The connections that are open stay open exactly when none of them is ended. -/
theorem EndsEach.keepsOpen_iff
    {ids : List Nat}
    (ends : EndsEach ids system final)
    (fresh : FreshIds system)
    (idle : system.calls = []) :
    KeepsOpen system final ↔ ∀ id ∈ ids, system.isRegistered id = false := by
  refine ⟨fun keeps id member => ?_, ends.keepsOpen⟩
  rw [← Bool.not_eq_true]
  intro isRegistered
  obtain ⟨connection, found, -⟩ := WebSocket.isRegistered_iff.mp isRegistered
  have ended := (ends.isDeregistered fresh idle member (by rw [found]; rfl)).isRegistered
  rw [(keeps id isRegistered).1] at ended
  cases ended

end Sockets

/-! ## What a failed reload leaves behind -/

section Restored

variable {Route WsRoute ErrorHandler NativeRouter : Type}
  {parse : Text → Except Text Router.ManifestInput}
  {construct : Router.ManifestInput → Except Text NativeRouter}
  {cacheNamespaces : NativeRouter → Finset UInt64}
  {server after : HotServer Route WsRoute ErrorHandler NativeRouter}
  {next : CompiledSnapshot Route WsRoute ErrorHandler}

/-- After a reload that throws everything is as before exactly when there was
nothing to lose. -/
theorem isRestored_iff
    {message : Text}
    (running : server.IsRunning)
    (throws : ReloadCompiledSnapshot parse construct cacheNamespaces server next after
      (some message)) :
    server.IsRestored after ↔ server.LosesNothing next := by
  cases throws with
  | throws ends fails =>
      have keeps_iff := ends.keepsOpen_iff (freshIds_of_reaches running.reaches) running.idle
      constructor
      · intro restored
        refine ⟨?_, keeps_iff.mp restored.sockets⟩
        by_contra lost
        rw [not_or, not_ne_iff] at lost
        have disposed := restored.keepsSnapshot.mp (by
          rw [← lost.1]
          exact List.mem_cons_self)
        exact lost.2 disposed
      · intro nothing
        refine ⟨Dispatcher.currentState_restore server.dispatcher next, ?_, rfl,
          keeps_iff.mpr nothing.noneOpen⟩
        refine List.mem_cons.trans ⟨fun member => ?_, .inr⟩
        rcases member with same | former
        · exact nothing.another.resolve_left fun different => different same.symm
        · exact former

end Restored

/-! ## A manifest that is no JSON -/

def noJson (_ : Text) : Except Text Router.ManifestInput :=
  .error (text "EOF while parsing a value")

def noRouter (_ : Router.ManifestInput) : Except Text Unit :=
  .ok ()

/-- A snapshot with a route and a WebSocket route. -/
def plainSnapshot (number : Nat) : CompiledSnapshot Unit Unit Unit where
  number := number
  compiledRoutes := [(1, ())]
  wsRoutes := [(2, ())]
  errorHandlers := []
  capturesTiming := false
  manifestJson := []

/-- A server of the first snapshot. -/
def serverWith (ids : List Nat) (sockets : SocketSystem) : HotServer Unit Unit Unit Unit where
  dispatcher :=
    { currentState := buildDispatchState (plainSnapshot 1)
      built := rfl
      activeWebSocketIds := ids }
  disposed := []
  sockets := sockets
  process := (cachingMachine fun _ => ∅).start
  handle := 0

/-- What is left after the second snapshot has been refused. -/
def afterRefusal (sockets : SocketSystem) : HotServer Unit Unit Unit Unit :=
  { serverWith [] sockets with disposed := [2] }

theorem throws_noJson
    {ids : List Nat} {sockets final : SocketSystem}
    (ends : EndsEach ids sockets final) :
    ReloadCompiledSnapshot noJson noRouter (fun _ => ∅) (serverWith ids sockets) (plainSnapshot 2)
      (afterRefusal final) (some (text "EOF while parsing a value")) :=
  .throws ends rfl

/-- One connection is open, and its handler has subscribed it. -/
def subscribedSockets : SocketSystem :=
  { WebSocket.socketMachine.start.connect with
    topics := WebSocket.wsSubscribe 1 (text "news") [] }

theorem reaches_subscribedSockets :
    WebSocket.socketMachine.Reaches subscribedSockets := by
  have connected : WebSocket.socketMachine.Reaches WebSocket.socketMachine.start.connect :=
    Machine.ReachesUnder.start.step trivial
      (by rfl : WebSocket.socketMachine.step WebSocket.socketMachine.start .connect = some _)
  exact connected.step trivial
    (by rfl : WebSocket.socketMachine.step _ (.wsSubscribe 1 (text "news")) = some _)

theorem exists_endsEach_subscribedSockets :
    ∃ final, EndsEach [1] subscribedSockets final := by
  have sent : (subscribedSockets.streamEnd 1).step .progress =
      some (((subscribedSockets.streamEnd 1).step .progress).getD subscribedSockets) :=
    @Machine.step_getD _ _ WebSocket.socketMachine (subscribedSockets.streamEnd 1) .progress rfl
      subscribedSockets
  exact ⟨_, .cons (.wait (by decide) sent (.now (by rfl))) .nil⟩

/-- A connection is open and subscribed, and another one was ended. -/
def staleSockets : SocketSystem :=
  ((subscribedSockets.connect.streamEnd 2).step .progress).getD subscribedSockets

theorem step_progress_staleSockets :
    WebSocket.socketMachine.step (subscribedSockets.connect.streamEnd 2) .progress =
      some staleSockets :=
  @Machine.step_getD _ _ WebSocket.socketMachine (subscribedSockets.connect.streamEnd 2) .progress
    rfl subscribedSockets

theorem reaches_staleSockets :
    WebSocket.socketMachine.Reaches staleSockets := by
  have connected : WebSocket.socketMachine.Reaches subscribedSockets.connect :=
    reaches_subscribedSockets.step trivial
      (by rfl : WebSocket.socketMachine.step _ .connect = some _)
  have ended : WebSocket.socketMachine.Reaches (subscribedSockets.connect.streamEnd 2) :=
    connected.step trivial (by rfl : WebSocket.socketMachine.step _ (.streamEnd 2) = some _)
  exact ended.step trivial step_progress_staleSockets

/-- The dispatcher still has the id of the connection that was ended, and does not
know the one that is open. -/
theorem isRestored_afterRefusal :
    (serverWith [2] staleSockets).IsRestored (afterRefusal (staleSockets.streamEnd 2)) ∧
    (staleSockets.streamEnd 2).isRegistered 1 = true ∧
    IsSubscribed (staleSockets.streamEnd 2) 1 (text "news") := by
  have running : (serverWith [2] staleSockets).IsRunning := ⟨reaches_staleSockets, rfl⟩
  have ends : EndsEach [2] staleSockets (staleSockets.streamEnd 2) :=
    .cons (.now (by rfl)) .nil
  have absent : staleSockets.isRegistered 2 = false := by rfl
  have restored := (isRestored_iff running (throws_noJson ends)).mpr
    ⟨.inl (by decide), fun id member => by rwa [List.mem_singleton.mp member]⟩
  have isOpen : staleSockets.isRegistered 1 = true := by rfl
  have subscribed : IsSubscribed staleSockets 1 (text "news") :=
    ⟨{1}, List.mem_singleton_self _, Finset.mem_singleton_self 1⟩
  obtain ⟨stays, subscribedOn⟩ := restored.sockets 1 isOpen
  exact ⟨restored, stays, subscribedOn _ subscribed⟩

/-- The connection has been ended when the manifest is refused. -/
theorem not_isRestored :
    ¬ ∀ (parse : Text → Except Text Router.ManifestInput)
      (construct : Router.ManifestInput → Except Text Unit)
      (cacheNamespaces : Unit → Finset UInt64)
      (server after : HotServer Unit Unit Unit Unit) (next : CompiledSnapshot Unit Unit Unit)
      (message : Text), server.IsRunning →
        next.number ≠ server.dispatcher.currentState.snapshot.number →
        ReloadCompiledSnapshot parse construct cacheNamespaces server next after (some message) →
          server.IsRestored after := by
  intro everywhere
  obtain ⟨final, ends⟩ := exists_endsEach_subscribedSockets
  have restored := everywhere _ _ _ _ _ _ _ (⟨reaches_subscribedSockets, rfl⟩ :
    (serverWith [1] subscribedSockets).IsRunning) (by decide) (throws_noJson ends)
  have keeps := (ends.keepsOpen_iff (freshIds_of_reaches reaches_subscribedSockets) rfl).mp
    restored.sockets
  exact absurd (keeps 1 (List.mem_singleton_self 1)) (by decide)

end Reloading
end Lifecycle
end HttpNative
