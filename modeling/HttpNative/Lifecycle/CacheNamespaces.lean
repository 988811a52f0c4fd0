import HttpNative.Library.Machine
import HttpNative.Library.ReferenceCounts
import HttpNative.Router.CachedEntries

/-!
# Namespaces of the route caches

The servers of a process share one count for each namespace of a route cache. Each
thread of a server has route caches of its own, and drops those without a count when
it next looks into them. The JavaScript thread makes one call after the other; the
threads of the servers work on in between, each connection with the router that it
has loaded.
-/

namespace HttpNative
namespace Lifecycle

open Router (CacheEntry RouteCaches)

/-! ## The process -/

/-- A thread of a server: its route caches, the generation that it has seen, and the
routers that its connections have loaded. -/
structure CachingWorker (NativeRouter : Type) where
  caches : RouteCaches
  seenGeneration : Nat
  loaded : Nat → Option NativeRouter

/-- A handle with its threads; `registered` is its field `cache_namespaces`. -/
structure CachingServer (NativeRouter : Type) where
  liveRouter : NativeRouter
  registered : Finset UInt64
  isOpen : Bool
  workers : List (CachingWorker NativeRouter)

/-- `CACHE_NAMESPACE_COUNTS` and `CACHE_NAMESPACE_GENERATION` with the servers that
were started. -/
structure CachingProcess (NativeRouter : Type) where
  counts : ReferenceCounts UInt64
  generation : Nat
  servers : List (CachingServer NativeRouter)

/-- How `start_server` ends. -/
inductive StartOutcome (NativeRouter : Type) where
  /-- No router is made of the manifest. -/
  | refused
  /-- TLS, the threadsafe function, the binding or the start of a thread fails. -/
  | failed (router : NativeRouter)
  | started (router : NativeRouter) (workerCount : Nat)

/-- What a thread does in one of its route caches. -/
inductive CacheAccess where
  | get (key : UInt64) (now : Nat)
  | insert (key : UInt64) (entry : CacheEntry) (maxEntries : Nat)

inductive CachingEvent (NativeRouter : Type) where
  | startServer (outcome : StartOutcome NativeRouter)
  /-- A reload; no router is made of a manifest that is refused. -/
  | reload (server : Nat) (router : Option NativeRouter)
  /-- `close`, or `shutdown` when it comes to it. -/
  | close (server : Nat)
  /-- A connection loads the live router at the top of its loop. -/
  | load (server worker connection : Nat)
  /-- A connection gets to a route of the router that it has loaded. -/
  | access (server worker connection : Nat) (cacheNamespace : UInt64) (access : CacheAccess)

variable {NativeRouter : Type}

namespace CachingProcess

/-- `register_cache_namespaces` -/
def registerCacheNamespaces
    (process : CachingProcess NativeRouter)
    (namespaces : Finset UInt64) :
    CachingProcess NativeRouter :=
  if namespaces = ∅ then
    process
  else
    { process with
      counts := process.counts.register namespaces
      generation := process.generation + 1 }

/-- `unregister_cache_namespaces` -/
def unregisterCacheNamespaces
    (process : CachingProcess NativeRouter)
    (namespaces : Finset UInt64) :
    CachingProcess NativeRouter :=
  if namespaces = ∅ then
    process
  else
    { process with
      counts := process.counts.unregister namespaces
      generation := process.generation + 1 }

/-- `replace_cache_namespaces` -/
def replaceCacheNamespaces
    (process : CachingProcess NativeRouter)
    (previous next : Finset UInt64) :
    CachingProcess NativeRouter :=
  (process.unregisterCacheNamespaces (previous \ next)).registerCacheNamespaces (next \ previous)

def setServer
    (process : CachingProcess NativeRouter)
    (id : Nat)
    (server : CachingServer NativeRouter) :
    CachingProcess NativeRouter :=
  { process with servers := process.servers.set id server }

end CachingProcess

namespace CachingWorker

/-- A thread before its first request. -/
def fresh : CachingWorker NativeRouter where
  caches _ := none
  seenGeneration := 0
  loaded _ := none

/-- `sync_route_caches` -/
def syncRouteCaches
    (process : CachingProcess NativeRouter)
    (worker : CachingWorker NativeRouter) :
    CachingWorker NativeRouter :=
  if worker.seenGeneration = process.generation then
    worker
  else
    { worker with
      caches := worker.caches.retain fun cacheNamespace => (process.counts cacheNamespace).isSome
      seenGeneration := process.generation }

/-- `get_cached_response` and `insert_cached_response` behind the synchronization. -/
def use
    (worker : CachingWorker NativeRouter)
    (cacheNamespace : UInt64) :
    CacheAccess → CachingWorker NativeRouter
  | .get key now => { worker with caches := (worker.caches.lookup cacheNamespace key now).1 }
  | .insert key entry maxEntries =>
      { worker with caches := worker.caches.store cacheNamespace key entry maxEntries }

end CachingWorker

/-! ## Steps -/

section

variable (cacheNamespaces : NativeRouter → Finset UInt64)

namespace CachingProcess

def startServer (process : CachingProcess NativeRouter) :
    StartOutcome NativeRouter → CachingProcess NativeRouter
  | .refused => process
  | .failed router => process.registerCacheNamespaces (cacheNamespaces router)
  | .started router workerCount =>
      let process := process.registerCacheNamespaces (cacheNamespaces router)
      let server :=
        { liveRouter := router
          registered := cacheNamespaces router
          isOpen := true
          workers := List.replicate workerCount .fresh }
      { process with servers := process.servers ++ [server] }

/-- `NativeServerHandle::reload`, which a closed server has too. -/
def reload
    (process : CachingProcess NativeRouter)
    (id : Nat)
    (server : CachingServer NativeRouter)
    (router : NativeRouter) :
    CachingProcess NativeRouter :=
  (process.replaceCacheNamespaces server.registered (cacheNamespaces router)).setServer id
    { server with liveRouter := router, registered := cacheNamespaces router }

/-- `NativeServerHandle::close`, which waits for the threads to end. -/
def close
    (process : CachingProcess NativeRouter)
    (id : Nat)
    (server : CachingServer NativeRouter) :
    CachingProcess NativeRouter :=
  (process.unregisterCacheNamespaces server.registered).setServer id
    { server with registered := ∅, isOpen := false, workers := [] }

def load
    (process : CachingProcess NativeRouter)
    (id workerId connection : Nat)
    (server : CachingServer NativeRouter)
    (worker : CachingWorker NativeRouter) :
    CachingProcess NativeRouter :=
  let loaded := Function.update worker.loaded connection (some server.liveRouter)
  process.setServer id
    { server with workers := server.workers.set workerId { worker with loaded := loaded } }

def access
    (process : CachingProcess NativeRouter)
    (id workerId : Nat)
    (server : CachingServer NativeRouter)
    (worker : CachingWorker NativeRouter)
    (cacheNamespace : UInt64)
    (access : CacheAccess) :
    CachingProcess NativeRouter :=
  let used := (worker.syncRouteCaches process).use cacheNamespace access
  process.setServer id { server with workers := server.workers.set workerId used }

def step (process : CachingProcess NativeRouter) :
    CachingEvent NativeRouter → Option (CachingProcess NativeRouter)
  | .startServer outcome => some (process.startServer cacheNamespaces outcome)
  | .reload id none => (process.servers[id]?).map fun _ => process
  | .reload id (some router) =>
      (process.servers[id]?).map fun server => process.reload cacheNamespaces id server router
  | .close id => (process.servers[id]?).map fun server => process.close id server
  | .load id workerId connection => do
      let server ← process.servers[id]?
      let worker ← server.workers[workerId]?
      some (process.load id workerId connection server worker)
  | .access id workerId connection cacheNamespace access => do
      let server ← process.servers[id]?
      let worker ← server.workers[workerId]?
      let router ← worker.loaded connection
      if cacheNamespace ∈ cacheNamespaces router then
        some (process.access id workerId server worker cacheNamespace access)
      else
        none

end CachingProcess

def cachingMachine : Machine (CachingProcess NativeRouter) (CachingEvent NativeRouter) where
  start := { counts := fun _ => none, generation := 1, servers := [] }
  step := CachingProcess.step cacheNamespaces

/-! ## What the counts are for -/

/-- The server is open, and its live router has the namespace. -/
def CachingServer.Uses
    (server : CachingServer NativeRouter)
    (cacheNamespace : UInt64) :
    Prop :=
  server.isOpen = true ∧ cacheNamespace ∈ cacheNamespaces server.liveRouter

instance (server : CachingServer NativeRouter) (cacheNamespace : UInt64) :
    Decidable (server.Uses cacheNamespaces cacheNamespace) :=
  inferInstanceAs (Decidable (_ ∧ _))

/-- The number of servers that use a namespace. -/
def CachingProcess.users (process : CachingProcess NativeRouter) (cacheNamespace : UInt64) : Nat :=
  process.servers.countP fun server => server.Uses cacheNamespaces cacheNamespace

/-- Each count is the number of servers that use the namespace, and a thread that
looks into its caches next drops those that have no count. -/
structure CachingProcess.Keeps (process : CachingProcess NativeRouter) : Prop where
  counts : ∀ cacheNamespace,
    (process.counts cacheNamespace).getD 0 = process.users cacheNamespaces cacheNamespace
  drops : ∀ server ∈ process.servers, ∀ worker ∈ server.workers, ∀ cacheNamespace,
    (worker.syncRouteCaches process).caches cacheNamespace =
      if (process.counts cacheNamespace).getD 0 = 0 then none
      else worker.caches cacheNamespace

/-- A call that fails. -/
def CachingEvent.Fails : CachingEvent NativeRouter → Prop
  | .startServer .refused => True
  | .startServer (.failed _) => True
  | .startServer (.started _ _) => False
  | .reload _ router => router = none
  | _ => False

/-- A start that fails has no namespaces, a server that is closed is not reloaded with
any, and what is inserted belongs to a namespace that a server uses. -/
def IsSettled (process : CachingProcess NativeRouter) : CachingEvent NativeRouter → Prop
  | .startServer (.failed router) => cacheNamespaces router = ∅
  | .reload id (some router) =>
      (∀ server ∈ process.servers[id]?, server.isOpen = true) ∨ cacheNamespaces router = ∅
  | .access _ _ _ cacheNamespace (.insert _ _ _) =>
      ∃ server ∈ process.servers, server.Uses cacheNamespaces cacheNamespace
  | _ => True

end

end Lifecycle
end HttpNative
