import HttpNative.Lifecycle.CacheNamespaces
import Mathlib.Data.List.Perm.Basic

/-!
# Runs of the counts of namespaces

The servers are the holders of their namespaces, so that each count is the number of
servers that use a namespace; a thread that has seen the last change has no cache
without a count.
-/

namespace HttpNative
namespace Lifecycle

open Router (CacheEntry RouteCaches)

section

variable {NativeRouter : Type} (cacheNamespaces : NativeRouter → Finset UInt64)

/-! ## Counts and generations -/

/-- Another state of the counts: they are the same as long as the generation is. -/
structure CachingProcess.Follows (process next : CachingProcess NativeRouter) : Prop where
  later : process.generation ≤ next.generation
  same : next.generation = process.generation → next.counts = process.counts

namespace CachingProcess

variable {process middle next : CachingProcess NativeRouter}

theorem Follows.refl (process : CachingProcess NativeRouter) : process.Follows process :=
  ⟨Nat.le_refl _, fun _ => rfl⟩

theorem Follows.trans
    (first : process.Follows middle)
    (second : middle.Follows next) :
    process.Follows next where
  later := Nat.le_trans first.later second.later
  same equal := by
    have later := first.later
    have last := second.later
    have middleEqual : middle.generation = process.generation := by omega
    rw [second.same (by omega), first.same middleEqual]

theorem follows_of_later
    (later : process.generation < next.generation) :
    process.Follows next :=
  ⟨Nat.le_of_lt later, fun equal => absurd equal (Nat.ne_of_gt later)⟩

theorem registerCacheNamespaces_spec
    (process : CachingProcess NativeRouter)
    (namespaces : Finset UInt64) :
    process.Follows (process.registerCacheNamespaces namespaces) ∧
      (process.registerCacheNamespaces namespaces).counts = process.counts.register namespaces ∧
      (process.registerCacheNamespaces namespaces).servers = process.servers := by
  unfold registerCacheNamespaces
  split
  · rename_i empty
    rw [empty, ReferenceCounts.register_empty]
    exact ⟨.refl process, rfl, rfl⟩
  · exact ⟨follows_of_later (Nat.lt_succ_self _), rfl, rfl⟩

theorem unregisterCacheNamespaces_spec
    (process : CachingProcess NativeRouter)
    (namespaces : Finset UInt64) :
    process.Follows (process.unregisterCacheNamespaces namespaces) ∧
      (process.unregisterCacheNamespaces namespaces).counts =
        process.counts.unregister namespaces ∧
      (process.unregisterCacheNamespaces namespaces).servers = process.servers := by
  unfold unregisterCacheNamespaces
  split
  · rename_i empty
    rw [empty, ReferenceCounts.unregister_empty]
    exact ⟨.refl process, rfl, rfl⟩
  · exact ⟨follows_of_later (Nat.lt_succ_self _), rfl, rfl⟩

theorem replaceCacheNamespaces_spec
    (process : CachingProcess NativeRouter)
    (previous next : Finset UInt64) :
    process.Follows (process.replaceCacheNamespaces previous next) ∧
      (process.replaceCacheNamespaces previous next).counts =
        process.counts.replace previous next ∧
      (process.replaceCacheNamespaces previous next).servers = process.servers := by
  obtain ⟨follows, counts, servers⟩ := process.unregisterCacheNamespaces_spec (previous \ next)
  obtain ⟨later, registered, same⟩ :=
    (process.unregisterCacheNamespaces (previous \ next)).registerCacheNamespaces_spec
      (next \ previous)
  refine ⟨follows.trans later, ?_, same.trans servers⟩
  rw [replaceCacheNamespaces, registered, counts]
  rfl

/-! ## The servers as holders -/

/-- What the servers have registered. -/
def holders (process : CachingProcess NativeRouter) : Multiset (Finset UInt64) :=
  process.servers.map CachingServer.registered

theorem holders_setServer
    {id : Nat} {server : CachingServer NativeRouter}
    (found : process.servers[id]? = some server) :
    ∃ others, process.holders = server.registered ::ₘ others ∧
      ∀ updated, (process.setServer id updated).holders = updated.registered ::ₘ others := by
  obtain ⟨inside, same⟩ := List.getElem?_eq_some_iff.mp found
  have permuted (updated : CachingServer NativeRouter) :
      (process.servers.set id updated).map CachingServer.registered |>.Perm
        (updated.registered :: (process.servers.eraseIdx id).map CachingServer.registered) :=
    (List.set_perm_cons_eraseIdx inside updated).map CachingServer.registered
  refine ⟨((process.servers.eraseIdx id).map CachingServer.registered : List _), ?_, ?_⟩
  · have before := (List.getElem_cons_eraseIdx_perm inside).symm.map CachingServer.registered
    rw [same] at before
    exact Multiset.coe_eq_coe.mpr before
  · intro updated
    exact Multiset.coe_eq_coe.mpr (permuted updated)

end CachingProcess

/-! ## Invariant -/

/-- What a thread that has seen the generation of the counts still has in its
caches. -/
def CachingWorker.IsCurrent
    (process : CachingProcess NativeRouter)
    (worker : CachingWorker NativeRouter) :
    Prop :=
  worker.seenGeneration ≤ process.generation ∧
    (worker.seenGeneration = process.generation → ∀ cacheNamespace,
      process.counts cacheNamespace = none → worker.caches cacheNamespace = none)

/-- A server has registered what its live router has, or nothing behind its end, and
its threads are current. -/
structure CachingServer.IsSound
    (process : CachingProcess NativeRouter)
    (server : CachingServer NativeRouter) :
    Prop where
  registered : server.registered =
    if server.isOpen then cacheNamespaces server.liveRouter else ∅
  workers : ∀ worker ∈ server.workers, worker.IsCurrent process

structure CachingProcess.IsSound (process : CachingProcess NativeRouter) : Prop where
  counts : process.counts = ReferenceCounts.counted process.holders
  servers : ∀ server ∈ process.servers, server.IsSound cacheNamespaces process

variable {cacheNamespaces}

variable {process next : CachingProcess NativeRouter} {server : CachingServer NativeRouter}
  {worker : CachingWorker NativeRouter}

theorem CachingServer.IsSound.uses_iff
    (sound : server.IsSound cacheNamespaces process)
    (cacheNamespace : UInt64) :
    cacheNamespace ∈ server.registered ↔ server.Uses cacheNamespaces cacheNamespace := by
  rw [sound.registered, Uses]
  cases server.isOpen with
  | true => simp
  | false => simp

theorem CachingWorker.IsCurrent.follows
    (current : worker.IsCurrent process)
    (follows : process.Follows next) :
    worker.IsCurrent next := by
  refine ⟨Nat.le_trans current.1 follows.later, fun seen cacheNamespace absent => ?_⟩
  have later := follows.later
  have before := current.1
  have same : next.generation = process.generation := by omega
  rw [follows.same same] at absent
  exact current.2 (by omega) cacheNamespace absent

theorem CachingServer.IsSound.follows
    (sound : server.IsSound cacheNamespaces process)
    (follows : process.Follows next) :
    server.IsSound cacheNamespaces next :=
  ⟨sound.registered, fun worker member => (sound.workers worker member).follows follows⟩

/-- A thread in step with the counts has the caches whose namespaces are counted. -/
theorem caches_syncRouteCaches
    (current : worker.IsCurrent process)
    (cacheNamespace : UInt64) :
    (worker.syncRouteCaches process).caches cacheNamespace =
      if process.counts cacheNamespace = none then none else worker.caches cacheNamespace := by
  unfold CachingWorker.syncRouteCaches
  split
  · rename_i seen
    split
    · rename_i absent
      exact current.2 seen cacheNamespace absent
    · rfl
  · change (if (process.counts cacheNamespace).isSome then worker.caches cacheNamespace
      else none) = _
    cases process.counts cacheNamespace with
    | none => rfl
    | some count => rfl

theorem seenGeneration_syncRouteCaches
    (process : CachingProcess NativeRouter)
    (worker : CachingWorker NativeRouter) :
    (worker.syncRouteCaches process).seenGeneration = process.generation := by
  unfold CachingWorker.syncRouteCaches
  split
  · rename_i seen
    exact seen
  · rfl

namespace CachingProcess

theorem IsSound.counts_eq_none
    (sound : process.IsSound cacheNamespaces)
    {cacheNamespace : UInt64} :
    process.counts cacheNamespace = none ↔
      ∀ server ∈ process.servers, ¬ server.Uses cacheNamespaces cacheNamespace := by
  rw [sound.counts, ReferenceCounts.counted_eq_none]
  constructor
  · intro unused server member uses
    exact unused server.registered (List.mem_map_of_mem member)
      (((sound.servers server member).uses_iff cacheNamespace).mpr uses)
  · intro unused keys member held
    obtain ⟨server, given, rfl⟩ := List.mem_map.mp member
    exact unused server given (((sound.servers server given).uses_iff cacheNamespace).mp held)

theorem IsSound.keeps
    (sound : process.IsSound cacheNamespaces) :
    process.Keeps cacheNamespaces where
  counts cacheNamespace := by
    rw [sound.counts, ReferenceCounts.counted, ReferenceCounts.getD_stored, holders,
      Multiset.coe_countP, List.countP_map, users]
    refine List.countP_congr fun server member => ?_
    rw [Function.comp_apply, decide_eq_true_eq, decide_eq_true_eq]
    exact (sound.servers server member).uses_iff cacheNamespace
  drops server member worker thread cacheNamespace := by
    rw [caches_syncRouteCaches ((sound.servers server member).workers worker thread)]
    refine if_congr ?_ rfl rfl
    rw [sound.counts, ReferenceCounts.counted, ReferenceCounts.getD_stored,
      ReferenceCounts.stored_eq_none]

/-! ## Steps -/

theorem IsSound.setServer
    {middle : CachingProcess NativeRouter} {id : Nat} {updated : CachingServer NativeRouter}
    (sound : process.IsSound cacheNamespaces)
    (found : process.servers[id]? = some server)
    (follows : process.Follows middle)
    (servers : middle.servers = process.servers)
    (counts : ∀ others, process.counts = .counted (server.registered ::ₘ others) →
      middle.counts = .counted (updated.registered ::ₘ others))
    (updatedSound : updated.IsSound cacheNamespaces middle) :
    (middle.setServer id updated).IsSound cacheNamespaces := by
  constructor
  · rw [← servers] at found
    obtain ⟨others, before, behind⟩ := holders_setServer found
    have same : process.holders = middle.holders := by
      rw [holders, holders, servers]
    rw [behind]
    refine counts others ?_
    rw [sound.counts, same, before]
  · intro other member
    rcases List.mem_or_eq_of_mem_set member with earlier | rfl
    · rw [servers] at earlier
      have kept := (sound.servers other earlier).follows follows
      exact ⟨kept.registered, kept.workers⟩
    · exact ⟨updatedSound.registered, updatedSound.workers⟩

theorem isSound_start : (cachingMachine cacheNamespaces).start.IsSound cacheNamespaces where
  counts := ReferenceCounts.counted_zero.symm
  servers _ member := absurd member List.not_mem_nil

theorem IsSound.startServer
    (sound : process.IsSound cacheNamespaces)
    (router : NativeRouter)
    (workerCount : Nat) :
    (process.startServer cacheNamespaces (.started router workerCount)).IsSound
      cacheNamespaces := by
  obtain ⟨follows, counts, servers⟩ :=
    process.registerCacheNamespaces_spec (cacheNamespaces router)
  constructor
  · change (process.registerCacheNamespaces (cacheNamespaces router)).counts =
      .counted (((process.registerCacheNamespaces (cacheNamespaces router)).servers ++ [_]).map
        CachingServer.registered : List _)
    rw [counts, sound.counts, ReferenceCounts.register_counted, servers, List.map_append,
      ← Multiset.coe_add, Multiset.add_comm]
    rfl
  · intro server member
    rcases List.mem_append.mp member with earlier | new
    · rw [servers] at earlier
      have kept := (sound.servers server earlier).follows follows
      exact ⟨kept.registered, kept.workers⟩
    · rw [List.mem_singleton.mp new]
      refine ⟨rfl, fun worker fresh => ?_⟩
      rw [List.eq_of_mem_replicate fresh]
      exact ⟨Nat.zero_le _, fun _ _ _ => rfl⟩

theorem IsSound.reload
    {id : Nat}
    (sound : process.IsSound cacheNamespaces)
    (found : process.servers[id]? = some server)
    (router : NativeRouter)
    (usable : server.isOpen = true ∨ cacheNamespaces router = ∅) :
    (process.reload cacheNamespaces id server router).IsSound cacheNamespaces := by
  obtain ⟨follows, counts, servers⟩ :=
    process.replaceCacheNamespaces_spec server.registered (cacheNamespaces router)
  have own := sound.servers server (List.mem_of_getElem? found)
  refine sound.setServer found follows servers ?_ ⟨?_, (own.follows follows).workers⟩
  · intro others same
    rw [counts, same, ReferenceCounts.replace_counted]
  · change cacheNamespaces router = if server.isOpen then cacheNamespaces router else ∅
    rcases usable with opened | empty
    · rw [opened, if_pos rfl]
    · rw [empty, ite_self]

theorem IsSound.close
    {id : Nat}
    (sound : process.IsSound cacheNamespaces)
    (found : process.servers[id]? = some server) :
    (process.close id server).IsSound cacheNamespaces := by
  obtain ⟨follows, counts, servers⟩ := process.unregisterCacheNamespaces_spec server.registered
  refine sound.setServer found follows servers ?_ ⟨rfl, List.forall_mem_nil _⟩
  intro others same
  have gone : ReferenceCounts.counted (∅ ::ₘ others) = .counted others := by
    funext cacheNamespace
    exact ReferenceCounts.counted_cons_of_notMem others (Finset.notMem_empty cacheNamespace)
  rw [counts, same, ReferenceCounts.unregister_counted]
  exact gone.symm

/-- A thread of a server changes. -/
theorem IsSound.setWorker
    {id workerId : Nat} {worker : CachingWorker NativeRouter}
    (sound : process.IsSound cacheNamespaces)
    (found : process.servers[id]? = some server)
    (current : worker.IsCurrent process) :
    (process.setServer id { server with workers := server.workers.set workerId worker }).IsSound
      cacheNamespaces := by
  have own := sound.servers server (List.mem_of_getElem? found)
  refine sound.setServer found (.refl process) rfl (fun _ same => same) ⟨own.registered, ?_⟩
  intro other member
  rcases List.mem_or_eq_of_mem_set member with earlier | rfl
  · exact own.workers other earlier
  · exact current

end CachingProcess

/-- A thread stays current unless it inserts under a namespace without a count. -/
theorem isCurrent_use
    {cacheNamespace : UInt64} {access : CacheAccess}
    (current : worker.IsCurrent process)
    (counted : ∀ key entry maxEntries, access = .insert key entry maxEntries →
      process.counts cacheNamespace ≠ none) :
    ((worker.syncRouteCaches process).use cacheNamespace access).IsCurrent process := by
  have seen := seenGeneration_syncRouteCaches process worker
  have synced (other : UInt64) (absent : process.counts other = none) :
      (worker.syncRouteCaches process).caches other = none := by
    rw [caches_syncRouteCaches current, if_pos absent]
  cases access with
  | get key now =>
      refine ⟨Nat.le_of_eq seen, fun _ other absent => ?_⟩
      change ((worker.syncRouteCaches process).caches.lookup cacheNamespace key now).1 other = none
      unfold RouteCaches.lookup
      split
      · exact synced other absent
      · rename_i cache found
        by_cases same : other = cacheNamespace
        · subst same
          rw [synced other absent] at found
          cases found
        · exact (Function.update_of_ne same _ _).trans (synced other absent)
  | insert key entry maxEntries =>
      refine ⟨Nat.le_of_eq seen, fun _ other absent => ?_⟩
      have different : other ≠ cacheNamespace := by
        rintro rfl
        exact counted key entry maxEntries rfl absent
      exact (Function.update_of_ne different _ _).trans (synced other absent)

namespace CachingProcess

theorem isSound_step
    {event : CachingEvent NativeRouter}
    (sound : process.IsSound cacheNamespaces)
    (settled : IsSettled cacheNamespaces process event)
    (stepped : process.step cacheNamespaces event = some next) :
    next.IsSound cacheNamespaces := by
  cases event with
  | startServer outcome =>
      cases stepped
      cases outcome with
      | refused => exact sound
      | failed router =>
          have empty : cacheNamespaces router = ∅ := settled
          have same : process.registerCacheNamespaces (cacheNamespaces router) = process :=
            if_pos empty
          change (process.registerCacheNamespaces (cacheNamespaces router)).IsSound _
          rw [same]
          exact sound
      | started router workerCount => exact sound.startServer router workerCount
  | reload id router =>
      cases router with
      | none =>
          obtain ⟨server, found, rfl⟩ := Option.map_eq_some_iff.mp stepped
          exact sound
      | some router =>
          obtain ⟨server, found, rfl⟩ := Option.map_eq_some_iff.mp stepped
          exact sound.reload found router (settled.imp_left fun opened => opened server found)
  | close id =>
      obtain ⟨server, found, rfl⟩ := Option.map_eq_some_iff.mp stepped
      exact sound.close found
  | load id workerId connection =>
      obtain ⟨server, found, stepped⟩ := Option.bind_eq_some_iff.mp stepped
      obtain ⟨worker, thread, stepped⟩ := Option.bind_eq_some_iff.mp stepped
      cases stepped
      exact sound.setWorker found ((sound.servers server (List.mem_of_getElem? found)).workers
        worker (List.mem_of_getElem? thread))
  | access id workerId connection cacheNamespace access =>
      obtain ⟨server, found, stepped⟩ := Option.bind_eq_some_iff.mp stepped
      obtain ⟨worker, thread, stepped⟩ := Option.bind_eq_some_iff.mp stepped
      obtain ⟨router, loaded, stepped⟩ := Option.bind_eq_some_iff.mp stepped
      have current := (sound.servers server (List.mem_of_getElem? found)).workers worker
        (List.mem_of_getElem? thread)
      split at stepped
      · cases stepped
        refine sound.setWorker found (isCurrent_use current ?_)
        rintro key entry maxEntries rfl absent
        obtain ⟨user, member, uses⟩ := settled
        exact sound.counts_eq_none.mp absent user member uses
      · cases stepped

theorem isSound_of_reachesUnder
    (reaches : (cachingMachine cacheNamespaces).ReachesUnder (IsSettled cacheNamespaces)
      process) :
    process.IsSound cacheNamespaces :=
  reaches.invariant isSound_start fun _ _ _ sound settled stepped =>
    isSound_step sound settled stepped

/-! ## Steps that are not settled -/

theorem increment_ne (count : Option Nat) : ReferenceCounts.increment count ≠ count := by
  cases count with
  | none => exact Option.some_ne_none 1
  | some number => exact fun same => Nat.succ_ne_self number (Option.some.inj same)

theorem getD_increment (count : Option Nat) :
    (ReferenceCounts.increment count).getD 0 = count.getD 0 + 1 := by
  cases count with
  | none => rfl
  | some number => rfl

/-- A start that fails changes the counts of its namespaces. -/
theorem empty_of_failed
    {router : NativeRouter}
    (same : (process.startServer cacheNamespaces (.failed router)).counts = process.counts) :
    cacheNamespaces router = ∅ := by
  refine Finset.eq_empty_of_forall_notMem fun cacheNamespace held => ?_
  have counted := (process.registerCacheNamespaces_spec (cacheNamespaces router)).2.1
  have one := congrFun (counted.symm.trans same) cacheNamespace
  rw [ReferenceCounts.register, if_pos held] at one
  exact increment_ne _ one

theorem countP_cons_of_closed
    {cacheNamespace : UInt64}
    (closed : server.isOpen = false)
    (rest : List (CachingServer NativeRouter)) :
    ((server :: rest).countP fun server => server.Uses cacheNamespaces cacheNamespace) =
      rest.countP fun server => server.Uses cacheNamespaces cacheNamespace := by
  refine List.countP_cons_of_neg ?_
  rw [decide_eq_true_eq]
  exact fun uses => Bool.false_ne_true (closed.symm.trans uses.1)

/-- A closed server does not count, whatever router it has. -/
theorem users_setServer
    {id : Nat} {cacheNamespace : UInt64}
    (found : process.servers[id]? = some server)
    (closed : server.isOpen = false)
    (updated : CachingServer NativeRouter)
    (closedStill : updated.isOpen = false) :
    (process.setServer id updated).users cacheNamespaces cacheNamespace =
      process.users cacheNamespaces cacheNamespace := by
  obtain ⟨inside, same⟩ := List.getElem?_eq_some_iff.mp found
  have behind := (List.set_perm_cons_eraseIdx inside updated).countP_eq fun server =>
    decide (server.Uses cacheNamespaces cacheNamespace)
  have before := (List.getElem_cons_eraseIdx_perm inside).countP_eq fun server =>
    decide (server.Uses cacheNamespaces cacheNamespace)
  rw [same] at before
  calc (process.setServer id updated).users cacheNamespaces cacheNamespace
      = _ := behind
    _ = _ := countP_cons_of_closed closedStill _
    _ = _ := (countP_cons_of_closed closed _).symm
    _ = process.users cacheNamespaces cacheNamespace := before

/-- A reload of a closed server counts namespaces that no open server has. -/
theorem empty_of_reload
    {id : Nat} {router : NativeRouter}
    (sound : process.IsSound cacheNamespaces)
    (found : process.servers[id]? = some server)
    (closed : server.isOpen = false)
    (keeps : (process.reload cacheNamespaces id server router).Keeps cacheNamespaces) :
    cacheNamespaces router = ∅ := by
  refine Finset.eq_empty_of_forall_notMem fun cacheNamespace held => ?_
  have registered : server.registered = ∅ := by
    rw [(sound.servers server (List.mem_of_getElem? found)).registered, closed]
    rfl
  have servers := (process.replaceCacheNamespaces_spec server.registered
    (cacheNamespaces router)).2.2
  have counted : (process.reload cacheNamespaces id server router).counts cacheNamespace =
      ReferenceCounts.increment (process.counts cacheNamespace) := by
    change (process.replaceCacheNamespaces server.registered (cacheNamespaces router)).counts
      cacheNamespace = _
    rw [(process.replaceCacheNamespaces_spec _ _).2.1, ReferenceCounts.replace,
      ReferenceCounts.register, ReferenceCounts.unregister, registered, Finset.sdiff_empty,
      Finset.empty_sdiff, if_pos held, if_neg (Finset.notMem_empty _)]
  have behind := keeps.counts cacheNamespace
  have before := sound.keeps.counts cacheNamespace
  have same : (process.reload cacheNamespaces id server router).users cacheNamespaces
      cacheNamespace = process.users cacheNamespaces cacheNamespace := by
    rw [← servers] at found
    let updated :=
      { server with liveRouter := router, registered := cacheNamespaces router }
    refine (users_setServer found closed updated closed).trans ?_
    rw [users, servers, users]
  rw [counted, getD_increment, before, same] at behind
  exact Nat.succ_ne_self _ behind

/-- What is inserted under a namespace that no server uses is still there when the
thread looks into its caches next. -/
theorem uses_of_insert
    {id workerId : Nat} {cacheNamespace key : UInt64} {entry : CacheEntry} {maxEntries : Nat}
    (sound : process.IsSound cacheNamespaces)
    (found : process.servers[id]? = some server)
    (thread : server.workers[workerId]? = some worker)
    (keeps : (process.access id workerId server worker cacheNamespace
      (.insert key entry maxEntries)).Keeps cacheNamespaces) :
    ∃ server ∈ process.servers, server.Uses cacheNamespaces cacheNamespace := by
  by_contra unused
  have absent : process.counts cacheNamespace = none :=
    sound.counts_eq_none.mpr fun server member uses => unused ⟨server, member, uses⟩
  have inside := (List.getElem?_eq_some_iff.mp found).1
  have insideThreads := (List.getElem?_eq_some_iff.mp thread).1
  have dropped := keeps.drops _ (List.mem_set inside _) _ (List.mem_set insideThreads _)
    cacheNamespace
  have seen := seenGeneration_syncRouteCaches process worker
  have kept : ((worker.syncRouteCaches process).use cacheNamespace
      (.insert key entry maxEntries)).syncRouteCaches (process.access id workerId server worker
        cacheNamespace (.insert key entry maxEntries)) =
      (worker.syncRouteCaches process).use cacheNamespace (.insert key entry maxEntries) :=
    if_pos seen
  have zero : ((process.access id workerId server worker cacheNamespace
      (.insert key entry maxEntries)).counts cacheNamespace).getD 0 = 0 :=
    congrArg (·.getD 0) absent
  rw [kept, if_pos zero] at dropped
  have stored : ((worker.syncRouteCaches process).caches.store cacheNamespace key entry
      maxEntries) cacheNamespace = none := dropped
  rw [RouteCaches.store, Function.update_self] at stored
  cases stored

/-- A settled call that fails leaves the counts as they are. -/
theorem counts_of_fails
    {event : CachingEvent NativeRouter}
    (settled : IsSettled cacheNamespaces process event)
    (fails : event.Fails)
    (stepped : process.step cacheNamespaces event = some next) :
    next.counts = process.counts := by
  cases event with
  | startServer outcome =>
      cases stepped
      cases outcome with
      | refused => rfl
      | failed router =>
          have empty : cacheNamespaces router = ∅ := settled
          change (process.registerCacheNamespaces (cacheNamespaces router)).counts = _
          rw [(process.registerCacheNamespaces_spec _).2.1, empty,
            ReferenceCounts.register_empty]
      | started router workerCount => exact fails.elim
  | reload id router =>
      cases router with
      | none =>
          obtain ⟨server, found, rfl⟩ := Option.map_eq_some_iff.mp stepped
          rfl
      | some router => cases fails
  | close id => exact fails.elim
  | load id workerId connection => exact fails.elim
  | access id workerId connection cacheNamespace access => exact fails.elim

theorem isSettled_of_keeps
    {event : CachingEvent NativeRouter}
    (sound : process.IsSound cacheNamespaces)
    (stepped : process.step cacheNamespaces event = some next)
    (keeps : next.Keeps cacheNamespaces)
    (counts : event.Fails → next.counts = process.counts) :
    IsSettled cacheNamespaces process event := by
  cases event with
  | startServer outcome =>
      cases stepped
      cases outcome with
      | refused => trivial
      | failed router => exact empty_of_failed (counts trivial)
      | started router workerCount => trivial
  | reload id router =>
      cases router with
      | none => trivial
      | some router =>
          obtain ⟨server, found, rfl⟩ := Option.map_eq_some_iff.mp stepped
          cases opened : server.isOpen with
          | true =>
              refine .inl fun other same => ?_
              cases found.symm.trans same
              exact opened
          | false => exact .inr (empty_of_reload sound found opened keeps)
  | close id => trivial
  | load id workerId connection => trivial
  | access id workerId connection cacheNamespace access =>
      obtain ⟨server, found, stepped⟩ := Option.bind_eq_some_iff.mp stepped
      obtain ⟨worker, thread, stepped⟩ := Option.bind_eq_some_iff.mp stepped
      obtain ⟨router, loaded, stepped⟩ := Option.bind_eq_some_iff.mp stepped
      split at stepped
      · cases stepped
        cases access with
        | get key now => trivial
        | insert key entry maxEntries => exact uses_of_insert sound found thread keeps
      · cases stepped

/-- In every run of settled steps each count is the number of servers that use the
namespace, and each thread drops the caches without a count; a further step keeps this,
and a failing one the counts, just when it is settled too. -/
theorem keeps_iff_isSettled
    (cacheNamespaces : NativeRouter → Finset UInt64)
    (process : CachingProcess NativeRouter)
    (reaches : (cachingMachine cacheNamespaces).ReachesUnder (IsSettled cacheNamespaces)
      process) :
    process.Keeps cacheNamespaces ∧
      ∀ event next, process.step cacheNamespaces event = some next →
        (IsSettled cacheNamespaces process event ↔
          next.Keeps cacheNamespaces ∧ (event.Fails → next.counts = process.counts)) := by
  have sound := isSound_of_reachesUnder reaches
  refine ⟨sound.keeps, fun event next stepped => ⟨fun settled => ⟨?_, fun fails => ?_⟩, ?_⟩⟩
  · exact (isSound_step sound settled stepped).keeps
  · exact counts_of_fails settled fails stepped
  · rintro ⟨keeps, counts⟩
    exact isSettled_of_keeps sound stepped keeps counts

end CachingProcess

end

/-- The process behind a start. -/
def afterStart (outcome : StartOutcome (Finset UInt64)) : CachingProcess (Finset UInt64) :=
  (cachingMachine id).start.startServer id outcome

/-- A server with one namespace and one thread, and what a further step does. -/
theorem keeps_afterStart :
    (afterStart (.started {1} 1)).Keeps id ∧
      ∀ event next, (afterStart (.started {1} 1)).step id event = some next →
        (IsSettled id (afterStart (.started {1} 1)) event ↔
          next.Keeps id ∧
            (event.Fails → next.counts = (afterStart (.started {1} 1)).counts)) := by
  have settled : IsSettled id (cachingMachine id).start (.startServer (.started {1} 1)) := trivial
  exact CachingProcess.keeps_iff_isSettled id _ (.step .start settled rfl)

/-- A start that fails leaves its namespaces counted, without a server. -/
theorem not_keeps :
    ¬ ∀ (cacheNamespaces : Finset UInt64 → Finset UInt64)
      (process : CachingProcess (Finset UInt64)),
      (cachingMachine cacheNamespaces).Reaches process → process.Keeps cacheNamespaces := by
  intro everywhere
  have stepped : (cachingMachine id).step (cachingMachine id).start
      (.startServer (.failed {1})) = some (afterStart (.failed {1})) := rfl
  have keeps := everywhere id (afterStart (.failed {1})) (.step .start trivial stepped)
  exact absurd (keeps.counts 1) (by decide)

end Lifecycle
end HttpNative
