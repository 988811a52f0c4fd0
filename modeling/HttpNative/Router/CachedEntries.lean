import HttpNative.Router.RouteCacheRefinement

/-!
# Entries of the route caches

The caches of a worker, one for each namespace, and what a look-up can return:
whatever evictions have done to a cache, only an entry that was inserted.
-/

namespace HttpNative
namespace Router

namespace RouteCache

/-- Every entry that a node carries has a property. -/
def AllEntries (property : CacheEntry → Prop) (cache : RouteCache) : Prop :=
  ∀ idx entry, (cache.node idx).value = some entry → property entry

variable {property : CacheEntry → Prop} {cache : RouteCache}

theorem allEntries_new
    (property : CacheEntry → Prop)
    (capacity : Nat) :
    (new capacity).AllEntries property := by
  intro idx entry carried
  simp [new, node, LruNode.vacant] at carried

theorem AllEntries.of_slot_eq
    {edited : RouteCache}
    (all : cache.AllEntries property)
    (same : edited.slot = cache.slot) :
    edited.AllEntries property := by
  intro idx entry carried
  have value : (cache.node idx).value = (edited.node idx).value :=
    congrArg Prod.snd (congrFun same idx).symm
  exact all idx entry (value.trans carried)

/-- Give a node a value that has the property, or none. -/
theorem AllEntries.modifyNode
    (all : cache.AllEntries property)
    {update : LruNode → LruNode}
    (idx : Nat)
    (updated : ∀ node entry, (update node).value = some entry →
      node.value = some entry ∨ property entry) :
    (cache.modifyNode idx update).AllEntries property := by
  intro other entry carried
  rw [node_modifyNode] at carried
  split at carried
  · exact (updated _ entry carried).elim (all idx entry) id
  · exact all other entry carried

theorem AllEntries.removeNode
    (all : cache.AllEntries property)
    (idx : Nat) :
    (cache.removeNode idx).AllEntries property := by
  have unlinked := all.of_slot_eq (sameContents_removeLink cache idx).slot_eq
  let clear (node : LruNode) : LruNode := { node with value := none }
  have cleared : ∀ node entry, (clear node).value = some entry →
      node.value = some entry ∨ property entry := by
    intro node entry absent
    cases absent
  exact unlinked.modifyNode idx cleared

theorem AllEntries.moveToHead
    (all : cache.AllEntries property)
    (idx : Nat) :
    (cache.moveToHead idx).AllEntries property :=
  all.of_slot_eq (sameContents_moveToHead cache idx).slot_eq

theorem AllEntries.allocate
    (all : cache.AllEntries property) :
    cache.allocate.1.AllEntries property := by
  unfold RouteCache.allocate
  split
  · exact all
  · split
    · exact all.of_slot_eq (slot_pushVacant cache)
    · split
      · exact all
      · exact all.removeNode _

theorem AllEntries.insert
    (all : cache.AllEntries property)
    (key : UInt64)
    {entry : CacheEntry}
    (holds : property entry) :
    (cache.insert key entry).AllEntries property := by
  let write (node : LruNode) : LruNode := { node with value := some entry }
  have stored : ∀ node other, (write node).value = some other →
      node.value = some other ∨ property other := by
    intro node other carried
    cases carried
    exact .inr holds
  unfold RouteCache.insert
  split
  · exact (all.modifyNode _ stored).moveToHead _
  · have allocated := all.allocate
    split
    · rename_i same
      rw [same] at allocated
      exact allocated
    · rename_i freed idx same
      rw [same] at allocated
      let name (node : LruNode) : LruNode := { node with key := key }
      have named : ∀ node other, (name node).value = some other →
          node.value = some other ∨ property other := fun node other carried => .inl carried
      have filled : ((freed.modifyNode idx name).modifyNode idx write).AllEntries property :=
        (allocated.modifyNode idx named).modifyNode idx stored
      exact filled.of_slot_eq (sameContents_pushHead _ idx).slot_eq

/-- A look-up keeps the property, and what it returns has it. -/
theorem AllEntries.get
    (all : cache.AllEntries property)
    (key : UInt64)
    (now : Nat) :
    (cache.get key now).1.AllEntries property ∧
      ∀ entry ∈ (cache.get key now).2, property entry := by
  unfold RouteCache.get
  split
  · exact ⟨all, by simp⟩
  · rename_i idx _
    have expired : ((cache.removeNode idx).mapRemove key).AllEntries property :=
      all.removeNode idx
    dsimp only
    split
    · exact ⟨expired, by simp⟩
    · split
      · have moved := all.moveToHead idx
        exact ⟨moved, fun entry found => moved idx entry found⟩
      · exact ⟨expired, by simp⟩

/-- The first entry of a cache goes into its first node. -/
theorem insert_new
    {capacity : Nat}
    (positive : 0 < capacity)
    (key : UInt64)
    (entry : CacheEntry) :
    ((new capacity).insert key entry).slot 0 = (key, some entry) ∧
      ((new capacity).insert key entry).maxEntries = capacity := by
  have missing : (new capacity).map key = none := rfl
  have allocated : (new capacity).allocate = ((new capacity).pushVacant, some 0) := by
    simp [allocate, new, positive]
  have same (cache : RouteCache) := sameContents_pushHead cache 0
  simp only [insert, missing, allocated]
  rw [(same _).slot_eq, (same _).maxEntries_eq]
  exact ⟨rfl, rfl⟩

end RouteCache

/-- `ROUTE_CACHES` of a worker. -/
abbrev RouteCaches := UInt64 → Option RouteCache

namespace RouteCaches

/-- `sync_route_caches` drops the caches of namespaces that are gone. -/
def retain (caches : RouteCaches) (valid : UInt64 → Bool) : RouteCaches :=
  fun cacheNamespace => if valid cacheNamespace then caches cacheNamespace else none

/-- The look-up of `get_cached_response`. -/
def lookup
    (caches : RouteCaches)
    (cacheNamespace key : UInt64)
    (now : Nat) :
    RouteCaches × Option CacheEntry :=
  match caches cacheNamespace with
  | none => (caches, none)
  | some cache =>
      (Function.update caches cacheNamespace (some (cache.get key now).1), (cache.get key now).2)

/-- `insert_cached_response`. -/
def store
    (caches : RouteCaches)
    (cacheNamespace key : UInt64)
    (entry : CacheEntry)
    (maxEntries : Nat) :
    RouteCaches :=
  let cache := (caches cacheNamespace).getD (RouteCache.new maxEntries)
  Function.update caches cacheNamespace
    (some ({ cache with maxEntries := max maxEntries 1 }.insert key entry))

def AllEntries (property : CacheEntry → Prop) (caches : RouteCaches) : Prop :=
  ∀ cacheNamespace, ∀ cache ∈ caches cacheNamespace, cache.AllEntries property

variable {property : CacheEntry → Prop} {caches : RouteCaches}

theorem AllEntries.update
    (all : caches.AllEntries property)
    (cacheNamespace : UInt64)
    {cache : RouteCache}
    (holds : cache.AllEntries property) :
    AllEntries property (Function.update caches cacheNamespace (some cache)) := by
  intro other found member
  by_cases same : other = cacheNamespace
  · subst same
    rw [Function.update_self] at member
    cases member
    exact holds
  · rw [Function.update_of_ne same] at member
    exact all other found member

theorem AllEntries.retain
    (all : caches.AllEntries property)
    (valid : UInt64 → Bool) :
    (caches.retain valid).AllEntries property := by
  intro cacheNamespace cache member
  unfold RouteCaches.retain at member
  split at member
  · exact all cacheNamespace cache member
  · cases member

theorem AllEntries.lookup
    (all : caches.AllEntries property)
    (cacheNamespace key : UInt64)
    (now : Nat) :
    (caches.lookup cacheNamespace key now).1.AllEntries property ∧
      ∀ entry ∈ (caches.lookup cacheNamespace key now).2, property entry := by
  unfold RouteCaches.lookup
  cases found : caches cacheNamespace with
  | none => exact ⟨all, by simp⟩
  | some cache =>
      obtain ⟨kept, returned⟩ := (all cacheNamespace cache found).get key now
      exact ⟨all.update cacheNamespace kept, returned⟩

theorem AllEntries.store
    (all : caches.AllEntries property)
    (cacheNamespace key : UInt64)
    {entry : CacheEntry}
    (holds : property entry)
    (maxEntries : Nat) :
    (caches.store cacheNamespace key entry maxEntries).AllEntries property := by
  refine all.update cacheNamespace (RouteCache.AllEntries.insert ?_ key holds)
  cases found : caches cacheNamespace with
  | none => exact RouteCache.allEntries_new property maxEntries
  | some cache => exact all cacheNamespace cache found

/-- A bound of zero entries is a bound of one. -/
theorem store_max_one
    (caches : RouteCaches)
    (cacheNamespace key : UInt64)
    (entry : CacheEntry)
    (maxEntries : Nat) :
    caches.store cacheNamespace key entry (max maxEntries 1) =
      caches.store cacheNamespace key entry maxEntries := by
  have bound : max (max maxEntries 1) 1 = max maxEntries 1 := Nat.max_eq_left (Nat.le_max_right _ _)
  rw [store, store, bound]
  cases caches cacheNamespace <;> rfl

/-- What is stored first in a namespace can be told from its cache. -/
theorem store_none_inj
    {cacheNamespace key : UInt64} {entry other : CacheEntry} {maxEntries bound : Nat}
    (same : RouteCaches.store (fun _ => none) cacheNamespace key entry maxEntries =
      RouteCaches.store (fun _ => none) cacheNamespace key other bound) :
    entry = other ∧ max maxEntries 1 = max bound 1 := by
  have caches := congrFun same cacheNamespace
  rw [RouteCaches.store, RouteCaches.store, Function.update_self, Function.update_self] at caches
  have inserted : (RouteCache.new (max maxEntries 1)).insert key entry =
      (RouteCache.new (max bound 1)).insert key other := Option.some.inj caches
  obtain ⟨slot, capacity⟩ := RouteCache.insert_new (Nat.le_max_right maxEntries 1) key entry
  obtain ⟨otherSlot, otherCapacity⟩ := RouteCache.insert_new (Nat.le_max_right bound 1) key other
  rw [inserted] at slot capacity
  have entries := congrArg Prod.snd (slot.symm.trans otherSlot)
  exact ⟨Option.some.inj entries, capacity.symm.trans otherCapacity⟩

end RouteCaches

end Router
end HttpNative
