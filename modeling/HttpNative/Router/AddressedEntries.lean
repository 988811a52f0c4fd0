import HttpNative.Router.CachedEntries

/-!
# Entries under their keys

As long as no insertion evicts, what a look-up returns was stored under its key:
the map and the free list share no node, and each node that is mapped to carries
the key that it is mapped from. The links of the nodes play no part in it.
-/

namespace HttpNative
namespace Router

namespace RouteCache

/-- The nodes that keys are mapped to carry these keys and are not free, and each
entry has the property for the key beside it. -/
structure Addressed (property : UInt64 → CacheEntry → Prop) (cache : RouteCache) : Prop where
  mapped : ∀ key idx, cache.map key = some idx →
    idx < cache.nodes.length ∧ (cache.slot idx).1 = key ∧ idx ∉ cache.freeList
  distinct : cache.freeList.Nodup
  inBounds : ∀ idx ∈ cache.freeList, idx < cache.nodes.length
  holds : ∀ idx entry, (cache.slot idx).2 = some entry → property (cache.slot idx).1 entry

/-- An entry for the key can be stored without an eviction. -/
def HasRoom (cache : RouteCache) (key : UInt64) : Prop :=
  cache.map key = none → cache.freeList ≠ [] ∨ cache.nodes.length < cache.maxEntries

variable {property : UInt64 → CacheEntry → Prop} {cache edited : RouteCache}

theorem addressed_new
    (property : UInt64 → CacheEntry → Prop)
    (maxEntries : Nat) :
    (new maxEntries).Addressed property where
  mapped _ _ absent := by cases absent
  distinct := List.nodup_nil
  inBounds _ member := absurd member List.not_mem_nil
  holds idx entry carried := by simp [new, slot, node, LruNode.vacant] at carried

/-- Only the contents count. -/
theorem Addressed.of_sameContents
    (addressed : cache.Addressed property)
    (same : SameContents cache edited) :
    edited.Addressed property where
  mapped key idx found := by
    rw [same.map_eq] at found
    rw [same.length_eq, same.slot_eq, same.freeList_eq]
    exact addressed.mapped key idx found
  distinct := same.freeList_eq ▸ addressed.distinct
  inBounds := by
    rw [same.freeList_eq, same.length_eq]
    exact addressed.inBounds
  holds := by
    rw [same.slot_eq]
    exact addressed.holds

theorem slot_modifyNode
    (cache : RouteCache)
    (idx other : Nat)
    (update : LruNode → LruNode) :
    (cache.modifyNode idx update).slot other =
      if other = idx ∧ idx < cache.nodes.length then
        ((update (cache.node idx)).key, (update (cache.node idx)).value)
      else
        cache.slot other := by
  rw [slot, node_modifyNode]
  split
  · rfl
  · rfl

/-- A key that is mapped gets another entry. -/
theorem Addressed.overwrite
    (addressed : cache.Addressed property)
    {key : UInt64} {idx : Nat} {entry : CacheEntry}
    (found : cache.map key = some idx)
    (one : property key entry) :
    (cache.modifyNode idx fun node => { node with value := some entry }).Addressed property := by
  obtain ⟨inside, named, notFree⟩ := addressed.mapped key idx found
  have keys (other : Nat) :
      ((cache.modifyNode idx fun node => { node with value := some entry }).slot other).1 =
        (cache.slot other).1 := by
    rw [slot_modifyNode]
    split
    · rename_i same
      rw [same.1]
      rfl
    · rfl
  refine ⟨fun other otherIdx mapped => ?_, addressed.distinct, fun other member => ?_,
    fun other carried value => ?_⟩
  · rw [length_modifyNode, keys]
    exact addressed.mapped other otherIdx mapped
  · rw [length_modifyNode]
    exact addressed.inBounds other member
  · rw [keys]
    rw [slot_modifyNode] at value
    split at value
    · rename_i same
      cases value
      rw [same.1, named]
      exact one
    · exact addressed.holds other carried value

/-- A key that is mapped is removed with its entry. -/
theorem Addressed.remove
    (addressed : cache.Addressed property)
    {key : UInt64} {idx : Nat}
    (found : cache.map key = some idx) :
    ((cache.removeNode idx).mapRemove key).Addressed property := by
  have unlinked := addressed.of_sameContents (sameContents_removeLink cache idx)
  have sameMap := (sameContents_removeLink cache idx).map_eq
  obtain ⟨inside, named, notFree⟩ := unlinked.mapped key idx (by rw [sameMap]; exact found)
  have keys (other : Nat) :
      (((cache.removeLink idx).modifyNode idx fun node => { node with value := none }).slot
        other).1 = ((cache.removeLink idx).slot other).1 := by
    rw [slot_modifyNode]
    split
    · rename_i same
      rw [same.1]
      rfl
    · rfl
  refine ⟨fun other otherIdx mapped => ?_, ?_, fun other member => ?_,
    fun other carried value => ?_⟩
  · have different : other ≠ key := by
      rintro rfl
      exact absurd mapped (by simp [mapRemove])
    have still : (cache.removeLink idx).map other = some otherIdx := by
      simpa [mapRemove, removeNode, different] using mapped
    obtain ⟨otherInside, otherNamed, otherNotFree⟩ := unlinked.mapped other otherIdx still
    refine ⟨?_, (keys otherIdx).trans otherNamed, ?_⟩
    · exact lt_of_lt_of_eq otherInside (length_modifyNode _ _ _).symm
    · refine List.not_mem_cons_of_ne_of_not_mem ?_ otherNotFree
      rintro rfl
      exact different (otherNamed.symm.trans named)
  · exact List.nodup_cons.mpr ⟨notFree, unlinked.distinct⟩
  · refine lt_of_lt_of_eq ?_ (length_modifyNode _ _ _).symm
    rcases List.mem_cons.mp member with rfl | earlier
    · exact inside
    · exact unlinked.inBounds other earlier
  · change property (((cache.removeLink idx).modifyNode idx _).slot other).1 carried
    change (((cache.removeLink idx).modifyNode idx _).slot other).2 = some carried at value
    rw [keys]
    rw [slot_modifyNode] at value
    split at value
    · cases value
    · exact unlinked.holds other carried value

/-- A look-up keeps the property, and what it returns has it for the key. -/
theorem Addressed.get
    (addressed : cache.Addressed property)
    (key : UInt64)
    (now : Nat) :
    (cache.get key now).1.Addressed property ∧
      ∀ entry ∈ (cache.get key now).2, property key entry := by
  unfold RouteCache.get
  split
  · exact ⟨addressed, by simp⟩
  · rename_i idx found
    have removed := addressed.remove found
    dsimp only
    split
    · exact ⟨removed, by simp⟩
    · split
      · have moved := sameContents_moveToHead cache idx
        refine ⟨addressed.of_sameContents moved, fun entry carried => ?_⟩
        have value : (cache.slot idx).2 = some entry := by
          rw [← moved.slot_eq]
          exact carried
        have named := (addressed.mapped key idx found).2.1
        rw [← named]
        exact addressed.holds idx entry value
      · exact ⟨removed, by simp⟩

/-- A node that no key is mapped to and that is not free gets a key and an entry. -/
theorem Addressed.fill
    (addressed : cache.Addressed property)
    {key : UInt64} {idx : Nat} {entry : CacheEntry}
    (inside : idx < cache.nodes.length)
    (notFree : idx ∉ cache.freeList)
    (unused : ∀ other, cache.map other ≠ some idx)
    (one : property key entry) :
    (((cache.modifyNode idx fun node => { node with key := key }).modifyNode idx fun node =>
      { node with value := some entry }).mapInsert key idx).Addressed property := by
  have slots (other : Nat) :
      (((cache.modifyNode idx fun node => { node with key := key }).modifyNode idx fun node =>
        { node with value := some entry }).mapInsert key idx).slot other =
          if other = idx then (key, some entry) else cache.slot other := by
    change ((cache.modifyNode idx _).modifyNode idx _).slot other = _
    rw [slot_modifyNode, slot_modifyNode, node_modifyNode, length_modifyNode]
    by_cases same : other = idx
    · rw [if_pos ⟨same, inside⟩, if_pos ⟨rfl, inside⟩, if_pos same]
    · rw [if_neg fun both => same both.1, if_neg fun both => same both.1, if_neg same]
  have length : (((cache.modifyNode idx fun node => { node with key := key }).modifyNode idx
      fun node => { node with value := some entry }).mapInsert key idx).nodes.length =
        cache.nodes.length :=
    (length_modifyNode _ _ _).trans (length_modifyNode _ _ _)
  refine ⟨fun other otherIdx mapped => ?_, addressed.distinct, fun other member => ?_,
    fun other carried value => ?_⟩
  · rw [length, slots]
    by_cases same : other = key
    · have own : otherIdx = idx := by
        simpa [mapInsert, same, eq_comm] using mapped
      rw [own, if_pos rfl]
      exact ⟨inside, same.symm, notFree⟩
    · have still : cache.map other = some otherIdx := by
        simpa [mapInsert, same] using mapped
      have different : otherIdx ≠ idx := by
        rintro rfl
        exact unused other still
      rw [if_neg different]
      exact addressed.mapped other otherIdx still
  · rw [length]
    exact addressed.inBounds other member
  · rw [slots] at value ⊢
    split at value
    · rename_i same
      cases value
      rw [if_pos same]
      exact one
    · rename_i different
      rw [if_neg different]
      exact addressed.holds other carried value

/-- An insertion that has room keeps the property. -/
theorem Addressed.insert
    (addressed : cache.Addressed property)
    {key : UInt64} {entry : CacheEntry}
    (room : cache.HasRoom key)
    (one : property key entry) :
    (cache.insert key entry).Addressed property := by
  unfold RouteCache.insert
  split
  · rename_i idx found
    exact (addressed.overwrite found one).of_sameContents (sameContents_moveToHead _ idx)
  · rename_i absent
    cases free : cache.freeList with
    | cons idx freeList =>
        have distinct := addressed.distinct
        rw [free, List.nodup_cons] at distinct
        have member : idx ∈ cache.freeList := by
          rw [free]
          exact List.mem_cons_self
        have taken : ({ cache with freeList := freeList } : RouteCache).Addressed property := by
          refine ⟨fun other otherIdx mapped => ?_, distinct.2, fun other later => ?_,
            addressed.holds⟩
          · obtain ⟨inside, named, notFree⟩ := addressed.mapped other otherIdx mapped
            refine ⟨inside, named, fun later => notFree ?_⟩
            rw [free]
            exact List.mem_cons_of_mem _ later
          · refine addressed.inBounds other ?_
            rw [free]
            exact List.mem_cons_of_mem _ later
        have allocated : cache.allocate = ({ cache with freeList := freeList }, some idx) := by
          rw [allocate, free]
        rw [allocated]
        refine (taken.fill (addressed.inBounds idx member) distinct.1 ?_ one).of_sameContents
          (sameContents_pushHead _ idx)
        intro other mapped
        exact (addressed.mapped other idx mapped).2.2 member
    | nil =>
        have fits : cache.nodes.length < cache.maxEntries :=
          (room absent).resolve_left fun some_free => some_free free
        have slots : cache.pushVacant.slot = cache.slot := slot_pushVacant cache
        have length : cache.pushVacant.nodes.length = cache.nodes.length + 1 := by
          simp [pushVacant]
        have pushed : cache.pushVacant.Addressed property := by
          refine ⟨fun other otherIdx mapped => ?_, addressed.distinct, fun other member => ?_, ?_⟩
          · obtain ⟨inside, named, notFree⟩ := addressed.mapped other otherIdx mapped
            rw [slots, length]
            exact ⟨Nat.lt_succ_of_lt inside, named, notFree⟩
          · rw [length]
            exact Nat.lt_succ_of_lt (addressed.inBounds other member)
          · rw [slots]
            exact addressed.holds
        have allocated : cache.allocate = (cache.pushVacant, some cache.nodes.length) := by
          rw [allocate, free]
          exact if_pos fits
        rw [allocated]
        refine (pushed.fill ?_ ?_ ?_ one).of_sameContents
          (sameContents_pushHead _ cache.nodes.length)
        · rw [length]
          exact Nat.lt_succ_self _
        · intro member
          exact Nat.lt_irrefl _ (addressed.inBounds _ member)
        · intro other mapped
          exact Nat.lt_irrefl _ (addressed.mapped other _ mapped).1

end RouteCache

namespace RouteCaches

/-- Every cache has its entries under their keys. -/
def Addressed
    (property : UInt64 → UInt64 → CacheEntry → Prop)
    (caches : RouteCaches) :
    Prop :=
  ∀ cacheNamespace, ∀ cache ∈ caches cacheNamespace, cache.Addressed (property cacheNamespace)

/-- A response for the key can be stored without an eviction. -/
def HasRoom (caches : RouteCaches) (cacheNamespace key : UInt64) (maxEntries : Nat) : Prop :=
  ({ (caches cacheNamespace).getD (RouteCache.new maxEntries) with
    maxEntries := max maxEntries 1 } : RouteCache).HasRoom key

variable {property : UInt64 → UInt64 → CacheEntry → Prop} {caches : RouteCaches}

theorem Addressed.mono
    {weaker : UInt64 → UInt64 → CacheEntry → Prop}
    (addressed : caches.Addressed property)
    (implies : ∀ cacheNamespace key entry, property cacheNamespace key entry →
      weaker cacheNamespace key entry) :
    caches.Addressed weaker := by
  intro cacheNamespace cache found
  have own := addressed cacheNamespace cache found
  exact ⟨own.mapped, own.distinct, own.inBounds,
    fun idx entry carried => implies _ _ _ (own.holds idx entry carried)⟩

theorem Addressed.update
    (addressed : caches.Addressed property)
    (cacheNamespace : UInt64)
    {cache : RouteCache}
    (holds : cache.Addressed (property cacheNamespace)) :
    RouteCaches.Addressed property (Function.update caches cacheNamespace (some cache)) := by
  intro other found member
  by_cases same : other = cacheNamespace
  · subst same
    rw [Function.update_self] at member
    cases member
    exact holds
  · rw [Function.update_of_ne same] at member
    exact addressed other found member

theorem Addressed.retain
    (addressed : caches.Addressed property)
    (valid : UInt64 → Bool) :
    (caches.retain valid).Addressed property := by
  intro cacheNamespace cache member
  unfold RouteCaches.retain at member
  split at member
  · exact addressed cacheNamespace cache member
  · cases member

theorem Addressed.lookup
    (addressed : caches.Addressed property)
    (cacheNamespace key : UInt64)
    (now : Nat) :
    (caches.lookup cacheNamespace key now).1.Addressed property ∧
      ∀ entry ∈ (caches.lookup cacheNamespace key now).2, property cacheNamespace key entry := by
  unfold RouteCaches.lookup
  cases found : caches cacheNamespace with
  | none => exact ⟨addressed, by simp⟩
  | some cache =>
      obtain ⟨kept, returned⟩ := (addressed cacheNamespace cache found).get key now
      exact ⟨addressed.update cacheNamespace kept, returned⟩

theorem Addressed.store
    (addressed : caches.Addressed property)
    {cacheNamespace key : UInt64} {entry : CacheEntry} {maxEntries : Nat}
    (room : caches.HasRoom cacheNamespace key maxEntries)
    (one : property cacheNamespace key entry) :
    (caches.store cacheNamespace key entry maxEntries).Addressed property := by
  have resized : ({ (caches cacheNamespace).getD (RouteCache.new maxEntries) with
      maxEntries := max maxEntries 1 } : RouteCache).Addressed (property cacheNamespace) := by
    cases found : caches cacheNamespace with
    | none =>
        have fresh := RouteCache.addressed_new (property cacheNamespace) maxEntries
        exact ⟨fresh.mapped, fresh.distinct, fresh.inBounds, fresh.holds⟩
    | some cache =>
        have own := addressed cacheNamespace cache found
        exact ⟨own.mapped, own.distinct, own.inBounds, own.holds⟩
  exact addressed.update cacheNamespace (resized.insert room one)

end RouteCaches
end Router
end HttpNative
