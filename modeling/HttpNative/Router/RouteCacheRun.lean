import HttpNative.Router.RouteCacheRefinement

/-!
# Runs of the route cache

A run applies any sequence of insertions, look-ups and invalidations to a new
cache. As long as no insertion has to evict, every state is consistent and
every look-up answers as the abstract LRU map does. The first insertion that
evicts reuses the tail's index while `removeNode` has already put it on the
free list, so the cache is inconsistent from there on and a later insertion
overwrites the node of another key.
-/

namespace HttpNative
namespace Router

inductive CacheOp
  | insert (key : UInt64) (entry : CacheEntry)
  | get (key : UInt64) (now : Nat)
  | invalidate (key : UInt64)
  deriving DecidableEq, Repr

namespace RouteCache

/-- One call on the cache, with the entry a look-up returns. -/
def step (cache : RouteCache) : CacheOp → RouteCache × Option CacheEntry
  | .insert key entry => (cache.insert key entry, none)
  | .get key now => cache.get key now
  | .invalidate key => (cache.invalidate key, none)

/-- The state after a sequence of calls and the answers of its calls. -/
def run (cache : RouteCache) :
    List CacheOp → RouteCache × List (Option CacheEntry)
  | [] => (cache, [])
  | op :: ops =>
      let (next, answer) := cache.step op
      let (last, answers) := next.run ops
      (last, answer :: answers)

/-- The nodes of `order` are the live ones: the list from head to tail visits
each of them once, every live key has its own node, and none of them is free. -/
structure Visits (cache : RouteCache) (order : List Nat) : Prop where
  threads : cache.links.Threads order
  live : ∀ idx, idx ∈ order ↔ ∃ key, cache.map key = some idx
  own : ∀ key idx, cache.map key = some idx → (cache.node idx).key = key
  notFree : ∀ idx ∈ order, idx ∉ cache.freeList

/-- The links, the map and the free list agree on which nodes are live. -/
def Consistent (cache : RouteCache) : Prop :=
  ∃ order, cache.Visits order

end RouteCache

/-! ## The abstract run -/

/-- Entries held by the abstract cache. -/
abbrev LruCache (maxEntries : Nat) :=
  LruMap UInt64 CacheEntry maxEntries

namespace LruCache

/-- An entry is served strictly before its expiry. -/
def liveAt (now : Nat) (entry : CacheEntry) : Bool :=
  now < entry.expiresAt

/-- What one call does to an LRU map, with the entry a look-up returns. -/
def step (map : LruCache maxEntries) :
    CacheOp → LruCache maxEntries × Option CacheEntry
  | .insert key entry => (map.insert key entry, none)
  | .get key now => map.get (liveAt now) key
  | .invalidate key => (map.erase key, none)

def run (map : LruCache maxEntries) :
    List CacheOp → LruCache maxEntries × List (Option CacheEntry)
  | [] => (map, [])
  | op :: ops =>
      let (next, answer) := LruCache.step map op
      let (last, answers) := LruCache.run next ops
      (last, answer :: answers)

/-- The call stores a key that is not held into a map that is full. -/
def EvictsOn (map : LruCache maxEntries) : CacheOp → Prop
  | .insert key _ => map.Evicts key
  | .get _ _ => False
  | .invalidate _ => False

/-- No call of the sequence evicts. -/
def NeverEvicts (map : LruCache maxEntries) : List CacheOp → Prop
  | [] => True
  | op :: ops => ¬EvictsOn map op ∧ NeverEvicts (LruCache.step map op).1 ops

end LruCache

namespace RouteCache

/-! ## One call -/

/-- The cache carries exactly the entries of the abstract map. -/
structure Refines (cache : RouteCache) (map : LruCache capacity) : Prop where
  capacity_eq : cache.maxEntries = capacity
  represented : ∃ order, cache.Represents [] order map.entries

theorem refines_new (capacity : Nat) :
    (new capacity).Refines (LruMap.empty : LruCache capacity) := by
  refine ⟨rfl, [], ⟨List.nodup_nil, rfl, rfl, trivial⟩, rfl, ?_, ?_, ?_⟩
  · intro key idx
    simp [new]
  · simp [new]
  · simp [new]

/-- A represented cache is consistent. -/
theorem Represents.consistent
    {cache : RouteCache}
    {order : List Nat}
    {entries : List (UInt64 × CacheEntry)}
    (represents : cache.Represents [] order entries) :
    cache.Consistent := by
  refine ⟨order, represents.threads, fun idx => ⟨fun member => ?_, ?_⟩, ?_, ?_⟩
  · exact ⟨_, (represents.mapped _ idx).mpr ⟨member, rfl⟩⟩
  · rintro ⟨key, found⟩
    exact ((represents.mapped key idx).mp found).1
  · intro key idx found
    exact ((represents.mapped key idx).mp found).2
  · intro idx member free
    have nodup := represents.nodup
    simp only [List.nil_append, List.nodup_append] at nodup
    exact nodup.2.2 idx member idx free rfl

/-- A live index that is also free breaks consistency. -/
theorem not_consistent_of_live_free
    {cache : RouteCache}
    {key : UInt64}
    {idx : Nat}
    (live : cache.map key = some idx)
    (free : idx ∈ cache.freeList) :
    ¬cache.Consistent := by
  rintro ⟨order, visits⟩
  exact visits.notFree idx ((visits.live idx).mpr ⟨key, live⟩) free

@[simp] theorem maxEntries_moveToHead (cache : RouteCache) (idx : Nat) :
    (cache.moveToHead idx).maxEntries = cache.maxEntries := by
  unfold moveToHead
  split
  · rfl
  · rw [(sameContents_pushHead _ idx).maxEntries_eq,
      (sameContents_removeLink cache idx).maxEntries_eq]

@[simp] theorem slot_moveToHead (cache : RouteCache) (idx : Nat) :
    (cache.moveToHead idx).slot = cache.slot := by
  unfold moveToHead
  split
  · rfl
  · rw [(sameContents_pushHead _ idx).slot_eq,
      (sameContents_removeLink cache idx).slot_eq]

theorem refines_get
    {cache : RouteCache}
    {map : LruCache capacity}
    (refines : cache.Refines map)
    (key : UInt64)
    (now : Nat) :
    (cache.get key now).1.Refines (map.get (LruCache.liveAt now) key).1 ∧
      (cache.get key now).2 = (map.get (LruCache.liveAt now) key).2 := by
  obtain ⟨capacityEq, order, represents⟩ := refines
  cases found : cache.map key with
  | none =>
      have lookupEq : map.lookup key = none :=
        LruMap.lookup_of_absent (represents.absent found)
      simp only [get, found, LruMap.get, lookupEq]
      exact ⟨⟨capacityEq, order, represents⟩, trivial⟩
  | some idx =>
      obtain ⟨left, right, leftEntries, entry, rightEntries, rfl, entriesEq,
        leftEq, rightEq, slotEq⟩ := represents.split found
      have keysNodup := map.keysNodup
      rw [entriesEq] at represents keysNodup
      have lookupEq : map.lookup key = some entry := by
        rw [LruMap.lookup, entriesEq]
        exact LruMap.lookup_of_split keysNodup
      have valueEq : (cache.node idx).value = some entry :=
        congrArg Prod.snd slotEq
      have othersEq : LruMap.others map.entries key =
          leftEntries ++ rightEntries := by
        rw [entriesEq]
        exact LruMap.others_of_split keysNodup
      by_cases live : now < entry.expiresAt
      · have moved := represents.moveToHead leftEq rightEq slotEq
        have movedValue : ((cache.moveToHead idx).node idx).value =
            some entry := by
          have := congrFun (slot_moveToHead cache idx) idx
          rw [slotEq] at this
          exact congrArg Prod.snd this
        have fits : ((key, entry) :: (leftEntries ++ rightEntries)).length ≤
            capacity := by
          have := map.withinCapacity
          rw [entriesEq] at this
          simpa [Nat.add_assoc] using this
        simp only [get, found, valueEq, live, if_true, LruMap.get, lookupEq,
          LruCache.liveAt, decide_true, movedValue]
        refine ⟨⟨by simpa using capacityEq, idx :: (left ++ right), ?_⟩, trivial⟩
        simp only [LruMap.insert, othersEq, List.take_of_length_le fits]
        exact moved
      · simp only [get, found, valueEq, live, if_false, LruMap.get, lookupEq,
          LruCache.liveAt, decide_false, Bool.false_eq_true]
        refine ⟨⟨by simpa [mapRemove] using capacityEq, left ++ right, ?_⟩,
          trivial⟩
        simp only [LruMap.erase, othersEq]
        exact represents.remove leftEq rightEq slotEq

theorem refines_invalidate
    {cache : RouteCache}
    {map : LruCache capacity}
    (refines : cache.Refines map)
    (key : UInt64) :
    (cache.invalidate key).Refines (map.erase key) := by
  obtain ⟨capacityEq, order, represents⟩ := refines
  cases found : cache.map key with
  | none =>
      simp only [invalidate, found]
      refine ⟨capacityEq, order, ?_⟩
      simp only [LruMap.erase, LruMap.others_of_absent (represents.absent found)]
      exact represents
  | some idx =>
      obtain ⟨left, right, leftEntries, entry, rightEntries, rfl, entriesEq,
        leftEq, rightEq, slotEq⟩ := represents.split found
      have keysNodup := map.keysNodup
      rw [entriesEq] at represents keysNodup
      simp only [invalidate, found]
      refine ⟨by simpa [mapRemove] using capacityEq, left ++ right, ?_⟩
      simp only [LruMap.erase, entriesEq, LruMap.others_of_split keysNodup]
      exact represents.remove leftEq rightEq slotEq

/-- An insertion that does not evict stores its entry as the most recent one. -/
theorem refines_insert
    {cache : RouteCache}
    {map : LruCache capacity}
    (refines : cache.Refines map)
    {key : UInt64}
    (stays : ¬map.Evicts key)
    (entry : CacheEntry) :
    (cache.insert key entry).Refines (map.insert key entry) := by
  obtain ⟨capacityEq, order, represents⟩ := refines
  cases found : cache.map key with
  | some idx =>
      obtain ⟨left, right, leftEntries, old, rightEntries, rfl, entriesEq,
        leftEq, rightEq, slotEq⟩ := represents.split found
      have keysNodup := map.keysNodup
      rw [entriesEq] at represents keysNodup
      have fits : ((key, entry) :: (leftEntries ++ rightEntries)).length ≤
          capacity := by
        have := map.withinCapacity
        rw [entriesEq] at this
        simpa [Nat.add_assoc] using this
      obtain ⟨written, writtenLeft, writtenRight, writtenSlot⟩ :=
        represents.overwrite leftEq rightEq slotEq entry
      simp only [insert, found]
      refine ⟨by simpa using capacityEq, idx :: (left ++ right), ?_⟩
      simp only [LruMap.insert, entriesEq, LruMap.others_of_split keysNodup,
        List.take_of_length_le fits]
      exact written.moveToHead writtenLeft writtenRight writtenSlot
  | none =>
      have absent := represents.absent found
      have room : map.entries.length < cache.maxEntries := by
        have within := map.withinCapacity
        have notFull : map.entries.length ≠ capacity := fun full =>
          stays ⟨absent, full⟩
        omega
      obtain ⟨idx, allocated, reserved⟩ := represents.allocate room
      have missing : cache.allocate.1.map key = none :=
        reserved.missing_iff.mpr absent
      have fits : ((key, entry) :: map.entries).length ≤ capacity := by
        rw [List.length_cons]
        omega
      have insertEq : cache.insert key entry =
          (((cache.allocate.1.modifyNode idx fun node =>
            { node with key := key }).modifyNode idx fun node =>
            { node with value := some entry }).mapInsert key idx).pushHead
              idx := by
        simp only [insert, found]
        rw [show cache.allocate = (cache.allocate.1, some idx) by
          rw [← allocated]]
      rw [insertEq]
      refine ⟨?_, idx :: order, ?_⟩
      · rw [(sameContents_pushHead _ idx).maxEntries_eq]
        simpa [mapInsert] using capacityEq
      · simp only [LruMap.insert, LruMap.others_of_absent absent,
          List.take_of_length_le fits]
        exact reserved.store missing entry

/-- An insertion that evicts leaves the node it fills on the free list. -/
theorem not_consistent_insert
    {cache : RouteCache}
    {map : LruCache capacity}
    (refines : cache.Refines map)
    (positive : 0 < capacity)
    {key : UInt64}
    (evicts : map.Evicts key)
    (entry : CacheEntry) :
    ¬(cache.insert key entry).Consistent := by
  obtain ⟨capacityEq, order, represents⟩ := refines
  obtain ⟨absent, full⟩ := evicts
  have found : cache.map key = none := represents.missing_iff.mpr absent
  obtain ⟨tail, allocated, free⟩ := represents.allocate_full
    (full.trans capacityEq.symm) (capacityEq ▸ positive)
  have insertEq : cache.insert key entry =
      (((cache.allocate.1.modifyNode tail fun node =>
        { node with key := key }).modifyNode tail fun node =>
        { node with value := some entry }).mapInsert key tail).pushHead
          tail := by
    simp only [insert, found]
    rw [show cache.allocate = (cache.allocate.1, some tail) by
      rw [← allocated]]
  have edited := sameContents_pushHead
    (((cache.allocate.1.modifyNode tail fun node =>
      { node with key := key }).modifyNode tail fun node =>
      { node with value := some entry }).mapInsert key tail) tail
  rw [← insertEq] at edited
  have live : (cache.insert key entry).map key = some tail := by
    rw [edited.map_eq]
    simp [mapInsert]
  refine not_consistent_of_live_free live ?_
  rw [edited.freeList_eq]
  simpa [mapInsert] using free

/-! ## Runs -/

/-- A call that does not evict acts as on the abstract map. -/
theorem refines_step
    {cache : RouteCache}
    {map : LruCache capacity}
    (refines : cache.Refines map)
    {op : CacheOp}
    (stays : ¬LruCache.EvictsOn map op) :
    (cache.step op).1.Refines (LruCache.step map op).1 ∧
      (cache.step op).2 = (LruCache.step map op).2 := by
  cases op with
  | insert key entry => exact ⟨refines_insert refines stays entry, rfl⟩
  | get key now => exact refines_get refines key now
  | invalidate key => exact ⟨refines_invalidate refines key, rfl⟩

theorem not_consistent_step
    {cache : RouteCache}
    {map : LruCache capacity}
    (refines : cache.Refines map)
    (positive : 0 < capacity)
    {op : CacheOp}
    (evicts : LruCache.EvictsOn map op) :
    ¬(cache.step op).1.Consistent := by
  cases op with
  | insert key entry => exact not_consistent_insert refines positive evicts entry
  | get key now => exact evicts.elim
  | invalidate key => exact evicts.elim

/-- Every state a sequence of calls goes through. -/
def AlwaysConsistent (cache : RouteCache) (ops : List CacheOp) : Prop :=
  ∀ done, done <+: ops → (cache.run done).1.Consistent

theorem alwaysConsistent_cons
    (cache : RouteCache) (op : CacheOp) (ops : List CacheOp) :
    cache.AlwaysConsistent (op :: ops) ↔
      cache.Consistent ∧ (cache.step op).1.AlwaysConsistent ops := by
  constructor
  · intro always
    exact ⟨always [] (List.nil_prefix),
      fun done isPrefix => always (op :: done) (by simpa using isPrefix)⟩
  · rintro ⟨here, later⟩ done isPrefix
    cases done with
    | nil => exact here
    | cons first rest =>
        obtain ⟨rfl, restPrefix⟩ := List.cons_prefix_cons.mp isPrefix
        exact later rest restPrefix

theorem run_of_neverEvicts
    {cache : RouteCache}
    {map : LruCache capacity}
    (refines : cache.Refines map)
    {ops : List CacheOp}
    (never : LruCache.NeverEvicts map ops) :
    (cache.run ops).2 = (LruCache.run map ops).2 ∧
      cache.AlwaysConsistent ops := by
  induction ops generalizing cache map with
  | nil =>
      obtain ⟨-, order, represents⟩ := refines
      refine ⟨rfl, fun done isPrefix => ?_⟩
      rw [List.prefix_nil.mp isPrefix]
      exact represents.consistent
  | cons op ops inductionHypothesis =>
      obtain ⟨stays, neverLater⟩ := never
      obtain ⟨refinesNext, sameAnswer⟩ := refines_step refines stays
      obtain ⟨sameAnswers, always⟩ := inductionHypothesis refinesNext neverLater
      obtain ⟨-, order, represents⟩ := refines
      constructor
      · simp only [run, LruCache.run, sameAnswer, sameAnswers]
      · exact (alwaysConsistent_cons cache op ops).mpr
          ⟨represents.consistent, always⟩

theorem neverEvicts_of_alwaysConsistent
    {cache : RouteCache}
    {map : LruCache capacity}
    (refines : cache.Refines map)
    (positive : 0 < capacity)
    {ops : List CacheOp}
    (always : cache.AlwaysConsistent ops) :
    LruCache.NeverEvicts map ops := by
  induction ops generalizing cache map with
  | nil => trivial
  | cons op ops inductionHypothesis =>
      obtain ⟨-, later⟩ := (alwaysConsistent_cons cache op ops).mp always
      have stays : ¬LruCache.EvictsOn map op := fun evicts =>
        not_consistent_step refines positive evicts
          (later [] List.nil_prefix)
      exact ⟨stays, inductionHypothesis (refines_step refines stays).1 later⟩

/-- A new cache behaves as the LRU map of its capacity over a whole sequence of
calls: same answers, and consistent in every state. -/
def BehavesAsLru (capacity : Nat) (ops : List CacheOp) : Prop :=
  ((new capacity).run ops).2 =
      (LruCache.run (LruMap.empty : LruCache capacity) ops).2 ∧
    (new capacity).AlwaysConsistent ops

/-- A cache of any positive capacity behaves as the LRU map exactly on the
sequences of calls that never evict. Nothing is asked of the clock. -/
theorem behavesAsLru_iff_neverEvicts
    {capacity : Nat}
    (positive : 0 < capacity)
    (ops : List CacheOp) :
    BehavesAsLru capacity ops ↔
      LruCache.NeverEvicts (LruMap.empty : LruCache capacity) ops := by
  have refines := refines_new capacity
  constructor
  · rintro ⟨-, always⟩
    exact neverEvicts_of_alwaysConsistent refines positive always
  · exact run_of_neverEvicts refines

/-- In a cache of two entries a key is looked up, stored again and found expired before
a third one takes its place. -/
theorem behavesAsLru_iff_neverEvicts_expired :
    BehavesAsLru 2 [.insert 7 ⟨[1], [2], 10⟩, .insert 8 ⟨[3], [4], 20⟩, .get 7 3,
      .insert 8 ⟨[5], [6], 12⟩, .get 8 12, .insert 9 ⟨[7], [8], 30⟩, .get 7 9] := by
  refine (behavesAsLru_iff_neverEvicts Nat.two_pos _).mpr ?_
  simp only [LruCache.NeverEvicts, LruCache.EvictsOn, LruMap.Evicts]
  decide

/-- In a cache of one entry, a second and a third key both end up at the only
node: a look-up of the second key returns the response stored for the third. -/
theorem not_behavesAsLru_of_eviction :
    ¬∀ capacity ops, 0 < capacity → BehavesAsLru capacity ops := by
  intro everywhere
  have answers := (everywhere 1
    [.insert 1 ⟨[10], [], 9⟩, .insert 2 ⟨[20], [], 9⟩,
      .insert 3 ⟨[30], [], 9⟩, .get 2 0] Nat.one_pos).1
  revert answers
  decide

end RouteCache
end Router
end HttpNative
