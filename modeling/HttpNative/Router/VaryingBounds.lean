import HttpNative.Library.Machine
import HttpNative.Router.CachedEntries
import HttpNative.Router.RouteCacheRun

/-!
# Caches whose bound varies

Every insertion sets the bound of its cache anew. The nodes were allocated under
other bounds, and an index that an eviction has reused stays on the free list. A
cache still holds what a least-recently-used map holds after the same calls, as long
as no insertion has to drop more than the one entry it evicts, and none takes a free
index that is in use.
-/

namespace HttpNative
namespace Router

/-! ## What the caches should hold -/

/-- The entries of a cache, the most recently used first. -/
abbrev Recent := List (UInt64 × CacheEntry)

namespace Recent

/-- An entry is stored as the most recent one; those that were used the longest ago
are dropped beyond the bound. -/
def store (bound : Nat) (key : UInt64) (entry : CacheEntry) (recent : Recent) : Recent :=
  ((key, entry) :: LruMap.others recent key).take bound

/-- A live entry that is looked up becomes the most recent one; an expired one is
removed. -/
def lookUp (key : UInt64) (now : Nat) (recent : Recent) : Recent :=
  match recent.lookup key with
  | none => recent
  | some entry =>
      if now < entry.expiresAt then (key, entry) :: LruMap.others recent key
      else LruMap.others recent key

end Recent

/-- The entry that a cache holds under a key. -/
def RouteCache.held (cache : RouteCache) (key : UInt64) : Option CacheEntry :=
  (cache.map key).bind fun idx => (cache.node idx).value

/-- A call of `insert_cached_response`. -/
structure CacheInsertion where
  cacheNamespace : UInt64
  key : UInt64
  entry : CacheEntry
  maxEntries : Nat

/-- The bound that an insertion sets. -/
def CacheInsertion.bound (insertion : CacheInsertion) : Nat :=
  max insertion.maxEntries 1

inductive CacheCall where
  | insert (insertion : CacheInsertion)
  | get (cacheNamespace key : UInt64) (now : Nat)
  /-- The caches of the namespaces that are gone are dropped. -/
  | sync (valid : UInt64 → Bool)

/-- The caches of a worker, with what they should hold. -/
structure CacheRun where
  caches : RouteCaches
  recent : UInt64 → Recent
  /-- The insertion that was made last, right after it. -/
  inserted : Option CacheInsertion

namespace CacheRun

/-- The entry that the cache of a namespace holds under a key. -/
def held (run : CacheRun) (cacheNamespace key : UInt64) : Option CacheEntry :=
  (run.caches cacheNamespace).bind fun cache => cache.held key

def step (run : CacheRun) : CacheCall → CacheRun
  | .insert insertion =>
      { caches := run.caches.store insertion.cacheNamespace insertion.key insertion.entry
          insertion.maxEntries
        recent := Function.update run.recent insertion.cacheNamespace
          (Recent.store insertion.bound insertion.key insertion.entry
            (run.recent insertion.cacheNamespace))
        inserted := some insertion }
  | .get cacheNamespace key now =>
      { caches := (run.caches.lookup cacheNamespace key now).1
        recent := Function.update run.recent cacheNamespace
          (Recent.lookUp key now (run.recent cacheNamespace))
        inserted := none }
  | .sync valid =>
      { caches := run.caches.retain valid
        recent := fun cacheNamespace =>
          if valid cacheNamespace then run.recent cacheNamespace else []
        inserted := none }

end CacheRun

def cacheRunMachine : Machine CacheRun CacheCall where
  start := { caches := fun _ => none, recent := fun _ => [], inserted := none }
  step := fun run call => some (run.step call)

/-- The caches hold what was used most recently, each key once. Right after an
insertion this is the new entry and no more than the bound in all. -/
structure CacheRun.HoldsRecent (run : CacheRun) : Prop where
  distinct : ∀ cacheNamespace, ((run.recent cacheNamespace).map Prod.fst).Nodup
  held_eq : ∀ cacheNamespace key,
    run.held cacheNamespace key = (run.recent cacheNamespace).lookup key
  bounded : ∀ insertion ∈ run.inserted,
    (run.recent insertion.cacheNamespace).length ≤ insertion.bound
  stored : ∀ insertion ∈ run.inserted,
    (run.recent insertion.cacheNamespace).head? = some (insertion.key, insertion.entry)

/-! ## The condition -/

/-- The cache an insertion goes to, before its bound is set. -/
def CacheRun.target (run : CacheRun) (insertion : CacheInsertion) : RouteCache :=
  (run.caches insertion.cacheNamespace).getD (RouteCache.new insertion.maxEntries)

/-- The index is that of no entry. -/
def RouteCache.IsUnused (cache : RouteCache) (idx : Nat) (recent : Recent) : Prop :=
  ∀ entry ∈ recent, cache.map entry.1 ≠ some idx

instance (cache : RouteCache) (idx : Nat) (recent : Recent) :
    Decidable (cache.IsUnused idx recent) :=
  inferInstanceAs (Decidable (∀ entry ∈ recent, _))

/-- There is room for a fresh key: a free index is one that is not in use, and without
one the bound is met. -/
def RouteCache.HasSpace (cache : RouteCache) (bound : Nat) (recent : Recent) : List Nat → Prop
  | [] => recent.length ≤ bound
  | idx :: _ => recent.length < bound ∧ cache.IsUnused idx recent

instance (cache : RouteCache) (bound : Nat) (recent : Recent) :
    (free : List Nat) → Decidable (cache.HasSpace bound recent free)
  | [] => inferInstanceAs (Decidable (_ ≤ _))
  | _ :: _ => inferInstanceAs (Decidable (_ ∧ _))

/-- The insertion has to drop at most the one entry it evicts, and the free index it
takes is not in use. -/
def CacheRun.Fits (run : CacheRun) (insertion : CacheInsertion) : Prop :=
  let cache := run.target insertion
  let recent := run.recent insertion.cacheNamespace
  if (cache.map insertion.key).isSome then recent.length ≤ insertion.bound
  else cache.HasSpace insertion.bound recent cache.freeList

instance (run : CacheRun) (insertion : CacheInsertion) : Decidable (run.Fits insertion) :=
  inferInstanceAs (Decidable
    (if ((run.target insertion).map insertion.key).isSome then
      (run.recent insertion.cacheNamespace).length ≤ insertion.bound
    else
      (run.target insertion).HasSpace insertion.bound (run.recent insertion.cacheNamespace)
        (run.target insertion).freeList))

def CacheRun.Allows (run : CacheRun) : CacheCall → Prop
  | .insert insertion => run.Fits insertion
  | .get _ _ _ => True
  | .sync _ => True

instance (run : CacheRun) : (call : CacheCall) → Decidable (run.Allows call)
  | .insert insertion => inferInstanceAs (Decidable (run.Fits insertion))
  | .get _ _ _ => isTrue trivial
  | .sync _ => isTrue trivial

/-! ## Caches with another free list -/

namespace RouteCache

/-- The cache with another free list and another bound. -/
def withFree (cache : RouteCache) (free : List Nat) (bound : Nat) : RouteCache :=
  { cache with freeList := free, maxEntries := bound }

section Commutes

variable (cache : RouteCache) (free : List Nat) (bound : Nat)

theorem setNext_withFree
    (source target : Option Nat) :
    (cache.withFree free bound).setNext source target =
      (cache.setNext source target).withFree free bound := by
  cases source with
  | none => rfl
  | some idx => rfl

theorem setPrev_withFree
    (source target : Option Nat) :
    (cache.withFree free bound).setPrev source target =
      (cache.setPrev source target).withFree free bound := by
  cases source with
  | none => rfl
  | some idx => rfl

theorem removeLink_withFree
    (idx : Nat) :
    (cache.withFree free bound).removeLink idx = (cache.removeLink idx).withFree free bound := by
  have node : (cache.withFree free bound).node idx = cache.node idx := rfl
  rw [removeLink, removeLink, node, setNext_withFree, setPrev_withFree]

theorem pushHead_withFree
    (idx : Nat) :
    (cache.withFree free bound).pushHead idx = (cache.pushHead idx).withFree free bound := by
  have head : (cache.withFree free bound).head = cache.head := rfl
  have tail : (cache.withFree free bound).tail = cache.tail := rfl
  rw [pushHead, pushHead, head, tail, setPrev_withFree, setNext_withFree]
  cases cache.head with
  | none => rfl
  | some other =>
      simp only [setPrev_withFree]
      rfl

theorem moveToHead_withFree
    (idx : Nat) :
    (cache.withFree free bound).moveToHead idx = (cache.moveToHead idx).withFree free bound := by
  have head : (cache.withFree free bound).head = cache.head := rfl
  rw [moveToHead, moveToHead, head, removeLink_withFree, pushHead_withFree]
  split
  · rfl
  · rfl

theorem removeNode_withFree
    (idx : Nat) :
    (cache.withFree free bound).removeNode idx =
      (cache.removeNode idx).withFree (idx :: free) bound := by
  rw [removeNode, removeNode, removeLink_withFree]
  rfl

end Commutes

/-- Write a key and its entry into a node and link it at the head. -/
def fill (cache : RouteCache) (key : UInt64) (entry : CacheEntry) (idx : Nat) : RouteCache :=
  (((cache.modifyNode idx fun node =>
    { node with key := key }).modifyNode idx fun node =>
    { node with value := some entry }).mapInsert key idx).pushHead idx

theorem fill_withFree
    (cache : RouteCache)
    (free : List Nat)
    (bound : Nat)
    (key : UInt64)
    (entry : CacheEntry)
    (idx : Nat) :
    (cache.withFree free bound).fill key entry idx =
      (cache.fill key entry idx).withFree free bound := by
  rw [fill, fill, ← pushHead_withFree]
  rfl

/-! ## Caches and their recent entries -/

/-- The cache carries the recent entries. Its free list may name indices that are in
use as well, but names all those that are not. -/
structure Carries (cache : RouteCache) (recent : Recent) : Prop where
  represented : ∃ order free bound,
    (cache.withFree free bound).Represents [] order recent ∧ free ⊆ cache.freeList
  inside : ∀ idx ∈ cache.freeList, idx < cache.nodes.length

section Carrying

variable {cache : RouteCache} {recent : Recent}

theorem carries_new
    (maxEntries : Nat) :
    (new maxEntries).Carries [] where
  represented :=
    have represents := (refines_new maxEntries).represented
    ⟨[], [], maxEntries, ⟨⟨List.nodup_nil, rfl, rfl, trivial⟩, rfl, by simp [new, withFree],
      by simp [new, withFree], by simp [new, withFree]⟩, fun _ free => free⟩
  inside := fun _ free => absurd free List.not_mem_nil

/-- The bound is not part of what a cache carries. -/
theorem Carries.withBound
    (carries : cache.Carries recent)
    (bound : Nat) :
    { cache with maxEntries := bound }.Carries recent :=
  ⟨carries.represented, carries.inside⟩

/-- A represented cache holds its entries. -/
theorem Represents.held_eq
    {order : List Nat}
    (represents : cache.Represents [] order recent)
    (distinct : (recent.map Prod.fst).Nodup)
    (key : UInt64) :
    cache.held key = recent.lookup key := by
  cases found : cache.map key with
  | none =>
      rw [held, found, Option.bind_none, LruMap.lookup_of_absent (represents.absent found)]
  | some idx =>
      obtain ⟨left, right, leftEntries, entry, rightEntries, _, rfl, _, _, slotEq⟩ :=
        represents.split found
      rw [held, found, Option.bind_some, LruMap.lookup_of_split distinct]
      exact congrArg Prod.snd slotEq

theorem Carries.held_eq
    (carries : cache.Carries recent)
    (distinct : (recent.map Prod.fst).Nodup)
    (key : UInt64) :
    cache.held key = recent.lookup key := by
  obtain ⟨order, free, bound, represents, _⟩ := carries.represented
  exact represents.held_eq distinct key

/-- A cache that is edited outside of its free list carries what it then represents. -/
theorem Carries.of_withFree
    (carries : cache.Carries recent)
    {edited : RouteCache} {order free : List Nat} {bound : Nat} {entries : Recent}
    (represents : (edited.withFree free bound).Represents [] order entries)
    (covered : free ⊆ cache.freeList)
    (freeList_eq : edited.freeList = cache.freeList)
    (length_eq : edited.nodes.length = cache.nodes.length) :
    edited.Carries entries where
  represented := ⟨order, free, bound, represents, freeList_eq ▸ covered⟩
  inside := by
    rw [freeList_eq, length_eq]
    exact carries.inside

/-- The entry of a key that is held becomes the most recent one, with the new value. -/
theorem Carries.overwrite
    {key : UInt64} {idx : Nat}
    (carries : cache.Carries recent)
    (distinct : (recent.map Prod.fst).Nodup)
    (found : cache.map key = some idx)
    (value : CacheEntry) :
    ((cache.modifyNode idx fun node => { node with value := some value }).moveToHead idx).Carries
      ((key, value) :: LruMap.others recent key) := by
  obtain ⟨order, free, bound, represents, covered⟩ := carries.represented
  obtain ⟨left, right, leftEntries, old, rightEntries, rfl, rfl, leftEq, rightEq, slotEq⟩ :=
    represents.split found
  obtain ⟨written, writtenLeft, writtenRight, writtenSlot⟩ :=
    represents.overwrite leftEq rightEq slotEq value
  have moved := moveToHead_withFree
    (cache.modifyNode idx fun node => { node with value := some value }) free bound idx ▸
      written.moveToHead writtenLeft writtenRight writtenSlot
  have edited := sameContents_moveToHead
    (cache.modifyNode idx fun node => { node with value := some value }) idx
  rw [LruMap.others_of_split distinct]
  refine carries.of_withFree moved covered edited.freeList_eq ?_
  rw [edited.length_eq, length_modifyNode]

/-- An entry that is looked up becomes the most recent one. -/
theorem Carries.moveToHead
    {key : UInt64} {idx : Nat} {entry : CacheEntry}
    (carries : cache.Carries recent)
    (distinct : (recent.map Prod.fst).Nodup)
    (found : cache.map key = some idx)
    (stored : recent.lookup key = some entry) :
    (cache.moveToHead idx).Carries ((key, entry) :: LruMap.others recent key) := by
  obtain ⟨order, free, bound, represents, covered⟩ := carries.represented
  obtain ⟨left, right, leftEntries, old, rightEntries, rfl, rfl, leftEq, rightEq, slotEq⟩ :=
    represents.split found
  rw [LruMap.lookup_of_split distinct] at stored
  cases stored
  have moved := moveToHead_withFree cache free bound idx ▸
    represents.moveToHead leftEq rightEq slotEq
  have edited := sameContents_moveToHead cache idx
  rw [LruMap.others_of_split distinct]
  exact carries.of_withFree moved covered edited.freeList_eq edited.length_eq

theorem freeList_removeNode
    (cache : RouteCache)
    (idx : Nat)
    (key : UInt64) :
    ((cache.removeNode idx).mapRemove key).freeList = idx :: cache.freeList :=
  congrArg (List.cons idx) (sameContents_removeLink cache idx).freeList_eq

theorem length_removeNode
    (cache : RouteCache)
    (idx : Nat)
    (key : UInt64) :
    ((cache.removeNode idx).mapRemove key).nodes.length = cache.nodes.length := by
  change ((cache.removeLink idx).modifyNode idx _).nodes.length = _
  rw [length_modifyNode, (sameContents_removeLink cache idx).length_eq]

/-- An expired entry is removed, and its node is free. -/
theorem Carries.remove
    {key : UInt64} {idx : Nat}
    (carries : cache.Carries recent)
    (distinct : (recent.map Prod.fst).Nodup)
    (found : cache.map key = some idx) :
    ((cache.removeNode idx).mapRemove key).Carries (LruMap.others recent key) := by
  obtain ⟨order, free, bound, represents, covered⟩ := carries.represented
  obtain ⟨left, right, leftEntries, old, rightEntries, rfl, rfl, leftEq, rightEq, slotEq⟩ :=
    represents.split found
  have removed := represents.remove leftEq rightEq slotEq
  rw [removeNode_withFree] at removed
  rw [LruMap.others_of_split distinct]
  constructor
  · refine ⟨left ++ right, idx :: free, bound, removed, ?_⟩
    rw [freeList_removeNode]
    exact List.cons_subset_cons idx covered
  · rw [freeList_removeNode, length_removeNode]
    refine List.forall_mem_cons.mpr ⟨?_, carries.inside⟩
    exact represents.inBounds (List.mem_append_right _ List.mem_cons_self)

/-! ## A fresh key -/

theorem length_fill
    (cache : RouteCache)
    (key : UInt64)
    (entry : CacheEntry)
    (idx : Nat) :
    (cache.fill key entry idx).nodes.length = cache.nodes.length := by
  rw [fill, (sameContents_pushHead _ idx).length_eq]
  change ((cache.modifyNode idx _).modifyNode idx _).nodes.length = _
  rw [length_modifyNode, length_modifyNode]

theorem freeList_fill
    (cache : RouteCache)
    (key : UInt64)
    (entry : CacheEntry)
    (idx : Nat) :
    (cache.fill key entry idx).freeList = cache.freeList := by
  rw [fill, (sameContents_pushHead _ idx).freeList_eq]
  rfl

/-- A node that was taken for a fresh key is filled. -/
theorem carries_fill
    {key : UInt64} {idx bound : Nat} {order free : List Nat}
    (represents : (cache.withFree free bound).Represents [idx] order recent)
    (missing : cache.map key = none)
    (covered : free ⊆ cache.freeList)
    (inside : ∀ other ∈ cache.freeList, other < cache.nodes.length)
    (entry : CacheEntry) :
    (cache.fill key entry idx).Carries ((key, entry) :: recent) := by
  have stored : ((cache.withFree free bound).fill key entry idx).Represents [] (idx :: order)
      ((key, entry) :: recent) := represents.store missing entry
  rw [fill_withFree] at stored
  refine ⟨⟨_, free, bound, stored, ?_⟩, ?_⟩
  · rw [freeList_fill]
    exact covered
  · rw [freeList_fill, length_fill]
    exact inside

/-- The insertion of a fresh key fills the node that is allocated. -/
theorem insert_of_missing
    {key : UInt64} {idx : Nat}
    (missing : cache.map key = none)
    (allocated : cache.allocate.2 = some idx)
    (entry : CacheEntry) :
    cache.insert key entry = cache.allocate.1.fill key entry idx := by
  have pair : cache.allocate = (cache.allocate.1, some idx) := by
    rw [← allocated]
  simp only [insert, missing]
  rw [pair]
  rfl

/-- A free index that is not in use is taken. -/
theorem Carries.insert_free
    {key : UInt64} {idx : Nat} {rest : List Nat}
    (carries : cache.Carries recent)
    (missing : cache.map key = none)
    (free_eq : cache.freeList = idx :: rest)
    (unused : cache.IsUnused idx recent)
    (entry : CacheEntry) :
    (cache.insert key entry).Carries ((key, entry) :: recent) := by
  obtain ⟨order, free, bound, represents, covered⟩ := carries.represented
  have notLive : idx ∉ order := by
    intro live
    have mapped := (represents.mapped (cache.slot idx).1 idx).mpr ⟨live, rfl⟩
    obtain ⟨left, right, leftEntries, old, rightEntries, -, rfl, -⟩ := represents.split mapped
    exact unused _ (List.mem_append_right _ List.mem_cons_self) mapped
  have isFree : idx ∈ free := by
    have inRange : idx ∈ List.range cache.nodes.length :=
      List.mem_range.mpr (carries.inside idx (free_eq ▸ List.mem_cons_self))
    have listed := represents.partition.mem_iff.mpr inRange
    rw [List.nil_append, List.mem_append] at listed
    exact listed.resolve_left notLive
  have allocated : cache.allocate = ({ cache with freeList := rest }, some idx) := by
    rw [allocate, free_eq]
  have taken : ({ cache with freeList := rest }.withFree (free.erase idx) bound).Represents [idx]
      order recent := by
    refine ⟨represents.threads, represents.contents, represents.mapped, ?_, represents.bounded⟩
    refine List.Perm.trans ?_ represents.partition
    change ([idx] ++ (order ++ free.erase idx)).Perm ([] ++ (order ++ free))
    rw [List.singleton_append, List.nil_append]
    exact List.perm_middle.symm.trans ((List.perm_cons_erase isFree).symm.append_left order)
  have nodup : free.Nodup := by
    have parts := represents.nodup
    rw [List.nil_append, List.nodup_append] at parts
    exact parts.2.1
  rw [insert_of_missing missing (congrArg Prod.snd allocated), allocated]
  refine carries_fill taken missing ?_ ?_ entry
  · intro other member
    obtain ⟨different, inFree⟩ := nodup.mem_erase_iff.mp member
    have listed := covered inFree
    rw [free_eq] at listed
    exact (List.mem_cons.mp listed).resolve_left different
  · intro other member
    refine carries.inside other ?_
    rw [free_eq]
    exact List.mem_cons_of_mem idx member

/-- Without a free index all nodes are in use. -/
theorem Carries.all_used
    (carries : cache.Carries recent)
    (none_free : cache.freeList = []) :
    (∃ order bound, (cache.withFree [] bound).Represents [] order recent) ∧
      recent.length = cache.nodes.length := by
  obtain ⟨order, free, bound, represents, covered⟩ := carries.represented
  rw [none_free] at covered
  have empty := List.subset_nil.mp covered
  subst empty
  refine ⟨⟨order, bound, represents⟩, ?_⟩
  have lengths := represents.length_add
  rw [represents.length_eq] at lengths
  simpa [withFree] using lengths

/-- A new node is taken at the end of the vector. -/
theorem Carries.insert_new
    {key : UInt64}
    (carries : cache.Carries recent)
    (missing : cache.map key = none)
    (none_free : cache.freeList = [])
    (space : cache.nodes.length < cache.maxEntries)
    (entry : CacheEntry) :
    (cache.insert key entry).Carries ((key, entry) :: recent) := by
  obtain ⟨⟨order, bound, represents⟩, lengths⟩ := carries.all_used none_free
  have wider : (cache.withFree [] cache.maxEntries).Represents [] order recent :=
    ⟨represents.threads, represents.contents, represents.mapped, represents.partition,
      Nat.le_of_lt space⟩
  have same : cache.withFree [] cache.maxEntries = cache := by
    rw [withFree, ← none_free]
  have room : recent.length < (cache.withFree [] cache.maxEntries).maxEntries := lengths ▸ space
  obtain ⟨idx, allocated, taken⟩ := wider.allocate room
  rw [same] at allocated taken
  have pushed : cache.allocate = (cache.pushVacant, some cache.nodes.length) := by
    rw [allocate, none_free]
    exact if_pos space
  rw [insert_of_missing missing allocated]
  have free : cache.allocate.1.freeList = [] := by
    rw [pushed]
    exact none_free
  have again : cache.allocate.1.withFree [] cache.allocate.1.maxEntries = cache.allocate.1 := by
    rw [withFree, ← free]
  refine carries_fill (again ▸ taken) ?_ (List.nil_subset _) ?_ entry
  · rw [pushed]
    exact missing
  · rw [free]
    exact fun other member => absurd member List.not_mem_nil

/-- The entry of the last index is the one that was used the longest ago. -/
theorem Represents.split_last
    {init : List Nat} {last : Nat}
    (represents : cache.Represents [] (init ++ [last]) recent) :
    ∃ initEntries key entry, recent = initEntries ++ [(key, entry)] ∧
      init.map cache.slot = initEntries.map (fun entry => (entry.1, some entry.2)) ∧
      cache.slot last = (key, some entry) := by
  have contents := represents.contents.symm
  rw [List.map_append, List.map_singleton] at contents
  obtain ⟨initEntries, lastEntries, rfl, initEq, lastEq⟩ := List.map_eq_append_iff.mp contents
  obtain ⟨⟨key, entry⟩, rfl, slotEq⟩ := List.map_eq_singleton_iff.mp lastEq
  exact ⟨initEntries, key, entry, rfl, initEq.symm, slotEq.symm⟩

/-- In a full cache the node of the entry that was used the longest ago is taken. -/
theorem Carries.insert_evicting
    {key : UInt64}
    (carries : cache.Carries recent)
    (missing : cache.map key = none)
    (none_free : cache.freeList = [])
    (full : ¬ cache.nodes.length < cache.maxEntries)
    (positive : 0 < cache.maxEntries)
    (entry : CacheEntry) :
    ∃ kept oldest, recent = kept ++ [oldest] ∧
      (cache.insert key entry).Carries ((key, entry) :: kept) := by
  obtain ⟨⟨order, bound, represents⟩, lengths⟩ := carries.all_used none_free
  have nonempty : order ≠ [] := by
    intro empty
    have length_eq := represents.length_eq
    rw [empty, List.length_nil] at length_eq
    omega
  obtain ⟨init, last, rfl⟩ := (List.eq_nil_or_concat' order).resolve_left nonempty
  obtain ⟨kept, oldKey, oldEntry, rfl, initEq, slotEq⟩ := represents.split_last
  have removed := represents.remove initEq (List.map_nil.trans List.map_nil.symm) slotEq
  rw [removeNode_withFree] at removed
  have lastInside : last < cache.nodes.length :=
    represents.inBounds (List.mem_append_right _ List.mem_cons_self)
  have tailEq : cache.tail = some last := by
    have tail := represents.threads.tail_eq
    rw [List.getLast?_append_cons, List.getLast?_singleton] at tail
    exact tail
  have oldKeyEq : (cache.node last).key = oldKey := congrArg Prod.fst slotEq
  have allocated : cache.allocate =
      ((cache.removeNode last).mapRemove oldKey, some last) := by
    rw [allocate, none_free]
    simp only [if_neg full, tailEq, oldKeyEq]
  have taken : (((cache.removeNode last).mapRemove oldKey).withFree [] bound).Represents [last]
      init kept := by
    rw [List.append_nil, List.append_nil] at removed
    refine ⟨removed.threads, removed.contents, removed.mapped, ?_, removed.bounded⟩
    refine List.Perm.trans ?_ removed.partition
    change ([last] ++ (init ++ [])).Perm ([] ++ (init ++ [last]))
    rw [List.append_nil, List.nil_append]
    exact List.perm_append_comm
  refine ⟨kept, (oldKey, oldEntry), rfl, ?_⟩
  rw [insert_of_missing missing (congrArg Prod.snd allocated), allocated]
  refine carries_fill taken ?_ (List.nil_subset _) ?_ entry
  · change Function.update (cache.removeLink last).map oldKey none key = none
    rw [(sameContents_removeLink cache last).map_eq, Function.update_apply]
    split
    · rfl
    · exact missing
  · rw [freeList_removeNode, none_free, length_removeNode]
    intro other member
    rw [List.mem_singleton.mp member]
    exact lastInside

/-! ## Calls -/

/-- A look-up does with the cache what it should do with its entries. -/
theorem Carries.get
    (carries : cache.Carries recent)
    (distinct : (recent.map Prod.fst).Nodup)
    (key : UInt64)
    (now : Nat) :
    (cache.get key now).1.Carries (Recent.lookUp key now recent) := by
  have held := carries.held_eq distinct key
  unfold RouteCache.get Recent.lookUp
  cases found : cache.map key with
  | none =>
      rw [RouteCache.held, found, Option.bind_none] at held
      rw [← held]
      exact carries
  | some idx =>
      rw [RouteCache.held, found, Option.bind_some] at held
      cases stored : recent.lookup key with
      | none =>
          obtain ⟨order, free, bound, represents, _⟩ := carries.represented
          obtain ⟨left, right, leftEntries, old, rightEntries, -, rfl, -⟩ := represents.split found
          rw [LruMap.lookup_of_split distinct] at stored
          cases stored
      | some entry =>
          rw [stored] at held
          simp only [held]
          split
          · exact carries.moveToHead distinct found stored
          · exact carries.remove distinct found

/-- An insertion that fits stores its entry as it should. -/
theorem Carries.insert
    {key : UInt64}
    (carries : cache.Carries recent)
    (distinct : (recent.map Prod.fst).Nodup)
    (positive : 0 < cache.maxEntries)
    (held : (cache.map key).isSome = true → recent.length ≤ cache.maxEntries)
    (room : cache.map key = none → cache.HasSpace cache.maxEntries recent cache.freeList)
    (entry : CacheEntry) :
    (cache.insert key entry).Carries (Recent.store cache.maxEntries key entry recent) := by
  cases found : cache.map key with
  | some idx =>
      have fits : ((key, entry) :: LruMap.others recent key).length ≤ cache.maxEntries := by
        obtain ⟨order, free, bound, represents, _⟩ := carries.represented
        obtain ⟨left, right, leftEntries, old, rightEntries, -, rfl, -⟩ := represents.split found
        have within := held (found ▸ rfl)
        rw [LruMap.others_of_split distinct]
        simp only [List.length_append, List.length_cons] at within ⊢
        omega
      rw [Recent.store, List.take_of_length_le fits, RouteCache.insert, found]
      exact carries.overwrite distinct found entry
  | none =>
      obtain ⟨order, free', bound, represents, _⟩ := carries.represented
      have absent : key ∉ recent.map Prod.fst := represents.absent found
      have hasSpace := room found
      rw [Recent.store, LruMap.others_of_absent absent]
      cases list : cache.freeList with
      | cons idx rest =>
          rw [list] at hasSpace
          obtain ⟨space, unused⟩ := hasSpace
          rw [List.take_of_length_le (by rw [List.length_cons]; exact space)]
          exact carries.insert_free found list unused entry
      | nil =>
          by_cases space : cache.nodes.length < cache.maxEntries
          · have lengths := (carries.all_used list).2
            rw [List.take_of_length_le (by rw [List.length_cons, lengths]; exact space)]
            exact carries.insert_new found list space entry
          · have lengths := (carries.all_used list).2
            rw [list] at hasSpace
            have within : recent.length ≤ cache.maxEntries := hasSpace
            obtain ⟨kept, oldest, rfl, stored⟩ :=
              carries.insert_evicting found list space positive entry
            have bound_eq : cache.maxEntries = ((key, entry) :: kept).length := by
              simp only [List.length_append, List.length_cons, List.length_nil] at lengths within ⊢
              omega
            rw [← List.cons_append, bound_eq, List.take_left]
            exact stored

end Carrying

end RouteCache

/-! ## Runs -/

namespace Recent

variable {recent : Recent}

theorem distinct_cons_others
    (distinct : (recent.map Prod.fst).Nodup)
    (key : UInt64)
    (entry : CacheEntry) :
    (((key, entry) :: LruMap.others recent key).map Prod.fst).Nodup :=
  List.nodup_cons.mpr
    ⟨LruMap.not_mem_keys_others recent key, LruMap.keysNodup_others distinct key⟩

theorem distinct_store
    (distinct : (recent.map Prod.fst).Nodup)
    (bound : Nat)
    (key : UInt64)
    (entry : CacheEntry) :
    ((store bound key entry recent).map Prod.fst).Nodup := by
  rw [store, List.map_take]
  exact (distinct_cons_others distinct key entry).sublist (List.take_sublist _ _)

theorem distinct_lookUp
    (distinct : (recent.map Prod.fst).Nodup)
    (key : UInt64)
    (now : Nat) :
    ((lookUp key now recent).map Prod.fst).Nodup := by
  unfold lookUp
  split
  · exact distinct
  · split
    · exact distinct_cons_others distinct key _
    · exact LruMap.keysNodup_others distinct key

end Recent

namespace CacheRun

/-- What is kept in every run whose insertions fit. -/
structure Kept (run : CacheRun) : Prop where
  distinct : ∀ cacheNamespace, ((run.recent cacheNamespace).map Prod.fst).Nodup
  carried : ∀ cacheNamespace cache, run.caches cacheNamespace = some cache →
    cache.Carries (run.recent cacheNamespace)
  absent : ∀ cacheNamespace, run.caches cacheNamespace = none → run.recent cacheNamespace = []
  bounded : ∀ insertion ∈ run.inserted,
    (run.recent insertion.cacheNamespace).length ≤ insertion.bound
  stored : ∀ insertion ∈ run.inserted,
    (run.recent insertion.cacheNamespace).head? = some (insertion.key, insertion.entry)

section Steps

variable {run : CacheRun}

theorem Kept.holdsRecent
    (kept : run.Kept) :
    run.HoldsRecent where
  distinct := kept.distinct
  held_eq := by
    intro cacheNamespace key
    cases found : run.caches cacheNamespace with
    | none =>
        rw [held, found, kept.absent cacheNamespace found]
        rfl
    | some cache =>
        rw [held, found]
        exact (kept.carried cacheNamespace cache found).held_eq (kept.distinct cacheNamespace) key
  bounded := kept.bounded
  stored := kept.stored

/-- A new cache carries nothing. -/
theorem Kept.target_carries
    (kept : run.Kept)
    (insertion : CacheInsertion) :
    (run.target insertion).Carries (run.recent insertion.cacheNamespace) := by
  cases found : run.caches insertion.cacheNamespace with
  | none =>
      rw [target, found, kept.absent _ found]
      exact RouteCache.carries_new insertion.maxEntries
  | some cache =>
      rw [target, found]
      exact kept.carried _ cache found

/-- An insertion that fits stores its entry in its cache. -/
theorem Kept.insert_carries
    (kept : run.Kept)
    {insertion : CacheInsertion}
    (fits : run.Fits insertion) :
    ({ run.target insertion with maxEntries := insertion.bound }.insert insertion.key
      insertion.entry).Carries
        (Recent.store insertion.bound insertion.key insertion.entry
          (run.recent insertion.cacheNamespace)) := by
  have carries := (kept.target_carries insertion).withBound insertion.bound
  have positive : 0 < insertion.bound := Nat.lt_of_lt_of_le Nat.one_pos (Nat.le_max_right _ _)
  refine carries.insert (kept.distinct _) positive ?_ ?_ insertion.entry
  · intro isHeld
    exact (if_pos isHeld).mp fits
  · intro missing
    have fresh : ¬ ((run.target insertion).map insertion.key).isSome = true := by
      rw [show (run.target insertion).map insertion.key = none from missing]
      exact Bool.false_ne_true
    exact (if_neg fresh).mp fits

/-- One cache and its recent entries change together. -/
theorem Kept.update
    (kept : run.Kept)
    {cacheNamespace : UInt64} {cache : RouteCache} {recent : Recent}
    (distinct : (recent.map Prod.fst).Nodup)
    (carries : cache.Carries recent) :
    let caches := Function.update run.caches cacheNamespace (some cache)
    let recents := Function.update run.recent cacheNamespace recent
    (∀ other, ((recents other).map Prod.fst).Nodup) ∧
      (∀ other found, caches other = some found → found.Carries (recents other)) ∧
      ∀ other, caches other = none → recents other = [] := by
  refine ⟨fun other => ?_, fun other found stored => ?_, fun other missing => ?_⟩
  · by_cases same : other = cacheNamespace
    · rw [same, Function.update_self]
      exact distinct
    · rw [Function.update_of_ne same]
      exact kept.distinct other
  · by_cases same : other = cacheNamespace
    · rw [same, Function.update_self] at stored ⊢
      cases stored
      exact carries
    · rw [Function.update_of_ne same] at stored ⊢
      exact kept.carried other found stored
  · by_cases same : other = cacheNamespace
    · rw [same, Function.update_self] at missing
      cases missing
    · rw [Function.update_of_ne same] at missing ⊢
      exact kept.absent other missing

theorem kept_insert
    (kept : run.Kept)
    {insertion : CacheInsertion}
    (fits : run.Fits insertion) :
    (run.step (.insert insertion)).Kept := by
  obtain ⟨distinct, carried, absent⟩ := kept.update
    (Recent.distinct_store (kept.distinct insertion.cacheNamespace) insertion.bound insertion.key
      insertion.entry)
    (kept.insert_carries fits)
  have recentEq : (run.step (.insert insertion)).recent insertion.cacheNamespace =
      ((insertion.key, insertion.entry) ::
        LruMap.others (run.recent insertion.cacheNamespace) insertion.key).take insertion.bound :=
    Function.update_self insertion.cacheNamespace _ _
  refine ⟨distinct, carried, absent, ?_, ?_⟩
  · intro last isLast
    cases isLast
    rw [recentEq]
    exact List.length_take_le _ _
  · intro last isLast
    cases isLast
    have positive : insertion.bound ≠ 0 :=
      Nat.ne_of_gt (Nat.lt_of_lt_of_le Nat.one_pos (Nat.le_max_right _ _))
    rw [recentEq, List.head?_take, if_neg positive]
    rfl

theorem kept_get
    (kept : run.Kept)
    (cacheNamespace key : UInt64)
    (now : Nat) :
    (run.step (.get cacheNamespace key now)).Kept := by
  have none_inserted : ∀ insertion,
      insertion ∉ (run.step (.get cacheNamespace key now)).inserted :=
    fun _ isLast => Option.some_ne_none _ isLast.symm
  cases found : run.caches cacheNamespace with
  | none =>
      have cachesEq : (run.step (.get cacheNamespace key now)).caches = run.caches := by
        change (run.caches.lookup cacheNamespace key now).1 = _
        rw [RouteCaches.lookup, found]
      have recentEq : (run.step (.get cacheNamespace key now)).recent = run.recent := by
        change Function.update run.recent cacheNamespace _ = _
        rw [kept.absent cacheNamespace found]
        exact Function.update_eq_self_iff.mpr (kept.absent cacheNamespace found).symm
      exact
        { distinct := recentEq ▸ kept.distinct
          carried := cachesEq ▸ recentEq ▸ kept.carried
          absent := cachesEq ▸ recentEq ▸ kept.absent
          bounded := fun insertion isLast => absurd isLast (none_inserted insertion)
          stored := fun insertion isLast => absurd isLast (none_inserted insertion) }
  | some cache =>
      obtain ⟨distinct, carried, absent⟩ := kept.update
        (Recent.distinct_lookUp (kept.distinct cacheNamespace) key now)
        ((kept.carried cacheNamespace cache found).get (kept.distinct cacheNamespace) key now)
      have cachesEq : (run.step (.get cacheNamespace key now)).caches =
          Function.update run.caches cacheNamespace (some (cache.get key now).1) := by
        change (run.caches.lookup cacheNamespace key now).1 = _
        rw [RouteCaches.lookup, found]
      exact
        { distinct
          carried := cachesEq ▸ carried
          absent := cachesEq ▸ absent
          bounded := fun insertion isLast => absurd isLast (none_inserted insertion)
          stored := fun insertion isLast => absurd isLast (none_inserted insertion) }

theorem kept_sync
    (kept : run.Kept)
    (valid : UInt64 → Bool) :
    (run.step (.sync valid)).Kept := by
  have none_inserted : ∀ insertion, insertion ∉ (run.step (.sync valid)).inserted :=
    fun _ isLast => Option.some_ne_none _ isLast.symm
  refine ⟨fun other => ?_, fun other cache found => ?_, fun other missing => ?_, ?_, ?_⟩
  · change ((if valid other then run.recent other else []).map Prod.fst).Nodup
    split
    · exact kept.distinct other
    · exact List.nodup_nil
  · change (if valid other then run.caches other else none) = some cache at found
    change cache.Carries (if valid other then run.recent other else [])
    split at found
    case isTrue isValid =>
        rw [if_pos isValid]
        exact kept.carried other cache found
    case isFalse => cases found
  · change (if valid other then run.caches other else none) = none at missing
    change (if valid other then run.recent other else []) = []
    split at missing
    case isTrue isValid =>
        rw [if_pos isValid]
        exact kept.absent other missing
    case isFalse invalid => rw [if_neg invalid]
  · exact fun insertion isLast => absurd isLast (none_inserted insertion)
  · exact fun insertion isLast => absurd isLast (none_inserted insertion)

end Steps

/-- In every run whose insertions all fit, the caches hold what was used most
recently. -/
theorem holdsRecent_of_reachesUnder
    {run : CacheRun}
    (reaches : cacheRunMachine.ReachesUnder CacheRun.Allows run) :
    run.HoldsRecent := by
  refine Kept.holdsRecent (reaches.invariant ?_ ?_)
  · refine ⟨fun _ => List.nodup_nil, ?_, fun _ _ => rfl, ?_, ?_⟩
    · intro cacheNamespace cache found
      cases found
    · intro insertion isLast
      cases isLast
    · intro insertion isLast
      cases isLast
  · intro state call next kept allowed stepped
    cases stepped
    cases call with
    | insert insertion => exact kept_insert kept allowed
    | get cacheNamespace key now => exact kept_get kept cacheNamespace key now
    | sync valid => exact kept_sync kept valid

end CacheRun

/-! ## Two runs -/

/-- An insertion into the cache of one namespace. -/
def pageInsertion (key : UInt64) (maxEntries : Nat) : CacheInsertion where
  cacheNamespace := 1
  key := key
  entry := { responseBytes := [key.toUInt8], responseBytesClose := [], expiresAt := 9 }
  maxEntries := maxEntries

/-- Two entries under growing bounds, and one that evicts the first of them. -/
theorem holdsRecent_of_reachesUnder_growing :
    ∃ run, cacheRunMachine.runFrom CacheRun.Allows cacheRunMachine.start
        ([pageInsertion 1 1, pageInsertion 2 2, pageInsertion 3 2].map .insert) = some run ∧
      (run.recent 1).map Prod.fst = [3, 2] ∧ run.HoldsRecent := by
  have keys : (cacheRunMachine.runFrom CacheRun.Allows cacheRunMachine.start
      ([pageInsertion 1 1, pageInsertion 2 2, pageInsertion 3 2].map .insert)).map
        (fun run => (run.recent 1).map Prod.fst) = some [3, 2] := by
    decide
  obtain ⟨run, runEq, recent⟩ := Option.map_eq_some_iff.mp keys
  exact ⟨run, runEq, recent, CacheRun.holdsRecent_of_reachesUnder
    (Machine.reachesUnder_of_run _ runEq)⟩

/-- The worker after some insertions. -/
def afterInsertions (insertions : List CacheInsertion) : CacheRun :=
  insertions.foldl (fun run insertion => run.step (.insert insertion)) cacheRunMachine.start

theorem afterInsertions_reaches
    (insertions : List CacheInsertion) :
    cacheRunMachine.Reaches (afterInsertions insertions) := by
  induction insertions using List.reverseRecOn with
  | nil => exact .start
  | append_singleton before insertion hypothesis =>
      have stepped : cacheRunMachine.step (afterInsertions before) (.insert insertion) =
          some (afterInsertions (before ++ [insertion])) := by
        rw [afterInsertions, afterInsertions, List.foldl_append]
        rfl
      exact .step hypothesis trivial stepped

/-- Three entries under a bound of three, and one under a bound of one: the cache
holds three of them, and two of these were to be dropped. -/
theorem not_holdsRecent :
    ¬ ∀ run, cacheRunMachine.Reaches run → run.HoldsRecent := by
  intro everywhere
  have holds := everywhere _ (afterInsertions_reaches
    [pageInsertion 1 3, pageInsertion 2 3, pageInsertion 3 3, pageInsertion 4 1])
  have heldStill : ((afterInsertions [pageInsertion 1 3, pageInsertion 2 3, pageInsertion 3 3,
      pageInsertion 4 1]).held 1 3).isSome = true := by decide
  have dropped : ((afterInsertions [pageInsertion 1 3, pageInsertion 2 3, pageInsertion 3 3,
      pageInsertion 4 1]).recent 1).lookup 3 = none := by decide
  rw [holds.held_eq, dropped] at heldStill
  cases heldStill

end Router
end HttpNative
