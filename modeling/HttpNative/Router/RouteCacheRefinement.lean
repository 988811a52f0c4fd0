import HttpNative.Router.RouteCache

/-!
# The route cache as an LRU map

`Represents` relates a cache to the sequence of its live indices and to the
abstract entries they carry. Every operation that does not evict preserves it
and acts on the entries as the abstract LRU map does. An insertion that evicts
leaves the reused index on the free list, so it breaks the relation at once.
-/

namespace HttpNative
namespace Router

open IndexedList

namespace RouteCache

/-! ## Assignments to one node -/

theorem slot_modifyNode_of
    {update : LruNode → LruNode}
    (keepsKey : ∀ node, (update node).key = node.key)
    (keepsValue : ∀ node, (update node).value = node.value)
    (cache : RouteCache)
    (idx : Nat) :
    (cache.modifyNode idx update).slot = cache.slot := by
  funext other
  simp only [slot, node_modifyNode]
  split_ifs with hit
  · rw [keepsKey, keepsValue, hit.1]
  · rfl

theorem slot_modifyNode_of_ne
    {other idx : Nat}
    (different : other ≠ idx)
    (cache : RouteCache)
    (update : LruNode → LruNode) :
    (cache.modifyNode idx update).slot other = cache.slot other := by
  simp [slot, node_modifyNode, different]

theorem links_modifyNode_of
    {update : LruNode → LruNode}
    (keepsPrev : ∀ node, (update node).prev = node.prev)
    (keepsNext : ∀ node, (update node).next = node.next)
    (cache : RouteCache)
    (idx : Nat) :
    (cache.modifyNode idx update).links = cache.links := by
  ext other : 2
  · simp only [links, node_modifyNode]
    split_ifs with hit
    · rw [keepsPrev, hit.1]
    · rfl
  · simp only [links, node_modifyNode]
    split_ifs with hit
    · rw [keepsNext, hit.1]
    · rfl
  · rfl
  · rfl

theorem links_modifyNode_key
    (cache : RouteCache) (idx : Nat) (key : UInt64) :
    (cache.modifyNode idx fun node => { node with key := key }).links =
      cache.links := by
  apply links_modifyNode_of
  · exact fun _ => rfl
  · exact fun _ => rfl

theorem links_modifyNode_value
    (cache : RouteCache) (idx : Nat) (value : Option CacheEntry) :
    (cache.modifyNode idx fun node => { node with value := value }).links =
      cache.links := by
  apply links_modifyNode_of
  · exact fun _ => rfl
  · exact fun _ => rfl

theorem links_pushVacant (cache : RouteCache) :
    cache.pushVacant.links = cache.links := by
  simp only [links, node_pushVacant]
  rfl

theorem slot_pushVacant (cache : RouteCache) :
    cache.pushVacant.slot = cache.slot := by
  funext idx
  simp only [slot, node_pushVacant]

/-! ## Link edits -/

/-- The parts of a cache that link edits leave alone. -/
structure SameContents (cache edited : RouteCache) : Prop where
  slot_eq : edited.slot = cache.slot
  map_eq : edited.map = cache.map
  length_eq : edited.nodes.length = cache.nodes.length
  maxEntries_eq : edited.maxEntries = cache.maxEntries
  freeList_eq : edited.freeList = cache.freeList

theorem SameContents.trans
    {first second third : RouteCache}
    (before : SameContents first second)
    (after : SameContents second third) :
    SameContents first third where
  slot_eq := after.slot_eq.trans before.slot_eq
  map_eq := after.map_eq.trans before.map_eq
  length_eq := after.length_eq.trans before.length_eq
  maxEntries_eq := after.maxEntries_eq.trans before.maxEntries_eq
  freeList_eq := after.freeList_eq.trans before.freeList_eq

theorem sameContents_modifyNode
    {update : LruNode → LruNode}
    (keepsKey : ∀ node, (update node).key = node.key)
    (keepsValue : ∀ node, (update node).value = node.value)
    (cache : RouteCache)
    (idx : Nat) :
    SameContents cache (cache.modifyNode idx update) where
  slot_eq := slot_modifyNode_of keepsKey keepsValue cache idx
  map_eq := rfl
  length_eq := length_modifyNode cache idx update
  maxEntries_eq := rfl
  freeList_eq := rfl

theorem sameContents_setNext
    (cache : RouteCache) (source target : Option Nat) :
    SameContents cache (cache.setNext source target) := by
  cases source with
  | none => exact ⟨rfl, rfl, rfl, rfl, rfl⟩
  | some idx =>
      apply sameContents_modifyNode
      · exact fun _ => rfl
      · exact fun _ => rfl

theorem sameContents_setPrev
    (cache : RouteCache) (source target : Option Nat) :
    SameContents cache (cache.setPrev source target) := by
  cases source with
  | none => exact ⟨rfl, rfl, rfl, rfl, rfl⟩
  | some idx =>
      apply sameContents_modifyNode
      · exact fun _ => rfl
      · exact fun _ => rfl

theorem sameContents_removeLink (cache : RouteCache) (idx : Nat) :
    SameContents cache (cache.removeLink idx) :=
  (sameContents_setNext cache _ _).trans (sameContents_setPrev _ _ _)

theorem sameContents_pushHead (cache : RouteCache) (idx : Nat) :
    SameContents cache (cache.pushHead idx) := by
  have opened :=
    (sameContents_setPrev cache (some idx) none).trans
      (sameContents_setNext _ (some idx) cache.head)
  cases found : cache.head with
  | none =>
      rw [found] at opened
      refine opened.trans ?_
      simp only [pushHead, found]
      exact ⟨rfl, rfl, rfl, rfl, rfl⟩
  | some head =>
      rw [found] at opened
      refine opened.trans ?_
      refine (sameContents_setPrev _ (some head) (some idx)).trans ?_
      simp only [pushHead, found]
      exact ⟨rfl, rfl, rfl, rfl, rfl⟩

theorem sameContents_moveToHead (cache : RouteCache) (idx : Nat) :
    SameContents cache (cache.moveToHead idx) := by
  unfold moveToHead
  split
  · exact ⟨rfl, rfl, rfl, rfl, rfl⟩
  · exact (sameContents_removeLink cache idx).trans (sameContents_pushHead _ idx)

theorem links_setPrev
    {cache : RouteCache}
    {source : Option Nat}
    (inside : ∀ idx, source = some idx → idx < cache.nodes.length)
    (target : Option Nat) :
    (cache.setPrev source target).links = cache.links.setPrev source target := by
  cases source with
  | none => rfl
  | some idx =>
      ext other : 2
      · simp only [setPrev, links, Links.setPrev, node_modifyNode, inside idx,
          and_true]
        by_cases same : other = idx
        · simp [same]
        · simp [same]
      · simp only [setPrev, links, Links.setPrev, node_modifyNode]
        split_ifs with hit
        · rw [hit.1]
        · rfl
      · rfl
      · rfl

theorem links_setNext
    {cache : RouteCache}
    {source : Option Nat}
    (inside : ∀ idx, source = some idx → idx < cache.nodes.length)
    (target : Option Nat) :
    (cache.setNext source target).links = cache.links.setNext source target := by
  cases source with
  | none => rfl
  | some idx =>
      ext other : 2
      · simp only [setNext, links, Links.setNext, node_modifyNode]
        split_ifs with hit
        · rw [hit.1]
        · rfl
      · simp only [setNext, links, Links.setNext, node_modifyNode, inside idx,
          and_true]
        by_cases same : other = idx
        · simp [same]
        · simp [same]
      · rfl
      · rfl

theorem links_removeLink
    {cache : RouteCache}
    {idx : Nat}
    (prevInside : ∀ prev, (cache.node idx).prev = some prev →
      prev < cache.nodes.length)
    (nextInside : ∀ next, (cache.node idx).next = some next →
      next < cache.nodes.length) :
    (cache.removeLink idx).links = cache.links.unlink idx := by
  have lengthEq := (sameContents_setNext cache (cache.node idx).prev
    (cache.node idx).next).length_eq
  rw [removeLink, links_setPrev (by rwa [lengthEq]), links_setNext prevInside]
  rfl

theorem links_pushHead
    {cache : RouteCache}
    {idx : Nat}
    (inside : idx < cache.nodes.length)
    (headInside : ∀ head, cache.head = some head →
      head < cache.nodes.length) :
    (cache.pushHead idx).links = cache.links.pushFront idx := by
  have openedContents := sameContents_setPrev cache (some idx) none
  have openedPrev : (cache.setPrev (some idx) none).links =
      cache.links.setPrev (some idx) none :=
    links_setPrev (by simpa using inside) none
  have openedNext :
      ((cache.setPrev (some idx) none).setNext (some idx) cache.head).links =
        (cache.links.setPrev (some idx) none).setNext (some idx) cache.head := by
    rw [links_setNext (by simpa [openedContents.length_eq] using inside),
      openedPrev]
  have openedLength := (openedContents.trans
    (sameContents_setNext _ (some idx) cache.head)).length_eq
  have linksHead : cache.links.head = cache.head := rfl
  cases found : cache.head with
  | none =>
      rw [found] at openedNext
      simp only [pushHead, Links.pushFront, linksHead, found, ← openedNext]
      rfl
  | some head =>
      rw [found] at openedNext openedLength
      have joined :
          (((cache.setPrev (some idx) none).setNext (some idx)
            (some head)).setPrev (some head) (some idx)).links =
          ((cache.setPrev (some idx) none).setNext (some idx)
            (some head)).links.setPrev (some head) (some idx) :=
        links_setPrev (by simpa [openedLength] using headInside head found) _
      simp only [pushHead, Links.pushFront, linksHead, found, ← openedNext,
        ← joined]
      rfl

@[simp] theorem maxEntries_removeNode (cache : RouteCache) (idx : Nat) :
    (cache.removeNode idx).maxEntries = cache.maxEntries :=
  (sameContents_removeLink cache idx).maxEntries_eq

@[simp] theorem maxEntries_allocate (cache : RouteCache) :
    cache.allocate.1.maxEntries = cache.maxEntries := by
  unfold allocate
  split
  · rfl
  · split
    · rfl
    · split
      · rfl
      · exact maxEntries_removeNode cache _

/-! ## Representation -/

/-- The cache holds the abstract `entries`, carried by the linked indices
`order`. The indices of the vector are the live ones, the free ones and those
of `held`, which an operation has taken but not yet linked. -/
structure Represents
    (cache : RouteCache)
    (held order : List Nat)
    (entries : List (UInt64 × CacheEntry)) : Prop where
  threads : cache.links.Threads order
  contents : order.map cache.slot =
    entries.map fun entry => (entry.1, some entry.2)
  mapped : ∀ key idx,
    cache.map key = some idx ↔ idx ∈ order ∧ (cache.slot idx).1 = key
  partition : (held ++ (order ++ cache.freeList)).Perm
    (List.range cache.nodes.length)
  bounded : cache.nodes.length ≤ cache.maxEntries

namespace Represents

variable {cache : RouteCache} {held order left right : List Nat}
  {entries leftEntries rightEntries : List (UInt64 × CacheEntry)}

theorem inBounds
    (represents : Represents cache held order entries)
    {idx : Nat}
    (member : idx ∈ order) :
    idx < cache.nodes.length := by
  have : idx ∈ List.range cache.nodes.length :=
    represents.partition.mem_iff.mp (by simp [member])
  simpa using this

theorem length_eq (represents : Represents cache held order entries) :
    order.length = entries.length := by
  have := congrArg List.length represents.contents
  simpa using this

theorem length_add (represents : Represents cache held order entries) :
    held.length + (order.length + cache.freeList.length) =
      cache.nodes.length := by
  have := represents.partition.length_eq
  simpa using this

/-- The indices of the vector split without overlap. -/
theorem nodup (represents : Represents cache held order entries) :
    (held ++ (order ++ cache.freeList)).Nodup :=
  represents.partition.nodup_iff.mpr List.nodup_range

/-- A mapped key has its own node, which carries the key's entry. -/
theorem split
    (represents : Represents cache held order entries)
    {key : UInt64}
    {idx : Nat}
    (found : cache.map key = some idx) :
    ∃ left right leftEntries entry rightEntries,
      order = left ++ idx :: right ∧
        entries = leftEntries ++ (key, entry) :: rightEntries ∧
        left.map cache.slot =
          leftEntries.map (fun entry => (entry.1, some entry.2)) ∧
        right.map cache.slot =
          rightEntries.map (fun entry => (entry.1, some entry.2)) ∧
        cache.slot idx = (key, some entry) := by
  obtain ⟨member, keyEq⟩ := (represents.mapped key idx).mp found
  obtain ⟨left, right, rfl⟩ := List.append_of_mem member
  have contents := represents.contents.symm
  rw [List.map_append, List.map_cons] at contents
  obtain ⟨leftEntries, others, rfl, leftEq, othersEq⟩ :=
    List.map_eq_append_iff.mp contents
  obtain ⟨⟨entryKey, entry⟩, rightEntries, rfl, slotEq, rightEq⟩ :=
    List.map_eq_cons_iff.mp othersEq
  have entryKeyEq : entryKey = key := by
    rw [← keyEq, ← slotEq]
  subst entryKeyEq
  exact ⟨left, right, leftEntries, entry, rightEntries, rfl, rfl,
    leftEq.symm, rightEq.symm, slotEq.symm⟩

/-- A key that is not mapped has no entry. -/
theorem absent
    (represents : Represents cache held order entries)
    {key : UInt64}
    (missing : cache.map key = none) :
    key ∉ entries.map Prod.fst := by
  intro member
  obtain ⟨entry, entryMember, rfl⟩ := List.mem_map.mp member
  have : (entry.1, some entry.2) ∈ order.map cache.slot := by
    rw [represents.contents]
    exact List.mem_map_of_mem entryMember
  obtain ⟨idx, idxMember, slotEq⟩ := List.mem_map.mp this
  have found := (represents.mapped entry.1 idx).mpr
    ⟨idxMember, by rw [slotEq]⟩
  rw [missing] at found
  contradiction

theorem missing_iff
    (represents : Represents cache held order entries)
    {key : UInt64} :
    cache.map key = none ↔ key ∉ entries.map Prod.fst := by
  constructor
  · exact represents.absent
  · intro absent
    cases found : cache.map key with
    | none => rfl
    | some idx =>
        obtain ⟨left, right, leftEntries, entry, rightEntries, -, rfl, -⟩ :=
          represents.split found
        exact absurd (by simp) absent

/-- The links read when a live node is taken out stay in bounds. -/
theorem links_removeLink
    (represents : Represents cache held (left ++ idx :: right) entries) :
    (cache.removeLink idx).links = cache.links.unlink idx := by
  obtain ⟨prevEq, nextEq⟩ := represents.threads.neighbours
  refine RouteCache.links_removeLink (fun prev found => ?_)
    (fun next found => ?_)
  · have : left.getLast? = some prev := by rw [← prevEq]; exact found
    exact represents.inBounds (by simp [List.mem_of_getLast? this])
  · have : right.head? = some next := by rw [← nextEq]; exact found
    exact represents.inBounds (by simp [List.mem_of_mem_head? this])

/-- Only one live node carries a given key. -/
theorem key_ne
    (represents : Represents cache held (left ++ idx :: right) entries)
    {other : Nat}
    (member : other ∈ left ++ right) :
    other ≠ idx ∧ (cache.slot other).1 ≠ (cache.slot idx).1 := by
  have different : other ≠ idx := by
    have nodup := List.nodup_middle.mp represents.threads.nodup
    exact fun equal => (List.nodup_cons.mp nodup).1 (equal ▸ member)
  refine ⟨different, fun sameKey => different ?_⟩
  have foundOther := (represents.mapped (cache.slot other).1 other).mpr
    ⟨by simp only [List.mem_append, List.mem_cons] at member ⊢; tauto, rfl⟩
  have foundIdx := (represents.mapped (cache.slot other).1 idx).mpr
    ⟨by simp, sameKey.symm⟩
  rw [foundOther] at foundIdx
  exact Option.some.inj foundIdx

/-- Moving a live node to the head makes its entry the most recent one. -/
theorem moveToHead
    {entry : UInt64 × CacheEntry}
    (represents : Represents cache [] (left ++ idx :: right)
      (leftEntries ++ entry :: rightEntries))
    (leftEq : left.map cache.slot =
      leftEntries.map fun entry => (entry.1, some entry.2))
    (rightEq : right.map cache.slot =
      rightEntries.map fun entry => (entry.1, some entry.2))
    (slotEq : cache.slot idx = (entry.1, some entry.2)) :
    Represents (cache.moveToHead idx) [] (idx :: (left ++ right))
      (entry :: (leftEntries ++ rightEntries)) := by
  by_cases already : cache.head = some idx
  · obtain ⟨rest, orderEq⟩ := represents.threads.mem_of_head already
    have leftNil : left = [] := by
      cases left with
      | nil => rfl
      | cons first others =>
          have nodup := represents.threads.nodup
          have firstEq : first = idx := (List.cons.inj orderEq).1
          subst firstEq
          simp at nodup
    subst leftNil
    have entriesNil : leftEntries = [] := by simpa using leftEq.symm
    subst entriesNil
    rw [RouteCache.moveToHead, if_pos already]
    exact represents
  · rw [RouteCache.moveToHead, if_neg already]
    have unlinked := sameContents_removeLink cache idx
    have edited := unlinked.trans
      (sameContents_pushHead (cache.removeLink idx) idx)
    have threads : (cache.removeLink idx).links.Threads (left ++ right) := by
      rw [represents.links_removeLink]
      exact represents.threads.unlink
    have fresh : idx ∉ left ++ right := fun member =>
      (represents.key_ne member).1 rfl
    refine ⟨?_, ?_, ?_, ?_, ?_⟩
    · rw [links_pushHead]
      · exact threads.pushFront fresh
      · rw [unlinked.length_eq]
        exact represents.inBounds (by simp)
      · intro head headEq
        obtain ⟨rest, orderEq⟩ := threads.mem_of_head headEq
        have member : head ∈ left ++ right := by simp [orderEq]
        rw [unlinked.length_eq]
        refine represents.inBounds ?_
        simp only [List.mem_append, List.mem_cons] at member ⊢
        tauto
    · simp [edited.slot_eq, leftEq, rightEq, slotEq]
    · intro key other
      rw [edited.map_eq, edited.slot_eq, represents.mapped]
      simp only [List.mem_append, List.mem_cons]
      tauto
    · rw [edited.freeList_eq, edited.length_eq]
      refine List.Perm.trans ?_ represents.partition
      simpa using List.perm_middle.symm
    · rw [edited.length_eq, edited.maxEntries_eq]
      exact represents.bounded

/-- Removing a live node and its key removes its entry and frees its index. -/
theorem remove
    {key : UInt64}
    {entry : CacheEntry}
    (represents : Represents cache [] (left ++ idx :: right)
      (leftEntries ++ (key, entry) :: rightEntries))
    (leftEq : left.map cache.slot =
      leftEntries.map fun entry => (entry.1, some entry.2))
    (rightEq : right.map cache.slot =
      rightEntries.map fun entry => (entry.1, some entry.2))
    (slotEq : cache.slot idx = (key, some entry)) :
    Represents ((cache.removeNode idx).mapRemove key) [] (left ++ right)
      (leftEntries ++ rightEntries) := by
  have unlinked := sameContents_removeLink cache idx
  have slotOther : ∀ other ∈ left ++ right,
      ((cache.removeNode idx).mapRemove key).slot other =
        cache.slot other := by
    intro other member
    have different := (represents.key_ne member).1
    change ((cache.removeLink idx).modifyNode idx _).slot other = _
    rw [slot_modifyNode_of_ne different, unlinked.slot_eq]
  refine ⟨?_, ?_, ?_, ?_, ?_⟩
  · change ((cache.removeLink idx).modifyNode idx _).links.Threads _
    rw [links_modifyNode_value, represents.links_removeLink]
    exact represents.threads.unlink
  · rw [List.map_congr_left slotOther, List.map_append, List.map_append,
      leftEq, rightEq]
  · intro otherKey other
    change Function.update (cache.removeLink idx).map key none otherKey =
      some other ↔ _
    rw [unlinked.map_eq]
    by_cases same : otherKey = key
    · subst same
      simp only [Function.update_self, reduceCtorEq, false_iff]
      rintro ⟨member, keyEq⟩
      rw [slotOther other member] at keyEq
      exact (represents.key_ne member).2 (by rw [keyEq, slotEq])
    · rw [Function.update_of_ne same, represents.mapped]
      constructor
      · rintro ⟨member, keyEq⟩
        have different : other ≠ idx := by
          rintro rfl
          exact same (by rw [← keyEq, slotEq])
        have remaining : other ∈ left ++ right := by
          simp only [List.mem_append, List.mem_cons] at member ⊢
          tauto
        exact ⟨remaining, by rw [slotOther other remaining, keyEq]⟩
      · rintro ⟨member, keyEq⟩
        rw [slotOther other member] at keyEq
        refine ⟨?_, keyEq⟩
        simp only [List.mem_append, List.mem_cons] at member ⊢
        tauto
  · change (left ++ right ++ idx :: (cache.removeLink idx).freeList).Perm
      (List.range ((cache.removeLink idx).modifyNode idx _).nodes.length)
    rw [unlinked.freeList_eq, length_modifyNode, unlinked.length_eq]
    refine List.Perm.trans ?_ represents.partition
    refine List.perm_middle.trans ?_
    simpa using List.perm_middle.symm
  · change ((cache.removeLink idx).modifyNode idx _).nodes.length ≤
      (cache.removeLink idx).maxEntries
    rw [length_modifyNode, unlinked.length_eq, unlinked.maxEntries_eq]
    exact represents.bounded

/-- Overwriting the value of a live node overwrites its entry. -/
theorem overwrite
    {key : UInt64}
    {entry : CacheEntry}
    (represents : Represents cache [] (left ++ idx :: right)
      (leftEntries ++ (key, entry) :: rightEntries))
    (leftEq : left.map cache.slot =
      leftEntries.map fun entry => (entry.1, some entry.2))
    (rightEq : right.map cache.slot =
      rightEntries.map fun entry => (entry.1, some entry.2))
    (slotEq : cache.slot idx = (key, some entry))
    (value : CacheEntry) :
    let written := cache.modifyNode idx fun node =>
      { node with value := some value }
    Represents written [] (left ++ idx :: right)
        (leftEntries ++ (key, value) :: rightEntries) ∧
      left.map written.slot =
        leftEntries.map (fun entry => (entry.1, some entry.2)) ∧
      right.map written.slot =
        rightEntries.map (fun entry => (entry.1, some entry.2)) ∧
      written.slot idx = (key, some value) := by
  intro written
  have slotOther : ∀ other ∈ left ++ right,
      written.slot other = cache.slot other := fun other member =>
    slot_modifyNode_of_ne (represents.key_ne member).1 cache _
  have keyAll : ∀ other, (written.slot other).1 = (cache.slot other).1 := by
    intro other
    simp only [written, slot, node_modifyNode]
    split_ifs with hit
    · rw [hit.1]
    · rfl
  have slotIdx : written.slot idx = (key, some value) := by
    have inside : idx < cache.nodes.length := represents.inBounds (by simp)
    have keyEq : (cache.node idx).key = key := congrArg Prod.fst slotEq
    simp [written, slot, node_modifyNode, inside, keyEq]
  have leftSlots : left.map written.slot =
      leftEntries.map fun entry => (entry.1, some entry.2) := by
    rw [← leftEq]
    exact List.map_congr_left fun other member =>
      slotOther other (by simp [member])
  have rightSlots : right.map written.slot =
      rightEntries.map fun entry => (entry.1, some entry.2) := by
    rw [← rightEq]
    exact List.map_congr_left fun other member =>
      slotOther other (by simp [member])
  refine ⟨⟨?_, ?_, ?_, ?_, ?_⟩, leftSlots, rightSlots, slotIdx⟩
  · rw [links_modifyNode_value]
    exact represents.threads
  · simp [leftSlots, rightSlots, slotIdx]
  · intro otherKey other
    rw [keyAll]
    exact represents.mapped otherKey other
  · simpa [written] using represents.partition
  · simpa [written] using represents.bounded

/-- While there is room, an index can be taken for a fresh key. -/
theorem allocate
    (represents : Represents cache [] order entries)
    (room : entries.length < cache.maxEntries) :
    ∃ idx, cache.allocate.2 = some idx ∧
      Represents cache.allocate.1 [idx] order entries := by
  cases free : cache.freeList with
  | cons idx freeList =>
      refine ⟨idx, by simp [RouteCache.allocate, free], ?_⟩
      simp only [RouteCache.allocate, free]
      refine ⟨represents.threads, represents.contents, represents.mapped, ?_,
        represents.bounded⟩
      refine List.Perm.trans ?_ represents.partition
      simpa [free] using List.perm_middle.symm
  | nil =>
      have lengths := represents.length_add
      rw [free, represents.length_eq] at lengths
      have space : cache.nodes.length < cache.maxEntries := by
        simp only [List.length_nil] at lengths
        omega
      refine ⟨cache.nodes.length, by simp [RouteCache.allocate, free, space],
        ?_⟩
      simp only [RouteCache.allocate, free, space, if_true]
      refine ⟨by rw [links_pushVacant]; exact represents.threads,
        by rw [slot_pushVacant]; exact represents.contents,
        by rw [slot_pushVacant]; exact represents.mapped, ?_, ?_⟩
      · have partition := represents.partition
        rw [free] at partition
        simp only [List.nil_append, List.append_nil] at partition
        simp only [pushVacant, free, List.append_nil, List.length_append,
          List.length_singleton, List.range_succ]
        exact List.perm_append_comm.trans (partition.append_right _)
      · simpa [pushVacant] using Nat.succ_le_of_lt space

/-- In a full cache the index taken for a fresh key is the tail's, and it is
left on the free list. -/
theorem allocate_full
    (represents : Represents cache [] order entries)
    (full : entries.length = cache.maxEntries)
    (positive : 0 < cache.maxEntries) :
    ∃ tail, cache.allocate.2 = some tail ∧
      tail ∈ cache.allocate.1.freeList := by
  have lengths := represents.length_add
  have bounded := represents.bounded
  rw [represents.length_eq, full] at lengths
  have free : cache.freeList = [] := by
    rw [← List.length_eq_zero_iff]
    simp only [List.length_nil] at lengths
    omega
  have noRoom : ¬cache.nodes.length < cache.maxEntries := by
    simp only [List.length_nil] at lengths
    omega
  have nonempty : order ≠ [] := by
    intro empty
    have := represents.length_eq
    rw [empty, full] at this
    simp only [List.length_nil] at this
    omega
  have tailEq : cache.tail = some (order.getLast nonempty) := by
    have := represents.threads.tail_eq
    rwa [List.getLast?_eq_getLast_of_ne_nil nonempty] at this
  refine ⟨order.getLast nonempty, ?_, ?_⟩
  · simp [RouteCache.allocate, free, noRoom, tailEq]
  · simp [RouteCache.allocate, free, noRoom, tailEq, mapRemove, removeNode]

/-- Writing a fresh key into a taken index and linking it at the head adds its
entry as the most recent one. -/
theorem store
    {key : UInt64}
    (represents : Represents cache [idx] order entries)
    (missing : cache.map key = none)
    (entry : CacheEntry) :
    Represents ((((cache.modifyNode idx fun node =>
        { node with key := key }).modifyNode idx fun node =>
        { node with value := some entry }).mapInsert key idx).pushHead idx)
      [] (idx :: order) ((key, entry) :: entries) := by
  have fresh : idx ∉ order := by
    have nodup := represents.nodup
    simp only [List.singleton_append, List.nodup_cons, List.mem_append] at nodup
    tauto
  have inside : idx < cache.nodes.length := by
    have : idx ∈ List.range cache.nodes.length :=
      represents.partition.mem_iff.mp (by simp)
    simpa using this
  have edited := sameContents_pushHead
    (((cache.modifyNode idx fun node =>
      { node with key := key }).modifyNode idx fun node =>
      { node with value := some entry }).mapInsert key idx) idx
  have slotOther : ∀ other ∈ order,
      (((cache.modifyNode idx fun node =>
        { node with key := key }).modifyNode idx fun node =>
        { node with value := some entry }).mapInsert key idx).slot other =
          cache.slot other := by
    intro other member
    have different : other ≠ idx := fun equal => fresh (equal ▸ member)
    change (((cache.modifyNode idx _).modifyNode idx _)).slot other = _
    rw [slot_modifyNode_of_ne different, slot_modifyNode_of_ne different]
  have slotIdx :
      (((cache.modifyNode idx fun node =>
        { node with key := key }).modifyNode idx fun node =>
        { node with value := some entry }).mapInsert key idx).slot idx =
          (key, some entry) := by
    change (((cache.modifyNode idx _).modifyNode idx _)).slot idx = _
    simp [slot, node_modifyNode, inside]
  have linksEq :
      (((cache.modifyNode idx fun node =>
        { node with key := key }).modifyNode idx fun node =>
        { node with value := some entry }).mapInsert key idx).links =
          cache.links := by
    change (((cache.modifyNode idx _).modifyNode idx _)).links = _
    rw [links_modifyNode_value, links_modifyNode_key]
  refine ⟨?_, ?_, ?_, ?_, ?_⟩
  · rw [links_pushHead, linksEq]
    · exact represents.threads.pushFront fresh
    · simpa [mapInsert] using inside
    · intro head headEq
      obtain ⟨rest, rfl⟩ := represents.threads.mem_of_head headEq
      have headInside : head < cache.nodes.length :=
        represents.inBounds (by simp)
      simpa [mapInsert] using headInside
  · rw [edited.slot_eq, List.map_cons, List.map_cons, slotIdx,
      List.map_congr_left slotOther, represents.contents]
  · intro otherKey other
    rw [edited.map_eq, edited.slot_eq]
    change Function.update cache.map key (some idx) otherKey = some other ↔ _
    by_cases same : otherKey = key
    · subst same
      simp only [Function.update_self, Option.some.injEq, List.mem_cons]
      constructor
      · rintro rfl
        exact ⟨Or.inl rfl, by rw [slotIdx]⟩
      · rintro ⟨equal | member, keyEq⟩
        · exact equal.symm
        · rw [slotOther other member] at keyEq
          have found := (represents.mapped otherKey other).mpr ⟨member, keyEq⟩
          rw [missing] at found
          contradiction
    · rw [Function.update_of_ne same, represents.mapped, List.mem_cons]
      constructor
      · rintro ⟨member, keyEq⟩
        exact ⟨Or.inr member, by rw [slotOther other member, keyEq]⟩
      · rintro ⟨equal | member, keyEq⟩
        · subst equal
          rw [slotIdx] at keyEq
          exact absurd keyEq.symm same
        · exact ⟨member, by rw [← keyEq, slotOther other member]⟩
  · rw [edited.freeList_eq, edited.length_eq]
    simpa [mapInsert] using represents.partition
  · rw [edited.length_eq, edited.maxEntries_eq]
    simpa [mapInsert] using represents.bounded

end Represents

end RouteCache
end Router
end HttpNative
