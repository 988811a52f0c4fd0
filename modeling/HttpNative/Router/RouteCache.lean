import HttpNative.Library.IndexedList
import HttpNative.Library.LruMap

/-!
# The native route cache

The LRU cache of prebuilt responses kept by each worker: a hash map from keys
to node indices, a vector of nodes doubly linked by index, and a list of free
indices. The null index `usize::MAX` is `none`, and the free list is kept with
its top first. Instants are natural numbers.
-/

namespace HttpNative
namespace Router

/-- A prebuilt response in its keep-alive and its close variant. -/
structure CacheEntry where
  responseBytes : List UInt8
  responseBytesClose : List UInt8
  expiresAt : Nat
  deriving DecidableEq, Repr

structure LruNode where
  key : UInt64
  value : Option CacheEntry
  prev : Option Nat
  next : Option Nat
  deriving DecidableEq, Repr

/-- The node a vector slot holds before it is first written. -/
def LruNode.vacant : LruNode where
  key := 0
  value := none
  prev := none
  next := none

structure RouteCache where
  map : UInt64 → Option Nat
  nodes : List LruNode
  head : Option Nat
  tail : Option Nat
  maxEntries : Nat
  freeList : List Nat

namespace RouteCache

def new (maxEntries : Nat) : RouteCache where
  map := fun _ => none
  nodes := []
  head := none
  tail := none
  maxEntries := maxEntries
  freeList := []

/-- The node at an index. Every index the cache uses is in bounds
(`Represents.inBounds`), so the default is never read. -/
def node (cache : RouteCache) (idx : Nat) : LruNode :=
  cache.nodes.getD idx .vacant

/-- Assign to fields of the node at an index. -/
def modifyNode
    (cache : RouteCache) (idx : Nat) (update : LruNode → LruNode) :
    RouteCache :=
  { cache with nodes := cache.nodes.modify idx update }

/-- `self.map.remove(&key)` -/
def mapRemove (cache : RouteCache) (key : UInt64) : RouteCache :=
  { cache with map := Function.update cache.map key none }

/-- `self.map.insert(key, idx)` -/
def mapInsert (cache : RouteCache) (key : UInt64) (idx : Nat) : RouteCache :=
  { cache with map := Function.update cache.map key (some idx) }

/-- Assign the `next` field of a node, or `head` for the null index. -/
def setNext (cache : RouteCache) (source target : Option Nat) : RouteCache :=
  match source with
  | some idx => cache.modifyNode idx fun node => { node with next := target }
  | none => { cache with head := target }

/-- Assign the `prev` field of a node, or `tail` for the null index. -/
def setPrev (cache : RouteCache) (source target : Option Nat) : RouteCache :=
  match source with
  | some idx => cache.modifyNode idx fun node => { node with prev := target }
  | none => { cache with tail := target }

def pushHead (cache : RouteCache) (idx : Nat) : RouteCache :=
  let opened := (cache.setPrev (some idx) none).setNext (some idx) cache.head
  let joined :=
    match cache.head with
    | some head => opened.setPrev (some head) (some idx)
    | none => opened
  { joined with
    head := some idx
    tail := if cache.tail = none then some idx else cache.tail }

def removeLink (cache : RouteCache) (idx : Nat) : RouteCache :=
  let prev := (cache.node idx).prev
  let next := (cache.node idx).next
  (cache.setNext prev next).setPrev next prev

def removeNode (cache : RouteCache) (idx : Nat) : RouteCache :=
  let cache := cache.removeLink idx
  let cache := cache.modifyNode idx fun node => { node with value := none }
  { cache with freeList := idx :: cache.freeList }

def moveToHead (cache : RouteCache) (idx : Nat) : RouteCache :=
  if cache.head = some idx then cache
  else (cache.removeLink idx).pushHead idx

def get (cache : RouteCache) (key : UInt64) (now : Nat) :
    RouteCache × Option CacheEntry :=
  match cache.map key with
  | none => (cache, none)
  | some idx =>
      let expired := ((cache.removeNode idx).mapRemove key, none)
      match (cache.node idx).value with
      | none => expired
      | some entry =>
          if now < entry.expiresAt then
            let cache := cache.moveToHead idx
            (cache, (cache.node idx).value)
          else expired

/-- `self.nodes.push(..)` -/
def pushVacant (cache : RouteCache) : RouteCache :=
  { cache with nodes := cache.nodes ++ [.vacant] }

/-- The index a fresh key is stored at: a free one, a new one at the end of the
vector, or the one of the evicted tail. A cache of no entries has none. -/
def allocate (cache : RouteCache) : RouteCache × Option Nat :=
  match cache.freeList with
  | idx :: freeList => ({ cache with freeList := freeList }, some idx)
  | [] =>
      if cache.nodes.length < cache.maxEntries then
        (cache.pushVacant, some cache.nodes.length)
      else
        match cache.tail with
        | none => (cache, none)
        | some tail =>
            let tailKey := (cache.node tail).key
            ((cache.removeNode tail).mapRemove tailKey, some tail)

def insert (cache : RouteCache) (key : UInt64) (entry : CacheEntry) :
    RouteCache :=
  match cache.map key with
  | some idx =>
      (cache.modifyNode idx fun node =>
        { node with value := some entry }).moveToHead idx
  | none =>
      match cache.allocate with
      | (cache, none) => cache
      | (cache, some idx) =>
          let cache := cache.modifyNode idx fun node =>
            { node with key := key }
          let cache := cache.modifyNode idx fun node =>
            { node with value := some entry }
          (cache.mapInsert key idx).pushHead idx

def invalidate (cache : RouteCache) (key : UInt64) : RouteCache :=
  match cache.map key with
  | none => cache
  | some idx => (cache.removeNode idx).mapRemove key

/-! ## Reading a node back -/

@[simp] theorem length_modifyNode
    (cache : RouteCache) (idx : Nat) (update : LruNode → LruNode) :
    (cache.modifyNode idx update).nodes.length = cache.nodes.length := by
  simp [modifyNode]

@[simp] theorem map_modifyNode
    (cache : RouteCache) (idx : Nat) (update : LruNode → LruNode) :
    (cache.modifyNode idx update).map = cache.map := rfl

@[simp] theorem maxEntries_modifyNode
    (cache : RouteCache) (idx : Nat) (update : LruNode → LruNode) :
    (cache.modifyNode idx update).maxEntries = cache.maxEntries := rfl

@[simp] theorem freeList_modifyNode
    (cache : RouteCache) (idx : Nat) (update : LruNode → LruNode) :
    (cache.modifyNode idx update).freeList = cache.freeList := rfl

theorem node_modifyNode
    (cache : RouteCache)
    (idx other : Nat)
    (update : LruNode → LruNode) :
    (cache.modifyNode idx update).node other =
      if other = idx ∧ idx < cache.nodes.length then update (cache.node idx)
      else cache.node other := by
  by_cases same : other = idx
  · subst same
    by_cases inside : other < cache.nodes.length
    · simp [node, modifyNode, List.getD_eq_getElem?_getD, inside]
    · simp [node, modifyNode, List.getD_eq_getElem?_getD, inside]
  · have different : idx ≠ other := fun equal => same equal.symm
    simp [node, modifyNode, List.getD_eq_getElem?_getD, same, different]

theorem node_pushVacant (cache : RouteCache) (idx : Nat) :
    cache.pushVacant.node idx = cache.node idx := by
  rcases Nat.lt_trichotomy idx cache.nodes.length with
    inside | equal | outside
  · simp [node, pushVacant, List.getD_eq_getElem?_getD,
      List.getElem?_append_left inside]
  · simp [node, pushVacant, List.getD_eq_getElem?_getD, equal]
  · have beyond : (cache.nodes ++ [LruNode.vacant]).length ≤ idx := by
      simpa using Nat.succ_le_of_lt outside
    simp [node, pushVacant, List.getD_eq_getElem?_getD,
      List.getElem?_eq_none (Nat.le_of_lt outside),
      List.getElem?_eq_none beyond]

/-- The key and value a node carries. -/
def slot (cache : RouteCache) (idx : Nat) : UInt64 × Option CacheEntry :=
  ((cache.node idx).key, (cache.node idx).value)

/-- The links of the cache as a doubly linked list over indices. -/
def links (cache : RouteCache) : IndexedList.Links Nat where
  prev := fun idx => (cache.node idx).prev
  next := fun idx => (cache.node idx).next
  head := cache.head
  tail := cache.tail

end RouteCache
end Router
end HttpNative
