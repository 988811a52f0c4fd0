import HttpNative.Library.Dictionary
import HttpNative.Library.Octets
import HttpNative.Library.Utf8
import HttpNative.Session.SessionCookies
import Mathlib.Data.List.MinMax

/-!
# The session store

The in-memory store of the native layer: entries that expire some time after
their last use, a limit on the data of an entry, and a limit on the entries of a
shard.
-/

namespace HttpNative
namespace Session

def shardCount : Nat := 64

structure StoreConfig where
  /-- Seconds from the last use to expiry. -/
  maxAge : Nat
  maxPerShard : Nat
  maxDataSize : Nat

structure SessionEntry where
  data : Dictionary Text Octets
  lastAccessed : Nat
  expiresAt : Nat
deriving DecidableEq

abbrev SessionMap := Dictionary SessionId SessionEntry

def SessionId.shardIndex (id : SessionId) : Nat :=
  (id.octets.headD 0).toNat % shardCount

section Operations

variable (config : StoreConfig) (now : Nat)

def SessionEntry.touch (entry : SessionEntry) : SessionEntry :=
  { entry with lastAccessed := now, expiresAt := now + config.maxAge }

def SessionEntry.new : SessionEntry where
  data := []
  lastAccessed := now
  expiresAt := now + config.maxAge

/-- `SessionStore::get`: an expired entry is taken out, another one is touched. -/
def storeGet (id : SessionId) (store : SessionMap) : Option SessionEntry × SessionMap :=
  match store.get id with
  | none => (none, store)
  | some entry =>
      if entry.expiresAt ≤ now then
        (none, store.erase id)
      else
        (some (entry.touch config now), store.set id (entry.touch config now))

/-- The octets of a key and its value. -/
def entrySize (entry : Text × Octets) : Nat :=
  (Utf8.encode entry.1).length + entry.2.length

/-- The size of the data after some changes. -/
def projectedDataSize
    (current : Dictionary Text Octets)
    (mutations : Dictionary Text Octets)
    (deletedKeys : List Text) : Nat :=
  let kept := current.filter fun entry =>
    !deletedKeys.contains entry.1 && !(mutations.get entry.1).isSome
  (kept.map entrySize).sum + (mutations.map entrySize).sum

/-- The entries in the shard of an id. -/
def shardOf (id : SessionId) (store : SessionMap) : SessionMap :=
  store.filter fun entry => entry.1.shardIndex = id.shardIndex

/-- The session that makes room for a new one: the least recently used of a full
shard. Among equally old ones it is the first in the order of the map. -/
def evicted (id : SessionId) (store : SessionMap) : Option SessionId :=
  if store.get id = none ∧ config.maxPerShard ≤ (shardOf id store).length then
    ((shardOf id store).argmin fun entry => entry.2.lastAccessed).map Prod.fst
  else
    none

def evict (id : SessionId) (store : SessionMap) : SessionMap :=
  match evicted config id store with
  | some oldest => store.erase oldest
  | none => store

/-- The data of an entry after some changes. -/
def applyChanges
    (mutations : Dictionary Text Octets)
    (deletedKeys : List Text)
    (data : Dictionary Text Octets) : Dictionary Text Octets :=
  mutations.foldl (fun result entry => result.set entry.1 entry.2)
    (deletedKeys.foldl (fun result key => result.erase key) data)

/-- `SessionStore::upsert`; nothing changes when the data would be too large. -/
def upsert
    (id : SessionId)
    (mutations : Dictionary Text Octets)
    (deletedKeys : List Text)
    (store : SessionMap) : Bool × SessionMap :=
  let current := ((store.get id).map SessionEntry.data).getD []
  if config.maxDataSize < projectedDataSize current mutations deletedKeys then
    (false, store)
  else
    let roomy := evict config id store
    let entry := (roomy.get id).getD (SessionEntry.new config now)
    let changed := { entry with data := applyChanges mutations deletedKeys entry.data }
    (true, roomy.set id (changed.touch config now))

/-- `SessionStore::destroy`. -/
def storeDestroy (id : SessionId) (store : SessionMap) : SessionMap :=
  store.erase id

end Operations

/-! ## What the operations leave alone -/

section Frame

variable {config : StoreConfig} {now : Nat} {id own : SessionId} {store : SessionMap}

/-- What a lookup does: it finds nothing, takes an expired entry out, or touches the
entry. -/
theorem storeGet_cases
    (config : StoreConfig)
    (now : Nat)
    (id : SessionId)
    (store : SessionMap) :
    (store.get id = none ∧ storeGet config now id store = (none, store)) ∨
      (∃ entry, store.get id = some entry ∧ entry.expiresAt ≤ now ∧
        storeGet config now id store = (none, store.erase id)) ∨
      ∃ entry, store.get id = some entry ∧ now < entry.expiresAt ∧
        storeGet config now id store =
          (some (entry.touch config now), store.set id (entry.touch config now)) := by
  unfold storeGet
  cases found : store.get id with
  | none => exact .inl ⟨rfl, rfl⟩
  | some entry =>
      rcases Nat.lt_or_ge now entry.expiresAt with fresh | expired
      · exact .inr (.inr ⟨entry, rfl, fresh, if_neg (Nat.not_le.mpr fresh)⟩)
      · exact .inr (.inl ⟨entry, rfl, expired, if_pos expired⟩)

theorem get_storeGet_of_ne
    (other : id ≠ own) :
    (storeGet config now id store).2.get own = store.get own := by
  unfold storeGet
  split
  · rfl
  · split
    · rw [Dictionary.get_erase, if_neg other]
    · exact Dictionary.get_set_of_ne _ _ other

theorem get_evict
    (kept : evicted config id store ≠ some own) :
    (evict config id store).get own = store.get own := by
  unfold evict
  cases oldest : evicted config id store with
  | none => rfl
  | some victim =>
      have different : victim ≠ own := by
        rintro rfl
        exact kept oldest
      simp only [Dictionary.get_erase, if_neg different]

/-- A session that is in the store makes room for nobody. -/
theorem evicted_of_get
    {entry : SessionEntry}
    (stored : store.get id = some entry) :
    evicted config id store = none := by
  rw [evicted, if_neg]
  rintro ⟨absent, _⟩
  rw [stored] at absent
  cases absent

theorem get_upsert_of_ne
    {mutations : Dictionary Text Octets} {deletedKeys : List Text}
    (other : id ≠ own)
    (kept : evicted config id store ≠ some own) :
    (upsert config now id mutations deletedKeys store).2.get own = store.get own := by
  unfold upsert
  simp only
  split
  · rfl
  · rw [Dictionary.get_set_of_ne _ _ other, get_evict kept]

theorem data_evict
    (id : SessionId)
    (store : SessionMap) :
    ((evict config id store).get id).map SessionEntry.data =
      (store.get id).map SessionEntry.data := by
  cases stored : store.get id with
  | some entry =>
      have alone : evicted config id store = none := evicted_of_get stored
      rw [evict, alone, stored]
  | none =>
      unfold evict
      cases evicted config id store with
      | none => rw [stored]
      | some victim =>
          rw [Dictionary.get_erase, stored]
          split <;> rfl

/-- A change that fits is made, and the session is in use again. -/
theorem upsert_of_fits
    {mutations : Dictionary Text Octets} {deletedKeys : List Text}
    (fits : projectedDataSize (((store.get id).map SessionEntry.data).getD []) mutations deletedKeys ≤
      config.maxDataSize) :
    upsert config now id mutations deletedKeys store =
      (true, (evict config id store).set id {
        data := applyChanges mutations deletedKeys (((store.get id).map SessionEntry.data).getD [])
        lastAccessed := now
        expiresAt := now + config.maxAge }) := by
  have same := @data_evict config id store
  rw [upsert]
  simp only [if_neg (Nat.not_lt.mpr fits), SessionEntry.touch]
  cases roomy : (evict config id store).get id with
  | none =>
      rw [roomy] at same
      rw [← same]
      rfl
  | some entry =>
      rw [roomy] at same
      rw [← same]
      rfl

/-- A change that does not fit leaves the store as it is. -/
theorem upsert_of_not_fits
    {mutations : Dictionary Text Octets} {deletedKeys : List Text}
    (large : config.maxDataSize <
      projectedDataSize (((store.get id).map SessionEntry.data).getD []) mutations deletedKeys) :
    upsert config now id mutations deletedKeys store = (false, store) := by
  rw [upsert]
  simp only [if_pos large]

/-- The entry of a session after a change that fits. -/
theorem get_upsert_self
    {mutations : Dictionary Text Octets} {deletedKeys : List Text}
    (fits : projectedDataSize (((store.get id).map SessionEntry.data).getD []) mutations deletedKeys ≤
      config.maxDataSize) :
    (upsert config now id mutations deletedKeys store).2.get id = some {
      data := applyChanges mutations deletedKeys (((store.get id).map SessionEntry.data).getD [])
      lastAccessed := now
      expiresAt := now + config.maxAge } := by
  rw [upsert_of_fits fits, Dictionary.get_set_self]

theorem get_storeDestroy
    (other : id ≠ own) :
    (storeDestroy id store).get own = store.get own := by
  rw [storeDestroy, Dictionary.get_erase, if_neg other]

end Frame

end Session
end HttpNative
