import Mathlib.Data.List.Nodup

/-!
# Least-recently-used maps

An abstract map of bounded capacity whose entries are kept in order of use,
most recent first. Storing a key makes it the most recent one and drops the
least recent entry when the capacity is exceeded; a look-up of a live entry
makes it the most recent one, and a look-up of a dead entry removes it.
-/

namespace HttpNative

/-- A map from `K` to `V` with at most `capacity` entries, most recently used
first. -/
@[ext] structure LruMap (K V : Type) (capacity : Nat) where
  entries : List (K × V)
  keysNodup : (entries.map Prod.fst).Nodup
  withinCapacity : entries.length ≤ capacity

namespace LruMap

variable {K V : Type} [DecidableEq K] {capacity : Nat}

omit [DecidableEq K] in
/-- The map with no entries. -/
def empty : LruMap K V capacity where
  entries := []
  keysNodup := List.nodup_nil
  withinCapacity := Nat.zero_le capacity

/-- The entries stored under other keys, in their order. -/
def others (entries : List (K × V)) (key : K) : List (K × V) :=
  entries.filter fun entry => entry.1 ≠ key

theorem map_fst_others (entries : List (K × V)) (key : K) :
    (others entries key).map Prod.fst =
      (entries.map Prod.fst).filter (fun other => other ≠ key) := by
  rw [others, List.filter_map]
  rfl

theorem not_mem_keys_others (entries : List (K × V)) (key : K) :
    key ∉ (others entries key).map Prod.fst := by
  rw [map_fst_others]
  simp

theorem keysNodup_others
    {entries : List (K × V)}
    (nodup : (entries.map Prod.fst).Nodup)
    (key : K) :
    ((others entries key).map Prod.fst).Nodup := by
  rw [map_fst_others]
  exact nodup.filter _

/-- The value stored under a key. -/
def lookup (map : LruMap K V capacity) (key : K) : Option V :=
  map.entries.lookup key

/-- Remove a key. -/
def erase (map : LruMap K V capacity) (key : K) : LruMap K V capacity where
  entries := others map.entries key
  keysNodup := keysNodup_others map.keysNodup key
  withinCapacity := Nat.le_trans (List.length_filter_le _ _) map.withinCapacity

/-- Store a value under a key as the most recent entry, dropping the least
recent entry beyond the capacity. -/
def insert (map : LruMap K V capacity) (key : K) (value : V) :
    LruMap K V capacity where
  entries := ((key, value) :: others map.entries key).take capacity
  keysNodup := by
    rw [List.map_take]
    refine List.Nodup.sublist (List.take_sublist _ _) ?_
    exact List.nodup_cons.mpr ⟨not_mem_keys_others map.entries key,
      keysNodup_others map.keysNodup key⟩
  withinCapacity := List.length_take_le _ _

/-- Look a key up: a live value becomes the most recent entry, a dead one is
removed. -/
def get (map : LruMap K V capacity) (live : V → Bool) (key : K) :
    LruMap K V capacity × Option V :=
  match map.lookup key with
  | none => (map, none)
  | some value =>
      if live value then (map.insert key value, some value)
      else (map.erase key, none)

/-- Storing under the key would push another entry out: the key is not present
and the map is full. -/
def Evicts (map : LruMap K V capacity) (key : K) : Prop :=
  key ∉ map.entries.map Prod.fst ∧ map.entries.length = capacity

instance (map : LruMap K V capacity) (key : K) : Decidable (map.Evicts key) :=
  inferInstanceAs (Decidable (_ ∧ _))

/-! ## Entries around one key -/

/-- Removing the key of an entry of a duplicate-free list removes exactly that
entry. -/
theorem others_of_split
    {left right : List (K × V)}
    {key : K}
    {value : V}
    (nodup : ((left ++ (key, value) :: right).map Prod.fst).Nodup) :
    others (left ++ (key, value) :: right) key = left ++ right := by
  simp only [List.map_append, List.map_cons, List.nodup_append,
    List.nodup_cons] at nodup
  obtain ⟨-, ⟨rightFresh, -⟩, apart⟩ := nodup
  have keepLeft : left.filter (fun entry => entry.1 ≠ key) = left := by
    refine List.filter_eq_self.mpr fun entry member => ?_
    have := apart entry.1 (List.mem_map_of_mem member) key (by simp)
    simpa using this
  have keepRight : right.filter (fun entry => entry.1 ≠ key) = right := by
    refine List.filter_eq_self.mpr fun entry member => ?_
    have : entry.1 ≠ key := fun equal =>
      rightFresh (equal ▸ List.mem_map_of_mem member)
    simpa using this
  rw [others, List.filter_append, List.filter_cons_of_neg (by simp), keepLeft,
    keepRight]

/-- A key that is absent leaves nothing to remove. -/
theorem others_of_absent
    {entries : List (K × V)}
    {key : K}
    (absent : key ∉ entries.map Prod.fst) :
    others entries key = entries := by
  refine List.filter_eq_self.mpr fun entry member => ?_
  have : entry.1 ≠ key := fun equal =>
    absent (equal ▸ List.mem_map_of_mem member)
  simpa using this

/-- In a duplicate-free list an entry is what its key looks up. -/
theorem lookup_of_split
    {left right : List (K × V)}
    {key : K}
    {value : V}
    (nodup : ((left ++ (key, value) :: right).map Prod.fst).Nodup) :
    (left ++ (key, value) :: right).lookup key = some value := by
  have absent : left.lookup key = none := by
    rw [List.lookup_eq_none_iff]
    intro entry member
    have apart := (List.nodup_append.mp (by simpa using nodup)).2.2
    have := apart entry.1 (List.mem_map_of_mem member) key (by simp)
    simpa using this.symm
  simp [List.lookup_append, absent]

theorem lookup_of_absent
    {entries : List (K × V)}
    {key : K}
    (absent : key ∉ entries.map Prod.fst) :
    entries.lookup key = none := by
  rw [List.lookup_eq_none_iff]
  intro entry member
  have : key ≠ entry.1 := fun equal =>
    absent (equal ▸ List.mem_map_of_mem member)
  simpa using this

end LruMap
end HttpNative
