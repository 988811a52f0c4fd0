import HttpNative.Library.Machine
import HttpNative.Session.SessionStore

/-!
# Calls on the session store

A store that is called again and again while time passes. No entry outgrows the
limit on its data: the size of a change is worked out ahead of it, and a change
that does not fit leaves the whole store as it is.
-/

namespace HttpNative
namespace Session

/-- Data with one value for each key. -/
structure DataMap where
  entries : Dictionary Text Octets
  distinct : entries.Distinct

inductive StoreCall where
  | get (id : SessionId)
  | upsert (id : SessionId) (mutations : DataMap) (deletedKeys : List Text)
  | destroy (id : SessionId)

inductive StoreResult where
  | entry (found : Option SessionEntry)
  | changed (accepted : Bool)
  | destroyed

/-- What one call does at a time. -/
def perform (config : StoreConfig) (now : Nat) (store : SessionMap) :
    StoreCall → StoreResult × SessionMap
  | .get id => (.entry (storeGet config now id store).1, (storeGet config now id store).2)
  | .upsert id mutations deletedKeys =>
      (.changed (upsert config now id mutations.entries deletedKeys store).1,
        (upsert config now id mutations.entries deletedKeys store).2)
  | .destroy id => (.destroyed, storeDestroy id store)

/-- A call that was made. -/
structure StoreRecord where
  call : StoreCall
  time : Nat
  result : StoreResult

structure StoreState where
  store : SessionMap
  now : Nat
  /-- The calls so far, the last of them first. -/
  history : List StoreRecord

inductive StoreEvent where
  | pass (ticks : Nat)
  | call (call : StoreCall)

def storeMachine (config : StoreConfig) : Machine StoreState StoreEvent where
  start := { store := [], now := 0, history := [] }
  step := fun state event =>
    match event with
    | .pass ticks => some { state with now := state.now + ticks }
    | .call call =>
        some { state with
          store := (perform config state.now state.store call).2
          history := ⟨call, state.now, (perform config state.now state.store call).1⟩ ::
            state.history }

/-! ## The size of data -/

/-- The octets of all keys and values. -/
def dataSize (data : Dictionary Text Octets) : Nat :=
  (data.map fun entry => (Utf8.encode entry.1).length).sum +
    (data.map fun entry => entry.2.length).sum

/-- The store adds up the entries. -/
theorem dataSize_eq
    (data : Dictionary Text Octets) :
    dataSize data = (data.map entrySize).sum := by
  unfold dataSize
  induction data with
  | nil => rfl
  | cons entry rest hypothesis =>
      simp only [List.map_cons, List.sum_cons, entrySize] at hypothesis ⊢
      omega

theorem get_applyChanges
    {mutations : Dictionary Text Octets}
    (distinct : mutations.Distinct)
    (deletedKeys : List Text)
    (data : Dictionary Text Octets)
    (key : Text) :
    (applyChanges mutations deletedKeys data).get key =
      (mutations.get key).or (if key ∈ deletedKeys then none else data.get key) := by
  rw [applyChanges, Dictionary.get_foldl_set Prod.fst Prod.snd, distinct.filter_key,
    Dictionary.get_foldl_erase]
  by_cases deleted : key ∈ deletedKeys
  · cases mutations.get key <;> simp [deleted]
  · cases mutations.get key <;> simp [deleted]

theorem distinct_applyChanges
    (mutations : Dictionary Text Octets)
    (deletedKeys : List Text)
    {data : Dictionary Text Octets}
    (distinct : data.Distinct) :
    (applyChanges mutations deletedKeys data).Distinct :=
  Dictionary.Distinct.foldl_set Prod.fst (fun _ entry => entry.2) mutations
    (distinct.foldl_erase deletedKeys)

/-- The size worked out ahead of a change is the size after it. -/
theorem projectedDataSize_eq
    {mutations data : Dictionary Text Octets}
    (distinct : mutations.Distinct)
    (dataDistinct : data.Distinct)
    (deletedKeys : List Text) :
    projectedDataSize data mutations deletedKeys =
      dataSize (applyChanges mutations deletedKeys data) := by
  have keepsKey : ∀ key, (!deletedKeys.contains key && !(mutations.get key).isSome) = true ↔
      key ∉ deletedKeys ∧ mutations.get key = none := by
    intro key
    simp
  have keptDistinct : Dictionary.Distinct ((data.filter fun entry =>
      !deletedKeys.contains entry.1 && !(mutations.get entry.1).isSome) ++ mutations) := by
    rw [Dictionary.Distinct, List.map_append, List.nodup_append]
    refine ⟨dataDistinct.filter _, distinct, ?_⟩
    rintro key keptKey other mutated rfl
    obtain ⟨entry, member, rfl⟩ := List.mem_map.mp keptKey
    obtain ⟨mutation, inMutations, same⟩ := List.mem_map.mp mutated
    have absent := ((keepsKey _).mp (List.mem_filter.mp member).2).2
    rw [← same, distinct.get_of_mem inMutations] at absent
    cases absent
  have sameEntries : (applyChanges mutations deletedKeys data).Perm
      ((data.filter fun entry =>
        !deletedKeys.contains entry.1 && !(mutations.get entry.1).isSome) ++ mutations) := by
    apply (distinct_applyChanges mutations deletedKeys dataDistinct).perm keptDistinct
    intro key
    rw [get_applyChanges distinct, Dictionary.get_append, Dictionary.get_filter_keys data
      fun key => !deletedKeys.contains key && !(mutations.get key).isSome]
    cases mutated : mutations.get key with
    | some value => simp
    | none => by_cases deleted : key ∈ deletedKeys <;> simp [deleted]
  rw [dataSize_eq, (sameEntries.map entrySize).sum_nat, List.map_append, List.sum_append,
    projectedDataSize]

/-! ## Every entry fits -/

/-- The data that a session holds, none without an entry. -/
def dataOf (id : SessionId) (store : SessionMap) : Dictionary Text Octets :=
  ((store.get id).map SessionEntry.data).getD []

/-- The entries have one value for each key, and fit. -/
def EntriesFit (config : StoreConfig) (store : SessionMap) : Prop :=
  ∀ stored ∈ store, stored.2.data.Distinct ∧ dataSize stored.2.data ≤ config.maxDataSize

section Steps

variable {config : StoreConfig} {store : SessionMap} {id : SessionId}

theorem EntriesFit.erase
    (fit : EntriesFit config store)
    (id : SessionId) :
    EntriesFit config (store.erase id) :=
  fun stored member => fit stored (List.mem_of_mem_filter member)

theorem EntriesFit.evict
    (fit : EntriesFit config store)
    (id : SessionId) :
    EntriesFit config (evict config id store) := by
  unfold Session.evict
  cases evicted config id store with
  | none => exact fit
  | some victim => exact fit.erase victim

theorem EntriesFit.set
    (fit : EntriesFit config store)
    (id : SessionId)
    {entry : SessionEntry}
    (distinct : entry.data.Distinct)
    (small : dataSize entry.data ≤ config.maxDataSize) :
    EntriesFit config (store.set id entry) := by
  intro stored member
  rcases Dictionary.eq_or_mem_of_mem_set member with rfl | old
  · exact ⟨distinct, small⟩
  · exact fit stored old

theorem EntriesFit.distinct_dataOf
    (fit : EntriesFit config store)
    (id : SessionId) :
    (dataOf id store).Distinct := by
  unfold dataOf
  cases found : store.get id with
  | none => exact Dictionary.distinct_nil
  | some entry => exact (fit _ (Dictionary.mem_of_get found)).1

/-- One call keeps the entries in their limits. -/
theorem entriesFit_perform
    (fit : EntriesFit config store)
    (now : Nat)
    (call : StoreCall) :
    EntriesFit config (perform config now store call).2 := by
  cases call with
  | get id =>
      change EntriesFit config (storeGet config now id store).2
      unfold storeGet
      split
      · exact fit
      · rename_i entry found
        obtain ⟨distinct, small⟩ := fit _ (Dictionary.mem_of_get found)
        split
        · exact fit.erase id
        · exact fit.set id distinct small
  | upsert id mutations deletedKeys =>
      change EntriesFit config (upsert config now id mutations.entries deletedKeys store).2
      have dataDistinct := fit.distinct_dataOf id
      rcases Nat.lt_or_ge config.maxDataSize
        (projectedDataSize (dataOf id store) mutations.entries deletedKeys) with large | fits
      · rw [upsert_of_not_fits large]
        exact fit
      · rw [upsert_of_fits fits]
        rw [projectedDataSize_eq mutations.distinct dataDistinct] at fits
        exact (fit.evict id).set id
          (distinct_applyChanges mutations.entries deletedKeys dataDistinct) fits
  | destroy id => exact fit.erase id

end Steps

/-- The invariant of a run. -/
def StoreState.Fits (config : StoreConfig) (state : StoreState) : Prop :=
  EntriesFit config state.store

theorem fits_step
    {config : StoreConfig} {state next : StoreState} {event : StoreEvent}
    (fit : state.Fits config)
    (stepEq : (storeMachine config).step state event = some next) :
    next.Fits config := by
  cases event with
  | pass ticks =>
      cases stepEq
      exact fit
  | call call =>
      cases stepEq
      exact entriesFit_perform fit state.now call

theorem fits_of_reaches
    {config : StoreConfig} {state : StoreState}
    (reaches : (storeMachine config).Reaches state) :
    state.Fits config := by
  refine reaches.invariant ?_ fun _ _ _ fit _ stepEq => fits_step fit stepEq
  intro stored member
  cases member

/-! ## Changes fit or do nothing -/

/-- An upsert is refused exactly when the data would be too large, and then
nothing changes; an accepted one leaves the changed data. -/
structure UpsertExact
    (config : StoreConfig) (now : Nat) (store : SessionMap)
    (id : SessionId) (mutations : DataMap) (deletedKeys : List Text) : Prop where
  refused : (upsert config now id mutations.entries deletedKeys store).1 = false ↔
    config.maxDataSize <
      dataSize (applyChanges mutations.entries deletedKeys (dataOf id store))
  unchanged : (upsert config now id mutations.entries deletedKeys store).1 = false →
    (upsert config now id mutations.entries deletedKeys store).2 = store
  holds : (upsert config now id mutations.entries deletedKeys store).1 = true →
    ∃ entry, (upsert config now id mutations.entries deletedKeys store).2.get id = some entry ∧
      ∀ key, entry.data.get key =
        (mutations.entries.get key).or
          (if key ∈ deletedKeys then none else (dataOf id store).get key)

theorem upsertExact_of_entriesFit
    {config : StoreConfig} {store : SessionMap}
    (fit : EntriesFit config store)
    (now : Nat)
    (id : SessionId)
    (mutations : DataMap)
    (deletedKeys : List Text) :
    UpsertExact config now store id mutations deletedKeys := by
  have size := projectedDataSize_eq mutations.distinct (fit.distinct_dataOf id) deletedKeys
  rcases Nat.lt_or_ge config.maxDataSize
    (projectedDataSize (dataOf id store) mutations.entries deletedKeys) with large | fits
  · have refused := @upsert_of_not_fits config now id store _ _ large
    constructor
    · rw [refused, ← size]
      exact ⟨fun _ => large, fun _ => rfl⟩
    · intro _
      rw [refused]
    · intro accepted
      rw [refused] at accepted
      cases accepted
  · have accepted := @upsert_of_fits config now id store _ _ fits
    constructor
    · rw [accepted, ← size]
      constructor
      · intro refused
        cases refused
      · intro large
        exact absurd large (Nat.not_lt.mpr fits)
    · intro refused
      rw [accepted] at refused
      cases refused
    · intro _
      rw [accepted]
      exact ⟨_, Dictionary.get_set_self _ _ _, fun key =>
        get_applyChanges mutations.distinct deletedKeys (dataOf id store) key⟩

/-- In every store that calls lead to, entries are within the limit and every
further change fits or does nothing. -/
theorem limited_of_reaches
    {config : StoreConfig} {state : StoreState}
    (reaches : (storeMachine config).Reaches state) :
    (∀ stored ∈ state.store, dataSize stored.2.data ≤ config.maxDataSize) ∧
      ∀ id mutations deletedKeys,
        UpsertExact config state.now state.store id mutations deletedKeys :=
  ⟨fun stored member => (fits_of_reaches reaches stored member).2,
    upsertExact_of_entriesFit (fits_of_reaches reaches) state.now⟩

/-- A limit of eight octets. -/
def smallStore : StoreConfig where
  maxAge := 60
  maxPerShard := 1
  maxDataSize := 8

def loginId : SessionId where
  octets := List.replicate 16 7
  sixteen := rfl

def userData (value : String) : DataMap where
  entries := [(text "user", octets value)]
  distinct := List.nodup_singleton _

/-- A login, and a change that does not fit. -/
def loggedInState : StoreState where
  store := [(loginId, { data := [(text "user", octets "ann")], lastAccessed := 0, expiresAt := 60 })]
  now := 1
  history :=
    [⟨.upsert loginId (userData "annabel") [], 1, .changed false⟩,
      ⟨.upsert loginId (userData "ann") [], 0, .changed true⟩]

theorem limited_of_reaches_login :
    (∀ stored ∈ loggedInState.store, dataSize stored.2.data ≤ smallStore.maxDataSize) ∧
      ∀ id mutations deletedKeys,
        UpsertExact smallStore loggedInState.now loggedInState.store id mutations deletedKeys :=
  limited_of_reaches (Machine.reachesUnder_of_run
    [.call (.upsert loginId (userData "ann") []), .pass 1,
      .call (.upsert loginId (userData "annabel") [])] (by rfl))

end Session
end HttpNative
