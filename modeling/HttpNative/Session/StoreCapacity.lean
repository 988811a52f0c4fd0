import HttpNative.Session.StoreExpiry
import Mathlib.Algebra.Order.BigOperators.Group.List

/-!
# The number of sessions

The limit on all sessions is cut into one for each shard, and a shard takes at least
one session. So the limit holds from as many sessions on as there are shards. A full
shard makes room for a new session by giving up the least recently used one, and
nothing else is given up.
-/

namespace HttpNative
namespace Session

/-- `SessionStore::new`. -/
def StoreConfig.new (maxAge maxSessions maxDataSize : Nat) : StoreConfig where
  maxAge := maxAge
  maxPerShard := max (maxSessions / shardCount) 1
  maxDataSize := maxDataSize

/-- The entries of a shard. -/
def shard (index : Nat) (store : SessionMap) : SessionMap :=
  store.filter fun entry => entry.1.shardIndex = index

/-- `SessionStore::session_count`. -/
def sessionCount (store : SessionMap) : Nat :=
  ((List.range shardCount).map fun index => (shard index store).length).sum

/-! ## What a client of the store is promised -/

/-- When a session was last found or changed, by the calls so far. -/
def lastUse (id : SessionId) : List StoreRecord → Nat
  | [] => 0
  | record :: earlier =>
      match record.call, record.result with
      | .get other, .entry (some _) =>
          if other = id then record.time else lastUse id earlier
      | .upsert other _ _, .changed true =>
          if other = id then record.time else lastUse id earlier
      | _, _ => lastUse id earlier

def StoreCall.id : StoreCall → SessionId
  | .get id => id
  | .upsert id _ _ => id
  | .destroy id => id

/-- The call brings a new session into a full shard. -/
def NeedsRoom (config : StoreConfig) (state : StoreState) : StoreCall → Prop
  | .upsert id mutations deletedKeys =>
      (upsert config state.now id mutations.entries deletedKeys state.store).1 = true ∧
        state.store.get id = none ∧
        config.maxPerShard ≤ (shard id.shardIndex state.store).length
  | _ => False

/-- Of all other sessions a call gives up none, or the least recently used one of the
shard when it needs room there. -/
structure GivesUpOldest
    (config : StoreConfig)
    (state : StoreState)
    (call : StoreCall)
    (victim : Option SessionId) : Prop where
  others : ∀ own, own ≠ call.id →
    (perform config state.now state.store call).2.get own =
      if victim = some own then none else state.store.get own
  exactly : victim.isSome = true ↔ NeedsRoom config state call
  stored : ∀ id ∈ victim, (state.store.get id).isSome = true ∧ id ≠ call.id ∧
    id.shardIndex = call.id.shardIndex
  oldest : ∀ id ∈ victim, ∀ other, (state.store.get other).isSome = true →
    other.shardIndex = call.id.shardIndex →
      lastUse id state.history ≤ lastUse other state.history

/-- The limit on all sessions holds, and calls give up what they should. -/
def StoreState.Bounded
    (config : StoreConfig)
    (maxSessions : Nat)
    (state : StoreState) : Prop :=
  sessionCount state.store ≤ maxSessions ∧
    ∀ call, ∃ victim, GivesUpOldest config state call victim

/-! ## The entries of a shard -/

section Shards

variable {config : StoreConfig} {store : SessionMap} {id : SessionId} {index : Nat}

theorem mem_shard
    {entry : SessionId × SessionEntry} :
    entry ∈ shard index store ↔ entry ∈ store ∧ entry.1.shardIndex = index := by
  rw [shard, List.mem_filter, decide_eq_true_eq]

theorem shard_erase
    (id : SessionId) :
    shard index (store.erase id) = (shard index store).erase id := by
  rw [shard, shard, Dictionary.erase, Dictionary.erase, List.filter_filter, List.filter_filter]
  refine List.filter_congr fun entry _ => ?_
  exact Bool.and_comm _ _

theorem length_erase_le
    (id : SessionId)
    (store : SessionMap) :
    (store.erase id).length ≤ store.length :=
  List.length_filter_le _ _

theorem length_erase_lt
    {entry : SessionEntry}
    (member : (id, entry) ∈ store) :
    (store.erase id).length < store.length := by
  rw [Dictionary.erase, List.length_filter_lt_length_iff_exists]
  exact ⟨_, member, by simp⟩

/-- A write adds at most one entry, and only to the shard of its session. -/
theorem length_shard_set
    (store : SessionMap)
    (id : SessionId)
    (entry : SessionEntry) :
    (shard index (store.set id entry)).length ≤
      (shard index store).length +
        if id.shardIndex = index ∧ store.get id = none then 1 else 0 := by
  induction store with
  | nil =>
      by_cases own : id.shardIndex = index
      · simp [Dictionary.set, shard, own]
      · simp [Dictionary.set, shard, own]
  | cons first rest hypothesis =>
      unfold Dictionary.set
      split
      · rename_i same
        rw [shard, shard, List.filter_cons, List.filter_cons, same]
        split
        · exact Nat.le_add_right _ _
        · exact Nat.le_add_right _ _
      · rename_i different
        rw [Dictionary.get, if_neg different]
        rw [shard, shard] at hypothesis ⊢
        rw [List.filter_cons, List.filter_cons]
        split
        · rw [List.length_cons, List.length_cons, Nat.add_right_comm]
          exact Nat.succ_le_succ hypothesis
        · exact hypothesis

theorem shardOf_eq
    (id : SessionId)
    (store : SessionMap) :
    shardOf id store = shard id.shardIndex store :=
  rfl

/-- The session that makes room is in the full shard. -/
theorem evicted_spec
    {victim : SessionId}
    (oldest : evicted config id store = some victim) :
    (store.get id = none ∧ config.maxPerShard ≤ (shard id.shardIndex store).length) ∧
      ∃ entry, (victim, entry) ∈ shard id.shardIndex store ∧
        ∀ other ∈ shard id.shardIndex store, entry.lastAccessed ≤ other.2.lastAccessed := by
  unfold evicted at oldest
  split at oldest
  · rename_i room
    obtain ⟨found, isOldest, rfl⟩ := Option.map_eq_some_iff.mp oldest
    refine ⟨room, found.2, List.argmin_mem isOldest, ?_⟩
    intro other member
    let used (entry : SessionId × SessionEntry) : Nat := entry.2.lastAccessed
    have least : used found ≤ used other := List.le_of_mem_argmin member isOldest
    exact least
  · cases oldest

/-- A full shard of at least one session has one to give up. -/
theorem evicted_isSome
    (positive : 1 ≤ config.maxPerShard)
    (absent : store.get id = none)
    (full : config.maxPerShard ≤ (shard id.shardIndex store).length) :
    (evicted config id store).isSome = true := by
  rw [evicted, shardOf_eq, if_pos ⟨absent, full⟩, Option.isSome_map]
  cases oldest : (shard id.shardIndex store).argmin fun entry => entry.2.lastAccessed with
  | some entry => rfl
  | none =>
      rw [List.argmin_eq_none] at oldest
      rw [oldest, List.length_nil] at full
      omega

end Shards

/-! ## The invariant -/

/-- The invariant of a run: one entry for a session, no shard beyond its limit, and
every entry knows when it was last used. -/
structure StoreState.Roomy (config : StoreConfig) (state : StoreState) : Prop where
  distinct : state.store.Distinct
  shards : ∀ index, (shard index state.store).length ≤ config.maxPerShard
  used : ∀ id entry, state.store.get id = some entry →
    entry.lastAccessed = lastUse id state.history

section Steps

variable {config : StoreConfig} {state : StoreState}

theorem length_shard_evict_le
    (id : SessionId)
    (store : SessionMap)
    (index : Nat) :
    (shard index (evict config id store)).length ≤ (shard index store).length := by
  unfold evict
  cases evicted config id store with
  | none => exact Nat.le_refl _
  | some victim =>
      simp only
      rw [shard_erase]
      exact length_erase_le _ _

/-- With the room that was made a new session fits. -/
theorem length_shard_evict_lt
    {store : SessionMap} {id : SessionId}
    (positive : 1 ≤ config.maxPerShard)
    (within : (shard id.shardIndex store).length ≤ config.maxPerShard)
    (absent : store.get id = none) :
    (shard id.shardIndex (evict config id store)).length < config.maxPerShard := by
  rcases Nat.lt_or_ge (shard id.shardIndex store).length config.maxPerShard with room | full
  · exact Nat.lt_of_le_of_lt (length_shard_evict_le id store _) room
  · obtain ⟨victim, isVictim⟩ := Option.isSome_iff_exists.mp (evicted_isSome positive absent full)
    obtain ⟨-, entry, member, -⟩ := evicted_spec isVictim
    unfold evict
    rw [isVictim]
    simp only
    rw [shard_erase]
    exact Nat.lt_of_lt_of_le (length_erase_lt member) within

/-- Room made for a session leaves it as it is. -/
theorem get_evict_eq_none_iff
    (id : SessionId)
    (store : SessionMap) :
    (evict config id store).get id = none ↔ store.get id = none := by
  have same := congrArg Option.isNone (@data_evict config id store)
  rw [Option.isNone_map, Option.isNone_map] at same
  rw [← Option.isNone_iff_eq_none, ← Option.isNone_iff_eq_none, same]

theorem distinct_evict
    {store : SessionMap}
    (distinct : store.Distinct)
    (id : SessionId) :
    (evict config id store).Distinct := by
  unfold evict
  cases evicted config id store with
  | none => exact distinct
  | some victim => exact distinct.erase victim

/-- What is left in the store by a call keeps every shard in its limit. -/
theorem roomy_perform
    (positive : 1 ≤ config.maxPerShard)
    (roomy : state.Roomy config)
    (call : StoreCall) :
    (perform config state.now state.store call).2.Distinct ∧
      ∀ index, (shard index (perform config state.now state.store call).2).length ≤
        config.maxPerShard := by
  have erased : ∀ id : SessionId, (state.store.erase id).Distinct ∧
      ∀ index, (shard index (state.store.erase id)).length ≤ config.maxPerShard := by
    intro id
    refine ⟨roomy.distinct.erase id, fun index => ?_⟩
    rw [shard_erase]
    exact Nat.le_trans (length_erase_le _ _) (roomy.shards index)
  cases call with
  | get id =>
      rcases storeGet_cases config state.now id state.store with
        ⟨-, same⟩ | ⟨-, -, -, removed⟩ | ⟨stored, found, -, touched⟩
      · simp only [perform, same]
        exact ⟨roomy.distinct, roomy.shards⟩
      · simp only [perform, removed]
        exact erased id
      · simp only [perform, touched]
        refine ⟨roomy.distinct.set _ _, fun index => ?_⟩
        refine Nat.le_trans (length_shard_set _ _ _) ?_
        rw [found, if_neg (by simp), Nat.add_zero]
        exact roomy.shards index
  | upsert id mutations deletedKeys =>
      simp only [perform]
      rcases Nat.lt_or_ge config.maxDataSize
        (projectedDataSize (dataOf id state.store) mutations.entries deletedKeys) with large | fits
      · rw [upsert_of_not_fits large]
        exact ⟨roomy.distinct, roomy.shards⟩
      · rw [upsert_of_fits fits]
        refine ⟨(distinct_evict roomy.distinct id).set _ _, fun index => ?_⟩
        refine Nat.le_trans (length_shard_set _ _ _) ?_
        split
        · rename_i new
          obtain ⟨rfl, absent⟩ := new
          rw [get_evict_eq_none_iff] at absent
          exact length_shard_evict_lt positive (roomy.shards _) absent
        · exact Nat.le_trans (length_shard_evict_le id _ index) (roomy.shards index)
  | destroy id => exact erased id

/-- The entry of a session in use again, or the one it had. -/
theorem used_perform
    (roomy : state.Roomy config)
    (call : StoreCall)
    (id : SessionId)
    (entry : SessionEntry)
    (found : (perform config state.now state.store call).2.get id = some entry) :
    entry.lastAccessed = lastUse id
      (⟨call, state.now, (perform config state.now state.store call).1⟩ :: state.history) := by
  cases call with
  | get other =>
      rcases storeGet_cases config state.now other state.store with
        ⟨-, same⟩ | ⟨-, -, -, removed⟩ | ⟨stored, -, -, touched⟩
      · simp only [perform, same] at found ⊢
        exact roomy.used id entry found
      · simp only [perform, removed, Dictionary.get_erase] at found ⊢
        split at found
        · cases found
        · exact roomy.used id entry found
      · simp only [perform, touched, lastUse] at found ⊢
        by_cases own : other = id
        · rw [own, Dictionary.get_set_self] at found
          cases found
          rw [if_pos own]
          rfl
        · rw [Dictionary.get_set_of_ne _ _ own] at found
          rw [if_neg own]
          exact roomy.used id entry found
  | upsert other mutations deletedKeys =>
      simp only [perform] at found ⊢
      rcases Nat.lt_or_ge config.maxDataSize
        (projectedDataSize (dataOf other state.store) mutations.entries deletedKeys) with large | fits
      · rw [upsert_of_not_fits large] at found ⊢
        exact roomy.used id entry found
      · by_cases own : other = id
        · rw [own] at fits ⊢
          rw [own, get_upsert_self fits] at found
          cases found
          rw [upsert_of_fits fits]
          simp only [lastUse, if_true]
        · have before := get_of_get_upsert own found
          rw [upsert_of_fits fits]
          simp only [lastUse, if_neg own]
          exact roomy.used id entry before
  | destroy other =>
      simp only [perform, storeDestroy, Dictionary.get_erase] at found
      simp only [lastUse]
      split at found
      · cases found
      · exact roomy.used id entry found

end Steps

theorem roomy_step
    {config : StoreConfig} {state next : StoreState} {event : StoreEvent}
    (positive : 1 ≤ config.maxPerShard)
    (roomy : state.Roomy config)
    (stepEq : (storeMachine config).step state event = some next) :
    next.Roomy config := by
  cases event with
  | pass ticks =>
      cases stepEq
      exact ⟨roomy.distinct, roomy.shards, roomy.used⟩
  | call call =>
      cases stepEq
      obtain ⟨distinct, shards⟩ := roomy_perform positive roomy call
      exact ⟨distinct, shards, used_perform roomy call⟩

theorem roomy_of_reaches
    {config : StoreConfig} {state : StoreState}
    (positive : 1 ≤ config.maxPerShard)
    (reaches : (storeMachine config).Reaches state) :
    state.Roomy config := by
  refine reaches.invariant ?_ fun _ _ _ roomy _ stepEq => roomy_step positive roomy stepEq
  refine ⟨Dictionary.distinct_nil, fun index => Nat.zero_le _, ?_⟩
  intro id entry found
  cases found

/-! ## What a call gives up -/

section Victims

variable {config : StoreConfig} {state : StoreState}

theorem not_needsRoom_of_refused
    {id : SessionId} {mutations : DataMap} {deletedKeys : List Text}
    (large : config.maxDataSize <
      projectedDataSize (dataOf id state.store) mutations.entries deletedKeys) :
    ¬ NeedsRoom config state (.upsert id mutations deletedKeys) := by
  rintro ⟨accepted, -⟩
  rw [upsert_of_not_fits large] at accepted
  cases accepted

theorem givesUpOldest_of_none
    {call : StoreCall}
    (others : ∀ own, own ≠ call.id →
      (perform config state.now state.store call).2.get own = state.store.get own)
    (enough : ¬ NeedsRoom config state call) :
    GivesUpOldest config state call none where
  others := others
  exactly := ⟨fun given => absurd given (by simp), fun needs => absurd needs enough⟩
  stored := fun id none => absurd none (by simp)
  oldest := fun id none => absurd none (by simp)

/-- An accepted upsert gives up the session that `evicted` selects. -/
theorem givesUpOldest_upsert
    (positive : 1 ≤ config.maxPerShard)
    (roomy : state.Roomy config)
    {id : SessionId} {mutations : DataMap} {deletedKeys : List Text}
    (fits : projectedDataSize (dataOf id state.store) mutations.entries deletedKeys ≤
      config.maxDataSize) :
    GivesUpOldest config state (.upsert id mutations deletedKeys)
      (evicted config id state.store) := by
  have accepted := @upsert_of_fits config state.now id state.store _ _ fits
  have inStore : ∀ victim entry, (victim, entry) ∈ shard id.shardIndex state.store →
      state.store.get victim = some entry :=
    fun victim entry member => roomy.distinct.get_of_mem (mem_shard.mp member).1
  refine ⟨?_, ?_, ?_, ?_⟩
  · intro own different
    have other : id ≠ own := Ne.symm different
    simp only [perform, accepted]
    rw [Dictionary.get_set_of_ne _ _ other]
    unfold evict
    cases evicted config id state.store with
    | none => rfl
    | some victim => simp only [Dictionary.get_erase, Option.some.injEq]
  · constructor
    · intro given
      obtain ⟨victim, isVictim⟩ := Option.isSome_iff_exists.mp given
      obtain ⟨⟨absent, full⟩, -⟩ := evicted_spec isVictim
      exact ⟨congrArg Prod.fst accepted, absent, full⟩
    · rintro ⟨-, absent, full⟩
      exact evicted_isSome positive absent full
  · intro victim isVictim
    obtain ⟨⟨absent, -⟩, entry, member, -⟩ := evicted_spec isVictim
    have stored := inStore victim entry member
    refine ⟨by rw [stored]; rfl, ?_, (mem_shard.mp member).2⟩
    rintro rfl
    rw [absent] at stored
    cases stored
  · intro victim isVictim other present sameShard
    obtain ⟨-, entry, member, oldest⟩ := evicted_spec isVictim
    obtain ⟨stored, found⟩ := Option.isSome_iff_exists.mp present
    have least := oldest (other, stored)
      (mem_shard.mpr ⟨Dictionary.mem_of_get found, sameShard⟩)
    rw [← roomy.used victim entry (inStore victim entry member), ← roomy.used other stored found]
    exact least

/-- In a roomy store every call gives up what it should. -/
theorem givesUpOldest_of_roomy
    (positive : 1 ≤ config.maxPerShard)
    (roomy : state.Roomy config)
    (call : StoreCall) :
    ∃ victim, GivesUpOldest config state call victim := by
  cases call with
  | get id =>
      exact ⟨none, givesUpOldest_of_none (fun own different =>
        get_storeGet_of_ne (Ne.symm different)) fun needs => needs⟩
  | upsert id mutations deletedKeys =>
      rcases Nat.lt_or_ge config.maxDataSize
        (projectedDataSize (dataOf id state.store) mutations.entries deletedKeys) with large | fits
      · refine ⟨none, givesUpOldest_of_none (fun own _ => ?_) (not_needsRoom_of_refused large)⟩
        simp only [perform, upsert_of_not_fits large]
      · exact ⟨_, givesUpOldest_upsert positive roomy fits⟩
  | destroy id =>
      exact ⟨none, givesUpOldest_of_none (fun own different =>
        get_storeDestroy (Ne.symm different)) fun needs => needs⟩

end Victims

/-! ## When the limit holds -/

/-- The limits of the shards are within the limit on all sessions when there is at
least one session for each shard. -/
theorem sessionCount_le
    {config : StoreConfig} {state : StoreState}
    (roomy : state.Roomy config) :
    sessionCount state.store ≤ shardCount * config.maxPerShard := by
  have each : ∀ length ∈ (List.range shardCount).map fun index =>
      (shard index state.store).length, length ≤ config.maxPerShard := by
    intro length member
    obtain ⟨index, -, rfl⟩ := List.mem_map.mp member
    exact roomy.shards index
  have bound := List.sum_le_card_nsmul _ _ each
  rwa [List.length_map, List.length_range, Nat.nsmul_eq_mul] at bound

/-- A session of the shard with the index. -/
def sessionIn (index : Nat) : SessionId where
  octets := UInt8.ofNat index :: List.replicate 15 0
  sixteen := by simp [sessionIdBytes]

theorem shardIndex_sessionIn
    {index : Nat}
    (small : index < shardCount) :
    (sessionIn index).shardIndex = index := by
  rw [shardCount] at small
  have octet : (UInt8.ofNat index).toNat = index := by
    rw [UInt8.toNat_ofNat']
    omega
  have first : (sessionIn index).octets.headD 0 = UInt8.ofNat index := rfl
  rw [SessionId.shardIndex, first, octet, shardCount, Nat.mod_eq_of_lt small]

def noData : DataMap where
  entries := []
  distinct := List.nodup_nil

theorem fits_noData
    {config : StoreConfig} {store : SessionMap}
    (fit : EntriesFit config store)
    (id : SessionId) :
    projectedDataSize (dataOf id store) noData.entries [] ≤ config.maxDataSize := by
  rw [projectedDataSize_eq noData.distinct (fit.distinct_dataOf id)]
  change dataSize (dataOf id store) ≤ config.maxDataSize
  unfold dataOf
  cases found : store.get id with
  | none => exact Nat.zero_le _
  | some entry => exact (fit _ (Dictionary.mem_of_get found)).2

/-- There are runs with a session in each of the first shards. -/
theorem exists_spread
    (config : StoreConfig)
    {count : Nat}
    (small : count ≤ shardCount) :
    ∃ state, (storeMachine config).Reaches state ∧
      ∀ index < count, (state.store.get (sessionIn index)).isSome = true := by
  induction count with
  | zero => exact ⟨_, .start, by simp⟩
  | succ count hypothesis =>
      obtain ⟨state, reaches, present⟩ := hypothesis (Nat.le_of_succ_le small)
      have stepEq : (storeMachine config).step state
          (.call (.upsert (sessionIn count) noData [])) = some _ := rfl
      refine ⟨_, .step reaches trivial stepEq, ?_⟩
      intro index within
      have fits := fits_noData (fits_of_reaches reaches) (sessionIn count)
      rcases Nat.lt_succ_iff_lt_or_eq.mp within with earlier | rfl
      · have inShard := shardIndex_sessionIn small
        have otherShard := shardIndex_sessionIn (Nat.lt_trans earlier small)
        have kept : evicted config (sessionIn count) state.store ≠ some (sessionIn index) := by
          intro isVictim
          obtain ⟨-, entry, member, -⟩ := evicted_spec isVictim
          have same := (mem_shard.mp member).2
          rw [inShard, otherShard] at same
          exact Nat.ne_of_lt earlier same
        have other : sessionIn count ≠ sessionIn index := by
          intro same
          rw [same, otherShard] at inShard
          exact Nat.ne_of_lt earlier inShard
        simp only [perform]
        rw [get_upsert_of_ne other kept]
        exact present index earlier
      · simp only [perform]
        rw [get_upsert_self fits]
        rfl

theorem count_le_sessionCount
    {store : SessionMap} {count : Nat}
    (small : count ≤ shardCount)
    (present : ∀ index < count, (store.get (sessionIn index)).isSome = true) :
    count ≤ sessionCount store := by
  have each : ∀ length ∈ (List.range count).map fun index => (shard index store).length,
      1 ≤ length := by
    intro length member
    obtain ⟨index, inRange, rfl⟩ := List.mem_map.mp member
    have within := List.mem_range.mp inRange
    obtain ⟨entry, found⟩ := Option.isSome_iff_exists.mp (present index within)
    refine List.length_pos_of_mem (mem_shard.mpr ⟨Dictionary.mem_of_get found, ?_⟩)
    exact shardIndex_sessionIn (Nat.lt_of_lt_of_le within small)
  have bound := List.card_nsmul_le_sum _ _ each
  rw [List.length_map, List.length_range, Nat.nsmul_eq_mul, Nat.mul_one] at bound
  have front : (List.range count).Sublist (List.range shardCount) :=
    List.range_sublist.mpr small
  exact Nat.le_trans bound
    (List.Sublist.sum_le_sum (front.map _) fun length _ => Nat.zero_le length)

/-- Every run keeps the limit on all sessions, and gives up what it should, exactly
when the limit allows a session for each shard. -/
theorem bounded_iff
    (maxAge maxSessions maxDataSize : Nat) :
    (∀ state, (storeMachine (.new maxAge maxSessions maxDataSize)).Reaches state →
      state.Bounded (.new maxAge maxSessions maxDataSize) maxSessions) ↔
    shardCount ≤ maxSessions := by
  have positive : 1 ≤ (StoreConfig.new maxAge maxSessions maxDataSize).maxPerShard :=
    Nat.le_max_right _ _
  constructor
  · intro bounded
    by_contra few
    have small : maxSessions + 1 ≤ shardCount := Nat.not_le.mp few
    obtain ⟨state, reaches, present⟩ :=
      exists_spread (.new maxAge maxSessions maxDataSize) small
    have many := count_le_sessionCount small present
    exact absurd (bounded state reaches).1 (Nat.not_le.mpr many)
  · intro enough state reaches
    have roomy := roomy_of_reaches positive reaches
    refine ⟨?_, givesUpOldest_of_roomy positive roomy⟩
    have share : (StoreConfig.new maxAge maxSessions maxDataSize).maxPerShard =
        maxSessions / shardCount :=
      Nat.max_eq_left (Nat.div_pos enough (by decide))
    calc sessionCount state.store
        ≤ shardCount * (StoreConfig.new maxAge maxSessions maxDataSize).maxPerShard :=
          sessionCount_le roomy
      _ = shardCount * (maxSessions / shardCount) := by rw [share]
      _ ≤ maxSessions := Nat.mul_div_le _ _

/-- Two sessions in different shards, and a limit of one. -/
theorem not_bounded :
    ¬ ∀ (maxAge maxSessions maxDataSize : Nat), 1 ≤ maxSessions →
      ∀ state, (storeMachine (.new maxAge maxSessions maxDataSize)).Reaches state →
        state.Bounded (.new maxAge maxSessions maxDataSize) maxSessions := by
  intro all
  have run : ((storeMachine (.new 60 1 8)).runFrom (fun _ _ => True)
      (storeMachine (.new 60 1 8)).start
      [.call (.upsert (sessionIn 0) noData []), .call (.upsert (sessionIn 1) noData [])]).map
        (fun state => sessionCount state.store) = some 2 := by
    rfl
  obtain ⟨state, runEq, count⟩ := Option.map_eq_some_iff.mp run
  have bounded := (all 60 1 8 (Nat.le_refl 1) state (Machine.reachesUnder_of_run _ runEq)).1
  rw [count] at bounded
  exact absurd bounded (by decide)

end Session
end HttpNative
