import HttpNative.Session.StoreCalls

/-!
# Expired data

What a session holds is readable until it has not been used for a while, or is
destroyed. A lookup takes an expired session out of the store; an upsert does
not look at the expiry, and revives what it does not delete or overwrite.
-/

namespace HttpNative
namespace Session

/-! ## The life of a session -/

/-- What was written to a session since it began, and when it expires. -/
structure Life where
  written : List (Text × Octets)
  deadline : Nat

/-- What may be read of a session. -/
def Life.current (life : Life) (now : Nat) : List (Text × Octets) :=
  if now < life.deadline then life.written else []

/-- The life of a session after some calls, the last of them first. It is used
by lookups that find it and by accepted upserts; after its expiry or its
destruction an upsert begins a new one. -/
def lifeAfter (maxAge : Nat) (id : SessionId) : List StoreRecord → Life
  | [] => { written := [], deadline := 0 }
  | record :: earlier =>
      let before := lifeAfter maxAge id earlier
      match record.call, record.result with
      | .get other, .entry (some _) =>
          if other = id then
            { written := before.current record.time, deadline := record.time + maxAge }
          else
            before
      | .upsert other mutations _, .changed true =>
          if other = id then
            { written := before.current record.time ++ mutations.entries
              deadline := record.time + maxAge }
          else
            before
      | .destroy other, _ =>
          if other = id then { written := [], deadline := 0 } else before
      | _, _ => before

/-- Every lookup finds nothing, or only what was written in the present life of
the session. -/
def ReadsLive (maxAge : Nat) : List StoreRecord → Prop
  | [] => True
  | record :: earlier =>
      ReadsLive maxAge earlier ∧
        match record.call, record.result with
        | .get id, .entry (some entry) =>
            ∀ pair ∈ entry.data, pair ∈ (lifeAfter maxAge id earlier).current record.time
        | _, _ => True

/-! ## Steps that revive nothing -/

/-- An upsert that fits and finds an expired entry deletes or overwrites all of
its data. -/
def RevivesNothing (config : StoreConfig) (state : StoreState) : StoreEvent → Prop
  | .call (.upsert id mutations deletedKeys) =>
      config.maxDataSize <
        projectedDataSize (dataOf id state.store) mutations.entries deletedKeys ∨
      ∀ entry ∈ state.store.get id, entry.expiresAt ≤ state.now →
        ∀ pair ∈ entry.data, pair.1 ∈ deletedKeys ∨ (mutations.entries.get pair.1).isSome = true
  | _ => True

instance (config : StoreConfig) (state : StoreState) :
    (event : StoreEvent) → Decidable (RevivesNothing config state event)
  | .call (.upsert id mutations deletedKeys) =>
      inferInstanceAs (Decidable (config.maxDataSize <
          projectedDataSize (dataOf id state.store) mutations.entries deletedKeys ∨
        ∀ entry ∈ state.store.get id, entry.expiresAt ≤ state.now →
          ∀ pair ∈ entry.data,
            pair.1 ∈ deletedKeys ∨ (mutations.entries.get pair.1).isSome = true))
  | .call (.get _) => isTrue trivial
  | .call (.destroy _) => isTrue trivial
  | .pass _ => isTrue trivial

/-! ## The invariant -/

/-- An entry holds only what was written in the life of its session, and expires
with it. -/
structure EntryLive (life : Life) (entry : SessionEntry) : Prop where
  written : ∀ pair ∈ entry.data, pair ∈ life.written
  expiry : entry.expiresAt = life.deadline

/-- The invariant of a run. -/
structure StoreState.Live (config : StoreConfig) (state : StoreState) : Prop where
  entries : ∀ id entry, state.store.get id = some entry →
    EntryLive (lifeAfter config.maxAge id state.history) entry
  reads : ReadsLive config.maxAge state.history

section Steps

variable {config : StoreConfig} {state : StoreState}

theorem EntryLive.mem_current
    {life : Life} {entry : SessionEntry} {now : Nat}
    (live : EntryLive life entry)
    (fresh : now < entry.expiresAt)
    {pair : Text × Octets}
    (member : pair ∈ entry.data) :
    pair ∈ life.current now := by
  rw [Life.current, if_pos (live.expiry ▸ fresh)]
  exact live.written pair member

theorem live_get
    (live : state.Live config)
    (id : SessionId) :
    StoreState.Live config { state with
      store := (perform config state.now state.store (.get id)).2
      history := ⟨.get id, state.now, (perform config state.now state.store (.get id)).1⟩ ::
        state.history } := by
  have other : ∀ own entry, id ≠ own →
      (storeGet config state.now id state.store).2.get own = some entry →
      EntryLive (lifeAfter config.maxAge own state.history) entry := by
    intro own entry different found
    rw [get_storeGet_of_ne different] at found
    exact live.entries own entry found
  rcases storeGet_cases config state.now id state.store with
    ⟨-, unchanged⟩ | ⟨-, -, -, removed⟩ | ⟨entry, found, fresh, touched⟩
  · simp only [perform, unchanged]
    exact ⟨live.entries, live.reads, trivial⟩
  · simp only [perform, removed]
    refine ⟨?_, live.reads, trivial⟩
    intro reader stored storedEq
    rw [Dictionary.get_erase] at storedEq
    split at storedEq
    · cases storedEq
    · exact live.entries reader stored storedEq
  · have own := live.entries id entry found
    rw [touched] at other
    simp only [perform, touched]
    refine ⟨?_, live.reads, fun pair member => own.mem_current fresh member⟩
    intro reader stored storedEq
    by_cases same : id = reader
    · subst same
      rw [Dictionary.get_set_self] at storedEq
      cases storedEq
      simp only [lifeAfter, if_true]
      exact ⟨fun pair member => own.mem_current fresh member, rfl⟩
    · simp only [lifeAfter, if_neg same]
      exact other reader stored same storedEq

/-- What an upsert leaves of another session was there before. -/
theorem get_of_get_upsert
    {id own : SessionId} {mutations : Dictionary Text Octets} {deletedKeys : List Text}
    {store : SessionMap} {now : Nat} {entry : SessionEntry}
    (different : id ≠ own)
    (found : (upsert config now id mutations deletedKeys store).2.get own = some entry) :
    store.get own = some entry := by
  by_cases kept : evicted config id store = some own
  · unfold upsert at found
    simp only at found
    split at found
    · exact found
    · rw [Dictionary.get_set_of_ne _ _ different, evict, kept, Dictionary.get_erase,
        if_pos rfl] at found
      cases found
  · rwa [get_upsert_of_ne different kept] at found

/-- What an accepted upsert leaves of the session was written in its life. -/
theorem mem_written_of_upsert
    (live : state.Live config)
    (fits : state.Fits config)
    {id : SessionId} {mutations : DataMap} {deletedKeys : List Text}
    (revives : ∀ entry ∈ state.store.get id, entry.expiresAt ≤ state.now →
      ∀ pair ∈ entry.data, pair.1 ∈ deletedKeys ∨ (mutations.entries.get pair.1).isSome = true)
    {pair : Text × Octets}
    (member : pair ∈ applyChanges mutations.entries deletedKeys (dataOf id state.store)) :
    pair ∈ (lifeAfter config.maxAge id state.history).current state.now ++ mutations.entries := by
  have distinct := fits.distinct_dataOf id
  have stored := (distinct_applyChanges mutations.entries deletedKeys distinct).get_of_mem member
  rw [get_applyChanges mutations.distinct] at stored
  cases mutated : mutations.entries.get pair.1 with
  | some value =>
      rw [mutated, Option.some_or, Option.some.injEq] at stored
      subst stored
      exact List.mem_append_right _ (Dictionary.mem_of_get mutated)
  | none =>
      rw [mutated, Option.none_or] at stored
      split at stored
      · cases stored
      · rename_i notDeleted
        cases found : state.store.get id with
        | none =>
            rw [dataOf, found] at stored
            cases stored
        | some entry =>
            have inEntry : pair ∈ entry.data := by
              rw [dataOf, found] at stored
              exact Dictionary.mem_of_get stored
            have fresh : state.now < entry.expiresAt := by
              by_contra expired
              rcases revives entry found (Nat.not_lt.mp expired) pair inEntry with deleted | set
              · exact notDeleted deleted
              · rw [mutated] at set
                cases set
            exact List.mem_append_left _ ((live.entries id entry found).mem_current fresh inEntry)

theorem live_upsert
    (live : state.Live config)
    (fits : state.Fits config)
    {id : SessionId} {mutations : DataMap} {deletedKeys : List Text}
    (revives : RevivesNothing config state (.call (.upsert id mutations deletedKeys))) :
    StoreState.Live config { state with
      store := (perform config state.now state.store (.upsert id mutations deletedKeys)).2
      history := ⟨.upsert id mutations deletedKeys, state.now,
        (perform config state.now state.store (.upsert id mutations deletedKeys)).1⟩ ::
          state.history } := by
  rcases Nat.lt_or_ge config.maxDataSize
    (projectedDataSize (dataOf id state.store) mutations.entries deletedKeys) with large | small
  · simp only [perform, upsert_of_not_fits large]
    exact ⟨live.entries, live.reads, trivial⟩
  · have accepted := @upsert_of_fits config state.now id state.store _ _ small
    have keepsNothing := revives.resolve_left (Nat.not_lt.mpr small)
    refine ⟨?_, ?_⟩
    · intro reader stored storedEq
      by_cases same : id = reader
      · subst same
        simp only [perform, accepted, Dictionary.get_set_self, Option.some.injEq] at storedEq
        subst storedEq
        simp only [perform, accepted, lifeAfter, if_true]
        exact ⟨fun pair member => mem_written_of_upsert live fits keepsNothing member, rfl⟩
      · have before := live.entries reader stored (get_of_get_upsert same storedEq)
        simp only [perform, accepted, lifeAfter, if_neg same]
        exact before
    · exact ⟨live.reads, trivial⟩

theorem live_destroy
    (live : state.Live config)
    (id : SessionId) :
    StoreState.Live config { state with
      store := (perform config state.now state.store (.destroy id)).2
      history := ⟨.destroy id, state.now, (perform config state.now state.store (.destroy id)).1⟩ ::
        state.history } := by
  refine ⟨?_, live.reads, trivial⟩
  intro reader stored storedEq
  simp only [perform, storeDestroy, Dictionary.get_erase] at storedEq
  split at storedEq
  · cases storedEq
  · rename_i different
    simp only [lifeAfter, if_neg different]
    exact live.entries reader stored storedEq

end Steps

theorem live_step
    {config : StoreConfig} {state next : StoreState} {event : StoreEvent}
    (fits : state.Fits config)
    (live : state.Live config)
    (revives : RevivesNothing config state event)
    (stepEq : (storeMachine config).step state event = some next) :
    next.Live config := by
  cases event with
  | pass ticks =>
      cases stepEq
      exact ⟨live.entries, live.reads⟩
  | call call =>
      cases stepEq
      cases call with
      | get id => exact live_get live id
      | upsert id mutations deletedKeys => exact live_upsert live fits revives
      | destroy id => exact live_destroy live id

theorem live_start {config : StoreConfig} : (storeMachine config).start.Live config := by
  refine ⟨?_, trivial⟩
  intro id entry found
  cases found

/-- When no upsert revives the data of an expired session, expired data is never
read. -/
theorem readsLive_of_revivesNothing
    {config : StoreConfig} {state : StoreState}
    (reaches : (storeMachine config).ReachesUnder (RevivesNothing config) state) :
    ReadsLive config.maxAge state.history := by
  have live : state.Live config :=
    reaches.invariant_with (fun _ before => fits_of_reaches before.reaches) live_start
      fun _ _ _ fits live revives stepEq => live_step fits live revives stepEq
  exact live.reads

/-- A login is used for a minute, expires, and begins anew. -/
def renewedState : StoreState where
  store := [(loginId,
    { data := [(text "user", octets "bob")], lastAccessed := 120, expiresAt := 180 })]
  now := 120
  history :=
    [⟨.upsert loginId (userData "bob") [], 120, .changed true⟩,
      ⟨.get loginId, 59, .entry (some
        { data := [(text "user", octets "ann")], lastAccessed := 59, expiresAt := 119 })⟩,
      ⟨.upsert loginId (userData "ann") [], 0, .changed true⟩]

theorem readsLive_of_revivesNothing_renewed :
    ReadsLive smallStore.maxAge renewedState.history :=
  readsLive_of_revivesNothing (Machine.reachesUnder_of_run
    [.call (.upsert loginId (userData "ann") []), .pass 59, .call (.get loginId), .pass 61,
      .call (.upsert loginId (userData "bob") [])] (by rfl))

/-- A minute after a login something else is written, and the login is back. -/
theorem not_readsLive_of_revived :
    ¬ ∀ (config : StoreConfig) (state : StoreState),
      (storeMachine config).Reaches state → ReadsLive config.maxAge state.history := by
  intro everywhere
  have run : ((storeMachine smallStore).runFrom (fun _ _ => True) (storeMachine smallStore).start
      [.call (.upsert loginId (userData "ann") []), .pass 60,
        .call (.upsert loginId { entries := [], distinct := List.nodup_nil } []),
        .call (.get loginId)]).map StoreState.history =
      some [
        ⟨.get loginId, 60, .entry (some
          { data := [(text "user", octets "ann")], lastAccessed := 60, expiresAt := 120 })⟩,
        ⟨.upsert loginId { entries := [], distinct := List.nodup_nil } [], 60, .changed true⟩,
        ⟨.upsert loginId (userData "ann") [], 0, .changed true⟩] := by
    rfl
  obtain ⟨state, runEq, history⟩ := Option.map_eq_some_iff.mp run
  have reads := everywhere smallStore state (Machine.reachesUnder_of_run _ runEq)
  rw [history] at reads
  have readable := reads.2 (text "user", octets "ann") List.mem_cons_self
  exact absurd readable (by decide)

end Session
end HttpNative
