import HttpNative.Session.ClientSession

/-!
# What a client gets back

A value that a client stores is returned to it in every run in which values are
stored under the cookie of the request: the request carries a valid cookie, the
route hands the `Cookie` header to the middleware, and the value fits. On a
first visit the two sides make up different ids.
-/

namespace HttpNative
namespace Session

open Bridge (AccessPlan RouteRequest reqHeader reqHeaders lastHeader)

variable {config : SessionConfig}

/-! ## Steps that keep the session -/

/-- The route hands the `Cookie` header over. -/
def handsCookie (plan : AccessPlan) : Prop :=
  plan.fullHeaders = true ∨ text "cookie" ∈ plan.headerKeys

instance (plan : AccessPlan) : Decidable (handsCookie plan) :=
  inferInstanceAs (Decidable (_ ∨ _))

/-- The data of the session whose cookie the client has. -/
def ClientState.ownData (state : ClientState) : Dictionary Text Octets :=
  ((state.cookie.bind fun own => state.store.get own).map SessionEntry.data).getD []

/-- A value is stored under a valid cookie that the middleware sees, and fits;
with such a cookie the middleware sees it in every use of the session; and no
other visitor has this session or drives it out of the store. -/
def KeepsSession (config : SessionConfig) (state : ClientState) (event : ClientEvent) : Prop :=
  match event, state.active with
  | .visitor id operation, _ =>
      state.cookie ≠ some id ∧
        match operation with
        | .upsert _ _ => state.cookie = none ∨ evicted config.store id state.store ≠ state.cookie
        | _ => True
  | .get _, some request =>
      (validCookie config request.cookieHeader).isSome → handsCookie request.plan
  | .set key value, some request =>
      (validCookie config request.cookieHeader).isSome ∧ handsCookie request.plan ∧
        projectedDataSize state.ownData [(key, Utf8.encode (stringify value))] [] ≤
          config.store.maxDataSize
  | .delete key, some request =>
      (validCookie config request.cookieHeader).isSome → handsCookie request.plan ∧
        projectedDataSize state.ownData [] [key] ≤ config.store.maxDataSize
  | _, _ => True

instance (state : ClientState) (event : ClientEvent) :
    Decidable (KeepsSession config state event) := by
  unfold KeepsSession
  split
  · rename_i operation
    cases operation <;> infer_instance
  all_goals infer_instance

/-- What a client is promised: stored values come back, and the middleware works
on the session of the cookie. -/
structure SessionKept (config : SessionConfig) (state : ClientState) : Prop where
  returns : ReturnsStored config.store.maxAge state.history
  sameId : ∀ request id, state.active = some request →
    validCookie config request.cookieHeader = some id → handsCookie request.plan →
    request.sessionId = hexEncodeId request.nativeId

/-! ## The two sides agree on a valid cookie -/

theorem ne_nil_renderCookies
    (before after : List Cookie)
    (own : Cookie) :
    ∃ first rest, renderCookies (before ++ own :: after) = first :: rest ∧
      isCookieNameChar first = true := by
  have starts : ∀ (cookie : Cookie) (others : List Cookie),
      ∃ first rest, renderCookies (cookie :: others) = first :: rest ∧
        isCookieNameChar first = true := by
    intro cookie others
    obtain ⟨first, rest, name⟩ := List.exists_cons_of_ne_nil cookie.named
    have nameChar := cookie.nameChars first (by simp [name])
    cases others with
    | nil => exact ⟨first, rest ++ '=' :: cookie.value, by simp [renderCookies, Cookie.spelling, name], nameChar⟩
    | cons next others =>
        exact ⟨first, _, by
          rw [renderCookies, Cookie.spelling, name]
          · rfl
          · simp, nameChar⟩
  cases before with
  | nil => exact starts own after
  | cons cookie others => exact starts cookie (others ++ own :: after)

/-- The native layer verifies the cookie that it sent. -/
theorem validCookie_renderCookies
    {before after : List Cookie} {own : SessionId}
    (others : ∀ cookie ∈ before, cookie.name ≠ config.cookieName) :
    validCookie config (some (renderCookies (before ++ echoedCookie config own :: after))) =
      some own := by
  have extracted : extractCookieValue config.cookieName
      (renderCookies (before ++ echoedCookie config own :: after)) =
        some (buildCookieValue config.signer own) :=
    @extractCookieValue_renderCookies before after (echoedCookie config own)
      (isSignedText_buildCookieValue config.signer own) others
  rw [validCookie, Option.bind_some, extracted, Option.bind_some, verifyCookie_buildCookieValue]

/-- The middleware reads the header that the client sent. -/
theorem cookieHeaderOf_eq
    {paramNames : List Text} {plan : AccessPlan} {request : RouteRequest paramNames}
    {before after : List Cookie} {own : Cookie}
    (hands : handsCookie plan)
    (sent : lastHeader request (text "cookie") = some (renderCookies (before ++ own :: after))) :
    cookieHeaderOf plan request = renderCookies (before ++ own :: after) := by
  obtain ⟨first, rest, spelled, nameChar⟩ := ne_nil_renderCookies before after own
  have lower : Bridge.toLowerCase (text "cookie") = text "cookie" := by decide
  have safe : Bridge.isDangerousKey (text "cookie") = false := by decide
  have notMark : first ≠ Bridge.byteOrderMark := by
    rintro rfl
    exact absurd nameChar (by decide)
  have handed : plan.fullHeaders = true ∨ Bridge.toLowerCase (text "cookie") ∈ plan.headerKeys := by
    rwa [lower]
  have read := Bridge.get_reqHeader handed request
  rw [lower, if_neg (by simp [safe]), sent, Option.map_some, spelled, Bridge.textDecode,
    if_neg notMark] at read
  rw [cookieHeaderOf, read, spelled, Option.filter_some, if_pos (by simp)]

/-- The middleware resolves the session of the cookie. -/
theorem resolveSessionId_renderCookies
    {before after : List Cookie} {own : SessionId}
    (others : ∀ cookie ∈ before, cookie.name ≠ config.cookieName)
    (newId : SessionId) :
    resolveSessionId config (renderCookies (before ++ echoedCookie config own :: after)) newId =
      hexEncodeId own := by
  have signed := isSignedText_buildCookieValue config.signer own
  have found : cookieValueOf config.cookieName
      (renderCookies (before ++ echoedCookie config own :: after)) =
        some (buildCookieValue config.signer own) :=
    @cookieValueOf_renderCookies before after (echoedCookie config own) signed others
  rw [resolveSessionId, found, Option.filter_some, if_pos (by simp [signed.1])]
  simp only [verifyCookie_buildCookieValue]

/-! ## Values that are still promised -/

section Promises

variable {maxAge : Nat} {history : List SessionOperation} {key : Text} {value : Json}

theorem live_eq_some
    {expected : Expected}
    (promised : expected.live maxAge key = some value) :
    expected.idle < maxAge ∧ expected.values key = some value := by
  unfold Expected.live at promised
  split at promised
  case isTrue fresh => exact ⟨fresh, promised⟩
  case isFalse => cases promised

theorem lastStored_stored
    {stored : Text} {newValue : Json}
    (promised : lastStored maxAge (.stored stored newValue :: history) key = some value) :
    (key = stored ∧ newValue = value) ∨ (key ≠ stored ∧ lastStored maxAge history key = some value) := by
  have current := (live_eq_some promised).2
  simp only [expectedAfter] at current
  split at current
  case isTrue same =>
      cases current
      exact .inl ⟨same, rfl⟩
  case isFalse other => exact .inr ⟨other, current⟩

theorem lastStored_removed
    {removed : Text}
    (promised : lastStored maxAge (.removed removed :: history) key = some value) :
    key ≠ removed ∧ lastStored maxAge history key = some value := by
  have current := (live_eq_some promised).2
  simp only [expectedAfter] at current
  split at current
  case isTrue => cases current
  case isFalse other => exact ⟨other, current⟩

theorem lastStored_destroyed :
    lastStored maxAge (.destroyed :: history) key = none := by
  cases promised : lastStored maxAge (.destroyed :: history) key with
  | none => rfl
  | some value =>
      have current := (live_eq_some promised).2
      cases current

theorem lastStored_returned
    {read : Text} {result : Option Json}
    (promised : lastStored maxAge (.returned read result :: history) key = some value) :
    lastStored maxAge history key = some value :=
  (live_eq_some promised).2

theorem lastStored_passed
    {seconds : Nat}
    (promised : lastStored maxAge (.passed seconds :: history) key = some value) :
    lastStored maxAge history key = some value := by
  obtain ⟨fresh, current⟩ := live_eq_some promised
  simp only [expectedAfter] at fresh current
  rw [lastStored, Expected.live, if_pos (by omega)]
  exact current

/-- Where nothing is promised, nothing is promised later. -/
theorem lastStored_eq_none
    {later : List SessionOperation}
    (earlier : ∀ value, lastStored maxAge later key = some value →
      lastStored maxAge history key = some value)
    (gone : lastStored maxAge history key = none) :
    lastStored maxAge later key = none := by
  cases promised : lastStored maxAge later key with
  | none => rfl
  | some value =>
      rw [earlier value promised] at gone
      cases gone

end Promises

/-! ## The invariant -/

/-- The values that are promised are in the store, under the session whose
cookie the client has, and expire no earlier than promised. -/
def Holds (config : SessionConfig) (state : ClientState) : Prop :=
  ∀ key value, lastStored config.store.maxAge state.history key = some value →
    ∃ own entry, state.cookie = some own ∧ state.store.get own = some entry ∧
      entry.data.get key = some (Utf8.encode (stringify value)) ∧
      entry.expiresAt + (expectedAfter config.store.maxAge state.history).idle =
        state.now + config.store.maxAge

/-- The request that is handled was resolved to the session of the client. -/
def Resolved (config : SessionConfig) (state : ClientState) : Prop :=
  ∀ request, state.active = some request →
    validCookie config request.cookieHeader = state.cookie ∧
      (∀ own, state.cookie = some own → request.isNew = false ∧ request.nativeId = own ∧
        (handsCookie request.plan → request.sessionId = hexEncodeId own)) ∧
      (request.destroyed = true →
        ∀ key, lastStored config.store.maxAge state.history key = none)

theorem resolved_begin
    {state : ClientState} {plan : AccessPlan} {paramNames : List Text}
    {request : RouteRequest paramNames} {before after : List Cookie}
    {nativeId middlewareId : SessionId}
    (sent : sends config state.cookie before after (lastHeader request (text "cookie")) = true) :
    Resolved config { state with
      active := some (beginRequest config plan request nativeId middlewareId) } := by
  intro current active
  cases active
  cases cookie : state.cookie with
  | none =>
      rw [cookie, sends, Option.isNone_iff_eq_none] at sent
      refine ⟨sent, ?_, ?_⟩
      · intro own same
        cases same
      · intro destroyed
        cases destroyed
  | some own =>
      rw [cookie, sends, Bool.and_eq_true, decide_eq_true_eq, List.all_eq_true] at sent
      obtain ⟨header, others⟩ := sent
      have distinct : ∀ cookie ∈ before, cookie.name ≠ config.cookieName := by
        intro other member
        have different := others other (List.mem_append.mpr (.inl member))
        simpa using different
      have valid : validCookie config
          (some (renderCookies (before ++ echoedCookie config own :: after))) = some own :=
        validCookie_renderCookies distinct
      rw [← header] at valid
      refine ⟨valid, ?_, ?_⟩
      · intro other same
        cases same
        refine ⟨?_, ?_, ?_⟩
        · simp only [beginRequest, resolveSession, valid]
        · simp only [beginRequest, resolveSession, valid]
        · intro hands
          change resolveSessionId config (cookieHeaderOf plan request) middlewareId = _
          have read : cookieHeaderOf plan request = _ := cookieHeaderOf_eq hands header
          rw [read]
          exact resolveSessionId_renderCookies distinct middlewareId
      · intro destroyed
        cases destroyed

/-- A promised value is read from the session, which is in use again. -/
theorem memoryGet_of_holds
    {state : ClientState} {own : SessionId} {entry : SessionEntry} {key : Text} {value : Json}
    (stored : state.store.get own = some entry)
    (written : entry.data.get key = some (Utf8.encode (stringify value)))
    (fresh : state.now < entry.expiresAt) :
    (memoryGet config state.now (hexEncodeId own) key state.store).1 = some value := by
  rw [memoryGet, hexDecodeId_hexEncodeId]
  simp only [storeGet, stored, if_neg (Nat.not_le.mpr fresh), Option.bind_some,
    SessionEntry.touch, written, Utf8.decode_encode, Option.map_some, stringify,
    Json.parse_render, Option.getD_some]

theorem get_memoryGet_store
    {state : ClientState} {own : SessionId} {entry : SessionEntry} {key : Text}
    (stored : state.store.get own = some entry)
    (fresh : state.now < entry.expiresAt) :
    (memoryGet config state.now (hexEncodeId own) key state.store).2.get own =
      some (entry.touch config.store state.now) := by
  rw [memoryGet, hexDecodeId_hexEncodeId]
  simp only [storeGet, stored, if_neg (Nat.not_le.mpr fresh), Dictionary.get_set_self]

theorem ownData_of_cookie
    {state : ClientState} {own : SessionId}
    (cookie : state.cookie = some own) :
    state.ownData = ((state.store.get own).map SessionEntry.data).getD [] := by
  rw [ClientState.ownData, cookie, Option.bind_some]

/-! ## One step -/

/-- The invariant of a run. -/
structure Sound (config : SessionConfig) (state : ClientState) : Prop where
  holds : Holds config state
  resolved : Resolved config state
  returns : ReturnsStored config.store.maxAge state.history

section Steps

variable {state : ClientState} {request : ActiveRequest}

theorem sound_pass
    (sound : Sound config state)
    (seconds : Nat) :
    Sound config { state with
      now := state.now + seconds
      history := .passed seconds :: state.history } := by
  refine ⟨?_, ?_, ⟨sound.returns, trivial⟩⟩
  · intro key value promised
    obtain ⟨own, entry, cookie, stored, written, expiry⟩ :=
      sound.holds key value (lastStored_passed promised)
    refine ⟨own, entry, cookie, stored, written, ?_⟩
    simp only [expectedAfter]
    omega
  · intro current active
    obtain ⟨valid, agreed, gone⟩ := sound.resolved current active
    refine ⟨valid, agreed, ?_⟩
    intro destroyed key
    exact lastStored_eq_none (fun _ => lastStored_passed) (gone destroyed key)

/-- A change of the store that leaves the session of the client alone. -/
theorem sound_store
    (sound : Sound config state)
    {store : SessionMap}
    (same : ∀ own, state.cookie = some own → store.get own = state.store.get own) :
    Sound config { state with store := store } := by
  refine ⟨?_, sound.resolved, sound.returns⟩
  intro key value promised
  obtain ⟨own, entry, cookie, stored, others⟩ := sound.holds key value promised
  refine ⟨own, entry, cookie, ?_, others⟩
  change store.get own = some entry
  rw [same own cookie, stored]

theorem sound_visit
    (sound : Sound config state)
    {id : SessionId} {operation : StoreOperation}
    (keeps : KeepsSession config state (.visitor id operation)) :
    Sound config (state.visit config id operation) := by
  obtain ⟨notOwn, room⟩ := keeps
  have other : ∀ own, state.cookie = some own → id ≠ own := by
    rintro own cookie rfl
    exact notOwn cookie
  cases operation with
  | get => exact sound_store sound fun own cookie => get_storeGet_of_ne (other own cookie)
  | upsert mutations deletedKeys =>
      refine sound_store sound fun own cookie => get_upsert_of_ne (other own cookie) ?_
      rw [cookie] at room
      simpa using room
  | destroy => exact sound_store sound fun own cookie => get_storeDestroy (other own cookie)

/-- The session of a request with a cookie that the middleware sees. -/
theorem sessionId_of_cookie
    (sound : Sound config state)
    (active : state.active = some request)
    (hands : (validCookie config request.cookieHeader).isSome → handsCookie request.plan)
    {own : SessionId}
    (cookie : state.cookie = some own) :
    request.sessionId = hexEncodeId own := by
  obtain ⟨valid, agreed, _⟩ := sound.resolved request active
  apply (agreed own cookie).2.2
  apply hands
  rw [valid, cookie]
  rfl

theorem sound_get
    (sound : Sound config state)
    (active : state.active = some request)
    {key : Text}
    (hands : (validCookie config request.cookieHeader).isSome → handsCookie request.plan) :
    Sound config (state.get config request key) := by
  obtain ⟨valid, agreed, gone⟩ := sound.resolved request active
  unfold ClientState.get
  split
  case isTrue destroyed =>
      refine ⟨?_, ?_, ⟨sound.returns, ?_⟩⟩
      · intro other value promised
        have earlier := lastStored_returned promised
        rw [gone destroyed other] at earlier
        cases earlier
      · intro current active'
        rw [active] at active'
        cases active'
        refine ⟨valid, agreed, ?_⟩
        intro _ other
        exact lastStored_eq_none (fun _ => lastStored_returned) (gone destroyed other)
      · intro value promised
        rw [gone destroyed key] at promised
        cases promised
  case isFalse alive =>
      have present : ∀ other value, lastStored config.store.maxAge state.history other = some value →
          ∃ own entry, state.cookie = some own ∧ request.sessionId = hexEncodeId own ∧
            state.store.get own = some entry ∧
            entry.data.get other = some (Utf8.encode (stringify value)) ∧
            state.now < entry.expiresAt := by
        intro other value promised
        obtain ⟨own, entry, cookie, stored, written, expiry⟩ := sound.holds other value promised
        have fresh := (live_eq_some promised).1
        exact ⟨own, entry, cookie, sessionId_of_cookie sound active hands cookie, stored, written,
          by omega⟩
      refine ⟨?_, ?_, ⟨sound.returns, ?_⟩⟩
      · intro other value promised
        obtain ⟨own, entry, cookie, sessionId, stored, written, fresh⟩ :=
          present other value (lastStored_returned promised)
        refine ⟨own, entry.touch config.store state.now, cookie, ?_, written, rfl⟩
        simp only [sessionId]
        exact get_memoryGet_store stored fresh
      · intro current active'
        rw [active] at active'
        cases active'
        exact ⟨valid, agreed, fun destroyed => absurd destroyed alive⟩
      · intro value promised
        obtain ⟨own, entry, cookie, sessionId, stored, written, fresh⟩ := present key value promised
        rw [sessionId]
        exact memoryGet_of_holds stored written fresh

/-- A change of the session of the client that fits is made. -/
theorem get_memoryUpsert_own
    {own : SessionId}
    (cookie : state.cookie = some own)
    {mutations : Dictionary Text Octets} {deletedKeys : List Text}
    (fits : projectedDataSize state.ownData mutations deletedKeys ≤ config.store.maxDataSize) :
    (memoryUpsert config state.now (hexEncodeId own) mutations deletedKeys state.store).get own =
      some {
        data := applyChanges mutations deletedKeys state.ownData
        lastAccessed := state.now
        expiresAt := state.now + config.store.maxAge } := by
  rw [ownData_of_cookie cookie] at fits ⊢
  rw [memoryUpsert, hexDecodeId_hexEncodeId]
  exact get_upsert_self fits

/-- A value that is promised is part of the data of the session. -/
theorem get_ownData
    (sound : Sound config state)
    {key : Text} {value : Json}
    (promised : lastStored config.store.maxAge state.history key = some value) :
    (∃ own, state.cookie = some own) ∧
      state.ownData.get key = some (Utf8.encode (stringify value)) := by
  obtain ⟨own, entry, cookie, stored, written, _⟩ := sound.holds key value promised
  refine ⟨⟨own, cookie⟩, ?_⟩
  rw [ownData_of_cookie cookie, stored]
  exact written

theorem sound_set
    (sound : Sound config state)
    (active : state.active = some request)
    {key : Text} {value : Json}
    (keeps : KeepsSession config state (.set key value)) :
    Sound config (state.set config request key value) := by
  obtain ⟨valid, agreed, gone⟩ := sound.resolved request active
  simp only [KeepsSession, active] at keeps
  obtain ⟨hasCookie, hands, fits⟩ := keeps
  unfold ClientState.set
  split
  case isTrue => exact sound
  case isFalse alive =>
      obtain ⟨own, cookie⟩ : ∃ own, state.cookie = some own := by
        rw [valid] at hasCookie
        exact Option.isSome_iff_exists.mp hasCookie
      have entry := get_memoryUpsert_own cookie fits
      rw [← sessionId_of_cookie sound active (fun _ => hands) cookie] at entry
      refine ⟨?_, ?_, ⟨sound.returns, trivial⟩⟩
      · intro other stored promised
        refine ⟨own, _, cookie, entry, ?_, rfl⟩
        simp only [applyChanges, List.foldl_cons, List.foldl_nil]
        rcases lastStored_stored promised with ⟨rfl, rfl⟩ | ⟨different, earlier⟩
        · exact Dictionary.get_set_self _ _ _
        · rw [Dictionary.get_set_of_ne _ _ (Ne.symm different)]
          exact (get_ownData sound earlier).2
      · intro current active'
        rw [active] at active'
        cases active'
        exact ⟨valid, agreed, fun destroyed => absurd destroyed alive⟩

theorem sound_delete
    (sound : Sound config state)
    (active : state.active = some request)
    {key : Text}
    (keeps : KeepsSession config state (.delete key)) :
    Sound config (state.delete config request key) := by
  obtain ⟨valid, agreed, gone⟩ := sound.resolved request active
  simp only [KeepsSession, active] at keeps
  unfold ClientState.delete
  split
  case isTrue => exact sound
  case isFalse alive =>
      refine ⟨?_, ?_, ⟨sound.returns, trivial⟩⟩
      · intro other stored promised
        obtain ⟨different, earlier⟩ := lastStored_removed promised
        obtain ⟨⟨own, cookie⟩, written⟩ := get_ownData sound earlier
        have fits := (keeps (by rw [valid, cookie]; rfl)).2
        have entry := get_memoryUpsert_own cookie fits
        rw [← sessionId_of_cookie sound active (fun found => (keeps found).1) cookie] at entry
        refine ⟨own, _, cookie, entry, ?_, rfl⟩
        simp only [applyChanges, List.foldl_cons, List.foldl_nil]
        rw [Dictionary.get_erase, if_neg (Ne.symm different)]
        exact written
      · intro current active'
        rw [active] at active'
        cases active'
        exact ⟨valid, agreed, fun destroyed => absurd destroyed alive⟩

theorem sound_destroy
    (sound : Sound config state)
    (active : state.active = some request) :
    Sound config (state.destroy request) := by
  obtain ⟨valid, agreed, _⟩ := sound.resolved request active
  refine ⟨?_, ?_, ⟨sound.returns, trivial⟩⟩
  · intro key value promised
    rw [ClientState.destroy, lastStored_destroyed] at promised
    cases promised
  · intro current active'
    cases active'
    exact ⟨valid, agreed, fun _ key => lastStored_destroyed⟩

theorem sound_respond
    (sound : Sound config state)
    (active : state.active = some request)
    (carriesCookie : Bool) :
    Sound config (state.respond config request carriesCookie) := by
  obtain ⟨_, agreed, _⟩ := sound.resolved request active
  unfold ClientState.respond
  split
  case isTrue sent =>
      -- a new session: the client had no cookie, so nothing is promised
      rw [Bool.and_eq_true] at sent
      refine ⟨?_, fun _ active' => (by cases active'), sound.returns⟩
      intro key value promised
      obtain ⟨own, _, cookie, _⟩ := sound.holds key value promised
      have known := (agreed own cookie).1
      rw [sent.2] at known
      cases known
  case isFalse =>
      exact ⟨sound.holds, fun _ active' => (by cases active'), sound.returns⟩

end Steps

/-! ## Every run -/

theorem sound_start : Sound config (clientMachine config).start := by
  refine ⟨?_, fun _ active => (by cases active), trivial⟩
  intro key value promised
  have current := (live_eq_some promised).2
  cases current

theorem sound_step
    {state next : ClientState} {event : ClientEvent}
    (sound : Sound config state)
    (keeps : KeepsSession config state event)
    (stepEq : (clientMachine config).step state event = some next) :
    Sound config next := by
  simp only [clientMachine] at stepEq
  split at stepEq
  case h_1 seconds =>
      cases stepEq
      exact sound_pass sound seconds
  case h_2 =>
      cases stepEq
      exact sound_visit sound keeps
  case h_3 idle =>
      split at stepEq
      case isTrue sent =>
          cases stepEq
          exact ⟨sound.holds, resolved_begin sent, sound.returns⟩
      case isFalse => cases stepEq
  case h_4 active =>
      cases stepEq
      simp only [KeepsSession, active] at keeps
      exact sound_get sound active keeps
  case h_5 active =>
      cases stepEq
      exact sound_set sound active keeps
  case h_6 active =>
      cases stepEq
      exact sound_delete sound active keeps
  case h_7 active =>
      cases stepEq
      exact sound_destroy sound active
  case h_8 active =>
      cases stepEq
      exact sound_respond sound active _
  case h_9 => cases stepEq

/-- In every run that keeps to its session, every stored value comes back, and
the middleware works on the session of the cookie. -/
theorem sessionKept_of_reaches
    {state : ClientState}
    (reaches : (clientMachine config).ReachesUnder (KeepsSession config) state) :
    SessionKept config state := by
  have sound : Sound config state :=
    reaches.invariant sound_start fun _ _ _ sound keeps stepEq => sound_step sound keeps stepEq
  refine ⟨sound.returns, ?_⟩
  intro request id active valid hands
  obtain ⟨same, agreed, _⟩ := sound.resolved request active
  rw [valid] at same
  obtain ⟨_, native, session⟩ := agreed id same.symm
  rw [session hands, native]

/-! ## A first visit -/

def exampleId (octet : UInt8) : SessionId where
  octets := List.replicate sessionIdBytes octet
  sixteen := List.length_replicate

/-- The defaults of the middleware, with a mac in place of the real one. -/
def exampleConfig : SessionConfig where
  signer := {
    mac := fun octets => (octets ++ List.replicate 32 0).take 32
    length_mac := by
      intro octets
      rw [List.length_take, List.length_append, List.length_replicate]
      simp only [hmacHexLen]
      omega }
  cookieName := text "sid"
  named := by decide
  nameChars := by decide
  store := { maxAge := 3600, maxPerShard := 1562, maxDataSize := 4096 }

def headersPlan : AccessPlan where
  fullParams := false
  paramKeys := []
  fullQuery := false
  queryKeys := []
  fullHeaders := false
  headerKeys := [text "cookie"]

def requestWith (headers : List (Text × Text))
    (ascii : ∀ header ∈ headers, Bridge.IsAscii header.1) : RouteRequest [] where
  url := text "/"
  headers := headers
  headerNames_ascii := ascii
  paramValues := []
  paramValues_length := rfl

def echoedHeader : Text :=
  renderCookies [echoedCookie exampleConfig (exampleId 1)]

theorem noHeaders_ascii :
    ∀ header ∈ ([] : List (Text × Text)), Bridge.IsAscii header.1 := by
  intro header member
  cases member

/-- A request without a cookie, and one with the cookie of the first response. -/
def firstVisit : ClientEvent :=
  .begin headersPlan [] (requestWith [] noHeaders_ascii) [] [] (exampleId 1) (exampleId 2)

def secondVisit : ClientEvent :=
  .begin headersPlan [] (requestWith [(text "Cookie", echoedHeader)] (by decide)) [] []
    (exampleId 3) (exampleId 4)

def visitedState : ClientState where
  store := [(exampleId 1, { data := [(text "user", octets "true")], lastAccessed := 0, expiresAt := 3600 })]
  now := 0
  cookie := some (exampleId 1)
  active := none
  history := [.returned (text "user") (some (.bool true)), .stored (text "user") (.bool true)]

/-- A value that is stored on the second visit comes back on the third. -/
theorem sessionKept_of_reaches_thirdVisit :
    SessionKept exampleConfig visitedState :=
  sessionKept_of_reaches (Machine.reachesUnder_of_run
    [firstVisit, .respond true, secondVisit, .set (text "user") (.bool true), .respond true,
      secondVisit, .get (text "user"), .respond true] (by rfl))

/-- A value that is stored on the first visit is lost: it is stored under the id
of the middleware, and the client is sent the cookie of the native layer. -/
theorem not_sessionKept_of_firstVisit :
    ¬ ∀ (config : SessionConfig) (state : ClientState),
      (clientMachine config).Reaches state → SessionKept config state := by
  intro everywhere
  have run : ((clientMachine exampleConfig).runFrom (fun _ _ => True)
      (clientMachine exampleConfig).start
      [firstVisit, .set (text "user") (.bool true), .respond true, secondVisit,
        .get (text "user")]).map ClientState.history =
      some [.returned (text "user") none, .stored (text "user") (.bool true)] := by
    rfl
  obtain ⟨state, runEq, history⟩ := Option.map_eq_some_iff.mp run
  have returns := (everywhere exampleConfig state (Machine.reachesUnder_of_run _ runEq)).returns
  rw [history] at returns
  have lost := returns.2 (.bool true) rfl
  cases lost

end Session
end HttpNative
