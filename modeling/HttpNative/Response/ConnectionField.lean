import HttpNative.Response.ConnectionAnswers
import HttpNative.Response.OwnFraming

/-!
# The connection field and the connection

A response says that the connection is kept just when the loop goes round again, on
every way of answering but one: what `res.ncache` has cached is sent in its close
variant to a request with a body.
-/

namespace HttpNative
namespace Response

open Envelope (AcceptedEncoding CompressionConfig Header applyCompression connectionValue)
open MessageHead
open Router (CacheEntry RouteCaches)

/-- The connection field of the response is that of the connection. -/
def Exchange.AnnouncesNext (exchange : Exchange) : Prop :=
  ∃ start lines rest, readLines [] exchange.response = some (start :: lines, rest) ∧
    valuesOf connection lines = [connectionValue exchange.readsOn]

/-! ## The condition -/

/-- None of the lines behind the connection field is such a field or continues it. -/
def LeavesConnection (lines : List Octets) : Prop :=
  (∀ line ∈ lines, isFieldNamed connection line = false) ∧
    ∀ octet ∈ continuation lines, isBlank octet = true

instance (lines : List Octets) : Decidable (LeavesConnection lines) :=
  inferInstanceAs (Decidable (_ ∧ _))

/-- The lines behind the connection field. -/
def ResponseForm.linesBehind (form : ResponseForm) : List Octets :=
  (form.serverFields.drop 2).map lineOf ++ spelledLines (form.headers ++ form.cookieFields)

/-- The lines behind the connection field of a stored response. -/
def storedLinesBehind (entry : CacheEntry) : List Octets :=
  ((readLines [] entry.responseBytes).map fun read => read.1.drop 3).getD []

/-- The form of a static response. -/
def staticRouteForm
    (config : Option CompressionConfig)
    (fixed : FixedResponse)
    (keepAlive : Bool)
    (encoding : AcceptedEncoding) :
    ResponseForm :=
  match precompressed config fixed encoding with
  | some body => compressedStaticForm fixed.status fixed.headers body keepAlive encoding
  | none => staticForm fixed.status fixed.headers fixed.body keepAlive

/-- No header that is passed on is read as a connection field or continues that of
the server. -/
def Answer.KeepsConnection
    (config : Option CompressionConfig)
    (incoming : Incoming) :
    Answer → Prop
  | .error _ _ => True
  | .static fixed =>
      LeavesConnection
        (staticRouteForm config fixed incoming.keepAlive incoming.encoding).linesBehind
  | .decided (.bridgeRequest _ _ _ _) =>
      LeavesConnection (dispatchForm incoming.dispatched incoming.keepAlive incoming.encoding
        config incoming.setCookie).linesBehind
  | .decided (.specializedResponse fixed) =>
      LeavesConnection (fastForm fixed.status fixed.headers fixed.body incoming.keepAlive
        incoming.encoding config).linesBehind
  | .decided (.cachedResponse entry _) => LeavesConnection (storedLinesBehind entry)

/-- A cached response is in the variant of the request. -/
def Answer.HasVariant (keepAlive : Bool) : Answer → Prop
  | .decided (.cachedResponse _ variant) => variant = keepAlive
  | _ => True

/-- The body of the request is read: it is within its limit and arrives. -/
structure Incoming.ReadsBody (incoming : Incoming) : Prop where
  uncoded : incoming.parsed.hasChunkedTe = false
  notUpgraded : incoming.isUpgraded = false
  hasBody : incoming.parsed.hasBody = true
  arrives : incoming.bodyArrives = true
  within : ∃ length ∈ incoming.parsed.contentLength,
    length ≤ incoming.lookups.bodyLimit.getD maxBodyBytes

/-- A request with a body keeps the connection, and its route, which has no response
cache of its own, has a live entry of `res.ncache`. -/
def Incoming.HitsNcache (incoming : Incoming) (caches : RouteCaches) : Prop :=
  incoming.keepAlive = true ∧ incoming.ReadsBody ∧ ∃ route ∈ incoming.lookups.matched,
    route.cacheConfig = none ∧
      (caches.lookup route.cacheNamespace route.ncacheKey incoming.now).2.isSome = true

/-- What `res.ncache` has cached is not sent to a kept request with a body, and no
header that is passed on gets in the way of the connection field. -/
def ConnectionRun.KeepsConnection
    (config : Option CompressionConfig)
    (run : ConnectionRun) :
    ConnectionEvent → Prop
  | .request _ incoming =>
      ¬ incoming.HitsNcache run.caches ∧
        ∀ answer ∈ (chooseAnswer run.caches incoming).2, answer.KeepsConnection config incoming
  | _ => True

/-! ## Forms with a connection field -/

/-- The connection field of a mode is the second field of the form, and the server's
own fields are read as they are. -/
structure ResponseForm.Connects (form : ResponseForm) (keepAlive : Bool) : Prop where
  second : ∃ first others, form.serverFields =
    first :: (connection, connectionValue keepAlive) :: others ∧
      IsToken first.1 ∧ Octets.eqIgnoreAsciiCase first.1 connection = false
  unbroken : ∀ header ∈ form.serverFields, hasLineBreak header = false

theorem connects_of_ownFields
    {form : ResponseForm} {length : Nat} {keepAlive : Bool} {others : List Header}
    (fields : form.serverFields = ownFields length keepAlive ++ others)
    (unbroken : ∀ header ∈ others, hasLineBreak header = false) :
    form.Connects keepAlive where
  second := by
    have different : Octets.eqIgnoreAsciiCase contentLength connection = false := by decide
    exact ⟨_, others, fields, tokens_ownFields.1, different⟩
  unbroken := by
    intro header member
    rw [fields] at member
    exact (List.mem_append.mp member).elim (unbroken_ownFields keepAlive) (unbroken header)

theorem connects_fastForm
    (status : Nat)
    (headers : List Header)
    (body : Octets)
    (keepAlive : Bool)
    (encoding : AcceptedEncoding)
    (compressionConfig : Option CompressionConfig) :
    (fastForm status headers body keepAlive encoding compressionConfig).Connects keepAlive :=
  connects_of_ownFields rfl fun _ member => unbroken_compressionFields member

theorem connects_errorForm
    (status : Nat)
    (body : Octets)
    (keepAlive : Bool) :
    (errorForm status body keepAlive).Connects keepAlive := by
  refine connects_of_ownFields rfl ?_
  intro header member
  rw [List.mem_singleton.mp member]
  decide

theorem connects_staticRouteForm
    (config : Option CompressionConfig)
    (fixed : FixedResponse)
    (keepAlive : Bool)
    (encoding : AcceptedEncoding) :
    (staticRouteForm config fixed keepAlive encoding).Connects keepAlive := by
  unfold staticRouteForm
  split
  · exact connects_of_ownFields rfl fun _ member => unbroken_compressionFields member
  · refine connects_of_ownFields (List.append_nil _).symm ?_
    simp

theorem connects_dispatchForm
    (dispatched : Option Octets)
    (keepAlive : Bool)
    (encoding : AcceptedEncoding)
    (compressionConfig : Option CompressionConfig)
    (setCookie : Option Octets) :
    (dispatchForm dispatched keepAlive encoding compressionConfig setCookie).Connects
      keepAlive := by
  unfold dispatchForm
  split
  · exact connects_errorForm _ _ _
  · split
    · exact ⟨⟨(transferEncoding, octets "chunked"), [], rfl, by decide, by decide⟩,
        fun header member => unbroken_streamFields keepAlive member⟩
    · split
      · rename_i status headers body _
        obtain ⟨second, unbroken⟩ :=
          connects_fastForm status headers body keepAlive encoding compressionConfig
        exact ⟨second, unbroken⟩
      · exact connects_errorForm _ _ _

/-- The lines of a response with a connection field. -/
theorem readLines_form
    {form : ResponseForm} {keepAlive : Bool}
    (connects : form.Connects keepAlive)
    (more : Octets) :
    ∃ first, isFieldNamed connection first = false ∧
      readLines [] (form.octets ++ more) =
        some (statusRow form.status :: first :: lineOf (connection, connectionValue keepAlive) ::
            form.linesBehind,
          spelledBehind (form.headers ++ form.cookieFields) ++ form.body ++ more) := by
  obtain ⟨⟨first, others, fields, token, different⟩, unbroken⟩ := connects
  have read := readLines_append (readLines_assemble unbroken form.status
    (form.headers ++ form.cookieFields) form.body) more
  refine ⟨lineOf first, ?_, ?_⟩
  · rw [lineOf, isFieldNamed_fieldLine token, different]
  · rw [ResponseForm.octets, read, ResponseForm.linesBehind, fields]
    rfl

theorem leavesConnection_iff
    {lines : List Octets} :
    LeavesConnection lines ↔
      valuesOf connection lines = [] ∧ ∀ octet ∈ continuation lines, isBlank octet = true := by
  rw [LeavesConnection, valuesOf_eq_nil_iff]

/-- The connection values of a head with the field of a mode. -/
theorem valuesOf_connection
    {first : Octets}
    (other : isFieldNamed connection first = false)
    (keepAlive : Bool)
    (lines : List Octets) :
    valuesOf connection (first :: lineOf (connection, connectionValue keepAlive) :: lines) =
      fieldValue (fieldLine connection (connectionValue keepAlive) ++ continuation lines) ::
        valuesOf connection lines := by
  have own : Octets.eqIgnoreAsciiCase connection connection = true := by decide
  rw [valuesOf_cons_other other, lineOf, valuesOf_cons_fieldLine tokens_ownFields.2.2.1,
    if_pos own]

/-- The field of one mode is never read as that of the other. -/
theorem connection_read_ne
    (keepAlive : Bool)
    (more : Octets) :
    fieldValue (fieldLine connection (connectionValue keepAlive) ++ more) ≠
      connectionValue (!keepAlive) := by
  have token : IsToken connection := by decide
  intro read
  rw [fieldValue_fieldLine_append token] at read
  have first := congrArg List.head? read
  cases keepAlive with
  | true =>
      have solid : isBlank 107 = false := by decide
      have start := head?_trimWith solid (octets "eep-alive" ++ more)
      exact absurd (start.symm.trans first) (by decide)
  | false =>
      have solid : isBlank 99 = false := by decide
      have start := head?_trimWith solid (octets "lose" ++ more)
      exact absurd (start.symm.trans first) (by decide)

/-- A response with the field of a mode announces it just when nothing behind the
field gets in the way. -/
theorem announcesNext_iff_of_form
    {form : ResponseForm} {keepAlive : Bool} {exchange : Exchange} {more : Octets}
    (connects : form.Connects keepAlive)
    (written : exchange.response = form.octets ++ more) :
    exchange.AnnouncesNext ↔
      keepAlive = exchange.readsOn ∧ LeavesConnection form.linesBehind := by
  obtain ⟨first, other, read⟩ := readLines_form connects more
  have values : exchange.AnnouncesNext ↔
      fieldValue (fieldLine connection (connectionValue keepAlive) ++
          continuation form.linesBehind) :: valuesOf connection form.linesBehind =
        [connectionValue exchange.readsOn] := by
    rw [← valuesOf_connection other, Exchange.AnnouncesNext, written, read]
    constructor
    · rintro ⟨start, lines, rest, same, values⟩
      cases same
      exact values
    · exact fun values => ⟨_, _, _, rfl, values⟩
  rw [values]
  by_cases same : keepAlive = exchange.readsOn
  · rw [← same, connection_read_iff, leavesConnection_iff]
    exact (and_iff_right rfl).symm
  · have flipped : exchange.readsOn = !keepAlive := by
      cases keepAlive <;> cases readsOn : exchange.readsOn <;> simp_all
    simp only [same, false_and, iff_false]
    rw [flipped]
    intro read
    exact connection_read_ne keepAlive _ (List.cons_eq_cons.mp read).1

/-! ## What is written has a form -/

theorem exactStaticResponse_eq
    (config : Option CompressionConfig)
    (fixed : FixedResponse)
    (keepAlive : Bool)
    (encoding : AcceptedEncoding) :
    exactStaticResponse (buildExactStaticRoute config fixed) keepAlive encoding =
      (staticRouteForm config fixed keepAlive encoding).octets := by
  have plain : (staticForm fixed.status fixed.headers fixed.body keepAlive).octets =
      buildResponseBytes fixed.status fixed.headers fixed.body keepAlive :=
    ResponseForm.octets_of_cookie_none rfl
  have compressed : ∀ body,
      (compressedStaticForm fixed.status fixed.headers body keepAlive encoding).octets =
        buildCompressedResponseBytes fixed.status fixed.headers body keepAlive encoding :=
    fun body => ResponseForm.octets_of_cookie_none rfl
  rw [exactStaticResponse_built, staticRouteForm]
  cases precompressed config fixed encoding with
  | none => exact plain.symm
  | some body => exact (compressed body).symm

theorem errorForm_octets
    (status : Nat)
    (body : Octets)
    (keepAlive : Bool) :
    (errorForm status body keepAlive).octets = buildErrorResponseBytes status body keepAlive :=
  ResponseForm.octets_of_cookie_none rfl

/-- What stands behind the connection field is the same in both modes. -/
theorem linesBehind_fastForm
    (status : Nat)
    (headers : List Header)
    (body : Octets)
    (keepAlive other : Bool)
    (encoding : AcceptedEncoding)
    (compressionConfig : Option CompressionConfig) :
    (fastForm status headers body keepAlive encoding compressionConfig).linesBehind =
      (fastForm status headers body other encoding compressionConfig).linesBehind :=
  rfl

/-! ## What the caches hold -/

/-- The entry was made of a response to a dispatch. -/
def StoredResponse (config : Option CompressionConfig) (entry : CacheEntry) : Prop :=
  ∃ status headers body stored encoding expiresAt,
    entry = cacheEntry (fastForm status headers body stored encoding config).octets stored expiresAt

/-- The caches behind a choice hold what they held, and a cached response is one of
it. -/
theorem chooseAnswer_entries
    {property : CacheEntry → Prop} {caches : RouteCaches}
    (all : caches.AllEntries property)
    (incoming : Incoming) :
    (chooseAnswer caches incoming).1.AllEntries property ∧
      ∀ entry keepAlive, (chooseAnswer caches incoming).2 =
        some (.decided (.cachedResponse entry keepAlive)) → property entry := by
  have looked : ∀ cacheNamespace key,
      (caches.lookup cacheNamespace key incoming.now).1.AllEntries property ∧
        ∀ entry ∈ (caches.lookup cacheNamespace key incoming.now).2, property entry :=
    fun cacheNamespace key => all.lookup cacheNamespace key incoming.now
  have zeroCopy : ∀ matched keepAlive,
      (buildDispatchDecisionZeroCopy caches matched keepAlive incoming.now).1.AllEntries
          property ∧
        ∀ entry variant, (buildDispatchDecisionZeroCopy caches matched keepAlive
          incoming.now).2 = .cachedResponse entry variant → property entry := by
    intro matched keepAlive
    unfold buildDispatchDecisionZeroCopy
    split
    · exact ⟨all, by simp [notFoundDecision]⟩
    · rename_i route
      have found := looked route.cacheNamespace route.cacheKey
      split
      · rename_i same
        rw [same] at found
        refine ⟨found.1, ?_⟩
        rintro entry variant decided
        cases decided
        exact found.2 _ rfl
      · rename_i same
        rw [same] at found
        split
        · exact ⟨found.1, by simp⟩
        · exact ⟨found.1, by simp [bridgeDecision]⟩
  have owned : ∀ matched,
      (buildDispatchDecisionOwned caches matched incoming.now).1.AllEntries property ∧
        ∀ entry variant, (buildDispatchDecisionOwned caches matched incoming.now).2 =
          .cachedResponse entry variant → property entry := by
    intro matched
    unfold buildDispatchDecisionOwned
    split
    · exact ⟨all, by simp [notFoundDecision]⟩
    · rename_i route
      have found := looked route.cacheNamespace route.ncacheKey
      split
      · exact ⟨all, by simp [bridgeDecision]⟩
      · split
        · rename_i same
          rw [same] at found
          refine ⟨found.1, ?_⟩
          rintro entry variant decided
          cases decided
          exact found.2 _ rfl
        · rename_i same
          rw [same] at found
          exact ⟨found.1, by simp [bridgeDecision]⟩
  unfold chooseAnswer
  dsimp only
  split
  · split <;> exact ⟨all, by simp⟩
  split
  · exact ⟨all, by simp⟩
  split
  · exact ⟨all, by simp⟩
  split
  · exact ⟨(zeroCopy _ _).1, by simpa using (zeroCopy _ _).2⟩
  split
  · exact ⟨all, by simp⟩
  split
  · exact ⟨all, by simp⟩
  split
  · exact ⟨(owned _).1, by simpa using (owned _).2⟩
  · exact ⟨all, by simp⟩

/-- The dispatcher is asked. -/
def DispatchDecision.IsBridge : DispatchDecision → Prop
  | .bridgeRequest _ _ _ _ => True
  | _ => False

/-- What is stored was made of a response to a dispatch. -/
theorem storeResponse_entries
    {config : Option CompressionConfig} {incoming : Incoming} {property : CacheEntry → Prop}
    {caches : RouteCaches}
    (all : caches.AllEntries property)
    (decision : DispatchDecision)
    (stored : decision.IsBridge → ∀ response ∈ incoming.dispatched,
      isStreamStart response = false →
      ∀ read, Envelope.readResponse.run response = .ok read → ∀ expiresAt,
        property (cacheEntry
          (fastForm read.1 read.2.1 read.2.2 incoming.keepAlive incoming.encoding config).octets
          incoming.keepAlive expiresAt)) :
    (storeResponse config incoming caches decision).AllEntries property := by
  cases decision with
  | specializedResponse fixed => exact all
  | cachedResponse entry keepAlive => exact all
  | bridgeRequest cacheInsertion handlerId cacheNamespace ncacheKey =>
      unfold storeResponse
      dsimp only
      split
      · exact all
      · rename_i response dispatched
        split
        · exact all
        · rename_i notStream
          split
          · exact all
          · rename_i httpResponse built
            rw [buildHttpResponseFromDispatch_form] at built
            cases ran : Envelope.readResponse.run response with
            | error error =>
                rw [ran] at built
                cases built
            | ok read =>
                rw [ran] at built
                cases built
                have holds := stored trivial response dispatched (by simpa using notStream) read ran
                split
                · exact all.store _ _ (holds _) _
                · split
                  · exact all.store _ _ (holds _) _
                  · exact all
                · exact all

theorem storedResponse_of_dispatch
    (config : Option CompressionConfig)
    (incoming : Incoming)
    (read : Nat × List Header × Octets)
    (expiresAt : Nat) :
    StoredResponse config (cacheEntry
      (fastForm read.1 read.2.1 read.2.2 incoming.keepAlive incoming.encoding config).octets
      incoming.keepAlive expiresAt) :=
  ⟨read.1, read.2.1, read.2.2, incoming.keepAlive, incoming.encoding, expiresAt, rfl⟩

/-- The caches behind a request hold what they held and what was made of its
dispatch. -/
theorem cachesBehind_entries
    {config : Option CompressionConfig} {incoming : Incoming} {property : CacheEntry → Prop}
    {run : ConnectionRun}
    (all : run.caches.AllEntries property)
    (stored : ∀ decision, (chooseAnswer run.caches incoming).2 = some (.decided decision) →
      decision.IsBridge → ∀ response ∈ incoming.dispatched, isStreamStart response = false →
      ∀ read, Envelope.readResponse.run response = .ok read → ∀ expiresAt,
        property (cacheEntry
          (fastForm read.1 read.2.1 read.2.2 incoming.keepAlive incoming.encoding config).octets
          incoming.keepAlive expiresAt)) :
    (run.cachesBehind config incoming).AllEntries property := by
  have chosen := (chooseAnswer_entries all incoming).1
  unfold ConnectionRun.cachesBehind
  split
  · rename_i decision same
    rw [same] at chosen stored
    exact storeResponse_entries chosen decision (stored decision rfl)
  · rename_i same
    rw [same] at chosen
    exact chosen

def ConnectionRun.AllStored (config : Option CompressionConfig) (run : ConnectionRun) : Prop :=
  run.caches.AllEntries (StoredResponse config)

@[simp] theorem caches_advance
    (run : ConnectionRun)
    (exchange : Option Exchange) :
    (run.advance exchange).caches = run.caches := by
  cases exchange <;> rfl

/-- In every state of a connection the caches hold responses to dispatches. -/
theorem allStored_of_reaches
    {config : Option CompressionConfig} {run : ConnectionRun}
    (reaches : (connectionMachine config).Reaches run) :
    run.AllStored config := by
  refine reaches.invariant ?_ ?_
  · intro cacheNamespace cache absent
    cases absent
  · intro state event next stored _ stepped
    have behind : ∀ incoming,
        (state.cachesBehind config incoming).AllEntries (StoredResponse config) :=
      fun incoming => cachesBehind_entries stored fun _ _ _ response _ _ read _ expiresAt =>
        storedResponse_of_dispatch config incoming read expiresAt
    change ConnectionRun.step config state event = some next at stepped
    unfold ConnectionRun.step at stepped
    unfold ConnectionRun.AllStored
    split at stepped
    · cases stepped
      exact behind _
    · cases stepped
      exact stored.retain _
    · split at stepped
      · cases stepped
        rw [caches_advance]
        exact behind _
      · cases stepped
    · split at stepped
      · cases stepped
        rw [caches_advance]
        exact stored
      · cases stepped

/-! ## When the connection field is right -/

/-- The lines behind the connection field of a stored response are those of the
response it was made of. -/
theorem storedLinesBehind_cacheEntry
    (config : Option CompressionConfig)
    (status : Nat)
    (headers : List Header)
    (body : Octets)
    (stored keepAlive : Bool)
    (encoding : AcceptedEncoding)
    (expiresAt : Nat) :
    storedLinesBehind (cacheEntry (fastForm status headers body stored encoding config).octets
        stored expiresAt) =
      (fastForm status headers body keepAlive encoding config).linesBehind := by
  have kept : (cacheEntry (fastForm status headers body stored encoding config).octets stored
      expiresAt).responseBytes = (fastForm status headers body true encoding config).octets :=
    cachedResponse_cacheEntry status headers body stored true encoding config expiresAt
  obtain ⟨first, -, read⟩ :=
    readLines_form (connects_fastForm status headers body true encoding config) []
  rw [List.append_nil] at read
  rw [storedLinesBehind, kept, read]
  exact linesBehind_fastForm status headers body true keepAlive encoding config

theorem leavesConnection_errorForm
    (status : Nat)
    (body : Octets)
    (keepAlive : Bool) :
    LeavesConnection (errorForm status body keepAlive).linesBehind := by
  have lines : (errorForm status body keepAlive).linesBehind =
      [lineOf (octets "content-type", octets "application/json; charset=utf-8")] := rfl
  rw [lines]
  decide

/-- An error response ends the connection and says so. -/
theorem announcesNext_error
    (method : Octets)
    (status : Nat)
    (body : Octets) :
    (ConnectionRun.errorExchange method status body).AnnouncesNext := by
  have written : (ConnectionRun.errorExchange method status body).response =
      (errorForm status body false).octets ++ [] := by
    rw [List.append_nil, errorForm_octets]
    rfl
  exact (announcesNext_iff_of_form (connects_errorForm status body false) written).mpr
    ⟨rfl, leavesConnection_errorForm status body false⟩

/-- What `res.ncache` has cached is sent in its close variant to a request with a
body. -/
theorem Incoming.HitsNcache.chooseAnswer_eq
    {caches : RouteCaches} {incoming : Incoming}
    (hits : incoming.HitsNcache caches) :
    ∃ entry, (chooseAnswer caches incoming).2 = some (.decided (.cachedResponse entry false)) := by
  obtain ⟨_, body, route, matched, noConfig, live⟩ := hits
  obtain ⟨entry, found⟩ := Option.isSome_iff_exists.mp live
  obtain ⟨length, given, within⟩ := body.within
  have matched : incoming.lookups.matched = some route := matched
  have given : incoming.parsed.contentLength = some length := given
  have noStatic : incoming.staticRoute = none := by
    unfold Incoming.staticRoute
    rw [body.hasBody]
    rfl
  have owned : (buildDispatchDecisionOwned caches (some route) incoming.now).2 =
      .cachedResponse entry false := by
    unfold buildDispatchDecisionOwned
    dsimp only
    rw [noConfig]
    cases looked : caches.lookup route.cacheNamespace route.ncacheKey incoming.now with
    | mk behind hit =>
        rw [looked] at found
        cases found
        rfl
  refine ⟨entry, ?_⟩
  unfold chooseAnswer
  dsimp only
  rw [body.uncoded, noStatic, body.notUpgraded, body.hasBody, given, body.arrives, matched]
  simp only [Bool.false_eq_true, if_false, Bool.not_true, if_true,
    if_neg (Nat.not_lt.mpr within), owned]

/-- Every other cached response is sent in the variant of the request. -/
theorem hasVariant_of_chooseAnswer
    {caches : RouteCaches} {incoming : Incoming} {answer : Answer}
    (chosen : (chooseAnswer caches incoming).2 = some answer)
    (misses : ¬ incoming.HitsNcache caches) :
    answer.HasVariant incoming.keepAlive := by
  unfold chooseAnswer at chosen
  dsimp only at chosen
  split at chosen
  · split at chosen <;> cases chosen <;> trivial
  · rename_i uncoded
    split at chosen
    · cases chosen
      trivial
    · split at chosen
      · cases chosen
      · rename_i notUpgraded
        split at chosen
        · cases chosen
          unfold buildDispatchDecisionZeroCopy
          split
          · trivial
          · split
            · rfl
            · split <;> trivial
        · rename_i hasBody
          split at chosen
          · cases chosen
            trivial
          · rename_i length given
            split at chosen
            · cases chosen
              trivial
            · rename_i within
              split at chosen
              · rename_i arrives
                cases chosen
                unfold buildDispatchDecisionOwned
                split
                · trivial
                · rename_i route matched
                  split
                  · trivial
                  · rename_i noConfig
                    split
                    · rename_i looked
                      -- the close variant is wrong only where the connection is kept
                      have body : incoming.ReadsBody :=
                        ⟨by simpa using uncoded, by simpa using notUpgraded, by simpa using hasBody,
                          arrives, length, given, Nat.le_of_not_lt within⟩
                      have closes : incoming.keepAlive ≠ true := fun kept =>
                        misses ⟨kept, body, route, matched, noConfig, by rw [looked]; rfl⟩
                      exact (Bool.eq_false_iff.mpr closes).symm
                    · trivial
              · cases chosen

theorem hasVariant_iff
    {caches : RouteCaches} {incoming : Incoming} {answer : Answer}
    (chosen : (chooseAnswer caches incoming).2 = some answer) :
    answer.HasVariant incoming.keepAlive ↔ ¬ incoming.HitsNcache caches := by
  refine ⟨fun variant hits => ?_, hasVariant_of_chooseAnswer chosen⟩
  obtain ⟨entry, cached⟩ := hits.chooseAnswer_eq
  cases chosen.symm.trans cached
  exact Bool.false_ne_true (variant.trans hits.1)

/-- An answer announces what becomes of the connection just when it meets the
condition, and is in the variant of the request if it is a cached response. -/
theorem announcesNext_iff_of_answer
    {config : Option CompressionConfig} {answer : Answer} {exchange : Exchange}
    (incoming : Incoming)
    (stored : ∀ entry keepAlive, answer = .decided (.cachedResponse entry keepAlive) →
      StoredResponse config entry)
    (response : exchange.response = answer.response config incoming)
    (readsOn : exchange.readsOn = answer.readsOn incoming.keepAlive) :
    exchange.AnnouncesNext ↔
      answer.HasVariant incoming.keepAlive ∧ answer.KeepsConnection config incoming := by
  cases answer with
  | error status body =>
      rw [Answer.response, ← errorForm_octets, ← List.append_nil (errorForm _ _ _).octets]
        at response
      rw [announcesNext_iff_of_form (connects_errorForm status body false) response]
      exact iff_of_true ⟨readsOn.symm, leavesConnection_errorForm status body false⟩
        ⟨trivial, trivial⟩
  | static fixed =>
      rw [Answer.response, exactStaticResponse_eq, ← List.append_nil (staticRouteForm _ _ _ _).octets]
        at response
      rw [announcesNext_iff_of_form (connects_staticRouteForm config fixed incoming.keepAlive
        incoming.encoding) response]
      exact and_congr_left' (iff_of_true readsOn.symm trivial)
  | decided decision =>
      cases decision with
      | bridgeRequest cacheInsertion handlerId cacheNamespace ncacheKey =>
          rw [Answer.response, writeDynamicDispatchResponse_eq] at response
          rw [announcesNext_iff_of_form (connects_dispatchForm incoming.dispatched
            incoming.keepAlive incoming.encoding config incoming.setCookie) response]
          exact and_congr_left' (iff_of_true readsOn.symm trivial)
      | specializedResponse fixed =>
          rw [Answer.response, ← fastForm_octets, ← List.append_nil (fastForm _ _ _ _ _ _).octets]
            at response
          rw [announcesNext_iff_of_form (connects_fastForm fixed.status fixed.headers fixed.body
            incoming.keepAlive incoming.encoding config) response]
          exact and_congr_left' (iff_of_true readsOn.symm trivial)
      | cachedResponse entry keepAlive =>
          obtain ⟨status, headers, body, mode, encoding, expiresAt, rfl⟩ := stored entry _ rfl
          rw [Answer.response, cachedResponse_cacheEntry,
            ← List.append_nil (fastForm _ _ _ _ _ _).octets] at response
          rw [announcesNext_iff_of_form (connects_fastForm status headers body keepAlive encoding
            config) response, Answer.KeepsConnection,
            storedLinesBehind_cacheEntry config status headers body mode keepAlive encoding
              expiresAt, readsOn]
          rfl

/-- In every state of a connection, and for every event that comes to an answer: the
response announces what becomes of the connection just when the event meets the
condition. -/
theorem announcesNext_iff_of_reaches
    {config : Option CompressionConfig} {run : ConnectionRun} {event : ConnectionEvent}
    {exchange : Exchange}
    (reaches : (connectionMachine config).Reaches run)
    (answered : run.exchange config event = some exchange) :
    exchange.AnnouncesNext ↔ run.KeepsConnection config event := by
  cases event with
  | request here incoming =>
      obtain ⟨answer, chosen, rfl⟩ := Option.map_eq_some_iff.mp answered
      have entries := (chooseAnswer_entries (allStored_of_reaches reaches) incoming).2
      rw [announcesNext_iff_of_answer incoming
        (fun entry keepAlive same => entries entry keepAlive (chosen.trans (congrArg some same)))
        rfl rfl, hasVariant_iff chosen, ConnectionRun.KeepsConnection, chosen]
      simp
  | headTimedOut method =>
      cases answered
      exact iff_of_true (announcesNext_error _ _ _) trivial
  | headTooLarge method =>
      cases answered
      exact iff_of_true (announcesNext_error _ _ _) trivial
  | dropped => cases answered
  | syncRouteCaches valid => cases answered

/-- An exchange behind an event was there before or is that of the event. -/
theorem mem_exchanges_of_step
    {config : Option CompressionConfig} {run next : ConnectionRun} {event : ConnectionEvent}
    (stepped : run.step config event = some next)
    {exchange : Exchange}
    (member : exchange ∈ next.exchanges) :
    exchange ∈ run.exchanges ∨ run.exchange config event = some exchange := by
  have advanced : ∀ (before : ConnectionRun) (found : Option Exchange),
      exchange ∈ (before.advance found).exchanges →
        exchange ∈ before.exchanges ∨ found = some exchange := by
    intro before found inside
    cases found with
    | none => exact .inl inside
    | some last =>
        rcases List.mem_append.mp inside with earlier | isLast
        · exact .inl earlier
        · exact .inr (congrArg some (List.mem_singleton.mp isLast).symm)
  unfold ConnectionRun.step at stepped
  split at stepped
  · cases stepped
    exact .inl member
  · cases stepped
    exact .inl member
  · split at stepped
    · cases stepped
      exact advanced { run with caches := run.cachesBehind config _ } _ member
    · cases stepped
  · split at stepped
    · cases stepped
      exact advanced run _ member
    · cases stepped

def ConnectionRun.AllAnnounce (run : ConnectionRun) : Prop :=
  ∀ exchange ∈ run.exchanges, exchange.AnnouncesNext

/-- In every state, a response announces what becomes of the connection just when
its event meets the condition; so in a run whose events all meet it, all responses
do. -/
theorem announcesNext_iff
    (config : Option CompressionConfig) :
    (∀ run, (connectionMachine config).Reaches run →
      ∀ event exchange, run.exchange config event = some exchange →
        (exchange.AnnouncesNext ↔ run.KeepsConnection config event)) ∧
    ∀ run, (connectionMachine config).ReachesUnder (ConnectionRun.KeepsConnection config) run →
      run.AllAnnounce := by
  refine ⟨fun run reaches event exchange => announcesNext_iff_of_reaches reaches, ?_⟩
  intro run reaches
  refine reaches.invariant_with (fun state under => under.reaches)
    (by simp [connectionMachine, ConnectionRun.AllAnnounce]) ?_
  intro state event next known before meets stepped exchange member
  rcases mem_exchanges_of_step stepped member with earlier | answered
  · exact before exchange earlier
  · exact (announcesNext_iff_of_reaches known answered).mpr meets

/-- A request with a body to a route that caches its response for a minute. -/
def cachedPost : Incoming where
  parsed :=
    { method := octets "POST", target := octets "/report", path := octets "/report"
      keepAlive := true, headerBytes := 60, hasBody := true, contentLength := some 2
      hasChunkedTe := false, headers := [], cookieHeader := none, isWebsocketUpgrade := false
      wsKey := none, acceptedEncoding := .identity }
  lookups :=
    { staticRoute := none, upgrades := false, bodyLimit := none
      matched := some
        { handlerId := 1, cacheNamespace := 1, cacheConfig := none, ncacheKey := 7
          fastPath := none } }
  bodyArrives := true
  dispatched := some [200, 0, 0, 0, 0, 0, 0, 0, 0xca, 0xce, 60, 0, 0, 0, 1, 0, 0, 0]
  streamed := []
  setCookie := none
  now := 0
  storedAt := 0

/-- The connection behind the first of two such requests. -/
def afterCachedPost : ConnectionRun :=
  ((connectionMachine none).step (connectionMachine none).start (.request true cachedPost)).getD
    (connectionMachine none).start

theorem afterCachedPost_reaches : (connectionMachine none).Reaches afterCachedPost := by
  have stepped : (connectionMachine none).step (connectionMachine none).start
      (.request true cachedPost) = some afterCachedPost := rfl
  exact .step .start trivial stepped

/-- The first response announces that the connection is kept, and it is. -/
theorem announcesNext_cachedPost :
    ∃ exchange, (connectionMachine none).start.exchange none (.request true cachedPost) =
        some exchange ∧ exchange.readsOn = true ∧ exchange.AnnouncesNext := by
  refine ⟨_, rfl, rfl, ?_⟩
  refine ((announcesNext_iff none).1 _ .start (.request true cachedPost) _ rfl).mpr ?_
  refine ⟨?_, fun answer chosen => ?_⟩
  · rintro ⟨_, _, route, matched, _, live⟩
    cases matched
    cases live
  cases chosen
  change LeavesConnection (dispatchForm cachedPost.dispatched cachedPost.keepAlive
    cachedPost.encoding none cachedPost.setCookie).linesBehind
  decide

/-- The second response says that the connection is closed, and it is kept. -/
theorem not_announcesNext :
    ¬ ∀ (config : Option CompressionConfig) (run : ConnectionRun) (event : ConnectionEvent)
      (exchange : Exchange), (connectionMachine config).Reaches run →
        run.exchange config event = some exchange → exchange.AnnouncesNext := by
  intro all
  have cached : ∃ entry, (chooseAnswer afterCachedPost.caches cachedPost).2 =
      some (.decided (.cachedResponse entry false)) := ⟨_, rfl⟩
  obtain ⟨entry, chosen⟩ := cached
  have announced := all none afterCachedPost (.request true cachedPost) _ afterCachedPost_reaches
    (by rw [ConnectionRun.exchange, chosen]; rfl)
  have entries := (chooseAnswer_entries (allStored_of_reaches afterCachedPost_reaches) cachedPost).2
  rw [announcesNext_iff_of_answer cachedPost
    (fun other keepAlive same => entries other keepAlive (chosen.trans (congrArg some same)))
    rfl rfl] at announced
  exact Bool.false_ne_true announced.1

end Response
end HttpNative
