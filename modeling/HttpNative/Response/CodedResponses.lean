import HttpNative.Parser.AcceptedCodings
import HttpNative.Response.CachedAnswers
import HttpNative.Router.AddressedEntries

/-!
# Codings of responses

The coding that the native layer applies to a body is one that the request accepts,
wherever the response comes from, as long as no insertion evicts an entry of a cache:
behind an eviction a look-up can return what was stored for a request with another
coding.
-/

namespace HttpNative
namespace Response

open Envelope
  (AcceptedEncoding CompressionConfig Header applyCompression compressBody encodingHeaderValue
    lastField shouldCompress)
open HttpNative.Parser (RequestSource)
open Router (CacheEntry RouteCaches)

/-! ## Keys -/

/-- `vary_cache_key_by_encoding` -/
def varyCacheKeyByEncoding (key : UInt64) : AcceptedEncoding → UInt64
  | .identity => key
  | .gzip => key ^^^ 0x9E3779B97F4A7C15
  | .brotli => key ^^^ 0x517CC1B727220A95

/-- The hashes that are used stay apart from each other with every coding. -/
def CollisionFree (used : Set UInt64) : Prop :=
  ∀ key ∈ used, ∀ other ∈ used, ∀ encoding otherEncoding,
    varyCacheKeyByEncoding key encoding = varyCacheKeyByEncoding other otherEncoding →
      key = other ∧ encoding = otherEncoding

/-- The request is parsed from a source, its key is a hash that is varied by its
coding, and the headers of a static response have names in lower case. -/
structure Incoming.IsKeyed
    (used : Set UInt64)
    (source : RequestSource)
    (incoming : Incoming) :
    Prop where
  parsed : source.parsed = some incoming.parsed
  keyed : ∀ route ∈ incoming.lookups.matched, ∃ key ∈ used,
    route.cacheKey = varyCacheKeyByEncoding key incoming.encoding
  lower : ∀ fixed ∈ incoming.lookups.staticRoute, ∀ header ∈ fixed.headers,
    Octets.asciiLower header.1 = header.1

/-! ## Codings -/

/-- What a handler hands over. -/
structure Handed where
  headers : List Header
  body : Octets

def contentEncodingName : Octets :=
  octets "content-encoding"

/-- The handler has set a coding of its own. -/
def Handed.isCoded (handed : Handed) : Bool :=
  handed.headers.any fun header => Octets.eqIgnoreAsciiCase header.1 contentEncodingName

/-- The codings that the server has written into the head. -/
def ResponseForm.nativeCodings (form : ResponseForm) : List Octets :=
  (form.serverFields.filter (·.1 = contentEncodingName)).map Prod.snd

/-- A coding of the server is accepted, and there is none where the handler has set
its own. -/
structure CodedFor (accepts : Octets → Prop) (handed : Handed) (form : ResponseForm) :
    Prop where
  accepted : ∀ coding ∈ form.nativeCodings,
    (coding = octets "br" ∨ coding = octets "gzip") ∧ accepts coding
  unchanged : handed.isCoded = true → form.nativeCodings = [] ∧ form.body = handed.body

/-- What a dispatch hands over. -/
def handedOver (dispatched : Option Octets) : Handed :=
  match dispatched with
  | none => ⟨[], badGateway⟩
  | some response =>
      if isStreamStart response then
        ⟨streamHeaders response, []⟩
      else
        match Envelope.readResponse.run response with
        | .ok (_, headers, body) => ⟨headers, body⟩
        | .error _ => ⟨[], internalServerError⟩

/-- The entry was made of what one of the events has handed over, for a request with
the key. -/
def StoredBy
    (config : Option CompressionConfig)
    (used : Set UInt64)
    (past : List ConnectionEvent)
    (key : UInt64)
    (entry : CacheEntry) :
    Prop :=
  ∃ here earlier response status headers body expiresAt,
    .request here earlier ∈ past ∧ earlier.Responds response status headers body ∧
      entry = cacheEntry
        (fastForm status headers body earlier.keepAlive earlier.encoding config).octets
        earlier.keepAlive expiresAt ∧
      ∃ hash ∈ used, key = varyCacheKeyByEncoding hash earlier.encoding

/-- The response for an answer has the form, made of what was handed over: for the
request, or for an earlier one whose response was stored. -/
def Answer.Makes
    (config : Option CompressionConfig)
    (past : List ConnectionEvent)
    (incoming : Incoming)
    (handed : Handed)
    (form : ResponseForm) :
    Answer → Prop
  | .error status body => handed = ⟨[], body⟩ ∧ form = errorForm status body false
  | .static fixed =>
      handed = ⟨fixed.headers, fixed.body⟩ ∧
        form = staticRouteForm config fixed incoming.keepAlive incoming.encoding
  | .decided (.bridgeRequest _ _ _ _) =>
      handed = handedOver incoming.dispatched ∧
        form = dispatchForm incoming.dispatched incoming.keepAlive incoming.encoding config
          incoming.setCookie
  | .decided (.specializedResponse fixed) =>
      handed = ⟨fixed.headers, fixed.body⟩ ∧
        form = fastForm fixed.status fixed.headers fixed.body incoming.keepAlive
          incoming.encoding config
  | .decided (.cachedResponse entry keepAlive) =>
      ∃ here earlier response status expiresAt,
        .request here earlier ∈ past ∧
          earlier.Responds response status handed.headers handed.body ∧
          entry = cacheEntry
            (fastForm status handed.headers handed.body earlier.keepAlive earlier.encoding
              config).octets
            earlier.keepAlive expiresAt ∧
          form = fastForm status handed.headers handed.body keepAlive earlier.encoding config

/-- The chunks of a stream, behind its head. -/
def Answer.streamed (incoming : Incoming) : Answer → Octets
  | .error _ _ => []
  | .static _ => []
  | .decided (.bridgeRequest _ _ _ _) => streamedBody incoming.dispatched incoming.streamed
  | .decided (.specializedResponse _) => []
  | .decided (.cachedResponse _ _) => []

/-- A run with its events. -/
abbrev TracedRun : Type :=
  ConnectionRun × List ConnectionEvent

/-- Whatever request comes next, the coding of its response is one that the request
accepts. -/
def CodesForAll
    (config : Option CompressionConfig)
    (used : Set UInt64)
    (run : TracedRun) :
    Prop :=
  ∀ source incoming answer, incoming.IsKeyed used source →
    (chooseAnswer run.1.caches incoming).2 = some answer →
      ∃ handed form, answer.Makes config run.2 incoming handed form ∧
        answer.response config incoming = form.octets ++ answer.streamed incoming ∧
        CodedFor source.Accepts handed form

/-- The requests of a run have their keys. -/
def Keyed (used : Set UInt64) : TracedRun → ConnectionEvent → Prop
  | _, .request _ incoming => ∃ source, incoming.IsKeyed used source
  | _, _ => True

/-- What the request stores evicts no entry. -/
def Incoming.HasRoom (caches : RouteCaches) (incoming : Incoming) : Prop :=
  ∀ route ∈ incoming.lookups.matched, ∀ response ∈ incoming.dispatched,
    incoming.isCacheable response = true →
      (chooseAnswer caches incoming).1.HasRoom route.cacheNamespace route.cacheKey
        (route.maxEntries response)

/-- The requests of a run have their keys, and none evicts an entry. -/
def KeyedWithRoom (used : Set UInt64) : TracedRun → ConnectionEvent → Prop
  | run, .request here incoming =>
      Keyed used run (.request here incoming) ∧ incoming.HasRoom run.1.caches
  | _, _ => True

/-! ## What the builders write -/

theorem nativeCodings_append_compressionFields
    {fields : List Header} {applied : Option AcceptedEncoding}
    (other : ∀ field ∈ fields, field.1 ≠ contentEncodingName) :
    ((fields ++ compressionFields applied).filter (·.1 = contentEncodingName)).map Prod.snd =
      applied.toList.map encodingHeaderValue := by
  have none : fields.filter (·.1 = contentEncodingName) = [] := by
    rw [List.filter_eq_nil_iff]
    intro field member
    rw [decide_eq_true_eq]
    exact other field member
  rw [List.filter_append, none, List.nil_append]
  cases applied with
  | none => rfl
  | some encoding => rfl

theorem ownFields_ne
    (length : Nat)
    (keepAlive : Bool) :
    ∀ field ∈ ownFields length keepAlive, field.1 ≠ contentEncodingName := by
  intro field member
  rcases List.mem_cons.mp member with rfl | last
  · exact (by decide : contentLength ≠ contentEncodingName)
  · rw [List.mem_singleton.mp last]
    exact (by decide : connection ≠ contentEncodingName)

theorem nativeCodings_fastForm
    (status : Nat)
    (headers : List Header)
    (body : Octets)
    (keepAlive : Bool)
    (encoding : AcceptedEncoding)
    (config : Option CompressionConfig) :
    (fastForm status headers body keepAlive encoding config).nativeCodings =
      (appliedEncoding headers body encoding config).toList.map encodingHeaderValue :=
  nativeCodings_append_compressionFields (ownFields_ne _ _)

/-- What is chosen is what is asked for, and that is not the identity. -/
theorem of_shouldCompress
    {config : CompressionConfig} {encoding chosen : AcceptedEncoding} {bodyLen : Nat}
    {contentType : Option Octets} {hasContentEncoding : Bool}
    (compresses : shouldCompress config encoding bodyLen contentType hasContentEncoding =
      some chosen) :
    chosen = encoding ∧ encoding ≠ .identity ∧ hasContentEncoding = false := by
  unfold shouldCompress at compresses
  split at compresses
  · cases compresses
  · rename_i proper
    split at compresses
    · cases compresses
    · split at compresses
      · cases compresses
      · rename_i bare
        split at compresses
        · cases compresses
        · cases compresses
          exact ⟨rfl, proper, Bool.eq_false_iff.mpr bare⟩

theorem isSome_lastField
    (headers : List Header) :
    (lastField headers contentEncodingName).isSome =
      headers.any fun header => Octets.eqIgnoreAsciiCase header.1 contentEncodingName := by
  rw [lastField, Option.isSome_map, Bool.eq_iff_iff, List.getLast?_isSome, List.any_eq_true]
  constructor
  · intro some
    obtain ⟨header, member⟩ := List.exists_mem_of_ne_nil _ some
    exact ⟨header, List.mem_filter.mp member⟩
  · rintro ⟨header, member, named⟩
    exact List.ne_nil_of_mem (List.mem_filter.mpr ⟨member, named⟩)

/-- A body of a fast path is compressed as asked for, if its headers name no
coding. -/
theorem of_appliedEncoding
    {headers : List Header} {body : Octets} {encoding chosen : AcceptedEncoding}
    {config : Option CompressionConfig}
    (applied : appliedEncoding headers body encoding config = some chosen) :
    chosen = encoding ∧ encoding ≠ .identity ∧
      Handed.isCoded ⟨headers, body⟩ = false := by
  obtain ⟨config, rfl, applied⟩ := Option.bind_eq_some_iff.mp applied
  obtain ⟨other, compresses, applied⟩ := Option.bind_eq_some_iff.mp applied
  obtain ⟨data, compressed, rfl⟩ := Option.map_eq_some_iff.mp applied
  obtain ⟨same, proper, bare⟩ := of_shouldCompress compresses
  exact ⟨same, proper, (isSome_lastField headers).symm.trans bare⟩

theorem applyCompression_of_coded
    {headers : List Header} {body : Octets}
    (coded : Handed.isCoded ⟨headers, body⟩ = true)
    (encoding : AcceptedEncoding)
    (config : Option CompressionConfig) :
    (applyCompression headers body encoding config).1 = body := by
  unfold applyCompression
  dsimp only
  split
  · rename_i data chosen compressed
    obtain ⟨config, -, compressed⟩ := Option.bind_eq_some_iff.mp compressed
    obtain ⟨other, compresses, -⟩ := Option.bind_eq_some_iff.mp compressed
    have bare := (of_shouldCompress compresses).2.2
    have named := (isSome_lastField headers).trans coded
    exact absurd (bare.symm.trans named) Bool.false_ne_true
  · rfl

/-! ## Accepted codings -/

variable {source : RequestSource} {incoming : Incoming} {used : Set UInt64}
  {config : Option CompressionConfig}

/-- The coding of the request is one that it accepts. -/
theorem accepts_of_isKeyed
    (keyed : incoming.IsKeyed used source)
    (proper : incoming.encoding ≠ .identity) :
    (encodingHeaderValue incoming.encoding = octets "br" ∨
        encodingHeaderValue incoming.encoding = octets "gzip") ∧
      source.Accepts (encodingHeaderValue incoming.encoding) := by
  have chosen : incoming.parsed.acceptedEncoding ≠ .identity := by
    intro same
    exact proper (congrArg encodingOf same)
  have accepts := Parser.accepts_of_parsed keyed.parsed chosen
  rw [Incoming.encoding]
  cases same : incoming.parsed.acceptedEncoding with
  | identity => exact absurd same chosen
  | gzip =>
      rw [same] at accepts
      exact ⟨.inr rfl, accepts⟩
  | brotli =>
      rw [same] at accepts
      exact ⟨.inl rfl, accepts⟩

theorem codedFor_plain
    {handed : Handed} {form : ResponseForm}
    (accepts : Octets → Prop)
    (none : form.nativeCodings = [])
    (same : form.body = handed.body) :
    CodedFor accepts handed form where
  accepted coding member := by
    rw [none] at member
    exact absurd member List.not_mem_nil
  unchanged _ := ⟨none, same⟩

theorem codedFor_fastForm
    (keyed : incoming.IsKeyed used source)
    (status : Nat)
    (headers : List Header)
    (body : Octets)
    (keepAlive : Bool) :
    CodedFor source.Accepts ⟨headers, body⟩
      (fastForm status headers body keepAlive incoming.encoding config) where
  accepted coding member := by
    rw [nativeCodings_fastForm] at member
    obtain ⟨chosen, applied, rfl⟩ := List.mem_map.mp member
    obtain ⟨rfl, proper, -⟩ := of_appliedEncoding (Option.mem_toList.mp applied)
    exact accepts_of_isKeyed keyed proper
  unchanged coded := by
    refine ⟨?_, applyCompression_of_coded coded _ _⟩
    rw [nativeCodings_fastForm]
    cases applied : appliedEncoding headers body incoming.encoding config with
    | none => rfl
    | some chosen =>
        have bare := (of_appliedEncoding applied).2.2
        exact absurd (bare.symm.trans coded) Bool.false_ne_true

/-- A cookie is no coding. -/
theorem CodedFor.with_cookie
    {accepts : Octets → Prop} {handed : Handed} {form : ResponseForm}
    (coded : CodedFor accepts handed form)
    (cookie : Option Octets) :
    CodedFor accepts handed { form with cookie := cookie } :=
  ⟨coded.accepted, coded.unchanged⟩

theorem codedFor_errorForm
    (accepts : Octets → Prop)
    (status : Nat)
    (body : Octets)
    (keepAlive : Bool) :
    CodedFor accepts ⟨[], body⟩ (errorForm status body keepAlive) :=
  codedFor_plain accepts rfl rfl

theorem codedFor_dispatchForm
    (keyed : incoming.IsKeyed used source) :
    CodedFor source.Accepts (handedOver incoming.dispatched)
      (dispatchForm incoming.dispatched incoming.keepAlive incoming.encoding config
        incoming.setCookie) := by
  unfold handedOver dispatchForm
  cases incoming.dispatched with
  | none => exact codedFor_errorForm _ _ _ _
  | some response =>
      dsimp only
      cases isStreamStart response with
      | true => exact codedFor_plain _ rfl rfl
      | false =>
          rw [if_neg Bool.false_ne_true, if_neg Bool.false_ne_true]
          cases Envelope.readResponse.run response with
          | error error => exact codedFor_errorForm _ _ _ _
          | ok read => exact (codedFor_fastForm keyed _ _ _ _).with_cookie _

/-! ## Static routes -/

/-- Names in lower case are found as they are spelled. -/
theorem isSome_get_of_coded
    {headers : List Header} {body : Octets}
    (lower : ∀ header ∈ headers, Octets.asciiLower header.1 = header.1)
    (coded : Handed.isCoded ⟨headers, body⟩ = true) :
    (Dictionary.get contentEncodingName headers).isSome = true := by
  obtain ⟨header, member, named⟩ := List.any_eq_true.mp coded
  have spelled : header.1 = contentEncodingName := by
    have same : Octets.asciiLower header.1 = Octets.asciiLower contentEncodingName :=
      beq_iff_eq.mp named
    rw [← lower header member, same]
    decide
  induction headers with
  | nil => exact absurd member List.not_mem_nil
  | cons first rest hypothesis =>
      obtain ⟨name, value⟩ := first
      rw [Dictionary.get]
      split
      · rfl
      · rename_i different
        rcases List.mem_cons.mp member with rfl | later
        · exact absurd spelled different
        · exact hypothesis (fun header member => lower header (List.mem_cons_of_mem _ member))
            (List.any_eq_true.mpr ⟨header, later, named⟩) later

theorem of_precompressed
    {fixed : FixedResponse} {encoding : AcceptedEncoding} {body : Octets}
    (lower : ∀ header ∈ fixed.headers, Octets.asciiLower header.1 = header.1)
    (compressed : precompressed config fixed encoding = some body) :
    encoding ≠ .identity ∧ Handed.isCoded ⟨fixed.headers, fixed.body⟩ = false := by
  unfold precompressed at compressed
  dsimp only at compressed
  split at compressed
  · cases compressed
  · rename_i bare
    obtain ⟨config, -, compressed⟩ := Option.bind_eq_some_iff.mp compressed
    obtain ⟨chosen, compresses, -⟩ := Option.bind_eq_some_iff.mp compressed
    refine ⟨(of_shouldCompress compresses).2.1, Bool.eq_false_iff.mpr fun coded => bare ?_⟩
    exact isSome_get_of_coded lower coded

theorem codedFor_staticRouteForm
    (keyed : incoming.IsKeyed used source)
    {fixed : FixedResponse}
    (found : incoming.lookups.staticRoute = some fixed) :
    CodedFor source.Accepts ⟨fixed.headers, fixed.body⟩
      (staticRouteForm config fixed incoming.keepAlive incoming.encoding) := by
  have lower := keyed.lower fixed found
  unfold staticRouteForm
  cases compressed : precompressed config fixed incoming.encoding with
  | none => exact codedFor_plain _ rfl rfl
  | some body =>
      obtain ⟨proper, bare⟩ := of_precompressed lower compressed
      refine ⟨fun coding member => ?_, fun coded => ?_⟩
      · have codings : (compressedStaticForm fixed.status fixed.headers body incoming.keepAlive
            incoming.encoding).nativeCodings = [encodingHeaderValue incoming.encoding] :=
          nativeCodings_append_compressionFields (ownFields_ne _ _)
        rw [codings] at member
        rw [List.mem_singleton.mp member]
        exact accepts_of_isKeyed keyed proper
      · exact absurd (bare.symm.trans coded) Bool.false_ne_true

/-! ## Runs -/

theorem staticRoute_of_chooseAnswer
    {caches : RouteCaches} {fixed : FixedResponse}
    (chosen : (chooseAnswer caches incoming).2 = some (.static fixed)) :
    incoming.lookups.staticRoute = some fixed := by
  have found : incoming.staticRoute = some fixed := by
    unfold chooseAnswer at chosen
    dsimp only at chosen
    split at chosen
    · split at chosen
      · cases chosen
      · cases chosen
    split at chosen
    · rename_i same
      cases chosen
      exact same
    split at chosen
    · cases chosen
    split at chosen
    · cases chosen
    split at chosen
    · cases chosen
    split at chosen
    · cases chosen
    split at chosen
    · cases chosen
    · cases chosen
  unfold Incoming.staticRoute at found
  split at found
  · exact found
  · cases found

theorem StoredBy.mono
    {past : List ConnectionEvent} {key : UInt64} {entry : CacheEntry}
    (stored : StoredBy config used past key entry)
    (event : ConnectionEvent) :
    StoredBy config used (event :: past) key entry := by
  obtain ⟨here, earlier, response, status, headers, body, expiresAt, member, rest⟩ := stored
  exact ⟨here, earlier, response, status, headers, body, expiresAt,
    List.mem_cons_of_mem _ member, rest⟩

/-- The entries of the caches are under the keys of the requests that they were
stored for. -/
def HoldsKeyed
    (config : Option CompressionConfig)
    (used : Set UInt64)
    (run : TracedRun) :
    Prop :=
  run.1.caches.Addressed fun _ => StoredBy config used run.2

theorem addressed_lookedUp
    {property : UInt64 → UInt64 → CacheEntry → Prop} {caches behind : RouteCaches}
    (addressed : caches.Addressed property)
    (looked : LookedUp caches incoming behind) :
    behind.Addressed property := by
  rcases looked with rfl | ⟨route, -, rfl⟩
  · exact addressed
  · exact (addressed.lookup _ _ _).1

theorem storedBy_of_stores
    {source : RequestSource} {route : RouteMatch} {response : Octets} {entry : CacheEntry}
    (here : Bool)
    (past : List ConnectionEvent)
    (keyed : incoming.IsKeyed used source)
    (stores : Stores config incoming route response entry) :
    StoredBy config used (.request here incoming :: past) route.cacheKey entry := by
  obtain ⟨status, headers, body, expiresAt, responds, same⟩ := stores.built
  exact ⟨here, incoming, response, status, headers, body, expiresAt, List.mem_cons_self,
    responds, same, keyed.keyed route stores.matched⟩

theorem holdsKeyed_step
    {run next : TracedRun} {event : ConnectionEvent}
    (holds : HoldsKeyed config used run)
    (meets : KeyedWithRoom used run event)
    (stepped : (connectionMachine config).traced.step run event = some next) :
    HoldsKeyed config used next := by
  obtain ⟨taken, past⟩ := Machine.traced_step stepped
  have before : run.1.caches.Addressed fun _ => StoredBy config used next.2 := by
    rw [past]
    exact holds.mono fun _ _ _ stored => stored.mono event
  unfold HoldsKeyed
  rcases caches_of_step taken with ⟨here, incoming, rfl, same⟩ | ⟨valid, same⟩ | same
  · obtain ⟨⟨source, keyed⟩, room⟩ := meets
    have chosen := addressed_lookedUp before
      (decided_of_chooseAnswer run.1.caches incoming).1
    rw [same]
    obtain kept | ⟨route, response, entry, stores, kept⟩ :=
      cachesBehind_cases config run.1 incoming
    · rw [kept]
      exact chosen
    · obtain ⟨_, _, _, _, responds, -⟩ := stores.built
      rw [kept]
      refine chosen.store (room route stores.matched response responds.dispatched
        stores.cacheable) ?_
      rw [past]
      exact storedBy_of_stores here run.2 keyed stores
  · rw [same]
    exact before.retain valid
  · rw [same]
    exact before

/-- What is found for a request was stored for one with the same coding. -/
theorem encoding_of_storedBy
    {past : List ConnectionEvent} {route : RouteMatch} {entry : CacheEntry}
    (apart : CollisionFree used)
    (keyed : incoming.IsKeyed used source)
    (matched : incoming.lookups.matched = some route)
    (stored : StoredBy config used past route.cacheKey entry) :
    ∃ here earlier response status headers body expiresAt,
      .request here earlier ∈ past ∧ earlier.Responds response status headers body ∧
        entry = cacheEntry
          (fastForm status headers body earlier.keepAlive earlier.encoding config).octets
          earlier.keepAlive expiresAt ∧
        earlier.encoding = incoming.encoding := by
  obtain ⟨here, earlier, response, status, headers, body, expiresAt, member, responds, made,
    hash, isUsed, key⟩ := stored
  obtain ⟨other, otherUsed, otherKey⟩ := keyed.keyed route matched
  have same := apart hash isUsed other otherUsed _ _ (key.symm.trans otherKey)
  exact ⟨here, earlier, response, status, headers, body, expiresAt, member, responds, made,
    same.2⟩

theorem codesForAll_of_holdsKeyed
    {run : TracedRun}
    (apart : CollisionFree used)
    (holds : HoldsKeyed config used run) :
    CodesForAll config used run := by
  intro source incoming answer keyed chosen
  cases answer with
  | error status body =>
      refine ⟨_, _, ⟨rfl, rfl⟩, ?_, codedFor_errorForm _ _ _ _⟩
      rw [Answer.streamed, List.append_nil, errorForm_octets]
      rfl
  | static fixed =>
      have found := staticRoute_of_chooseAnswer chosen
      refine ⟨_, _, ⟨rfl, rfl⟩, ?_, codedFor_staticRouteForm keyed found⟩
      rw [Answer.streamed, List.append_nil]
      exact exactStaticResponse_eq config fixed incoming.keepAlive incoming.encoding
  | decided decision =>
      have decided := (decided_of_chooseAnswer run.1.caches incoming).2 decision chosen
      cases decided with
      | notFound matched =>
          refine ⟨_, _, ⟨rfl, rfl⟩, ?_, codedFor_dispatchForm keyed⟩
          exact congrArg (· ++ _) (writeDynamicDispatchResponse_eq _ _ _ _ _)
      | bridge matched =>
          refine ⟨_, _, ⟨rfl, rfl⟩, ?_, codedFor_dispatchForm keyed⟩
          exact congrArg (· ++ _) (writeDynamicDispatchResponse_eq _ _ _ _ _)
      | specialized matched fastPath =>
          refine ⟨_, _, ⟨rfl, rfl⟩, ?_, codedFor_fastForm keyed _ _ _ _⟩
          rw [Answer.streamed, List.append_nil, fastForm_octets]
          rfl
      | cached keepAlive matched looked =>
          have stored := (holds.lookup _ _ _).2 _ looked
          obtain ⟨here, earlier, response, status, headers, body, expiresAt, member, responds,
            rfl, same⟩ := encoding_of_storedBy apart keyed matched stored
          refine ⟨⟨headers, body⟩, _,
            ⟨here, earlier, response, status, expiresAt, member, responds, rfl, rfl⟩, ?_, ?_⟩
          · rw [Answer.streamed, List.append_nil]
            exact cachedResponse_cacheEntry _ _ _ _ _ _ _ _
          · rw [same]
            exact codedFor_fastForm keyed _ _ _ _

/-- In every run without an eviction from the caches, the coding that the server
applies to a body is one that the request accepts, and a body with a coding of its
own is passed on. -/
theorem codesForAll_of_reachesUnder
    (config : Option CompressionConfig)
    (used : Set UInt64)
    (apart : CollisionFree used)
    (run : TracedRun)
    (reaches : (connectionMachine config).traced.ReachesUnder (KeyedWithRoom used) run) :
    CodesForAll config used run := by
  refine codesForAll_of_holdsKeyed apart ?_
  refine reaches.invariant ?_ fun _ _ _ holds meets stepped => holdsKeyed_step holds meets stepped
  intro cacheNamespace cache absent
  cases absent

/-! ## A route whose cache holds one response -/

def pageBody : Octets :=
  List.replicate 100 97

/-- The compressors on the body of the page. -/
def compressPage (encoding : AcceptedEncoding) (body : Octets) : Octets :=
  if body = pageBody then
    match encoding with
    | .identity => body
    | .gzip =>
        [31, 139, 8, 0, 0, 0, 0, 0, 0, 255, 75, 76, 164, 61, 0, 0, 100, 122, 112, 175, 100, 0, 0, 0]
    | .brotli => [27, 99, 0, 0, 36, 194, 2, 177, 64, 58]
  else
    body

def pageConfig : CompressionConfig where
  minSize := 64
  compress encoding _ body := compressPage encoding body

theorem acceptEncoding_ne_nil :
    octets "accept-encoding" ≠ [] := by
  decide

theorem one_le_maxHeaderCount :
    1 ≤ Parser.maxHeaderCount := by
  decide

/-- The request for the page with one accepted coding. -/
def pageSource (coding : Parser.AcceptedEncoding) : RequestSource :=
  .head
    { method := octets "GET", target := octets "/page", version := 1
      headers := [⟨octets "accept-encoding", coding.coding, acceptEncoding_ne_nil⟩]
      headerLength := 60, fewHeaders := one_le_maxHeaderCount }

def pageParsed (coding : Parser.AcceptedEncoding) : Parser.ParsedRequest where
  method := octets "GET"
  target := octets "/page"
  path := octets "/page"
  keepAlive := true
  headerBytes := 60
  hasBody := false
  contentLength := none
  hasChunkedTe := false
  headers := [(text "accept-encoding", Octets.toText coding.coding)]
  cookieHeader := none
  isWebsocketUpgrade := false
  wsKey := none
  acceptedEncoding := coding

def pageIncoming (coding : Parser.AcceptedEncoding) : Incoming where
  parsed := pageParsed coding
  lookups :=
    { staticRoute := none, upgrades := false, bodyLimit := none
      matched := some
        { handlerId := 1, cacheNamespace := 1
          cacheConfig := some
            { key := varyCacheKeyByEncoding 7 (encodingOf coding), maxEntries := 1, ttlSecs := 60 }
          ncacheKey := varyCacheKeyByEncoding 9 (encodingOf coding), fastPath := none } }
  bodyArrives := true
  dispatched := some ([200, 0, 0, 0, 100, 0, 0, 0] ++ pageBody)
  streamed := []
  setCookie := none
  now := 0
  storedAt := 0

theorem isKeyed_pageIncoming
    (coding : Parser.AcceptedEncoding) :
    (pageIncoming coding).IsKeyed {7} (pageSource coding) where
  parsed := by cases coding <;> decide
  keyed route matched := by
    cases matched
    exact ⟨7, rfl, rfl⟩
  lower fixed found := by cases found

theorem collisionFree_page : CollisionFree {7} := by
  rintro key rfl other rfl encoding otherEncoding same
  refine ⟨rfl, ?_⟩
  cases encoding <;> cases otherEncoding <;> first | rfl | exact absurd same (by decide)

theorem responds_pageIncoming
    {coding : Parser.AcceptedEncoding} {response : Octets} {status : Nat}
    {headers : List Header} {body : Octets}
    (responds : (pageIncoming coding).Responds response status headers body) :
    status = 200 ∧ headers = [] ∧ body = pageBody := by
  have read : Envelope.readResponse.run ([200, 0, 0, 0, 100, 0, 0, 0] ++ pageBody) =
      .ok (200, [], pageBody) := by
    decide
  cases responds.dispatched
  have same := Except.ok.inj (responds.read.symm.trans read)
  cases same
  exact ⟨rfl, rfl, rfl⟩

/-- The worker behind requests on its other connections, the last one first. -/
def afterPages : List Parser.AcceptedEncoding → TracedRun
  | [] => (connectionMachine (some pageConfig)).traced.start
  | coding :: earlier =>
      ({ (afterPages earlier).1 with
          caches := (afterPages earlier).1.cachesBehind (some pageConfig) (pageIncoming coding) },
        .request false (pageIncoming coding) :: (afterPages earlier).2)

/-- A client that accepts gzip only is answered with the response for one that
accepts gzip, stored or not. -/
theorem codesForAll_afterPage : CodesForAll (some pageConfig) {7} (afterPages [.gzip]) := by
  have room : (pageIncoming .gzip).HasRoom (afterPages []).1.caches := by
    intro route matched response dispatched cacheable
    cases matched
    cases dispatched
    exact fun _ => .inr (by decide)
  have meets : KeyedWithRoom {7} (afterPages []) (.request false (pageIncoming .gzip)) :=
    ⟨⟨_, isKeyed_pageIncoming .gzip⟩, room⟩
  exact codesForAll_of_reachesUnder _ _ collisionFree_page _ (.step .start meets rfl)

theorem reaches_afterPages
    (codings : List Parser.AcceptedEncoding) :
    (connectionMachine (some pageConfig)).traced.ReachesUnder (Keyed {7}) (afterPages codings) := by
  induction codings with
  | nil => exact .start
  | cons coding earlier hypothesis =>
      have meets : Keyed {7} (afterPages earlier) (.request false (pageIncoming coding)) :=
        ⟨_, isKeyed_pageIncoming coding⟩
      exact .step hypothesis meets rfl

theorem earlier_of_mem_afterPages
    {codings : List Parser.AcceptedEncoding} {here : Bool} {earlier : Incoming}
    (member : .request here earlier ∈ (afterPages codings).2) :
    ∃ coding, earlier = pageIncoming coding := by
  induction codings with
  | nil => exact absurd member List.not_mem_nil
  | cons coding rest hypothesis =>
      rcases List.mem_cons.mp member with same | later
      · cases same
        exact ⟨coding, rfl⟩
      · exact hypothesis later

theorem not_accepts_brotli : ¬ (pageSource .gzip).Accepts (octets "br") := by
  rintro ⟨value, listed, element, member, named, -⟩
  have only : (pageSource .gzip).acceptEncodings = [octets "gzip"] := by decide
  rw [only] at listed
  rw [List.mem_singleton.mp listed] at member
  have alone : (octets "gzip").splitOn 44 = [octets "gzip"] := by decide
  rw [alone] at member
  rw [List.mem_singleton.mp member] at named
  exact absurd named (by decide)

/-- The page from a cache, for a connection that is kept, in one coding. -/
def Answer.IsPage (coding : AcceptedEncoding) (answer : Answer) : Prop :=
  ∃ entry, answer = .decided (.cachedResponse entry true) ∧
    cachedResponse entry true = (fastForm 200 [] pageBody true coding (some pageConfig)).octets

instance (coding : AcceptedEncoding) (answer : Answer) : Decidable (answer.IsPage coding) :=
  match answer with
  | .decided (.cachedResponse entry true) =>
      decidable_of_iff
        (cachedResponse entry true =
          (fastForm 200 [] pageBody true coding (some pageConfig)).octets)
        ⟨fun same => ⟨entry, rfl, same⟩, fun ⟨_, same, bytes⟩ => by cases same; exact bytes⟩
  | .decided (.cachedResponse _ false) => isFalse fun ⟨_, same, _⟩ => by cases same
  | .decided (.bridgeRequest _ _ _ _) => isFalse fun ⟨_, same, _⟩ => by cases same
  | .decided (.specializedResponse _) => isFalse fun ⟨_, same, _⟩ => by cases same
  | .static _ => isFalse fun ⟨_, same, _⟩ => by cases same
  | .error _ _ => isFalse fun ⟨_, same, _⟩ => by cases same

/-- Behind three requests the page is found under the key of gzip, in brotli. -/
theorem isPage_afterPages :
    ∃ answer ∈ (chooseAnswer (afterPages [.brotli, .gzip, .identity]).1.caches
      (pageIncoming .gzip)).2, answer.IsPage .brotli := by
  decide +kernel

/-- What is stored for one coding is found under the key of another one, when the
entry before both was evicted. -/
theorem not_codesForAll :
    ¬ ∀ config used run, CollisionFree used →
      (connectionMachine config).traced.ReachesUnder (Keyed used) run →
        CodesForAll config used run := by
  intro everywhere
  obtain ⟨_, chosen, entry, rfl, bytes⟩ := isPage_afterPages
  obtain ⟨⟨headers, body⟩, form, ⟨here, earlier, response, status, expiresAt, member, responds,
    made, rfl⟩, written, coded⟩ := everywhere _ _ _ collisionFree_page
      (reaches_afterPages [.brotli, .gzip, .identity]) _ _ _ (isKeyed_pageIncoming .gzip) chosen
  obtain ⟨coding, rfl⟩ := earlier_of_mem_afterPages member
  obtain ⟨rfl, rfl, rfl⟩ := responds_pageIncoming responds
  have same := bytes.symm.trans (written.trans (List.append_nil _))
  cases coding with
  | identity => exact absurd same (by decide +kernel)
  | gzip => exact absurd same (by decide +kernel)
  | brotli => exact not_accepts_brotli (coded.accepted (octets "br") (by decide)).2

end Response
end HttpNative
