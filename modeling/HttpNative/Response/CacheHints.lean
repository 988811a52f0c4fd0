import HttpNative.Library.JsNumber
import HttpNative.Response.ConnectionAnswers
import HttpNative.Response.HeaderSetters

/-!
# The numbers of a cache hint

`res.ncache` is given the lifetime and the number of entries as numbers of
JavaScript. The trailer of the envelope has 32 bits for each: a number that is too
large loses its upper bits there, and infinity comes out as zero.
-/

namespace HttpNative
namespace Response

open Envelope
  (CacheHint CompressionConfig encodeHints encodeResponseEnvelope extractNcacheTrailer
    ncacheMaxBodySize ncacheMaxTtlSecs)
open Router (RouteCache RouteCaches)

/-! ## The hint -/

/-- What `res.ncache` keeps. -/
structure NumberHint where
  ttl : JsNumber
  maxEntries : JsNumber

/-- `ttlSecs` and `maxEntries` of `res.ncache`; options without a bound have one that is
not a number. -/
def ncacheHint (ttl maxEntries : JsNumber) : NumberHint where
  ttl := ((ttl.orElse 60).floor).atLeast 1
  maxEntries := ((maxEntries.orElse 256).floor).atLeast 1

/-- The trailer that `encodeResponseEnvelope` appends. -/
def encodeTrailer (hint : NumberHint) : Octets :=
  [0xca, 0xce] ++ (writeU32 hint.ttl.toUint32 ++ writeU32 hint.maxEntries.toUint32)

/-- The hint as it is written. -/
def NumberHint.written (hint : NumberHint) : CacheHint where
  ttl := hint.ttl.toUint32.toNat
  maxEntries := hint.maxEntries.toUint32.toNat

theorem encodeHints_written
    (hint : NumberHint) :
    encodeHints (some hint.written) = encodeTrailer hint := by
  rw [encodeTrailer, writeU32_eq, writeU32_eq, encodeHints]
  rfl

/-- A call of `res.ncache`. -/
def ncacheCall (serialized : Option Octets) (ttl maxEntries : JsNumber) : ResponseCall :=
  .ncache serialized (ncacheHint ttl maxEntries).written

/-- The seconds for which the response is to be cached. -/
def askedLifetime (ttl : JsNumber) : Nat :=
  (ncacheHint ttl .notANumber).ttl.upTo ncacheMaxTtlSecs

/-- The largest number that the trailer can carry. -/
def largestBound : Nat := 2 ^ 32 - 1

/-- The number of entries that are asked for. -/
def askedCapacity (maxEntries : JsNumber) : Nat :=
  (ncacheHint .notANumber maxEntries).maxEntries.upTo largestBound

/-! ## What is stored -/

/-- The response is stored for a number of seconds in the cache of its route, which
gets a capacity. -/
def StoredFor
    (config : Option CompressionConfig)
    (incoming : Incoming)
    (route : RouteMatch)
    (lifetime capacity : Nat) :
    Prop :=
  ∃ httpResponse, ∀ caches,
    storeResponse config incoming caches (bridgeDecision route) =
      caches.store route.cacheNamespace route.ncacheKey
        (cacheEntry httpResponse incoming.keepAlive (incoming.storedAt + lifetime)) capacity

/-- The handlers call `res.ncache` while the response is open. -/
def Handling.CallsNcache
    (toLowerCase : Text → Text)
    (handling : Handling)
    (body : Octets)
    (ttl maxEntries : JsNumber) :
    Prop :=
  ∃ before after, handling.calls = before ++ ncacheCall (some body) ttl maxEntries :: after ∧
    (before.foldl (ResponseState.call toLowerCase) acquireResponseState).finished = false

/-- A dispatch whose response can be cached by a hint: it is sent, small enough, and
read as a response, and the route has a handler and no cache of its own. -/
structure Cacheable
    (toLowerCase : Text → Text)
    (handling : Handling)
    (incoming : Incoming)
    (route : RouteMatch) :
    Prop where
  sent : ∃ response,
    encodeResponseEnvelope (handling.final toLowerCase).snapshot = .ok response ∧
      isStreamStart response = false
  dispatched : incoming.dispatched = handling.envelope toLowerCase
  matched : incoming.lookups.matched = some route
  status : (handling.final toLowerCase).status < 65536
  count : (handling.final toLowerCase).headers.length < 65536
  small : (handling.final toLowerCase).body.length ≤ ncacheMaxBodySize
  hasHandler : route.handlerId ≠ notFoundHandlerId
  noConfig : route.cacheConfig = none

/-! ## The response of the handlers -/

section Calls

variable (toLowerCase : Text → Text) {state : ResponseState}

/-- What is settled when a response is finished. -/
def ResponseState.settled (state : ResponseState) : Octets × Bool × Option CacheHint × Option Nat :=
  (state.body, state.finished, state.ncache, state.streamId)

/-- A finished response stays as it is, but for its status and its headers. -/
theorem settled_call
    (finished : state.finished = true)
    (made : ResponseCall) :
    (state.call toLowerCase made).settled = state.settled := by
  have set (name value : Text) : (state.set toLowerCase name value).settled = state.settled := by
    unfold ResponseState.set
    split
    · rfl
    · rfl
  cases made with
  | status code => rfl
  | set name value => exact set name value
  | header name value => exact set name value
  | type value => exact set _ _
  | json serialized => simp only [ResponseState.call, ResponseState.json, finished, if_true]
  | html status headers body => simp only [ResponseState.call, ResponseState.html, finished, if_true]
  | sendBuffer data => simp only [ResponseState.call, finished, if_true]
  | sendString data => simp only [ResponseState.call, ResponseState.sendString, finished, if_true]
  | sendNothing => simp only [ResponseState.call, finished, if_true]
  | sendStatus code =>
      simp only [ResponseState.call, ResponseState.sendString, ResponseState.withDefaultType,
        ResponseState.settled, finished, if_true]
  | ncache serialized hint => simp only [ResponseState.call, ResponseState.cache, finished, if_true]
  | stream streamId contentType =>
      simp only [ResponseState.call, ResponseState.stream, finished, if_true]
  | redirect url status => simp only [ResponseState.call, ResponseState.redirect, finished, if_true]

theorem settled_foldl
    (finished : state.finished = true)
    (calls : List ResponseCall) :
    (calls.foldl (ResponseState.call toLowerCase) state).settled = state.settled := by
  induction calls generalizing state with
  | nil => rfl
  | cons made rest hypothesis =>
      have kept := settled_call toLowerCase finished made
      have still : (state.call toLowerCase made).finished = true :=
        (congrArg (fun settled => settled.2.1) kept).trans finished
      exact (hypothesis still).trans kept

/-- Only what finishes a response starts a stream. -/
theorem streamId_call
    {made : ResponseCall}
    (opened : (state.call toLowerCase made).finished = false) :
    (state.call toLowerCase made).streamId = state.streamId := by
  cases ended : state.finished with
  | true => exact congrArg (fun settled => settled.2.2.2) (settled_call toLowerCase ended made)
  | false =>
      cases made with
      | stream streamId contentType =>
          rw [ResponseState.call, ResponseState.stream, ended] at opened
          cases opened
      | json serialized =>
          rw [ResponseState.call, ResponseState.json, ended]
          cases serialized <;> rfl
      | ncache serialized hint =>
          rw [ResponseState.call, ResponseState.cache, ended]
          cases serialized <;> rfl
      | status code => rfl
      | set name value =>
          rw [ResponseState.call, ResponseState.set]
          split <;> rfl
      | header name value =>
          rw [ResponseState.call, ResponseState.set]
          split <;> rfl
      | type value =>
          rw [ResponseState.call, ResponseState.set]
          split <;> rfl
      | html status headers body => rw [ResponseState.call, ResponseState.html, ended]; rfl
      | sendBuffer data => rw [ResponseState.call, ended]; rfl
      | sendString data => rw [ResponseState.call, ResponseState.sendString, ended]; rfl
      | sendNothing => rw [ResponseState.call, ended]; rfl
      | sendStatus code =>
          rw [ResponseState.call, ResponseState.sendString, ResponseState.withDefaultType]
          split <;> rfl
      | redirect url status =>
          rw [ResponseState.call, ResponseState.redirect, ended]
          cases includesBreak url <;> rfl

theorem streamId_foldl
    {calls : List ResponseCall}
    (opened : (calls.foldl (ResponseState.call toLowerCase) state).finished = false) :
    (calls.foldl (ResponseState.call toLowerCase) state).streamId = state.streamId := by
  induction calls generalizing state with
  | nil => rfl
  | cons made rest hypothesis =>
      have still : (state.call toLowerCase made).finished = false := by
        by_contra closed
        have finished := (Bool.not_eq_false _).mp closed
        have kept := settled_foldl toLowerCase finished rest
        have ended := (congrArg (fun settled => settled.2.1) kept).trans finished
        exact Bool.false_ne_true (opened.symm.trans ended)
      exact (hypothesis opened).trans (streamId_call toLowerCase still)

/-- The first call that finishes the response decides. -/
theorem settled_final
    {handling : Handling} {body : Octets} {ttl maxEntries : JsNumber}
    (called : handling.CallsNcache toLowerCase body ttl maxEntries) :
    (handling.final toLowerCase).settled =
      (body, true, some (ncacheHint ttl maxEntries).written, none) := by
  obtain ⟨before, after, calls, opened⟩ := called
  have noStream := streamId_foldl toLowerCase opened
  rw [Handling.final, calls, List.foldl_append, List.foldl_cons]
  generalize before.foldl (ResponseState.call toLowerCase) acquireResponseState = state
    at opened noStream
  have made : state.call toLowerCase (ncacheCall (some body) ttl maxEntries) =
      { (state.withDefaultType jsonType).finish body with
        ncache := some (ncacheHint ttl maxEntries).written } := by
    rw [ncacheCall, ResponseState.call, ResponseState.cache, opened]
    rfl
  rw [settled_foldl toLowerCase (by rw [made]; rfl), made, ResponseState.settled]
  exact congrArg (fun streamId => (body, true, some (ncacheHint ttl maxEntries).written, streamId))
    noStream

end Calls

/-! ## What the worker makes of it -/

section Worker

variable {toLowerCase : Text → Text} {handling : Handling} {body : Octets}
  {ttl maxEntries : JsNumber} {incoming : Incoming} {route : RouteMatch}

theorem envelope_eq
    (called : handling.CallsNcache toLowerCase body ttl maxEntries)
    {response : Octets}
    (encoded : encodeResponseEnvelope (handling.final toLowerCase).snapshot = .ok response) :
    handling.envelope toLowerCase = some response := by
  have settled := settled_final toLowerCase called
  have noStream : (handling.final toLowerCase).streamId = none :=
    congrArg (fun settled => settled.2.2.2) settled
  have finished : (handling.final toLowerCase).finished = true :=
    congrArg (fun settled => settled.2.1) settled
  have own : handling.sentSnapshot toLowerCase = (handling.final toLowerCase).snapshot := by
    unfold Handling.sentSnapshot
    cases handling.outcome with
    | returned => rfl
    | failed status body =>
        dsimp only
        rw [finished, encoded]
        rfl
  have notStarted : handling.startedStream toLowerCase = none := by
    unfold Handling.startedStream
    cases handling.outcome with
    | returned => exact noStream
    | failed status body => rfl
  rw [Handling.envelope, notStarted, own, encoded]
  rfl

/-- What is stored for a hint; nothing is, when the trailer has no seconds. -/
theorem storeResponse_hint
    (called : handling.CallsNcache toLowerCase body ttl maxEntries)
    (cacheable : Cacheable toLowerCase handling incoming route)
    (config : Option CompressionConfig) :
    ∃ httpResponse, ∀ caches,
      storeResponse config incoming caches (bridgeDecision route) =
        let hint := (ncacheHint ttl maxEntries).written
        if 0 < min hint.ttl ncacheMaxTtlSecs then
          caches.store route.cacheNamespace route.ncacheKey
            (cacheEntry httpResponse incoming.keepAlive
              (incoming.storedAt + min hint.ttl ncacheMaxTtlSecs)) hint.maxEntries
        else
          caches := by
  obtain ⟨response, encoded, notStream⟩ := cacheable.sent
  have settled := settled_final toLowerCase called
  have sameHint : (handling.final toLowerCase).ncache =
      some (ncacheHint ttl maxEntries).written :=
    congrArg (fun settled => settled.2.2.1) settled
  have small := cacheable.small
  have sent := Envelope.sent_of_encode encoded
  have countFits : (Envelope.sentHeaders (handling.final toLowerCase).snapshot.headers).length <
      LittleEndian.limit 2 := by
    rw [Envelope.sentHeaders, List.length_map, ResponseState.snapshot, List.length_map]
    exact cacheable.count
  have bodyFits : (handling.final toLowerCase).body.length < LittleEndian.limit 4 :=
    Nat.lt_of_le_of_lt small (by decide)
  have hintFits : ∀ hint ∈ (handling.final toLowerCase).ncache,
      hint.ttl < 4294967296 ∧ hint.maxEntries < 4294967296 := by
    rw [sameHint]
    rintro hint ⟨rfl⟩
    exact ⟨BitVec.isLt _, BitVec.isLt _⟩
  have hint := Envelope.extractNcacheTrailer_frame cacheable.status countFits bodyFits sent.headers
    hintFits small
  have read := Envelope.reads_readResponse cacheable.status countFits bodyFits sent.headers
  have trailer : extractNcacheTrailer response =
      some (min (ncacheHint ttl maxEntries).written.ttl ncacheMaxTtlSecs,
        (ncacheHint ttl maxEntries).written.maxEntries) := by
    rw [sent.envelope, Envelope.responseFrame_eq]
    exact hint.trans (congrArg _ sameHint)
  have ran : Envelope.readResponse.run response =
      .ok ((handling.final toLowerCase).status,
        Envelope.sentHeaders (handling.final toLowerCase).snapshot.headers,
        (handling.final toLowerCase).body) := by
    rw [sent.envelope, Envelope.responseFrame_eq]
    exact read.run_append _
  obtain ⟨httpResponse, built⟩ : ∃ httpResponse, Envelope.buildHttpResponseFromDispatch response
      incoming.keepAlive incoming.encoding config = .ok httpResponse := by
    rw [buildHttpResponseFromDispatch_form, ran]
    exact ⟨_, rfl⟩
  refine ⟨httpResponse, fun caches => ?_⟩
  rw [bridgeDecision, cacheable.noConfig, storeResponse, cacheable.dispatched,
    envelope_eq called encoded]
  dsimp only
  rw [notStream, built, trailer]
  dsimp only
  rw [if_neg Bool.false_ne_true]
  simp only [ne_eq, cacheable.hasHandler, not_false_eq_true, true_and, gt_iff_lt]

/-! ## When the numbers survive -/

theorem positive_ttl
    (ttl maxEntries : JsNumber) :
    ttl.Positive (ncacheHint ttl maxEntries).ttl := by
  have positive := JsNumber.positive_atLeast_one (show 1 ≤ 60 by decide) (by decide) ttl
  rwa [Nat.cast_ofNat] at positive

theorem positive_maxEntries
    (ttl maxEntries : JsNumber) :
    maxEntries.Positive (ncacheHint ttl maxEntries).maxEntries := by
  have positive := JsNumber.positive_atLeast_one (show 1 ≤ 256 by decide) (by decide) maxEntries
  rwa [Nat.cast_ofNat] at positive

theorem askedLifetime_pos
    (ttl : JsNumber) :
    0 < askedLifetime ttl := by
  have positive := positive_ttl ttl .notANumber
  unfold askedLifetime
  generalize (ncacheHint ttl .notANumber).ttl = seconds at positive ⊢
  cases positive with
  | whole value least fits =>
      rw [JsNumber.upTo_natCast]
      exact Nat.lt_min.mpr ⟨least, by decide⟩
  | infinity isInfinite => decide

theorem askedCapacity_pos
    (maxEntries : JsNumber) :
    1 ≤ askedCapacity maxEntries := by
  have positive := positive_maxEntries .notANumber maxEntries
  unfold askedCapacity
  generalize (ncacheHint .notANumber maxEntries).maxEntries = bound at positive ⊢
  cases positive with
  | whole value least fits =>
      rw [JsNumber.upTo_natCast]
      exact Nat.le_min.mpr ⟨least, by decide⟩
  | infinity isInfinite => decide

/-- The lifetime that the trailer comes to is the one that is asked for just when the
seconds fit, or what is left of them is still the longest lifetime. -/
theorem lifetime_eq_iff
    (ttl maxEntries : JsNumber) :
    min (ncacheHint ttl maxEntries).written.ttl ncacheMaxTtlSecs = askedLifetime ttl ↔
      ttl.FitsUpTo ncacheMaxTtlSecs := by
  have most : ncacheMaxTtlSecs = 86400 := rfl
  have positive := positive_ttl ttl maxEntries
  change min (ncacheHint ttl maxEntries).ttl.toUint32.toNat ncacheMaxTtlSecs =
    (ncacheHint ttl maxEntries).ttl.upTo ncacheMaxTtlSecs ↔ _
  generalize (ncacheHint ttl maxEntries).ttl = seconds at positive ⊢
  cases positive with
  | whole value least fits =>
      rw [JsNumber.upTo_natCast, JsNumber.toUint32_natCast, fits]
      omega
  | infinity isInfinite =>
      rw [isInfinite]
      exact iff_of_false (by decide) id

/-- The capacity that the trailer comes to is the one that is asked for just when the
number fits, or what is left of it is still the largest one. -/
theorem capacity_eq_iff
    (ttl maxEntries : JsNumber) :
    max (ncacheHint ttl maxEntries).written.maxEntries 1 = askedCapacity maxEntries ↔
      maxEntries.FitsUpTo largestBound := by
  have most : largestBound = 4294967295 := rfl
  have positive := positive_maxEntries ttl maxEntries
  change max (ncacheHint ttl maxEntries).maxEntries.toUint32.toNat 1 =
    (ncacheHint ttl maxEntries).maxEntries.upTo largestBound ↔ _
  generalize (ncacheHint ttl maxEntries).maxEntries = bound at positive ⊢
  cases positive with
  | whole value least fits =>
      rw [JsNumber.upTo_natCast, JsNumber.toUint32_natCast, fits]
      omega
  | infinity isInfinite =>
      rw [isInfinite]
      exact iff_of_false (by decide) id

/-- What is stored is what the trailer says. -/
theorem storedFor_written_iff
    (called : handling.CallsNcache toLowerCase body ttl maxEntries)
    (cacheable : Cacheable toLowerCase handling incoming route)
    (config : Option CompressionConfig)
    {lifetime capacity : Nat}
    (seconds : 0 < lifetime)
    (entries : 0 < capacity) :
    StoredFor config incoming route lifetime capacity ↔
      min (ncacheHint ttl maxEntries).written.ttl ncacheMaxTtlSecs = lifetime ∧
        max (ncacheHint ttl maxEntries).written.maxEntries 1 = capacity := by
  obtain ⟨httpResponse, stored⟩ := storeResponse_hint called cacheable config
  generalize (ncacheHint ttl maxEntries).written = hint at stored ⊢
  constructor
  · rintro ⟨response, asked⟩
    have empty := (stored fun _ => none).symm.trans (asked fun _ => none)
    dsimp only at empty
    split at empty
    · obtain ⟨sameEntry, capacities⟩ := RouteCaches.store_none_inj empty
      have expiry : incoming.storedAt + min hint.ttl ncacheMaxTtlSecs =
          incoming.storedAt + lifetime :=
        congrArg Router.CacheEntry.expiresAt sameEntry
      rw [max_eq_left (Nat.succ_le_of_lt entries)] at capacities
      exact ⟨Nat.add_left_cancel expiry, capacities⟩
    · have cache := congrFun empty route.cacheNamespace
      rw [RouteCaches.store, Function.update_self] at cache
      cases cache
  · rintro ⟨rfl, rfl⟩
    refine ⟨httpResponse, fun caches => ?_⟩
    rw [stored, RouteCaches.store_max_one]
    exact if_pos seconds

/-- A response is stored for as long as it is asked for, with as many entries, just
when both numbers survive the trailer. -/
theorem storedFor_iff
    (called : handling.CallsNcache toLowerCase body ttl maxEntries)
    (cacheable : Cacheable toLowerCase handling incoming route)
    (config : Option CompressionConfig) :
    StoredFor config incoming route (askedLifetime ttl) (askedCapacity maxEntries) ↔
      ttl.FitsUpTo ncacheMaxTtlSecs ∧ maxEntries.FitsUpTo largestBound := by
  rw [← lifetime_eq_iff ttl maxEntries, ← capacity_eq_iff ttl maxEntries]
  exact storedFor_written_iff called cacheable config (askedLifetime_pos ttl)
    (askedCapacity_pos maxEntries)

end Worker

/-! ## A hint for ever -/

/-- A handler that caches an empty list. -/
def listHandling (ttl maxEntries : JsNumber) : Handling where
  calls := [ncacheCall (some (octets "[]")) ttl maxEntries]
  outcome := .returned

def listRoute : RouteMatch where
  handlerId := 1
  cacheNamespace := 1
  cacheConfig := none
  ncacheKey := 7
  fastPath := none

def listRequest (ttl maxEntries : JsNumber) : Incoming where
  parsed :=
    { method := octets "GET", target := octets "/list", path := octets "/list"
      keepAlive := true, headerBytes := 60, hasBody := false, contentLength := none
      hasChunkedTe := false, headers := [], cookieHeader := none, isWebsocketUpgrade := false
      wsKey := none, acceptedEncoding := .identity }
  lookups :=
    { staticRoute := none, upgrades := false, bodyLimit := none, matched := some listRoute }
  bodyArrives := true
  dispatched := (listHandling ttl maxEntries).envelope id
  streamed := []
  setCookie := none
  now := 0
  storedAt := 0

theorem callsNcache_list
    (ttl maxEntries : JsNumber) :
    (listHandling ttl maxEntries).CallsNcache id (octets "[]") ttl maxEntries :=
  ⟨[], [], rfl, rfl⟩

theorem cacheable_list
    (ttl maxEntries : JsNumber) :
    Cacheable id (listHandling ttl maxEntries) (listRequest ttl maxEntries) listRoute where
  sent := ⟨_, rfl, rfl⟩
  dispatched := rfl
  matched := rfl
  status := show 200 < 65536 by decide
  count := show 1 < 65536 by decide
  small := show 2 ≤ ncacheMaxBodySize by decide
  hasHandler := by decide
  noConfig := rfl

/-- Thirty seconds and a half are stored for thirty, and a bound that is no number for
the default one. -/
theorem storedFor_iff_list :
    StoredFor none (listRequest (.finite (61 / 2)) .notANumber) listRoute
      (askedLifetime (.finite (61 / 2))) (askedCapacity .notANumber) := by
  refine (storedFor_iff (callsNcache_list _ _) (cacheable_list _ _) none).mpr ⟨.inl ?_, trivial⟩
  norm_num

/-- What is to be cached for ever is not cached. -/
theorem not_storedFor_infinity :
    ¬ ∀ toLowerCase handling body ttl maxEntries incoming route config,
      handling.CallsNcache toLowerCase body ttl maxEntries →
        Cacheable toLowerCase handling incoming route →
          StoredFor config incoming route (askedLifetime ttl) (askedCapacity maxEntries) := by
  intro always
  have stored := always _ _ _ _ _ _ _ none (callsNcache_list .infinity .notANumber)
    (cacheable_list .infinity .notANumber)
  rw [storedFor_written_iff (callsNcache_list _ _) (cacheable_list _ _) none (by decide)
    (by decide)] at stored
  revert stored
  decide

end Response
end HttpNative
