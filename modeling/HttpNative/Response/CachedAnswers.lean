import HttpNative.Response.ConnectionField

/-!
# Answers from the caches

What a request can do to the caches of its worker and get out of them, said once:
which decisions there are for it, and what is stored under which key.
-/

namespace HttpNative
namespace Response

open Envelope (CompressionConfig Header extractNcacheTrailer)
open Router (CacheEntry RouteCaches)

/-- The decisions that there are for a request: an entry comes from the cache of its
route, under the key of the request. -/
inductive Decided (caches : RouteCaches) (incoming : Incoming) : DispatchDecision → Prop
  | notFound : incoming.lookups.matched = none → Decided caches incoming notFoundDecision
  | bridge {route : RouteMatch} :
      incoming.lookups.matched = some route → Decided caches incoming (bridgeDecision route)
  | specialized {route : RouteMatch} {fixed : FixedResponse} :
      incoming.lookups.matched = some route → route.fastPath = some fixed →
      Decided caches incoming (.specializedResponse fixed)
  | cached {route : RouteMatch} {entry : CacheEntry} (keepAlive : Bool) :
      incoming.lookups.matched = some route →
      (caches.lookup route.cacheNamespace route.cacheKey incoming.now).2 = some entry →
      Decided caches incoming (.cachedResponse entry keepAlive)

/-- The caches behind the choice: those before it, or behind the look-up of the
route. -/
def LookedUp (caches : RouteCaches) (incoming : Incoming) (behind : RouteCaches) : Prop :=
  behind = caches ∨ ∃ route ∈ incoming.lookups.matched,
    behind = (caches.lookup route.cacheNamespace route.cacheKey incoming.now).1

theorem decided_zeroCopy
    (caches : RouteCaches)
    (incoming : Incoming)
    (keepAlive : Bool) :
    LookedUp caches incoming
        (buildDispatchDecisionZeroCopy caches incoming.lookups.matched keepAlive
          incoming.now).1 ∧
      Decided caches incoming
        (buildDispatchDecisionZeroCopy caches incoming.lookups.matched keepAlive
          incoming.now).2 := by
  cases matched : incoming.lookups.matched with
  | none => exact ⟨.inl rfl, .notFound matched⟩
  | some route =>
      rw [buildDispatchDecisionZeroCopy]
      cases looked : caches.lookup route.cacheNamespace route.cacheKey incoming.now with
      | mk behind found =>
          have behindLookup : LookedUp caches incoming behind :=
            .inr ⟨route, matched, (congrArg Prod.fst looked).symm⟩
          cases found with
          | some entry =>
              exact ⟨behindLookup, .cached keepAlive matched (congrArg Prod.snd looked)⟩
          | none =>
              dsimp only
              cases fastPath : route.fastPath with
              | some fixed => exact ⟨behindLookup, .specialized matched fastPath⟩
              | none => exact ⟨behindLookup, .bridge matched⟩

theorem decided_owned
    (caches : RouteCaches)
    (incoming : Incoming) :
    LookedUp caches incoming
        (buildDispatchDecisionOwned caches incoming.lookups.matched incoming.now).1 ∧
      Decided caches incoming
        (buildDispatchDecisionOwned caches incoming.lookups.matched incoming.now).2 := by
  cases matched : incoming.lookups.matched with
  | none => exact ⟨.inl rfl, .notFound matched⟩
  | some route =>
      rw [buildDispatchDecisionOwned]
      cases config : route.cacheConfig with
      | some insertion => exact ⟨.inl rfl, .bridge matched⟩
      | none =>
          have key : route.cacheKey = route.ncacheKey := by
            rw [RouteMatch.cacheKey, config]
          dsimp only
          rw [← key]
          cases looked : caches.lookup route.cacheNamespace route.cacheKey incoming.now with
          | mk behind found =>
              have behindLookup : LookedUp caches incoming behind :=
                .inr ⟨route, matched, (congrArg Prod.fst looked).symm⟩
              cases found with
              | some entry =>
                  exact ⟨behindLookup, .cached false matched (congrArg Prod.snd looked)⟩
              | none => exact ⟨behindLookup, .bridge matched⟩

/-- All that a choice can do. -/
theorem decided_of_chooseAnswer
    (caches : RouteCaches)
    (incoming : Incoming) :
    LookedUp caches incoming (chooseAnswer caches incoming).1 ∧
      ∀ decision, (chooseAnswer caches incoming).2 = some (.decided decision) →
        Decided caches incoming decision := by
  have kept {answer : Option Answer} (other : ∀ decision, answer ≠ some (.decided decision)) :
      LookedUp caches incoming caches ∧ ∀ decision, answer = some (.decided decision) →
        Decided caches incoming decision :=
    ⟨.inl rfl, fun decision same => absurd same (other decision)⟩
  unfold chooseAnswer
  dsimp only
  split
  · split
    · exact kept (by simp)
    · exact kept (by simp)
  split
  · exact kept (by simp)
  split
  · exact kept (by simp)
  split
  · obtain ⟨looked, decided⟩ := decided_zeroCopy caches incoming incoming.keepAlive
    refine ⟨looked, ?_⟩
    rintro decision same
    cases same
    exact decided
  split
  · exact kept (by simp)
  split
  · exact kept (by simp)
  split
  · obtain ⟨looked, decided⟩ := decided_owned caches incoming
    refine ⟨looked, ?_⟩
    rintro decision same
    cases same
    exact decided
  · exact kept (by simp)

/-! ## What is stored -/

/-- A response to the request would be stored: the route has a response cache, or the
response has a trailer of the cache. -/
def Incoming.isCacheable (incoming : Incoming) (response : Octets) : Bool :=
  incoming.lookups.matched.any fun route =>
    route.cacheConfig.isSome ||
      (route.handlerId ≠ notFoundHandlerId &&
        (extractNcacheTrailer response).any fun hint => hint.1 > 0)

/-- The dispatch of the request comes to a response. -/
structure Incoming.Responds
    (incoming : Incoming)
    (response : Octets)
    (status : Nat)
    (headers : List Header)
    (body : Octets) :
    Prop where
  dispatched : incoming.dispatched = some response
  notStream : isStreamStart response = false
  read : Envelope.readResponse.run response = .ok (status, headers, body)

/-- The bound of the cache with which the response is stored. -/
def RouteMatch.maxEntries (route : RouteMatch) (response : Octets) : Nat :=
  match route.cacheConfig with
  | some insertion => insertion.maxEntries
  | none => ((extractNcacheTrailer response).map Prod.snd).getD 0

/-- What the request stores of a response under the key of its route. -/
structure Stores
    (config : Option CompressionConfig)
    (incoming : Incoming)
    (route : RouteMatch)
    (response : Octets)
    (entry : CacheEntry) :
    Prop where
  matched : incoming.lookups.matched = some route
  cacheable : incoming.isCacheable response = true
  built : ∃ status headers body expiresAt, incoming.Responds response status headers body ∧
    entry = cacheEntry
      (fastForm status headers body incoming.keepAlive incoming.encoding config).octets
      incoming.keepAlive expiresAt

/-- A request stores nothing, or one response under the key of its route. -/
theorem storeResponse_cases
    {caches before : RouteCaches} {incoming : Incoming} {decision : DispatchDecision}
    (config : Option CompressionConfig)
    (decided : Decided before incoming decision) :
    storeResponse config incoming caches decision = caches ∨
      ∃ route response entry, Stores config incoming route response entry ∧
        storeResponse config incoming caches decision =
          caches.store route.cacheNamespace route.cacheKey entry (route.maxEntries response) := by
  cases decided with
  | specialized matched fastPath => exact .inl rfl
  | cached keepAlive matched looked => exact .inl rfl
  | notFound matched =>
      left
      unfold storeResponse notFoundDecision
      dsimp only
      split
      · rfl
      · split
        · rfl
        · split
          · rfl
          · rfl
  | @bridge route matched =>
      unfold storeResponse bridgeDecision
      dsimp only
      split
      · exact .inl rfl
      · rename_i response dispatched
        split
        · exact .inl rfl
        · rename_i notStream
          rw [buildHttpResponseFromDispatch_form]
          cases ran : Envelope.readResponse.run response with
          | error error => exact .inl rfl
          | ok read =>
              obtain ⟨status, headers, body⟩ := read
              have stores (expiresAt : Nat) (cacheable : incoming.isCacheable response = true) :
                  Stores config incoming route response (cacheEntry
                    (fastForm status headers body incoming.keepAlive incoming.encoding
                      config).octets incoming.keepAlive expiresAt) :=
                ⟨matched, cacheable, status, headers, body, expiresAt,
                  ⟨dispatched, by simpa using notStream, ran⟩, rfl⟩
              dsimp only [Except.map]
              split
              · rename_i insertion cacheNamespace hasConfig sameNamespace
                cases sameNamespace
                have key : insertion.key = route.cacheKey := by
                  rw [RouteMatch.cacheKey, hasConfig]
                have bound : insertion.maxEntries = route.maxEntries response := by
                  rw [RouteMatch.maxEntries, hasConfig]
                have cacheable : incoming.isCacheable response = true := by
                  simp [Incoming.isCacheable, matched, hasConfig]
                rw [key, bound]
                exact .inr ⟨route, response, _, stores _ cacheable, rfl⟩
              · rename_i cacheNamespace ttlSecs maxEntries noConfig sameNamespace hint
                cases sameNamespace
                split
                · rename_i allowed
                  have key : route.ncacheKey = route.cacheKey := by
                    rw [RouteMatch.cacheKey, noConfig]
                  have bound : maxEntries = route.maxEntries response := by
                    rw [RouteMatch.maxEntries, noConfig, hint]
                    rfl
                  have cacheable : incoming.isCacheable response = true := by
                    simp [Incoming.isCacheable, matched, hint, allowed.1, allowed.2]
                  rw [key, bound]
                  exact .inr ⟨route, response, _, stores _ cacheable, rfl⟩
                · exact .inl rfl
              · exact .inl rfl

/-- The caches behind a request: those behind its choice, with one response stored or
none. -/
theorem cachesBehind_cases
    (config : Option CompressionConfig)
    (run : ConnectionRun)
    (incoming : Incoming) :
    run.cachesBehind config incoming = (chooseAnswer run.caches incoming).1 ∨
      ∃ route response entry, Stores config incoming route response entry ∧
        run.cachesBehind config incoming =
          (chooseAnswer run.caches incoming).1.store route.cacheNamespace route.cacheKey entry
            (route.maxEntries response) := by
  have decided := (decided_of_chooseAnswer run.caches incoming).2
  unfold ConnectionRun.cachesBehind
  split
  · rename_i behind decision same
    rw [same] at decided ⊢
    exact storeResponse_cases config (decided decision rfl)
  · rename_i same
    rw [same]
    exact .inl rfl

/-- What holds of the entries before a request and of what it stores holds behind
it. -/
theorem allEntries_cachesBehind
    {config : Option CompressionConfig} {run : ConnectionRun} {incoming : Incoming}
    {property : CacheEntry → Prop}
    (all : run.caches.AllEntries property)
    (stored : ∀ route response entry, Stores config incoming route response entry →
      property entry) :
    (run.cachesBehind config incoming).AllEntries property := by
  have chosen := (chooseAnswer_entries all incoming).1
  obtain same | ⟨route, response, entry, stores, same⟩ := cachesBehind_cases config run incoming
  · rw [same]
    exact chosen
  · rw [same]
    exact chosen.store _ _ (stored route response entry stores) _

/-- What a step does to the caches. -/
theorem caches_of_step
    {config : Option CompressionConfig} {run next : ConnectionRun} {event : ConnectionEvent}
    (stepped : run.step config event = some next) :
    (∃ here incoming, event = .request here incoming ∧
        next.caches = run.cachesBehind config incoming) ∨
      (∃ valid, next.caches = run.caches.retain valid) ∨ next.caches = run.caches := by
  unfold ConnectionRun.step at stepped
  split at stepped
  · cases stepped
    exact .inl ⟨_, _, rfl, rfl⟩
  · cases stepped
    exact .inr (.inl ⟨_, rfl⟩)
  · split at stepped
    · cases stepped
      exact .inl ⟨_, _, rfl, caches_advance _ _⟩
    · cases stepped
  · split at stepped
    · cases stepped
      exact .inr (.inr (caches_advance _ _))
    · cases stepped

end Response
end HttpNative
