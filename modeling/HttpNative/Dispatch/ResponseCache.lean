import HttpNative.Bridge.RequestFactory
import HttpNative.Library.Machine
import HttpNative.Response.HeaderSetters

/-!
# The runtime response cache

A route whose source is not seen to read the request is given a cache. When
sixteen of its responses in a row have had the same hash, the last one answers
every later request, whoever sends it. The handler may still read the address
and the body of a request, so the cache serves the answers of the handler
exactly when an answer that can be cached does not depend on these.
-/

namespace HttpNative
namespace Dispatch

open Bridge
  (Client Delivery HandlerRequest RequestAccessPlan analyzeRequestAccess blindRequest
    createRequestFactory emptyAccessPlan mergeRequestAccessPlans)
open Envelope (Snapshot decodeRequestEnvelope encodeResponseEnvelope)
open Response (Handling)
open SyntaxTree (Node)

/-! ## The key of a response -/

/-- `ROUTE_CACHE_PROMOTE_HITS`. -/
def promoteHits : Nat := 16

/-- What `charCodeAt` gives along a string. -/
def charCodes (input : Text) : List Nat :=
  input.flatMap fun char =>
    if char.toNat < 0x10000 then
      [char.toNat]
    else
      [0xD800 + (char.toNat - 0x10000) / 0x400, 0xDC00 + (char.toNat - 0x10000) % 0x400]

/-- The state of the two lanes. -/
structure Fnv1a where
  lo : UInt32
  hi : UInt32
deriving DecidableEq

namespace Fnv1a

def ofSeed (seed : UInt32) : Fnv1a where
  lo := seed
  hi := seed ^^^ 0x6c62272e

/-- `fnv1aString` and `fnv1aBytes`, on the codes of a string or the octets. -/
def feed (hash : Fnv1a) (codes : List Nat) : Fnv1a :=
  codes.foldl (fun hash code =>
    ⟨(hash.lo ^^^ UInt32.ofNat code) * 0x01000193,
      (hash.hi ^^^ UInt32.ofNat code) * 0x01000193⟩) hash

end Fnv1a

/-- The number nearest to a natural number that has a significand of 53 bits, to
the even one of two. -/
def toDouble (number : Nat) : Nat :=
  let unit := 2 ^ (number.log2 + 1 - 53)
  let below := number / unit
  let rest := number % unit
  if 2 * rest < unit ∨ 2 * rest = unit ∧ below % 2 = 0 then below * unit else (below + 1) * unit

/-- What the text of a key is made of. The hash is written in hexadecimal, which
tells any two numbers apart, and colons separate the three. -/
structure SnapshotCacheKey where
  hash : Nat
  bodyLength : Nat
  headerCount : Nat
deriving DecidableEq

def buildSnapshotCacheKey (snapshot : Snapshot) : SnapshotCacheKey :=
  let status := (Fnv1a.ofSeed 0x811c9dc5).feed (charCodes (Decimal.write snapshot.statusCode))
  let fields := snapshot.headers.foldl (fun hash header =>
    (hash.feed (charCodes (Utf8.decodeLossy header.1))).feed
      (charCodes (Utf8.decodeLossy header.2))) status
  let hash := fields.feed (snapshot.body.map UInt8.toNat)
  { hash := toDouble (hash.hi.toNat * 0x100000000 + hash.lo.toNat)
    bodyLength := snapshot.body.length
    headerCount := snapshot.headers.length }

/-- The cache of a route: the promoted envelope, the key of the last response and
how often it has come in a row. -/
structure RouteResponseCache where
  encoded : Option Octets
  lastKey : Option SnapshotCacheKey
  stableHits : Nat
deriving DecidableEq

def RouteResponseCache.empty : RouteResponseCache where
  encoded := none
  lastKey := none
  stableHits := 0

/-- `maybePromoteRouteResponseCache`. -/
def RouteResponseCache.maybePromote
    (cache : RouteResponseCache)
    (snapshot : Snapshot)
    (encoded : Octets) :
    RouteResponseCache :=
  if cache.encoded.isSome then
    cache
  else
    let key := buildSnapshotCacheKey snapshot
    let hits := if cache.lastKey = some key then cache.stableHits + 1 else 1
    { encoded := if hits ≥ promoteHits then some encoded else none
      lastKey := some key
      stableHits := hits }

/-! ## Eligible routes -/

/-- What is compiled together with the routes of an application. -/
structure CacheSetting (Handler : Type) where
  middlewares : List (Routing.Middleware Handler)
  middlewareSource : Handler → Text
  /-- How many error handlers are registered. -/
  errorHandlers : Nat
  /-- `opt.cache === true`. -/
  cache : Bool

/-- `ERROR_HANDLER_PLAN`. -/
def errorHandlerPlan : RequestAccessPlan :=
  { emptyAccessPlan with method := true, path := true, url := true }

/-- The sources that `createRouteResponseCache` refuses for what they hold. -/
def unstableTexts : List Text :=
  [text "await", text "Date.now", text "new Date", text "Math.random", text "crypto."]

section Eligible

variable {Handler : Type} (acornParse : Text → Option Node) (setting : CacheSetting Handler)
  (route : Routing.CompiledRoute)

/-- The `requestPlan` of `compileRouteDispatch`. -/
def requestPlan : RequestAccessPlan :=
  mergeRequestAccessPlans
    (analyzeRequestAccess acornParse route.handlerSource ::
      ((Routing.applicableMiddlewares setting.middlewares route).map fun middleware =>
        analyzeRequestAccess acornParse (setting.middlewareSource middleware.handler)) ++
      List.replicate setting.errorHandlers errorHandlerPlan)

def createRouteResponseCache : Option RouteResponseCache :=
  if route.staticResponse then none
  else if !setting.cache then none
  else if route.method ≠ .get ∨ ':' ∈ route.path then none
  else if Routing.applicableMiddlewares setting.middlewares route ≠ [] then none
  else if !(requestPlan acornParse setting route).hasNoRequestAccess then none
  else if unstableTexts.any fun unstable => Text.includesText unstable route.handlerSource then none
  else some .empty

/-- What is known of a route that is given a cache. -/
structure IsEligible (cache : RouteResponseCache) : Prop where
  cache : cache = .empty
  method : route.method = .get
  alone : Routing.applicableMiddlewares setting.middlewares route = []
  plan : requestPlan acornParse setting route = emptyAccessPlan

variable {acornParse setting route}

theorem isEligible_of_create
    {cache : RouteResponseCache}
    (created : createRouteResponseCache acornParse setting route = some cache) :
    IsEligible acornParse setting route cache := by
  unfold createRouteResponseCache at created
  split_ifs at created with _ _ notGet middlewares access
  rw [not_or, not_not] at notGet
  rw [not_not] at middlewares
  rw [Bool.not_eq_true', Bool.not_eq_false] at access
  exact ⟨(Option.some.inj created).symm, notGet.1, middlewares,
    RequestAccessPlan.hasNoRequestAccess_iff.mp access⟩

/-- Every check of `createRouteResponseCache` is passed. -/
theorem isSome_createRouteResponseCache :
    (createRouteResponseCache acornParse setting route).isSome = true ↔
      route.staticResponse = false ∧ setting.cache = true ∧ route.method = .get ∧
        ':' ∉ route.path ∧ Routing.applicableMiddlewares setting.middlewares route = [] ∧
        (requestPlan acornParse setting route).hasNoRequestAccess = true ∧
        ∀ unstable ∈ unstableTexts, Text.includesText unstable route.handlerSource = false := by
  unfold createRouteResponseCache
  split_ifs with static off notGet middlewares access unstable
  · simp [static]
  · simp [(Bool.not_eq_true' _).mp off]
  · simp only [Option.isSome_none, Bool.false_eq_true, false_iff]
    rintro ⟨_, _, get, exact, _⟩
    exact notGet.elim (fun other => other get) exact
  · simp [middlewares]
  · simp [(Bool.not_eq_true' _).mp access]
  · simp only [Option.isSome_none, Bool.false_eq_true, false_iff]
    rintro ⟨_, _, _, _, _, _, stable⟩
    obtain ⟨text, member, included⟩ := List.any_eq_true.mp unstable
    rw [stable text member] at included
    cases included
  · rw [not_or, not_not] at notGet
    rw [not_not] at middlewares
    simp_all

/-- Of the handlers that can be parsed, those are given a cache in whose tree the
walk sees nothing of the request, whatever else they do with it. -/
theorem isSome_createRouteResponseCache_iff
    {ast : Node}
    (parsed : acornParse (text "(" ++ route.handlerSource ++ text ")") = some ast) :
    (createRouteResponseCache acornParse setting route).isSome = true ↔
      route.staticResponse = false ∧ setting.cache = true ∧ route.method = .get ∧
        ':' ∉ route.path ∧ Routing.applicableMiddlewares setting.middlewares route = [] ∧
        setting.errorHandlers = 0 ∧
        (∀ unstable ∈ unstableTexts, Text.includesText unstable route.handlerSource = false) ∧
        ∀ visit ∈ ast.visits none,
          Bridge.seesRequest (Bridge.findReqParamNames (ast.visits none)) visit = false := by
  have analyzed : analyzeRequestAccess acornParse route.handlerSource =
      Bridge.analyzeRequestAccessAst ast := by
    rw [analyzeRequestAccess, parsed]
  have planned : Routing.applicableMiddlewares setting.middlewares route = [] →
      ((requestPlan acornParse setting route).hasNoRequestAccess = true ↔
        setting.errorHandlers = 0 ∧ ∀ visit ∈ ast.visits none,
          Bridge.seesRequest (Bridge.findReqParamNames (ast.visits none)) visit = false) := by
    intro alone
    have noisy : errorHandlerPlan.hasNoRequestAccess = false := rfl
    rw [requestPlan, alone, Bridge.hasNoRequestAccess_mergeRequestAccessPlans, analyzed]
    simp [Bridge.hasNoRequestAccess_analyzeRequestAccessAst, noisy, and_comm]
  rw [isSome_createRouteResponseCache]
  constructor
  · rintro ⟨static, cache, get, exact, alone, blind, stable⟩
    exact ⟨static, cache, get, exact, alone, ((planned alone).mp blind).1, stable,
      ((planned alone).mp blind).2⟩
  · rintro ⟨static, cache, get, exact, alone, handlers, stable, unseen⟩
    exact ⟨static, cache, get, exact, alone, (planned alone).mpr ⟨handlers, unseen⟩, stable⟩

end Eligible

/-! ## The dispatcher of a route -/

/-- What dispatching a request with an own answer of the handler comes to. -/
def cacheable (toLowerCase : Text → Text) (handling : Handling) : Option Octets :=
  match handling.outcome, handling.startedStream toLowerCase with
  | .returned, none => handling.envelope toLowerCase
  | _, _ => none

/-- A route while requests are answered: its cache, and the requests whose
handlers have not come to their end. -/
structure CachedRoute where
  cache : RouteResponseCache
  pending : List Handling

inductive CacheEvent (plan : RequestAccessPlan) (route : Routing.CompiledRoute) where
  | arrives (delivery : Delivery plan route)
  /-- A handler ends, and its response is sent. -/
  | settles (index : Nat)

section Dispatch

variable (toLowerCase : Text → Text) (plan : RequestAccessPlan) (route : Routing.CompiledRoute)
  (respond : HandlerRequest → Handling)

/-- The request object for a request of the route. -/
def requestOf (decoded : Envelope.DecodedRequest) : HandlerRequest :=
  createRequestFactory plan (Compile.paramNamesOf route.path) route.method decoded

/-- What the handler makes of a request. -/
def ownAnswer (delivery : Delivery plan route) : Option Octets :=
  match decodeRequestEnvelope.run delivery.envelope with
  | .error _ => none
  | .ok decoded => (respond (requestOf plan route decoded)).envelope toLowerCase

/-- `dispatch`, from the arrival of a request to the call of the handler and from
the end of the handler to the answer. -/
def CachedRoute.step (state : CachedRoute) : CacheEvent plan route → Option CachedRoute
  | .arrives delivery =>
      match decodeRequestEnvelope.run delivery.envelope with
      | .error _ => some state
      | .ok decoded =>
          if state.cache.encoded.isSome then
            some state
          else
            some { state with
              pending := state.pending ++ [respond (requestOf plan route decoded)] }
  | .settles index =>
      match state.pending[index]? with
      | none => none
      | some handling =>
          some
            { cache :=
                match cacheable toLowerCase handling with
                | some encoded =>
                    state.cache.maybePromote (handling.sentSnapshot toLowerCase) encoded
                | none => state.cache
              pending := state.pending.eraseIdx index }

def cacheMachine (cache : RouteResponseCache) :
    Machine CachedRoute (CacheEvent plan route) where
  start := ⟨cache, []⟩
  step := CachedRoute.step toLowerCase plan route respond

/-- Whatever has been promoted is what the handler makes of every request. -/
def ServesOwnAnswers (cache : RouteResponseCache) : Prop :=
  ∀ state, (cacheMachine toLowerCase plan route respond cache).Reaches state →
    ∀ encoded, state.cache.encoded = some encoded →
      ∀ delivery, ownAnswer toLowerCase plan route respond delivery = some encoded

end Dispatch

/-- An answer that can be cached is given to every client alike. -/
def AnswersAlike
    (toLowerCase : Text → Text)
    (method : Routing.Method)
    (respond : HandlerRequest → Handling) :
    Prop :=
  ∀ client encoded, cacheable toLowerCase (respond (blindRequest method client)) = some encoded →
    ∀ other, (respond (blindRequest method other)).envelope toLowerCase = some encoded

/-! ## What is promoted -/

theorem encoded_maybePromote
    {cache : RouteResponseCache} {snapshot : Snapshot} {encoded promoted : Octets}
    (result : (cache.maybePromote snapshot encoded).encoded = some promoted) :
    cache.encoded = some promoted ∨ encoded = promoted := by
  unfold RouteResponseCache.maybePromote at result
  split at result
  · exact .inl result
  · dsimp only at result
    rw [Option.ite_none_right_eq_some, Option.some.injEq] at result
    exact .inr result.2

section Runs

variable {toLowerCase : Text → Text} {route : Routing.CompiledRoute}
  {respond : HandlerRequest → Handling}

theorem requestOf_decoded
    (delivery : Delivery emptyAccessPlan route) :
    requestOf emptyAccessPlan route delivery.decoded =
      blindRequest route.method delivery.client :=
  Bridge.createRequestFactory_decoded delivery _ _

theorem ownAnswer_eq
    (delivery : Delivery emptyAccessPlan route) :
    ownAnswer toLowerCase emptyAccessPlan route respond delivery =
      (respond (blindRequest route.method delivery.client)).envelope toLowerCase := by
  unfold ownAnswer
  rw [delivery.decode_envelope]
  exact congrArg (fun request => (respond request).envelope toLowerCase) (requestOf_decoded delivery)

/-- What runs and what is promoted comes from clients. -/
structure FromClients
    (toLowerCase : Text → Text)
    (method : Routing.Method)
    (respond : HandlerRequest → Handling)
    (state : CachedRoute) :
    Prop where
  pending : ∀ handling ∈ state.pending, ∃ client, handling = respond (blindRequest method client)
  encoded : ∀ encoded, state.cache.encoded = some encoded →
    ∃ client, cacheable toLowerCase (respond (blindRequest method client)) = some encoded

/-- A request is answered from the cache, or its handler is called. -/
theorem step_arrives
    (toLowerCase : Text → Text)
    (state : CachedRoute)
    (delivery : Delivery emptyAccessPlan route) :
    CachedRoute.step toLowerCase emptyAccessPlan route respond state (.arrives delivery) =
      some
        (if state.cache.encoded.isSome then
          state
        else
          { state with
            pending := state.pending ++ [respond (blindRequest route.method delivery.client)] }) := by
  rw [CachedRoute.step, delivery.decode_envelope]
  dsimp only
  rw [requestOf_decoded]
  split <;> rfl

theorem FromClients.step
    {state next : CachedRoute} {event : CacheEvent emptyAccessPlan route}
    (before : FromClients toLowerCase route.method respond state)
    (stepEq : CachedRoute.step toLowerCase emptyAccessPlan route respond state event =
      some next) :
    FromClients toLowerCase route.method respond next := by
  cases event with
  | arrives delivery =>
      rw [step_arrives] at stepEq
      split at stepEq
      · cases stepEq
        exact before
      · cases stepEq
        refine ⟨?_, before.encoded⟩
        intro handling member
        rcases List.mem_append.mp member with old | new
        · exact before.pending handling old
        · exact ⟨delivery.client, List.mem_singleton.mp new⟩
  | settles index =>
      rw [CachedRoute.step] at stepEq
      cases here : state.pending[index]? with
      | none => rw [here] at stepEq; cases stepEq
      | some handling =>
          rw [here] at stepEq
          cases stepEq
          refine ⟨fun other member => before.pending other (List.mem_of_mem_eraseIdx member), ?_⟩
          intro encoded promoted
          dsimp only at promoted
          cases answer : cacheable toLowerCase handling with
          | none =>
              rw [answer] at promoted
              exact before.encoded encoded promoted
          | some own =>
              rw [answer] at promoted
              rcases encoded_maybePromote promoted with old | rfl
              · exact before.encoded encoded old
              · obtain ⟨client, rfl⟩ := before.pending handling (List.mem_of_getElem? here)
                exact ⟨client, answer⟩

theorem fromClients_of_reaches
    {state : CachedRoute}
    (reaches : (cacheMachine toLowerCase emptyAccessPlan route respond .empty).Reaches state) :
    FromClients toLowerCase route.method respond state := by
  refine reaches.invariant ⟨?_, ?_⟩ ?_
  · intro handling member
    cases member
  · intro encoded promoted
    cases promoted
  · intro state event next before _ stepEq
    exact before.step stepEq

/-! ## Repeating a request -/

/-- The route after some requests with the same cacheable answer. -/
def afterHits (key : SnapshotCacheKey) (hits : Nat) : CachedRoute where
  cache :=
    { encoded := none
      lastKey := if hits = 0 then none else some key
      stableHits := hits }
  pending := []

theorem maybePromote_afterHits
    (snapshot : Snapshot)
    (encoded : Octets)
    (hits : Nat) :
    (afterHits (buildSnapshotCacheKey snapshot) hits).cache.maybePromote snapshot encoded =
      { encoded := if hits + 1 ≥ promoteHits then some encoded else none
        lastKey := some (buildSnapshotCacheKey snapshot)
        stableHits := hits + 1 } := by
  cases hits with
  | zero => rfl
  | succ hits => simp [RouteResponseCache.maybePromote, afterHits]

/-- One more request with its answer. -/
theorem reaches_hit
    {delivery : Delivery emptyAccessPlan route} {handling : Handling} {encoded : Octets}
    {state : CachedRoute}
    (responds : respond (blindRequest route.method delivery.client) = handling)
    (answer : cacheable toLowerCase handling = some encoded)
    (vacant : state.cache.encoded = none)
    (idle : state.pending = [])
    (reaches : (cacheMachine toLowerCase emptyAccessPlan route respond .empty).Reaches state) :
    (cacheMachine toLowerCase emptyAccessPlan route respond .empty).Reaches
      ⟨state.cache.maybePromote (handling.sentSnapshot toLowerCase) encoded, []⟩ := by
  have called : (cacheMachine toLowerCase emptyAccessPlan route respond .empty).step state
      (.arrives delivery) = some ⟨state.cache, [handling]⟩ := by
    refine (step_arrives toLowerCase state delivery).trans ?_
    rw [vacant, idle, responds]
    rfl
  have ended : (cacheMachine toLowerCase emptyAccessPlan route respond .empty).step
      ⟨state.cache, [handling]⟩ (.settles 0) =
        some ⟨state.cache.maybePromote (handling.sentSnapshot toLowerCase) encoded, []⟩ := by
    simp [cacheMachine, CachedRoute.step, answer]
  exact .step (.step reaches trivial called) trivial ended

theorem reaches_afterHits
    {delivery : Delivery emptyAccessPlan route} {handling : Handling} {encoded : Octets}
    (responds : respond (blindRequest route.method delivery.client) = handling)
    (answer : cacheable toLowerCase handling = some encoded)
    {hits : Nat}
    (few : hits < promoteHits) :
    (cacheMachine toLowerCase emptyAccessPlan route respond .empty).Reaches
      (afterHits (buildSnapshotCacheKey (handling.sentSnapshot toLowerCase)) hits) := by
  induction hits with
  | zero => exact .start
  | succ hits hypothesis =>
      have next := reaches_hit responds answer rfl rfl (hypothesis (Nat.lt_of_succ_lt few))
      rw [maybePromote_afterHits, if_neg (Nat.not_le.mpr few)] at next
      exact next

/-- An answer that can be cached is promoted when its request is repeated. -/
theorem exists_promoted
    {client : Client} {encoded : Octets}
    (answer : cacheable toLowerCase (respond (blindRequest route.method client)) =
      some encoded) :
    ∃ state, (cacheMachine toLowerCase emptyAccessPlan route respond .empty).Reaches state ∧
      state.cache.encoded = some encoded := by
  obtain ⟨delivery, rfl⟩ := Bridge.exists_delivery route client
  have before := reaches_afterHits rfl answer (Nat.lt_succ_self 15)
  have last := reaches_hit rfl answer rfl rfl before
  rw [maybePromote_afterHits] at last
  exact ⟨_, last, rfl⟩

theorem servesOwnAnswers_iff_answersAlike :
    ServesOwnAnswers toLowerCase emptyAccessPlan route respond .empty ↔
      AnswersAlike toLowerCase route.method respond := by
  constructor
  · intro serves client encoded answer other
    obtain ⟨state, reaches, promoted⟩ := exists_promoted answer
    obtain ⟨delivery, rfl⟩ := Bridge.exists_delivery route other
    rw [← ownAnswer_eq]
    exact serves state reaches encoded promoted delivery
  · intro alike state reaches encoded promoted delivery
    obtain ⟨client, answer⟩ := (fromClients_of_reaches reaches).encoded encoded promoted
    rw [ownAnswer_eq]
    exact alike client encoded answer delivery.client

end Runs

/-- A route with a cache serves the answers of its handler exactly when an answer
that can be cached does not depend on the address and the body of the request. -/
theorem servesOwnAnswers_of_create
    {Handler : Type} {acornParse : Text → Option Node} {setting : CacheSetting Handler}
    {route : Routing.CompiledRoute} {cache : RouteResponseCache}
    (created : createRouteResponseCache acornParse setting route = some cache)
    (toLowerCase : Text → Text)
    (respond : HandlerRequest → Handling) :
    ServesOwnAnswers toLowerCase (requestPlan acornParse setting route) route respond cache ↔
      AnswersAlike toLowerCase route.method respond := by
  have eligible := isEligible_of_create created
  rw [eligible.plan, eligible.cache]
  exact servesOwnAnswers_iff_answersAlike

/-! ## A handler that answers with the address of the client -/

def identifier (name : Text) : Node :=
  .mk (text "Identifier") [(text "name", .text name)]

def memberOf (object property : Text) : Node :=
  .mk (text "MemberExpression")
    [(text "object", .node (identifier object)), (text "property", .node (identifier property)),
      (text "computed", .bool false), (text "optional", .bool false)]

def addressSource : Text :=
  text "(req, res) => res.json(\x7b ip: req.ip \x7d)"

/-- The tree of the source in parentheses. -/
def addressTree : Node :=
  let property : Node := .mk (text "Property")
    [(text "method", .bool false), (text "shorthand", .bool false), (text "computed", .bool false),
      (text "key", .node (identifier (text "ip"))), (text "kind", .text (text "init")),
      (text "value", .node (memberOf (text "req") (text "ip")))]
  let call : Node := .mk (text "CallExpression")
    [(text "callee", .node (memberOf (text "res") (text "json"))),
      (text "arguments", .nodes [some (.mk (text "ObjectExpression")
        [(text "properties", .nodes [some property])])]),
      (text "optional", .bool false)]
  let handler : Node := .mk (text "ArrowFunctionExpression")
    [(text "id", .other false), (text "expression", .bool true), (text "generator", .bool false),
      (text "async", .bool false),
      (text "params", .nodes [some (identifier (text "req")), some (identifier (text "res"))]),
      (text "body", .node call)]
  .mk (text "Program")
    [(text "body", .nodes [some (.mk (text "ExpressionStatement")
        [(text "expression", .node handler)])]),
      (text "sourceType", .text (text "module"))]

def parseAddress (source : Text) : Option Node :=
  if source = text "(" ++ addressSource ++ text ")" then some addressTree else none

def addressSetting : CacheSetting Text where
  middlewares := []
  middlewareSource := id
  errorHandlers := 0
  cache := true

def addressRoute : Routing.CompiledRoute where
  method := .get
  path := text "/ip"
  handlerId := 1
  cache := none
  staticResponse := false
  handlerSource := addressSource

def respondAddress (request : HandlerRequest) : Handling where
  calls :=
    [.json (some (Utf8.encode
      (text "\x7b\"ip\":" ++ Compile.stringify request.ip ++ text "\x7d")))]
  outcome := .returned

theorem servesOwnAnswers_of_create_address :
    ServesOwnAnswers Text.asciiLower (requestPlan parseAddress addressSetting addressRoute)
        addressRoute respondAddress .empty ↔
      AnswersAlike Text.asciiLower .get respondAddress :=
  servesOwnAnswers_of_create (by decide) Text.asciiLower respondAddress

theorem noBody_fits :
    ([] : Octets).length < LittleEndian.limit 4 := by
  decide

def localClient (ip : Octets) (fits : ip.length < LittleEndian.limit 2) : Client where
  ip := ip
  body := []
  ip_fits := fits
  body_fits := noBody_fits

/-- The address of the first client is promoted. -/
theorem not_servesOwnAnswers :
    createRouteResponseCache parseAddress addressSetting addressRoute = some .empty ∧
      ¬ ServesOwnAnswers Text.asciiLower (requestPlan parseAddress addressSetting addressRoute)
        addressRoute respondAddress .empty := by
  have created : createRouteResponseCache parseAddress addressSetting addressRoute =
      some .empty := by decide
  refine ⟨created, ?_⟩
  rw [(isEligible_of_create created).plan, servesOwnAnswers_iff_answersAlike]
  intro alike
  have same := alike (localClient (octets "10.0.0.1") (by decide)) _ rfl
    (localClient (octets "10.0.0.2") (by decide))
  revert same
  decide

end Dispatch
end HttpNative
