import HttpNative.Parser.ConnectionLoop
import HttpNative.Router.Http2Selection

/-!
# Body limits

A route may have a limit for the bodies of its requests. Over HTTP/1.1 it is
looked up before the body is read, by a match of its own; the readers of the two
stream protocols have one limit for all routes. What a reader applies is compared
with the limit of the route that the request is dispatched to afterwards.
-/

namespace HttpNative
namespace Router

open Routing

/-- What becomes of a request. -/
inductive BodyOutcome where
  /-- A static response, an upgrade, or an error other than 413. -/
  | answered
  /-- Answered with 413, with what had been collected of the body. -/
  | refused (collected : Octets)
  /-- The body ends before its length. -/
  | dropped
  | dispatched (target : Target) (body : Octets)
deriving DecidableEq

/-- How a body is read, and the limit that its length is compared with. -/
structure BodyReading where
  limit : Option Nat
  outcome : BodyOutcome
deriving DecidableEq

/-! ## The reader of a connection -/

/-- What is in the buffer behind the head, and what the reads of the body yield. -/
structure Delivery where
  buffered : Octets
  reads : List Octets

/-- The loop over the reads; a read yields no more than it asks for. -/
def collectReads (contentLength : Nat) : Octets → List Octets → Option Octets
  | body, reads =>
      if contentLength ≤ body.length then
        some (body.take contentLength)
      else
        match reads with
        | [] => none
        | read :: rest =>
            let returned := read.take (min (contentLength - body.length) Parser.maxBodyRead)
            if returned = [] then none else collectReads contentLength (body ++ returned) rest

def receiveBody (contentLength : Nat) (delivery : Delivery) : Option Octets :=
  if contentLength ≤ delivery.buffered.length then
    some (delivery.buffered.take contentLength)
  else
    collectReads contentLength delivery.buffered delivery.reads

/-- The match that the limit is taken from. -/
def matchForLimit
    (router : Router)
    (parsed : Parser.ParsedRequest) : Except CapacityError (Option MatchedRoute) :=
  router.matchMethod parsed.method (normalizeRuntimePath ((Utf8.decode parsed.path).getD root))

/-- `handle_connection_inner` on a request with a body. -/
def readLimited
    (router : Router)
    (parsed : Parser.ParsedRequest)
    (delivery : Delivery)
    (limit : Nat) : Except CapacityError BodyReading :=
  match parsed.contentLength with
  | none => .ok ⟨none, .answered⟩
  | some contentLength =>
      if limit < contentLength then
        .ok ⟨some limit, .refused []⟩
      else
        match receiveBody contentLength delivery with
        | none => .ok ⟨some limit, .dropped⟩
        | some body =>
            (router.dispatchTarget parsed).map fun target => ⟨some limit, .dispatched target body⟩

/-- `handle_connection_inner` behind a head. -/
def http1Reading
    (router : Router)
    (parsed : Parser.ParsedRequest)
    (delivery : Delivery) : Except CapacityError BodyReading :=
  if parsed.hasChunkedTe ∨ (router.staticTarget parsed).isSome ∨
      (router.webSocketTarget parsed).isSome then
    .ok ⟨none, .answered⟩
  else if !parsed.hasBody then
    (router.dispatchTarget parsed).map fun target => ⟨none, .dispatched target []⟩
  else
    match router.matchForLimit parsed with
    | .error panic => .error panic
    | .ok matched => router.readLimited parsed delivery (bodyLimit matched)

/-! ## The readers of a stream -/

/-- The loop over the data of a stream; a chunk that leads beyond the limit is
not collected. -/
def collectChunks
    {Chunk : Type}
    (remaining : Chunk → Nat)
    (copied : Chunk → Octets) : Octets → List Chunk → Except Octets Octets
  | bodyBytes, [] => .ok bodyBytes
  | bodyBytes, chunk :: chunks =>
      if maxBodyBytes < bodyBytes.length + remaining chunk then .error bodyBytes
      else collectChunks remaining copied (bodyBytes ++ copied chunk) chunks

/-- A request over HTTP/3, whose chunks may be in several parts each. -/
structure PartedRequest extends StreamRequest where
  parts : List (List Octets)
  isChunks : chunks = parts.map List.flatten

/-- The buffer that the first part of a chunk is copied into. -/
def copyFirstPart (chunk : List Octets) : Octets :=
  let first := chunk.headD []
  first ++ List.replicate (chunk.flatten.length - first.length) 0

def StreamRequest.collected (request : StreamRequest) : Except Octets Octets :=
  collectChunks List.length id [] request.chunks

def PartedRequest.collected (request : PartedRequest) : Except Octets Octets :=
  collectChunks (fun chunk => chunk.flatten.length) copyFirstPart [] request.parts

/-- `handle_h2_stream` and `handle_h3_request` up to the dispatch, which differ in
how the chunks are collected. -/
def streamReading
    (router : Router)
    (request : StreamRequest)
    (collected : Except Octets Octets) : Except CapacityError BodyReading :=
  match router.streamStatic request with
  | some _ => .ok ⟨none, .answered⟩
  | none =>
      let limit := if request.chunks = [] then none else some maxBodyBytes
      match collected with
      | .error body => .ok ⟨limit, .refused body⟩
      | .ok body =>
          (ofMatch (router.matchMethod request.method
            (normalizeRuntimePath (Utf8.decodeLossy request.uriPath)))).map fun target =>
              ⟨limit, .dispatched target body⟩

/-! ## The three protocols -/

inductive Exchange where
  | http1 (parsed : Parser.ParsedRequest) (delivery : Delivery)
  | http2 (request : StreamRequest)
  | http3 (request : PartedRequest)

namespace Exchange

def reading (router : Router) : Exchange → Except CapacityError BodyReading
  | http1 parsed delivery => router.http1Reading parsed delivery
  | http2 request => router.streamReading request request.collected
  | http3 request => router.streamReading request.toStreamRequest request.collected

/-- The length of the body, as it is declared or as it is sent. -/
def bodyLength : Exchange → Nat
  | http1 parsed _ => if parsed.hasBody then parsed.contentLength.getD 0 else 0
  | http2 request => request.body.length
  | http3 request => request.body.length

/-- The request is one that the routes are matched with: its framing is
understood, and no static response or upgrade answers it. -/
def IsMatched (router : Router) : Exchange → Prop
  | http1 parsed _ =>
      parsed.hasChunkedTe = false ∧ (parsed.hasBody = true → parsed.contentLength ≠ none) ∧
        router.staticTarget parsed = none ∧ router.webSocketTarget parsed = none
  | http2 request => router.streamStatic request = none
  | http3 request => router.streamStatic request.toStreamRequest = none

/-- What the dispatch decision selects. -/
def decision (router : Router) : Exchange → Except CapacityError Target
  | http1 parsed _ => router.dispatchTarget parsed
  | http2 request =>
      ofMatch (router.matchMethod request.method
        (normalizeRuntimePath (Utf8.decodeLossy request.uriPath)))
  | http3 request =>
      ofMatch (router.matchMethod request.method
        (normalizeRuntimePath (Utf8.decodeLossy request.uriPath)))

/-- The limit that the reader applies is this one, or there is no body to apply
it to: over HTTP/1.1 the path is text, or the root has the limit too; over the
others it is the common limit. -/
def Applies (router : Router) (limit : Nat) : Exchange → Prop
  | http1 parsed _ =>
      parsed.hasBody = false ∨ (Utf8.decode parsed.path).isSome ∨
        ∃ matched, router.matchMethod parsed.method root = .ok matched ∧ bodyLimit matched = limit
  | http2 request => request.chunks = [] ∨ limit = maxBodyBytes
  | http3 request => request.chunks = [] ∨ limit = maxBodyBytes

end Exchange

/-- The limit of a route of the manifest. -/
def RouteInput.bodyLimit (route : RouteInput) : Nat :=
  route.maxBodyBytes.getD Router.maxBodyBytes

/-- The request is dispatched to a route of the manifest, if to any. -/
structure RoutedTo
    (analysis : SourceAnalysis)
    (manifest : ManifestInput)
    (exchange : Exchange)
    (route : RouteInput) : Prop where
  member : route ∈ manifest.routes
  isMatched : exchange.IsMatched (fromManifest analysis manifest)
  selected : ∃ matched : MatchedRoute,
    exchange.decision (fromManifest analysis manifest) = .ok (.handler matched) ∧
      matched.toDynamicRouteSpec = compileDynamicRouteSpec analysis manifest.middlewares route

/-- A limit is kept for a body of some length. -/
structure KeepsLimit (limit length : Nat) (reading : BodyReading) : Prop where
  applied : ∀ applied, reading.limit = some applied → applied = limit
  dispatched : ∀ target body, reading.outcome = .dispatched target body →
    length ≤ limit ∧ body.length = length
  refused : limit < length →
    ∃ collected, reading.outcome = .refused collected ∧ collected.length < length
  admitted : length ≤ limit → ∀ collected, reading.outcome ≠ .refused collected

/-! ## What the readers return -/

theorem length_of_collectReads
    {contentLength : Nat} {collected body : Octets} {reads : List Octets}
    (received : collectReads contentLength collected reads = some body) :
    body.length = contentLength := by
  induction reads generalizing collected with
  | nil =>
      rw [collectReads] at received
      split at received
      · rename_i enough
        rw [← Option.some.inj received, List.length_take, Nat.min_eq_left enough]
      · cases received
  | cons read rest hypothesis =>
      rw [collectReads] at received
      split at received
      · rename_i enough
        rw [← Option.some.inj received, List.length_take, Nat.min_eq_left enough]
      · simp only at received
        split at received
        · cases received
        · exact hypothesis received

theorem length_of_receiveBody
    {contentLength : Nat} {delivery : Delivery} {body : Octets}
    (received : receiveBody contentLength delivery = some body) :
    body.length = contentLength := by
  rw [receiveBody] at received
  split at received
  · rename_i enough
    rw [← Option.some.inj received, List.length_take, Nat.min_eq_left enough]
  · exact length_of_collectReads received

section Chunks

variable {Chunk : Type} {remaining : Chunk → Nat} {copied : Chunk → Octets}

/-- The octets that the chunks have together. -/
def totalRemaining (remaining : Chunk → Nat) (chunks : List Chunk) : Nat :=
  (chunks.map remaining).sum

/-- A body within the limit is collected whole, and of another one at most the
limit. -/
theorem collectChunks_cases
    (lengths : ∀ chunk, (copied chunk).length = remaining chunk)
    {bodyBytes : Octets}
    (small : bodyBytes.length ≤ maxBodyBytes)
    (chunks : List Chunk) :
    (∃ body, collectChunks remaining copied bodyBytes chunks = .ok body ∧
      body.length = bodyBytes.length + totalRemaining remaining chunks ∧
        body.length ≤ maxBodyBytes) ∨
    (∃ body, collectChunks remaining copied bodyBytes chunks = .error body ∧
      body.length ≤ maxBodyBytes ∧
        maxBodyBytes < bodyBytes.length + totalRemaining remaining chunks) := by
  induction chunks generalizing bodyBytes with
  | nil => exact .inl ⟨bodyBytes, rfl, rfl, small⟩
  | cons chunk chunks hypothesis =>
      have total : totalRemaining remaining (chunk :: chunks) =
          remaining chunk + totalRemaining remaining chunks := List.sum_cons
      rw [collectChunks, total]
      by_cases large : maxBodyBytes < bodyBytes.length + remaining chunk
      · rw [if_pos large]
        exact .inr ⟨bodyBytes, rfl, small, by omega⟩
      · rw [if_neg large]
        have length : (bodyBytes ++ copied chunk).length = bodyBytes.length + remaining chunk := by
          rw [List.length_append, lengths]
        have rest := @hypothesis (bodyBytes ++ copied chunk) (by omega)
        rw [length, Nat.add_assoc] at rest
        exact rest

end Chunks

theorem length_copyFirstPart
    (chunk : List Octets) :
    (copyFirstPart chunk).length = chunk.flatten.length := by
  have first : (chunk.headD []).length ≤ chunk.flatten.length := by
    cases chunk with
    | nil => exact Nat.le_refl 0
    | cons first rest =>
        rw [List.headD_cons, List.flatten_cons, List.length_append]
        exact Nat.le_add_right _ _
  rw [copyFirstPart, List.length_append, List.length_replicate]
  omega

/-- The body of a stream is collected, or refused with a part of it. -/
structure CollectsWithin (length : Nat) (collected : Except Octets Octets) : Prop where
  whole : ∀ body, collected = .ok body → body.length = length ∧ length ≤ maxBodyBytes
  part : ∀ body, collected = .error body → body.length ≤ maxBodyBytes ∧ maxBodyBytes < length

theorem collectsWithin_collectChunks
    {Chunk : Type} {remaining : Chunk → Nat} {copied : Chunk → Octets}
    (lengths : ∀ chunk, (copied chunk).length = remaining chunk)
    (chunks : List Chunk) :
    CollectsWithin (totalRemaining remaining chunks) (collectChunks remaining copied [] chunks) := by
  have none : ([] : Octets).length ≤ maxBodyBytes := Nat.zero_le _
  rcases collectChunks_cases lengths none chunks with
    ⟨whole, collects, length, within⟩ | ⟨part, collects, within, beyond⟩
  · rw [collects]
    rw [List.length_nil, Nat.zero_add] at length
    refine ⟨fun body same => ?_, fun body same => ?_⟩
    · cases same
      exact ⟨length, length ▸ within⟩
    · cases same
  · rw [collects]
    rw [List.length_nil, Nat.zero_add] at beyond
    refine ⟨fun body same => ?_, fun body same => ?_⟩
    · cases same
    · cases same
      exact ⟨within, beyond⟩

theorem StreamRequest.collectsWithin
    (request : StreamRequest) :
    CollectsWithin request.body.length request.collected := by
  have total : request.body.length = totalRemaining List.length request.chunks :=
    List.length_flatten
  rw [total]
  exact collectsWithin_collectChunks (fun chunk => rfl) request.chunks

theorem PartedRequest.collectsWithin
    (request : PartedRequest) :
    CollectsWithin request.body.length request.collected := by
  have total : request.body.length =
      totalRemaining (fun chunk : List Octets => chunk.flatten.length) request.parts := by
    rw [StreamRequest.body, request.isChunks, List.length_flatten, List.map_map]
    rfl
  rw [total]
  exact collectsWithin_collectChunks length_copyFirstPart request.parts

/-- The reader of the selection over HTTP/2 is the one that forgets what it has
collected of a refused body. -/
theorem StreamRequest.readBody_eq_collected
    (request : StreamRequest) :
    readBody [] request.chunks = request.collected.toOption := by
  unfold StreamRequest.collected
  generalize ([] : Octets) = bodyBytes
  induction request.chunks generalizing bodyBytes with
  | nil => rfl
  | cons chunk chunks hypothesis =>
      rw [readBody, collectChunks]
      split
      · rfl
      · exact hypothesis _

/-! ## Which limit is kept -/

section Kept

variable {router : Router} {limit length : Nat} {applied : Option Nat} {matched : MatchedRoute}

theorem keepsLimit_refused
    {collected : Octets}
    (own : ∀ other, applied = some other → other = limit)
    (large : limit < length)
    (few : collected.length < length) :
    KeepsLimit limit length ⟨applied, .refused collected⟩ where
  applied := own
  dispatched := by
    intro target body same
    cases same
  refused := fun _ => ⟨collected, rfl, few⟩
  admitted := fun small => absurd large (Nat.not_lt.mpr small)

theorem keepsLimit_dropped
    (own : ∀ other, applied = some other → other = limit)
    (small : length ≤ limit) :
    KeepsLimit limit length ⟨applied, .dropped⟩ where
  applied := own
  dispatched := by
    intro target body same
    cases same
  refused := fun large => absurd large (Nat.not_lt.mpr small)
  admitted := by
    intro _ collected same
    cases same

theorem keepsLimit_dispatched
    {target : Target} {body : Octets}
    (own : ∀ other, applied = some other → other = limit)
    (small : length ≤ limit)
    (whole : body.length = length) :
    KeepsLimit limit length ⟨applied, .dispatched target body⟩ where
  applied := own
  dispatched := by
    intro target body same
    cases same
    exact ⟨small, whole⟩
  refused := fun large => absurd large (Nat.not_lt.mpr small)
  admitted := by
    intro _ collected same
    cases same

/-- What a stream is dispatched to. -/
theorem streamReading_eq
    {request : StreamRequest} {collected : Except Octets Octets}
    (isMatched : router.streamStatic request = none)
    (selected : ofMatch (router.matchMethod request.method
      (normalizeRuntimePath (Utf8.decodeLossy request.uriPath))) = .ok (.handler matched)) :
    router.streamReading request collected =
      .ok ⟨if request.chunks = [] then none else some maxBodyBytes,
        match collected with
        | .error body => .refused body
        | .ok body => .dispatched (.handler matched) body⟩ := by
  rw [streamReading, isMatched, selected]
  cases collected <;> rfl

theorem streamReading_keepsLimit_iff
    {request : StreamRequest} {collected : Except Octets Octets}
    (within : CollectsWithin request.body.length collected)
    (isMatched : router.streamStatic request = none)
    (selected : ofMatch (router.matchMethod request.method
      (normalizeRuntimePath (Utf8.decodeLossy request.uriPath))) = .ok (.handler matched)) :
    (∃ reading, router.streamReading request collected = .ok reading ∧
      KeepsLimit limit request.body.length reading) ↔
        request.chunks = [] ∨ limit = maxBodyBytes := by
  rw [streamReading_eq isMatched selected]
  constructor
  · rintro ⟨reading, same, keeps⟩
    cases same
    by_cases none : request.chunks = []
    · exact .inl none
    · exact .inr (keeps.applied maxBodyBytes (if_neg none)).symm
  · intro applies
    refine ⟨_, rfl, ?_⟩
    -- without chunks the body is empty, and within every limit
    have sameSide : limit < request.body.length ↔ maxBodyBytes < request.body.length := by
      rcases applies with none | rfl
      · rw [StreamRequest.body, none, List.flatten_nil, List.length_nil]
        exact ⟨fun less => absurd less (Nat.not_lt_zero _),
          fun less => absurd less (Nat.not_lt_zero _)⟩
      · exact Iff.rfl
    have own : ∀ other, (if request.chunks = [] then none else some maxBodyBytes) = some other →
        other = limit := by
      intro other same
      split at same
      · cases same
      · rename_i some
        rw [← Option.some.inj same, applies.resolve_left some]
    cases collected with
    | error part =>
        obtain ⟨few, beyond⟩ := within.part _ rfl
        exact keepsLimit_refused own (sameSide.mpr beyond) (Nat.lt_of_le_of_lt few beyond)
    | ok whole =>
        obtain ⟨length, small⟩ := within.whole _ rfl
        refine keepsLimit_dispatched own (Nat.not_lt.mp fun large => ?_) length
        exact absurd (sameSide.mp large) (Nat.not_lt.mpr small)

end Kept

/-! ## The limit of a connection -/

section Connections

variable {router : Router} {parsed : Parser.ParsedRequest} {delivery : Delivery}
  {matched : MatchedRoute}

theorem ofMatch_eq_handler
    {found : Except CapacityError (Option MatchedRoute)}
    (selected : ofMatch found = .ok (.handler matched)) :
    found = .ok (some matched) := by
  cases found with
  | error panic => cases selected
  | ok route =>
      cases route with
      | none => cases selected
      | some route =>
          cases selected
          rfl

theorem matchMethod_of_dispatchTarget
    (selected : router.dispatchTarget parsed = .ok (.handler matched)) :
    router.matchMethod parsed.method (normalizeRuntimePath (Utf8.decodeLossy parsed.path)) =
      .ok (some matched) := by
  rw [dispatchTarget] at selected
  split at selected
  · cases selected
  · exact ofMatch_eq_handler selected

/-- Where the path is text, the limit comes from the route of the dispatch. -/
theorem matchForLimit_of_decode
    {path : Text}
    (decodes : Utf8.decode parsed.path = some path)
    (selected : router.dispatchTarget parsed = .ok (.handler matched)) :
    router.matchForLimit parsed = .ok (some matched) := by
  have found := matchMethod_of_dispatchTarget selected
  rw [Utf8.decodeLossy_of_decode decodes] at found
  rw [matchForLimit, decodes, Option.getD_some, found]

/-- Elsewhere it comes from the route of the root. -/
theorem matchForLimit_of_not_decode
    (noText : Utf8.decode parsed.path = none) :
    router.matchForLimit parsed = router.matchMethod parsed.method root := by
  rw [matchForLimit, noText, Option.getD_none]
  rfl

theorem readLimited_keepsLimit_iff
    {contentLength applied limit : Nat}
    (declared : parsed.contentLength = some contentLength)
    (selected : router.dispatchTarget parsed = .ok (.handler matched)) :
    (∃ reading, router.readLimited parsed delivery applied = .ok reading ∧
      KeepsLimit limit contentLength reading) ↔ applied = limit := by
  have own : ∀ other, some limit = some other → other = limit :=
    fun _ same => (Option.some.inj same).symm
  rw [readLimited, declared]
  constructor
  · rintro ⟨reading, read, keeps⟩
    have compared : reading.limit = some applied := by
      simp only at read
      split at read
      · cases read
        rfl
      · split at read
        · cases read
          rfl
        · rw [selected] at read
          cases read
          rfl
    exact keeps.applied applied compared
  · rintro rfl
    by_cases large : applied < contentLength
    · simp only [if_pos large]
      exact ⟨_, rfl, keepsLimit_refused own large (Nat.zero_lt_of_lt large)⟩
    · simp only [if_neg large]
      cases received : receiveBody contentLength delivery with
      | none => exact ⟨_, rfl, keepsLimit_dropped own (Nat.not_lt.mp large)⟩
      | some body =>
          rw [selected]
          exact ⟨_, rfl, keepsLimit_dispatched own (Nat.not_lt.mp large)
            (length_of_receiveBody received)⟩

theorem http1Reading_of_noBody
    (isMatched : (Exchange.http1 parsed delivery).IsMatched router)
    (selected : router.dispatchTarget parsed = .ok (.handler matched))
    (noBody : parsed.hasBody = false) :
    router.http1Reading parsed delivery = .ok ⟨none, .dispatched (.handler matched) []⟩ := by
  obtain ⟨plain, -, noStatic, noUpgrade⟩ := isMatched
  rw [http1Reading, if_neg (by simp [plain, noStatic, noUpgrade]), noBody, Bool.not_false,
    if_pos rfl, selected]
  rfl

theorem http1Reading_of_body
    (isMatched : (Exchange.http1 parsed delivery).IsMatched router)
    (body : parsed.hasBody = true) :
    router.http1Reading parsed delivery =
      match router.matchForLimit parsed with
      | .error panic => .error panic
      | .ok found => router.readLimited parsed delivery (bodyLimit found) := by
  obtain ⟨plain, -, noStatic, noUpgrade⟩ := isMatched
  rw [http1Reading, if_neg (by simp [plain, noStatic, noUpgrade]), body, Bool.not_true,
    if_neg Bool.false_ne_true]

theorem http1Reading_keepsLimit_iff
    (isMatched : (Exchange.http1 parsed delivery).IsMatched router)
    (selected : router.dispatchTarget parsed = .ok (.handler matched)) :
    (∃ reading, router.http1Reading parsed delivery = .ok reading ∧
      KeepsLimit (bodyLimit (some matched)) (Exchange.http1 parsed delivery).bodyLength reading) ↔
        (Exchange.http1 parsed delivery).Applies router (bodyLimit (some matched)) := by
  cases hasBody : parsed.hasBody with
  | false =>
      have empty : (Exchange.http1 parsed delivery).bodyLength = 0 := by
        simp [Exchange.bodyLength, hasBody]
      rw [http1Reading_of_noBody isMatched selected hasBody, empty]
      refine ⟨fun _ => .inl hasBody, fun _ => ⟨_, rfl, ?_⟩⟩
      refine keepsLimit_dispatched (fun other same => ?_) (Nat.zero_le _) rfl
      cases same
  | true =>
      obtain ⟨contentLength, declared⟩ := Option.ne_none_iff_exists'.mp (isMatched.2.1 hasBody)
      have length : (Exchange.http1 parsed delivery).bodyLength = contentLength := by
        simp [Exchange.bodyLength, hasBody, declared]
      rw [http1Reading_of_body isMatched hasBody, length]
      cases decodes : Utf8.decode parsed.path with
      | some path =>
          rw [matchForLimit_of_decode decodes selected]
          exact ⟨fun _ => .inr (.inl (by rw [decodes]; rfl)),
            fun _ => (readLimited_keepsLimit_iff declared selected).mpr rfl⟩
      | none =>
          rw [matchForLimit_of_not_decode decodes]
          have applies_iff :
              (Exchange.http1 parsed delivery).Applies router (bodyLimit (some matched)) ↔
                ∃ found, router.matchMethod parsed.method root = .ok found ∧
                  bodyLimit found = bodyLimit (some matched) := by
            simp [Exchange.Applies, hasBody, decodes]
          rw [applies_iff]
          cases router.matchMethod parsed.method root with
          | error panic => simp
          | ok found =>
              rw [readLimited_keepsLimit_iff declared selected]
              exact ⟨fun same => ⟨found, rfl, same⟩, fun ⟨other, same, kept⟩ => by
                cases same
                exact kept⟩

end Connections

/-! ## The limit of the route of the dispatch -/

/-- What is dispatched to a handler is routed to a route of the manifest. -/
theorem exists_routedTo
    {analysis : SourceAnalysis} {manifest : ManifestInput} {exchange : Exchange}
    {matched : MatchedRoute}
    (isMatched : exchange.IsMatched (fromManifest analysis manifest))
    (selected : exchange.decision (fromManifest analysis manifest) = .ok (.handler matched)) :
    ∃ route, RoutedTo analysis manifest exchange route := by
  have found : ∃ (method : Octets) (path : Text),
      (fromManifest analysis manifest).matchMethod method path = .ok (some matched) := by
    cases exchange with
    | http1 parsed delivery => exact ⟨_, _, matchMethod_of_dispatchTarget selected⟩
    | http2 request => exact ⟨_, _, ofMatch_eq_handler selected⟩
    | http3 request => exact ⟨_, _, ofMatch_eq_handler selected⟩
  obtain ⟨method, path, found⟩ := found
  rw [matchMethod] at found
  split at found
  · cases found
  · obtain ⟨route, member, -, compiled⟩ := of_matchRoute found
    exact ⟨route, member, isMatched, matched, selected, compiled⟩

/-- A request that is routed to a route is read under the limit of the route
exactly where the reader applies this limit. -/
theorem keepsLimit_iff
    {analysis : SourceAnalysis} {manifest : ManifestInput} {exchange : Exchange}
    {route : RouteInput}
    (routed : RoutedTo analysis manifest exchange route) :
    (∃ reading, exchange.reading (fromManifest analysis manifest) = .ok reading ∧
      KeepsLimit route.bodyLimit exchange.bodyLength reading) ↔
        exchange.Applies (fromManifest analysis manifest) route.bodyLimit := by
  obtain ⟨matched, selected, compiled⟩ := routed.selected
  have limit : route.bodyLimit = bodyLimit (some matched) := by
    have same := congrArg DynamicRouteSpec.maxBodyBytes compiled
    rw [RouteInput.bodyLimit, bodyLimit, Option.bind_some, same]
    rfl
  rw [limit]
  cases exchange with
  | http1 parsed delivery => exact http1Reading_keepsLimit_iff routed.isMatched selected
  | http2 request =>
      exact streamReading_keepsLimit_iff request.collectsWithin routed.isMatched selected
  | http3 request =>
      exact streamReading_keepsLimit_iff request.collectsWithin routed.isMatched selected

/-! ## Uploads -/

/-- A POST route with a limit of ten octets. -/
def uploadRoute : RouteInput :=
  { shapedRoute (text "/upload") with
    method := text "POST"
    methodCode := 2
    maxBodyBytes := some 10 }

def uploadManifest : ManifestInput :=
  { shapedManifest [] with routes := [uploadRoute] }

def upload (chunks : List Octets) : StreamRequest where
  method := octets "POST"
  target := Utf8.encode (text "/upload")
  path := text "/upload"
  isPath := by decide
  nonempty := by decide
  uriPath := Utf8.encode (text "/upload")
  isUriPath := by decide
  chunks := chunks

theorem matchMethod_upload :
    (fromManifest nothingFound uploadManifest).matchMethod (octets "POST") (text "/upload") =
      .ok (some (matchedRoute nothingFound [] (uploadRoute, []))) := by
  decide

/-- An upload in one chunk, of eleven octets. -/
theorem routedTo_upload :
    RoutedTo nothingFound uploadManifest (.http2 (upload [List.replicate 11 0])) uploadRoute where
  member := List.mem_singleton_self _
  isMatched := rfl
  selected := by
    refine ⟨matchedRoute nothingFound [] (uploadRoute, []), ?_, rfl⟩
    rw [Exchange.decision]
    change ofMatch (Router.matchMethod _ _ (normalizeRuntimePath
      (Utf8.decodeLossy (Utf8.encode (text "/upload"))))) = _
    rw [Utf8.decodeLossy_encode]
    exact congrArg ofMatch matchMethod_upload

/-- An upload of three octets over HTTP/1.1. -/
theorem keepsLimit_upload :
    ∃ reading, (Exchange.http1 (upload [[1, 2, 3]]).http1Head ⟨[1], [[2, 3]]⟩).reading
        (fromManifest nothingFound uploadManifest) = .ok reading ∧
      KeepsLimit 10 3 reading := by
  refine (@keepsLimit_iff nothingFound uploadManifest
    (.http1 (upload [[1, 2, 3]]).http1Head ⟨[1], [[2, 3]]⟩) uploadRoute
    { member := List.mem_singleton_self _
      isMatched := ⟨rfl, fun _ => Option.some_ne_none 3, by decide, by decide⟩
      selected := ⟨matchedRoute nothingFound [] (uploadRoute, []), ?_, rfl⟩ }).mpr (.inr (.inl (by decide)))
  exact congrArg ofMatch matchMethod_upload

/-- Over HTTP/2 the limit of the route is not looked at: eleven octets are
dispatched to it. -/
theorem not_keepsLimit :
    ¬ ∀ (analysis : SourceAnalysis) (manifest : ManifestInput) (exchange : Exchange)
      (route : RouteInput), RoutedTo analysis manifest exchange route →
        ∃ reading, exchange.reading (fromManifest analysis manifest) = .ok reading ∧
          KeepsLimit route.bodyLimit exchange.bodyLength reading := by
  intro everywhere
  obtain ⟨reading, read, keeps⟩ := everywhere _ _ _ _ routedTo_upload
  obtain ⟨matched, selected, -⟩ := routedTo_upload.selected
  have kept := (streamReading_keepsLimit_iff (StreamRequest.collectsWithin _)
    routedTo_upload.isMatched selected).mp ⟨reading, read, keeps⟩
  exact absurd kept (by decide)

end Router
end HttpNative
