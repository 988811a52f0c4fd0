import HttpNative.Library.PatternSearch
import HttpNative.Parser.HotRoot
import HttpNative.Router.RouterTables

/-!
# What a request selects over HTTP/1.1

A request without a body first looks for a static response under its raw path,
then for a WebSocket route to upgrade to, then for a route under its normalized
path, unless that path leaves its directory. A request with a body skips the
first step, and its length is checked against the limit of its route.
-/

namespace HttpNative
namespace Routing

/-- The code that `MethodKey::from_code` reads. -/
def Method.code : Method → Nat
  | .get => 1
  | .post => 2
  | .put => 3
  | .delete => 4
  | .patch => 5
  | .options => 6
  | .head => 7

@[simp] theorem Method.fromCode_code
    (method : Method) :
    Method.fromCode method.code = some method := by
  cases method <;> rfl

/-- The method that a request line names. -/
def Method.fromBytes (method : Octets) : Option Method :=
  Method.all.find? fun candidate => Utf8.encode candidate.name = method

end Routing

namespace Router

open Routing

/-- `MAX_BODY_BYTES` -/
def maxBodyBytes : Nat := 1024 * 1024

/-- The head at the start of the buffer; a head that begins like `GET /` is
scanned by the hot path where that path has a static response. -/
def parseHead
    (httparse : Octets → Option Parser.RawRequest)
    (config : Parser.HotConfig)
    (router : Router)
    (buffer : Octets) : Option Parser.ParsedRequest :=
  if router.exactGetRoot.isSome then
    (Parser.parseHotRootRequest config buffer).or (Parser.parseRequestHttparse httparse buffer)
  else
    Parser.parseRequestHttparse httparse buffer

/-- What a request is answered by. -/
inductive Target where
  | staticResponse (route : RouteInput)
  | webSocket (handlerId : Nat)
  | handler (route : MatchedRoute)
  | notFound
deriving DecidableEq

/-- The match for the octets of a method; an unknown method matches nothing. -/
def matchMethod
    (router : Router)
    (method : Octets)
    (path : Text) : Except CapacityError (Option MatchedRoute) :=
  match Method.fromBytes method with
  | none => .ok none
  | some method => router.matchRoute method.code path

def staticTarget (router : Router) (parsed : Parser.ParsedRequest) : Option RouteInput :=
  if !parsed.hasBody ∧ parsed.method = octets "GET" then
    match if parsed.path = octets "/" then router.exactGetRoot else none with
    | some route => some route
    | none => router.exactStaticRoute .get parsed.path
  else
    none

/-- The path of an upgrade that is no UTF-8 is taken for the root. -/
def webSocketTarget (router : Router) (parsed : Parser.ParsedRequest) : Option Nat :=
  if parsed.isWebsocketUpgrade ∧ parsed.wsKey.isSome then
    router.matchWsRoute ((Utf8.decode parsed.path).getD root)
  else
    none

/-- The target of a match. -/
def ofMatch :
    Except CapacityError (Option MatchedRoute) → Except CapacityError Target
  | .error panic => .error panic
  | .ok none => .ok .notFound
  | .ok (some route) => .ok (.handler route)

/-- The routing of `build_dispatch_decision_zero_copy` and of
`build_dispatch_decision_owned`. -/
def dispatchTarget (router : Router) (parsed : Parser.ParsedRequest) : Except CapacityError Target :=
  let normalizedPath := normalizeRuntimePath (Utf8.decodeLossy parsed.path)
  if containsPathTraversal normalizedPath then
    .ok .notFound
  else
    ofMatch (router.matchMethod parsed.method normalizedPath)

/-- What answers a request whose body, if any, is within the limit. -/
def selectTarget (router : Router) (parsed : Parser.ParsedRequest) : Except CapacityError Target :=
  match router.staticTarget parsed with
  | some route => .ok (.staticResponse route)
  | none =>
      match router.webSocketTarget parsed with
      | some handlerId => .ok (.webSocket handlerId)
      | none => router.dispatchTarget parsed

/-- The limit of the route that a body request matches before its body is
read. -/
def bodyLimit (matched : Option MatchedRoute) : Nat :=
  (matched.bind fun route => route.maxBodyBytes).getD maxBodyBytes

inductive Selection where
  | selected (target : Target)
  | lengthRequired
  | payloadTooLarge
deriving DecidableEq

/-- What `handle_connection_inner` answers a request with, whose body, if any,
has the declared length. -/
def http1Selection
    (router : Router)
    (parsed : Parser.ParsedRequest) : Except CapacityError Selection :=
  if !parsed.hasBody then
    (router.selectTarget parsed).map .selected
  else
    match router.webSocketTarget parsed with
    | some handlerId => .ok (.selected (.webSocket handlerId))
    | none =>
        match router.matchMethod parsed.method
          (normalizeRuntimePath ((Utf8.decode parsed.path).getD root)) with
        | .error panic => .error panic
        | .ok matched =>
            match parsed.contentLength with
            | none => .ok .lengthRequired
            | some contentLength =>
                if bodyLimit matched < contentLength then .ok .payloadTooLarge
                else (router.dispatchTarget parsed).map .selected

theorem staticTarget_eq
    (router : Router)
    (parsed : Parser.ParsedRequest) :
    router.staticTarget parsed =
      if !parsed.hasBody ∧ parsed.method = octets "GET" then
        router.exactStaticRoute .get parsed.path
      else
        none := by
  unfold staticTarget
  split
  · by_cases isRoot : parsed.path = octets "/"
    · rw [if_pos isRoot]
      have found : router.exactStaticRoute .get parsed.path = router.exactGetRoot :=
        if_pos ⟨rfl, isRoot⟩
      rw [found]
      cases router.exactGetRoot <;> rfl
    · rw [if_neg isRoot]
  · rfl

theorem webSocketTarget_of_plain
    {router : Router} {parsed : Parser.ParsedRequest}
    (plain : parsed.isWebsocketUpgrade = false) :
    router.webSocketTarget parsed = none := by
  rw [webSocketTarget, plain, if_neg]
  exact fun upgrades => Bool.noConfusion upgrades.1

/-! ## Too many parameters -/

/-- The children of every node are under labels of their own, as the keys of a map
are. -/
def DistinctLabels (router : Router) : Prop :=
  ∀ method, PatternTree.EveryNode List.Nodup (router.radixTree method)

/-- The path has no exact route, and the match comes to a parameter behind the
sixteenth: the beginning of some route that fits has so many, and no route that fits
the whole path is preferred to it. -/
def HasTooManyParameters (router : Router) (method : Octets) (path : Text) : Prop :=
  ∃ known, Method.fromBytes method = some known ∧
    router.dynamicExactRoutes.get (known, Utf8.encode path) = none ∧
    ∃ way, PatternTree.RunsOut (router.radixTree known) (nonEmptySegments path)
      RouteTable.maxStackSegments way

/-- The paths that are matched for a request: a request with a body is matched before
its body is read, and again behind it. -/
def matchedPaths (router : Router) (parsed : Parser.ParsedRequest) : List Text :=
  let normalizedPath := normalizeRuntimePath (Utf8.decodeLossy parsed.path)
  let dispatched := if containsPathTraversal normalizedPath then [] else [normalizedPath]
  if !parsed.hasBody then
    if (router.staticTarget parsed).isSome ∨ (router.webSocketTarget parsed).isSome then []
    else dispatched
  else if (router.webSocketTarget parsed).isSome then
    []
  else
    let early := normalizeRuntimePath ((Utf8.decode parsed.path).getD root)
    let limit := bodyLimit (router.matchMethod parsed.method early).toOption.join
    early :: if parsed.contentLength.any (· ≤ limit) then dispatched else []

section Panics

variable {router : Router} {parsed : Parser.ParsedRequest}

theorem matchMethod_eq_error_iff
    (distinct : router.DistinctLabels)
    (method : Octets)
    (path : Text) :
    router.matchMethod method path = .error {} ↔ router.HasTooManyParameters method path := by
  unfold matchMethod HasTooManyParameters
  cases Method.fromBytes method with
  | none => simp
  | some known =>
      dsimp only
      rw [matchRoute_eq, Method.fromCode_code]
      dsimp only
      cases exact : router.dynamicExactRoutes.get (known, Utf8.encode path) with
      | some spec => simp [exact]
      | none =>
          have overflow_iff : (router.radixTree known).search RouteTable.maxStackSegments
              (nonEmptySegments path) [] = .overflow ↔ ∃ way, PatternTree.RunsOut
                (router.radixTree known) (nonEmptySegments path) RouteTable.maxStackSegments way :=
            PatternTree.search_eq_overflow_iff (distinct known) (Nat.zero_le _)
          simp only [Option.some.injEq, exists_eq_left', exact, true_and]
          rw [← overflow_iff]
          cases (router.radixTree known).search RouteTable.maxStackSegments
              (nonEmptySegments path) [] with
          | found spec captured => simp
          | missed => simp
          | overflow => simp

theorem dispatchTarget_eq_error_iff
    (distinct : router.DistinctLabels) :
    router.dispatchTarget parsed = .error {} ↔
      let normalizedPath := normalizeRuntimePath (Utf8.decodeLossy parsed.path)
      ∃ path ∈ (if containsPathTraversal normalizedPath then [] else [normalizedPath]),
        router.HasTooManyParameters parsed.method path := by
  unfold dispatchTarget
  dsimp only
  split
  · simp
  · simp only [List.mem_singleton, exists_eq_left]
    rw [← matchMethod_eq_error_iff distinct]
    cases router.matchMethod parsed.method
        (normalizeRuntimePath (Utf8.decodeLossy parsed.path)) with
    | error panic => simp [ofMatch]
    | ok matched => cases matched <;> simp [ofMatch]

/-- A match panics exactly when one of the paths that are matched has too many
parameters. -/
theorem http1Selection_eq_error_iff
    (distinct : router.DistinctLabels) :
    router.http1Selection parsed = .error {} ↔
      ∃ path ∈ router.matchedPaths parsed, router.HasTooManyParameters parsed.method path := by
  have dispatched : router.dispatchTarget parsed = .error {} ↔ _ :=
    dispatchTarget_eq_error_iff distinct
  have map_iff : ∀ {Value Mapped : Type} (change : Value → Mapped)
      (result : Except CapacityError Value),
      result.map change = .error {} ↔ result = .error {} := by
    intro Value Mapped change result
    cases result <;> simp [Except.map]
  unfold http1Selection matchedPaths
  dsimp only at dispatched ⊢
  split
  · rw [map_iff, selectTarget]
    cases router.staticTarget parsed with
    | some route => simp
    | none =>
        cases router.webSocketTarget parsed with
        | some handlerId => simp
        | none => simpa using dispatched
  · cases router.webSocketTarget parsed with
    | some handlerId => simp
    | none =>
        rw [if_neg (by simp), List.exists_mem_cons_iff, ← matchMethod_eq_error_iff distinct]
        dsimp only
        cases router.matchMethod parsed.method
            (normalizeRuntimePath ((Utf8.decode parsed.path).getD root)) with
        | error panic => simp
        | ok matched =>
            cases parsed.contentLength with
            | none => simp
            | some contentLength =>
                dsimp only
                by_cases large : bodyLimit matched < contentLength
                · simp [large, Except.toOption, Option.join_some, Nat.not_le_of_lt large]
                · rw [if_neg large, map_iff, dispatched]
                  simp [Except.toOption, Option.join_some, Nat.le_of_not_lt large]

end Panics

end Router
end HttpNative
