import HttpNative.Parser.ReferenceHead
import HttpNative.Router.PromotedRoutes

/-!
# Requests for promoted routes

The two arrangements on the octets of a request. A router with a static response
for `GET /` scans such a head by the hot path, which keeps no headers and sees no
upgrade; the router that keeps the route as a dynamic one leaves the head to the
HTTP parser.
-/

namespace HttpNative
namespace Router

open HttpNative.Parser (HotConfig ParsedRequest RawRequest parseHotRootRequest parseRequestHttparse)
open Routing

/-! ## The two routers on octets -/

/-- What the octets of a request come to, once a head is complete. -/
def requestResult
    (httparse : Octets → Option RawRequest)
    (config : HotConfig)
    (router : Router)
    (bytes : Octets) : Option RouteResult :=
  (router.parseHead httparse config bytes).map fun parsed =>
    if parsed.hasChunkedTe then .refused else resultOf (router.selectTarget parsed)

/-- The configured prefixes are request lines of `GET /`, and the HTTP parser
reads them as such. -/
structure ReadsHotRoot
    (config : HotConfig)
    (httparse : Octets → Option RawRequest) : Prop where
  line : ∀ bytes keepAlive raw, Parser.hotKeepAlive config bytes = some keepAlive →
    httparse bytes = some raw → raw.method = octets "GET" ∧ raw.target = octets "/"

section Condition

variable (analysis : SourceAnalysis) (middlewares : List Text)

/-- The promoted route is the only one with a static response for `GET /`. -/
def OwnsRoot
    (method : Method)
    (before : List RouteInput)
    (route : RouteInput)
    (after : List RouteInput) : Prop :=
  method = .get ∧ normalizePath route.path = root ∧
    ¬ HasStaticAt analysis middlewares .get (Utf8.encode root) (before ++ after)

instance
    (method : Method)
    (before : List RouteInput)
    (route : RouteInput)
    (after : List RouteInput) :
    Decidable (OwnsRoot analysis middlewares method before route after) :=
  inferInstanceAs (Decidable (_ ∧ _ ∧ _))

/-- The request that the hot path yields, and would not without the promotion. -/
def hotByPromotion
    (config : HotConfig)
    (method : Method)
    (before : List RouteInput)
    (route : RouteInput)
    (after : List RouteInput)
    (bytes : Octets) : Option ParsedRequest :=
  if OwnsRoot analysis middlewares method before route after then
    parseHotRootRequest config bytes
  else
    none

/-- Where the promotion of a route changes nothing for the octets of a request.
A head that only the promotion leaves to the hot path has to be accepted by the
HTTP parser as well, without an upgrade; its body sends it to a later dynamic
route, and no such route may stand there when it has none. -/
def Unseen
    (httparse : Octets → Option RawRequest)
    (config : HotConfig)
    (router : Router)
    (method : Method)
    (before : List RouteInput)
    (route : RouteInput)
    (after : List RouteInput)
    (bytes : Octets) : Prop :=
  match hotByPromotion analysis middlewares config method before route after bytes with
  | some hot =>
      ∃ parsed, parseRequestHttparse httparse bytes = some parsed ∧
        hot.hasChunkedTe = parsed.hasChunkedTe ∧
        (hot.hasChunkedTe = false →
          router.webSocketTarget parsed = none ∧
            (hot.hasBody = true ↔
              HasExactAt analysis middlewares .get (Utf8.encode root) after))
  | none =>
      ∀ parsed, router.parseHead httparse config bytes = some parsed →
        parsed.hasChunkedTe = false →
          UnseenBy analysis middlewares router method before route after parsed

end Condition

/-! ## The parsers of the two routers -/

section Tables

variable {analysis : SourceAnalysis} {manifest : ManifestInput} {method : Method}
  {before after : List RouteInput} {route : RouteInput}

theorem exactStaticRoute_root
    (router : Router) :
    router.exactStaticRoute .get (Utf8.encode root) = router.exactGetRoot :=
  if_pos ⟨rfl, rfl⟩

theorem hasStaticAt_append
    {middlewares : List Text} {key : List UInt8} {routes others : List RouteInput} :
    HasStaticAt analysis middlewares method key (routes ++ others) ↔
      HasStaticAt analysis middlewares method key routes ∨
        HasStaticAt analysis middlewares method key others := by
  simp only [HasStaticAt, List.mem_append, or_and_right, exists_or]

theorem isSome_lastRoute_iff
    {middlewares : List Text} {key : List UInt8} {routes : List RouteInput} :
    (lastRoute (isStaticAt analysis middlewares method key) routes).isSome = true ↔
      HasStaticAt analysis middlewares method key routes := by
  rw [hasStaticAt_iff, Option.isSome_iff_ne_none]

theorem keptRouter_exactGetRoot_isSome
    (method : Method)
    (route : RouteInput) :
    (keptRouter analysis manifest method before route after).exactGetRoot.isSome = true ↔
      HasStaticAt analysis manifest.middlewares .get (Utf8.encode root) (before ++ after) := by
  rw [← exactStaticRoute_root, keptRouter_exactStaticRoute, Option.isSome_or, Bool.or_eq_true,
    isSome_lastRoute_iff, isSome_lastRoute_iff, hasStaticAt_append, or_comm]

theorem Promoted.exactGetRoot_of_ownsRoot
    (promoted : Promoted analysis manifest method before route after)
    (owns : OwnsRoot analysis manifest.middlewares method before route after) :
    (fromManifest analysis manifest).exactGetRoot = some route := by
  obtain ⟨isGet, isRoot, alone⟩ := owns
  rw [hasStaticAt_append, not_or, hasStaticAt_iff, hasStaticAt_iff, not_not, not_not] at alone
  rw [← exactStaticRoute_root, promoted.exactStaticRoute_eq, alone.2, pathKey, isRoot,
    if_pos ⟨isGet, rfl⟩]
  rfl

/-- Without a static response of its own for `GET /` the promoted route leaves
the choice of the parser as it is. -/
theorem Promoted.exactGetRoot_isSome_eq
    (promoted : Promoted analysis manifest method before route after)
    (shares : ¬ OwnsRoot analysis manifest.middlewares method before route after) :
    (fromManifest analysis manifest).exactGetRoot.isSome =
      (keptRouter analysis manifest method before route after).exactGetRoot.isSome := by
  rw [Bool.eq_iff_iff, keptRouter_exactGetRoot_isSome, hasStaticAt_append,
    ← exactStaticRoute_root, promoted.exactStaticRoute_eq, Option.isSome_or, Bool.or_eq_true,
    isSome_lastRoute_iff]
  by_cases same : method = .get ∧ pathKey route = Utf8.encode root
  · rw [if_pos same]
    have shared : HasStaticAt analysis manifest.middlewares .get (Utf8.encode root)
        (before ++ after) := by
      by_contra alone
      exact shares ⟨same.1, Utf8.encode_inj.mp same.2, alone⟩
    exact iff_of_true (.inr rfl) (hasStaticAt_append.mp shared)
  · rw [if_neg same, isSome_lastRoute_iff, or_comm]

/-- The head is scanned alike unless the hot path yields a request by the
promotion. -/
theorem Promoted.parseHead_eq
    (promoted : Promoted analysis manifest method before route after)
    {httparse : Octets → Option RawRequest} {config : HotConfig} {bytes : Octets}
    (cold : hotByPromotion analysis manifest.middlewares config method before route after bytes =
      none) :
    (keptRouter analysis manifest method before route after).parseHead httparse config bytes =
      (fromManifest analysis manifest).parseHead httparse config bytes := by
  unfold parseHead
  by_cases owns : OwnsRoot analysis manifest.middlewares method before route after
  · rw [hotByPromotion, if_pos owns] at cold
    rw [cold, Option.none_or, ite_self, ite_self]
  · rw [promoted.exactGetRoot_isSome_eq owns]

theorem Promoted.parseHead_of_hotByPromotion
    (promoted : Promoted analysis manifest method before route after)
    (httparse : Octets → Option RawRequest)
    {config : HotConfig} {bytes : Octets} {hot : ParsedRequest}
    (yields : hotByPromotion analysis manifest.middlewares config method before route after bytes =
      some hot) :
    OwnsRoot analysis manifest.middlewares method before route after ∧
      (fromManifest analysis manifest).parseHead httparse config bytes = some hot ∧
      (keptRouter analysis manifest method before route after).parseHead httparse config bytes =
        parseRequestHttparse httparse bytes ∧
      parseHotRootRequest config bytes = some hot := by
  unfold hotByPromotion at yields
  split at yields
  case isFalse => cases yields
  case isTrue owns =>
      have noRoot := mt (keptRouter_exactGetRoot_isSome method route).mp owns.2.2
      refine ⟨owns, ?_, ?_, yields⟩
      · rw [parseHead, promoted.exactGetRoot_of_ownsRoot owns, Option.isSome_some, if_pos rfl,
          yields, Option.some_or]
      · rw [parseHead, if_neg noRoot]

/-! ## A head of the hot path -/

/-- What both parsers of a `GET /` head say of its request line. -/
structure AsksRoot (parsed : ParsedRequest) : Prop where
  method : parsed.method = octets "GET"
  path : parsed.path = Utf8.encode root

theorem asksRoot_of_keepsLine
    {keepAlive : Bool} {headerBytes : Nat} {parsed : ParsedRequest}
    (keeps : Parser.KeepsLine (Parser.hotRequest keepAlive headerBytes) parsed) :
    AsksRoot parsed where
  method := keeps.method
  path := keeps.path

/-- The HTTP parser reads the request line of a head of the hot path alike. -/
theorem ReadsHotRoot.asksRoot
    {httparse : Octets → Option RawRequest} {config : HotConfig} {bytes : Octets}
    {hot parsed : ParsedRequest}
    (reads : ReadsHotRoot config httparse)
    (scanned : parseHotRootRequest config bytes = some hot)
    (read : parseRequestHttparse httparse bytes = some parsed) :
    AsksRoot parsed := by
  obtain ⟨keepAlive, starts, _⟩ := Option.bind_eq_some_iff.mp scanned
  obtain ⟨raw, complete, fields⟩ := Option.bind_eq_some_iff.mp read
  obtain ⟨isGet, isRoot⟩ := reads.line bytes keepAlive raw starts complete
  obtain ⟨method, _, path, _⟩ := Parser.line_of_parseRawRequest fields
  constructor
  · rw [method, isGet]
  · rw [path, isRoot]
    decide

theorem dispatchTarget_congr
    {router : Router} {parsed other : ParsedRequest}
    (asks : AsksRoot parsed)
    (otherAsks : AsksRoot other) :
    router.dispatchTarget parsed = router.dispatchTarget other := by
  rw [dispatchTarget, dispatchTarget, asks.method, asks.path, otherAsks.method, otherAsks.path]

theorem resultOf_dispatchTarget_ne
    (router : Router)
    (parsed : ParsedRequest)
    (handlerId : Nat) :
    resultOf (router.dispatchTarget parsed) ≠ .webSocket handlerId := by
  unfold dispatchTarget
  dsimp only
  split
  · exact RouteResult.noConfusion
  · rcases router.matchMethod parsed.method _ with panic | (_ | matched)
    · exact RouteResult.noConfusion
    · exact RouteResult.noConfusion
    · exact RouteResult.noConfusion

theorem resultOf_ne_refused
    (target : Except CapacityError Target) :
    resultOf target ≠ .refused := by
  rcases target with panic | target
  · exact RouteResult.noConfusion
  · cases target <;> exact RouteResult.noConfusion

/-- A request of the hot path is answered by the promoted route, or dispatched
when it has a body. -/
theorem Promoted.selectTarget_of_hot
    (promoted : Promoted analysis manifest method before route after)
    (owns : OwnsRoot analysis manifest.middlewares method before route after)
    {hot : ParsedRequest}
    (asks : AsksRoot hot)
    (plain : hot.isWebsocketUpgrade = false) :
    (fromManifest analysis manifest).selectTarget hot =
      if hot.hasBody then (fromManifest analysis manifest).dispatchTarget hot
      else .ok (.staticResponse route) := by
  rw [selectTarget, webSocketTarget_of_plain plain, staticTarget_eq, asks.method, asks.path,
    exactStaticRoute_root, promoted.exactGetRoot_of_ownsRoot owns]
  cases hot.hasBody with
  | true => rfl
  | false => rfl

/-- Kept as a dynamic one, the route leaves no static response for `GET /`. -/
theorem keptRouter_selectTarget
    (method : Method)
    (route : RouteInput)
    (alone : ¬ HasStaticAt analysis manifest.middlewares .get (Utf8.encode root)
      (before ++ after))
    {parsed : ParsedRequest}
    (asks : AsksRoot parsed) :
    (keptRouter analysis manifest method before route after).selectTarget parsed =
      match (fromManifest analysis manifest).webSocketTarget parsed with
      | some handlerId => .ok (.webSocket handlerId)
      | none => (keptRouter analysis manifest method before route after).dispatchTarget parsed := by
  have noRoot : (keptRouter analysis manifest method before route after).exactGetRoot = none := by
    rw [← Option.not_isSome_iff_eq_none, keptRouter_exactGetRoot_isSome]
    exact alone
  have sameSocket :
      (keptRouter analysis manifest method before route after).webSocketTarget parsed =
        (fromManifest analysis manifest).webSocketTarget parsed := rfl
  cases socket : (fromManifest analysis manifest).webSocketTarget parsed with
  | none =>
      rw [selectTarget, staticTarget_eq, asks.path, exactStaticRoute_root, noRoot, ite_self,
        sameSocket, socket]
  | some handlerId =>
      rw [selectTarget, staticTarget_eq, asks.path, exactStaticRoute_root, noRoot, ite_self,
        sameSocket, socket]

/-- Behind the upgrade, a request of the hot path gets the same as without the
promotion exactly when its body goes with a later dynamic route. -/
theorem Promoted.result_dispatch_iff
    (promoted : Promoted analysis manifest method before route after)
    (owns : OwnsRoot analysis manifest.middlewares method before route after)
    {hot : ParsedRequest}
    (asks : AsksRoot hot)
    (plain : hot.isWebsocketUpgrade = false) :
    resultOf ((fromManifest analysis manifest).selectTarget hot) =
        resultOf ((keptRouter analysis manifest method before route after).dispatchTarget hot) ↔
      (hot.hasBody = true ↔
        HasExactAt analysis manifest.middlewares .get (Utf8.encode root) after) := by
  obtain ⟨rfl, isRoot, alone⟩ := owns
  have stays : containsPathTraversal (normalizePath route.path) = false := by
    rw [isRoot]
    decide
  have key : pathKey route = Utf8.encode root := by rw [pathKey, isRoot]
  cases body : hot.hasBody with
  | true =>
      have asksPath : AsksPath .get route hot := by
        rw [AsksPath, asks.method, asks.path, isRoot]
        decide
      rw [promoted.selectTarget_of_hot ⟨rfl, isRoot, alone⟩ asks plain, body, if_pos rfl,
        promoted.dispatch_iff hot, stays, key]
      simp only [asksPath, Bool.false_eq_true, false_or, true_implies, true_iff]
  | false =>
      have asksStatic : AsksStatic .get route hot :=
        ⟨rfl, body, asks.method, asks.path.trans key.symm⟩
      have dispatched :
          (keptRouter analysis manifest .get before route after).selectTarget hot =
            (keptRouter analysis manifest .get before route after).dispatchTarget hot := by
        rw [keptRouter_selectTarget .get route alone asks, webSocketTarget_of_plain plain]
      rw [hasStaticAt_append, not_or] at alone
      rw [← dispatched, promoted.result_iff_of_asksStatic asksStatic, stays, key,
        webSocketTarget_of_plain plain]
      simp only [alone.1, alone.2, not_false_eq_true, true_and, false_or, Bool.false_eq_true,
        false_iff]

/-- A request of the hot path and the same as the HTTP parser reads it. -/
theorem Promoted.hot_iff
    (promoted : Promoted analysis manifest method before route after)
    (owns : OwnsRoot analysis manifest.middlewares method before route after)
    {hot parsed : ParsedRequest}
    (asks : AsksRoot hot)
    (plain : hot.isWebsocketUpgrade = false)
    (parsedAsks : AsksRoot parsed) :
    resultOf ((fromManifest analysis manifest).selectTarget hot) =
        resultOf ((keptRouter analysis manifest method before route after).selectTarget parsed) ↔
      (fromManifest analysis manifest).webSocketTarget parsed = none ∧
        (hot.hasBody = true ↔
          HasExactAt analysis manifest.middlewares .get (Utf8.encode root) after) := by
  rw [keptRouter_selectTarget method route owns.2.2 parsedAsks]
  cases (fromManifest analysis manifest).webSocketTarget parsed with
  | some handlerId =>
      refine iff_of_false ?_ fun same => Option.some_ne_none handlerId same.1
      rw [promoted.selectTarget_of_hot owns asks plain]
      split
      · exact resultOf_dispatchTarget_ne _ hot handlerId
      · exact RouteResult.noConfusion
  | none =>
      rw [dispatchTarget_congr parsedAsks asks]
      simp only [true_and]
      exact promoted.result_dispatch_iff owns asks plain

/-! ## Where the promotion is not seen -/

/-- Two results that are refused alike. -/
theorem refused_iff
    {result other : RouteResult} {refuses otherRefuses : Bool}
    (routed : result ≠ .refused)
    (otherRouted : other ≠ .refused) :
    ((if refuses then .refused else result) = if otherRefuses then .refused else other) ↔
      refuses = otherRefuses ∧ (refuses = false → result = other) := by
  cases refuses <;> cases otherRefuses <;> simp [routed, otherRouted.symm]

/-- A promotion is not seen by the octets of a request exactly where the
condition holds. -/
theorem promotion_unseen_iff
    (promoted : Promoted analysis manifest method before route after)
    {httparse : Octets → Option RawRequest} {config : HotConfig}
    (reads : ReadsHotRoot config httparse)
    (bytes : Octets) :
    requestResult httparse config (fromManifest analysis manifest) bytes =
        requestResult httparse config (keptRouter analysis manifest method before route after)
          bytes ↔
      Unseen analysis manifest.middlewares httparse config (fromManifest analysis manifest) method
        before route after bytes := by
  unfold Unseen requestResult
  cases yields : hotByPromotion analysis manifest.middlewares config method before route after
      bytes with
  | none =>
      rw [promoted.parseHead_eq yields]
      cases (fromManifest analysis manifest).parseHead httparse config bytes with
      | none => simp
      | some parsed =>
          simp only [Option.map_some, Option.some.injEq, forall_eq']
          rw [refused_iff (resultOf_ne_refused _) (resultOf_ne_refused _), promoted.result_iff]
          simp only [true_and]
  | some hot =>
      obtain ⟨owns, scanned, left, hotScan⟩ := promoted.parseHead_of_hotByPromotion httparse yields
      obtain ⟨_, _, keeps⟩ := Parser.keepsLine_of_parseHotRootRequest hotScan
      rw [scanned, left]
      cases read : parseRequestHttparse httparse bytes with
      | none => simp
      | some parsed =>
          simp only [Option.map_some, Option.some.injEq, exists_eq_left']
          rw [refused_iff (resultOf_ne_refused _) (resultOf_ne_refused _),
            promoted.hot_iff owns (asksRoot_of_keepsLine keeps) keeps.upgrade
              (reads.asksRoot hotScan read)]

end Tables

/-! ## A request with a trailing slash -/

theorem readHead_of_line
    {line rest method target : Octets} {minor : Nat} {raw : RawRequest}
    (oneLine : (10 : UInt8) ∉ line)
    (isLine : Parser.readRequestLine line = some (method, target, minor))
    (read : Parser.readHead (line ++ (Parser.lineEnd ++ rest)) = some raw) :
    raw.method = method ∧ raw.target = target := by
  rw [Parser.readHead, Parser.cutLine_lineEnd oneLine] at read
  simp only [Parser.stripReturn_append, isLine] at read
  split at read
  case h_2 => cases read
  case h_1 named _ =>
      cases named
      split at read <;> cases read
      exact ⟨rfl, rfl⟩

/-- The prefixes of the default configuration are what they should be. -/
theorem readsHotRoot_default : ReadsHotRoot Parser.defaultHotConfig Parser.readHead where
  line := by
    intro bytes keepAlive raw starts read
    have http11 : Parser.defaultHotConfig.hotGetRootHttp11 =
        octets "GET / HTTP/1.1" ++ Parser.lineEnd := by decide
    have http10 : Parser.defaultHotConfig.hotGetRootHttp10 =
        octets "GET / HTTP/1.0" ++ Parser.lineEnd := by decide
    unfold Parser.hotKeepAlive at starts
    split at starts
    case isTrue isPrefix =>
        obtain ⟨rest, rfl⟩ := List.isPrefixOf_iff_prefix.mp isPrefix
        rw [http11, List.append_assoc] at read
        have isLine : Parser.readRequestLine (octets "GET / HTTP/1.1") =
            some (octets "GET", octets "/", 1) := by decide
        exact readHead_of_line (by decide) isLine read
    case isFalse =>
        split at starts
        case isFalse => cases starts
        case isTrue isPrefix =>
            obtain ⟨rest, rfl⟩ := List.isPrefixOf_iff_prefix.mp isPrefix
            rw [http10, List.append_assoc] at read
            have isLine : Parser.readRequestLine (octets "GET / HTTP/1.0") =
                some (octets "GET", octets "/", 0) := by decide
            exact readHead_of_line (by decide) isLine read

/-- A route with a response of its own. -/
def fixedRoute (path : Text) : RouteInput :=
  { shapedRoute path with staticResponse := true }

def fixedManifest (path : Text) : ManifestInput :=
  { shapedManifest [] with routes := [fixedRoute path] }

theorem fixedManifest_promoted
    (path : Text) :
    Promoted nothingFound (fixedManifest path) .get [] (fixedRoute path) [] where
  routes := rfl
  promoted := rfl
  ofMethod := (by decide : Method.fromText (text "GET") = some .get)
  distinct := by simp

/-- The hot path answers a promoted `GET /`, which the HTTP parser accepts as well. -/
theorem promotion_unseen_root :
    requestResult Parser.readHead Parser.defaultHotConfig
        (fromManifest nothingFound (fixedManifest (text "/")))
        (octets "GET / HTTP/1.1\r\nHost: a\r\n\r\n") =
      requestResult Parser.readHead Parser.defaultHotConfig
        (keptRouter nothingFound (fixedManifest (text "/")) .get [] (fixedRoute (text "/")) [])
        (octets "GET / HTTP/1.1\r\nHost: a\r\n\r\n") := by
  refine (promotion_unseen_iff (fixedManifest_promoted _) readsHotRoot_default _).mpr ?_
  have hot : ∃ hot, hotByPromotion nothingFound (fixedManifest (text "/")).middlewares
      Parser.defaultHotConfig .get [] (fixedRoute (text "/")) []
      (octets "GET / HTTP/1.1\r\nHost: a\r\n\r\n") = some hot ∧ hot.hasChunkedTe = false ∧
      hot.hasBody = false :=
    ⟨_, rfl, by decide, by decide⟩
  have full : ∃ parsed, parseRequestHttparse Parser.readHead
      (octets "GET / HTTP/1.1\r\nHost: a\r\n\r\n") = some parsed ∧
      parsed.hasChunkedTe = false ∧
      (fromManifest nothingFound (fixedManifest (text "/"))).webSocketTarget parsed = none :=
    ⟨_, rfl, by decide, by decide⟩
  obtain ⟨hot, yields, whole, noBody⟩ := hot
  obtain ⟨parsed, read, parsedWhole, noSocket⟩ := full
  have noLater : ¬ HasExactAt nothingFound (fixedManifest (text "/")).middlewares .get
      (Utf8.encode root) [] := by decide
  rw [Unseen, yields]
  refine ⟨parsed, read, whole.trans parsedWhole.symm, fun _ => ⟨noSocket, ?_⟩⟩
  rw [noBody]
  exact iff_of_false Bool.false_ne_true noLater

/-- With a trailing slash the promoted route is not found, and the kept one is. -/
theorem not_promotion_unseen :
    ¬ ∀ (analysis : SourceAnalysis) (manifest : ManifestInput) (method : Method)
      (before : List RouteInput) (route : RouteInput) (after : List RouteInput) (bytes : Octets),
      Promoted analysis manifest method before route after →
        requestResult Parser.readHead Parser.defaultHotConfig (fromManifest analysis manifest)
            bytes =
          requestResult Parser.readHead Parser.defaultHotConfig
            (keptRouter analysis manifest method before route after) bytes := by
  intro everywhere
  have same := everywhere _ _ _ _ _ _ (octets "GET /status/ HTTP/1.1\r\n\r\n")
    (fixedManifest_promoted (text "/status"))
  exact absurd same (by decide)

end Router
end HttpNative
