import HttpNative.Envelope.Http2Requests
import HttpNative.Router.MatchingPanics
import HttpNative.Router.RequestSelection

/-!
# What a request selects over HTTP/2

The handler of a stream looks for static responses whether or not a body
follows, has one limit for all bodies, and matches paths without looking for
traversal. It selects what HTTP/1.1 selects exactly where none of this matters.
-/

namespace HttpNative
namespace Router

open Routing

/-- A request as both protocols carry it; the body comes in the chunks of the
stream. -/
structure StreamRequest where
  method : Octets
  target : Octets
  path : Text
  isPath : Parser.pathOfTarget target = Utf8.encode path
  /-- Over HTTP/2 an empty path is sent as a slash. -/
  nonempty : path ≠ []
  /-- What the URI that the target is parsed to has for its path. -/
  uriPath : Octets
  /-- A path that is not empty ends where the query starts, and a fragment is no part
  of a URI. -/
  isUriPath : 35 ∉ target → uriPath = target.takeWhile (· ≠ 63)
  chunks : List Octets

/-- The target has no fragment. -/
def StreamRequest.NoFragment (request : StreamRequest) : Prop :=
  35 ∉ request.target

instance (request : StreamRequest) : Decidable request.NoFragment :=
  inferInstanceAs (Decidable (35 ∉ request.target))

def StreamRequest.body (request : StreamRequest) : Octets :=
  request.chunks.flatten

/-- The head of the same request over HTTP/1.1, where it asks for no upgrade; a
fragment would be lost over HTTP/2. -/
structure Carries (parsed : Parser.ParsedRequest) (request : StreamRequest) : Prop where
  noFragment : request.NoFragment
  method : parsed.method = request.method
  path : parsed.path = Parser.pathOfTarget request.target
  hasBody : parsed.hasBody = !request.body.isEmpty
  contentLength : request.body ≠ [] → parsed.contentLength = some request.body.length
  noUpgrade : parsed.isWebsocketUpgrade = false

/-- The loop over the data of the stream; nothing is read beyond the limit. -/
def readBody : Octets → List Octets → Option Octets
  | bodyBytes, [] => some bodyBytes
  | bodyBytes, chunk :: chunks =>
      if maxBodyBytes < bodyBytes.length + chunk.length then none
      else readBody (bodyBytes ++ chunk) chunks

/-- The static response that the handler of a stream looks for. -/
def streamStatic (router : Router) (request : StreamRequest) : Option RouteInput :=
  if request.method = octets "GET" then router.exactStaticRoute .get request.uriPath else none

/-- `handle_h2_stream` up to the dispatch. -/
def http2Selection
    (router : Router)
    (request : StreamRequest) : Except CapacityError Selection :=
  match router.streamStatic request with
  | some route => .ok (.selected (.staticResponse route))
  | none =>
      match readBody [] request.chunks with
      | none => .ok .payloadTooLarge
      | some _ =>
          (ofMatch (router.matchMethod request.method
            (normalizeRuntimePath (Utf8.decodeLossy request.uriPath)))).map .selected

/-- Where the two protocols select the same: a static response goes to requests
without a body, no matched path leaves its directory, and the length of the body
is on the same side of the route's limit and of the common one. -/
def TreatedAlike (router : Router) (request : StreamRequest) : Prop :=
  match router.streamStatic request with
  | some _ => request.body = []
  | none =>
      let path := normalizeRuntimePath request.path
      match router.matchMethod request.method path with
      | .error _ =>
          request.body.length ≤ maxBodyBytes ∧
            (request.body = [] → containsPathTraversal path = false)
      | .ok none => True
      | .ok (some route) =>
          (route.maxBodyBytes.getD maxBodyBytes < request.body.length ↔
            maxBodyBytes < request.body.length) ∧
          (request.body.length ≤ maxBodyBytes → containsPathTraversal path = false)

/-! ## The two selections -/

theorem readBody_eq
    {bodyBytes : Octets}
    (small : bodyBytes.length ≤ maxBodyBytes)
    (chunks : List Octets) :
    readBody bodyBytes chunks =
      if maxBodyBytes < (bodyBytes ++ chunks.flatten).length then none
      else some (bodyBytes ++ chunks.flatten) := by
  induction chunks generalizing bodyBytes with
  | nil =>
      rw [List.flatten_nil, List.append_nil, if_neg (Nat.not_lt.mpr small)]
      rfl
  | cons chunk chunks hypothesis =>
      rw [readBody, List.flatten_cons, ← List.append_assoc]
      by_cases large : maxBodyBytes < bodyBytes.length + chunk.length
      · rw [if_pos large, if_pos]
        simp only [List.length_append]
        omega
      · rw [if_neg large, hypothesis (by rw [List.length_append]; omega)]

theorem StreamRequest.NoFragment.uriPath_eq
    {request : StreamRequest}
    (noFragment : request.NoFragment) :
    request.uriPath = Utf8.encode request.path := by
  rw [request.isUriPath noFragment, ← request.isPath, Parser.pathOfTarget]

section Selections

variable {router : Router} {parsed : Parser.ParsedRequest} {request : StreamRequest}

theorem Carries.path_eq
    (carries : Carries parsed request) :
    parsed.path = Utf8.encode request.path := by
  rw [carries.path, request.isPath]

theorem Carries.dispatchTarget_eq
    (carries : Carries parsed request) :
    router.dispatchTarget parsed =
      if containsPathTraversal (normalizeRuntimePath request.path) then .ok .notFound
      else ofMatch (router.matchMethod request.method (normalizeRuntimePath request.path)) := by
  rw [dispatchTarget, carries.path_eq, carries.method, Utf8.decodeLossy_encode]

theorem Carries.webSocketTarget_eq
    (carries : Carries parsed request) :
    router.webSocketTarget parsed = none := by
  simp [webSocketTarget, carries.noUpgrade]

/-- What HTTP/1.1 selects without a body. -/
theorem Carries.http1Selection_of_noBody
    (carries : Carries parsed request)
    (noBody : request.body = []) :
    router.http1Selection parsed =
      match router.streamStatic request with
      | some route => .ok (.selected (.staticResponse route))
      | none =>
          (if containsPathTraversal (normalizeRuntimePath request.path) then .ok .notFound
          else ofMatch (router.matchMethod request.method
            (normalizeRuntimePath request.path))).map .selected := by
  have noFlag : parsed.hasBody = false := by
    rw [carries.hasBody, noBody]
    rfl
  have static : router.staticTarget parsed = router.streamStatic request := by
    rw [staticTarget_eq, streamStatic, noFlag, carries.method, carries.path_eq,
      carries.noFragment.uriPath_eq]
    simp
  rw [http1Selection, noFlag, Bool.not_false, if_pos rfl, selectTarget, static,
    carries.webSocketTarget_eq, carries.dispatchTarget_eq]
  cases router.streamStatic request <;> rfl

/-- What HTTP/1.1 selects with a body. -/
theorem Carries.http1Selection_of_body
    (carries : Carries parsed request)
    (body : request.body ≠ []) :
    router.http1Selection parsed =
      match router.matchMethod request.method (normalizeRuntimePath request.path) with
      | .error panic => .error panic
      | .ok matched =>
          if bodyLimit matched < request.body.length then .ok .payloadTooLarge
          else if containsPathTraversal (normalizeRuntimePath request.path) then
            .ok (.selected .notFound)
          else
            (ofMatch (.ok matched)).map .selected := by
  have flag : parsed.hasBody = true := by
    rw [carries.hasBody, Bool.not_eq_true', List.isEmpty_eq_false_iff]
    exact body
  rw [http1Selection, flag, Bool.not_true, if_neg (by simp), carries.webSocketTarget_eq,
    carries.dispatchTarget_eq, carries.path_eq, carries.method, Utf8.decode_encode,
    Option.getD_some, carries.contentLength body]
  cases router.matchMethod request.method (normalizeRuntimePath request.path) with
  | error panic => rfl
  | ok matched =>
      simp only
      split
      · rfl
      · split <;> rfl

theorem Carries.http2Selection_eq
    (carries : Carries parsed request) :
    router.http2Selection request =
      match router.streamStatic request with
      | some route => .ok (.selected (.staticResponse route))
      | none =>
          if maxBodyBytes < request.body.length then .ok .payloadTooLarge
          else (ofMatch (router.matchMethod request.method
            (normalizeRuntimePath request.path))).map .selected := by
  rw [http2Selection, readBody_eq (Nat.zero_le _), carries.noFragment.uriPath_eq,
    Utf8.decodeLossy_encode, List.nil_append]
  change (match router.streamStatic request with
    | some route => _
    | none => match (if maxBodyBytes < request.body.length then none else some request.body) with
      | none => _
      | some _ => _) = _
  cases router.streamStatic request with
  | some route => rfl
  | none =>
      simp only
      split <;> rename_i read
      · split at read
        · rename_i large
          rw [if_pos large]
        · cases read
      · split at read
        · cases read
        · rename_i small
          rw [if_neg small]

theorem Carries.selectsSame_of_noBody
    (carries : Carries parsed request)
    (noBody : request.body = []) :
    router.http1Selection parsed = router.http2Selection request ↔
      TreatedAlike router request := by
  have small : ¬ maxBodyBytes < request.body.length := by simp [noBody]
  rw [carries.http1Selection_of_noBody noBody, carries.http2Selection_eq, TreatedAlike]
  cases router.streamStatic request with
  | some route => simp [noBody]
  | none =>
      simp only [if_neg small]
      cases router.matchMethod request.method (normalizeRuntimePath request.path) with
      | error panic =>
          by_cases leaves : containsPathTraversal (normalizeRuntimePath request.path) = true
          · simp [leaves, noBody, ofMatch, Except.map]
          · simp [leaves, noBody, ofMatch, Except.map]
      | ok matched =>
          cases matched with
          | none => simp [ofMatch]
          | some route =>
              by_cases leaves : containsPathTraversal (normalizeRuntimePath request.path) = true
              · simp [leaves, noBody, ofMatch, Except.map]
              · simp [leaves, noBody, ofMatch, Except.map]

theorem Carries.selectsSame_of_body
    (carries : Carries parsed request)
    (body : request.body ≠ []) :
    router.http1Selection parsed = router.http2Selection request ↔
      TreatedAlike router request := by
  rw [carries.http1Selection_of_body body, carries.http2Selection_eq, TreatedAlike]
  cases router.streamStatic request with
  | some route =>
      -- a request with a body never gets a static response over HTTP/1.1
      simp only [body, iff_false]
      cases router.matchMethod request.method (normalizeRuntimePath request.path) with
      | error panic => simp
      | ok matched =>
          simp only
          split
          · simp
          · split
            · simp
            · cases matched <;> simp [ofMatch, Except.map]
  | none =>
      simp only
      cases router.matchMethod request.method (normalizeRuntimePath request.path) with
      | error panic =>
          by_cases large : maxBodyBytes < request.body.length
          · simp [large]
          · simp [large, body, ofMatch, Except.map, Nat.not_lt.mp large]
      | ok matched =>
          cases matched with
          | none =>
              have limit : bodyLimit none = maxBodyBytes := rfl
              simp only [limit, iff_true]
              by_cases beyond : maxBodyBytes < request.body.length
              · rw [if_pos beyond, if_pos beyond]
              · rw [if_neg beyond, if_neg beyond]
                split <;> rfl
          | some route =>
              have limit : bodyLimit (some route) = route.maxBodyBytes.getD maxBodyBytes := rfl
              simp only [limit]
              by_cases overOwn : route.maxBodyBytes.getD maxBodyBytes < request.body.length
              · by_cases beyond : maxBodyBytes < request.body.length
                · simp [overOwn, beyond]
                · simp [overOwn, beyond, ofMatch, Except.map]
              · by_cases beyond : maxBodyBytes < request.body.length
                · rw [if_neg overOwn, if_pos beyond]
                  split <;> simp [overOwn, beyond, ofMatch, Except.map]
                · rw [if_neg overOwn, if_neg beyond]
                  split <;> rename_i leaves <;>
                    simp [overOwn, beyond, leaves, ofMatch, Except.map, Nat.not_lt.mp beyond]

/-- Both protocols select the same exactly for the requests treated alike. -/
theorem http1Selection_eq_http2Selection_iff
    (carries : Carries parsed request) :
    router.http1Selection parsed = router.http2Selection request ↔
      TreatedAlike router request := by
  by_cases noBody : request.body = []
  · exact carries.selectsSame_of_noBody noBody
  · exact carries.selectsSame_of_body noBody

end Selections

/-! ## Requests of both kinds -/

/-- A GET request for a path, with what is in its chunks. -/
def getStream
    (path : Text)
    (isPath : Parser.pathOfTarget (Utf8.encode path) = Utf8.encode path)
    (nonempty : path ≠ [])
    (chunks : List Octets) : StreamRequest where
  method := octets "GET"
  target := Utf8.encode path
  path := path
  isPath := isPath
  nonempty := nonempty
  uriPath := (Utf8.encode path).takeWhile (· ≠ 63)
  isUriPath := fun _ => rfl
  chunks := chunks

/-- Its head over HTTP/1.1. -/
def StreamRequest.http1Head (request : StreamRequest) : Parser.ParsedRequest where
  method := request.method
  target := request.target
  path := Parser.pathOfTarget request.target
  keepAlive := true
  headerBytes := 0
  hasBody := !request.body.isEmpty
  contentLength := some request.body.length
  hasChunkedTe := false
  headers := []
  cookieHeader := none
  isWebsocketUpgrade := false
  wsKey := none
  acceptedEncoding := .identity

theorem StreamRequest.NoFragment.carries
    {request : StreamRequest}
    (noFragment : request.NoFragment) :
    Carries request.http1Head request where
  noFragment := noFragment
  method := rfl
  path := rfl
  hasBody := rfl
  contentLength := fun _ => rfl
  noUpgrade := rfl

/-- A path of three segments over both protocols. -/
theorem http1Selection_eq_http2Selection_files :
    (fromManifest nothingFound (shapedManifest [text "/:a/:b/:c"])).http1Selection
        (getStream (text "/x/y/z") (by decide) (by decide) []).http1Head =
      (fromManifest nothingFound (shapedManifest [text "/:a/:b/:c"])).http2Selection
        (getStream (text "/x/y/z") (by decide) (by decide) []) := by
  have noFragment :
      (getStream (text "/x/y/z") (by decide) (by decide) []).NoFragment := by
    decide
  refine (http1Selection_eq_http2Selection_iff noFragment.carries).mpr ?_
  have matched :
      (fromManifest nothingFound (shapedManifest [text "/:a/:b/:c"])).matchMethod (octets "GET")
          (normalizeRuntimePath (text "/x/y/z")) =
        .ok (some (matchedRoute nothingFound []
          (shapedRoute (text "/:a/:b/:c"), [text "x", text "y", text "z"]))) := by
    decide
  simp only [TreatedAlike, getStream, matched]
  exact ⟨Iff.rfl, fun _ => by decide⟩

/-- A path refused over HTTP/1.1 is routed over HTTP/2, and a static response
answers a request with a body over HTTP/2 only. -/
theorem not_http1Selection_eq_http2Selection :
    ¬ ∀ (analysis : SourceAnalysis) (manifest : ManifestInput) (parsed : Parser.ParsedRequest)
      (request : StreamRequest), Carries parsed request →
        (fromManifest analysis manifest).http1Selection parsed =
          (fromManifest analysis manifest).http2Selection request := by
  intro everywhere
  have noFragment :
      (getStream (text "/a/../b") (by decide) (by decide) []).NoFragment := by
    decide
  have same := everywhere nothingFound (shapedManifest [text "/:a/:b/:c"]) _
    (getStream (text "/a/../b") (by decide) (by decide) []) noFragment.carries
  exact absurd same (by decide)

end Router
end HttpNative
