import HttpNative.Library.PatternSearch
import HttpNative.Parser.RequestHead
import HttpNative.Router.RouteTable

/-!
# The native router

The tables that a manifest is compiled to and the lookup of a request in them.
The search of a parameter tree pushes what it captures onto one array of fixed
capacity and cuts the array back where a branch fails; a push on a full array
panics.
-/

namespace HttpNative
namespace Routing

/-- `MethodKey::from_code` -/
def Method.fromCode : Nat → Option Method
  | 1 => some .get
  | 2 => some .post
  | 3 => some .put
  | 4 => some .delete
  | 5 => some .patch
  | 6 => some .options
  | 7 => some .head
  | _ => none

/-- The upper case of a character where it is spelled in ASCII; a character
without such an upper case is no part of a method's name. -/
def upperCase (char : Char) : Text :=
  match char with
  | 'ı' => text "I"
  | 'ſ' => text "S"
  | 'ß' => text "SS"
  | 'ﬀ' => text "FF"
  | 'ﬁ' => text "FI"
  | 'ﬂ' => text "FL"
  | 'ﬃ' => text "FFI"
  | 'ﬄ' => text "FFL"
  | 'ﬅ' => text "ST"
  | 'ﬆ' => text "ST"
  | char => [char.toUpper]

/-- `MethodKey::from_method_str` of the text in upper case. -/
def Method.fromText (method : Text) : Option Method :=
  Method.all.find? fun candidate => candidate.name = method.flatMap upperCase

end Routing

namespace Router

open Routing

/-! ## The manifest -/

def routeKindExact : Nat := 1

def routeKindParam : Nat := 2

structure RouteInput where
  method : Text
  methodCode : Nat
  path : Text
  routeKind : Nat
  handlerId : Nat
  handlerSource : Text
  paramNames : List Text
  headerKeys : List Text
  fullHeaders : Bool
  needsPath : Bool
  needsUrl : Bool
  needsQuery : Bool
  cache : Option RouteCacheConfig
  /-- Whether a response comes with the route. -/
  staticResponse : Bool
  maxBodyBytes : Option Nat
deriving DecidableEq

structure TlsConfigInput where
  cert : Text
  key : Text

structure ManifestInput where
  version : Nat
  tls : Option TlsConfigInput
  /-- The path prefixes of the middlewares. -/
  middlewares : List Text
  routes : List RouteInput
  /-- The paths of the WebSocket routes with their handler ids. -/
  wsRoutes : List (Text × Nat)

def validateManifest (manifest : ManifestInput) : Except Text Unit :=
  if manifest.version ≠ 1 then
    .error (text "Unsupported manifest version " ++ Decimal.write manifest.version)
  else
    match manifest.tls with
    | none => .ok ()
    | some tls =>
        if Parser.trim tls.cert = [] then .error (text "tls.cert is required")
        else if Parser.trim tls.key = [] then .error (text "tls.key is required")
        else .ok ()

/-! ## The tables -/

structure DynamicRouteSpec where
  handlerId : Nat
  paramNames : List Text
  headerKeys : List Text
  fullHeaders : Bool
  needsPath : Bool
  needsUrl : Bool
  needsQuery : Bool
  fastPath : Bool
  cacheConfig : Option RouteCacheConfig
  maxBodyBytes : Option Nat
deriving DecidableEq

structure MatchedRoute extends DynamicRouteSpec where
  paramValues : List Text
deriving DecidableEq

abbrev RadixNode := PatternTree Text DynamicRouteSpec

end Router

/-- An exact static route is kept as the route its responses are built for. -/
structure Router where
  exactGetRoot : Option Router.RouteInput
  dynamicExactRoutes : Dictionary (Routing.Method × List UInt8) Router.DynamicRouteSpec
  exactStaticRoutes : Dictionary (Routing.Method × List UInt8) Router.RouteInput
  radixTrees : Dictionary Routing.Method Router.RadixNode
  wsRoutes : Dictionary Text Nat

namespace Router

open Routing

def hasApplicableMiddleware (routePath : Text) (middlewares : List Text) : Bool :=
  middlewares.any fun pathPrefix => pathPrefixMatches pathPrefix routePath

/-- The analyzer finds a response in the source of the handler. -/
def analyzeRoute
    (analysis : SourceAnalysis)
    (middlewares : List Text)
    (route : RouteInput) : Bool :=
  route.method = text "GET" && !route.path.contains ':' &&
    !hasApplicableMiddleware route.path middlewares &&
    analysis.staticResponse route.handlerSource

/-- The route becomes an exact static route. -/
def isPromoted
    (analysis : SourceAnalysis)
    (middlewares : List Text)
    (route : RouteInput) : Bool :=
  route.staticResponse || analyzeRoute analysis middlewares route

def compileDynamicRouteSpec
    (analysis : SourceAnalysis)
    (middlewares : List Text)
    (route : RouteInput) :
    DynamicRouteSpec where
  handlerId := route.handlerId
  paramNames := route.paramNames
  headerKeys := route.headerKeys
  fullHeaders := route.fullHeaders
  needsPath := route.needsPath
  needsUrl := route.needsUrl
  needsQuery := route.needsQuery
  fastPath := !hasApplicableMiddleware route.path middlewares &&
    analysis.dynamicTemplate route.handlerSource
  cacheConfig := route.cache.map fun cache => { cache with maxEntries := max cache.maxEntries 1 }
  maxBodyBytes := route.maxBodyBytes

def empty : Router where
  exactGetRoot := none
  dynamicExactRoutes := []
  exactStaticRoutes := []
  radixTrees := []
  wsRoutes := []

def addExactStatic (router : Router) (route : RouteInput) : Router :=
  match Method.fromText route.method with
  | none => router
  | some method =>
      let path := normalizePath route.path
      if method = .get ∧ path = root then
        { router with exactGetRoot := some route }
      else
        { router with
          exactStaticRoutes :=
            router.exactStaticRoutes.set (method, Utf8.encode path) route }

def addDynamic (router : Router) (route : RouteInput) (spec : DynamicRouteSpec) : Router :=
  match Method.fromCode route.methodCode with
  | none => router
  | some method =>
      let path := normalizePath route.path
      if route.routeKind = routeKindExact then
        { router with
          dynamicExactRoutes :=
            router.dynamicExactRoutes.set (method, Utf8.encode path) spec }
      else if route.routeKind = routeKindParam then
        let tree := (router.radixTrees.get method).getD .empty
        { router with
          radixTrees := router.radixTrees.set method (tree.insert spec (parseSegments path)) }
      else
        router

/-- One round of the loop over the routes of the manifest. -/
def addRoute
    (analysis : SourceAnalysis)
    (middlewares : List Text)
    (router : Router)
    (route : RouteInput) : Router :=
  if isPromoted analysis middlewares route then
    router.addExactStatic route
  else
    router.addDynamic route (compileDynamicRouteSpec analysis middlewares route)

def addRoutes
    (analysis : SourceAnalysis)
    (middlewares : List Text)
    (routes : List RouteInput) : Router :=
  routes.foldl (addRoute analysis middlewares) empty

def fromManifest (analysis : SourceAnalysis) (manifest : ManifestInput) : Router :=
  { addRoutes analysis manifest.middlewares manifest.routes with
    wsRoutes := manifest.wsRoutes.foldl
      (fun wsRoutes wsRoute => wsRoutes.set (normalizePath wsRoute.1) wsRoute.2) [] }

/-! ## Lookup -/

/-- `ArrayVec::push` on a full array panics. -/
structure CapacityError where
deriving DecidableEq

/-- What a match returns, and the captures left in the array. -/
abbrev Matching := Except CapacityError (Option DynamicRouteSpec × List Text)

def matchChildren
    (segment : Text)
    (matchNode : List Text → RadixNode → Matching) :
    List Text → List (Text × RadixNode) → Matching
  | paramValues, [] => .ok (none, paramValues)
  | paramValues, (name, child) :: children =>
      if name = segment then
        match matchNode paramValues child with
        | .error panic => .error panic
        | .ok (some spec, paramValues) => .ok (some spec, paramValues)
        | .ok (none, paramValues) => matchChildren segment matchNode paramValues children
      else
        matchChildren segment matchNode paramValues children

def matchPath : List Text → List Text → RadixNode → Matching
  | [], paramValues, .node _ handler _ => .ok (handler, paramValues)
  | segment :: rest, paramValues, .node children _ paramChild =>
      match matchChildren segment (matchPath rest) paramValues children with
      | .error panic => .error panic
      | .ok (some spec, paramValues) => .ok (some spec, paramValues)
      | .ok (none, paramValues) =>
          match paramChild with
          | none => .ok (none, paramValues)
          | some child =>
              let prevLen := paramValues.length
              if paramValues.length < RouteTable.maxStackSegments then
                match matchPath rest (paramValues ++ [segment]) child with
                | .error panic => .error panic
                | .ok (some spec, paramValues) => .ok (some spec, paramValues)
                | .ok (none, paramValues) => .ok (none, paramValues.take prevLen)
              else
                .error {}

/-- The written part of the buffer, and the count; the count past the end says
that the buffer was too small. -/
def fillSegments : List Text → List Text → List Text × Nat
  | buf, [] => (buf, buf.length)
  | buf, segment :: segments =>
      if segment = [] then
        fillSegments buf segments
      else if RouteTable.maxStackSegments ≤ buf.length then
        (buf, buf.length + 1)
      else
        fillSegments (buf ++ [segment]) segments

def splitSegmentsStack (path : Text) : List Text × Nat :=
  if path = root then
    ([], 0)
  else
    fillSegments [] ((path.dropWhile (· = '/')).splitOn '/')

/-- The segments searched for: those of the buffer, or all of them from the
heap. -/
def requestSegments (path : Text) : List Text :=
  if (splitSegmentsStack path).2 ≤ RouteTable.maxStackSegments then
    (splitSegmentsStack path).1.take (splitSegmentsStack path).2
  else
    splitRequestSegments path

def matchRoute
    (router : Router)
    (methodCode : Nat)
    (path : Text) : Except CapacityError (Option MatchedRoute) :=
  match Method.fromCode methodCode with
  | none => .ok none
  | some method =>
      match router.dynamicExactRoutes.get (method, Utf8.encode path) with
      | some spec => .ok (some { spec with paramValues := [] })
      | none =>
          match router.radixTrees.get method with
          | none => .ok none
          | some tree =>
              match matchPath (requestSegments path) [] tree with
              | .error panic => .error panic
              | .ok (none, _) => .ok none
              | .ok (some spec, paramValues) =>
                  .ok (some { spec with paramValues := paramValues })

/-- The static response for the octets of a request's path. -/
def exactStaticRoute
    (router : Router)
    (method : Method)
    (path : List UInt8) : Option RouteInput :=
  if method = .get ∧ path = Utf8.encode root then
    router.exactGetRoot
  else
    router.exactStaticRoutes.get (method, path)

def matchWsRoute (router : Router) (path : Text) : Option Nat :=
  router.wsRoutes.get path

/-! ## The search of the tree -/

/-- What a match returns for the outcome of a search: where it fails, the array
is as it was. -/
def ofSearch (paramValues : List Text) :
    PatternTree.Search Text DynamicRouteSpec → Matching
  | .found spec captured => .ok (some spec, captured)
  | .missed => .ok (none, paramValues)
  | .overflow => .error {}

theorem matchChildren_eq
    {segment : Text} {matchNode : List Text → RadixNode → Matching}
    {search : RadixNode → PatternTree.Search Text DynamicRouteSpec} {paramValues : List Text}
    (agree : ∀ child, matchNode paramValues child = ofSearch paramValues (search child))
    (children : List (Text × RadixNode)) :
    matchChildren segment matchNode paramValues children =
      ofSearch paramValues (PatternTree.searchChildren segment search children) := by
  induction children with
  | nil => rfl
  | cons first children hypothesis =>
      obtain ⟨name, child⟩ := first
      rw [matchChildren, PatternTree.searchChildren, agree]
      by_cases same : name = segment
      · rw [if_pos same, if_pos same]
        cases search child with
        | found spec captured => rfl
        | missed => exact hypothesis
        | overflow => rfl
      · rw [if_neg same, if_neg same]
        exact hypothesis

/-- The array after a failed branch is the array before it, so the search with
one array is the search that hands its captures on. -/
theorem matchPath_eq
    (segments paramValues : List Text)
    (node : RadixNode) :
    matchPath segments paramValues node =
      ofSearch paramValues (node.search RouteTable.maxStackSegments segments paramValues) := by
  induction segments generalizing paramValues node with
  | nil =>
      obtain ⟨children, handler, paramChild⟩ := node
      cases handler <;> rfl
  | cons segment rest hypothesis =>
      obtain ⟨children, handler, paramChild⟩ := node
      have inChildren :
          matchChildren segment (matchPath rest) paramValues children =
            ofSearch paramValues (PatternTree.searchChildren segment
              (PatternTree.search RouteTable.maxStackSegments rest paramValues) children) :=
        matchChildren_eq (hypothesis paramValues) children
      rw [matchPath.eq_def]
      simp only [inChildren]
      cases searched : PatternTree.searchChildren segment
        (PatternTree.search RouteTable.maxStackSegments rest paramValues) children with
      | found spec captured => rw [PatternTree.search_of_child searched (by simp)]; rfl
      | overflow => rw [PatternTree.search_of_child searched (by simp)]; rfl
      | missed =>
          rw [PatternTree.search_of_noChild searched]
          cases paramChild with
          | none => rfl
          | some child =>
              simp only [ofSearch]
              by_cases free : paramValues.length < RouteTable.maxStackSegments
              · rw [if_pos free, if_pos free, hypothesis]
                cases PatternTree.search RouteTable.maxStackSegments rest
                    (paramValues ++ [segment]) child with
                | found spec captured => rfl
                | overflow => rfl
                | missed => simp [ofSearch]
              · rw [if_neg free, if_neg free]

/-! ## The segments of a path -/

theorem fillSegments_take
    {buf segments : List Text}
    (small : (fillSegments buf segments).2 ≤ RouteTable.maxStackSegments) :
    (fillSegments buf segments).1.take (fillSegments buf segments).2 =
      buf ++ segments.filter (· ≠ []) := by
  induction segments generalizing buf with
  | nil => simp [fillSegments]
  | cons segment segments hypothesis =>
      rw [fillSegments] at small ⊢
      by_cases blank : segment = []
      · rw [if_pos blank] at small ⊢
        rw [hypothesis small]
        simp [blank]
      · rw [if_neg blank] at small ⊢
        by_cases full : RouteTable.maxStackSegments ≤ buf.length
        · rw [if_pos full] at small
          exact absurd small (by simp only; omega)
        · rw [if_neg full] at small ⊢
          rw [hypothesis small]
          simp [blank]

/-- The buffer and the heap hold the same segments. -/
theorem requestSegments_eq
    (path : Text) :
    requestSegments path = splitRequestSegments path := by
  unfold requestSegments
  split
  · rename_i small
    unfold splitSegmentsStack at small ⊢
    unfold splitRequestSegments
    split
    · rfl
    · rename_i notRoot
      rw [if_neg notRoot] at small
      exact fillSegments_take small
  · rfl

/-- The segments of a path between slashes that are not empty. -/
def nonEmptySegments (path : Text) : List Text :=
  (path.splitOn '/').filter (· ≠ [])

/-- The pattern that a path spells. -/
def patternOf (path : Text) : List (PatternSegment Text) :=
  (nonEmptySegments path).map fun segment =>
    if segment.head? = some ':' then .capture else .fixed segment

theorem nonEmptySegments_append_cons
    (left right : Text) :
    nonEmptySegments (left ++ '/' :: right) = nonEmptySegments left ++ nonEmptySegments right := by
  unfold nonEmptySegments
  rw [List.splitOn_append_cons_self, List.filter_append]

theorem nonEmptySegments_nil : nonEmptySegments [] = [] := by
  simp [nonEmptySegments]

theorem nonEmptySegments_cons_slash
    (path : Text) :
    nonEmptySegments ('/' :: path) = nonEmptySegments path := by
  have cut := nonEmptySegments_append_cons [] path
  rwa [List.nil_append, nonEmptySegments_nil, List.nil_append] at cut

theorem nonEmptySegments_dropWhile
    (path : Text) :
    nonEmptySegments (path.dropWhile (· = '/')) = nonEmptySegments path := by
  induction path with
  | nil => rfl
  | cons char path hypothesis =>
      by_cases slash : char = '/'
      · rw [List.dropWhile_cons_of_pos (by simpa using slash), hypothesis, slash,
          nonEmptySegments_cons_slash]
      · rw [List.dropWhile_cons_of_neg (by simpa using slash)]

theorem nonEmptySegments_rdropWhile
    (path : Text) :
    nonEmptySegments (path.rdropWhile (· = '/')) = nonEmptySegments path := by
  induction path using List.reverseRecOn with
  | nil => rfl
  | append_singleton path char hypothesis =>
      by_cases slash : char = '/'
      · rw [List.rdropWhile_concat_pos _ _ _ (by simpa using slash), hypothesis, slash,
          nonEmptySegments_append_cons, nonEmptySegments_nil, List.append_nil]
      · rw [List.rdropWhile_concat_neg _ _ _ (by simpa using slash)]

theorem nonEmptySegments_normalizePath
    (path : Text) :
    nonEmptySegments (normalizePath path) = nonEmptySegments path := by
  unfold normalizePath normalizePathPrefix
  split
  · rename_i isRoot
    rw [isRoot]
  · simp only
    split
    · exact nonEmptySegments_rdropWhile path
    · rw [nonEmptySegments_cons_slash, nonEmptySegments_rdropWhile]

theorem splitRequestSegments_eq
    (path : Text) :
    splitRequestSegments path = nonEmptySegments path := by
  unfold splitRequestSegments
  split
  · rename_i isRoot
    rw [isRoot, root, nonEmptySegments_cons_slash, nonEmptySegments_nil]
  · exact nonEmptySegments_dropWhile path

theorem parseSegments_eq
    (path : Text) :
    parseSegments path = patternOf path := by
  unfold parseSegments patternOf
  split
  · rename_i isRoot
    rw [isRoot, root, nonEmptySegments_cons_slash, nonEmptySegments_nil, List.map_nil]
  · rw [splitRequestSegments_eq, nonEmptySegments_normalizePath]

theorem patternOf_normalizePath
    (path : Text) :
    patternOf (normalizePath path) = patternOf path := by
  unfold patternOf
  rw [nonEmptySegments_normalizePath]

end Router
end HttpNative
