import HttpNative.Compile.Registration
import HttpNative.Library.PatternTree
import HttpNative.Library.Utf8

/-!
# The native route table

The router built from a compiled application: exact routes by the octets of
their path, routes with parameters in one tree for each method. A request is
answered by an exact static route, from a response cache, by a dynamic fast
path, or by the handler it is dispatched to.
-/

namespace HttpNative
namespace Routing

variable {Handler : Type}

/-! ## Paths -/

/-- The router's own copy of `normalizePathPrefix`. -/
def normalizePath (path : Text) : Text :=
  normalizePathPrefix path

def splitRequestSegments (path : Text) : List Text :=
  if path = root then
    []
  else
    ((path.dropWhile (· = '/')).splitOn '/').filter (· ≠ [])

def parseSegments (path : Text) : List (PatternSegment Text) :=
  if path = root then
    []
  else
    (splitRequestSegments (normalizePath path)).map fun segment =>
      if segment.head? = some ':' then .capture else .fixed segment

def normalizeRuntimePath (path : Text) : Text :=
  if path = root ∨ path.getLast? ≠ some '/' then
    path
  else
    let trimmed := path.rdropWhile (· = '/')
    if trimmed = [] then root
    else if trimmed.head? = some '/' then trimmed
    else '/' :: trimmed

/-- What the two characters after a percent sign stand for. -/
def percentReplacement (high low : Char) : Option Char :=
  if high = '2' ∧ (low = 'e' ∨ low = 'E') then some '.'
  else if high = '2' ∧ (low = 'f' ∨ low = 'F') then some '/'
  else if high = '5' ∧ (low = 'c' ∨ low = 'C') then some '\\'
  else none

def percentDecodeRound : Text → Text
  | '%' :: high :: low :: rest =>
      match percentReplacement high low with
      | some char => char :: percentDecodeRound rest
      | none => '%' :: percentDecodeRound (high :: low :: rest)
  | char :: rest => char :: percentDecodeRound rest
  | [] => []

/-- Up to three rounds; a round that changes nothing ends the loop and is the
identity. -/
def percentDecodePath (path : Text) : Text :=
  percentDecodeRound (percentDecodeRound (percentDecodeRound path))

def checkTraversalPatterns (path : Text) : Bool :=
  Text.includesText (text "/../") path ||
    Text.includesText (text "\\..\\") path ||
    (text "/..").isSuffixOf path ||
    (text "\\..").isSuffixOf path ||
    (text "../").isPrefixOf path ||
    (text "..\\").isPrefixOf path ||
    path == text ".."

def containsPathTraversal (path : Text) : Bool :=
  if path.contains (Char.ofNat 0) || Text.includesText (text "%00") path then
    true
  else if path.contains '%' then
    checkTraversalPatterns (percentDecodePath path)
  else
    Text.includesText (text "..") path && checkTraversalPatterns path

/-! ## The table -/

/-- What the analyzer finds in the source of a handler once no middleware
applies to its route: a response for an exact static route, a template for a
dynamic fast path. -/
structure SourceAnalysis where
  staticResponse : Text → Bool
  dynamicTemplate : Text → Bool

def hasApplicableMiddleware
    (routePath : Text)
    (middlewares : List (Middleware Handler)) : Bool :=
  middlewares.any fun middleware => pathPrefixMatches middleware.pathPrefix routePath

/-- The route becomes an exact static route. -/
def analyzeRoute
    (analysis : SourceAnalysis)
    (route : CompiledRoute)
    (middlewares : List (Middleware Handler)) : Bool :=
  route.method = .get && !route.path.contains ':' &&
    !hasApplicableMiddleware route.path middlewares &&
    analysis.staticResponse route.handlerSource

def analyzeDynamicFastPath
    (analysis : SourceAnalysis)
    (route : CompiledRoute)
    (middlewares : List (Middleware Handler)) : Bool :=
  !hasApplicableMiddleware route.path middlewares &&
    analysis.dynamicTemplate route.handlerSource

structure DynamicRouteSpec where
  handlerId : Nat
  fastPath : Bool
  cacheConfig : Option Router.RouteCacheConfig

def compileDynamicRouteSpec
    (analysis : SourceAnalysis)
    (middlewares : List (Middleware Handler))
    (route : CompiledRoute) :
    DynamicRouteSpec where
  handlerId := route.handlerId
  fastPath := analyzeDynamicFastPath analysis route middlewares
  cacheConfig := route.cache

/-- The tables; the responses of an exact static route are those of the route
they were built for. -/
structure RouteTable where
  exactGetRoot : Option CompiledRoute
  dynamicExactRoutes : Dictionary (Method × List UInt8) DynamicRouteSpec
  exactStaticRoutes : Dictionary (Method × List UInt8) CompiledRoute
  radixTrees : Dictionary Method (PatternTree Text DynamicRouteSpec)

/-- The route kind of `compileRouteShape`: some segment is a parameter. -/
def isParamRoute (path : Text) : Bool :=
  (splitRequestSegments path).any fun segment => segment.head? = some ':'

namespace RouteTable

def empty : RouteTable where
  exactGetRoot := none
  dynamicExactRoutes := []
  exactStaticRoutes := []
  radixTrees := []

def addExactStatic (table : RouteTable) (route : CompiledRoute) : RouteTable :=
  let path := normalizePath route.path
  if route.method = .get ∧ path = root then
    { table with exactGetRoot := some route }
  else
    { table with
      exactStaticRoutes :=
        table.exactStaticRoutes.set (route.method, Utf8.encode path) route }

def addDynamic
    (analysis : SourceAnalysis)
    (middlewares : List (Middleware Handler))
    (table : RouteTable)
    (route : CompiledRoute) : RouteTable :=
  let path := normalizePath route.path
  let spec := compileDynamicRouteSpec analysis middlewares route
  if isParamRoute route.path then
    let tree := (table.radixTrees.get route.method).getD .empty
    { table with
      radixTrees := table.radixTrees.set route.method (tree.insert spec (parseSegments path)) }
  else
    { table with
      dynamicExactRoutes :=
        table.dynamicExactRoutes.set (route.method, Utf8.encode path) spec }

/-- One round of the loop over the routes of the manifest. -/
def addRoute
    (analysis : SourceAnalysis)
    (middlewares : List (Middleware Handler))
    (table : RouteTable)
    (route : CompiledRoute) : RouteTable :=
  if route.staticResponse then table.addExactStatic route
  else if analyzeRoute analysis route middlewares then table.addExactStatic route
  else table.addDynamic analysis middlewares route

def fromManifest (analysis : SourceAnalysis) (app : CompiledApplication Handler) : RouteTable :=
  app.routes.foldl (addRoute analysis app.middlewares) empty

/-- The room for captured parameters. -/
def maxStackSegments : Nat := 16

/-- A search that runs out of room for parameters panics and matches no route. -/
def matchRoute (table : RouteTable) (method : Method) (path : Text) : Option DynamicRouteSpec :=
  match table.dynamicExactRoutes.get (method, Utf8.encode path) with
  | some spec => some spec
  | none =>
      match table.radixTrees.get method with
      | none => none
      | some tree =>
          match tree.search maxStackSegments (splitRequestSegments path) [] with
          | .found spec _ => some spec
          | .missed | .overflow => none

def exactStaticRoute
    (table : RouteTable)
    (method : Method)
    (path : List UInt8) : Option CompiledRoute :=
  if method = .get ∧ path = Utf8.encode root then
    table.exactGetRoot
  else
    table.exactStaticRoutes.get (method, path)

end RouteTable

/-! ## Requests -/

/-- A parsed request that is no WebSocket upgrade. -/
structure Request where
  /-- None for a method without a code. -/
  method : Option Method
  path : List UInt8
  hasBody : Bool

def Request.pathText (request : Request) : Text :=
  Utf8.decodeLossy request.path

/-- Whether the response caches hold an entry under the request's key of the
matched route's configuration, and under its `ncache` key. -/
structure StoredResponses where
  route : Bool
  ncache : Bool

/-- The request is answered with a stored response. The path for requests with
a body does not look up routes with a cache configuration. -/
def replays
    (request : Request)
    (cacheConfig : Option Router.RouteCacheConfig)
    (stored : StoredResponses) : Bool :=
  match cacheConfig with
  | some _ => !request.hasBody && stored.route
  | none => stored.ncache

/-- What answers a request. -/
inductive AnswerKind where
  | exactStatic
  | cachedResponse
  | specializedResponse
  | bridgeRequest
deriving DecidableEq, Repr

namespace RouteTable

/-- `build_dispatch_decision_zero_copy` and, for requests with a body,
`build_dispatch_decision_owned`, which has no fast path. -/
def dispatchDecision
    (table : RouteTable)
    (request : Request)
    (stored : StoredResponses) : Option (AnswerKind × Nat) :=
  let normalizedPath := normalizeRuntimePath request.pathText
  if containsPathTraversal normalizedPath then
    none
  else
    match request.method.bind (table.matchRoute · normalizedPath) with
    | none => none
    | some spec =>
        if replays request spec.cacheConfig stored then some (.cachedResponse, spec.handlerId)
        else if !request.hasBody && spec.fastPath then some (.specializedResponse, spec.handlerId)
        else some (.bridgeRequest, spec.handlerId)

/-- How a request is answered and by the route of which handler id; none when
no route is found. -/
def serve
    (table : RouteTable)
    (request : Request)
    (stored : StoredResponses) : Option (AnswerKind × Nat) :=
  if request.hasBody = false ∧ request.method = some .get then
    match table.exactStaticRoute .get request.path with
    | some route => some (.exactStatic, route.handlerId)
    | none => table.dispatchDecision request stored
  else
    table.dispatchDecision request stored

end RouteTable

end Routing
end HttpNative
