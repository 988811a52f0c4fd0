import HttpNative.Library.IndexedList
import HttpNative.Library.LruMap
import HttpNative.Library.Machine
import HttpNative.Library.ObjectPool
import HttpNative.Library.Text
import HttpNative.Library.Dictionary
import HttpNative.Library.Utf8
import HttpNative.Library.PercentEncoding
import HttpNative.Library.QueryString
import HttpNative.Library.Json
import HttpNative.Bridge.RequestReaders
import HttpNative.Router.RouteCache
import HttpNative.Router.RouteCacheRefinement
import HttpNative.Router.RouteCacheRun
import HttpNative.Router.VaryKeys
import HttpNative.Router.VaryKeyReads
import HttpNative.Dispatch.MiddlewareRunner
import HttpNative.Dispatch.MiddlewareOrder
import HttpNative.Dispatch.HandlerOrder
import HttpNative.Dispatch.AfterNext
import HttpNative.Dispatch.RecycledObjects
import HttpNative.Dispatch.ObjectLeases
import HttpNative.Dispatch.Recycling
import HttpNative.Dispatch.ObjectOwnership
import HttpNative.FastPath.DynamicTemplate
import HttpNative.FastPath.TemplateHandler
import HttpNative.FastPath.QueryDecoding
import HttpNative.FastPath.TemplateValues
import HttpNative.FastPath.TemplateAgreement
import HttpNative.Compile.FastPathProbe
import HttpNative.Compile.ProbeEffects
import HttpNative.Middleware.IpFilter
import HttpNative.Library.PatternTree
import HttpNative.Router.PathPrefixes
import HttpNative.Compile.Registration
import HttpNative.Router.RouteTable
import HttpNative.Router.MiddlewareCoverage
import HttpNative.Parser.RequestHead
import HttpNative.Parser.Framing
import HttpNative.Library.Utf8Ascii
import HttpNative.Parser.FieldLines
import HttpNative.Parser.HotRootAgreement
import HttpNative.Parser.ReferenceHead
import HttpNative.Parser.RequestHeads
import HttpNative.Parser.ConnectionLoop
import HttpNative.Parser.SplitReads
import HttpNative.Library.Hex
import HttpNative.Session.SessionCookies
import HttpNative.Session.SessionStore
import HttpNative.Session.ClientSession
import HttpNative.Session.SessionRuns
import HttpNative.Router.Reload
import HttpNative.Library.ChunkedCoding
import HttpNative.Library.BoundedChannel
import HttpNative.Streaming.ResponseStream
import HttpNative.Streaming.StreamRuns
import HttpNative.WebSocket.Connections
import HttpNative.WebSocket.CallsReturn
import HttpNative.WebSocket.ConnectionSteps
import HttpNative.WebSocket.SilentClients
import HttpNative.WebSocket.TopicSets
import HttpNative.Library.LittleEndian
import HttpNative.Library.OctetReader
import HttpNative.Envelope.RequestEnvelope
import HttpNative.Envelope.EventEnvelope
import HttpNative.Envelope.ResponseDelivery
import HttpNative.Envelope.Http2Responses
import HttpNative.Envelope.Http2Requests
import HttpNative.WebSocket.FrameCoding
import HttpNative.WebSocket.OutboundMessages
import HttpNative.WebSocket.OutboundRuns
import HttpNative.WebSocket.InboundMessages
import HttpNative.WebSocket.InboundRuns
import HttpNative.Lifecycle.GracefulShutdown
import HttpNative.Lifecycle.WorkerExit
import HttpNative.Session.StoreCalls
import HttpNative.Session.StoreExpiry
import HttpNative.Library.PatternSearch
import HttpNative.Router.NativeRouter
import HttpNative.Router.RouteMatching
import HttpNative.Router.MatchingPanics
import HttpNative.Router.RequestSelection
import HttpNative.Router.Http2Selection
import HttpNative.Router.PromotedRoutes
import HttpNative.Router.PromotedRequests
import HttpNative.Library.MessageHead
import HttpNative.Response.ResponseBuilders
import HttpNative.Response.ReadingBack
import HttpNative.Response.OwnFraming
import HttpNative.Response.HeaderSetters
import HttpNative.Response.DispatchResponses
import HttpNative.Response.LineBreaks
import HttpNative.Router.CachedEntries
import HttpNative.Response.ConnectionAnswers
import HttpNative.Response.ConnectionField
import HttpNative.Library.MessageReader
import HttpNative.Response.KeepAliveRuns
import HttpNative.Session.StoreCapacity
import HttpNative.Library.SlidingWindow
import HttpNative.RateLimit.Limiter
import HttpNative.RateLimit.WindowRuns
import HttpNative.RateLimit.Isolation
import HttpNative.Library.CheckedReader
import HttpNative.Response.DispatchWalks
import HttpNative.Response.CachedAnswers
import HttpNative.Response.CachedCookies
import HttpNative.Library.WeightedLists
import HttpNative.Parser.AcceptedCodings
import HttpNative.Router.AddressedEntries
import HttpNative.Response.CodedResponses
import HttpNative.Library.ReferenceCounts
import HttpNative.Lifecycle.CacheNamespaces
import HttpNative.Lifecycle.NamespaceRuns
import HttpNative.Bridge.AccessAnalysis
import HttpNative.Bridge.RequestFactory
import HttpNative.Dispatch.ResponseCache
import HttpNative.RateLimit.RetryTimes
import HttpNative.RateLimit.Evictions
import HttpNative.Router.VaryingBounds
import HttpNative.CircuitBreaker.Breaker
import HttpNative.CircuitBreaker.ProbeCounts
import HttpNative.CircuitBreaker.OpenPeriods
import HttpNative.Dispatch.LifecycleHooks
import HttpNative.Library.DotSegments
import HttpNative.Library.OctetEscapes
import HttpNative.Middleware.Validation
import HttpNative.Router.PathTraversal
import HttpNative.Library.GeneratedBlocks
import HttpNative.Library.TextLines
import HttpNative.WebSocket.FrameStream
import HttpNative.WebSocket.OversizedFrames
import HttpNative.Response.ChangedResponses
import HttpNative.Bridge.NormalizedPlans
import HttpNative.Bridge.SelectedReads
import HttpNative.FastPath.TemplateAnalysis
import HttpNative.FastPath.RenderedJson
import HttpNative.Session.CookieReading
import HttpNative.Middleware.Multipart
import HttpNative.Middleware.MultipartForms
import HttpNative.Library.JsNumber
import HttpNative.Response.CacheHints
import HttpNative.Response.AnsweredHeads
import HttpNative.Lifecycle.FailedReloads
import HttpNative.Lifecycle.WorkerConnections
import HttpNative.Router.BodyLimits
import HttpNative.Response.StreamedStatics
import HttpNative.Library.JsString
import HttpNative.Library.JsonValue
import HttpNative.Library.JsonReading
import HttpNative.Library.JsValue
import HttpNative.Library.Replacements
import HttpNative.Response.InlineScripts
import HttpNative.Compile.GroupScopes
import HttpNative.Middleware.CrossOrigin
import HttpNative.Dev.LoadEntry
import HttpNative.Dev.OverlappingLoads
import HttpNative.Bridge.ShapeBytes
import HttpNative.Dev.CommentBlocks
import HttpNative.Dev.CommentWriter
import HttpNative.Dev.MarkedFiles
import HttpNative.Dev.MarkRuns
import HttpNative.Dev.CleanupRuns
import HttpNative.Dev.Rereading
import HttpNative.Dev.WatchRuns
import HttpNative.Library.TrailingRuns
import HttpNative.Opt.PrintedHits
import HttpNative.Opt.Recommendations
import HttpNative.Otel.SpanExport
import HttpNative.Middleware.CsrfTokens
import HttpNative.Parser.AnsweredStreams
import HttpNative.Service.BridgedRequests
import HttpNative.Service.ServedStreams
import HttpNative.Compile.BuiltManifest
import HttpNative.Library.TextTemplates
import HttpNative.OpenApi.JsonSchemas
import HttpNative.OpenApi.Documents
import HttpNative.Router.TakenPaths
import HttpNative.OpenApi.DocumentedPaths
import HttpNative.OpenApi.DocumentedRoutes
