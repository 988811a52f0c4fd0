import HttpNative.Library.Dictionary
import HttpNative.Otel.TraceContext
import Mathlib.Algebra.GroupWithZero.Nat

/-!
# Exported spans and metrics

Requests end in any order. Each one that is sampled adds a span to a buffer, which goes to
the exporter when it is full or flushed; each one is counted, and the counts go to the
exporter from time to time. Nothing is lost between the buffer and the exporter, and
nothing is sent twice.
-/

namespace HttpNative
namespace Otel

/-- The options that the middleware reads. -/
structure OtelOptions where
  serviceName : Text
  hasExporter : Bool
  metrics : Bool

structure ThrownError where
  message : Text
  typeName : Text
deriving DecidableEq

/-- A request at its end: the ids that it has got, whether it was sampled, and what became
of it. -/
structure EndedRequest where
  ids : SpanIds
  sampled : Bool
  method : Text
  path : Text
  matchedRoute : Option Text
  requestId : Option Text
  responseStatus : Option Nat
  error : Option ThrownError

/-- `res._state?.status ?? (error ? 500 : 200)` -/
def EndedRequest.status (request : EndedRequest) : Nat :=
  request.responseStatus.getD (if request.error.isSome then 500 else 200)

structure Span where
  ids : SpanIds
  operationName : Text
  serviceName : Text
  method : Text
  url : Text
  statusCode : Nat
  route : Text
  error : Option ThrownError
  requestId : Option Text
  status : Text
deriving DecidableEq

def buildSpan (options : OtelOptions) (request : EndedRequest) : Span where
  ids := request.ids
  operationName := text "http.request"
  serviceName := options.serviceName
  method := request.method
  url := request.path
  statusCode := request.status
  route := (present request.matchedRoute).getD request.path
  error := request.error
  requestId := present request.requestId
  status := if request.error.isSome then text "ERROR" else text "OK"

/-! ## Counts -/

/-- How often each key was counted. -/
abbrev Counts (Key : Type) := Dictionary Key Nat

/-- `counts[key] = (counts[key] || 0) + 1` -/
def countOne {Key : Type} [DecidableEq Key] (key : Key) (counts : Counts Key) : Counts Key :=
  counts.set key ((counts.get key).getD 0 + 1)

/-- What was counted since the last flush. -/
structure Metrics where
  requests : Nat
  errors : Nat
  statusCounts : Counts Nat
  methodCounts : Counts Text

def Metrics.empty : Metrics where
  requests := 0
  errors := 0
  statusCounts := []
  methodCounts := []

def Metrics.count (metrics : Metrics) (request : EndedRequest) : Metrics where
  requests := metrics.requests + 1
  errors := if 500 ≤ request.status then metrics.errors + 1 else metrics.errors
  statusCounts := countOne request.status metrics.statusCounts
  methodCounts := countOne request.method metrics.methodCounts

/-! ## The middleware -/

/-- What the exporter is called with. -/
inductive Exported where
  | spans (batch : List Span)
  | metrics (summary : Metrics)

structure OtelState where
  spanBuffer : List Span
  metrics : Metrics
  exported : List Exported

def OtelState.initial : OtelState where
  spanBuffer := []
  metrics := .empty
  exported := []

namespace OtelState

variable (options : OtelOptions) (state : OtelState)

/-- `MAX_SPAN_BUFFER` -/
def maxSpanBuffer : Nat := 512

/-- The buffer goes to the exporter as one batch. -/
def exportSpans : OtelState :=
  { state with spanBuffer := [], exported := state.exported ++ [.spans state.spanBuffer] }

def pushSpan (request : EndedRequest) : OtelState :=
  if request.sampled then
    let pushed := { state with spanBuffer := state.spanBuffer ++ [buildSpan options request] }
    if maxSpanBuffer ≤ pushed.spanBuffer.length && options.hasExporter then
      pushed.exportSpans
    else
      pushed
  else
    state

/-- What the middleware does when a request ends. -/
def endRequest (request : EndedRequest) : OtelState :=
  let pushed := state.pushSpan options request
  if options.metrics then { pushed with metrics := pushed.metrics.count request } else pushed

def flushSpans : OtelState :=
  if 0 < state.spanBuffer.length && options.hasExporter then state.exportSpans else state

/-- `flushMetrics`, which the timer calls; it is set only with an exporter. -/
def flushMetrics : OtelState :=
  if options.metrics && options.hasExporter && state.metrics.requests != 0 then
    { state with metrics := .empty, exported := state.exported ++ [.metrics state.metrics] }
  else
    state

end OtelState

inductive OtelEvent where
  | ended (request : EndedRequest)
  | flushSpans
  | flushMetrics

def OtelState.handle (options : OtelOptions) (state : OtelState) : OtelEvent → OtelState
  | .ended request => state.endRequest options request
  | .flushSpans => state.flushSpans options
  | .flushMetrics => state.flushMetrics options

/-- The state after some events. -/
def otelRun (options : OtelOptions) (events : List OtelEvent) : OtelState :=
  events.foldl (OtelState.handle options) .initial

/-- The requests that ended, in order. -/
def endedRequests (events : List OtelEvent) : List EndedRequest :=
  events.filterMap fun event =>
    match event with
    | .ended request => some request
    | .flushSpans => none
    | .flushMetrics => none

/-! ## Spans -/

/-- The spans of the batches, in order. -/
def exportedSpans (exported : List Exported) : List Span :=
  exported.flatMap fun call =>
    match call with
    | .spans batch => batch
    | .metrics _ => []

/-- The spans of the requests that were sampled. -/
def sampledSpans (options : OtelOptions) (requests : List EndedRequest) : List Span :=
  (requests.filter EndedRequest.sampled).map (buildSpan options)

theorem exportedSpans_append
    (before after : List Exported) :
    exportedSpans (before ++ after) = exportedSpans before ++ exportedSpans after :=
  List.flatMap_append

/-- The spans that were sent and those that are held. -/
def OtelState.allSpans (state : OtelState) : List Span :=
  exportedSpans state.exported ++ state.spanBuffer

theorem OtelState.allSpans_exportSpans (state : OtelState) :
    state.exportSpans.allSpans = state.allSpans := by
  rw [allSpans, exportSpans, exportedSpans_append, List.append_nil]
  exact congrArg (_ ++ ·) (List.append_nil _)

theorem OtelState.allSpans_endRequest
    (options : OtelOptions)
    (state : OtelState)
    (request : EndedRequest) :
    (state.endRequest options request).allSpans =
      state.allSpans ++ sampledSpans options [request] := by
  have counted : (state.endRequest options request).allSpans =
      (state.pushSpan options request).allSpans := by
    unfold endRequest
    dsimp only
    split
    · rfl
    · rfl
  rw [counted]
  unfold pushSpan
  cases sampled : request.sampled with
  | false =>
      have nothing : sampledSpans options [request] = [] := by
        simp [sampledSpans, sampled]
      rw [nothing, List.append_nil]
      exact congrArg allSpans (if_neg Bool.false_ne_true)
  | true =>
      have one : sampledSpans options [request] = [buildSpan options request] := by
        simp [sampledSpans, sampled]
      rw [one, if_pos rfl]
      dsimp only
      split
      · rw [allSpans_exportSpans]
        exact (List.append_assoc _ _ _).symm
      · exact (List.append_assoc _ _ _).symm

theorem OtelState.allSpans_handle
    (options : OtelOptions)
    (state : OtelState)
    (event : OtelEvent) :
    (state.handle options event).allSpans =
      state.allSpans ++ sampledSpans options (endedRequests [event]) := by
  cases event with
  | ended request => exact state.allSpans_endRequest options request
  | flushSpans =>
      change (state.flushSpans options).allSpans = state.allSpans ++ []
      rw [List.append_nil]
      unfold flushSpans
      split
      · exact state.allSpans_exportSpans
      · rfl
  | flushMetrics =>
      change (state.flushMetrics options).allSpans = state.allSpans ++ []
      rw [List.append_nil]
      unfold flushMetrics
      split
      · rw [allSpans, exportedSpans_append]
        exact congrArg (· ++ state.spanBuffer) (List.append_nil _)
      · rfl

theorem endedRequests_append
    (before after : List OtelEvent) :
    endedRequests (before ++ after) = endedRequests before ++ endedRequests after :=
  List.filterMap_append

theorem sampledSpans_append
    (options : OtelOptions)
    (before after : List EndedRequest) :
    sampledSpans options (before ++ after) =
      sampledSpans options before ++ sampledSpans options after := by
  rw [sampledSpans, List.filter_append, List.map_append]
  rfl

theorem OtelState.allSpans_foldl_handle
    (options : OtelOptions)
    (state : OtelState)
    (events : List OtelEvent) :
    (events.foldl (OtelState.handle options) state).allSpans =
      state.allSpans ++ sampledSpans options (endedRequests events) := by
  induction events generalizing state with
  | nil => exact (List.append_nil _).symm
  | cons event events hypothesis =>
      have split : endedRequests (event :: events) =
          endedRequests [event] ++ endedRequests events := endedRequests_append [event] events
      rw [List.foldl_cons, hypothesis, allSpans_handle, split, sampledSpans_append,
        List.append_assoc]

/-- With an exporter the buffer is never full between two events. -/
theorem OtelState.length_spanBuffer_handle
    {options : OtelOptions}
    (hasExporter : options.hasExporter = true)
    {state : OtelState}
    (short : state.spanBuffer.length < maxSpanBuffer)
    (event : OtelEvent) :
    (state.handle options event).spanBuffer.length < maxSpanBuffer := by
  cases event with
  | ended request =>
      have counted : (state.endRequest options request).spanBuffer =
          (state.pushSpan options request).spanBuffer := by
        unfold endRequest
        dsimp only
        split
        · rfl
        · rfl
      change (state.endRequest options request).spanBuffer.length < maxSpanBuffer
      rw [counted]
      unfold pushSpan
      split
      · dsimp only
        split
        · exact Nat.zero_lt_of_lt short
        case isFalse notFull =>
            rw [hasExporter, Bool.and_true, decide_eq_true_iff] at notFull
            exact Nat.lt_of_not_le notFull
      · exact short
  | flushSpans =>
      change (state.flushSpans options).spanBuffer.length < maxSpanBuffer
      unfold flushSpans
      split
      · exact Nat.zero_lt_of_lt short
      · exact short
  | flushMetrics =>
      change (state.flushMetrics options).spanBuffer.length < maxSpanBuffer
      unfold flushMetrics
      split
      · exact short
      · exact short

theorem OtelState.length_spanBuffer_foldl_handle
    {options : OtelOptions}
    (hasExporter : options.hasExporter = true)
    {state : OtelState}
    (short : state.spanBuffer.length < maxSpanBuffer)
    (events : List OtelEvent) :
    (events.foldl (OtelState.handle options) state).spanBuffer.length < maxSpanBuffer := by
  induction events generalizing state with
  | nil => exact short
  | cons event events hypothesis =>
      apply hypothesis
      exact length_spanBuffer_handle hasExporter short event

/-- The summaries that were sent. -/
def summaries (exported : List Exported) : List Metrics :=
  exported.filterMap fun call =>
    match call with
    | .spans _ => none
    | .metrics summary => some summary

theorem summaries_append
    (before after : List Exported) :
    summaries (before ++ after) = summaries before ++ summaries after :=
  List.filterMap_append

/-- A number of the metrics goes up with the requests of some kind. -/
structure Measures (measure : Metrics → Nat) (kind : EndedRequest → Bool) : Prop where
  empty : measure .empty = 0
  count : ∀ metrics request,
    measure (metrics.count request) = measure metrics + if kind request then 1 else 0

theorem measures_requests : Measures Metrics.requests fun _ => true where
  empty := rfl
  count _ _ := rfl

theorem measures_errors : Measures Metrics.errors fun request => 500 ≤ request.status where
  empty := rfl
  count metrics request := by
    unfold Metrics.count
    by_cases failed : 500 ≤ request.status
    · rw [if_pos failed, if_pos (decide_eq_true failed)]
    · rw [if_neg failed, if_neg (by rw [decide_eq_true_iff]; exact failed)]
      rfl

/-- Counting a key changes the count of that key. -/
theorem get_countOne
    {Key : Type} [DecidableEq Key]
    (counted key : Key)
    (counts : Counts Key) :
    ((countOne counted counts).get key).getD 0 =
      (counts.get key).getD 0 + if counted = key then 1 else 0 := by
  unfold countOne
  by_cases same : counted = key
  · rw [same, Dictionary.get_set_self, if_pos rfl]
    rfl
  · rw [Dictionary.get_set_of_ne _ _ same, if_neg same]
    rfl

theorem measures_status
    (status : Nat) :
    Measures (fun metrics => (metrics.statusCounts.get status).getD 0)
      fun request => request.status = status where
  empty := rfl
  count metrics request := by
    rw [Metrics.count, get_countOne]
    by_cases same : request.status = status
    · rw [if_pos same, if_pos (decide_eq_true same)]
    · rw [if_neg same, if_neg (by rw [decide_eq_true_iff]; exact same)]

theorem measures_method
    (method : Text) :
    Measures (fun metrics => (metrics.methodCounts.get method).getD 0)
      fun request => request.method = method where
  empty := rfl
  count metrics request := by
    rw [Metrics.count, get_countOne]
    by_cases same : request.method = method
    · rw [if_pos same, if_pos (decide_eq_true same)]
    · rw [if_neg same, if_neg (by rw [decide_eq_true_iff]; exact same)]

/-- What was sent of a number, and what is still counted. -/
def OtelState.totalOf (measure : Metrics → Nat) (state : OtelState) : Nat :=
  ((summaries state.exported).map measure).sum + measure state.metrics

theorem OtelState.totalOf_exportSpans
    (measure : Metrics → Nat)
    (state : OtelState) :
    state.exportSpans.totalOf measure = state.totalOf measure := by
  have none : summaries [.spans state.spanBuffer] = [] := rfl
  rw [totalOf, exportSpans, summaries_append, none, List.append_nil]
  rfl

theorem OtelState.totalOf_pushSpan
    (options : OtelOptions)
    (measure : Metrics → Nat)
    (state : OtelState)
    (request : EndedRequest) :
    (state.pushSpan options request).totalOf measure = state.totalOf measure := by
  unfold pushSpan
  split
  · dsimp only
    split
    · rw [totalOf_exportSpans]
      rfl
    · rfl
  · rfl

theorem OtelState.totalOf_handle
    {options : OtelOptions}
    (metrics : options.metrics = true)
    {measure : Metrics → Nat} {kind : EndedRequest → Bool}
    (measures : Measures measure kind)
    (state : OtelState)
    (event : OtelEvent) :
    (state.handle options event).totalOf measure =
      state.totalOf measure + (endedRequests [event]).countP kind := by
  cases event with
  | ended request =>
      have counted : state.endRequest options request =
          { state.pushSpan options request with
            metrics := (state.pushSpan options request).metrics.count request } :=
        if_pos metrics
      have one : (endedRequests [.ended request]).countP kind = if kind request then 1 else 0 :=
        (List.countP_cons.trans (Nat.zero_add _))
      change (state.endRequest options request).totalOf measure = _
      rw [counted, one, ← state.totalOf_pushSpan options measure request, totalOf, totalOf]
      dsimp only
      rw [measures.count, Nat.add_assoc]
  | flushSpans =>
      change (state.flushSpans options).totalOf measure = state.totalOf measure
      unfold flushSpans
      split
      · exact state.totalOf_exportSpans measure
      · rfl
  | flushMetrics =>
      change (state.flushMetrics options).totalOf measure = state.totalOf measure
      unfold flushMetrics
      split
      · rw [totalOf, totalOf, summaries_append]
        dsimp only
        rw [measures.empty, Nat.add_zero, List.map_append, List.sum_append]
        exact congrArg (_ + ·) (Nat.add_zero _)
      · rfl

theorem OtelState.totalOf_foldl_handle
    {options : OtelOptions}
    (metrics : options.metrics = true)
    {measure : Metrics → Nat} {kind : EndedRequest → Bool}
    (measures : Measures measure kind)
    (state : OtelState)
    (events : List OtelEvent) :
    (events.foldl (OtelState.handle options) state).totalOf measure =
      state.totalOf measure + (endedRequests events).countP kind := by
  induction events generalizing state with
  | nil => rfl
  | cons event events hypothesis =>
      have split : endedRequests (event :: events) =
          endedRequests [event] ++ endedRequests events := endedRequests_append [event] events
      rw [List.foldl_cons, hypothesis, totalOf_handle metrics measures, split,
        List.countP_append, Nat.add_assoc]

/-- A request that failed, between two flushes. -/
def oneFailure : List OtelEvent :=
  [.flushMetrics,
    .ended ⟨⟨text "a", text "b", none⟩, true, text "GET", text "/", none, none, some 503, none⟩,
    .flushMetrics]

end Otel
end HttpNative
