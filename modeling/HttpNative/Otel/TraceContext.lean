import HttpNative.Library.Hex

/-!
# Trace contexts

The middleware reads the trace of a request from its headers, or begins one, and writes the
trace and its own span into a header. Along a chain of services that hand this header on,
all spans have one trace, and each span names the one before it as its parent.
-/

namespace HttpNative
namespace Otel

/-- `options.propagation`; a value of another name propagates nothing. -/
inductive Propagation where
  | w3c
  | b3
  | jaeger
  | other
deriving DecidableEq

/-- A header by its name; one that is missing reads as an empty text. -/
abbrev HeaderReader := Text → Text

structure TraceContext where
  traceId : Option Text
  spanId : Option Text
  sampled : Bool
deriving DecidableEq

def TraceContext.unknown : TraceContext where
  traceId := none
  spanId := none
  sampled := true

/-- `[0-9a-f]{length}` -/
def isHexOf (length : Nat) (input : Text) : Bool :=
  input.length == length && input.all (text "0123456789abcdef").contains

/-- The four parts that the pattern of `traceparent` matches. -/
def readTraceparent : List Text → TraceContext
  | [version, traceId, spanId, flags] =>
      if version = text "00" ∧ isHexOf 32 traceId ∧ isHexOf 16 spanId ∧ isHexOf 2 flags then
        { traceId := some traceId, spanId := some spanId, sampled := flags = text "01" }
      else
        .unknown
  | _ => .unknown

def extractTraceContext (propagation : Propagation) (get : HeaderReader) : TraceContext :=
  match propagation with
  | .w3c => readTraceparent ((get (text "traceparent")).splitOn '-')
  | .b3 =>
      if get (text "b3") ≠ [] then
        let parts := (get (text "b3")).splitOn '-'
        { traceId := parts[0]?, spanId := parts[1]?, sampled := parts[2]? ≠ some (text "0") }
      else if get (text "x-b3-traceid") ≠ [] ∧ get (text "x-b3-spanid") ≠ [] then
        { traceId := some (get (text "x-b3-traceid"))
          spanId := some (get (text "x-b3-spanid"))
          sampled := get (text "x-b3-sampled") ≠ text "0" }
      else
        .unknown
  | .jaeger =>
      let parts := (get (text "uber-trace-id")).splitOn ':'
      if 4 ≤ parts.length then
        { traceId := parts[0]?, spanId := parts[1]?, sampled := parts[3]? ≠ some (text "0") }
      else
        .unknown
  | .other => .unknown

/-- The header that is set on the response. -/
def injectTraceContext
    (propagation : Propagation)
    (traceId spanId : Text)
    (sampled : Bool) : Option (Text × Text) :=
  match propagation with
  | .w3c =>
      some (text "traceparent",
        ['-'].intercalate [text "00", traceId, spanId, if sampled then text "01" else text "00"])
  | .b3 =>
      some (text "b3", ['-'].intercalate [traceId, spanId, if sampled then text "1" else text "0"])
  | .jaeger =>
      some (text "uber-trace-id",
        [':'].intercalate [traceId, spanId, text "0", if sampled then text "1" else text "0"])
  | .other => none

/-- `randomBytes(size)` -/
structure RandomBytes (size : Nat) where
  octets : Octets
  sized : octets.length = size

/-- `randomBytes(size).toString("hex")` -/
def RandomBytes.hex {size : Nat} (bytes : RandomBytes size) : Text :=
  Hex.encode bytes.octets

/-- The ids of a span. -/
structure SpanIds where
  traceId : Text
  spanId : Text
  parentSpanId : Option Text
deriving DecidableEq

/-- `value || …`: an empty text counts as none. -/
def present (value : Option Text) : Option Text :=
  value.filter fun written => !written.isEmpty

def resolveIds
    (propagation : Propagation)
    (get : HeaderReader)
    (traceBytes : RandomBytes 16)
    (spanBytes : RandomBytes 8) : SpanIds :=
  let parent := extractTraceContext propagation get
  { traceId := (present parent.traceId).getD traceBytes.hex
    spanId := spanBytes.hex
    parentSpanId := present parent.spanId }

/-! ## Round trips -/

theorem isHexOf_hex
    {size : Nat}
    (bytes : RandomBytes size) :
    isHexOf (2 * size) bytes.hex = true := by
  rw [isHexOf, Bool.and_eq_true, beq_iff_eq, List.all_eq_true]
  refine ⟨?_, fun char member => ?_⟩
  · rw [RandomBytes.hex, Hex.length_encode, bytes.sized]
  · rw [List.contains_iff_mem]
    exact Hex.mem_digits_of_mem_encode member

theorem notMem_of_isHexOf
    {length : Nat} {input : Text} {char : Char}
    (hex : isHexOf length input = true)
    (noDigit : (text "0123456789abcdef").contains char = false) :
    char ∉ input := by
  rw [isHexOf, Bool.and_eq_true, List.all_eq_true] at hex
  intro member
  rw [hex.2 char member] at noDigit
  cases noDigit

theorem ne_nil_of_isHexOf
    {length : Nat} {input : Text}
    (hex : isHexOf (length + 1) input = true) :
    input ≠ [] := by
  rintro rfl
  cases hex

/-- An id that is read back from the header it is written to. -/
def Carries (propagation : Propagation) (traceId : Text) : Prop :=
  match propagation with
  | .w3c => isHexOf 32 traceId = true
  | .b3 => traceId ≠ [] ∧ '-' ∉ traceId
  | .jaeger => traceId ≠ [] ∧ ':' ∉ traceId
  | .other => False

/-- What is written to a header is read from it. -/
theorem extract_of_inject
    {propagation : Propagation} {traceId spanId : Text}
    (carries : Carries propagation traceId)
    (isSpan : isHexOf 16 spanId = true)
    (sampled : Bool)
    {get : HeaderReader}
    (handed : ∀ header, injectTraceContext propagation traceId spanId sampled = some header →
      get header.1 = header.2) :
    extractTraceContext propagation get =
      { traceId := some traceId, spanId := some spanId, sampled := sampled } := by
  have noDash : '-' ∉ spanId := notMem_of_isHexOf isSpan (by decide)
  have noColon : ':' ∉ spanId := notMem_of_isHexOf isSpan (by decide)
  cases propagation with
  | w3c =>
      have traceNoDash : '-' ∉ traceId := notMem_of_isHexOf carries (by decide)
      have value := handed _ rfl
      have parts : (get (text "traceparent")).splitOn '-' =
          [text "00", traceId, spanId, if sampled then text "01" else text "00"] := by
        rw [value]
        apply List.splitOn_intercalate
        · simp only [List.forall_mem_cons]
          refine ⟨by decide, traceNoDash, noDash, ?_, fun _ absent => absurd absent List.not_mem_nil⟩
          cases sampled <;> decide
        · exact List.cons_ne_nil _ _
      rw [extractTraceContext, parts, readTraceparent, if_pos]
      · cases sampled <;> rfl
      · refine ⟨rfl, carries, isSpan, ?_⟩
        cases sampled <;> decide
  | b3 =>
      have value := handed _ rfl
      have parts : (get (text "b3")).splitOn '-' =
          [traceId, spanId, if sampled then text "1" else text "0"] := by
        rw [value]
        apply List.splitOn_intercalate
        · simp only [List.forall_mem_cons]
          refine ⟨carries.2, noDash, ?_, fun _ absent => absurd absent List.not_mem_nil⟩
          cases sampled <;> decide
        · exact List.cons_ne_nil _ _
      have notEmpty : get (text "b3") ≠ [] := by
        intro empty
        rw [empty, List.splitOn_nil] at parts
        cases parts
      rw [extractTraceContext, if_pos notEmpty, parts]
      cases sampled <;> rfl
  | jaeger =>
      have value := handed _ rfl
      have parts : (get (text "uber-trace-id")).splitOn ':' =
          [traceId, spanId, text "0", if sampled then text "1" else text "0"] := by
        rw [value]
        apply List.splitOn_intercalate
        · simp only [List.forall_mem_cons]
          refine ⟨carries.2, noColon, by decide, ?_, fun _ absent => absurd absent List.not_mem_nil⟩
          cases sampled <;> decide
        · exact List.cons_ne_nil _ _
      have four : 4 ≤ [traceId, spanId, text "0",
          if sampled then text "1" else text "0"].length := Nat.le_refl 4
      rw [extractTraceContext, parts, if_pos four]
      cases sampled <;> rfl
  | other => exact absurd carries id

/-! ## Chains of services -/

/-- A service on the way of a request: its random ids, whether it samples, and with which
other headers it calls the next one. -/
structure Hop where
  traceBytes : RandomBytes 16
  spanBytes : RandomBytes 8
  sampled : Bool
  others : HeaderReader

/-- The headers of a request that hands a trace on. -/
def handOn (others : HeaderReader) (header : Option (Text × Text)) : HeaderReader :=
  fun name =>
    match header with
    | some (handed, value) => if name = handed then value else others name
    | none => others name

/-- The spans of services that call one another, of which the first is sent some headers. -/
def spansAlong (propagation : Propagation) (get : HeaderReader) : List Hop → List SpanIds
  | [] => []
  | hop :: rest =>
      let ids := resolveIds propagation get hop.traceBytes hop.spanBytes
      ids ::
        spansAlong propagation
          (handOn hop.others (injectTraceContext propagation ids.traceId ids.spanId hop.sampled))
          rest

/-- The trace id of the headers is no text that the format would cut. Only ids of the
format with several headers can be. -/
def Uncut (propagation : Propagation) (get : HeaderReader) : Prop :=
  propagation = .b3 → get (text "b3") = [] → '-' ∉ get (text "x-b3-traceid")

theorem handOn_handed
    (others : HeaderReader)
    {header : Option (Text × Text)} {handed : Text × Text}
    (isHeader : header = some handed) :
    handOn others header handed.1 = handed.2 := by
  rw [isHeader]
  exact if_pos rfl

/-- What is read from a header is carried on. -/
theorem carries_of_extract
    {propagation : Propagation} {get : HeaderReader}
    (uncut : Uncut propagation get)
    {traceId : Text}
    (found : present (extractTraceContext propagation get).traceId = some traceId) :
    Carries propagation traceId := by
  obtain ⟨isTrace, notEmpty⟩ := Option.filter_eq_some_iff.mp found
  have written : traceId ≠ [] := by
    rintro rfl
    cases notEmpty
  cases propagation with
  | w3c =>
      simp only [extractTraceContext, readTraceparent] at isTrace
      split at isTrace
      · split at isTrace
        case isTrue hex =>
            cases isTrace
            exact hex.2.1
        case isFalse => cases isTrace
      · cases isTrace
  | b3 =>
      simp only [extractTraceContext] at isTrace
      split at isTrace
      case isTrue =>
          exact ⟨written, Text.separator_notMem_of_mem_splitOn (List.mem_of_getElem? isTrace)⟩
      case isFalse missing =>
          split at isTrace
          case isTrue =>
              cases isTrace
              exact ⟨written, uncut rfl (not_not.mp missing)⟩
          case isFalse => cases isTrace
  | jaeger =>
      simp only [extractTraceContext] at isTrace
      split at isTrace
      case isTrue =>
          exact ⟨written, Text.separator_notMem_of_mem_splitOn (List.mem_of_getElem? isTrace)⟩
      case isFalse => cases isTrace
  | other => cases isTrace

/-- A trace id that is made up is carried on. -/
theorem carries_hex
    {propagation : Propagation}
    (propagates : propagation ≠ .other)
    (bytes : RandomBytes 16) :
    Carries propagation bytes.hex := by
  have hex := isHexOf_hex bytes
  cases propagation with
  | w3c => exact hex
  | b3 => exact ⟨ne_nil_of_isHexOf hex, notMem_of_isHexOf hex (by decide)⟩
  | jaeger => exact ⟨ne_nil_of_isHexOf hex, notMem_of_isHexOf hex (by decide)⟩
  | other => exact absurd rfl propagates

theorem carries_resolveIds
    {propagation : Propagation}
    (propagates : propagation ≠ .other)
    {get : HeaderReader}
    (uncut : Uncut propagation get)
    (traceBytes : RandomBytes 16)
    (spanBytes : RandomBytes 8) :
    Carries propagation (resolveIds propagation get traceBytes spanBytes).traceId := by
  change Carries propagation
    ((present (extractTraceContext propagation get).traceId).getD traceBytes.hex)
  cases found : present (extractTraceContext propagation get).traceId with
  | none => exact carries_hex propagates traceBytes
  | some traceId => exact carries_of_extract uncut found

theorem Carries.ne_nil
    {propagation : Propagation} {traceId : Text}
    (carries : Carries propagation traceId) :
    traceId ≠ [] := by
  cases propagation with
  | w3c => exact ne_nil_of_isHexOf carries
  | b3 => exact carries.1
  | jaeger => exact carries.1
  | other => exact absurd carries id

/-- A service that is handed a trace goes on with it, below the span of its caller. -/
theorem resolveIds_of_handed
    {propagation : Propagation} {traceId spanId : Text} {sampled : Bool}
    (carries : Carries propagation traceId)
    (isSpan : isHexOf 16 spanId = true)
    (others : HeaderReader)
    (traceBytes : RandomBytes 16)
    (spanBytes : RandomBytes 8) :
    resolveIds propagation
        (handOn others (injectTraceContext propagation traceId spanId sampled))
        traceBytes spanBytes =
      { traceId := traceId, spanId := spanBytes.hex, parentSpanId := some spanId } := by
  have handed : ∀ header, injectTraceContext propagation traceId spanId sampled = some header →
      handOn others (injectTraceContext propagation traceId spanId sampled) header.1 =
        header.2 :=
    fun header isHeader => handOn_handed others isHeader
  have extracted := extract_of_inject carries isSpan sampled handed
  have traced : present (some traceId) = some traceId := by
    rw [present, Option.filter_some, List.isEmpty_eq_false_iff.mpr carries.ne_nil]
    rfl
  have spanned : present (some spanId) = some spanId := by
    rw [present, Option.filter_some, List.isEmpty_eq_false_iff.mpr (ne_nil_of_isHexOf isSpan)]
    rfl
  rw [resolveIds, extracted]
  dsimp only
  rw [traced, spanned]
  rfl

/-- Behind a service with some ids the trace stays, and each span is the parent of the next. -/
theorem linked_behind
    {propagation : Propagation} {ids : SpanIds}
    (carries : Carries propagation ids.traceId)
    (isSpan : isHexOf 16 ids.spanId = true)
    (sampled : Bool)
    (others : HeaderReader)
    (hops : List Hop) :
    (∀ later ∈ spansAlong propagation
        (handOn others (injectTraceContext propagation ids.traceId ids.spanId sampled)) hops,
      later.traceId = ids.traceId) ∧
      List.IsChain (fun earlier later => later.parentSpanId = some earlier.spanId)
        (ids :: spansAlong propagation
          (handOn others (injectTraceContext propagation ids.traceId ids.spanId sampled)) hops) := by
  induction hops generalizing ids sampled others with
  | nil => exact ⟨fun _ absent => absurd absent List.not_mem_nil, .singleton _⟩
  | cons hop hops hypothesis =>
      have next : resolveIds propagation
          (handOn others (injectTraceContext propagation ids.traceId ids.spanId sampled))
          hop.traceBytes hop.spanBytes =
            { traceId := ids.traceId
              spanId := hop.spanBytes.hex
              parentSpanId := some ids.spanId } :=
        resolveIds_of_handed carries isSpan others hop.traceBytes hop.spanBytes
      rw [spansAlong, next]
      obtain ⟨sameTrace, chained⟩ := @hypothesis
        { traceId := ids.traceId
          spanId := hop.spanBytes.hex
          parentSpanId := some ids.spanId }
        carries (isHexOf_hex hop.spanBytes) hop.sampled hop.others
      refine ⟨?_, ?_⟩
      · rw [List.forall_mem_cons]
        exact ⟨rfl, sameTrace⟩
      · exact List.isChain_cons_cons.mpr ⟨rfl, chained⟩

/-- The headers of a request that brings a trace in the format with several headers. -/
def broughtIds : HeaderReader := fun name =>
  if name = text "x-b3-traceid" then text "463ac35c9f6413ad"
  else if name = text "x-b3-spanid" then text "a2fb4a1d1a96d312"
  else []

end Otel
end HttpNative
