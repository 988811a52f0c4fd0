import HttpNative.Parser.SplitReads

/-!
# Responses to streams of requests

The connection loop with the octets that it writes: the response to a request goes
out as the request is routed. Over a stream of requests these are the responses to
them, in their order, up to the request that ends the loop, in however many reads the
stream arrives.
-/

namespace HttpNative
namespace Parser

/-- How a request with its body is responded to. -/
abbrev Responder := ParsedRequest → Octets → Octets

/-- The loop with what it has written. -/
structure AnsweringState where
  connection : ConnectionState
  written : Octets
deriving DecidableEq

/-- The request that the loop is at: the one whose head is in front of the buffer, or
the one whose body is collected. -/
def ConnectionState.current
    (config : ConnectionConfig)
    (state : ConnectionState) :
    Option ParsedRequest :=
  match state.phase with
  | .head => parseBuffer config state.buffer
  | .body request _ _ => some request
  | .closed => none

/-- The response to the request that a step routes. -/
def writtenBetween
    (config : ConnectionConfig)
    (respond : Responder)
    (state next : ConnectionState) :
    Octets :=
  match state.current config with
  | none => []
  | some request =>
      (next.routed.drop state.routed.length).flatMap fun routed => respond request routed.body

/-- The loop on a connection that carries a stream, with its responses. -/
def answeringLoop
    (config : ConnectionConfig)
    (respond : Responder)
    (stream : Octets) :
    Machine AnsweringState ConnectionEvent where
  start := { connection := (connectionLoop config stream).start, written := [] }
  step := fun state event =>
    ((connectionLoop config stream).step state.connection event).map fun next =>
      { connection := next
        written := state.written ++ writtenBetween config respond state.connection next }

/-! ## Streams of requests that are routed -/

variable {config : ConnectionConfig} {respond : Responder}

/-- A request that is routed when the loop comes to it. -/
structure RoutedMessage (config : ConnectionConfig) extends RequestMessage config where
  parsed : ParsedRequest
  isParsed : parseBuffer config head.octets = some parsed
  stays : decideHead config parsed ≠ .leave

def RoutedMessage.response (respond : Responder) (message : RoutedMessage config) : Octets :=
  respond message.parsed message.body

def streamOfRouted (messages : List (RoutedMessage config)) : Octets :=
  streamOf (messages.map RoutedMessage.toRequestMessage)

/-- The requests up to the one behind which the loop ends. -/
def answeredOf : List (RoutedMessage config) → List (RoutedMessage config)
  | [] => []
  | message :: rest =>
      message :: if goesOn config message.parsed message.body then answeredOf rest else []

/-! ## What is written -/

/-- The responses to the first requests are written, and what is buffered and pending
carries the others. -/
structure Answers
    (respond : Responder)
    (messages : List (RoutedMessage config))
    (state : AnsweringState)
    (answered waiting : List (RoutedMessage config)) : Prop where
  order : answeredOf messages = answered ++ waiting
  written : state.written = answered.flatMap (RoutedMessage.response respond)
  carried :
    match state.connection.phase with
    | .head => ∃ rest, waiting = answeredOf rest ∧
        state.connection.buffer ++ state.connection.pending = streamOfRouted rest
    | .body request collected length => ∃ message rest,
        waiting = answeredOf (message :: rest) ∧
          request = message.parsed ∧
          decideHead config request = .collect length ∧
          collected.length < length ∧
          state.connection.buffer = [] ∧
          collected ++ state.connection.pending = message.body ++ streamOfRouted rest
    | .closed => waiting = []

/-- Nothing is written when no request is routed. -/
theorem written_of_same
    {state : AnsweringState} {next : ConnectionState} {written : Octets}
    (same : next.routed = state.connection.routed)
    (before : state.written = written) :
    state.written ++ writtenBetween config respond state.connection next = written := by
  have nothing : writtenBetween config respond state.connection next = [] := by
    unfold writtenBetween
    split
    · rfl
    · rw [same, List.drop_length]
      rfl
  rw [nothing, List.append_nil, before]

theorem writtenBetween_of_routed
    {state next : ConnectionState} {request : ParsedRequest} {body : Octets}
    (current : state.current config = some request)
    (routed : next.routed = state.routed ++ [routedRequest request body]) :
    writtenBetween config respond state next = respond request body := by
  unfold writtenBetween
  rw [current]
  dsimp only
  rw [routed, List.drop_left, List.flatMap_singleton]
  rfl

/-- The request that comes first is routed and responded to. -/
theorem answers_route
    {messages answered rest : List (RoutedMessage config)} {message : RoutedMessage config}
    {state : AnsweringState} {before : ConnectionState} {buffer : Octets}
    (order : answeredOf messages = answered ++ answeredOf (message :: rest))
    (written : state.written = answered.flatMap (RoutedMessage.response respond))
    (current : state.connection.current config = some message.parsed)
    (sameRouted : before.routed = state.connection.routed)
    (carried : buffer ++ before.pending = streamOfRouted rest) :
    ∃ waiting,
      Answers respond messages
        { connection := before.route config message.parsed message.body buffer
          written := state.written ++ writtenBetween config respond state.connection
            (before.route config message.parsed message.body buffer) }
        (answered ++ [message]) waiting := by
  have response : writtenBetween config respond state.connection
      (before.route config message.parsed message.body buffer) =
        respond message.parsed message.body := by
    apply writtenBetween_of_routed current
    rw [ConnectionState.route, sameRouted]
  refine ⟨if goesOn config message.parsed message.body then answeredOf rest else [], ?_, ?_, ?_⟩
  · rw [order, answeredOf, List.append_assoc, List.singleton_append]
  · rw [response, written, List.flatMap_append, List.flatMap_singleton]
    rfl
  · unfold ConnectionState.route
    dsimp only
    cases again : goesOn config message.parsed message.body with
    | true => exact ⟨rest, rfl, carried⟩
    | false => rfl

/-- A head that has arrived whole is handled. -/
theorem answers_handleHead
    (reads : HttparseReadsHeads config.httparse)
    {messages answered rest : List (RoutedMessage config)} {message : RoutedMessage config}
    {state : AnsweringState} {arrived : Octets}
    (order : answeredOf messages = answered ++ answeredOf (message :: rest))
    (written : state.written = answered.flatMap (RoutedMessage.response respond))
    (current : state.connection.current config = some message.parsed)
    (buffer : state.connection.buffer = message.head.octets ++ arrived)
    (carried : arrived ++ state.connection.pending = message.body ++ streamOfRouted rest) :
    ∃ answered waiting,
      Answers respond messages
        { connection := state.connection.handleHead config message.parsed
          written := state.written ++ writtenBetween config respond state.connection
            (state.connection.handleHead config message.parsed) }
        answered waiting := by
  have behind : state.connection.buffer.drop message.parsed.headerBytes = arrived := by
    rw [buffer, headerBytes_of_parseBuffer reads message.isParsed, List.drop_left]
  have framed := message.framed message.parsed message.isParsed
  unfold ConnectionState.handleHead
  rw [behind]
  cases decision : decideHead config message.parsed with
  | leave => exact absurd decision message.stays
  | route =>
      have noBody : message.body = [] := by
        apply List.length_eq_zero_iff.mp
        rw [framed, bodyLength, hasBody_of_route decision]
        rfl
      rw [noBody, List.nil_append] at carried
      have routed := answers_route order written current rfl carried
      rw [noBody] at routed
      exact ⟨_, routed⟩
  | collect length =>
      rw [bodyLength_of_collect decision] at framed
      dsimp only
      split
      case isTrue whole =>
          rw [← framed] at whole ⊢
          obtain ⟨body, others⟩ := take_drop_of_append carried whole
          rw [body]
          exact ⟨_, answers_route order written current rfl others⟩
      case isFalse missing =>
          refine ⟨answered, answeredOf (message :: rest), order, ?_, ?_⟩
          · exact written_of_same rfl written
          · exact ⟨message, rest, rfl, rfl, decision, Nat.lt_of_not_le missing, rfl, carried⟩

/-- A round of the loop without a read. -/
theorem answers_process
    (reads : HttparseReadsHeads config.httparse)
    {messages answered waiting : List (RoutedMessage config)} {state : AnsweringState}
    {next : ConnectionState}
    (answers : Answers respond messages state answered waiting)
    (stepEq : state.connection.process config = some next) :
    ∃ answered waiting,
      Answers respond messages
        { connection := next
          written := state.written ++ writtenBetween config respond state.connection next }
        answered waiting := by
  have inHead := exists_of_process stepEq
  have carried := answers.carried
  rw [inHead] at carried
  obtain ⟨rest, rfl, carried⟩ := carried
  rcases arrival_cases carried with ⟨_, empty⟩ | ⟨first, others, split, proper | arrival⟩
  · rw [process_nil reads empty] at stepEq
    cases stepEq
  · rw [process_of_proper reads proper.1 proper.2] at stepEq
    cases stepEq
  · obtain ⟨arrived, buffer, behind⟩ := arrival
    cases rest with
    | nil => cases split
    | cons message rest =>
        cases split
        have parsed : parseBuffer config state.connection.buffer = some message.parsed := by
          rw [buffer, parseBuffer_octets reads, message.isParsed]
        rw [process_head reads inHead buffer, message.isParsed] at stepEq
        cases stepEq
        refine answers_handleHead reads answers.order answers.written ?_ buffer behind
        rw [ConnectionState.current, inHead]
        exact parsed

/-- A read of a whole head, or of a body. -/
theorem answers_read
    {messages answered waiting : List (RoutedMessage config)} {state : AnsweringState}
    {next : ConnectionState} {count : Nat}
    (answers : Answers respond messages state answered waiting)
    (whole : ReadsWholeHead config state.connection (.read count))
    (stepEq : state.connection.read config count = some next) :
    ∃ answered waiting,
      Answers respond messages
        { connection := next
          written := state.written ++ writtenBetween config respond state.connection next }
        answered waiting := by
  have carried := answers.carried
  unfold ConnectionState.read at stepEq
  split at stepEq
  case isFalse => cases stepEq
  case isTrue yields =>
  cases phase : state.connection.phase with
  | head =>
      rw [phase] at stepEq carried
      dsimp only at stepEq
      split at stepEq
      case isFalse => cases stepEq
      case isTrue =>
          cases stepEq
          obtain ⟨empty, short⟩ := whole phase
          obtain ⟨rest, rfl, carried⟩ := carried
          have within :
              ¬ (state.connection.pending.take count).length > config.maxHeaderBytes := by
            rw [List.length_take]
            omega
          rw [ConnectionState.readHeadOctets, if_neg within]
          refine ⟨answered, answeredOf rest, answers.order, ?_, ?_⟩
          · exact written_of_same rfl answers.written
          · dsimp only
            rw [phase]
            refine ⟨rest, rfl, ?_⟩
            rw [List.take_append_drop]
            rwa [empty, List.nil_append] at carried
  | body request collected length =>
      rw [phase] at stepEq carried
      dsimp only at stepEq
      split at stepEq
      case isFalse => cases stepEq
      case isTrue asked =>
          cases stepEq
          obtain ⟨message, rest, rfl, rfl, decision, missing, empty, carried⟩ := carried
          have framed := message.framed message.parsed message.isParsed
          rw [bodyLength_of_collect decision] at framed
          have split : (collected ++ state.connection.pending.take count) ++
              state.connection.pending.drop count = message.body ++ streamOfRouted rest := by
            rw [List.append_assoc, List.take_append_drop]
            exact carried
          unfold ConnectionState.readBodyOctets
          dsimp only
          split
          case isTrue complete =>
              rw [← framed] at complete ⊢
              obtain ⟨body, others⟩ := take_drop_of_append split complete
              have sameLength : (collected ++ state.connection.pending.take count).length =
                  message.body.length := by
                refine Nat.le_antisymm ?_ complete
                rw [List.length_append, List.length_take]
                omega
              rw [← sameLength, List.drop_length, List.nil_append] at others
              rw [body]
              have current : state.connection.current config = some message.parsed := by
                rw [ConnectionState.current, phase]
              refine ⟨_, answers_route answers.order answers.written current rfl ?_⟩
              rw [empty, List.nil_append]
              exact others
          case isFalse incomplete =>
              refine ⟨answered, answeredOf (message :: rest), answers.order, ?_, ?_⟩
              · exact written_of_same rfl answers.written
              · exact ⟨message, rest, rfl, rfl, decision, Nat.lt_of_not_le incomplete, empty,
                  split⟩
  | closed =>
      rw [phase] at stepEq
      cases stepEq

/-! ## Runs -/

/-- Nothing more is read of the stream. -/
def AnsweringState.IsSettled (config : ConnectionConfig) (state : AnsweringState) : Prop :=
  state.connection.phase = .closed ∨
    (state.connection.pending = [] ∧ state.connection.process config = none)

theorem answers_of_reaches
    (reads : HttparseReadsHeads config.httparse)
    {messages : List (RoutedMessage config)} {state : AnsweringState}
    (reaches : (answeringLoop config respond (streamOfRouted messages)).ReachesUnder
      (fun state event => ReadsWholeHead config state.connection event) state) :
    ∃ answered waiting, Answers respond messages state answered waiting := by
  apply reaches.invariant
  · exact ⟨[], answeredOf messages, rfl, rfl, messages, rfl, rfl⟩
  · rintro before event next ⟨answered, waiting, answers⟩ whole stepEq
    obtain ⟨connection, stepped, rfl⟩ := Option.map_eq_some_iff.mp stepEq
    cases event with
    | process => exact answers_process reads answers stepped
    | read count => exact answers_read answers whole stepped

/-- Once everything is read all requests have been answered. -/
theorem waiting_of_settled
    (reads : HttparseReadsHeads config.httparse)
    {messages answered waiting : List (RoutedMessage config)} {state : AnsweringState}
    (answers : Answers respond messages state answered waiting)
    (settled : state.IsSettled config) :
    waiting = [] := by
  have carried := answers.carried
  cases phase : state.connection.phase with
  | closed =>
      rw [phase] at carried
      exact carried
  | head =>
      obtain ⟨noPending, waits⟩ := settled.resolve_left (by simp [phase])
      rw [phase] at carried
      obtain ⟨rest, rfl, carried⟩ := carried
      rcases arrival_cases carried with ⟨none, _⟩ | ⟨first, others, split, proper | arrival⟩
      · rw [List.map_eq_nil_iff] at none
        rw [none, answeredOf]
      · rw [noPending, List.append_nil, streamOfRouted, split, streamOf_cons] at carried
        have long := proper.1.length_le
        have total := congrArg List.length carried
        rw [List.length_append] at total
        exact absurd (proper.1.eq_of_length (by omega)) proper.2
      · obtain ⟨arrived, buffer, _⟩ := arrival
        rw [process_head reads phase buffer] at waits
        cases waits
  | body request collected length =>
      obtain ⟨noPending, _⟩ := settled.resolve_left (by simp [phase])
      rw [phase] at carried
      obtain ⟨message, rest, _, rfl, decision, missing, _, carried⟩ := carried
      have framed := message.framed message.parsed message.isParsed
      rw [bodyLength_of_collect decision] at framed
      have total := congrArg List.length carried
      rw [noPending, List.append_nil, List.length_append] at total
      omega

/-- In every run whose head reads are whole, what is written are the responses to the
first requests, and to all that are answered once everything is read. -/
theorem written_of_reaches
    (reads : HttparseReadsHeads config.httparse)
    {messages : List (RoutedMessage config)} {state : AnsweringState}
    (reaches : (answeringLoop config respond (streamOfRouted messages)).ReachesUnder
      (fun state event => ReadsWholeHead config state.connection event) state) :
    ∃ answered, answered <+: answeredOf messages ∧
      state.written = answered.flatMap (RoutedMessage.response respond) ∧
      (state.IsSettled config → answered = answeredOf messages) := by
  obtain ⟨answered, waiting, answers⟩ := answers_of_reaches reads reaches
  refine ⟨answered, ⟨waiting, answers.order.symm⟩, answers.written, fun settled => ?_⟩
  rw [answers.order, waiting_of_settled reads answers settled, List.append_nil]

end Parser
end HttpNative
