import HttpNative.Parser.ConnectionLoop
import HttpNative.Parser.RequestHeads

/-!
# Requests in split reads

A stream of requests is routed as if it had arrived in one piece, as long as no
read of a head is split from the one before: such a read replaces what the
buffer held of the head.
-/

namespace HttpNative
namespace Parser

/-! ## Streams of requests -/

/-- The length of the body that follows a head. -/
def bodyLength (request : ParsedRequest) : Nat :=
  if request.hasBody then request.contentLength.getD 0 else 0

/-- A head within the limit and the body it announces. -/
structure RequestMessage (config : ConnectionConfig) where
  head : RequestHead
  body : Octets
  within : head.octets.length ≤ config.maxHeaderBytes
  framed : ∀ request, parseBuffer config head.octets = some request →
    body.length = bodyLength request

variable {config : ConnectionConfig}

def streamOf (messages : List (RequestMessage config)) : Octets :=
  messages.flatMap fun message => message.head.octets ++ message.body

theorem streamOf_cons
    (message : RequestMessage config)
    (rest : List (RequestMessage config)) :
    streamOf (message :: rest) = message.head.octets ++ (message.body ++ streamOf rest) := by
  rw [streamOf, List.flatMap_cons, List.append_assoc]
  rfl

/-- The requests of a stream up to the one that ends the loop. -/
def routedOf : List (RequestMessage config) → List RoutedRequest
  | [] => []
  | message :: rest =>
      match parseBuffer config message.head.octets with
      | none => []
      | some request =>
          if decideHead config request = .leave then
            []
          else
            routedRequest request message.body ::
              if goesOn config request message.body then routedOf rest else []

/-- What has been routed is what the stream in one piece gives, from its start;
all of it once the loop has ended, or has read everything and waits for more. -/
structure RoutedAsInOnePiece
    (config : ConnectionConfig)
    (stream : Octets)
    (state : ConnectionState) : Prop where
  sameStart : state.routed <+: inOnePiece config stream
  sameAll : state.phase = .closed ∨ (state.pending = [] ∧ state.process config = none) →
    state.routed = inOnePiece config stream

/-- A read of a head starts on an empty buffer and stays within the limit. -/
def ReadsWholeHead
    (config : ConnectionConfig)
    (state : ConnectionState) :
    ConnectionEvent → Prop
  | .process => True
  | .read count => state.phase = .head → state.buffer = [] ∧ count ≤ config.maxHeaderBytes

instance (state : ConnectionState) (event : ConnectionEvent) :
    Decidable (ReadsWholeHead config state event) :=
  match event with
  | .process => inferInstanceAs (Decidable True)
  | .read _ => inferInstanceAs (Decidable (_ → _))

/-! ## Parsing what has arrived -/

/-- The shortest head. -/
def plainGetHead : RequestHead where
  line := {
    method := octets "GET"
    target := octets "/"
    minor := 1
    methodNamed := by decide
    methodToken := by decide
    targetNamed := by decide
    targetVisible := by decide
    known := by decide }
  fields := []

theorem parseBuffer_octets
    (reads : HttparseReadsHeads config.httparse)
    (head : RequestHead)
    (rest : Octets) :
    parseBuffer config (head.octets ++ rest) = parseBuffer config head.octets := by
  have alone := reads.complete head []
  rw [List.append_nil] at alone
  simp only [parseBuffer, parseHotRootRequest_octets, parseRequestHttparse, reads.complete, alone]

theorem parseBuffer_of_proper
    (reads : HttparseReadsHeads config.httparse)
    {head : RequestHead} {before : Octets}
    (within : before <+: head.octets)
    (proper : before ≠ head.octets) :
    parseBuffer config before = none := by
  have noEnd := head.findHeaderEnd_of_proper within proper
  have noHot : parseHotRootRequest defaultHotConfig before = none := by
    unfold parseHotRootRequest
    cases hotKeepAlive defaultHotConfig before with
    | none => rfl
    | some keepAlive => simp [noEnd]
  simp [parseBuffer, noHot, parseRequestHttparse, reads.incomplete head before within proper]

theorem headerBytes_of_parseBuffer
    (reads : HttparseReadsHeads config.httparse)
    {head : RequestHead} {request : ParsedRequest}
    (parsed : parseBuffer config head.octets = some request) :
    request.headerBytes = head.octets.length := by
  unfold parseBuffer at parsed
  split at parsed
  case isTrue =>
      rcases Option.or_eq_some_iff.mp parsed with hot | ⟨_, full⟩
      · exact headerBytes_of_parseHotRootRequest hot
      · exact headerBytes_of_parseRequestHttparse reads full
  case isFalse => exact headerBytes_of_parseRequestHttparse reads parsed

/-- A round without a read takes a head that has arrived whole. -/
theorem process_head
    (reads : HttparseReadsHeads config.httparse)
    {state : ConnectionState} {head : RequestHead} {rest : Octets}
    (inHead : state.phase = .head)
    (arrived : state.buffer = head.octets ++ rest) :
    state.process config = some
      (match parseBuffer config head.octets with
      | some request => state.handleHead config request
      | none => state.close) := by
  have ends : (findHeaderEnd state.buffer).isSome = true := by
    rw [arrived, head.findHeaderEnd_octets]
    rfl
  rw [ConnectionState.process, inHead]
  simp only [arrived, parseBuffer_octets reads head rest]
  rw [arrived] at ends
  cases parseBuffer config head.octets with
  | none => simp [ends]
  | some request => rfl

/-- A round without a read does nothing on a head that has not arrived whole. -/
theorem process_of_proper
    (reads : HttparseReadsHeads config.httparse)
    {state : ConnectionState} {head : RequestHead}
    (within : state.buffer <+: head.octets)
    (proper : state.buffer ≠ head.octets) :
    state.process config = none := by
  unfold ConnectionState.process
  cases state.phase with
  | head =>
      simp [parseBuffer_of_proper reads within proper, head.findHeaderEnd_of_proper within proper]
  | body request collected length => rfl
  | closed => rfl

/-! ## The decision on a head -/

theorem hasBody_of_route
    {request : ParsedRequest}
    (decision : decideHead config request = .route) :
    request.hasBody = false := by
  unfold decideHead at decision
  split at decision
  case isTrue => cases decision
  split at decision
  case isTrue static =>
      simp only [servesStatic, Bool.and_eq_true, Bool.not_eq_true'] at static
      exact static.1.1
  split at decision
  case isTrue => cases decision
  split at decision
  case isTrue bodyless => simpa using bodyless
  split at decision
  case h_1 => cases decision
  case h_2 =>
      split at decision <;> cases decision

theorem bodyLength_of_collect
    {request : ParsedRequest} {length : Nat}
    (decision : decideHead config request = .collect length) :
    bodyLength request = length := by
  unfold decideHead at decision
  split at decision
  case isTrue => cases decision
  split at decision
  case isTrue => cases decision
  split at decision
  case isTrue => cases decision
  split at decision
  case isTrue => cases decision
  case isFalse bodied =>
      split at decision
      case h_1 => cases decision
      case h_2 announced =>
          split at decision
          case isTrue => cases decision
          case isFalse =>
              cases decision
              have hasBody : request.hasBody = true := by simpa using bodied
              rw [bodyLength, if_pos hasBody, announced, Option.getD_some]

/-! ## The invariant -/

/-- What is buffered and pending carries the messages that are still to be
routed. -/
def Follows (messages : List (RequestMessage config)) (state : ConnectionState) : Prop :=
  match state.phase with
  | .head => ∃ rest : List (RequestMessage config),
      state.buffer ++ state.pending = streamOf rest ∧
        state.routed ++ routedOf rest = routedOf messages
  | .body request collected length => ∃ (message : RequestMessage config)
      (rest : List (RequestMessage config)),
      parseBuffer config message.head.octets = some request ∧
        decideHead config request = .collect length ∧
        collected.length < length ∧
        state.buffer = [] ∧
        collected ++ state.pending = message.body ++ streamOf rest ∧
        state.routed ++ routedOf (message :: rest) = routedOf messages
  | .closed => state.routed = routedOf messages

theorem routedOf_cons
    {message : RequestMessage config} {request : ParsedRequest}
    (parsed : parseBuffer config message.head.octets = some request)
    (stays : decideHead config request ≠ .leave)
    (rest : List (RequestMessage config)) :
    routedOf (message :: rest) = routedRequest request message.body ::
      if goesOn config request message.body then routedOf rest else [] := by
  rw [routedOf, parsed]
  exact if_neg stays

/-- Routing the message that comes first. -/
theorem follows_route
    {messages rest : List (RequestMessage config)} {message : RequestMessage config}
    {state : ConnectionState} {request : ParsedRequest} {buffer : Octets}
    (parsed : parseBuffer config message.head.octets = some request)
    (stays : decideHead config request ≠ .leave)
    (carried : buffer ++ state.pending = streamOf rest)
    (routed : state.routed ++ routedOf (message :: rest) = routedOf messages) :
    Follows messages (state.route config request message.body buffer) := by
  rw [routedOf_cons parsed stays] at routed
  unfold Follows ConnectionState.route
  cases again : goesOn config request message.body with
  | true =>
      rw [again, if_pos rfl] at routed
      refine ⟨rest, carried, ?_⟩
      rw [List.append_assoc]
      exact routed
  | false =>
      rw [again] at routed
      exact routed

/-- The first octets of a body that has arrived whole. -/
theorem take_drop_of_append
    {arrived behind body others : Octets}
    (carried : arrived ++ behind = body ++ others)
    (whole : body.length ≤ arrived.length) :
    arrived.take body.length = body ∧ arrived.drop body.length ++ behind = others := by
  obtain ⟨more, rfl⟩ : body <+: arrived :=
    List.prefix_of_prefix_length_le ⟨others, carried.symm⟩ (List.prefix_append _ _) whole
  refine ⟨List.take_left, ?_⟩
  rw [List.drop_left]
  rw [List.append_assoc] at carried
  exact List.append_cancel_left carried

/-- Handling a head that has arrived whole. -/
theorem follows_handleHead
    (reads : HttparseReadsHeads config.httparse)
    {messages rest : List (RequestMessage config)} {message : RequestMessage config}
    {state : ConnectionState} {request : ParsedRequest} {arrived : Octets}
    (parsed : parseBuffer config message.head.octets = some request)
    (buffer : state.buffer = message.head.octets ++ arrived)
    (carried : arrived ++ state.pending = message.body ++ streamOf rest)
    (routed : state.routed ++ routedOf (message :: rest) = routedOf messages) :
    Follows messages (state.handleHead config request) := by
  have behind : state.buffer.drop request.headerBytes = arrived := by
    rw [buffer, headerBytes_of_parseBuffer reads parsed, List.drop_left]
  have framed := message.framed request parsed
  unfold ConnectionState.handleHead
  rw [behind]
  cases decision : decideHead config request with
  | leave =>
      rw [routedOf, parsed] at routed
      simp only [decision, if_true, List.append_nil] at routed
      exact routed
  | route =>
      have noBody : message.body = [] := by
        apply List.length_eq_zero_iff.mp
        rw [framed, bodyLength, hasBody_of_route decision]
        rfl
      rw [noBody, List.nil_append] at carried
      have next := follows_route parsed (by simp [decision]) carried routed
      rwa [noBody] at next
  | collect length =>
      rw [bodyLength_of_collect decision] at framed
      simp only
      split
      case isTrue whole =>
          rw [← framed] at whole ⊢
          obtain ⟨body, others⟩ := take_drop_of_append carried whole
          rw [body]
          exact follows_route parsed (by simp [decision]) others routed
      case isFalse missing =>
          exact ⟨message, rest, parsed, decision, Nat.lt_of_not_le missing, rfl, carried, routed⟩

/-- The octets at hand: nothing is left, or a head that has arrived whole or not. -/
theorem arrival_cases
    {rest : List (RequestMessage config)} {state : ConnectionState}
    (carried : state.buffer ++ state.pending = streamOf rest) :
    (rest = [] ∧ state.buffer = []) ∨
      ∃ message others, rest = message :: others ∧
        ((state.buffer <+: message.head.octets ∧ state.buffer ≠ message.head.octets) ∨
          ∃ arrived, state.buffer = message.head.octets ++ arrived ∧
            arrived ++ state.pending = message.body ++ streamOf others) := by
  cases rest with
  | nil =>
      left
      exact ⟨rfl, (List.append_eq_nil_iff.mp carried).1⟩
  | cons message others =>
      right
      refine ⟨message, others, rfl, ?_⟩
      rw [streamOf_cons] at carried
      by_cases whole : message.head.octets.length ≤ state.buffer.length
      · right
        obtain ⟨head, behind⟩ := take_drop_of_append carried whole
        refine ⟨state.buffer.drop message.head.octets.length, ?_, behind⟩
        have parts := List.take_append_drop message.head.octets.length state.buffer
        rw [head] at parts
        exact parts.symm
      · left
        refine ⟨?_, ?_⟩
        · exact List.prefix_of_prefix_length_le (List.prefix_append _ _) ⟨_, carried.symm⟩
            (by omega)
        · intro same
          rw [same] at whole
          exact whole (Nat.le_refl _)

theorem process_nil
    (reads : HttparseReadsHeads config.httparse)
    {state : ConnectionState}
    (empty : state.buffer = []) :
    state.process config = none := by
  have notEmpty : plainGetHead.octets ≠ [] := by decide
  have within : state.buffer <+: plainGetHead.octets := by
    rw [empty]
    exact List.nil_prefix
  apply process_of_proper reads within
  rw [empty]
  exact notEmpty.symm

theorem exists_of_process
    {state next : ConnectionState}
    (stepEq : state.process config = some next) :
    state.phase = .head := by
  unfold ConnectionState.process at stepEq
  split at stepEq
  case h_1 inHead => exact inHead
  case h_2 => cases stepEq

theorem pending_handleHead
    (state : ConnectionState)
    (request : ParsedRequest) :
    (state.handleHead config request).pending = state.pending := by
  unfold ConnectionState.handleHead
  simp only
  split
  · rfl
  · rfl
  · split <;> rfl

/-- A head that is handled is taken out of the buffer, unless the loop ends. -/
theorem buffer_handleHead
    {state : ConnectionState} {request : ParsedRequest}
    (again : (state.handleHead config request).phase = .head) :
    (state.handleHead config request).buffer <:+ state.buffer.drop request.headerBytes := by
  unfold ConnectionState.handleHead at again ⊢
  cases decision : decideHead config request with
  | leave =>
      rw [decision] at again
      cases again
  | route => exact List.suffix_rfl
  | collect length =>
      simp only
      split
      · exact List.drop_suffix _ _
      · exact List.nil_suffix

/-- A round without a read keeps the invariant and takes octets out of the
buffer. -/
theorem follows_process
    (reads : HttparseReadsHeads config.httparse)
    {messages : List (RequestMessage config)} {state next : ConnectionState}
    (follows : Follows messages state)
    (stepEq : state.process config = some next) :
    Follows messages next ∧ next.pending = state.pending ∧
      (next.phase = .head → next.buffer.length < state.buffer.length) := by
  have inHead := exists_of_process stepEq
  rw [Follows, inHead] at follows
  obtain ⟨rest, carried, routed⟩ := follows
  rcases arrival_cases carried with ⟨_, empty⟩ | ⟨message, others, rfl, proper | arrival⟩
  · rw [process_nil reads empty] at stepEq
    cases stepEq
  · rw [process_of_proper reads proper.1 proper.2] at stepEq
    cases stepEq
  · obtain ⟨arrived, buffer, behind⟩ := arrival
    rw [process_head reads inHead buffer] at stepEq
    cases parsed : parseBuffer config message.head.octets with
    | none =>
        rw [parsed] at stepEq
        cases stepEq
        rw [routedOf, parsed] at routed
        simp only [List.append_nil] at routed
        exact ⟨routed, rfl, fun again => by cases again⟩
    | some request =>
        rw [parsed] at stepEq
        cases stepEq
        refine ⟨follows_handleHead reads parsed buffer behind routed,
          pending_handleHead state request, ?_⟩
        intro again
        have long := message.head.length_octets
        have total := congrArg List.length buffer
        have bound := (buffer_handleHead again).length_le
        rw [List.length_append] at total
        rw [List.length_drop, headerBytes_of_parseBuffer reads parsed] at bound
        change (state.handleHead config request).buffer.length < state.buffer.length
        omega

/-- A read of a whole head, or of a body, keeps the invariant. -/
theorem follows_read
    {messages : List (RequestMessage config)} {state next : ConnectionState} {count : Nat}
    (follows : Follows messages state)
    (whole : ReadsWholeHead config state (.read count))
    (stepEq : state.read config count = some next) :
    Follows messages next := by
  unfold ConnectionState.read at stepEq
  split at stepEq
  case isFalse => cases stepEq
  case isTrue yields =>
  cases phase : state.phase with
  | head =>
      rw [phase] at stepEq
      simp only at stepEq
      split at stepEq
      case isFalse => cases stepEq
      case isTrue =>
          cases stepEq
          obtain ⟨empty, short⟩ := whole phase
          rw [Follows, phase] at follows
          obtain ⟨rest, carried, routed⟩ := follows
          have within : ¬ (state.pending.take count).length > config.maxHeaderBytes := by
            rw [List.length_take]
            omega
          rw [ConnectionState.readHeadOctets, if_neg within, Follows]
          simp only [phase]
          refine ⟨rest, ?_, routed⟩
          rw [List.take_append_drop]
          rwa [empty, List.nil_append] at carried
  | body request collected length =>
      rw [phase] at stepEq
      simp only at stepEq
      split at stepEq
      case isFalse => cases stepEq
      case isTrue asked =>
          cases stepEq
          rw [Follows, phase] at follows
          obtain ⟨message, rest, parsed, decision, missing, empty, carried, routed⟩ := follows
          have framed := message.framed request parsed
          rw [bodyLength_of_collect decision] at framed
          have carried' : (collected ++ state.pending.take count) ++ state.pending.drop count =
              message.body ++ streamOf rest := by
            rw [List.append_assoc, List.take_append_drop]
            exact carried
          unfold ConnectionState.readBodyOctets
          simp only
          split
          case isTrue complete =>
              rw [← framed] at complete ⊢
              obtain ⟨body, others⟩ := take_drop_of_append carried' complete
              have exact_ : (collected ++ state.pending.take count).length = message.body.length := by
                refine Nat.le_antisymm ?_ complete
                rw [List.length_append, List.length_take]
                omega
              rw [← exact_, List.drop_length, List.nil_append] at others
              rw [body]
              refine follows_route parsed (by simp [decision]) ?_ routed
              rw [empty, List.nil_append]
              exact others
          case isFalse incomplete =>
              exact ⟨message, rest, parsed, decision, Nat.lt_of_not_le incomplete, empty, carried',
                routed⟩
  | closed =>
      rw [phase] at stepEq
      cases stepEq

/-! ## All requests, once everything is read -/

/-- Nothing is left to route when the loop has ended or waits for more. -/
theorem routed_of_settled
    (reads : HttparseReadsHeads config.httparse)
    {messages : List (RequestMessage config)} {state : ConnectionState}
    (follows : Follows messages state)
    (settled : state.phase = .closed ∨ (state.pending = [] ∧ state.process config = none)) :
    state.routed = routedOf messages := by
  cases phase : state.phase with
  | closed =>
      rw [Follows, phase] at follows
      exact follows
  | head =>
      obtain ⟨noPending, waits⟩ := settled.resolve_left (by simp [phase])
      rw [Follows, phase] at follows
      obtain ⟨rest, carried, routed⟩ := follows
      rcases arrival_cases carried with ⟨rfl, _⟩ | ⟨message, others, rfl, proper | arrival⟩
      · rw [routedOf, List.append_nil] at routed
        exact routed
      · rw [noPending, List.append_nil, streamOf_cons] at carried
        have long := proper.1.length_le
        have total := congrArg List.length carried
        rw [List.length_append] at total
        exact absurd (proper.1.eq_of_length (by omega)) proper.2
      · obtain ⟨arrived, buffer, _⟩ := arrival
        rw [process_head reads phase buffer] at waits
        cases waits
  | body request collected length =>
      obtain ⟨noPending, _⟩ := settled.resolve_left (by simp [phase])
      rw [Follows, phase] at follows
      obtain ⟨message, rest, parsed, decision, missing, _, carried, _⟩ := follows
      have framed := message.framed request parsed
      rw [bodyLength_of_collect decision] at framed
      have total := congrArg List.length carried
      rw [noPending, List.append_nil, List.length_append] at total
      omega

theorem routed_processAll
    (reads : HttparseReadsHeads config.httparse)
    {messages : List (RequestMessage config)} {fuel : Nat} {state : ConnectionState}
    (follows : Follows messages state)
    (noPending : state.pending = [])
    (enough : state.phase = .head → state.buffer.length < fuel) :
    (processAll config fuel state).routed = routedOf messages := by
  induction fuel generalizing state with
  | zero =>
      refine routed_of_settled reads follows (.inr ⟨noPending, ?_⟩)
      change state.process config = none
      cases processed : state.process config with
      | none => rfl
      | some next => exact absurd (enough (exists_of_process processed)) (Nat.not_lt_zero _)
  | succ fuel hypothesis =>
      rw [processAll]
      cases processed : state.process config with
      | none => exact routed_of_settled reads follows (.inr ⟨noPending, processed⟩)
      | some next =>
          obtain ⟨nextFollows, samePending, shorter⟩ := follows_process reads follows processed
          refine hypothesis nextFollows (by rw [samePending, noPending]) ?_
          intro again
          have more := enough (exists_of_process processed)
          have fewer := shorter again
          omega

/-- The requests of a stream that arrives in one piece. -/
theorem inOnePiece_streamOf
    (reads : HttparseReadsHeads config.httparse)
    (messages : List (RequestMessage config)) :
    inOnePiece config (streamOf messages) = routedOf messages := by
  refine routed_processAll reads ⟨messages, ?_, rfl⟩ rfl ?_
  · exact List.append_nil _
  · intro _
    exact Nat.lt_succ_self _

/-- In a run whose head reads are whole, the invariant holds. -/
theorem follows_of_reaches
    (reads : HttparseReadsHeads config.httparse)
    {messages : List (RequestMessage config)} {state : ConnectionState}
    (reaches : (connectionLoop config (streamOf messages)).ReachesUnder
      (ReadsWholeHead config) state) :
    Follows messages state := by
  refine reaches.invariant ⟨messages, rfl, rfl⟩ ?_
  intro before event next follows whole stepEq
  cases event with
  | process => exact (follows_process reads follows stepEq).1
  | read count => exact follows_read follows whole stepEq

/-- In every run whose head reads are whole, the requests of the stream are
routed as if it had arrived in one piece. -/
theorem routedAsInOnePiece_of_wholeHeads
    {messages : List (RequestMessage config)} {state : ConnectionState}
    (reads : HttparseReadsHeads config.httparse)
    (reaches : (connectionLoop config (streamOf messages)).ReachesUnder
      (ReadsWholeHead config) state) :
    RoutedAsInOnePiece config (streamOf messages) state := by
  have follows := follows_of_reaches reads reaches
  refine ⟨?_, ?_⟩
  · rw [inOnePiece_streamOf reads]
    cases phase : state.phase with
    | head =>
        rw [Follows, phase] at follows
        obtain ⟨rest, _, routed⟩ := follows
        exact ⟨routedOf rest, routed⟩
    | body request collected length =>
        rw [Follows, phase] at follows
        obtain ⟨message, rest, _, _, _, _, _, routed⟩ := follows
        exact ⟨routedOf (message :: rest), routed⟩
    | closed =>
        rw [Follows, phase] at follows
        have same : state.routed = routedOf messages := follows
        exact same ▸ List.prefix_rfl
  · intro settled
    rw [inOnePiece_streamOf reads]
    exact routed_of_settled reads follows settled

/-! ## Two streams -/

/-- The defaults of the server, no static routes. -/
def plainConfig : ConnectionConfig where
  httparse := readHead
  capacity := 8192
  maxHeaderBytes := 16384
  hasExactGetRoot := false
  hasExactStaticRoute := fun _ _ => false
  matchesWebsocket := fun _ => false
  routeBodyLimit := fun _ _ => none
  answers := fun _ => true

theorem contentLength_named : octets "Content-Length" ≠ [] := by
  decide

def lengthLine : FieldLine :=
  { hostLine with
    name := octets "Content-Length"
    value := octets "5"
    named := contentLength_named
    token := by decide
    admitted := by decide
    solidStart := by decide
    solidEnd := by decide }

def postHead : RequestHead where
  line := { plainGetHead.line with
    method := octets "POST"
    methodNamed := by decide
    methodToken := by decide }
  fields := [lengthLine]

def parsedPostHead : ParsedRequest where
  method := octets "POST"
  target := octets "/"
  path := octets "/"
  keepAlive := true
  headerBytes := 38
  hasBody := true
  contentLength := some 5
  hasChunkedTe := false
  headers := [(text "content-length", text "5")]
  cookieHeader := none
  isWebsocketUpgrade := false
  wsKey := none
  acceptedEncoding := .identity

theorem parseBuffer_postHead :
    parseBuffer plainConfig postHead.octets = some parsedPostHead := by
  decide

def postMessage : RequestMessage plainConfig where
  head := postHead
  body := octets "hello"
  within := by decide
  framed := by
    intro request parsed
    rw [parseBuffer_postHead] at parsed
    cases parsed
    decide

/-- A body that arrives in two reads. -/
theorem routedAsInOnePiece_of_wholeHeads_post :
    RoutedAsInOnePiece plainConfig (streamOf [postMessage]) {
      buffer := []
      pending := []
      routed := [routedRequest parsedPostHead (octets "hello")]
      phase := .head } :=
  routedAsInOnePiece_of_wholeHeads httparseReadsHeads_readHead
    (Machine.reachesUnder_of_run [.read 40, .process, .read 3] (by decide))

def getMessage : RequestMessage plainConfig where
  head := plainGetHead
  body := []
  within := by decide
  framed := by
    intro request parsed
    have bodyless : (parseBuffer plainConfig plainGetHead.octets).map bodyLength = some 0 := by
      decide
    rw [parsed, Option.map_some, Option.some.injEq] at bodyless
    rw [bodyless]
    rfl

/-- The second read of a head replaces the first: the request is lost. -/
theorem not_routedAsInOnePiece_of_splitHead :
    ¬ ∀ (config : ConnectionConfig) (messages : List (RequestMessage config))
      (state : ConnectionState),
      HttparseReadsHeads config.httparse →
      (connectionLoop config (streamOf messages)).Reaches state →
      RoutedAsInOnePiece config (streamOf messages) state := by
  intro everywhere
  have run : (connectionLoop plainConfig (streamOf [getMessage])).runFrom (fun _ _ => True)
      (connectionLoop plainConfig (streamOf [getMessage])).start
      [.read 8, .read 10, .process] = some {
        buffer := octets "TP/1.1\r\n\r\n"
        pending := []
        routed := []
        phase := .closed } := by
    decide
  have lost := (everywhere plainConfig [getMessage] _ httparseReadsHeads_readHead
    (Machine.reachesUnder_of_run _ run)).sameAll (.inl rfl)
  exact absurd lost (by decide)

end Parser
end HttpNative
