import HttpNative.Library.MessageReader
import HttpNative.Response.ConnectionField

/-!
# Runs of a keep-alive connection

A client that knows the methods of its requests reads the responses of a connection
one by one: each ends where the next one starts, as long as no answer has a body
that the client does not expect and no header that changes how the body is read.
-/

namespace HttpNative
namespace Response

open Envelope (AcceptedEncoding CompressionConfig Header applyCompression decimalOctets readResponse)
open MessageHead
open MessageReader (IsResponse Message hasNoBody readMessage readMessages readNumber readStatus)
open Router (CacheEntry RouteCaches)

/-! ## What a client is promised -/

def isHeadMethod (method : Octets) : Bool :=
  method = octets "HEAD"

def Exchange.isHead (exchange : Exchange) : Bool :=
  isHeadMethod exchange.method

/-- The octets written are one final response for each request, in order, each the
one that was written for it, and nothing else. -/
def ConnectionRun.ReadsInOrder (run : ConnectionRun) : Prop :=
  ∃ messages,
    readMessages (run.exchanges.map Exchange.isHead) (run.exchanges.flatMap Exchange.response) =
      some (messages, []) ∧
    List.Forall₂
      (fun exchange message =>
        readMessage exchange.isHead exchange.response = some (message, []) ∧
          200 ≤ message.status)
      run.exchanges messages

/-! ## The condition -/

/-- What a client reads as the response is the form with some body: the status is
that of a final response; there is no body where the client expects none; no header
is read as a coding or as another length; and no header ends the head early. -/
structure ResponseForm.Delimited (form : ResponseForm) (isHead : Bool) (body : Octets) :
    Prop where
  status : 200 ≤ form.status ∧ form.status < 1000
  expected : hasNoBody isHead form.status = true → body = []
  noCoding : ∀ line ∈ form.linesBehind, isFieldNamed transferEncoding line = false
  lengths : ∀ value ∈ valuesOf contentLength form.linesBehind, value = decimalOctets body.length
  whole : spelledBehind (form.headers ++ form.cookieFields) = []

instance (form : ResponseForm) (isHead : Bool) (body : Octets) :
    Decidable (form.Delimited isHead body) :=
  decidable_of_iff
    ((200 ≤ form.status ∧ form.status < 1000) ∧
      (hasNoBody isHead form.status = true → body = []) ∧
      (∀ line ∈ form.linesBehind, isFieldNamed transferEncoding line = false) ∧
      (∀ value ∈ valuesOf contentLength form.linesBehind, value = decimalOctets body.length) ∧
      spelledBehind (form.headers ++ form.cookieFields) = [])
    ⟨fun ⟨status, expected, noCoding, lengths, whole⟩ =>
        ⟨status, expected, noCoding, lengths, whole⟩,
      fun ⟨status, expected, noCoding, lengths, whole⟩ =>
        ⟨status, expected, noCoding, lengths, whole⟩⟩

/-- What is behind the head of a stored response. -/
def storedBody (entry : CacheEntry) : Octets :=
  ((readLines [] entry.responseBytes).map Prod.snd).getD []

/-- The condition on an answer; that on the headers of a cached response was that
on the dispatch it comes from. -/
def Answer.Delimited
    (config : Option CompressionConfig)
    (incoming : Incoming)
    (answer : Answer) : Prop :=
  let isHead := isHeadMethod incoming.parsed.method
  match answer with
  | .error status body => (errorForm status body false).Delimited isHead body
  | .static fixed =>
      let form := staticRouteForm config fixed incoming.keepAlive incoming.encoding
      form.Delimited isHead form.body
  | .decided (.bridgeRequest _ _ _ _) =>
      let form := dispatchForm incoming.dispatched incoming.keepAlive incoming.encoding config
        incoming.setCookie
      form.Delimited isHead (form.body ++ streamedBody incoming.dispatched incoming.streamed)
  | .decided (.specializedResponse fixed) =>
      let form := fastForm fixed.status fixed.headers fixed.body incoming.keepAlive
        incoming.encoding config
      form.Delimited isHead form.body
  | .decided (.cachedResponse entry _) => isHead = true → storedBody entry = []

def ConnectionRun.Delimited
    (config : Option CompressionConfig)
    (run : ConnectionRun) :
    ConnectionEvent → Prop
  | .request _ incoming =>
      ∀ answer ∈ (chooseAnswer run.caches incoming).2, answer.Delimited config incoming
  | .headTimedOut method =>
      (errorForm 408 requestTimeout false).Delimited (isHeadMethod method) requestTimeout
  | .headTooLarge method =>
      (errorForm 431 headerTooLarge false).Delimited (isHeadMethod method) headerTooLarge
  | _ => True

/-! ## Numbers -/

theorem readNumber_decimalOctets
    (number : Nat) :
    readNumber (decimalOctets number) = some number := by
  have digits : (decimalOctets number).all MessageReader.isDigit = true := by
    rw [List.all_eq_true]
    intro octet member
    have digit := isDigit_of_mem_decimalOctets member
    rw [MessageReader.isDigit, Bool.and_eq_true, decide_eq_true_eq, decide_eq_true_eq]
    exact digit
  rw [readNumber, if_pos ⟨decimalOctets_ne_nil number, digits⟩, toText_decimalOctets,
    Decimal.value_write]

theorem length_decimalOctets
    {number : Nat}
    (three : 100 ≤ number ∧ number < 1000) :
    (decimalOctets number).length = 3 := by
  have within : (Nat.toDigits 10 number).length ≤ 3 :=
    (Nat.length_toDigits_le_iff (by omega) (by omega)).mpr (by omega)
  have beyond : ¬ (Nat.toDigits 10 number).length ≤ 2 := by
    rw [Nat.length_toDigits_le_iff (by omega) (by omega)]
    omega
  rw [decimalOctets, List.length_map, Decimal.write]
  omega

theorem readStatus_statusRow
    {status : Nat}
    (three : 100 ≤ status ∧ status < 1000) :
    readStatus (statusRow status) = some status := by
  have front : (octets "HTTP/1.1 ").isPrefixOf (statusRow status) = true := by
    rw [List.isPrefixOf_iff_prefix]
    exact List.prefix_append _ _
  have behind : (statusRow status).drop 9 =
      decimalOctets status ++ 32 :: Envelope.statusReason status := by
    rw [statusRow]
    exact List.drop_left' rfl
  have code : ((statusRow status).drop 9).takeWhile (· ≠ 32) = decimalOctets status := by
    rw [behind, List.takeWhile_append_of_pos, List.takeWhile_cons_of_neg (by simp),
      List.append_nil]
    intro octet member
    have digit := isDigit_of_mem_decimalOctets member
    rw [decide_eq_true_eq]
    rintro rfl
    exact absurd digit.1 (by decide)
  simp only [readStatus, code, front, length_decimalOctets three, and_self, if_true,
    readNumber_decimalOctets]

/-! ## Single responses -/

/-- The head of a form that a client reads as a whole. -/
theorem ResponseForm.Delimited.read
    {form : ResponseForm} {isHead : Bool} {body : Octets} {fields others : List Header}
    (delimited : form.Delimited isHead body)
    (server : form.serverFields = fields ++ others)
    (two : fields.length = 2)
    (unbroken : ∀ header ∈ form.serverFields, hasLineBreak header = false)
    (more : Octets) :
    readLines [] (form.octets ++ more) =
      some (statusRow form.status :: (fields.map lineOf ++ form.linesBehind), form.body ++ more) := by
  have read := readLines_append (readLines_assemble unbroken form.status
    (form.headers ++ form.cookieFields) form.body) more
  have behind : form.serverFields.drop 2 = others := by
    rw [server, ← two, List.drop_left]
  rw [delimited.whole, List.nil_append] at read
  rw [ResponseForm.octets, read, ResponseForm.linesBehind, behind, server, List.map_append,
    List.append_assoc]

/-- The own fields of the form are the length of its body and a connection field. -/
def ResponseForm.HasLength (form : ResponseForm) : Prop :=
  ∃ keepAlive others, form.serverFields = ownFields form.body.length keepAlive ++ others ∧
    ∀ header ∈ others, hasLineBreak header = false

theorem isResponse_of_hasLength
    {form : ResponseForm} {isHead : Bool}
    (hasLength : form.HasLength)
    (delimited : form.Delimited isHead form.body) :
    ∃ message, IsResponse isHead message form.octets ∧ 200 ≤ message.status := by
  obtain ⟨keepAlive, others, server, clean⟩ := hasLength
  have unbroken : ∀ header ∈ form.serverFields, hasLineBreak header = false := by
    intro header member
    rw [server] at member
    exact (List.mem_append.mp member).elim (unbroken_ownFields keepAlive) (clean header)
  have read := delimited.read server rfl unbroken
  have status : readStatus (statusRow form.status) = some form.status :=
    readStatus_statusRow ⟨by have := delimited.status.1; omega, delimited.status.2⟩
  cases noBody : hasNoBody isHead form.status with
  | true =>
      have empty := delimited.expected noBody
      rw [empty] at read
      exact ⟨_, MessageReader.isResponse_of_noBody read status noBody, delimited.status.1⟩
  | false =>
      obtain ⟨lengths, codings, -⟩ :=
        values_of_ownFields form.body.length keepAlive form.linesBehind
      rw [valuesOf_eq_nil_iff.mpr delimited.noCoding] at codings
      exact ⟨_, MessageReader.isResponse_of_length read status noBody codings lengths
        (readNumber_decimalOctets _) delimited.lengths, delimited.status.1⟩

/-- A stream that is started is one response with all that follows its head. -/
theorem isResponse_streamForm
    {response : Octets} {keepAlive isHead : Bool} {streamed : List Octets}
    (delimited : (streamForm response keepAlive).Delimited isHead
      (Streaming.encodeChunks streamed ++ ChunkedCoding.lastChunk)) :
    ∃ message,
      IsResponse isHead message ((streamForm response keepAlive).octets ++
        (Streaming.encodeChunks streamed ++ ChunkedCoding.lastChunk)) ∧
      200 ≤ message.status := by
  have read := delimited.read (List.append_nil _).symm rfl
    fun header member => unbroken_streamFields keepAlive member
  have status : readStatus (statusRow (streamForm response keepAlive).status) =
      some (streamForm response keepAlive).status :=
    readStatus_statusRow ⟨by have := delimited.status.1; omega, delimited.status.2⟩
  have withBody : hasNoBody isHead (streamForm response keepAlive).status = false := by
    rw [Bool.eq_false_iff]
    intro noBody
    exact List.append_ne_nil_of_right_ne_nil _ (by decide) (delimited.expected noBody)
  obtain ⟨-, codings, -⟩ :=
    values_of_streamFields keepAlive (streamForm response keepAlive).linesBehind
  rw [valuesOf_eq_nil_iff.mpr delimited.noCoding] at codings
  have filled : ∀ chunk ∈ streamed.filter (!·.isEmpty), chunk ≠ [] := by
    intro chunk member
    simpa using (List.mem_filter.mp member).2
  refine ⟨_, MessageReader.isResponse_of_chunks ?_ filled status withBody codings,
    delimited.status.1⟩
  intro more
  rw [List.append_assoc, read, List.append_assoc]
  rfl

theorem hasLength_errorForm
    (status : Nat)
    (body : Octets)
    (keepAlive : Bool) :
    (errorForm status body keepAlive).HasLength := by
  refine ⟨keepAlive, _, rfl, ?_⟩
  intro header member
  rw [List.mem_singleton.mp member]
  decide

theorem hasLength_fastForm
    (status : Nat)
    (headers : List Header)
    (body : Octets)
    (keepAlive : Bool)
    (encoding : AcceptedEncoding)
    (compressionConfig : Option CompressionConfig) :
    (fastForm status headers body keepAlive encoding compressionConfig).HasLength :=
  ⟨keepAlive, _, rfl, fun _ member => unbroken_compressionFields member⟩

theorem hasLength_staticRouteForm
    (config : Option CompressionConfig)
    (fixed : FixedResponse)
    (keepAlive : Bool)
    (encoding : AcceptedEncoding) :
    (staticRouteForm config fixed keepAlive encoding).HasLength := by
  unfold staticRouteForm
  split
  · exact ⟨keepAlive, _, rfl, fun _ member => unbroken_compressionFields member⟩
  · exact ⟨keepAlive, [], (List.append_nil _).symm, by simp⟩

/-- What is written for a dispatch is one response. -/
theorem isResponse_dispatch
    {dispatched setCookie : Option Octets} {keepAlive isHead : Bool}
    {encoding : AcceptedEncoding} {config : Option CompressionConfig} {streamed : List Octets}
    (delimited :
      let form := dispatchForm dispatched keepAlive encoding config setCookie
      form.Delimited isHead (form.body ++ streamedBody dispatched streamed)) :
    ∃ message,
      IsResponse isHead message
        ((dispatchForm dispatched keepAlive encoding config setCookie).octets ++
          streamedBody dispatched streamed) ∧
      200 ≤ message.status := by
  cases dispatched with
  | none =>
      have body : streamedBody none streamed = [] := rfl
      dsimp only at delimited
      rw [body, List.append_nil] at delimited ⊢
      exact isResponse_of_hasLength (hasLength_errorForm _ _ _) delimited
  | some response =>
      cases starts : isStreamStart response with
      | true =>
          have form : dispatchForm (some response) keepAlive encoding config setCookie =
              streamForm response keepAlive := by
            rw [dispatchForm, if_pos starts]
          have body : streamedBody (some response) streamed =
              Streaming.encodeChunks streamed ++ ChunkedCoding.lastChunk := by
            rw [streamedBody, Option.any_some, if_pos starts]
          rw [form, body] at delimited ⊢
          exact isResponse_streamForm delimited
      | false =>
          have body : streamedBody (some response) streamed = [] := by
            rw [streamedBody, Option.any_some, starts]
            rfl
          dsimp only at delimited
          rw [body, List.append_nil] at delimited ⊢
          refine isResponse_of_hasLength ?_ delimited
          rw [dispatchForm, starts]
          cases readResponse.run response with
          | error error => exact hasLength_errorForm _ _ _
          | ok read =>
              exact ⟨keepAlive, _, rfl, fun _ member => unbroken_compressionFields member⟩

/-! ## Stored responses -/

/-- The entry was made of a response that meets the condition for requests other
than `HEAD`. -/
def DelimitedEntry (config : Option CompressionConfig) (entry : CacheEntry) : Prop :=
  ∃ status headers body stored encoding expiresAt,
    let form := fastForm status headers body stored encoding config
    entry = cacheEntry form.octets stored expiresAt ∧ form.Delimited false form.body

theorem hasNoBody_of_get
    {isHead : Bool} {status : Nat}
    (noBody : hasNoBody false status = true) :
    hasNoBody isHead status = true := by
  simp only [hasNoBody, Bool.or_eq_true] at noBody ⊢
  simpa [or_assoc] using Or.inr noBody

/-- The lines of a cookie do not continue the header in front of them. -/
theorem own_cookieFields
    (form : ResponseForm) :
    ∀ line ∈ (spelledLines form.cookieFields).head?, isContinuation line = false := by
  intro line first
  cases given : form.cookie with
  | none =>
      rw [ResponseForm.cookieFields, given] at first
      cases first
  | some cookie =>
      have read := readLines_spelled form.cookieFields
      rw [ResponseForm.cookieFields, given] at read first
      obtain ⟨rest, same⟩ := @head?_readLines 115 [] _ _ (by decide) read
      rw [same] at first
      cases first
      rfl

/-- The condition holds without the cookie of a session too. -/
theorem ResponseForm.Delimited.without_cookie
    {form : ResponseForm} {cookie : Option Octets} {isHead : Bool} {body : Octets}
    (delimited : { form with cookie := cookie }.Delimited isHead body)
    (noCookie : form.cookie = none)
    (unbroken : ∀ header ∈ form.headers, hasLineBreak header = false) :
    form.Delimited false body := by
  let more := { form with cookie := cookie }.cookieFields
  have none : form.cookieFields = [] := by
    rw [ResponseForm.cookieFields, noCookie, Option.toList_none, List.map_nil]
  have alone := spelled_of_unbroken unbroken
  have front : { form with cookie := cookie }.linesBehind =
      form.linesBehind ++ spelledLines more := by
    rw [ResponseForm.linesBehind, ResponseForm.linesBehind, none, List.append_nil, alone.1,
      (spelled_append unbroken more).1, List.append_assoc]
  have own := own_cookieFields { form with cookie := cookie }
  refine ⟨delimited.status, fun noBody => delimited.expected (hasNoBody_of_get noBody), ?_, ?_, ?_⟩
  · intro line member
    refine delimited.noCoding line ?_
    rw [front]
    exact List.mem_append_left _ member
  · intro value member
    refine delimited.lengths value ?_
    rw [front, valuesOf_append own]
    exact List.mem_append_left _ member
  · rw [none, List.append_nil]
    exact alone.2

/-- The body of a stored response. -/
theorem storedBody_cacheEntry
    {config : Option CompressionConfig} {status : Nat} {headers : List Header} {body : Octets}
    {stored : Bool} {encoding : AcceptedEncoding}
    (expiresAt : Nat) :
    storedBody (cacheEntry (fastForm status headers body stored encoding config).octets stored
        expiresAt) =
      (fastForm status headers body stored encoding config).body := by
  have kept : (cacheEntry (fastForm status headers body stored encoding config).octets stored
      expiresAt).responseBytes = (fastForm status headers body true encoding config).octets :=
    cachedResponse_cacheEntry status headers body stored true encoding config expiresAt
  obtain ⟨first, -, read⟩ :=
    readLines_form (connects_fastForm status headers body true encoding config) []
  have unbroken := (unbroken_fastForm status headers body true encoding config).2
  have none : (fastForm status headers body true encoding config).cookieFields = [] := rfl
  rw [none, List.append_nil, List.append_nil, List.append_nil,
    (spelled_of_unbroken unbroken).2] at read
  rw [storedBody, kept, read]
  rfl

/-- A cached response is one response to a request of the other kind too, if it has
no body that a `HEAD` request does not expect. -/
theorem isResponse_cached
    {config : Option CompressionConfig} {entry : CacheEntry} {isHead : Bool}
    (entryDelimited : DelimitedEntry config entry)
    (expected : isHead = true → storedBody entry = [])
    (keepAlive : Bool) :
    ∃ message, IsResponse isHead message (cachedResponse entry keepAlive) ∧
      200 ≤ message.status := by
  obtain ⟨status, headers, body, stored, encoding, expiresAt, rfl, delimited⟩ := entryDelimited
  rw [storedBody_cacheEntry] at expected
  rw [cachedResponse_cacheEntry]
  refine isResponse_of_hasLength (hasLength_fastForm status headers body keepAlive encoding config)
    ⟨delimited.status, ?_, delimited.noCoding, delimited.lengths, delimited.whole⟩
  intro noBody
  cases isHead with
  | true => exact expected rfl
  | false => exact delimited.expected noBody

/-! ## Steps -/

/-- The cached responses of the worker meet the condition. -/
def ConnectionRun.EntriesDelimited
    (config : Option CompressionConfig)
    (run : ConnectionRun) : Prop :=
  run.caches.AllEntries (DelimitedEntry config)

/-- Every exchange is one final response. -/
def ConnectionRun.OneEach (run : ConnectionRun) : Prop :=
  ∀ exchange ∈ run.exchanges,
    ∃ message, IsResponse exchange.isHead message exchange.response ∧ 200 ≤ message.status

theorem isResponse_of_answer
    {config : Option CompressionConfig} {incoming : Incoming} {answer : Answer}
    (delimited : answer.Delimited config incoming)
    (entries : ∀ entry keepAlive, answer = .decided (.cachedResponse entry keepAlive) →
      DelimitedEntry config entry) :
    ∃ message,
      IsResponse (isHeadMethod incoming.parsed.method) message
        (answer.response config incoming) ∧
      200 ≤ message.status := by
  cases answer with
  | error status body =>
      rw [Answer.response, ← errorForm_octets]
      exact isResponse_of_hasLength (hasLength_errorForm _ _ _) delimited
  | static fixed =>
      rw [Answer.response, exactStaticResponse_eq]
      exact isResponse_of_hasLength (hasLength_staticRouteForm _ _ _ _) delimited
  | decided decision =>
      cases decision with
      | bridgeRequest cacheInsertion handlerId cacheNamespace ncacheKey =>
          rw [Answer.response, writeDynamicDispatchResponse_eq]
          exact isResponse_dispatch delimited
      | specializedResponse fixed =>
          rw [Answer.response, ← fastForm_octets]
          exact isResponse_of_hasLength (hasLength_fastForm _ _ _ _ _ _) delimited
      | cachedResponse entry keepAlive =>
          exact isResponse_cached (entries entry keepAlive rfl) delimited keepAlive

theorem isResponse_errorExchange
    {method body : Octets} {status : Nat}
    (delimited : (errorForm status body false).Delimited (isHeadMethod method) body) :
    ∃ message,
      IsResponse (ConnectionRun.errorExchange method status body).isHead message
        (ConnectionRun.errorExchange method status body).response ∧
      200 ≤ message.status := by
  have written : (ConnectionRun.errorExchange method status body).response =
      (errorForm status body false).octets :=
    (errorForm_octets status body false).symm
  rw [written]
  exact isResponse_of_hasLength (hasLength_errorForm status body false) delimited

/-- An event whose answer meets the condition comes to one response. -/
theorem isResponse_of_exchange
    {config : Option CompressionConfig} {run : ConnectionRun} {event : ConnectionEvent}
    {exchange : Exchange}
    (entries : run.EntriesDelimited config)
    (delimited : run.Delimited config event)
    (answered : run.exchange config event = some exchange) :
    ∃ message, IsResponse exchange.isHead message exchange.response ∧ 200 ≤ message.status := by
  cases event with
  | request here incoming =>
      obtain ⟨answer, chosen, rfl⟩ := Option.map_eq_some_iff.mp answered
      refine isResponse_of_answer (delimited answer chosen) ?_
      rintro entry keepAlive rfl
      exact (chooseAnswer_entries entries incoming).2 entry keepAlive chosen
  | headTimedOut method =>
      cases answered
      exact isResponse_errorExchange delimited
  | headTooLarge method =>
      cases answered
      exact isResponse_errorExchange delimited
  | dropped => cases answered
  | syncRouteCaches valid => cases answered

/-- What is stored of a dispatch that meets the condition meets it. -/
theorem delimitedEntry_of_dispatch
    {config : Option CompressionConfig} {incoming : Incoming} {response : Octets}
    {read : Nat × List Header × Octets}
    (dispatched : incoming.dispatched = some response)
    (noStream : isStreamStart response = false)
    (ran : readResponse.run response = .ok read)
    (delimited :
      let form := dispatchForm incoming.dispatched incoming.keepAlive incoming.encoding config
        incoming.setCookie
      form.Delimited (isHeadMethod incoming.parsed.method)
        (form.body ++ streamedBody incoming.dispatched incoming.streamed))
    (expiresAt : Nat) :
    DelimitedEntry config (cacheEntry
      (fastForm read.1 read.2.1 read.2.2 incoming.keepAlive incoming.encoding config).octets
      incoming.keepAlive expiresAt) := by
  have form : dispatchForm incoming.dispatched incoming.keepAlive incoming.encoding config
      incoming.setCookie =
        { fastForm read.1 read.2.1 read.2.2 incoming.keepAlive incoming.encoding config with
          cookie := incoming.setCookie } := by
    rw [dispatched, dispatchForm, noStream, ran]
    rfl
  have body : streamedBody incoming.dispatched incoming.streamed = [] := by
    rw [dispatched, streamedBody, Option.any_some, noStream]
    rfl
  dsimp only at delimited
  rw [form, body, List.append_nil] at delimited
  have unbroken := (unbroken_fastForm read.1 read.2.1 read.2.2 incoming.keepAlive
    incoming.encoding config).2
  exact ⟨read.1, read.2.1, read.2.2, incoming.keepAlive, incoming.encoding, expiresAt, rfl,
    ResponseForm.Delimited.without_cookie delimited rfl unbroken⟩

theorem entriesDelimited_cachesBehind
    {config : Option CompressionConfig} {run : ConnectionRun} {here : Bool} {incoming : Incoming}
    (entries : run.EntriesDelimited config)
    (delimited : run.Delimited config (.request here incoming)) :
    (run.cachesBehind config incoming).AllEntries (DelimitedEntry config) := by
  refine cachesBehind_entries entries ?_
  intro decision chosen bridge response dispatched noStream read ran expiresAt
  have meets := delimited (.decided decision) chosen
  cases decision with
  | bridgeRequest cacheInsertion handlerId cacheNamespace ncacheKey =>
      exact delimitedEntry_of_dispatch dispatched noStream ran meets expiresAt
  | specializedResponse fixed => exact bridge.elim
  | cachedResponse entry keepAlive => exact bridge.elim

/-- In a run whose events meet the condition the caches do too. -/
theorem entriesDelimited_of_reaches
    {config : Option CompressionConfig} {run : ConnectionRun}
    (reaches : (connectionMachine config).ReachesUnder (ConnectionRun.Delimited config) run) :
    run.EntriesDelimited config := by
  refine reaches.invariant ?_ ?_
  · intro cacheNamespace cache absent
    cases absent
  · intro state event next entries meets stepped
    change ConnectionRun.step config state event = some next at stepped
    unfold ConnectionRun.step at stepped
    unfold ConnectionRun.EntriesDelimited
    split at stepped
    · cases stepped
      exact entriesDelimited_cachesBehind entries meets
    · cases stepped
      exact RouteCaches.AllEntries.retain entries _
    · split at stepped
      · cases stepped
        rw [caches_advance]
        exact entriesDelimited_cachesBehind entries meets
      · cases stepped
    · split at stepped
      · cases stepped
        rw [caches_advance]
        exact entries
      · cases stepped

/-! ## Runs -/

theorem oneEach_of_reaches
    {config : Option CompressionConfig} {run : ConnectionRun}
    (reaches : (connectionMachine config).ReachesUnder (ConnectionRun.Delimited config) run) :
    run.OneEach := by
  refine reaches.invariant_with (fun state => entriesDelimited_of_reaches)
    (by simp [connectionMachine, ConnectionRun.OneEach]) ?_
  intro state event next entries before meets stepped exchange member
  rcases mem_exchanges_of_step stepped member with earlier | answered
  · exact before exchange earlier
  · exact isResponse_of_exchange entries meets answered

/-- Exchanges of one response each are read in order. -/
theorem readsInOrder_of_oneEach
    {run : ConnectionRun}
    (each : run.OneEach) :
    run.ReadsInOrder := by
  have paired : ∀ exchanges : List Exchange,
      (∀ exchange ∈ exchanges, ∃ message,
        IsResponse exchange.isHead message exchange.response ∧ 200 ≤ message.status) →
      ∃ messages, List.Forall₂
        (fun exchange message =>
          IsResponse exchange.isHead message exchange.response ∧ 200 ≤ message.status)
        exchanges messages := by
    intro exchanges
    induction exchanges with
    | nil => exact fun _ => ⟨[], .nil⟩
    | cons exchange exchanges hypothesis =>
        intro each
        obtain ⟨message, isResponse⟩ := each exchange List.mem_cons_self
        obtain ⟨messages, others⟩ := hypothesis fun other member =>
          each other (List.mem_cons_of_mem _ member)
        exact ⟨message :: messages, .cons isResponse others⟩
  obtain ⟨messages, responses⟩ := paired run.exchanges each
  refine ⟨messages, ?_, ?_⟩
  · have read := MessageReader.readMessages_flatMap
      (responses.imp fun _ _ isResponse => isResponse.1) []
    rwa [List.append_nil] at read
  · refine responses.imp fun exchange message isResponse => ⟨?_, isResponse.2⟩
    have read := isResponse.1 []
    rwa [List.append_nil] at read

/-- In a run whose events all meet the condition a client that knows the methods of
its requests reads one response for each, in order, and nothing else. -/
theorem readsInOrder_of_run
    (config : Option CompressionConfig)
    (run : ConnectionRun)
    (reaches : (connectionMachine config).ReachesUnder (ConnectionRun.Delimited config) run) :
    run.ReadsInOrder :=
  readsInOrder_of_oneEach (oneEach_of_reaches reaches)

/-- The connection behind two requests, of which the second is answered from the
cache. -/
def afterCachedPosts : ConnectionRun :=
  ((connectionMachine none).step afterCachedPost (.request true cachedPost)).getD afterCachedPost

theorem readsInOrder_cachedPosts : afterCachedPosts.ReadsInOrder := by
  have first : ConnectionRun.Delimited none (connectionMachine none).start
      (.request true cachedPost) := by
    intro answer chosen
    cases chosen
    change (dispatchForm cachedPost.dispatched cachedPost.keepAlive cachedPost.encoding none
      cachedPost.setCookie).Delimited false []
    decide
  have second : ConnectionRun.Delimited none afterCachedPost (.request true cachedPost) := by
    intro answer chosen
    cases chosen
    intro isHead
    exact absurd isHead (by decide)
  have firstStep : (connectionMachine none).step (connectionMachine none).start
      (.request true cachedPost) = some afterCachedPost :=
    Machine.step_getD (by decide) _
  have secondStep : (connectionMachine none).step afterCachedPost (.request true cachedPost) =
      some afterCachedPosts :=
    Machine.step_getD (by decide) _
  exact readsInOrder_of_run none afterCachedPosts
    (.step (.step .start first firstStep) second secondStep)

/-- A request whose handler calls `res.sendStatus(204)`. -/
def noContent : Incoming :=
  { cachedPost with
    dispatched := some ([204, 0, 1, 0, 3, 0, 0, 0, 12, 25, 0] ++ octets "content-type" ++
      octets "text/plain; charset=utf-8" ++ octets "204") }

/-- The connection behind the request. -/
def afterNoContent : ConnectionRun :=
  ((connectionMachine none).step (connectionMachine none).start (.request true noContent)).getD
    (connectionMachine none).start

/-- The body of the response is left over. -/
theorem not_readsInOrder :
    ¬ ∀ (config : Option CompressionConfig) (run : ConnectionRun),
      (connectionMachine config).Reaches run → run.ReadsInOrder := by
  intro all
  have stepped : (connectionMachine none).step (connectionMachine none).start
      (.request true noContent) = some afterNoContent :=
    Machine.step_getD (by decide) _
  have reaches : (connectionMachine none).Reaches afterNoContent := .step .start trivial stepped
  obtain ⟨messages, read, -⟩ := all none afterNoContent reaches
  have leftOver : (readMessages (afterNoContent.exchanges.map Exchange.isHead)
      (afterNoContent.exchanges.flatMap Exchange.response)).map Prod.snd = some (octets "204") := by
    decide
  have some : ([] : Octets) ≠ octets "204" := by decide
  rw [read] at leftOver
  exact some (Option.some.inj leftOver)

end Response
end HttpNative
