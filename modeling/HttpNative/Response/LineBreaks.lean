import HttpNative.Response.DispatchResponses
import HttpNative.Response.StreamEnvelope

/-!
# Line breaks in response heads

Every way from a header setter to the client: the head that is written has a line
for each header, as it was set, and no other. The exception is the content type of
a stream, which neither `res.stream` nor the writer of the head looks at.
-/

namespace HttpNative
namespace Response

open Envelope
  (AcceptedEncoding CacheHint CompressionConfig Header Snapshot applyCompression breaksLine encodeHeader
    encodeResponseEnvelope readResponse readResponseHeader)
open MessageHead

/-- What a recipient reads as the head is what the form says: a line for each of
its fields and headers as they are, and behind them the cookie of the session; and
no header has a line break in it. -/
def HeadKept (form : ResponseForm) (response : Octets) : Prop :=
  readLines [] response =
    some (statusRow form.status ::
        ((form.serverFields ++ form.headers).map lineOf ++ spelledLines form.cookieFields),
      spelledBehind form.cookieFields ++ form.body) ∧
  ∀ header ∈ form.headers, breaksLine (lineOf header) = false

/-! ## Ways to the client -/

/-- How a response comes to a client: it was promoted to a static route, with a
compressed body or without; it comes from a native fast path; it is the response to
a dispatch, a stream included; or a cached response to a dispatch. -/
inductive Delivery where
  | static (status : Nat) (headers : List Header) (body : Octets)
  | compressedStatic (status : Nat) (headers : List Header) (compressedBody : Octets)
      (encoding : AcceptedEncoding)
  | fastPath (status : Nat) (headers : List Header) (body : Octets) (encoding : AcceptedEncoding)
      (compressionConfig : Option CompressionConfig)
  | dispatched (handling : Handling) (encoding : AcceptedEncoding)
      (compressionConfig : Option CompressionConfig) (setCookie : Option Octets)
  | cached (handling : Handling) (encoding : AcceptedEncoding)
      (compressionConfig : Option CompressionConfig) (stored : Bool) (expiresAt : Nat)

namespace Delivery

variable (toLowerCase : Text → Text)

/-- What is written for a request of a mode; a stream is not cached, and neither is
what is no response. -/
def written (delivery : Delivery) (keepAlive : Bool) : Option Octets :=
  match delivery with
  | static status headers body => some (buildResponseBytes status headers body keepAlive)
  | compressedStatic status headers compressedBody encoding =>
      some (buildCompressedResponseBytes status headers compressedBody keepAlive encoding)
  | fastPath status headers body encoding compressionConfig =>
      some (buildResponseBytesFast status headers body keepAlive encoding compressionConfig)
  | dispatched handling encoding compressionConfig setCookie =>
      some (writeDynamicDispatchResponse (handling.envelope toLowerCase) keepAlive encoding
        compressionConfig setCookie)
  | cached handling encoding compressionConfig stored expiresAt =>
      (handling.envelope toLowerCase).bind fun response =>
        if isStreamStart response then none
        else
          (Envelope.buildHttpResponseFromDispatch response stored encoding
            compressionConfig).toOption.map fun httpResponse =>
              cachedResponse (cacheEntry httpResponse stored expiresAt) keepAlive

/-- The form of what is written. -/
def form (delivery : Delivery) (keepAlive : Bool) : Option ResponseForm :=
  match delivery with
  | static status headers body => some (staticForm status headers body keepAlive)
  | compressedStatic status headers compressedBody encoding =>
      some (compressedStaticForm status headers compressedBody keepAlive encoding)
  | fastPath status headers body encoding compressionConfig =>
      some (fastForm status headers body keepAlive encoding compressionConfig)
  | dispatched handling encoding compressionConfig setCookie =>
      some (dispatchForm (handling.envelope toLowerCase) keepAlive encoding compressionConfig
        setCookie)
  | cached handling encoding compressionConfig _ _ =>
      (handling.envelope toLowerCase).bind fun response =>
        if isStreamStart response then none
        else
          (readResponse.run response).toOption.map fun read =>
            fastForm read.1 read.2.1 read.2.2 keepAlive encoding compressionConfig

def HeadKept (delivery : Delivery) (keepAlive : Bool) : Prop :=
  ∀ response ∈ delivery.written toLowerCase keepAlive,
    ∃ form ∈ delivery.form toLowerCase keepAlive, Response.HeadKept form response

end Delivery

/-! ## The condition -/

namespace Handling

variable (toLowerCase : Text → Text)

/-- The number of headers and their lengths fit the envelope. -/
def Fits (handling : Handling) : Prop :=
  (handling.sentSnapshot toLowerCase).headers.length < 65536 ∧
    ∀ header ∈ (handling.sentSnapshot toLowerCase).headers,
      header.1.length < 256 ∧ header.2.length < 65536

/-- None of the headers that are read from the envelope as that of a stream has a
line break. -/
def ReadsUnbroken (handling : Handling) : Prop :=
  ∀ response ∈ handling.envelope toLowerCase, isStreamStart response = true →
    ∀ header ∈ streamPassOn (streamHeaders response), hasLineBreak header = false

/-- The content type that the handlers leave behind has no line break. -/
def ContentTypeUnbroken (handling : Handling) : Prop :=
  ∀ value ∈ (handling.final toLowerCase).headers.get contentTypeKey, includesBreak value = false

/-- A stream has a content type without line breaks. Where the envelope is read
otherwise than it was written, be it that the lengths of a stream do not fit or that
the status of another response looks like the start of a stream, what is read has no
line breaks. -/
def Unsplit (handling : Handling) : Prop :=
  ((handling.startedStream toLowerCase).isSome → handling.Fits toLowerCase →
    handling.ContentTypeUnbroken toLowerCase) ∧
  ((handling.startedStream toLowerCase).isSome → ¬ handling.Fits toLowerCase →
    handling.ReadsUnbroken toLowerCase) ∧
  ((handling.startedStream toLowerCase).isNone →
    (handling.sentSnapshot toLowerCase).statusCode % 65536 = 0x53ff →
    handling.ReadsUnbroken toLowerCase)

end Handling

def Delivery.Unsplit (toLowerCase : Text → Text) : Delivery → Prop
  | .dispatched handling _ _ _ => handling.Unsplit toLowerCase
  | _ => True

/-! ## Heads of a form -/

theorem headKept_octets_iff
    {form : ResponseForm}
    (serverFields : ∀ header ∈ form.serverFields, hasLineBreak header = false) :
    HeadKept form form.octets ↔ ∀ header ∈ form.headers, hasLineBreak header = false := by
  constructor
  · rintro ⟨-, clean⟩ header member
    obtain ⟨noFeed, noReturn⟩ := breaksLine_eq_false_iff.mp (clean header member)
    rw [mem_lineOf, not_or, not_or, not_or] at noFeed noReturn
    rw [hasLineBreak, Bool.or_eq_false_iff, breaksLine_eq_false_iff, breaksLine_eq_false_iff]
    exact ⟨⟨noFeed.1, noReturn.1⟩, noFeed.2.2.2, noReturn.2.2.2⟩
  · intro headers
    have all : ∀ header ∈ form.serverFields ++ form.headers, hasLineBreak header = false := by
      intro header member
      exact (List.mem_append.mp member).elim (serverFields header) (headers header)
    have same : form.octets =
        assemble form.status (form.serverFields ++ form.headers) form.cookieFields form.body := by
      rw [ResponseForm.octets, assemble, assemble, writeFields_append, writeFields_append]
      simp only [List.append_assoc]
    refine ⟨?_, ?_⟩
    · rw [same]
      exact readLines_assemble all form.status form.cookieFields form.body
    · intro header member
      rw [breaksLine_eq_false_iff]
      exact ⟨notMem_lineOf (.inl rfl) (headers header member),
        notMem_lineOf (.inr rfl) (headers header member)⟩

/-- The server's own fields have no line breaks. -/
theorem unbroken_dispatchForm
    {dispatched : Option Octets} {keepAlive : Bool} {encoding : AcceptedEncoding}
    {compressionConfig : Option CompressionConfig} {setCookie : Option Octets} :
    ∀ header ∈ (dispatchForm dispatched keepAlive encoding compressionConfig
      setCookie).serverFields, hasLineBreak header = false := by
  have error : ∀ status body, ∀ header ∈ (errorForm status body keepAlive).serverFields,
      hasLineBreak header = false := by
    intro status body header member
    rcases List.mem_append.mp member with own | type
    · exact unbroken_ownFields keepAlive own
    · rw [List.mem_singleton.mp type]
      decide
  unfold dispatchForm
  split
  · exact error _ _
  · split
    · exact fun header member => unbroken_streamFields keepAlive member
    · split
      · rename_i status headers body _
        exact (unbroken_fastForm status headers body keepAlive encoding compressionConfig).1
      · exact error _ _

/-- Only what is read as a stream can have a header with a line break. -/
theorem headers_dispatchForm_iff
    {dispatched : Option Octets} {keepAlive : Bool} {encoding : AcceptedEncoding}
    {compressionConfig : Option CompressionConfig} {setCookie : Option Octets} :
    (∀ header ∈ (dispatchForm dispatched keepAlive encoding compressionConfig setCookie).headers,
        hasLineBreak header = false) ↔
      ∀ response ∈ dispatched, isStreamStart response = true →
        ∀ header ∈ streamPassOn (streamHeaders response), hasLineBreak header = false := by
  cases dispatched with
  | none => simp [dispatchForm, errorForm]
  | some response =>
      simp only [dispatchForm, Option.mem_def, Option.some.injEq, forall_eq']
      cases starts : isStreamStart response with
      | true => simp [streamForm]
      | false =>
          simp only [Bool.false_eq_true, if_false, false_implies, iff_true]
          cases readResponse.run response with
          | error error => exact fun header member => absurd member List.not_mem_nil
          | ok read =>
              exact (unbroken_fastForm read.1 read.2.1 read.2.2 keepAlive encoding
                compressionConfig).2

/-! ## What the setters let through -/

theorem breaksLine_encode
    (value : Text) :
    breaksLine (Utf8.encode value) = includesBreak value := by
  have feed : (10 : UInt8) ∈ Utf8.encode value ↔ '\n' ∈ value := by
    rw [Utf8.mem_encode_iff (by decide)]
    constructor
    · rintro ⟨char, member, same⟩
      have isFeed : char = '\n' := Char.ext (UInt32.toNat_inj.mp same)
      exact isFeed ▸ member
    · exact fun member => ⟨'\n', member, rfl⟩
  have carriage : (13 : UInt8) ∈ Utf8.encode value ↔ '\r' ∈ value := by
    rw [Utf8.mem_encode_iff (by decide)]
    constructor
    · rintro ⟨char, member, same⟩
      have isReturn : char = '\r' := Char.ext (UInt32.toNat_inj.mp same)
      exact isReturn ▸ member
    · exact fun member => ⟨'\r', member, rfl⟩
  rw [Bool.eq_iff_iff, ← not_iff_not, Bool.not_eq_true, breaksLine_eq_false_iff, feed, carriage,
    includesBreak, Bool.or_eq_true, List.contains_iff_mem, List.contains_iff_mem, not_or]
  exact and_comm

/-- The keys are different, and only the content type of a stream can have a line
break. -/
structure CleanHeaders (streaming : Bool) (headers : Dictionary Text Text) : Prop where
  distinct : headers.Distinct
  names : ∀ entry ∈ headers, includesBreak entry.1 = false
  values : ∀ entry ∈ headers,
    includesBreak entry.2 = false ∨ (streaming = true ∧ entry.1 = contentTypeKey)

namespace CleanHeaders

variable {streaming : Bool} {headers : Dictionary Text Text}

theorem set
    (clean : CleanHeaders streaming headers)
    {name value : Text}
    (nameClean : includesBreak name = false)
    (valueClean : includesBreak value = false ∨ (streaming = true ∧ name = contentTypeKey)) :
    CleanHeaders streaming (headers.set name value) where
  distinct := clean.distinct.set name value
  names := by
    intro entry member
    rcases Dictionary.eq_or_mem_of_mem_set member with rfl | before
    · exact nameClean
    · exact clean.names entry before
  values := by
    intro entry member
    rcases Dictionary.eq_or_mem_of_mem_set member with rfl | before
    · exact valueClean
    · exact clean.values entry before

theorem defaultContentType
    (clean : CleanHeaders streaming headers)
    {value : Text}
    (valueClean : includesBreak value = false ∨ streaming = true) :
    CleanHeaders streaming (defaultContentType value headers) := by
  unfold Response.defaultContentType
  split
  · exact clean
  · exact clean.set (by decide) (valueClean.imp_right fun stream => ⟨stream, rfl⟩)

theorem nil
    (streaming : Bool) :
    CleanHeaders streaming [] where
  distinct := Dictionary.distinct_nil
  names := by simp
  values := by simp

/-- Headers are clean for a stream that are clean without one. -/
theorem ofStream
    (clean : CleanHeaders streaming headers) :
    CleanHeaders true headers where
  distinct := clean.distinct
  names := clean.names
  values entry member := (clean.values entry member).imp_right fun stream => ⟨rfl, stream.2⟩

theorem normalizeHeaderRecord
    (toLowerCase : Text → Text)
    (record : List (Text × Text)) :
    CleanHeaders false (ResponseState.normalizeHeaderRecord toLowerCase record) := by
  have step : ∀ (record : List (Text × Text)) (normalized : Dictionary Text Text),
      CleanHeaders false normalized →
      CleanHeaders false (record.foldl
        (fun normalized header =>
          if includesBreak (toLowerCase header.1) || includesBreak header.2 then normalized
          else normalized.set (toLowerCase header.1) header.2) normalized) := by
    intro record
    induction record with
    | nil => exact fun normalized clean => clean
    | cons header record hypothesis =>
        intro normalized clean
        refine hypothesis _ ?_
        dsimp only
        split
        · exact clean
        · rename_i unbroken
          rw [Bool.or_eq_true, not_or, Bool.not_eq_true, Bool.not_eq_true] at unbroken
          exact clean.set unbroken.1 (.inl unbroken.2)
  exact step record [] (nil false)

/-- Clean headers are assigned to clean ones. -/
theorem assign
    {payload : Dictionary Text Text}
    (payloadClean : CleanHeaders false payload)
    (clean : CleanHeaders streaming headers) :
    CleanHeaders streaming
      (payload.foldl (fun result header => Dictionary.set header.1 header.2 result) headers) := by
  have unbroken : ∀ header ∈ payload, includesBreak header.1 = false ∧
      includesBreak header.2 = false := by
    intro header member
    refine ⟨payloadClean.names header member, (payloadClean.values header member).resolve_right ?_⟩
    simp
  clear payloadClean
  induction payload generalizing headers with
  | nil => exact clean
  | cons header payload hypothesis =>
      obtain ⟨nameClean, valueClean⟩ := unbroken header List.mem_cons_self
      exact hypothesis (clean.set nameClean (.inl valueClean))
        fun other member => unbroken other (List.mem_cons_of_mem _ member)

end CleanHeaders

variable (toLowerCase : Text → Text)

def ResponseState.Clean (state : ResponseState) : Prop :=
  CleanHeaders state.streamId.isSome state.headers

namespace ResponseState.Clean

variable {toLowerCase} {state : ResponseState}

theorem set
    (clean : state.Clean)
    (name value : Text) :
    (state.set toLowerCase name value).Clean := by
  unfold ResponseState.set
  split
  · exact clean
  · rename_i unbroken
    rw [Bool.or_eq_true, not_or, Bool.not_eq_true, Bool.not_eq_true] at unbroken
    exact CleanHeaders.set clean unbroken.1 (.inl unbroken.2)

theorem withDefaultType
    (clean : state.Clean)
    {value : Text}
    (valueClean : includesBreak value = false) :
    (state.withDefaultType value).Clean :=
  CleanHeaders.defaultContentType clean (.inl valueClean)

theorem json
    (clean : state.Clean)
    (serialized : Option Octets) :
    (state.json serialized).Clean := by
  have typed : (state.withDefaultType jsonType).Clean := clean.withDefaultType (by decide)
  unfold ResponseState.json
  split
  · exact clean
  · cases serialized <;> exact typed

theorem cache
    (clean : state.Clean)
    (serialized : Option Octets)
    (hint : CacheHint) :
    (state.cache serialized hint).Clean := by
  have typed : (state.withDefaultType jsonType).Clean := clean.withDefaultType (by decide)
  unfold ResponseState.cache
  split
  · exact clean
  · cases serialized <;> exact typed

theorem html
    (clean : state.Clean)
    (status : Nat)
    (headers : List (Text × Text))
    (body : Octets) :
    (state.html toLowerCase status headers body).Clean := by
  unfold ResponseState.html
  split
  · exact clean
  · have record := CleanHeaders.normalizeHeaderRecord toLowerCase headers
    have unbroken : includesBreak htmlType = false := by decide
    exact (record.defaultContentType (.inl unbroken)).assign clean

theorem sendString
    (clean : state.Clean)
    (data : Text) :
    (state.sendString data).Clean := by
  unfold ResponseState.sendString
  split
  · exact clean
  · have unbroken : includesBreak plainType = false := by decide
    exact clean.withDefaultType unbroken

theorem stream
    (clean : state.Clean)
    (streamId : Nat)
    (contentType : Option Text) :
    (state.stream streamId contentType).Clean := by
  unfold ResponseState.stream
  split
  · exact clean
  · exact (CleanHeaders.ofStream clean).defaultContentType (.inr rfl)

theorem redirect
    (clean : state.Clean)
    (url : Text)
    (status : Nat) :
    (state.redirect url status).Clean := by
  unfold ResponseState.redirect
  split
  · exact clean
  split
  · exact clean
  · rename_i unbroken
    exact CleanHeaders.set clean (by decide) (.inl (Bool.not_eq_true _ ▸ unbroken))

theorem call
    (clean : state.Clean)
    (made : ResponseCall) :
    (state.call toLowerCase made).Clean := by
  cases made with
  | status code => exact clean
  | set name value => exact clean.set name value
  | header name value => exact clean.set name value
  | type value => exact clean.set _ _
  | json serialized => exact clean.json serialized
  | html status headers body => exact clean.html status headers body
  | sendBuffer data =>
      unfold ResponseState.call
      dsimp only
      split
      · exact clean
      · have unbroken : includesBreak binaryType = false := by decide
        exact clean.withDefaultType unbroken
  | sendString data => exact clean.sendString data
  | sendNothing =>
      unfold ResponseState.call
      dsimp only
      split
      · exact clean
      · exact clean
  | sendStatus code =>
      have started : ({ state with status := code } : ResponseState).Clean := clean
      have unbroken : includesBreak plainType = false := by decide
      exact (started.withDefaultType unbroken).sendString _
  | ncache serialized hint => exact clean.cache serialized hint
  | stream streamId contentType => exact clean.stream streamId contentType
  | redirect url status => exact clean.redirect url status

end ResponseState.Clean

/-- Whatever is called, only the content type of a stream can have a line break. -/
theorem clean_final
    (handling : Handling) :
    (handling.final toLowerCase).Clean := by
  have run : ∀ (calls : List ResponseCall) (state : ResponseState), state.Clean →
      (calls.foldl (ResponseState.call toLowerCase) state).Clean := by
    intro calls
    induction calls with
    | nil => exact fun state clean => clean
    | cons made calls hypothesis => exact fun state clean => hypothesis _ (clean.call made)
  exact run handling.calls acquireResponseState (CleanHeaders.nil _)

/-- The headers of a stream are passed on without line breaks just when its content
type has none. -/
theorem unbroken_snapshot_iff
    {state : ResponseState}
    (clean : state.Clean) :
    (∀ header ∈ streamPassOn state.snapshot.headers, hasLineBreak header = false) ↔
      ∀ value ∈ state.headers.get contentTypeKey, includesBreak value = false := by
  constructor
  · intro unbroken value stored
    have sent : (Utf8.encode contentTypeKey, Utf8.encode value) ∈
        streamPassOn state.snapshot.headers := by
      refine List.mem_filter.mpr ⟨List.mem_map.mpr ⟨_, Dictionary.mem_of_get stored, rfl⟩, ?_⟩
      have notManaged : isManaged [transferEncoding, contentLength, connection]
          (Utf8.encode contentTypeKey, []) = false := by
        decide
      simpa [isManaged] using notManaged
    have whole := unbroken _ sent
    rw [hasLineBreak, Bool.or_eq_false_iff, breaksLine_encode, breaksLine_encode] at whole
    exact whole.2
  · intro contentType header member
    obtain ⟨entry, stored, rfl⟩ := List.mem_map.mp (List.mem_filter.mp member).1
    rw [hasLineBreak, Bool.or_eq_false_iff, breaksLine_encode, breaksLine_encode]
    refine ⟨clean.names entry stored, ?_⟩
    rcases clean.values entry stored with unbroken | ⟨-, isType⟩
    · exact unbroken
    · refine contentType entry.2 ?_
      rw [← isType]
      exact clean.distinct.get_of_mem stored

/-! ## When the head is kept -/

/-- What is read of a dispatch as a stream has no line breaks just when the
condition holds. -/
theorem readsUnbroken_iff
    (handling : Handling) :
    handling.ReadsUnbroken toLowerCase ↔ handling.Unsplit toLowerCase := by
  cases started : handling.startedStream toLowerCase with
  | none =>
      simp only [Handling.Unsplit, started, Option.isSome_none, Option.isNone_none,
        Bool.false_eq_true, false_implies, true_and, true_implies]
      constructor
      · exact fun unbroken _ => unbroken
      · intro split response sent starts
        have encoded : encodeResponseEnvelope (handling.sentSnapshot toLowerCase) =
            .ok response := by
          rw [Handling.envelope, started] at sent
          cases encoded : encodeResponseEnvelope (handling.sentSnapshot toLowerCase) with
          | error error =>
              rw [encoded] at sent
              cases sent
          | ok envelope =>
              rw [encoded] at sent
              cases sent
              rfl
        exact split (status_of_isStreamStart encoded starts) response sent starts
  | some streamId =>
      simp only [Handling.Unsplit, started, Option.isSome_some, Option.isNone_some,
        Bool.false_eq_true, false_implies, and_true, true_implies]
      have own : handling.sentSnapshot toLowerCase = (handling.final toLowerCase).snapshot := by
        rw [Handling.startedStream] at started
        unfold Handling.sentSnapshot
        cases ended : handling.outcome with
        | returned => rfl
        | failed status body =>
            rw [ended] at started
            cases started
      have sent : handling.envelope toLowerCase =
          some (encodeStreamStartEnvelope streamId (handling.sentSnapshot toLowerCase)) := by
        rw [Handling.envelope, started]
      have fitting : handling.Fits toLowerCase →
          (handling.ReadsUnbroken toLowerCase ↔ handling.ContentTypeUnbroken toLowerCase) := by
        rintro ⟨count, fits⟩
        have headers := streamHeaders_encoded count fits streamId
        rw [own] at headers
        rw [Handling.ReadsUnbroken, sent, Handling.ContentTypeUnbroken,
          ← unbroken_snapshot_iff (clean_final toLowerCase handling)]
        simp only [Option.mem_def, Option.some.injEq, forall_eq', isStreamStart_encoded, own,
          headers, true_implies]
      constructor
      · exact fun unbroken => ⟨fun fits => (fitting fits).mp unbroken, fun _ => unbroken⟩
      · rintro ⟨contentType, shifted⟩
        by_cases fits : handling.Fits toLowerCase
        · exact (fitting fits).mpr (contentType fits)
        · exact shifted fits

/-- A response that is written has its form. -/
theorem written_eq_form
    (delivery : Delivery)
    (keepAlive : Bool) :
    delivery.written toLowerCase keepAlive =
      (delivery.form toLowerCase keepAlive).map ResponseForm.octets := by
  cases delivery with
  | static status headers body =>
      have noCookie : (staticForm status headers body keepAlive).cookie = none := rfl
      rw [Delivery.written, Delivery.form, Option.map_some,
        ResponseForm.octets_of_cookie_none noCookie]
      rfl
  | compressedStatic status headers compressedBody encoding =>
      have noCookie :
          (compressedStaticForm status headers compressedBody keepAlive encoding).cookie = none :=
        rfl
      rw [Delivery.written, Delivery.form, Option.map_some,
        ResponseForm.octets_of_cookie_none noCookie]
      rfl
  | fastPath status headers body encoding compressionConfig =>
      rw [Delivery.written, Delivery.form, Option.map_some, fastForm_octets]
  | dispatched handling encoding compressionConfig setCookie =>
      rw [Delivery.written, Delivery.form, Option.map_some, writeDynamicDispatchResponse_eq]
  | cached handling encoding compressionConfig stored expiresAt =>
      rw [Delivery.written, Delivery.form]
      cases handling.envelope toLowerCase with
      | none => rfl
      | some response =>
          rw [Option.bind_some, Option.bind_some]
          split
          · rfl
          · rw [buildHttpResponseFromDispatch_form]
            cases readResponse.run response with
            | error error => rfl
            | ok read =>
                exact congrArg some (cachedResponse_cacheEntry read.1 read.2.1 read.2.2 stored
                  keepAlive encoding compressionConfig expiresAt)

/-- A form's server fields are free of line breaks; its headers are, when the
condition holds. -/
theorem unbroken_form_iff
    {delivery : Delivery} {keepAlive : Bool} {form : ResponseForm}
    (formed : delivery.form toLowerCase keepAlive = some form) :
    (∀ header ∈ form.serverFields, hasLineBreak header = false) ∧
      ((∀ header ∈ form.headers, hasLineBreak header = false) ↔
        delivery.Unsplit toLowerCase) := by
  cases delivery with
  | static status headers body =>
      cases formed
      exact ⟨fun header member => unbroken_ownFields keepAlive member,
        iff_of_true (fun header member => unbroken_of_mem_passOn member) trivial⟩
  | compressedStatic status headers compressedBody encoding =>
      cases formed
      refine ⟨fun header member => ?_,
        iff_of_true (fun header member => unbroken_of_mem_passOn member) trivial⟩
      exact (List.mem_append.mp member).elim (unbroken_ownFields keepAlive)
        unbroken_compressionFields
  | fastPath status headers body encoding compressionConfig =>
      cases formed
      obtain ⟨serverFields, passedOn⟩ :=
        unbroken_fastForm status headers body keepAlive encoding compressionConfig
      exact ⟨serverFields, iff_of_true passedOn trivial⟩
  | dispatched handling encoding compressionConfig setCookie =>
      cases formed
      refine ⟨unbroken_dispatchForm, headers_dispatchForm_iff.trans ?_⟩
      exact readsUnbroken_iff toLowerCase handling
  | cached handling encoding compressionConfig stored expiresAt =>
      obtain ⟨response, -, read⟩ := Option.bind_eq_some_iff.mp formed
      split at read
      · cases read
      · obtain ⟨parts, -, rfl⟩ := Option.map_eq_some_iff.mp read
        obtain ⟨serverFields, passedOn⟩ :=
          unbroken_fastForm parts.1 parts.2.1 parts.2.2 keepAlive encoding compressionConfig
        exact ⟨serverFields, iff_of_true passedOn trivial⟩

/-- The head of a response is as the setters have it just when it is no stream with
a content type that has a line break, and nothing that is read otherwise than it was
written. -/
theorem headKept_iff
    (delivery : Delivery)
    (keepAlive : Bool) :
    delivery.HeadKept toLowerCase keepAlive ↔ delivery.Unsplit toLowerCase := by
  rw [Delivery.HeadKept, written_eq_form]
  cases formed : delivery.form toLowerCase keepAlive with
  | none =>
      -- only a cached response may be missing
      cases delivery with
      | cached handling encoding compressionConfig stored expiresAt =>
          exact iff_of_true (fun response absent => by cases absent) trivial
      | _ => cases formed
  | some form =>
      obtain ⟨serverFields, headers⟩ := unbroken_form_iff toLowerCase formed
      rw [← headers, ← headKept_octets_iff serverFields]
      simp

/-- A handler that streams with a content type from the client. -/
def splitHandling : Handling where
  calls := [.stream 1 (some (text "text/plain\r\nset-cookie: a=b"))]
  outcome := .returned

/-- Its content type adds a header. -/
theorem not_headKept :
    ¬ ∀ (toLowerCase : Text → Text) (delivery : Delivery) (keepAlive : Bool),
      delivery.HeadKept toLowerCase keepAlive := by
  intro all
  obtain ⟨form, formed, kept⟩ :=
    all id (.dispatched splitHandling .identity none none) true _ rfl
  cases formed
  rw [writeDynamicDispatchResponse_eq, headKept_octets_iff unbroken_dispatchForm,
    headers_dispatchForm_iff] at kept
  have unsplit : splitHandling.Unsplit id := (readsUnbroken_iff id splitHandling).mp kept
  have fits : splitHandling.Fits id := by
    unfold Handling.Fits
    decide
  exact absurd (unsplit.1 (by decide) fits _ rfl) (by decide)

end Response
end HttpNative
