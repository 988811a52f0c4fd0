import HttpNative.Envelope.ResponseEnvelope
import Mathlib.Algebra.Order.BigOperators.Group.List

/-!
# What becomes of a response snapshot

The native layer reads every envelope that was written back to the fields as they
were sent, its body and its cache hint. The fields are sent as the snapshot has
them, but for content types that the table of common values inherits.
-/

namespace HttpNative
namespace Envelope

open LittleEndian (write)
open OctetReader (Reads)

variable {snapshot : Snapshot} {headers : List Header} {envelope : Octets}

/-- The response that a snapshot stands for. -/
def snapshotResponse (snapshot : Snapshot) (keepAlive : Bool) : Octets :=
  statusLine snapshot.statusCode ++
    (field (octets "content-length") (decimalOctets snapshot.body.length) ++
      (field (octets "connection") (connectionValue keepAlive) ++
        (snapshot.headers.flatMap userField ++ (crlf ++ snapshot.body))))

/-- The response, its cache hint and nothing else come out of an envelope. -/
structure Delivered (snapshot : Snapshot) (envelope : Octets) : Prop where
  response : ∀ keepAlive compressionConfig,
    buildHttpResponseFromDispatch envelope keepAlive .identity compressionConfig =
      .ok (snapshotResponse snapshot keepAlive)
  ncache : snapshot.body.length ≤ ncacheMaxBodySize →
    extractNcacheTrailer envelope = snapshot.ncache.map fun hint =>
      (min hint.ttl ncacheMaxTtlSecs, hint.maxEntries)
  session : ∃ offset, sessionScanOffset envelope = some offset ∧
    extractSessionTrailer envelope offset = none

/-- No content type is the name of a property that the table inherits. -/
def PlainContentType (snapshot : Snapshot) : Prop :=
  ∀ header ∈ snapshot.headers, header.1 = contentTypeName →
    inheritedProperties.get header.2 = none

/-- The numbers of a snapshot fit their fields. -/
structure Snapshot.Fits (snapshot : Snapshot) : Prop where
  status : snapshot.statusCode < 65536
  count : snapshot.headers.length < 65536
  body : snapshot.body.length < 4294967296
  ncache : ∀ hint ∈ snapshot.ncache, hint.ttl < 4294967296 ∧ hint.maxEntries < 4294967296

/-! ## The writer -/

theorem of_checkHeaders
    (checked : checkHeaders headers = .ok ()) :
    ∀ header ∈ sentHeaders headers,
      header.1.length < LittleEndian.limit 1 ∧ header.2.length < LittleEndian.limit 2 := by
  induction headers with
  | nil => simp [sentHeaders]
  | cons header rest hypothesis =>
      obtain ⟨_, checkedHeader, checkedRest⟩ := OctetReader.except_bind_eq_ok.mp checked
      obtain ⟨_, shortName, shortValue⟩ := OctetReader.except_bind_eq_ok.mp checkedHeader
      rw [ensure_eq_ok, decide_eq_true_eq] at shortName shortValue
      exact List.forall_mem_cons.mpr
        ⟨⟨Nat.lt_succ_of_le shortName, Nat.lt_succ_of_le shortValue⟩, hypothesis checkedRest⟩

/-- What the writer has made sure of. -/
structure Sent (snapshot : Snapshot) (envelope : Octets) : Prop where
  headers : ∀ header ∈ sentHeaders snapshot.headers,
    header.1.length < LittleEndian.limit 1 ∧ header.2.length < LittleEndian.limit 2
  values : ∀ header ∈ snapshot.headers, (valueBytes header).isSome = true
  envelope : envelope = responseFrame snapshot.statusCode (sentHeaders snapshot.headers)
    snapshot.body snapshot.ncache

theorem sent_of_encode
    (encoded : encodeResponseEnvelope snapshot = .ok envelope) :
    Sent snapshot envelope := by
  obtain ⟨_, checked, encoded⟩ := OctetReader.except_bind_eq_ok.mp encoded
  obtain ⟨_, lengths, result⟩ := OctetReader.except_bind_eq_ok.mp encoded
  cases result
  rw [ensure_eq_ok, List.all_eq_true] at lengths
  exact ⟨of_checkHeaders checked, lengths, rfl⟩

/-! ## The readers -/

/-- A response without its trailer. -/
def plainFrame (status : Nat) (headers : List Header) (body : Octets) : Octets :=
  write 2 status ++ (write 2 headers.length ++ (write 4 body.length ++
    (headers.flatMap encodeHeader ++ body)))

theorem responseFrame_eq
    (status : Nat)
    (headers : List Header)
    (body : Octets)
    (ncache : Option CacheHint) :
    responseFrame status headers body ncache =
      plainFrame status headers body ++ encodeHints ncache := by
  simp only [responseFrame, plainFrame, List.append_assoc]

theorem reads_readResponseHeader
    {header : Header}
    (fits : header.1.length < LittleEndian.limit 1 ∧ header.2.length < LittleEndian.limit 2) :
    Reads readResponseHeader (encodeHeader header) header :=
  (OctetReader.reads_number _ fits.1).bind
    ((OctetReader.reads_number _ fits.2).bind
      ((OctetReader.reads_take _ header.1).bind
        ((OctetReader.reads_take _ header.2).bind_pure fun value => (header.1, value))))

theorem reads_skipHeader
    {header : Header}
    (fits : header.1.length < LittleEndian.limit 1 ∧ header.2.length < LittleEndian.limit 2) :
    Reads skipHeader (encodeHeader header) () := by
  refine (OctetReader.reads_number _ fits.1).bind ?_
  refine (OctetReader.reads_number _ fits.2).bind ?_
  rw [← List.length_append]
  exact OctetReader.reads_skip (header.1 ++ header.2)

variable {status : Nat} {body : Octets}
  (statusFits : status < LittleEndian.limit 2)
  (countFits : headers.length < LittleEndian.limit 2)
  (bodyFits : body.length < LittleEndian.limit 4)
  (headersFit : ∀ header ∈ headers,
    header.1.length < LittleEndian.limit 1 ∧ header.2.length < LittleEndian.limit 2)

include statusFits countFits bodyFits headersFit

theorem reads_readResponse :
    Reads readResponse (plainFrame status headers body) (status, headers, body) := by
  have fields := OctetReader.reads_times fun header member =>
    reads_readResponseHeader (headersFit header member)
  rw [List.map_id'] at fields
  exact (OctetReader.reads_number _ statusFits).bind
    ((OctetReader.reads_number _ countFits).bind
      ((OctetReader.reads_number _ bodyFits).bind
        (fields.bind
          ((OctetReader.reads_take _ body).bind_pure fun body => (status, headers, body)))))

theorem reads_skipResponse
    {tooLarge : Nat → Bool}
    (accepted : tooLarge body.length = false) :
    Reads (skipResponse tooLarge) (plainFrame status headers body) () := by
  have fields := OctetReader.reads_times fun header member =>
    reads_skipHeader (headersFit header member)
  refine (OctetReader.reads_number _ statusFits).bind ?_
  refine (OctetReader.reads_number _ countFits).bind ?_
  refine (OctetReader.reads_number _ bodyFits).bind ?_
  rw [accepted, if_neg Bool.false_ne_true]
  exact fields.bind (OctetReader.reads_skip body)

/-- Past the body, whatever follows. -/
theorem skipResponse_frame
    {tooLarge : Nat → Bool}
    (accepted : tooLarge body.length = false)
    (after : Octets) :
    skipResponse tooLarge (plainFrame status headers body ++ after) 0 =
      .ok ((), (plainFrame status headers body).length) := by
  have read := reads_skipResponse statusFits countFits bodyFits headersFit accepted [] after
  rwa [List.nil_append, List.length_nil, Nat.zero_add] at read

theorem extractNcacheTrailer_frame
    {ncache : Option CacheHint}
    (hintFits : ∀ hint ∈ ncache, hint.ttl < 4294967296 ∧ hint.maxEntries < 4294967296)
    (small : body.length ≤ ncacheMaxBodySize) :
    extractNcacheTrailer (plainFrame status headers body ++ encodeHints ncache) =
      ncache.map fun hint => (min hint.ttl ncacheMaxTtlSecs, hint.maxEntries) := by
  let tooLarge : Nat → Bool := fun bodyLength => bodyLength > ncacheMaxBodySize
  have notTooLarge : tooLarge body.length = false := decide_eq_false (Nat.not_lt.mpr small)
  have skipped := skipResponse_frame statusFits countFits bodyFits headersFit notTooLarge
  cases ncache with
  | none =>
      have failed : readNcacheTrailer (plainFrame status headers body ++ []) 0 = .error () := by
        unfold readNcacheTrailer
        rw [OctetReader.bind_of_ok (skipped []), List.append_nil]
        exact OctetReader.bind_of_error (OctetReader.number_at_end () Nat.one_pos _)
      rw [extractNcacheTrailer, OctetReader.run, encodeHints, failed]
      rfl
  | some hint =>
      have fits := hintFits hint rfl
      have trailer : Reads readNcacheTrailer
          (plainFrame status headers body ++ encodeHints (some hint))
          (min hint.ttl ncacheMaxTtlSecs, hint.maxEntries) := by
        refine (reads_skipResponse statusFits countFits bodyFits headersFit notTooLarge).bind ?_
        refine (OctetReader.reads_octet _ 0xca).bind ?_
        refine (OctetReader.reads_octet _ 0xce).bind ?_
        rw [if_neg (by decide)]
        exact (OctetReader.reads_number _ fits.1).bind
          ((OctetReader.reads_number _ fits.2).bind_pure _)
      rw [extractNcacheTrailer, trailer.run]
      rfl

theorem sessionScanOffset_frame
    (ncache : Option CacheHint) :
    sessionScanOffset (plainFrame status headers body ++ encodeHints ncache) =
      some (plainFrame status headers body ++ encodeHints ncache).length := by
  have bodyEnd : responseBodyEndOffset (plainFrame status headers body ++ encodeHints ncache) =
      some (plainFrame status headers body).length := by
    rw [responseBodyEndOffset,
      skipResponse_frame statusFits countFits bodyFits headersFit rfl]
    rfl
  rw [sessionScanOffset, bodyEnd, Option.map_some]
  cases ncache with
  | none =>
      rw [encodeHints, List.append_nil, if_neg]
      rintro ⟨room, -⟩
      omega
  | some hint =>
      have hintLength : (encodeHints (some hint)).length = 10 := by simp [encodeHints]
      rw [if_pos, List.length_append, hintLength]
      refine ⟨?_, ?_, ?_⟩
      · rw [List.length_append, hintLength]
      · rw [List.getElem?_append_right (Nat.le_refl _), Nat.sub_self]
        rfl
      · rw [List.getElem?_append_right (Nat.le_add_right _ 1), Nat.add_sub_cancel_left]
        rfl

omit statusFits countFits bodyFits headersFit in
theorem extractSessionTrailer_at_end
    (row : Octets) :
    extractSessionTrailer row row.length = none := by
  have failed : readSessionTrailer row row.length = .error () :=
    OctetReader.bind_of_error (OctetReader.number_at_end () Nat.one_pos row)
  rw [extractSessionTrailer, failed]
  rfl

theorem build_frame
    (ncache : Option CacheHint)
    (keepAlive : Bool)
    (compressionConfig : Option CompressionConfig) :
    buildHttpResponseFromDispatch (plainFrame status headers body ++ encodeHints ncache) keepAlive
        .identity compressionConfig =
      .ok (statusLine status ++
        (field (octets "content-length") (decimalOctets body.length) ++
          (field (octets "connection") (connectionValue keepAlive) ++
            (headers.flatMap userField ++ (crlf ++ body))))) := by
  have notCompressed : applyCompression headers body .identity compressionConfig = (body, []) := by
    unfold applyCompression shouldCompress
    cases compressionConfig <;> rfl
  rw [buildHttpResponseFromDispatch,
    (reads_readResponse statusFits countFits bodyFits headersFit).run_append]
  simp only [bind, Except.bind, notCompressed, List.nil_append]
  rfl

omit statusFits countFits bodyFits headersFit

/-! ## Content types that the table inherits -/

/-- The fields as they are sent, where no content type is inherited. -/
theorem sentHeaders_of_plain
    (plain : PlainContentType snapshot) :
    sentHeaders snapshot.headers = snapshot.headers := by
  unfold sentHeaders
  rw [List.map_congr_left (g := id), List.map_id]
  intro header member
  unfold valueBytes
  split
  · rename_i lookup
    rw [plain header member lookup.1]
    rfl
  · rfl

/-- The functions that the table inherits are shorter than their names. -/
theorem inherited_shorter :
    ∀ entry ∈ inheritedProperties, ∀ count, entry.2 = some count →
      (userField (contentTypeName, List.replicate count 0)).length <
        (userField (contentTypeName, entry.1)).length := by
  decide

theorem inherited_notMem_preencoded :
    ∀ entry ∈ inheritedProperties, entry.1 ∉ preencodedValues := by
  decide

theorem length_userField_sent
    {header : Header} {length : Option Nat}
    (isContentType : header.1 = contentTypeName)
    (inherited : inheritedProperties.get header.2 = some length)
    (isSome : (valueBytes header).isSome = true) :
    (userField (header.1, (valueBytes header).getD [])).length < (userField header).length := by
  have member := Dictionary.mem_of_get inherited
  have sent : valueBytes header = length.map fun count => List.replicate count 0 := by
    rw [valueBytes, if_pos ⟨isContentType, inherited_notMem_preencoded _ member⟩, inherited]
  rw [sent] at isSome ⊢
  cases length with
  | none => cases isSome
  | some count =>
      have shorter := inherited_shorter _ member count rfl
      rw [isContentType]
      obtain ⟨name, value⟩ := header
      cases isContentType
      exact shorter

theorem length_userField_sent_le
    {header : Header}
    (isSome : (valueBytes header).isSome = true) :
    (userField (header.1, (valueBytes header).getD [])).length ≤ (userField header).length := by
  by_cases lookup : header.1 = contentTypeName ∧ inheritedProperties.get header.2 ≠ none
  · obtain ⟨length, inherited⟩ := Option.ne_none_iff_exists'.mp lookup.2
    exact Nat.le_of_lt (length_userField_sent lookup.1 inherited isSome)
  · have same : valueBytes header = some header.2 := by
      unfold valueBytes
      split
      · rename_i contentType
        have notInherited : inheritedProperties.get header.2 = none := by
          by_contra inherited
          exact lookup ⟨contentType.1, inherited⟩
        rw [notInherited]
      · rfl
    rw [same, Option.getD_some]

/-- With an inherited content type the fields come out too short. -/
theorem length_sentHeaders_lt
    (values : ∀ header ∈ snapshot.headers, (valueBytes header).isSome = true)
    (notPlain : ¬ PlainContentType snapshot) :
    ((sentHeaders snapshot.headers).flatMap userField).length <
      (snapshot.headers.flatMap userField).length := by
  unfold PlainContentType at notPlain
  push Not at notPlain
  obtain ⟨header, member, isContentType, isInherited⟩ := notPlain
  obtain ⟨length, inherited⟩ := Option.ne_none_iff_exists'.mp isInherited
  rw [sentHeaders, List.flatMap_map, List.length_flatMap, List.length_flatMap]
  refine List.sum_lt_sum _ _ (fun other otherMember => ?_) ⟨header, member, ?_⟩
  · exact length_userField_sent_le (values other otherMember)
  · exact length_userField_sent isContentType inherited (values header member)

/-- Every snapshot that is accepted comes out as it was, unless its content type is
the name of an inherited property. -/
theorem delivered_iff
    (fits : snapshot.Fits)
    (encoded : encodeResponseEnvelope snapshot = .ok envelope) :
    Delivered snapshot envelope ↔ PlainContentType snapshot := by
  have sent := sent_of_encode encoded
  have countFits : (sentHeaders snapshot.headers).length < LittleEndian.limit 2 := by
    rw [sentHeaders, List.length_map]
    exact fits.count
  have built := build_frame fits.status countFits fits.body sent.headers snapshot.ncache
  have isFrame := sent.envelope
  rw [responseFrame_eq] at isFrame
  subst isFrame
  constructor
  · intro delivered
    by_contra notPlain
    have same := (delivered.response true none).symm.trans (built true none)
    have lengths := congrArg List.length (Except.ok.inj same)
    have shorter := length_sentHeaders_lt sent.values notPlain
    simp only [snapshotResponse, List.length_append] at lengths
    omega
  · intro plain
    refine ⟨fun keepAlive compressionConfig => ?_, ?_, _, ?_, extractSessionTrailer_at_end _⟩
    · rw [built, sentHeaders_of_plain plain]
      rfl
    · exact extractNcacheTrailer_frame fits.status countFits fits.body sent.headers fits.ncache
    · exact sessionScanOffset_frame fits.status countFits fits.body sent.headers _

/-! ## Two snapshots -/

def helloSnapshot (contentType : Octets) : Snapshot where
  status := some 200
  headers := [(contentTypeName, contentType)]
  body := octets "hello"
  ncache := some ⟨100000, 16⟩

theorem delivered_iff_hello :
    ∃ envelope, encodeResponseEnvelope (helloSnapshot (octets "text/plain")) = .ok envelope ∧
      (Delivered (helloSnapshot (octets "text/plain")) envelope ↔
        PlainContentType (helloSnapshot (octets "text/plain"))) :=
  ⟨_, rfl, delivered_iff ⟨by decide, by decide, by decide, by decide⟩ rfl⟩

/-- A content type that is the name of a method comes out empty. -/
theorem not_delivered_of_toString :
    ¬ ∀ snapshot envelope, snapshot.Fits → encodeResponseEnvelope snapshot = .ok envelope →
      Delivered snapshot envelope := by
  intro delivered
  have all := delivered (helloSnapshot (octets "toString")) _
    ⟨by decide, by decide, by decide, by decide⟩ rfl
  have same := all.response true none
  revert same
  decide

end Envelope
end HttpNative
