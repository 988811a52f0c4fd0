import HttpNative.Parser.RequestHead
import Mathlib.Tactic.ByContra

/-!
# Message framing

The body length and the transfer encoding that a routed head is given, against
what its `Content-Length` and `Transfer-Encoding` fields say. Fields that cannot
be read are ignored and a later length replaces an earlier one, so the framing
is that of the fields only for heads in which no field slips through.
-/

namespace HttpNative
namespace Parser

/-! ## What the fields say -/

/-- The optional white space around a field value. -/
def isOptionalWhitespace (char : Char) : Bool :=
  char = ' ' || char = '\t'

/-- A value without the white space around it. -/
def fieldText (value : Octets) : Option Text :=
  (Utf8.decode value).map (Text.trimWith isOptionalWhitespace)

/-- The number of a value that is a row of decimal digits. -/
def plainDecimal (value : Octets) : Option Nat :=
  (fieldText value).bind fun digits =>
    if digits ≠ [] ∧ digits.all Char.isDigit then some (Decimal.value digits) else none

/-- The value is `identity`. -/
def IsIdentity (value : Octets) : Prop :=
  ∃ encoding, fieldText value = some encoding ∧
    Text.eqIgnoreAsciiCase encoding (text "identity") = true

/-- A request is framed as all its fields say: no transfer encoding but
identity, and one body length, that of every `Content-Length` field. -/
structure FramedByFields (raw : RawRequest) (parsed : ParsedRequest) : Prop where
  transferEncoding : ∀ header ∈ raw.headers, header.isNamed "transfer-encoding" = true →
    IsIdentity header.value
  contentLength : ∀ header ∈ raw.headers, header.isNamed "content-length" = true →
    ∃ length, plainDecimal header.value = some length ∧ parsed.contentLength = some length
  noLength : parsed.contentLength = none →
    ∀ header ∈ raw.headers, header.isNamed "content-length" = false

/-- No field slips through. A transfer encoding is legible: it is UTF-8, is not
blank, and has only spaces and tabs around it. Every length is a row of decimal
digits for one number, which fits a machine word. -/
structure NoFieldSlips (headers : List RawHeader) : Prop where
  legible : ∀ header ∈ headers, header.isNamed "transfer-encoding" = true →
    ∃ value, Utf8.decode header.value = some value ∧ trim value ≠ [] ∧
      trim value = Text.trimWith isOptionalWhitespace value
  lengths : ∃ length < usizeBound, ∀ header ∈ headers, header.isNamed "content-length" = true →
    plainDecimal header.value = some length

/-! ## The pass over the fields -/

/-- The length that a field contributes. -/
def lengthOf (header : RawHeader) : Option Nat :=
  (Utf8.decode header.value).bind (readContentLength header)

/-- The field is seen to ask for a transfer encoding. -/
def flagsTransferEncoding (header : RawHeader) : Bool :=
  (Utf8.decode header.value).any (asksTransferEncoding header)

theorem parseHeader_framing
    {request next : ParsedRequest} {header : RawHeader}
    (parsed : parseHeader request header = some next) :
    next.contentLength = (lengthOf header).or request.contentLength ∧
      next.hasChunkedTe = (request.hasChunkedTe || flagsTransferEncoding header) := by
  unfold parseHeader at parsed
  split at parsed
  · cases parsed
  · unfold lengthOf flagsTransferEncoding
    cases decoded : Utf8.decode header.value with
    | none =>
        rw [decoded] at parsed
        cases parsed
        simp
    | some value =>
        rw [decoded] at parsed
        cases parsed
        simp [recordHeader]

/-- The last length that is read wins; a transfer encoding is flagged when some
field asks for one. -/
theorem foldlM_parseHeader_framing
    {headers : List RawHeader} {request final : ParsedRequest}
    (parsed : headers.foldlM parseHeader request = some final) :
    final.contentLength = (headers.filterMap lengthOf).getLast?.or request.contentLength ∧
      final.hasChunkedTe = (request.hasChunkedTe || headers.any flagsTransferEncoding) := by
  induction headers generalizing request with
  | nil =>
      rw [List.foldlM_nil] at parsed
      cases parsed
      simp
  | cons header rest hypothesis =>
      rw [List.foldlM_cons] at parsed
      obtain ⟨next, first, others⟩ := Option.bind_eq_some_iff.mp parsed
      obtain ⟨lengthStep, flagStep⟩ := parseHeader_framing first
      obtain ⟨lengths, flags⟩ := hypothesis others
      refine ⟨?_, ?_⟩
      · rw [lengths, lengthStep]
        cases own : lengthOf header with
        | none => simp [own]
        | some length =>
            rw [List.filterMap_cons_some own, List.getLast?_cons]
            cases (rest.filterMap lengthOf).getLast? <;> simp
      · rw [flags, flagStep, List.any_cons, Bool.or_assoc]

theorem parseRawRequest_framing
    {raw : RawRequest} {parsed : ParsedRequest}
    (accepted : parseRawRequest raw = some parsed) :
    parsed.contentLength = (raw.headers.filterMap lengthOf).getLast? ∧
      parsed.hasChunkedTe = raw.headers.any flagsTransferEncoding := by
  unfold parseRawRequest at accepted
  split at accepted
  · cases accepted
  · have framing := foldlM_parseHeader_framing accepted
    simpa [initialRequest] using framing

/-! ## One value -/

theorem isWhitespace_of_isOptionalWhitespace
    {char : Char}
    (blank : isOptionalWhitespace char = true) :
    isWhitespace char = true := by
  simp only [isOptionalWhitespace, Bool.or_eq_true, decide_eq_true_eq] at blank
  rcases blank with rfl | rfl <;> decide

/-- Trimming comes to the same when what is left holds no white space. -/
theorem trim_eq_trimWith
    {value : Text}
    (solid : ∀ char ∈ Text.trimWith isOptionalWhitespace value, isWhitespace char = false) :
    trim value = Text.trimWith isOptionalWhitespace value := by
  obtain ⟨before, after, parts, blankBefore, blankAfter⟩ :=
    Text.exists_trimWith isOptionalWhitespace value
  have trimmed := Text.trimWith_append
    (fun char member => isWhitespace_of_isOptionalWhitespace (blankBefore char member))
    (fun char member => isWhitespace_of_isOptionalWhitespace (blankAfter char member))
    solid
  rw [← parts] at trimmed
  exact trimmed

theorem isWhitespace_eq_false_of_isDigit
    {char : Char}
    (digit : char.isDigit = true) :
    isWhitespace char = false := by
  have bounds : 48 ≤ char.toNat ∧ char.toNat ≤ 57 := by
    simpa [Char.isDigit, UInt32.le_iff_toNat_le] using digit
  simp only [isWhitespace, List.contains_eq_mem, List.mem_cons, List.not_mem_nil, or_false,
    Bool.or_eq_false_iff, Bool.and_eq_false_iff, decide_eq_false_iff_not]
  omega

/-- White space has no case. -/
theorem toLower_of_isWhitespace
    {char : Char}
    (blank : isWhitespace char = true) :
    char.toLower = char := by
  unfold Char.toLower
  split
  · rename_i upper
    have bounds : 65 ≤ char.toNat ∧ char.toNat ≤ 90 := by
      simpa [UInt32.le_iff_toNat_le] using upper
    simp only [isWhitespace, List.contains_eq_mem, List.mem_cons, List.not_mem_nil, or_false,
      Bool.or_eq_true, decide_eq_true_eq, Bool.and_eq_true] at blank
    omega
  · rfl

theorem plainDecimal_eq_some_iff
    {value : Octets} {length : Nat} :
    plainDecimal value = some length ↔
      ∃ decoded, Utf8.decode value = some decoded ∧
        Text.trimWith isOptionalWhitespace decoded ≠ [] ∧
        (Text.trimWith isOptionalWhitespace decoded).all Char.isDigit = true ∧
        Decimal.value (Text.trimWith isOptionalWhitespace decoded) = length := by
  unfold plainDecimal fieldText
  cases Utf8.decode value with
  | none => simp
  | some decoded =>
      simp only [Option.map_some, Option.bind_some, Option.some.injEq, exists_eq_left']
      split
      · rename_i plain
        simp [plain]
      · rename_i notPlain
        simp only [reduceCtorEq, false_iff]
        rintro ⟨notEmpty, digits, _⟩
        exact notPlain ⟨notEmpty, digits⟩

theorem stripPlus_of_isDigit
    {digits : Text}
    (all : digits.all Char.isDigit = true) :
    stripPlus digits = digits := by
  cases digits with
  | nil => rfl
  | cons char rest =>
      rw [stripPlus, if_neg]
      rintro rfl
      simp at all

/-- A plain decimal that fits is read as its number. -/
theorem lengthOf_of_plainDecimal
    {header : RawHeader} {length : Nat}
    (named : header.isNamed "content-length" = true)
    (plain : plainDecimal header.value = some length)
    (fits : length < usizeBound) :
    lengthOf header = some length := by
  obtain ⟨decoded, decodes, notEmpty, digits, rfl⟩ := plainDecimal_eq_some_iff.mp plain
  have trimmed : trim decoded = Text.trimWith isOptionalWhitespace decoded := by
    apply trim_eq_trimWith
    intro char member
    exact isWhitespace_eq_false_of_isDigit (List.all_eq_true.mp digits char member)
  rw [lengthOf, decodes, Option.bind_some, readContentLength, if_pos named, trimmed, parseUsize,
    stripPlus_of_isDigit digits, if_pos ⟨notEmpty, digits, fits⟩]

theorem lengthOf_eq_none
    {header : RawHeader}
    (notNamed : header.isNamed "content-length" = false) :
    lengthOf header = none := by
  unfold lengthOf
  cases Utf8.decode header.value with
  | none => rfl
  | some value => simp [readContentLength, notNamed]

theorem lt_usizeBound_of_lengthOf
    {header : RawHeader} {length : Nat}
    (read : lengthOf header = some length) :
    length < usizeBound := by
  obtain ⟨value, _, reads⟩ := Option.bind_eq_some_iff.mp read
  unfold readContentLength parseUsize at reads
  simp only at reads
  split at reads
  · split at reads
    · rename_i valid
      cases reads
      exact valid.2.2
    · cases reads
  · cases reads

/-! ## The framing of a routed request -/

/-- The transfer encodings of a head that is routed are identity exactly when
they are legible. -/
theorem isIdentity_iff_legible
    {header : RawHeader}
    (named : header.isNamed "transfer-encoding" = true)
    (notFlagged : flagsTransferEncoding header = false) :
    IsIdentity header.value ↔
      ∃ value, Utf8.decode header.value = some value ∧ trim value ≠ [] ∧
        trim value = Text.trimWith isOptionalWhitespace value := by
  constructor
  · rintro ⟨encoding, trimmed, isIdentity⟩
    obtain ⟨value, decodes, rfl⟩ := Option.map_eq_some_iff.mp trimmed
    rw [Text.eqIgnoreAsciiCase_iff] at isIdentity
    have letters : ∀ char ∈ Text.trimWith isOptionalWhitespace value,
        char.toLower ∈ text "identity" := by
      intro char member
      have lowered : char.toLower ∈ Text.asciiLower (Text.trimWith isOptionalWhitespace value) :=
        List.mem_map_of_mem member
      rw [isIdentity] at lowered
      exact lowered
    have same : trim value = Text.trimWith isOptionalWhitespace value := by
      apply trim_eq_trimWith
      intro char member
      by_contra blank
      rw [Bool.not_eq_false] at blank
      have letter := letters char member
      rw [toLower_of_isWhitespace blank] at letter
      have solid : ∀ letter ∈ text "identity", isWhitespace letter = false := by decide
      rw [solid char letter] at blank
      cases blank
    refine ⟨value, decodes, ?_, same⟩
    intro blank
    rw [same] at blank
    rw [blank] at isIdentity
    exact absurd isIdentity (by decide)
  · rintro ⟨value, decodes, notBlank, same⟩
    refine ⟨trim value, ?_, ?_⟩
    · rw [fieldText, decodes, Option.map_some, same]
    · simp only [flagsTransferEncoding, decodes, Option.any_some, asksTransferEncoding, named,
        Bool.true_and, Bool.and_eq_false_iff, decide_eq_false_iff_not, Bool.not_eq_false'] at notFlagged
      exact notFlagged.resolve_left (fun blank => blank notBlank)

/-- All lengths are of one number: the length is read off as that number. -/
theorem contentLength_of_lengths
    {raw : RawRequest} {parsed : ParsedRequest} {header : RawHeader} {length : Nat}
    (accepted : parseRawRequest raw = some parsed)
    (fits : length < usizeBound)
    (plain : ∀ header ∈ raw.headers, header.isNamed "content-length" = true →
      plainDecimal header.value = some length)
    (member : header ∈ raw.headers)
    (named : header.isNamed "content-length" = true) :
    parsed.contentLength = some length := by
  have reads := lengthOf_of_plainDecimal named (plain header member named) fits
  have inLengths : length ∈ raw.headers.filterMap lengthOf :=
    List.mem_filterMap.mpr ⟨header, member, reads⟩
  rw [(parseRawRequest_framing accepted).1,
    List.getLast?_eq_some_getLast (List.ne_nil_of_mem inLengths)]
  have last := List.getLast_mem (List.ne_nil_of_mem inLengths)
  obtain ⟨source, sourceMember, sourceReads⟩ := List.mem_filterMap.mp last
  cases sourceNamed : source.isNamed "content-length" with
  | false =>
      rw [lengthOf_eq_none sourceNamed] at sourceReads
      cases sourceReads
  | true =>
      rw [lengthOf_of_plainDecimal sourceNamed (plain source sourceMember sourceNamed) fits]
        at sourceReads
      exact sourceReads.symm

/-- A routed request is framed as its fields say exactly when no field slips
through. -/
theorem framedByFields_iff
    {raw : RawRequest} {parsed : ParsedRequest}
    (accepted : parseRawRequest raw = some parsed)
    (routed : parsed.hasChunkedTe = false) :
    FramedByFields raw parsed ↔ NoFieldSlips raw.headers := by
  have framing := parseRawRequest_framing accepted
  have notFlagged : ∀ header ∈ raw.headers, flagsTransferEncoding header = false := by
    rw [framing.2] at routed
    intro header member
    exact Bool.eq_false_iff.mpr (List.any_eq_false.mp routed header member)
  constructor
  · intro framed
    refine ⟨?_, ?_⟩
    · intro header member named
      exact (isIdentity_iff_legible named (notFlagged header member)).mp
        (framed.transferEncoding header member named)
    · cases length : parsed.contentLength with
      | none =>
          refine ⟨0, by decide, ?_⟩
          intro header member named
          rw [framed.noLength length header member] at named
          cases named
      | some length' =>
          refine ⟨length', ?_, ?_⟩
          · rw [framing.1] at length
            obtain ⟨header, _, reads⟩ := List.mem_filterMap.mp (List.mem_of_getLast? length)
            exact lt_usizeBound_of_lengthOf reads
          · intro header member named
            obtain ⟨own, plain, same⟩ := framed.contentLength header member named
            rw [length] at same
            cases same
            exact plain
  · rintro ⟨legible, length, fits, plain⟩
    refine ⟨?_, ?_, ?_⟩
    · intro header member named
      exact (isIdentity_iff_legible named (notFlagged header member)).mpr
        (legible header member named)
    · intro header member named
      exact ⟨length, plain header member named,
        contentLength_of_lengths accepted fits plain member named⟩
    · intro noLength header member
      by_contra named
      rw [Bool.not_eq_false] at named
      rw [contentLength_of_lengths accepted fits plain member named] at noLength
      cases noLength

/-! ## Two lengths -/

def contentLengthField (value : String) : RawHeader where
  name := octets "Content-Length"
  value := octets value
  named := by decide

def postRequest (headers : List RawHeader) (few : headers.length ≤ maxHeaderCount) :
    RawRequest where
  method := octets "POST"
  target := octets "/items"
  version := 1
  headers := headers
  headerLength := 80
  fewHeaders := few

def parsedPost (length : Nat) (headers : List (Text × Text)) : ParsedRequest where
  method := octets "POST"
  target := octets "/items"
  path := octets "/items"
  keepAlive := true
  headerBytes := 80
  hasBody := true
  contentLength := some length
  hasChunkedTe := false
  headers := headers
  cookieHeader := none
  isWebsocketUpgrade := false
  wsKey := none
  acceptedEncoding := .identity

def identityField : RawHeader where
  name := octets "Transfer-Encoding"
  value := octets "Identity"
  named := by decide

/-- The same length twice, once with zeros in front, and the identity encoding. -/
theorem framedByFields_iff_repeated :
    FramedByFields
      (postRequest [contentLengthField "5", identityField, contentLengthField " 005"] (by decide))
      (parsedPost 5 [(text "content-length", text "5"), (text "transfer-encoding", text "Identity"),
        (text "content-length", text " 005")]) := by
  refine (framedByFields_iff (by decide) (by decide)).mpr ⟨?_, 5, by decide, ?_⟩
  · intro header member named
    simp only [postRequest, List.mem_cons, List.not_mem_nil, or_false] at member
    rcases member with rfl | rfl | rfl
    · exact absurd named (by decide)
    · exact ⟨text "Identity", by decide⟩
    · exact absurd named (by decide)
  · decide

/-- A head with two different lengths is routed with the second one. -/
theorem not_framedByFields_of_twoLengths :
    ¬ ∀ (raw : RawRequest) (parsed : ParsedRequest),
      parseRawRequest raw = some parsed → parsed.hasChunkedTe = false →
      FramedByFields raw parsed := by
  intro everywhere
  have framed := everywhere
    (postRequest [contentLengthField "40", contentLengthField "5"] (by decide))
    (parsedPost 5 [(text "content-length", text "40"), (text "content-length", text "5")])
    (by decide) (by decide)
  obtain ⟨length, plain, same⟩ := framed.contentLength (contentLengthField "40")
    List.mem_cons_self (by decide)
  cases same
  exact absurd plain (by decide)

end Parser
end HttpNative
