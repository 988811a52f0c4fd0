import HttpNative.Library.Utf8Ascii
import HttpNative.Parser.FieldLines
import HttpNative.Parser.ReferenceHead
import Mathlib.Tactic.ByContra

/-!
# The hot path and the full parser

On a head of well-formed field lines the two scanners go through the same
lines. They read them alike unless a field they look at is not UTF-8, has
Unicode white space at an end of its value, or is an `Accept-Encoding` line that
stops at its colon.
-/

namespace HttpNative
namespace Parser

/-! ## The lines of a head -/

theorem thirteen_notMem_spelling
    (line : FieldLine) :
    (13 : UInt8) ∉ line.spelling := by
  intro member
  exact (FieldLine.mem_spelling_bounds member).2 rfl

theorem fieldBlock_cons
    (line : FieldLine)
    (lines : List FieldLine) :
    fieldBlock (line :: lines) = line.spelling ++ (lineEnd ++ fieldBlock lines) := by
  rw [fieldBlock, List.flatMap_cons, List.append_assoc]
  rfl

theorem exists_spelling_eq_cons
    (line : FieldLine) :
    ∃ first rest, line.spelling = first :: rest ∧ first ≠ 13 := by
  cases spelled : line.spelling with
  | nil =>
      have long := line.two_le_length_spelling
      simp [spelled] at long
  | cons first rest =>
      refine ⟨first, rest, rfl, ?_⟩
      rintro rfl
      exact thirteen_notMem_spelling line (by simp [spelled])

/-- The end of the head stands after its last line. -/
theorem findHeaderEnd_block
    {row : Octets}
    (absent : (13 : UInt8) ∉ row)
    (lines : List FieldLine)
    (rest : Octets) :
    findHeaderEnd (row ++ (lineEnd ++ (fieldBlock lines ++ (lineEnd ++ rest)))) =
      some (row.length + (fieldBlock lines).length) := by
  induction lines generalizing row with
  | nil =>
      have here : [13, 10, 13, 10] <+: lineEnd ++ (fieldBlock [] ++ (lineEnd ++ rest)) :=
        ⟨rest, rfl⟩
      rw [findHeaderEnd, Octets.find_append_of_head_notMem absent,
        Octets.find_of_isPrefixOf here (by simp)]
      simp [fieldBlock]
  | cons line lines hypothesis =>
      obtain ⟨first, others, spelled, notReturn⟩ := exists_spelling_eq_cons line
      have inner := hypothesis (thirteen_notMem_spelling line)
      rw [findHeaderEnd] at inner ⊢
      rw [fieldBlock_cons, Octets.find_append_of_head_notMem absent, lineEnd]
      simp only [List.append_assoc, List.cons_append, List.nil_append]
      rw [spelled] at inner ⊢
      have notReturn' : (13 : UInt8) ≠ first := Ne.symm notReturn
      rw [Octets.find, if_neg (by simp [List.isPrefixOf, notReturn']), Octets.find,
        if_neg (by simp [List.isPrefixOf])]
      rw [lineEnd] at inner
      simp only [List.cons_append, List.nil_append] at inner ⊢
      rw [inner]
      simp only [Option.map_some, List.length_cons, List.length_append, Option.some.injEq]
      omega

/-- The loop takes one line after the other into account. -/
theorem scanLines_fieldBlock
    (config : HotConfig)
    {fuel : Nat} {lines : List FieldLine}
    (enough : lines.length < fuel)
    (request : ParsedRequest) :
    scanLines config fuel request (fieldBlock lines) =
      some (lines.foldl (fun request line => scanLine config request line.spelling) request) := by
  induction lines generalizing fuel request with
  | nil =>
      cases fuel with
      | zero => simp at enough
      | succ fuel => simp [scanLines, fieldBlock]
  | cons line lines hypothesis =>
      cases fuel with
      | zero => simp at enough
      | succ fuel =>
          have long := line.two_le_length_spelling
          have found : Octets.find lineEnd (fieldBlock (line :: lines)) =
              some line.spelling.length := by
            rw [fieldBlock_cons, lineEnd,
              Octets.find_append_of_head_notMem (thirteen_notMem_spelling line),
              Octets.find_of_isPrefixOf (List.prefix_append _ _) (by simp)]
            simp
          have longEnough : ¬ (fieldBlock (line :: lines)).length < 4 := by
            rw [fieldBlock_cons, lineEnd]
            simp only [List.length_append, List.length_cons, List.length_nil]
            omega
          rw [scanLines, if_neg longEnough, found]
          simp only
          rw [if_neg (by omega), fieldBlock_cons, List.take_left,
            ← List.append_assoc, List.drop_left' (by simp [lineEnd]),
            hypothesis (by simpa using enough)]
          rfl

theorem length_le_fieldBlock
    (lines : List FieldLine) :
    lines.length ≤ (fieldBlock lines).length := by
  induction lines with
  | nil => simp
  | cons line lines hypothesis =>
      rw [fieldBlock_cons]
      have long := line.two_le_length_spelling
      simp only [List.length_append, List.length_cons]
      omega

/-- What the hot path makes of a head of field lines. -/
theorem parseHotRootRequest_headOctets
    {minor : Nat}
    (known : minor ≤ 1)
    (lines : List FieldLine)
    (rest : Octets) :
    parseHotRootRequest defaultHotConfig (headOctets minor lines ++ rest) =
      some (lines.foldl (fun request line => scanLine defaultHotConfig request line.spelling)
        (hotRequest (decide (1 ≤ minor)) (headOctets minor lines).length)) := by
  have sixteen : (requestLine minor).length = 16 := by
    rw [requestLine_eq known]
    rfl
  have spelled : headOctets minor lines ++ rest =
      requestLine minor ++ (fieldBlock lines ++ (lineEnd ++ rest)) := by
    simp [headOctets]
  have total : (headOctets minor lines).length = 16 + (fieldBlock lines).length + 2 := by
    simp only [headOctets, List.length_append, sixteen]
    rfl
  have persistence : hotKeepAlive defaultHotConfig (headOctets minor lines ++ rest) =
      some (decide (1 ≤ minor)) := by
    rw [spelled]
    have cases_ : minor = 0 ∨ minor = 1 := by omega
    rcases cases_ with rfl | rfl <;> rfl
  have headerEnd : findHeaderEnd (headOctets minor lines ++ rest) =
      some (14 + (fieldBlock lines).length) := by
    rw [spelled, requestLine_eq known, List.append_assoc]
    apply findHeaderEnd_block
    have cases_ : minor = 0 ∨ minor = 1 := by omega
    rcases cases_ with rfl | rfl <;> decide
  have newline : (headOctets minor lines ++ rest).findIdx? (· = 10) = some 15 := by
    rw [spelled]
    have cases_ : minor = 0 ∨ minor = 1 := by omega
    rcases cases_ with rfl | rfl <;> rfl
  have remaining : ((headOctets minor lines ++ rest).take
      (14 + (fieldBlock lines).length + 2)).drop (15 + 1) = fieldBlock lines := by
    rw [spelled, show 14 + (fieldBlock lines).length + 2 =
      (requestLine minor).length + (fieldBlock lines).length by omega, List.take_length_add_append,
      List.take_left, List.drop_left' sixteen]
  have enough : lines.length < (headOctets minor lines ++ rest).length := by
    have bound := length_le_fieldBlock lines
    rw [List.length_append, total]
    omega
  simp only [parseHotRootRequest, persistence, headerEnd, newline, Option.bind_eq_bind,
    Option.bind_some, remaining]
  rw [scanLines_fieldBlock _ enough, total]
  congr 3
  omega

/-! ## The value of a line -/

theorem isAsciiWhitespace_of_isBlankOctet
    {octet : UInt8}
    (blank : isBlankOctet octet = true) :
    Octets.isAsciiWhitespace octet = true := by
  simp only [isBlankOctet, Bool.or_eq_true, beq_iff_eq] at blank
  simp only [Octets.isAsciiWhitespace, List.contains_eq_mem, List.mem_cons, List.not_mem_nil,
    or_false, decide_eq_true_eq]
  omega

theorem isAsciiWhitespace_eq_false
    {octet : UInt8}
    (admitted : isValueOctet octet = true)
    (solid : isBlankOctet octet = false) :
    Octets.isAsciiWhitespace octet = false := by
  simp only [isBlankOctet, Bool.or_eq_false_iff, beq_eq_false_iff_ne, ne_eq] at solid
  simp only [isValueOctet, Bool.or_eq_true, beq_iff_eq, Bool.and_eq_true, decide_eq_true_eq,
    bne_iff_ne, ne_eq] at admitted
  simp only [Octets.isAsciiWhitespace, List.contains_eq_mem, List.mem_cons, List.not_mem_nil,
    or_false, decide_eq_false_iff_not]
  omega

theorem trimAscii_tail
    (line : FieldLine) :
    Octets.trimAscii line.tail = line.value := by
  apply Octets.trimWith_append
  · intro octet member
    exact isAsciiWhitespace_of_isBlankOctet (line.blankBefore octet member)
  · intro octet member
    exact isAsciiWhitespace_of_isBlankOctet (line.blankAfter octet member)
  · intro octet first
    exact isAsciiWhitespace_eq_false (line.admitted octet (List.mem_of_head? first))
      (line.solidStart octet first)
  · intro octet last
    exact isAsciiWhitespace_eq_false (line.admitted octet (List.mem_of_getLast? last))
      (line.solidEnd octet last)

theorem lower_of_isBlankOctet
    {octet : UInt8}
    (blank : isBlankOctet octet = true) :
    isBlankOctet (Octets.lower octet) = true := by
  simp only [isBlankOctet, Bool.or_eq_true, beq_iff_eq] at blank ⊢
  have lowered := Octets.toNat_lower octet
  omega

/-- The blanks around a value do not matter when a word is looked for. -/
theorem containsAsciiCaseInsensitive_tail
    (line : FieldLine)
    {needle : Octets}
    (word : ∀ octet ∈ Octets.asciiLower needle, isBlankOctet octet = false) :
    containsAsciiCaseInsensitive line.tail needle =
      containsAsciiCaseInsensitive line.value needle := by
  unfold containsAsciiCaseInsensitive
  split
  · rfl
  · rename_i notEmpty
    have lowerNotEmpty : Octets.asciiLower needle ≠ [] := by
      simpa [Octets.asciiLower] using notEmpty
    have absent : ∀ blanks : Octets, (∀ octet ∈ blanks, isBlankOctet octet = true) →
        ∀ octet ∈ Octets.asciiLower blanks, octet ∉ Octets.asciiLower needle := by
      intro blanks blank octet member inNeedle
      obtain ⟨source, sourceMember, rfl⟩ := List.mem_map.mp member
      have isBlank := lower_of_isBlankOctet (blank source sourceMember)
      rw [word _ inNeedle] at isBlank
      cases isBlank
    rw [FieldLine.tail, Octets.asciiLower_append, Octets.asciiLower_append,
      Octets.includes_append_right lowerNotEmpty (absent _ line.blankAfter),
      Octets.includes_append_left lowerNotEmpty (absent _ line.blankBefore)]

/-! ## The name of a line -/

theorem startsIgnoringCase_cons
    (head other : UInt8)
    (start line : Octets) :
    startsIgnoringCase (head :: start) (other :: line) =
      (Octets.lower other == Octets.lower head && startsIgnoringCase start line) := by
  simp only [startsIgnoringCase, List.length_cons, Nat.add_le_add_iff_right, List.take_succ_cons,
    Octets.eqIgnoreAsciiCase, Octets.asciiLower, List.map_cons, List.cons_beq_cons]
  cases decide (start.length ≤ line.length) <;> simp

theorem lower_eq_colon
    {octet : UInt8}
    (same : Octets.lower octet = 58) :
    octet = 58 := by
  apply UInt8.toNat_inj.mp
  have lowered := Octets.toNat_lower octet
  rw [same] at lowered
  change (58 : Nat) = octet.toNat ∨ _ at lowered
  change octet.toNat = 58
  change _ ∨ (65 ≤ octet.toNat ∧ octet.toNat ≤ 90 ∧ 58 = octet.toNat + 32) at lowered
  omega

/-- A line starts with a key and a colon when the key is its name. -/
theorem startsIgnoringCase_colon
    {key name : Octets}
    (keyColon : 58 ∉ key)
    (nameColon : 58 ∉ name)
    (tail : Octets) :
    startsIgnoringCase (key ++ [58]) (name ++ 58 :: tail) = Octets.eqIgnoreAsciiCase name key := by
  induction key generalizing name with
  | nil =>
      cases name with
      | nil =>
          rw [List.nil_append, List.nil_append, startsIgnoringCase_cons]
          simp [startsIgnoringCase, Octets.eqIgnoreAsciiCase]
      | cons first name =>
          have different : Octets.lower first ≠ 58 := by
            intro same
            exact nameColon (by simp [lower_eq_colon same])
          rw [List.nil_append, List.cons_append, startsIgnoringCase_cons,
            show Octets.lower 58 = 58 by rfl]
          simp [different, Octets.eqIgnoreAsciiCase, Octets.asciiLower]
  | cons head key hypothesis =>
      obtain ⟨notHead, keyColon⟩ := List.ne_and_not_mem_of_not_mem_cons keyColon
      cases name with
      | nil =>
          have different : (58 : UInt8) ≠ Octets.lower head := by
            intro same
            exact notHead (lower_eq_colon same.symm).symm
          rw [List.cons_append, List.nil_append, startsIgnoringCase_cons,
            show Octets.lower 58 = 58 by rfl]
          simp [different, Octets.eqIgnoreAsciiCase, Octets.asciiLower]
      | cons first name =>
          obtain ⟨_, nameColon⟩ := List.ne_and_not_mem_of_not_mem_cons nameColon
          rw [List.cons_append, List.cons_append, startsIgnoringCase_cons,
            hypothesis keyColon nameColon]
          simp only [Octets.eqIgnoreAsciiCase, Octets.asciiLower, List.map_cons, List.cons_beq_cons]

theorem colon_notMem_name
    (line : FieldLine) :
    58 ∉ line.name := by
  intro member
  exact (FieldLine.token_bounds (line.token 58 member)).2.2 rfl

/-- A configured prefix is the name of a field and a colon. -/
theorem startsIgnoringCase_spelling
    (line : FieldLine)
    (key : String)
    (keyColon : 58 ∉ octets key) :
    startsIgnoringCase (octets key ++ [58]) line.spelling = line.header.isNamed key :=
  startsIgnoringCase_colon keyColon (colon_notMem_name line) line.tail

theorem drop_spelling
    {line : FieldLine} {key : String}
    (named : line.header.isNamed key = true) :
    line.spelling.drop (octets key ++ [58]).length = line.tail := by
  have sameLength : line.name.length = (octets key).length := by
    have same := beq_iff_eq.mp named
    have lengths := congrArg List.length same
    simpa [Octets.asciiLower, FieldLine.header] using lengths
  rw [FieldLine.spelling, List.length_append, List.length_singleton, ← sameLength,
    ← List.drop_drop, List.drop_left, List.drop_one, List.tail_cons]

/-! ## The configured prefixes -/

theorem headerConnectionPrefix_eq :
    defaultHotConfig.headerConnectionPrefix = octets "connection" ++ [58] := by
  decide

theorem headerContentLengthPrefix_eq :
    defaultHotConfig.headerContentLengthPrefix = octets "content-length" ++ [58] := by
  decide

theorem headerTransferEncodingPrefix_eq :
    defaultHotConfig.headerTransferEncodingPrefix = octets "transfer-encoding" ++ [58] := by
  decide

theorem acceptEncodingPrefix_eq :
    octets "accept-encoding:" = octets "accept-encoding" ++ [58] := by
  decide

/-! ## A value as octets and as text -/

theorem decoded_eq_nil_iff
    {value : Octets} {decoded : Text}
    (decodes : Utf8.decode value = some decoded) :
    value = [] ↔ decoded = [] := by
  constructor
  · rintro rfl
    cases decodes
    rfl
  · rintro rfl
    have own := (Utf8.eq_toText_of_decode decodes (by simp)).1
    exact List.map_eq_nil_iff.mp own

/-! ## One line -/

/-- The fields that both parsers fill. -/
structure SameRequest (hot full : ParsedRequest) : Prop where
  method : hot.method = full.method
  target : hot.target = full.target
  path : hot.path = full.path
  keepAlive : hot.keepAlive = full.keepAlive
  headerBytes : hot.headerBytes = full.headerBytes
  hasBody : hot.hasBody = full.hasBody
  contentLength : hot.contentLength = full.contentLength
  hasChunkedTe : hot.hasChunkedTe = full.hasChunkedTe
  acceptedEncoding : hot.acceptedEncoding = full.acceptedEncoding

/-- A field that the hot path looks at. -/
def RawHeader.isWatched (header : RawHeader) : Bool :=
  header.isNamed "connection" || header.isNamed "content-length" ||
    header.isNamed "transfer-encoding" || header.isNamed "accept-encoding"

/-- A line that both scanners read alike. -/
structure ReadAlike (line : FieldLine) : Prop where
  short : line.value.length ≤ maxHeaderValueLength
  wellFormed : line.header.isWatched = true → ∃ value, Utf8.decode line.value = some value
  trimmed : line.header.isNamed "content-length" = true ∨
      line.header.isNamed "transfer-encoding" = true →
    ∀ value, Utf8.decode line.value = some value → trim value = value
  offers : line.header.isNamed "accept-encoding" = true → line.tail ≠ []

/-- A field has one name. -/
theorem isNamed_unique
    {header : RawHeader} {key : String}
    (named : header.isNamed key = true)
    (other : String)
    (different : Octets.asciiLower (octets key) ≠ Octets.asciiLower (octets other)) :
    header.isNamed other = false := by
  rw [RawHeader.isNamed, Octets.eqIgnoreAsciiCase, beq_iff_eq] at named
  rw [RawHeader.isNamed, Octets.eqIgnoreAsciiCase, beq_eq_false_iff_ne, named]
  exact different

theorem readHotLength_tail
    {line : FieldLine} {value : Text}
    (decodes : Utf8.decode line.value = some value)
    (trimmed : trim value = value) :
    readHotLength line.tail = parseUsize (trim value) := by
  rw [readHotLength, trimAscii_tail, decodes, Option.bind_some, trimmed]

theorem asksHotTransferEncoding_tail
    {line : FieldLine} {value : Text}
    (decodes : Utf8.decode line.value = some value)
    (trimmed : trim value = value) :
    asksHotTransferEncoding line.tail =
      (decide (trim value ≠ []) && !Text.eqIgnoreAsciiCase (trim value) (text "identity")) := by
  have word : Octets.toText (octets "identity") = text "identity" := by decide
  rw [asksHotTransferEncoding, trimAscii_tail, trimmed,
    Utf8.eqIgnoreAsciiCase_decoded decodes (by decide), word]
  simp only [ne_eq, decoded_eq_nil_iff decodes]

theorem readConnection_tail
    (line : FieldLine)
    (keepAlive : Bool) :
    readConnection keepAlive line.tail = readConnection keepAlive line.value := by
  rw [readConnection, readConnection, containsAsciiCaseInsensitive_tail line (by decide),
    containsAsciiCaseInsensitive_tail line (by decide)]

/-- The test of the hot path for an `Accept-Encoding` line looks at its first 16
octets. -/
theorem offersHotEncoding_spelling
    (line : FieldLine) :
    (17 ≤ line.spelling.length ∧
      Octets.eqIgnoreAsciiCase (line.spelling.take 16) (octets "accept-encoding:") = true) ↔
    (17 ≤ line.spelling.length ∧ line.header.isNamed "accept-encoding" = true) := by
  have sixteen : (octets "accept-encoding:").length = 16 := by decide
  rw [← startsIgnoringCase_spelling line "accept-encoding" (by decide),
    ← acceptEncodingPrefix_eq, startsIgnoringCase, sixteen]
  constructor
  · rintro ⟨long, starts⟩
    refine ⟨long, ?_⟩
    rw [Bool.and_eq_true, decide_eq_true_eq]
    exact ⟨Nat.le_of_succ_le long, starts⟩
  · rintro ⟨long, starts⟩
    rw [Bool.and_eq_true] at starts
    exact ⟨long, starts.2⟩

/-- What the hot path makes of a line, by the name of its field. -/
theorem scanLine_spelling
    (line : FieldLine)
    (request : ParsedRequest) :
    scanLine defaultHotConfig request line.spelling =
      if line.header.isNamed "connection" then
        { request with keepAlive := readConnection request.keepAlive line.value }
      else if line.header.isNamed "content-length" then
        { request with
          contentLength := (readHotLength line.tail).or request.contentLength
          hasBody := request.hasBody || (readHotLength line.tail).any (0 < ·) }
      else if line.header.isNamed "transfer-encoding" then
        { request with
          hasBody := request.hasBody || asksHotTransferEncoding line.tail
          hasChunkedTe := request.hasChunkedTe || asksHotTransferEncoding line.tail }
      else if request.acceptedEncoding ≠ .brotli ∧ 17 ≤ line.spelling.length ∧
          line.header.isNamed "accept-encoding" then
        { request with acceptedEncoding := parseAcceptEncoding line.value }
      else
        request := by
  rw [scanLine, headerConnectionPrefix_eq, headerContentLengthPrefix_eq,
    headerTransferEncodingPrefix_eq, startsIgnoringCase_spelling line _ (by decide),
    startsIgnoringCase_spelling line _ (by decide),
    startsIgnoringCase_spelling line _ (by decide)]
  by_cases connectionNamed : line.header.isNamed "connection" = true
  · rw [if_pos connectionNamed, if_pos connectionNamed, drop_spelling connectionNamed,
      readConnection_tail]
  rw [if_neg connectionNamed, if_neg connectionNamed]
  by_cases lengthNamed : line.header.isNamed "content-length" = true
  · rw [if_pos lengthNamed, if_pos lengthNamed, drop_spelling lengthNamed]
  rw [if_neg lengthNamed, if_neg lengthNamed]
  by_cases encodingNamed : line.header.isNamed "transfer-encoding" = true
  · rw [if_pos encodingNamed, if_pos encodingNamed, drop_spelling encodingNamed]
  rw [if_neg encodingNamed, if_neg encodingNamed]
  simp only [offersHotEncoding_spelling]
  by_cases offered : request.acceptedEncoding ≠ .brotli ∧ 17 ≤ line.spelling.length ∧
      line.header.isNamed "accept-encoding" = true
  · have rest : line.spelling.drop 16 = line.tail := drop_spelling offered.2.2
    rw [if_pos offered, if_pos offered, rest, trimAscii_tail]
  · rw [if_neg offered, if_neg offered]

theorem length_spelling_of_acceptEncoding
    {line : FieldLine}
    (named : line.header.isNamed "accept-encoding" = true)
    (offers : line.tail ≠ []) :
    17 ≤ line.spelling.length := by
  have sameLength : line.name.length = 15 := by
    have lengths := congrArg List.length (beq_iff_eq.mp named)
    rw [Octets.asciiLower, Octets.asciiLower, List.length_map, List.length_map] at lengths
    exact lengths
  have someTail := List.length_pos_iff.mpr offers
  rw [FieldLine.spelling, List.length_append, List.length_cons, sameLength]
  omega

/-- A line that is read alike keeps the two requests the same. -/
theorem SameRequest.line
    {hot full : ParsedRequest} {line : FieldLine}
    (same : SameRequest hot full)
    (alike : ReadAlike line) :
    ∃ next, parseHeader full line.header = some next ∧
      SameRequest (scanLine defaultHotConfig hot line.spelling) next := by
  have notLong : ¬ line.header.value.length > maxHeaderValueLength := Nat.not_lt.mpr alike.short
  rw [parseHeader, if_neg notLong, scanLine_spelling]
  cases decodes : Utf8.decode line.header.value with
  | none =>
      have unwatched : line.header.isWatched = false := by
        by_contra watched
        rw [Bool.not_eq_false] at watched
        obtain ⟨value, decoded⟩ := alike.wellFormed watched
        exact absurd (decodes.symm.trans decoded) (by simp)
      simp only [RawHeader.isWatched, Bool.or_eq_false_iff] at unwatched
      refine ⟨full, rfl, ?_⟩
      simpa [unwatched] using same
  | some value =>
      refine ⟨recordHeader full line.header value, rfl, ?_⟩
      have trimmed := alike.trimmed
      have fields : line.header.value = line.value := rfl
      by_cases connection : line.header.isNamed "connection" = true
      · have noLength := isNamed_unique connection "content-length" (by decide)
        have noEncoding := isNamed_unique connection "transfer-encoding" (by decide)
        have noAccept := isNamed_unique connection "accept-encoding" (by decide)
        rw [if_pos connection]
        constructor <;>
          simp [recordHeader, readContentLength, asksTransferEncoding, fields, connection,
            noLength, noEncoding, noAccept, same.method, same.target, same.path, same.keepAlive,
            same.headerBytes, same.hasBody, same.contentLength, same.hasChunkedTe,
            same.acceptedEncoding]
      rw [if_neg connection]
      by_cases contentLength : line.header.isNamed "content-length" = true
      · have noEncoding := isNamed_unique contentLength "transfer-encoding" (by decide)
        have noAccept := isNamed_unique contentLength "accept-encoding" (by decide)
        have reads := readHotLength_tail decodes (trimmed (.inl contentLength) value decodes)
        rw [if_pos contentLength]
        constructor <;>
          simp [recordHeader, readContentLength, asksTransferEncoding, connection, contentLength,
            noEncoding, noAccept, reads, same.method, same.target, same.path, same.keepAlive,
            same.headerBytes, same.hasBody, same.contentLength, same.hasChunkedTe,
            same.acceptedEncoding]
      rw [if_neg contentLength]
      by_cases transferEncoding : line.header.isNamed "transfer-encoding" = true
      · have noAccept := isNamed_unique transferEncoding "accept-encoding" (by decide)
        have asks := asksHotTransferEncoding_tail decodes
          (trimmed (.inr transferEncoding) value decodes)
        rw [if_pos transferEncoding]
        constructor <;>
          simp [recordHeader, readContentLength, asksTransferEncoding, connection, contentLength,
            transferEncoding, noAccept, asks, same.method, same.target,
            same.path, same.keepAlive, same.headerBytes, same.hasBody, same.contentLength,
            same.hasChunkedTe, same.acceptedEncoding]
      rw [if_neg transferEncoding]
      have acceptEncoding : (full.acceptedEncoding ≠ .brotli ∧ 17 ≤ line.spelling.length ∧
          line.header.isNamed "accept-encoding" = true) ↔
          (full.acceptedEncoding ≠ .brotli ∧ line.header.isNamed "accept-encoding" = true) := by
        constructor
        · rintro ⟨notBrotli, _, named⟩
          exact ⟨notBrotli, named⟩
        · rintro ⟨notBrotli, named⟩
          exact ⟨notBrotli, length_spelling_of_acceptEncoding named (alike.offers named), named⟩
      simp only [same.acceptedEncoding, acceptEncoding]
      constructor <;> split <;> rename_i offered <;>
        simp [recordHeader, readContentLength, asksTransferEncoding, fields, connection,
          contentLength, transferEncoding, offered, same.method, same.target, same.path,
          same.keepAlive, same.headerBytes, same.hasBody, same.contentLength,
          same.hasChunkedTe, same.acceptedEncoding]

/-! ## Whole heads -/

/-- A head that both scanners read alike. -/
def PlainHead (bytes : Octets) : Prop :=
  ∃ (minor : Nat) (lines : List FieldLine) (rest : Octets),
    minor ≤ 1 ∧ lines.length ≤ maxHeaderCount ∧ (∀ line ∈ lines, ReadAlike line) ∧
      bytes = headOctets minor lines ++ rest

theorem SameRequest.lines
    {hot full : ParsedRequest} {lines : List FieldLine}
    (same : SameRequest hot full)
    (alike : ∀ line ∈ lines, ReadAlike line) :
    ∃ final, (lines.map FieldLine.header).foldlM parseHeader full = some final ∧
      SameRequest
        (lines.foldl (fun request line => scanLine defaultHotConfig request line.spelling) hot)
        final := by
  induction lines generalizing hot full with
  | nil => exact ⟨full, rfl, same⟩
  | cons line lines hypothesis =>
      obtain ⟨next, parsed, nextSame⟩ := same.line (alike line List.mem_cons_self)
      obtain ⟨final, rest, finalSame⟩ :=
        hypothesis nextSame fun other member => alike other (List.mem_cons_of_mem _ member)
      refine ⟨final, ?_, finalSame⟩
      rw [List.map_cons, List.foldlM_cons, parsed]
      exact rest

/-- On a plain head the hot path and the full parser agree. -/
theorem sameRequest_of_plainHead
    {httparse : Octets → Option RawRequest} {bytes : Octets} {hot : ParsedRequest}
    (reads : HttparseReads httparse)
    (plain : PlainHead bytes)
    (hotParsed : parseHotRootRequest defaultHotConfig bytes = some hot) :
    ∃ full, parseRequestHttparse httparse bytes = some full ∧ SameRequest hot full := by
  obtain ⟨minor, lines, rest, known, few, alike, rfl⟩ := plain
  rw [parseHotRootRequest_headOctets known] at hotParsed
  cases hotParsed
  have fewHeaders : (lines.map FieldLine.header).length ≤ maxHeaderCount := by
    rwa [List.length_map]
  have complete := reads.complete minor lines rest fewHeaders known
  have start : SameRequest (hotRequest (decide (1 ≤ minor)) (headOctets minor lines).length)
      (initialRequest {
        method := octets "GET"
        target := octets "/"
        version := minor
        headers := lines.map FieldLine.header
        headerLength := (headOctets minor lines).length
        fewHeaders := fewHeaders }) := by
    constructor <;> rfl
  obtain ⟨full, parsed, same⟩ := start.lines alike
  have shortTarget : ¬ (octets "/").length > maxUrlLength := by decide
  refine ⟨full, ?_, same⟩
  rw [parseRequestHttparse, complete, Option.bind_some, parseRawRequest, if_neg shortTarget]
  exact parsed

/-! ## A value that is not UTF-8 -/

def hostLine : FieldLine where
  name := octets "Host"
  before := octets " "
  value := octets "example"
  after := []
  named := by decide
  token := by decide
  blankBefore := by decide
  blankAfter := by decide
  admitted := by decide
  solidStart := by decide
  solidEnd := by decide

/-- `Connection: close` and an octet that is no UTF-8. -/
def closingLine : FieldLine where
  name := octets "Connection"
  before := octets " "
  value := octets "close" ++ [255]
  after := []
  named := by decide
  token := by decide
  blankBefore := by decide
  blankAfter := by decide
  admitted := by decide
  solidStart := by decide
  solidEnd := by decide

/-- `Connection: close` -/
def closeLine : FieldLine where
  name := octets "Connection"
  before := octets " "
  value := octets "close"
  after := []
  named := by decide
  token := by decide
  blankBefore := by decide
  blankAfter := by decide
  admitted := by decide
  solidStart := by decide
  solidEnd := by decide

/-- `Accept-Encoding: gzip, br;q=0` -/
def encodingLine : FieldLine where
  name := octets "Accept-Encoding"
  before := octets " "
  value := octets "gzip, br;q=0"
  after := []
  named := by decide
  token := by decide
  blankBefore := by decide
  blankAfter := by decide
  admitted := by decide
  solidStart := by decide
  solidEnd := by decide

theorem readAlike_hostLine : ReadAlike hostLine where
  short := by decide
  wellFormed := fun watched => absurd watched (by decide)
  trimmed := fun named => absurd named (by decide)
  offers := fun named => absurd named (by decide)

theorem readAlike_closeLine : ReadAlike closeLine where
  short := by decide
  wellFormed := fun _ => ⟨text "close", by decide⟩
  trimmed := fun named => absurd named (by decide)
  offers := fun named => absurd named (by decide)

theorem readAlike_encodingLine : ReadAlike encodingLine where
  short := by decide
  wellFormed := fun _ => ⟨text "gzip, br;q=0", by decide⟩
  trimmed := fun named => absurd named (by decide)
  offers := fun _ => by decide

theorem plainHead_close :
    PlainHead (headOctets 1 [hostLine, closeLine, encodingLine] ++ []) := by
  refine ⟨1, [hostLine, closeLine, encodingLine], [], by decide, by decide, ?_, rfl⟩
  intro line member
  simp only [List.mem_cons, List.not_mem_nil, or_false] at member
  rcases member with rfl | rfl | rfl
  · exact readAlike_hostLine
  · exact readAlike_closeLine
  · exact readAlike_encodingLine

/-- A head with two fields that both scanners look at. -/
theorem sameRequest_of_plainHead_close :
    ∃ full, parseRequestHttparse readHead
        (headOctets 1 [hostLine, closeLine, encodingLine] ++ []) = some full ∧
      SameRequest { hotRequest false 83 with acceptedEncoding := .gzip } full :=
  sameRequest_of_plainHead httparseReads_readHead plainHead_close (by decide)

/-- The hot path closes the connection, the full parser keeps it. -/
theorem not_sameRequest_of_invalidUtf8 :
    ¬ ∀ (httparse : Octets → Option RawRequest) (bytes : Octets) (hot : ParsedRequest),
      HttparseReads httparse → parseHotRootRequest defaultHotConfig bytes = some hot →
      ∃ full, parseRequestHttparse httparse bytes = some full ∧ SameRequest hot full := by
  intro everywhere
  obtain ⟨full, parsed, same⟩ := everywhere readHead (headOctets 1 [closingLine] ++ [])
    (hotRequest false 38) httparseReads_readHead (by decide)
  have kept : (parseRequestHttparse readHead (headOctets 1 [closingLine] ++ [])).map
      ParsedRequest.keepAlive = some true := by
    decide
  rw [parsed, Option.map_some, ← same.keepAlive] at kept
  exact absurd kept (by decide)

end Parser
end HttpNative
