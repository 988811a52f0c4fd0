import HttpNative.Library.Utf8Ascii
import HttpNative.Response.ConnectionAnswers
import HttpNative.Response.ReadingBack

/-!
# Static responses on streams

Static responses are kept as the octets of an HTTP/1.1 response. The handlers of
HTTP/2 and HTTP/3 read them back line by line, up to the first empty line, and send
what they have read.
-/

namespace HttpNative
namespace Response

open Envelope (AcceptedEncoding CompressionConfig Header StatusCodes connectionValue crlf
  decimalOctets encodingHeaderValue statusCodes statusLine)
open MessageHead (fieldLine lineEnd readLines)

/-- A response as it is sent on a stream. -/
structure StreamedResponse where
  status : Nat
  headers : List Header
  body : Octets
deriving DecidableEq

/-! ## Reading the stored octets -/

/-- `str::parse::<u16>`. -/
def parseU16 (input : Text) : Option Nat :=
  let digits := Parser.stripPlus input
  if digits ≠ [] ∧ digits.all Char.isDigit ∧ Decimal.value digits < 65536 then
    some (Decimal.value digits)
  else
    none

def stripReturn (line : Octets) : Octets :=
  if line.getLast? = some 13 then line.dropLast else line

def sectionLines (headerSection : Octets) : List Octets :=
  (headerSection.splitOn 10).map stripReturn

/-- The second of the parts that `splitn` makes at the blanks. -/
def secondPart (line : Octets) : Option Octets :=
  match line.dropWhile (· ≠ 32) with
  | [] => none
  | _ :: rest => some (rest.takeWhile (· ≠ 32))

def actualStatus (codes : StatusCodes) (headerSection : Octets) : Nat :=
  ((((sectionLines headerSection).head?.bind secondPart).bind fun part =>
    (Utf8.decode part).bind parseU16).bind codes.fromU16).getD 200

/-- A line that is neither empty nor a status line, cut at its first colon; one blank
behind the colon is dropped. -/
def readField (line : Octets) : Option Header :=
  if (octets "HTTP/").isPrefixOf line ∨ line = [] then
    none
  else
    match line.dropWhile (· ≠ 58) with
    | [] => none
    | _ :: rest =>
        some (line.takeWhile (· ≠ 58), if rest.head? = some 32 then rest.tail else rest)

/-- The name and the value are UTF-8. -/
def isUtf8 (header : Header) : Bool :=
  (Utf8.decode header.1).isSome && (Utf8.decode header.2).isSome

/-- The fields that are handed to the builder. -/
def forwardedFields (skipped : List Octets) (headerSection : Octets) : List Header :=
  ((sectionLines headerSection).filterMap readField).filter fun header =>
    !isManaged skipped header && isUtf8 header

/-! ## Sending -/

section Sending

-- what the builder makes of a field, if it takes it
variable (codes : StatusCodes) (accept : Header → Option Header)

/-- The common part of the two handlers. -/
def sendStaticResponse
    (skipped : List Octets)
    (fallback : StreamedResponse)
    (response : Octets) : Option StreamedResponse :=
  match Octets.find (crlf ++ crlf) response with
  | none => some fallback
  | some headerEnd =>
      ((forwardedFields skipped (response.take headerEnd)).mapM accept).map fun headers =>
        { status := actualStatus codes (response.take headerEnd)
          headers := headers
          body := response.drop (headerEnd + 4) }

/-- `send_h2_static_response`. -/
def sendH2StaticResponse
    (route : ExactStaticRoute)
    (encoding : AcceptedEncoding) : Option StreamedResponse :=
  let response := exactStaticResponse route true encoding
  sendStaticResponse codes accept [connection, transferEncoding]
    { status := 200, headers := [], body := response } response

/-- `send_h3_static_response`. -/
def sendH3StaticResponse
    (route : ExactStaticRoute)
    (encoding : AcceptedEncoding) : Option StreamedResponse :=
  sendStaticResponse codes accept [connection, transferEncoding, octets "keep-alive"]
    { status := 500, headers := [], body := octets "\x7b\"error\":\"Internal Server Error\"\x7d" }
    (exactStaticResponse route true encoding)

end Sending

/-! ## What is to be sent -/

/-- The octets of a token: letters, digits, and some others. -/
def isTokenOctet (octet : UInt8) : Bool :=
  (48 ≤ octet.toNat && octet.toNat ≤ 57) || (65 ≤ octet.toNat && octet.toNat ≤ 90) ||
    (97 ≤ octet.toNat && octet.toNat ≤ 122) ||
      [33, 35, 36, 37, 38, 39, 42, 43, 45, 46, 94, 95, 96, 124, 126].contains octet.toNat

def isValueOctet (octet : UInt8) : Bool :=
  (32 ≤ octet.toNat && octet.toNat ≠ 127) || octet.toNat = 9

/-- A field with a valid name and a valid value, which is text. -/
structure IsValidField (header : Header) : Prop where
  named : header.1 ≠ []
  name : ∀ octet ∈ header.1, isTokenOctet octet = true
  value : ∀ octet ∈ header.2, isValueOctet octet = true
  text : (Utf8.decode header.2).isSome = true

instance (header : Header) : Decidable (IsValidField header) :=
  decidable_of_iff
    (header.1 ≠ [] ∧ (∀ octet ∈ header.1, isTokenOctet octet = true) ∧
      (∀ octet ∈ header.2, isValueOctet octet = true) ∧ (Utf8.decode header.2).isSome = true)
    ⟨fun ⟨named, name, value, text⟩ => ⟨named, name, value, text⟩,
      fun valid => ⟨valid.named, valid.name, valid.value, valid.text⟩⟩

/-- What a client reads from an HTTP/1.1 response. -/
structure ReadsAs
    (response : Octets)
    (status : Nat)
    (fields : List Header)
    (body : Octets) : Prop where
  read : readLines [] response = some (statusRow status :: fields.map lineOf, body)
  valid : ∀ field ∈ fields, IsValidField field

/-- The fields without those of some names. -/
def withoutFields (names : List Octets) (fields : List Header) : List Header :=
  fields.filter fun field => !isManaged names field

/-- The status that the stream protocols have for a status. -/
def sentStatus (status : Nat) : Nat :=
  if 100 ≤ status ∧ status < 1000 then status else 200

/-! ## Valid fields -/

section Fields

variable {header : Header}

theorem IsValidField.hasLineBreak
    (valid : IsValidField header) :
    hasLineBreak header = false := by
  have clean : ∀ {row : Octets}, (∀ octet ∈ row, octet ≠ 10 ∧ octet ≠ 13) →
      Envelope.breaksLine row = false :=
    fun others => breaksLine_eq_false_iff.mpr
      ⟨fun member => (others _ member).1 rfl, fun member => (others _ member).2 rfl⟩
  rw [Response.hasLineBreak, Bool.or_eq_false_iff]
  constructor
  · refine clean fun octet member => ?_
    have token := valid.name octet member
    constructor
    · rintro rfl
      revert token
      decide
    · rintro rfl
      revert token
      decide
  · refine clean fun octet member => ?_
    have visible := valid.value octet member
    constructor
    · rintro rfl
      revert visible
      decide
    · rintro rfl
      revert visible
      decide

theorem IsValidField.notMem_name
    {octet : UInt8}
    (valid : IsValidField header)
    (noToken : isTokenOctet octet = false) :
    octet ∉ header.1 := by
  intro member
  rw [valid.name octet member] at noToken
  cases noToken

theorem IsValidField.isUtf8
    (valid : IsValidField header) :
    isUtf8 header = true := by
  have ascii : ∀ octet ∈ header.1, octet.toNat < 0x80 := by
    intro octet member
    have token := valid.name octet member
    simp only [isTokenOctet, Bool.or_eq_true, Bool.and_eq_true, decide_eq_true_eq,
      List.contains_iff_mem, List.mem_cons, List.not_mem_nil, or_false] at token
    omega
  rw [Response.isUtf8, Utf8.decode_of_ascii ascii, valid.text]
  rfl

/-- The line of a valid field is read as the field. -/
theorem readField_lineOf
    (valid : IsValidField header) :
    readField (lineOf header) = some header := by
  have noColon : 58 ∉ header.1 := valid.notMem_name (by decide)
  have spelled : lineOf header = header.1 ++ 58 :: (32 :: header.2) := rfl
  have noStatus : ¬ ((octets "HTTP/").isPrefixOf (lineOf header) = true ∨ lineOf header = []) := by
    rintro (starts | none)
    · obtain ⟨rest, same⟩ := List.isPrefixOf_iff_prefix.mp starts
      have slash : (47 : UInt8) ∈ (lineOf header).takeWhile (· ≠ 58) := by
        rw [← same]
        exact List.mem_cons_of_mem _ (List.mem_cons_of_mem _ (List.mem_cons_of_mem _
          (List.mem_cons_of_mem _ List.mem_cons_self)))
      rw [spelled, MessageHead.takeWhile_fieldLine noColon] at slash
      exact valid.notMem_name (by decide) slash
    · exact lineOf_ne_nil header none
  rw [readField, if_neg noStatus, spelled, MessageHead.dropWhile_fieldLine noColon,
    MessageHead.takeWhile_fieldLine noColon]
  rfl

theorem readField_statusRow
    (status : Nat) :
    readField (statusRow status) = none :=
  if_pos (.inl rfl)

end Fields

theorem filterMap_readField
    {fields : List Header}
    (valid : ∀ field ∈ fields, IsValidField field) :
    (fields.map lineOf).filterMap readField = fields := by
  rw [List.filterMap_map]
  calc fields.filterMap (readField ∘ lineOf)
      = fields.filterMap some := List.filterMap_congr fun field member =>
        readField_lineOf (valid field member)
    _ = fields := List.filterMap_some

/-- A client reads one status, one row of fields and one body. -/
theorem ReadsAs.unique
    {response : Octets} {status otherStatus : Nat} {fields otherFields : List Header}
    {body otherBody : Octets}
    (reads : ReadsAs response status fields body)
    (otherReads : ReadsAs response otherStatus otherFields otherBody) :
    statusRow status = statusRow otherStatus ∧ fields = otherFields ∧ body = otherBody := by
  have same := Option.some.inj (reads.read.symm.trans otherReads.read)
  obtain ⟨rows, bodies⟩ := Prod.mk.inj same
  obtain ⟨starts, lines⟩ := List.cons.inj rows
  refine ⟨starts, ?_, bodies⟩
  rw [← filterMap_readField reads.valid, lines, filterMap_readField otherReads.valid]

/-! ## The section of the head -/

theorem stripReturn_of_notMem
    {row : Octets}
    (noReturn : 13 ∉ row) :
    stripReturn row = row :=
  if_neg fun last => noReturn (List.mem_of_getLast? last)

theorem stripReturn_concat
    (row : Octets) :
    stripReturn (row ++ [13]) = row := by
  rw [stripReturn, if_pos (by simp), List.dropLast_concat]

theorem sectionLines_singleton
    {row : Octets}
    (clean : 10 ∉ row ∧ 13 ∉ row) :
    sectionLines row = [row] := by
  have whole : row.splitOn 10 = [row] := by
    refine List.splitOnP_eq_singleton fun octet member => ?_
    rw [beq_eq_false_iff_ne]
    rintro rfl
    exact clean.1 member
  rw [sectionLines, whole, List.map_singleton, stripReturn_of_notMem clean.2]

theorem sectionLines_cons
    {row : Octets}
    (clean : 10 ∉ row)
    (rest : Octets) :
    sectionLines (row ++ (lineEnd ++ rest)) = row :: sectionLines rest := by
  have first : (row ++ (lineEnd ++ rest)).splitOn 10 = (row ++ [13]) :: rest.splitOn 10 := by
    have spelled : row ++ (lineEnd ++ rest) = (row ++ [13]) ++ 10 :: rest := by
      rw [List.append_assoc]
      rfl
    rw [spelled]
    refine List.splitOnP_append_cons_of_forall_mem (fun octet member => ?_) 10 (by decide) rest
    rw [beq_eq_false_iff_ne]
    rintro rfl
    rcases List.mem_append.mp member with inRow | isReturn
    · exact clean inRow
    · exact absurd isReturn (by decide)
  rw [sectionLines, first, List.map_cons, stripReturn_concat]
  rfl

/-- The lines of a head are those that it was made of. -/
theorem sectionLines_intercalate
    {rows : List Octets}
    (clean : ∀ row ∈ rows, 10 ∉ row ∧ 13 ∉ row)
    (notEmpty : rows ≠ []) :
    sectionLines (lineEnd.intercalate rows) = rows := by
  induction rows with
  | nil => exact absurd rfl notEmpty
  | cons row rows hypothesis =>
      have own := clean row List.mem_cons_self
      cases rows with
      | nil => rw [List.intercalate_singleton, sectionLines_singleton own]
      | cons next rest =>
          rw [List.intercalate_cons_cons, List.append_assoc, sectionLines_cons own.1,
            hypothesis (fun other member => clean other (List.mem_cons_of_mem _ member))
              (List.cons_ne_nil _ _)]

theorem flatMap_lineEnd
    {rows : List Octets}
    (notEmpty : rows ≠ []) :
    rows.flatMap (· ++ lineEnd) = lineEnd.intercalate rows ++ lineEnd := by
  induction rows with
  | nil => exact absurd rfl notEmpty
  | cons row rows hypothesis =>
      cases rows with
      | nil => simp
      | cons next rest =>
          rw [List.flatMap_cons, hypothesis (List.cons_ne_nil _ _), List.intercalate_cons_cons]
          simp only [List.append_assoc]

/-- A head ends at the first empty line, however the body goes on. -/
theorem find_headEnd
    {rows : List Octets}
    (clean : ∀ row ∈ rows, 13 ∉ row ∧ row ≠ [])
    (notEmpty : rows ≠ [])
    (body : Octets) :
    Octets.find (crlf ++ crlf) (lineEnd.intercalate rows ++ (crlf ++ (crlf ++ body))) =
      some (lineEnd.intercalate rows).length := by
  obtain ⟨position, found, length⟩ := MessageHead.find_emptyLine clean notEmpty body
  rw [flatMap_lineEnd notEmpty, List.length_append] at length
  rw [flatMap_lineEnd notEmpty, List.append_assoc] at found
  have same : position = (lineEnd.intercalate rows).length := by
    have two : lineEnd.length = 2 := rfl
    omega
  rw [← same]
  exact found

/-! ## The status -/

theorem parseU16_write
    (number : Nat) :
    parseU16 (Decimal.write number) = if number < 65536 then some number else none := by
  have noPlus : Parser.stripPlus (Decimal.write number) = Decimal.write number := by
    cases written : Decimal.write number with
    | nil => rfl
    | cons char rest =>
        refine if_neg ?_
        rintro rfl
        have digit := @Decimal.isDigit_of_mem_write number '+' (by rw [written]; simp)
        cases digit
  have digits : (Decimal.write number).all Char.isDigit = true :=
    List.all_eq_true.mpr fun char member => Decimal.isDigit_of_mem_write member
  rw [parseU16, noPlus]
  simp only [Decimal.value_write, ne_eq, Decimal.write_ne_nil, not_false_eq_true, digits, true_and]

theorem secondPart_statusRow
    (status : Nat) :
    secondPart (statusRow status) = some (decimalOctets status) := by
  have spelled : (statusRow status).dropWhile (· ≠ 32) =
      32 :: (decimalOctets status ++ 32 :: Envelope.statusReason status) := rfl
  rw [secondPart, spelled]
  simp only
  rw [List.takeWhile_append_of_pos, List.takeWhile_cons_of_neg (by simp), List.append_nil]
  intro octet member
  have digit := isDigit_of_mem_decimalOctets member
  rw [decide_eq_true_eq]
  rintro rfl
  exact absurd digit.1 (by decide)

theorem actualStatus_of_statusRow
    (codes : StatusCodes)
    {headerSection : Octets} {status : Nat} {rows : List Octets}
    (lines : sectionLines headerSection = statusRow status :: rows) :
    actualStatus codes headerSection = sentStatus status := by
  have ascii : ∀ octet ∈ decimalOctets status, octet.toNat < 0x80 := by
    intro octet member
    have digit := isDigit_of_mem_decimalOctets member
    omega
  have decoded : Utf8.decode (decimalOctets status) = some (Decimal.write status) := by
    rw [Utf8.decode_of_ascii ascii, toText_decimalOctets]
  rw [actualStatus, lines, List.head?_cons, Option.bind_some, secondPart_statusRow,
    Option.bind_some, decoded, Option.bind_some]
  rw [parseU16_write, sentStatus]
  split
  · rw [Option.bind_some, codes.getD_fromU16]
  · rw [Option.bind_none, Option.getD_none, if_neg (by omega)]

/-! ## What is sent -/

section Sent

variable (codes : StatusCodes) {accept : Header → Option Header}

theorem mapM_accept
    {fields : List Header}
    (accepts : ∀ field ∈ fields, accept field = some field) :
    fields.mapM accept = some fields := by
  induction fields with
  | nil => rfl
  | cons field rest hypothesis =>
      rw [List.mapM_cons, accepts field List.mem_cons_self,
        hypothesis fun other member => accepts other (List.mem_cons_of_mem _ member)]
      rfl

/-- What a handler makes of a response with valid fields. -/
theorem sendStaticResponse_eq
    {fields : List Header}
    (accepts : ∀ field, IsValidField field → accept field = some field)
    (valid : ∀ field ∈ fields, IsValidField field)
    (skipped : List Octets)
    (fallback : StreamedResponse)
    (status : Nat)
    (body : Octets) :
    sendStaticResponse codes accept skipped fallback
        (statusLine status ++ (writeFields fields ++ (crlf ++ body))) =
      some { status := sentStatus status, headers := withoutFields skipped fields, body } := by
  have clean : ∀ row ∈ statusRow status :: fields.map lineOf,
      10 ∉ row ∧ 13 ∉ row ∧ row ≠ [] := by
    intro row member
    rcases List.mem_cons.mp member with rfl | isLine
    · exact ⟨forall_mem_statusRow (.inl rfl) status, forall_mem_statusRow (.inr (.inl rfl)) status,
        statusRow_ne_nil status⟩
    · obtain ⟨field, given, rfl⟩ := List.mem_map.mp isLine
      have unbroken := (valid field given).hasLineBreak
      exact ⟨notMem_lineOf (.inl rfl) unbroken, notMem_lineOf (.inr rfl) unbroken,
        lineOf_ne_nil field⟩
  have notEmpty : statusRow status :: fields.map lineOf ≠ [] := List.cons_ne_nil _ _
  have spelled : statusLine status ++ (writeFields fields ++ (crlf ++ body)) =
      lineEnd.intercalate (statusRow status :: fields.map lineOf) ++ (crlf ++ (crlf ++ body)) := by
    have lines := flatMap_lineEnd notEmpty
    rw [List.flatMap_cons, ← writeFields_eq, ← statusLine_eq] at lines
    rw [← List.append_assoc, lines, List.append_assoc]
    rfl
  have lines : sectionLines (lineEnd.intercalate (statusRow status :: fields.map lineOf)) =
      statusRow status :: fields.map lineOf :=
    sectionLines_intercalate (fun row member => ⟨(clean row member).1, (clean row member).2.1⟩)
      notEmpty
  have found := find_headEnd (fun row member => (clean row member).2) notEmpty body
  have readBack : (statusRow status :: fields.map lineOf).filterMap readField = fields := by
    rw [List.filterMap_cons, readField_statusRow]
    exact filterMap_readField valid
  have forwarded : forwardedFields skipped
      (lineEnd.intercalate (statusRow status :: fields.map lineOf)) =
        withoutFields skipped fields := by
    rw [forwardedFields, lines, readBack]
    refine List.filter_congr fun field member => ?_
    rw [(valid field member).isUtf8, Bool.and_true]
  have accepted : (withoutFields skipped fields).mapM accept = some (withoutFields skipped fields) :=
    mapM_accept fun field member => accepts field (valid field (List.mem_of_mem_filter member))
  rw [spelled, sendStaticResponse, found]
  simp only [List.take_left, forwarded, actualStatus_of_statusRow codes lines, accepted,
    Option.map_some, List.drop_length_add_append]
  rfl

/-- A client reads the fields of such a response over HTTP/1.1. -/
theorem readsAs_of_valid
    {fields : List Header}
    (valid : ∀ field ∈ fields, IsValidField field)
    (status : Nat)
    (body : Octets) :
    ReadsAs (statusLine status ++ (writeFields fields ++ (crlf ++ body))) status fields body where
  read := by
    have empty : readLines [] (crlf ++ body) = some ([], body) := rfl
    rw [statusLine_eq, List.append_assoc,
      MessageHead.readLines_line (forall_mem_statusRow (.inl rfl) status) (statusRow_ne_nil status),
      readLines_unbroken fun field member => (valid field member).hasLineBreak, empty,
      Option.map_some, Option.map_some, List.append_nil]
  valid := valid

/-! ## The stored responses -/

theorem isValidField_ownFields
    {length : Nat} {keepAlive : Bool} {field : Header}
    (member : field ∈ ownFields length keepAlive) :
    IsValidField field := by
  have digits : ∀ octet ∈ decimalOctets length, octet.toNat < 0x80 ∧ isValueOctet octet = true := by
    intro octet digit
    have bounds := isDigit_of_mem_decimalOctets digit
    refine ⟨by omega, ?_⟩
    simp only [isValueOctet, Bool.or_eq_true, Bool.and_eq_true, decide_eq_true_eq]
    omega
  rw [ownFields, List.mem_cons, List.mem_singleton] at member
  rcases member with rfl | rfl
  · have named : contentLength ≠ [] ∧ ∀ octet ∈ contentLength, isTokenOctet octet = true := by
      decide
    refine ⟨named.1, named.2, fun octet digit => (digits octet digit).2, ?_⟩
    rw [Utf8.decode_of_ascii fun octet digit => (digits octet digit).1]
    rfl
  · cases keepAlive
    · decide
    · decide

theorem isValidField_compressionFields
    {encoding : AcceptedEncoding} {field : Header}
    (member : field ∈ compressionFields (some encoding)) :
    IsValidField field := by
  rw [compressionFields, List.mem_cons, List.mem_singleton] at member
  rcases member with rfl | rfl
  · cases encoding <;> decide
  · decide

theorem assemble_eq
    (status : Nat)
    (serverFields passedOn : List Header)
    (body : Octets) :
    assemble status serverFields passedOn body =
      statusLine status ++ (writeFields (serverFields ++ passedOn) ++ (crlf ++ body)) := by
  rw [assemble, writeFields_append, List.append_assoc]

/-- A stored response in the form that is sent, with the fields that the server writes
around the connection field. -/
theorem exists_stored
    {fixed : FixedResponse}
    (valid : ∀ header ∈ fixed.headers, IsValidField header)
    (config : Option CompressionConfig)
    (encoding : AcceptedEncoding) :
    ∃ length others body, (∀ keepAlive, ∀ field ∈ ownFields length keepAlive ++ others,
      IsValidField field) ∧
        ∀ keepAlive, exactStaticResponse (buildExactStaticRoute config fixed) keepAlive encoding =
          statusLine fixed.status ++ (writeFields (ownFields length keepAlive ++ others) ++
            (crlf ++ body)) := by
  have passed : ∀ {managed : List Octets}, ∀ field ∈ passOn managed fixed.headers,
      IsValidField field :=
    fun field member => valid field (List.mem_of_mem_filter member)
  cases compressed : precompressed config fixed encoding with
  | none =>
      refine ⟨fixed.body.length, passOn [] fixed.headers, fixed.body, fun keepAlive field member => ?_,
        fun keepAlive => ?_⟩
      · rcases List.mem_append.mp member with own | other
        · exact isValidField_ownFields own
        · exact passed field other
      · rw [exactStaticResponse_built, compressed]
        exact assemble_eq _ _ _ _
  | some body =>
      refine ⟨body.length, compressionFields (some encoding) ++
        passOn [contentLength, connection, octets "content-encoding"] fixed.headers, body,
        fun keepAlive field member => ?_, fun keepAlive => ?_⟩
      · rcases List.mem_append.mp member with own | other
        · exact isValidField_ownFields own
        · rcases List.mem_append.mp other with compression | given
          · exact isValidField_compressionFields compression
          · exact passed field given
      · rw [exactStaticResponse_built, compressed]
        have built := assemble_eq fixed.status
          (ownFields body.length keepAlive ++ compressionFields (some encoding))
          (passOn [contentLength, connection, octets "content-encoding"] fixed.headers) body
        rwa [List.append_assoc] at built

/-- Without the connection field the two variants have the same fields. -/
theorem withoutFields_ownFields
    {names : List Octets}
    (managed : isManaged names (connection, []) = true)
    (length : Nat)
    (others : List Header)
    (keepAlive other : Bool) :
    withoutFields names (ownFields length keepAlive ++ others) =
      withoutFields names (ownFields length other ++ others) := by
  have dropped : ∀ value, isManaged names (connection, value) = true := fun _ => managed
  simp only [withoutFields, ownFields, List.cons_append, List.filter_cons, dropped, Bool.not_true,
    Bool.false_eq_true, if_false]

/-- The response of a static route over HTTP/2 and HTTP/3 has the fields and the body
of the one over HTTP/1.1, without the fields of a connection, and its status where
the stream protocols have it. -/
theorem sendStatic_sameResponse
    (accepts : ∀ field, IsValidField field → accept field = some field)
    (fixed : FixedResponse)
    (valid : ∀ header ∈ fixed.headers, IsValidField header)
    (config : Option CompressionConfig)
    (encoding : AcceptedEncoding)
    (keepAlive : Bool) :
    ∃ fields body,
      ReadsAs (exactStaticResponse (buildExactStaticRoute config fixed) keepAlive encoding)
        fixed.status fields body ∧
      sendH2StaticResponse codes accept (buildExactStaticRoute config fixed) encoding =
        some {
          status := sentStatus fixed.status
          headers := withoutFields [connection, transferEncoding] fields
          body } ∧
      sendH3StaticResponse codes accept (buildExactStaticRoute config fixed) encoding =
        some {
          status := sentStatus fixed.status
          headers := withoutFields [connection, transferEncoding, octets "keep-alive"] fields
          body } := by
  obtain ⟨length, others, body, clean, stored⟩ := exists_stored valid config encoding
  refine ⟨ownFields length keepAlive ++ others, body, ?_, ?_, ?_⟩
  · rw [stored]
    exact readsAs_of_valid (clean keepAlive) _ _
  · rw [sendH2StaticResponse, stored, sendStaticResponse_eq codes accepts (clean true),
      withoutFields_ownFields (by decide) length others true keepAlive]
  · rw [sendH3StaticResponse, stored, sendStaticResponse_eq codes accepts (clean true),
      withoutFields_ownFields (by decide) length others true keepAlive]

end Sent

/-! ## Routes -/

/-- A builder that takes valid fields, and no others. -/
def acceptValid (field : Header) : Option Header :=
  if IsValidField field then some field else none

theorem acceptValid_of_valid
    (field : Header)
    (valid : IsValidField field) :
    acceptValid field = some field :=
  if_pos valid

/-- A page with colons and an empty line in it, and a status. -/
def colonPage (status : Nat) : FixedResponse where
  status := status
  headers := [(octets "x-note", octets "HTTP/1.1: a: b")]
  body := octets "HTTP/1.1 500\r\n\r\na: b"

theorem valid_colonPage
    (status : Nat) :
    ∀ header ∈ (colonPage status).headers, IsValidField header := by
  intro header member
  rw [List.mem_singleton.mp member]
  decide

theorem sendStatic_colonPage :
    ∃ fields body,
      ReadsAs (exactStaticResponse (buildExactStaticRoute none (colonPage 404)) false .gzip) 404
        fields body ∧
      sendH2StaticResponse statusCodes acceptValid (buildExactStaticRoute none (colonPage 404))
          .gzip =
        some ⟨404, withoutFields [connection, transferEncoding] fields, body⟩ ∧
      sendH3StaticResponse statusCodes acceptValid (buildExactStaticRoute none (colonPage 404))
          .gzip =
        some ⟨404, withoutFields [connection, transferEncoding, octets "keep-alive"] fields,
          body⟩ :=
  sendStatic_sameResponse statusCodes acceptValid_of_valid (colonPage 404) (valid_colonPage 404)
    none .gzip false

/-- A status that the stream protocols do not have is sent as 200. -/
theorem not_sendStatic_sameStatus :
    ¬ ∀ (fixed : FixedResponse), (∀ header ∈ fixed.headers, IsValidField header) →
      ∀ (config : Option CompressionConfig) (encoding : AcceptedEncoding)
        (sent : StreamedResponse),
        sendH2StaticResponse statusCodes acceptValid (buildExactStaticRoute config fixed) encoding =
            some sent →
          sent.status = fixed.status := by
  intro everywhere
  obtain ⟨length, others, body, clean, stored⟩ :=
    exists_stored (valid_colonPage 42) none .identity
  have sent := everywhere (colonPage 42) (valid_colonPage 42) none .identity _ (by
    rw [sendH2StaticResponse, stored]
    exact sendStaticResponse_eq statusCodes acceptValid_of_valid (clean true) _ _ _ _)
  have different : sentStatus 42 ≠ 42 := by decide
  exact different sent

end Response
end HttpNative
