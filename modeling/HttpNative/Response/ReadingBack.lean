import HttpNative.Response.ResponseBuilders

/-!
# Reading responses back

What a recipient reads from a response of the common form: the fields of the
server, the lines that the passed on headers come to, and the body.
-/

namespace HttpNative
namespace Response

open Envelope (Header breaksLine connectionValue crlf decimalOctets field statusLine statusReason)
open MessageHead

/-! ## The octets of the server -/

theorem isDigit_of_mem_decimalOctets
    {number : Nat} {octet : UInt8}
    (member : octet ∈ decimalOctets number) :
    48 ≤ octet.toNat ∧ octet.toNat ≤ 57 := by
  obtain ⟨char, written, rfl⟩ := List.mem_map.mp member
  have digit := Decimal.isDigit_of_mem_write written
  simp only [Char.isDigit, Bool.and_eq_true, decide_eq_true_eq] at digit
  have low : 48 ≤ char.toNat := digit.1
  have high : char.toNat ≤ 57 := digit.2
  rw [UInt8.toNat_ofNat']
  omega

theorem toText_decimalOctets
    (number : Nat) :
    Octets.toText (decimalOctets number) = Decimal.write number := by
  rw [Octets.toText, decimalOctets, List.map_map]
  conv_rhs => rw [← List.map_id (Decimal.write number)]
  refine List.map_congr_left fun char member => ?_
  have digit := Decimal.isDigit_of_mem_write member
  simp only [Char.isDigit, Bool.and_eq_true, decide_eq_true_eq] at digit
  have high : char.toNat ≤ 57 := digit.2
  have small : (UInt8.ofNat char.toNat).toNat = char.toNat := by
    rw [UInt8.toNat_ofNat']
    omega
  rw [Function.comp_apply, small, Char.ofNat_toNat, id]

theorem decimalOctets_ne_nil
    (number : Nat) :
    decimalOctets number ≠ [] := by
  rw [decimalOctets, Ne, List.map_eq_nil_iff]
  exact Decimal.write_ne_nil number

/-- An octet that is no digit does not occur in a number. -/
theorem notMem_decimalOctets
    {octet : UInt8}
    (noDigit : octet.toNat < 48 ∨ 57 < octet.toNat)
    (number : Nat) :
    octet ∉ decimalOctets number := by
  intro member
  have digit := isDigit_of_mem_decimalOctets member
  omega

theorem solid_decimalOctets
    (number : Nat) :
    ∀ octet ∈ decimalOctets number, isBlank octet = false := by
  intro octet member
  have digit := isDigit_of_mem_decimalOctets member
  simp only [isBlank, Bool.or_eq_false_iff, decide_eq_false_iff_not]
  constructor
  · rintro rfl
    exact absurd digit.1 (by decide)
  · rintro rfl
    exact absurd digit.1 (by decide)

/-- A property of the octets of every status reason. -/
theorem forall_mem_statusReason
    (status : Nat) :
    ∀ octet ∈ statusReason status, octet ≠ 10 ∧ octet ≠ 13 ∧ octet ≠ 58 := by
  unfold statusReason
  split <;> decide

/-- The status line without its end. -/
def statusRow (status : Nat) : Octets :=
  octets "HTTP/1.1 " ++ (decimalOctets status ++ ([32] ++ statusReason status))

theorem statusLine_eq
    (status : Nat) :
    statusLine status = statusRow status ++ lineEnd := by
  rw [statusRow, List.append_assoc, List.append_assoc, List.append_assoc]
  rfl

theorem forall_mem_statusRow
    {octet : UInt8}
    (unused : octet = 10 ∨ octet = 13 ∨ octet = 58)
    (status : Nat) :
    octet ∉ statusRow status := by
  have noDigit : octet.toNat < 48 ∨ 57 < octet.toNat := by
    rcases unused with rfl | rfl | rfl <;> decide
  have front : octet ∉ octets "HTTP/1.1 " := by
    rcases unused with rfl | rfl | rfl <;> decide
  have space : octet ∉ ([32] : Octets) := by
    rcases unused with rfl | rfl | rfl <;> decide
  have reason : octet ∉ statusReason status := by
    intro member
    obtain ⟨noFeed, noReturn, noColon⟩ := forall_mem_statusReason status octet member
    rcases unused with rfl | rfl | rfl
    · exact noFeed rfl
    · exact noReturn rfl
    · exact noColon rfl
  simp only [statusRow, List.mem_append, not_or]
  exact ⟨front, notMem_decimalOctets noDigit status, space, reason⟩

theorem statusRow_ne_nil
    (status : Nat) :
    statusRow status ≠ [] :=
  List.cons_ne_nil _ _

/-! ## Fields as lines -/

def lineOf (header : Header) : Octets :=
  fieldLine header.1 header.2

theorem field_eq
    (name value : Octets) :
    field name value = fieldLine name value ++ lineEnd := by
  rw [fieldLine, List.append_assoc, List.append_assoc]
  rfl

theorem writeFields_eq
    (headers : List Header) :
    writeFields headers = (headers.map lineOf).flatMap (· ++ lineEnd) := by
  induction headers with
  | nil => rfl
  | cons header rest hypothesis =>
      rw [List.map_cons, List.flatMap_cons, ← hypothesis, lineOf, ← field_eq]
      rfl

theorem breaksLine_eq_false_iff
    {row : Octets} :
    breaksLine row = false ↔ 10 ∉ row ∧ 13 ∉ row := by
  constructor
  · intro clean
    rw [breaksLine, List.any_eq_false] at clean
    constructor
    · intro member
      simpa using clean 10 member
    · intro member
      simpa using clean 13 member
  · rintro ⟨noFeed, noReturn⟩
    rw [breaksLine, List.any_eq_false]
    intro octet member
    simp only [Bool.or_eq_true, decide_eq_true_eq, not_or]
    exact ⟨fun same => noReturn (same ▸ member), fun same => noFeed (same ▸ member)⟩

theorem lineOf_ne_nil
    (header : Header) :
    lineOf header ≠ [] := by
  simp [lineOf, fieldLine, octets]

theorem mem_lineOf
    {octet : UInt8} {header : Header} :
    octet ∈ lineOf header ↔
      octet ∈ header.1 ∨ octet = 58 ∨ octet = 32 ∨ octet ∈ header.2 := by
  have spelled : lineOf header = header.1 ++ 58 :: 32 :: header.2 := rfl
  rw [spelled, List.mem_append, List.mem_cons, List.mem_cons]

theorem notMem_lineOf
    {octet : UInt8} {header : Header}
    (isBreak : octet = 10 ∨ octet = 13)
    (unbroken : hasLineBreak header = false) :
    octet ∉ lineOf header := by
  rw [hasLineBreak, Bool.or_eq_false_iff, breaksLine_eq_false_iff, breaksLine_eq_false_iff]
    at unbroken
  obtain ⟨⟨nameFeed, nameReturn⟩, valueFeed, valueReturn⟩ := unbroken
  rw [mem_lineOf]
  rcases isBreak with rfl | rfl
  · simp [nameFeed, valueFeed]
  · simp [nameReturn, valueReturn]

/-! ## Heads -/

/-- The lines that headers come to, up to the first empty one. -/
def spelledLines (headers : List Header) : List Octets :=
  ((readLines [] (writeFields headers ++ crlf)).map Prod.fst).getD []

/-- What headers bring behind the first empty line. -/
def spelledBehind (headers : List Header) : Octets :=
  ((readLines [] (writeFields headers ++ crlf)).map Prod.snd).getD []

theorem lineEnd_suffix_writeFields
    (headers : List Header) :
    writeFields headers = [] ∨ lineEnd <:+ writeFields headers := by
  induction headers using List.reverseRecOn with
  | nil => exact .inl rfl
  | append_singleton front header hypothesis =>
      right
      rw [writeFields_append]
      refine List.IsSuffix.trans ?_ (List.suffix_append _ _)
      have alone : writeFields [header] = fieldLine header.1 header.2 ++ lineEnd := by
        rw [← field_eq]
        exact List.append_nil _
      rw [alone]
      exact List.suffix_append _ _

theorem readLines_spelled
    (headers : List Header) :
    readLines [] (writeFields headers ++ crlf) =
      some (spelledLines headers, spelledBehind headers) := by
  have whole : [] ++ writeFields headers = [] ∨ lineEnd <:+ [] ++ writeFields headers :=
    lineEnd_suffix_writeFields headers
  obtain ⟨read, found⟩ := exists_readLines whole fun _ => rfl
  change readLines [] (writeFields headers ++ crlf) = some read at found
  rw [spelledLines, spelledBehind, found]
  rfl

/-- Headers without line breaks are a line each. -/
theorem readLines_unbroken
    {headers : List Header}
    (unbroken : ∀ header ∈ headers, hasLineBreak header = false)
    (rest : Octets) :
    readLines [] (writeFields headers ++ rest) =
      (readLines [] rest).map fun read => (headers.map lineOf ++ read.1, read.2) := by
  rw [writeFields_eq, readLines_rows]
  intro row member
  obtain ⟨header, given, rfl⟩ := List.mem_map.mp member
  exact ⟨notMem_lineOf (.inl rfl) (unbroken header given), lineOf_ne_nil header⟩

theorem spelled_append
    {headers : List Header}
    (unbroken : ∀ header ∈ headers, hasLineBreak header = false)
    (more : List Header) :
    spelledLines (headers ++ more) = headers.map lineOf ++ spelledLines more ∧
      spelledBehind (headers ++ more) = spelledBehind more := by
  have read := readLines_unbroken unbroken (writeFields more ++ crlf)
  rw [readLines_spelled, Option.map_some, ← List.append_assoc, ← writeFields_append] at read
  rw [spelledLines, spelledBehind, read]
  exact ⟨rfl, rfl⟩

theorem spelled_of_unbroken
    {headers : List Header}
    (unbroken : ∀ header ∈ headers, hasLineBreak header = false) :
    spelledLines headers = headers.map lineOf ∧ spelledBehind headers = [] := by
  have spelled := spelled_append unbroken []
  have empty : spelledLines [] = [] ∧ spelledBehind [] = [] := ⟨rfl, rfl⟩
  rwa [List.append_nil, empty.1, empty.2, List.append_nil] at spelled

/-- The lines of a response of the common form, and what stands behind its head. -/
theorem readLines_assemble
    {serverFields : List Header}
    (unbroken : ∀ header ∈ serverFields, hasLineBreak header = false)
    (status : Nat)
    (headers : List Header)
    (body : Octets) :
    readLines [] (assemble status serverFields headers body) =
      some (statusRow status :: (serverFields.map lineOf ++ spelledLines headers),
        spelledBehind headers ++ body) := by
  have spelled := readLines_append (readLines_spelled headers) body
  rw [List.append_assoc] at spelled
  rw [assemble, statusLine_eq, List.append_assoc,
    readLines_line (forall_mem_statusRow (.inl rfl) status) (statusRow_ne_nil status),
    readLines_unbroken unbroken, spelled]
  rfl

theorem unbroken_of_mem_passOn
    {managed : List Octets} {headers : List Header} {header : Header}
    (member : header ∈ passOn managed headers) :
    hasLineBreak header = false := by
  have kept := (List.mem_filter.mp member).2
  rw [Bool.and_eq_true] at kept
  simpa using kept.2

theorem unbroken_ownFields
    {length : Nat} {header : Header}
    (keepAlive : Bool)
    (member : header ∈ ownFields length keepAlive) :
    hasLineBreak header = false := by
  rw [ownFields, List.mem_cons, List.mem_singleton] at member
  rcases member with rfl | rfl
  · have name : breaksLine contentLength = false := by decide
    rw [hasLineBreak, Bool.or_eq_false_iff]
    refine ⟨name, breaksLine_eq_false_iff.mpr ?_⟩
    exact ⟨notMem_decimalOctets (by decide) length, notMem_decimalOctets (by decide) length⟩
  · cases keepAlive <;> decide

theorem unbroken_compressionFields
    {applied : Option Envelope.AcceptedEncoding} {header : Header}
    (member : header ∈ compressionFields applied) :
    hasLineBreak header = false := by
  cases applied with
  | none => cases member
  | some encoding =>
      rw [compressionFields, List.mem_cons, List.mem_singleton] at member
      rcases member with rfl | rfl
      · cases encoding <;> decide
      · decide

theorem unbroken_streamFields
    {header : Header}
    (keepAlive : Bool)
    (member : header ∈ streamFields keepAlive) :
    hasLineBreak header = false := by
  rw [streamFields, List.mem_cons, List.mem_singleton] at member
  rcases member with rfl | rfl
  · decide
  · cases keepAlive <;> decide

end Response
end HttpNative
