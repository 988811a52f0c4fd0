import HttpNative.Parser.HotRoot

/-!
# Heads made of field lines

The heads of `GET /` requests as they are written: a request line, field lines
and an empty line, each ended by CR LF. What the HTTP parser is relied on to
make of such a head is stated here.
-/

namespace HttpNative
namespace Parser

def isTokenOctet (octet : UInt8) : Bool :=
  (48 ≤ octet.toNat && octet.toNat ≤ 57) || (65 ≤ octet.toNat && octet.toNat ≤ 90) ||
    (97 ≤ octet.toNat && octet.toNat ≤ 122) ||
    [33, 35, 36, 37, 38, 39, 42, 43, 45, 46, 94, 95, 96, 124, 126].contains octet.toNat

/-- A tab, a visible character, a space or an octet above ASCII. -/
def isValueOctet (octet : UInt8) : Bool :=
  octet.toNat == 9 || (32 ≤ octet.toNat && octet.toNat != 127)

/-- A space or a tab. -/
def isBlankOctet (octet : UInt8) : Bool :=
  octet.toNat == 32 || octet.toNat == 9

/-- A field line without its end: a name, a colon and a value between blanks. -/
structure FieldLine where
  name : Octets
  before : Octets
  value : Octets
  after : Octets
  named : name ≠ []
  token : ∀ octet ∈ name, isTokenOctet octet = true
  blankBefore : ∀ octet ∈ before, isBlankOctet octet = true
  blankAfter : ∀ octet ∈ after, isBlankOctet octet = true
  admitted : ∀ octet ∈ value, isValueOctet octet = true
  solidStart : ∀ octet, value.head? = some octet → isBlankOctet octet = false
  solidEnd : ∀ octet, value.getLast? = some octet → isBlankOctet octet = false

namespace FieldLine

/-- What follows the colon. -/
def tail (line : FieldLine) : Octets :=
  line.before ++ line.value ++ line.after

def spelling (line : FieldLine) : Octets :=
  line.name ++ 58 :: line.tail

def header (line : FieldLine) : RawHeader where
  name := line.name
  value := line.value
  named := line.named

theorem token_bounds
    {octet : UInt8}
    (token : isTokenOctet octet = true) :
    octet.toNat ≠ 10 ∧ octet.toNat ≠ 13 ∧ octet.toNat ≠ 58 := by
  simp only [isTokenOctet, Bool.or_eq_true, Bool.and_eq_true, decide_eq_true_eq,
    List.contains_eq_mem, List.mem_cons, List.not_mem_nil, or_false] at token
  omega

theorem mem_tail_bounds
    {line : FieldLine} {octet : UInt8}
    (member : octet ∈ line.tail) :
    octet.toNat ≠ 10 ∧ octet.toNat ≠ 13 := by
  have blank : ∀ {octet : UInt8}, isBlankOctet octet = true → octet.toNat ≠ 10 ∧ octet.toNat ≠ 13 := by
    intro octet blank
    simp only [isBlankOctet, Bool.or_eq_true, beq_iff_eq] at blank
    omega
  rw [tail, List.append_assoc] at member
  rcases List.mem_append.mp member with inBefore | others
  · exact blank (line.blankBefore octet inBefore)
  · rcases List.mem_append.mp others with inValue | inAfter
    · have admitted := line.admitted octet inValue
      simp only [isValueOctet, Bool.or_eq_true, beq_iff_eq, Bool.and_eq_true,
        decide_eq_true_eq] at admitted
      omega
    · exact blank (line.blankAfter octet inAfter)

theorem mem_spelling_bounds
    {line : FieldLine} {octet : UInt8}
    (member : octet ∈ line.spelling) :
    octet.toNat ≠ 10 ∧ octet.toNat ≠ 13 := by
  rcases List.mem_append.mp member with inName | others
  · have bounds := token_bounds (line.token octet inName)
    exact ⟨bounds.1, bounds.2.1⟩
  · rcases List.mem_cons.mp others with rfl | inTail
    · decide
    · exact mem_tail_bounds inTail

theorem two_le_length_spelling
    (line : FieldLine) :
    2 ≤ line.spelling.length := by
  have named := List.length_pos_iff.mpr line.named
  simp only [spelling, List.length_append, List.length_cons]
  omega

end FieldLine

/-- The request line of `GET /`, by its minor version. -/
def requestLine (minor : Nat) : Octets :=
  if minor = 0 then octets "GET / HTTP/1.0\r\n" else octets "GET / HTTP/1.1\r\n"

theorem requestLine_eq
    {minor : Nat}
    (known : minor ≤ 1) :
    requestLine minor = (octets "GET / HTTP/1." ++ [48 + UInt8.ofNat minor]) ++ lineEnd := by
  have cases_ : minor = 0 ∨ minor = 1 := by omega
  rcases cases_ with rfl | rfl <;> rfl

def fieldBlock (lines : List FieldLine) : Octets :=
  lines.flatMap fun line => line.spelling ++ lineEnd

/-- A head with its closing empty line. -/
def headOctets (minor : Nat) (lines : List FieldLine) : Octets :=
  requestLine minor ++ fieldBlock lines ++ lineEnd

/-- What is relied on of the HTTP parser: a well-formed head of at most 64
field lines is complete at its empty line, whatever follows it, and yields its
fields with the blanks around their values taken off. -/
structure HttparseReads (httparse : Octets → Option RawRequest) : Prop where
  complete : ∀ (minor : Nat) (lines : List FieldLine) (rest : Octets)
    (few : (lines.map FieldLine.header).length ≤ maxHeaderCount),
    minor ≤ 1 →
    httparse (headOctets minor lines ++ rest) =
      some {
        method := octets "GET"
        target := octets "/"
        version := minor
        headers := lines.map FieldLine.header
        headerLength := (headOctets minor lines).length
        fewHeaders := few }

end Parser
end HttpNative
