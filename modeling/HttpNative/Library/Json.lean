import HttpNative.Library.Decimal
import HttpNative.Library.Text
import Mathlib.Data.Option.Basic
import Mathlib.Data.List.Forall2

/-!
# JSON values and their compact text

A writer without whitespace and a reader of such texts. The writer is
parametrised by how it escapes characters in strings; what it writes is read
back as the value it wrote. Escaped surrogates are not read: text is made of
scalar values and no writer here needs them.
-/

namespace HttpNative
namespace Json

/-! ## Numbers -/

inductive NumberState where
  | start
  | minus
  | zero
  | whole
  | point
  | fraction
  | exponent
  | sign
  | power
  | failed
deriving DecidableEq, Repr

def NumberState.step : NumberState → Char → NumberState
  | .start, char =>
      if char = '-' then .minus else if char = '0' then .zero
      else if char.isDigit then .whole else .failed
  | .minus, char =>
      if char = '0' then .zero else if char.isDigit then .whole else .failed
  | .zero, char =>
      if char = '.' then .point else if char = 'e' ∨ char = 'E' then .exponent else .failed
  | .whole, char =>
      if char.isDigit then .whole else if char = '.' then .point
      else if char = 'e' ∨ char = 'E' then .exponent else .failed
  | .point, char => if char.isDigit then .fraction else .failed
  | .fraction, char =>
      if char.isDigit then .fraction
      else if char = 'e' ∨ char = 'E' then .exponent else .failed
  | .exponent, char =>
      if char = '+' ∨ char = '-' then .sign else if char.isDigit then .power else .failed
  | .sign, char => if char.isDigit then .power else .failed
  | .power, char => if char.isDigit then .power else .failed
  | .failed, _ => .failed

def NumberState.accepts : NumberState → Bool
  | .zero | .whole | .fraction | .power => true
  | _ => false

def isNumber (input : Text) : Bool :=
  (input.foldl NumberState.step .start).accepts

/-- A number as it is spelled. -/
structure NumberLiteral where
  spelling : Text
  valid : isNumber spelling = true
deriving DecidableEq, Repr

theorem foldl_step_write
    {number : Nat}
    (positive : 0 < number) :
    (Decimal.write number).foldl NumberState.step .start = .whole := by
  have first : ∀ digit < 10, 0 < digit →
      NumberState.step .start (Nat.digitChar digit) = .whole := by
    decide
  induction number using Nat.strong_induction_on with
  | _ number hypothesis =>
      unfold Decimal.write at hypothesis ⊢
      by_cases small : number < 10
      · rw [Nat.toDigits_of_lt_base small]
        exact first number small positive
      · have digit : (Nat.digitChar (number % 10)).isDigit = true := by
          rw [Nat.isDigit_digitChar]
          exact decide_eq_true (Nat.mod_lt number (by decide))
        rw [Nat.toDigits_of_base_le (by decide) (Nat.le_of_not_lt small), List.foldl_append,
          hypothesis (number / 10) (by omega) (by omega)]
        exact if_pos digit

theorem isNumber_write
    (number : Nat) :
    isNumber (Decimal.write number) = true := by
  cases number with
  | zero => rfl
  | succ number =>
      rw [isNumber, foldl_step_write number.succ_pos]
      rfl

def NumberLiteral.ofNat (number : Nat) : NumberLiteral where
  spelling := Decimal.write number
  valid := isNumber_write number

def isNumberChar (char : Char) : Bool :=
  char.isDigit || char == '+' || char == '-' || char == '.' || char == 'e' || char == 'E'

theorem NumberState.foldl_failed
    (input : Text) :
    input.foldl NumberState.step .failed = .failed := by
  induction input with
  | nil => rfl
  | cons char rest hypothesis => exact hypothesis

/-- A state that is left for a live one is left by a number character. -/
theorem isNumberChar_of_step
    {state : NumberState} {char : Char}
    (live : state.step char ≠ .failed) :
    isNumberChar char = true := by
  by_contra other
  simp only [isNumberChar, Bool.or_eq_true, beq_iff_eq, not_or] at other
  obtain ⟨⟨⟨⟨⟨digit, plus⟩, minus⟩, point⟩, lower⟩, upper⟩ := other
  have zero : char ≠ '0' := by
    rintro rfl
    exact digit rfl
  apply live
  cases state <;> simp [NumberState.step, digit, plus, minus, point, lower, upper, zero]

theorem isNumberChar_of_isNumber
    {input : Text}
    (number : isNumber input = true) :
    ∀ char ∈ input, isNumberChar char = true := by
  unfold isNumber at number
  generalize NumberState.start = state at number
  induction input generalizing state with
  | nil => simp
  | cons first rest hypothesis =>
      intro char member
      rw [List.foldl_cons] at number
      rcases List.mem_cons.mp member with rfl | inRest
      · refine @isNumberChar_of_step state char ?_
        intro failed
        rw [failed, NumberState.foldl_failed] at number
        cases number
      · exact hypothesis _ number char inRest

theorem NumberLiteral.spelling_ne_nil
    (literal : NumberLiteral) :
    literal.spelling ≠ [] := by
  intro empty
  have valid := literal.valid
  rw [empty] at valid
  cases valid

/-- The longest run of number characters, when it spells a number. -/
def readNumber (input : Text) : Option (NumberLiteral × Text) :=
  let spelling := input.takeWhile isNumberChar
  if valid : isNumber spelling = true then
    some (⟨spelling, valid⟩, input.dropWhile isNumberChar)
  else
    none

/-- No number goes on in what follows. -/
def Boundary (input : Text) : Prop :=
  ∀ char ∈ input.head?, isNumberChar char = false

theorem readNumber_append
    (literal : NumberLiteral)
    {rest : Text}
    (boundary : Boundary rest) :
    readNumber (literal.spelling ++ rest) = some (literal, rest) := by
  have chars := isNumberChar_of_isNumber literal.valid
  have taken : rest.takeWhile isNumberChar = [] := by
    cases rest with
    | nil => rfl
    | cons char others => simp [boundary char rfl]
  have dropped : rest.dropWhile isNumberChar = rest := by
    cases rest with
    | nil => rfl
    | cons char others => simp [boundary char rfl]
  unfold readNumber
  simp only [List.takeWhile_append_of_pos chars, List.dropWhile_append_of_pos chars, taken,
    dropped, List.append_nil, literal.valid, dite_true]

/-! ## Strings -/

def hexDigit (value : Nat) : Char :=
  if value < 10 then Char.ofNat ('0'.toNat + value) else Char.ofNat ('a'.toNat + (value - 10))

def hexDigitValue (char : Char) : Option Nat :=
  if '0' ≤ char ∧ char ≤ '9' then some (char.toNat - '0'.toNat)
  else if 'a' ≤ char ∧ char ≤ 'f' then some (char.toNat - 'a'.toNat + 10)
  else if 'A' ≤ char ∧ char ≤ 'F' then some (char.toNat - 'A'.toNat + 10)
  else none

theorem hexDigitValue_hexDigit :
    ∀ value < 16, hexDigitValue (hexDigit value) = some value := by
  decide

/-- The character of an escape of four digits; none for a surrogate. -/
def readHex (first second third fourth : Char) : Option Char := do
  let first ← hexDigitValue first
  let second ← hexDigitValue second
  let third ← hexDigitValue third
  let fourth ← hexDigitValue fourth
  let codePoint := ((first * 16 + second) * 16 + third) * 16 + fourth
  if codePoint.isValidChar then some (Char.ofNat codePoint) else none

/-- The character a backslash and a letter stand for. -/
def readShortEscape (char : Char) : Option Char :=
  if char = '"' then some '"' else if char = '\\' then some '\\'
  else if char = '/' then some '/' else if char = 'b' then some '\x08'
  else if char = 'f' then some '\x0C' else if char = 'n' then some '\n'
  else if char = 'r' then some '\r' else if char = 't' then some '\t'
  else none

/-- Read a string after its opening quote; returns what follows the closing
one. -/
def readString : Text → Option (Text × Text)
  | '\\' :: 'u' :: first :: second :: third :: fourth :: rest =>
      match readHex first second third fourth with
      | some char => (readString rest).map fun result => (char :: result.1, result.2)
      | none => none
  | '\\' :: letter :: rest =>
      match readShortEscape letter with
      | some char => (readString rest).map fun result => (char :: result.1, result.2)
      | none => none
  | '"' :: rest => some ([], rest)
  | char :: rest =>
      if char.toNat < 0x20 ∨ char = '\\' then
        none
      else
        (readString rest).map fun result => (char :: result.1, result.2)
  | [] => none

/-- A way of writing characters in strings that the reader undoes. -/
structure StringWriter where
  escape : Char → Text
  readBack : ∀ (char : Char) (rest : Text),
    readString (escape char ++ rest) =
      (readString rest).map fun result => (char :: result.1, result.2)

/-- The short escapes that every JSON writer uses. -/
def shortEscape (char : Char) : Option Text :=
  if char = '"' then some ['\\', '"'] else if char = '\\' then some ['\\', '\\']
  else if char = '\n' then some ['\\', 'n'] else if char = '\r' then some ['\\', 'r']
  else if char = '\t' then some ['\\', 't'] else if char = '\x08' then some ['\\', 'b']
  else if char = '\x0C' then some ['\\', 'f']
  else none

/-- An escape of four digits for a small code point. -/
def hexEscape (char : Char) : Text :=
  ['\\', 'u', '0', '0', hexDigit (char.toNat / 16), hexDigit (char.toNat % 16)]

theorem readString_shortEscape
    {char : Char} {escaped : Text}
    (short : shortEscape char = some escaped)
    (rest : Text) :
    readString (escaped ++ rest) =
      (readString rest).map fun result => (char :: result.1, result.2) := by
  unfold shortEscape at short
  repeat'
    split at short
  all_goals
    first
    | (cases short; rename_i same; subst same; simp [readString, readShortEscape])
    | cases short

theorem readString_hexEscape
    {char : Char}
    (small : char.toNat < 0x100)
    (rest : Text) :
    readString (hexEscape char ++ rest) =
      (readString rest).map fun result => (char :: result.1, result.2) := by
  have zero : hexDigitValue '0' = some 0 := rfl
  have high := hexDigitValue_hexDigit (char.toNat / 16) (by omega)
  have low := hexDigitValue_hexDigit (char.toNat % 16) (by omega)
  have codePoint : char.toNat / 16 * 16 + char.toNat % 16 = char.toNat := by omega
  have valid : char.toNat.isValidChar := .inl (by omega)
  have read : readHex '0' '0' (hexDigit (char.toNat / 16)) (hexDigit (char.toNat % 16)) =
      some char := by
    simp [readHex, zero, high, low, codePoint, valid]
  simp [hexEscape, readString, read]

theorem readString_literal
    {char : Char}
    (unescaped : shortEscape char = none)
    (large : ¬ char.toNat < 0x20)
    (rest : Text) :
    readString (char :: rest) =
      (readString rest).map fun result => (char :: result.1, result.2) := by
  have quote : char ≠ '"' := by
    rintro rfl
    cases unescaped
  have backslash : char ≠ '\\' := by
    rintro rfl
    cases unescaped
  rw [readString]
  · rw [if_neg (by simp [large, backslash])]
  all_goals simp [quote, backslash]

/-- Escape the short way, with four digits where a writer asks for it, and
leave every other character as it is. -/
def escapeWith (escapes : Char → Bool) (char : Char) : Text :=
  match shortEscape char with
  | some escaped => escaped
  | none => if escapes char then hexEscape char else [char]

/-- Escaping the control characters of ASCII, and nothing beyond one octet,
can be undone. -/
def StringWriter.ofEscapes
    (escapes : Char → Bool)
    (small : ∀ char, escapes char = true → char.toNat < 0x100)
    (controls : ∀ char : Char, char.toNat < 0x20 → escapes char = true) :
    StringWriter where
  escape := escapeWith escapes
  readBack := by
    intro char rest
    unfold escapeWith
    split
    · rename_i escaped short
      exact readString_shortEscape short rest
    · rename_i unescaped
      split
      · rename_i wanted
        exact readString_hexEscape (small char wanted) rest
      · rename_i unwanted
        exact readString_literal unescaped (fun control => unwanted (controls char control)) rest

/-- How `JSON.stringify` writes characters of strings. -/
def stringifyWriter : StringWriter :=
  .ofEscapes (fun char => char.toNat < 0x20)
    (by
      intro char small
      have below : char.toNat < 0x20 := by simpa using small
      omega)
    (by
      intro char small
      simpa using small)

namespace StringWriter

variable (writer : StringWriter)

/-- A string between quotes. -/
def writeString (value : Text) : Text :=
  '"' :: (value.flatMap writer.escape ++ ['"'])

theorem readString_flatMap
    (value rest : Text) :
    readString (value.flatMap writer.escape ++ '"' :: rest) = some (value, rest) := by
  induction value with
  | nil => simp [readString]
  | cons char chars hypothesis =>
      rw [List.flatMap_cons, List.append_assoc, writer.readBack, hypothesis]
      rfl

end StringWriter
end Json

/-! ## Values -/

/-- A JSON value; the members of an object in the order they are written. -/
inductive Json where
  | null
  | bool (value : Bool)
  | number (literal : Json.NumberLiteral)
  | string (value : Text)
  | array (values : List Json)
  | object (members : List (Text × Json))
deriving Repr

namespace Json

/-- A comma, unless nothing follows. -/
def separator {Item : Type} : List Item → Text
  | [] => []
  | _ :: _ => [',']

def joinComma : List Text → Text
  | [] => []
  | spelling :: spellings => spelling ++ (separator spellings ++ joinComma spellings)

section Writing

variable (writer : StringWriter)

mutual

/-- The compact text of a value. -/
def render : Json → Text
  | .null => text "null"
  | .bool true => text "true"
  | .bool false => text "false"
  | .number literal => literal.spelling
  | .string value => writer.writeString value
  | .array values => '[' :: (joinComma (renderElements values) ++ [']'])
  | .object members => '{' :: (joinComma (renderMembers members) ++ ['}'])

def renderElements : List Json → List Text
  | [] => []
  | value :: values => render value :: renderElements values

def renderMembers : List (Text × Json) → List Text
  | [] => []
  | (key, value) :: members =>
      (writer.writeString key ++ ':' :: render value) :: renderMembers members

end

end Writing

def stripPrefix : Text → Text → Option Text
  | [], input => some input
  | expected :: rest, char :: input => if char = expected then stripPrefix rest input else none
  | _ :: _, [] => none

theorem stripPrefix_eq_some_iff
    {word input rest : Text} :
    stripPrefix word input = some rest ↔ input = word ++ rest := by
  induction word generalizing input with
  | nil => rw [stripPrefix, Option.some_inj, List.nil_append]
  | cons expected word hypothesis =>
      cases input with
      | nil => simp [stripPrefix]
      | cons char input =>
          rw [stripPrefix, List.cons_append, List.cons.injEq]
          split
          · rename_i same
            rw [hypothesis, and_iff_right same]
          · rename_i different
            simp [different]

mutual

/-- Read a value; returns what follows it. The fuel bounds the nesting. -/
def readValue : Nat → Text → Option (Json × Text)
  | 0, _ => none
  | _ + 1, [] => none
  | fuel + 1, char :: rest =>
      if char = '"' then
        (readString rest).map fun result => (.string result.1, result.2)
      else if char = '[' then
        match stripPrefix [']'] rest with
        | some after => some (.array [], after)
        | none => (readElements fuel rest).map fun result => (.array result.1, result.2)
      else if char = '{' then
        match stripPrefix ['}'] rest with
        | some after => some (.object [], after)
        | none => (readMembers fuel rest).map fun result => (.object result.1, result.2)
      else if char = 'n' then
        (stripPrefix (text "ull") rest).map fun after => (.null, after)
      else if char = 't' then
        (stripPrefix (text "rue") rest).map fun after => (.bool true, after)
      else if char = 'f' then
        (stripPrefix (text "alse") rest).map fun after => (.bool false, after)
      else
        (readNumber (char :: rest)).map fun result => (.number result.1, result.2)

/-- Read the elements of an array up to its closing bracket. -/
def readElements : Nat → Text → Option (List Json × Text)
  | 0, _ => none
  | fuel + 1, input =>
      match readValue fuel input with
      | some (value, ',' :: rest) =>
          (readElements fuel rest).map fun result => (value :: result.1, result.2)
      | some (value, ']' :: rest) => some ([value], rest)
      | _ => none

/-- Read the members of an object up to its closing brace. -/
def readMembers : Nat → Text → Option (List (Text × Json) × Text)
  | fuel + 1, '"' :: input =>
      match readString input with
      | some (key, ':' :: afterKey) =>
          match readValue fuel afterKey with
          | some (value, ',' :: rest) =>
              (readMembers fuel rest).map fun result => ((key, value) :: result.1, result.2)
          | some (value, '}' :: rest) => some ([(key, value)], rest)
          | _ => none
      | _ => none
  | _, _ => none

end

/-- The value of a compact JSON text. -/
def parse (input : Text) : Option Json :=
  match readValue input.length input with
  | some (value, []) => some value
  | _ => none

/-! ## Spellings -/

theorem boundary_nil : Boundary [] := by
  simp [Boundary]

theorem boundary_cons
    {char : Char}
    (other : isNumberChar char = false)
    (rest : Text) :
    Boundary (char :: rest) := by
  intro first isFirst
  cases isFirst
  exact other

/-- The reader takes a spelling as a value wherever it stands. -/
structure Spells (spelling : Text) (value : Json) : Prop where
  starts : ∃ char rest, spelling = char :: rest ∧ char ≠ ']'
  reads : ∀ (fuel : Nat) (rest : Text), spelling.length ≤ fuel → Boundary rest →
    readValue fuel (spelling ++ rest) = some (value, rest)

/-- The reader takes a spelling as a member's key and its colon. -/
def SpellsKey (spelling key : Text) : Prop :=
  ∃ body, spelling = '"' :: body ∧
    ∀ rest, readString (body ++ rest) = some (key, ':' :: rest)

def SpellsMember (spelling : Text) (member : Text × Json) : Prop :=
  ∃ keySpelling valueSpelling, spelling = keySpelling ++ valueSpelling ∧
    SpellsKey keySpelling member.1 ∧ Spells valueSpelling member.2

/-- A spelling of a whole text is parsed. -/
theorem Spells.parse_eq
    {spelling : Text} {value : Json}
    (spells : Spells spelling value) :
    parse spelling = some value := by
  have read := spells.reads spelling.length [] (Nat.le_refl _) boundary_nil
  rw [List.append_nil] at read
  rw [parse, read]

/-- A spelling that starts with a character is read by cases on it. -/
theorem spells_cons
    {char : Char} {spelling : Text} {value : Json}
    (notClosing : char ≠ ']')
    (reads : ∀ (fuel : Nat) (rest : Text), spelling.length ≤ fuel → Boundary rest →
      readValue (fuel + 1) (char :: (spelling ++ rest)) = some (value, rest)) :
    Spells (char :: spelling) value where
  starts := ⟨char, spelling, rfl, notClosing⟩
  reads := by
    intro fuel rest short boundary
    cases fuel with
    | zero => simp at short
    | succ fuel => exact reads fuel rest (by simpa using short) boundary

theorem spells_null : Spells (text "null") .null :=
  spells_cons (by decide) fun _ _ _ _ => rfl

theorem spells_bool
    (value : Bool) :
    Spells (if value then text "true" else text "false") (.bool value) := by
  cases value with
  | true => exact spells_cons (by decide) fun _ _ _ _ => rfl
  | false => exact spells_cons (by decide) fun _ _ _ _ => rfl

theorem spells_number
    (literal : NumberLiteral) :
    Spells literal.spelling (.number literal) := by
  cases spelled : literal.spelling with
  | nil => exact absurd spelled literal.spelling_ne_nil
  | cons char others =>
      have number := isNumberChar_of_isNumber literal.valid char (by simp [spelled])
      have other : ∀ special, isNumberChar special = false → char ≠ special := by
        rintro special notNumber rfl
        rw [number] at notNumber
        cases notNumber
      refine spells_cons (other ']' rfl) fun fuel rest _ boundary => ?_
      have read := readNumber_append literal boundary
      rw [spelled, List.cons_append] at read
      rw [readValue, if_neg (other '"' rfl), if_neg (other '[' rfl), if_neg (other '{' rfl),
        if_neg (other 'n' rfl), if_neg (other 't' rfl), if_neg (other 'f' rfl), read]
      rfl

theorem spells_string
    (writer : StringWriter)
    (value : Text) :
    Spells (writer.writeString value) (.string value) := by
  refine spells_cons (by decide) fun fuel rest _ _ => ?_
  rw [List.append_assoc, List.singleton_append, readValue, if_pos rfl,
    writer.readString_flatMap]
  rfl

theorem spellsKey_string
    (writer : StringWriter)
    (key : Text) :
    SpellsKey (writer.writeString key ++ [':']) key := by
  refine ⟨key.flatMap writer.escape ++ ['"', ':'], ?_, fun rest => ?_⟩
  · simp [StringWriter.writeString]
  · rw [List.append_assoc, List.cons_append, writer.readString_flatMap]
    rfl

theorem readElements_joinComma
    {spellings : List Text} {values : List Json}
    (spells : List.Forall₂ Spells spellings values)
    (nonempty : values ≠ [])
    (fuel : Nat)
    (rest : Text)
    (short : (joinComma spellings).length < fuel) :
    readElements fuel (joinComma spellings ++ ']' :: rest) = some (values, rest) := by
  induction spells generalizing fuel with
  | nil => exact absurd rfl nonempty
  | @cons spelling value spellings values first others hypothesis =>
      cases fuel with
      | zero => omega
      | succ fuel =>
          rw [joinComma, List.length_append, List.length_append] at short
          rw [joinComma, List.append_assoc, List.append_assoc, readElements]
          cases others with
          | nil =>
              have read := first.reads fuel (']' :: rest) (by omega) (boundary_cons rfl rest)
              simp only [separator, joinComma, List.nil_append, read]
          | @cons next _ remaining _ _ _ =>
              have read := first.reads fuel
                (',' :: (joinComma (next :: remaining) ++ ']' :: rest)) (by omega)
                (boundary_cons rfl _)
              simp only [separator, List.singleton_append, List.length_singleton] at short ⊢
              rw [read]
              simp only [hypothesis (by simp) fuel (by omega)]
              rfl

theorem readMembers_joinComma
    {spellings : List Text} {members : List (Text × Json)}
    (spells : List.Forall₂ SpellsMember spellings members)
    (nonempty : members ≠ [])
    (fuel : Nat)
    (rest : Text)
    (short : (joinComma spellings).length < fuel) :
    readMembers fuel (joinComma spellings ++ '}' :: rest) = some (members, rest) := by
  induction spells generalizing fuel with
  | nil => exact absurd rfl nonempty
  | @cons spelling member spellings members first others hypothesis =>
      obtain ⟨keySpelling, valueSpelling, rfl, ⟨body, rfl, readsKey⟩, spellsValue⟩ := first
      cases fuel with
      | zero => omega
      | succ fuel =>
          rw [joinComma, List.length_append, List.length_append, List.length_append,
            List.length_cons] at short
          rw [joinComma, List.append_assoc, List.append_assoc, List.append_assoc,
            List.cons_append, readMembers, readsKey]
          cases others with
          | nil =>
              have read := spellsValue.reads fuel ('}' :: rest) (by omega)
                (boundary_cons rfl rest)
              simp only [separator, joinComma, List.nil_append, read]
          | @cons next _ remaining _ _ _ =>
              have read := spellsValue.reads fuel
                (',' :: (joinComma (next :: remaining) ++ '}' :: rest)) (by omega)
                (boundary_cons rfl _)
              simp only [separator, List.singleton_append, List.length_singleton] at short ⊢
              rw [read]
              simp only [hypothesis (by simp) fuel (by omega)]
              rfl

theorem spells_array
    {spellings : List Text} {values : List Json}
    (spells : List.Forall₂ Spells spellings values) :
    Spells ('[' :: (joinComma spellings ++ [']'])) (.array values) := by
  refine spells_cons (by decide) fun fuel rest short _ => ?_
  rw [List.append_assoc, List.singleton_append, readValue, if_neg (by decide), if_pos rfl]
  rw [List.length_append, List.length_singleton] at short
  cases spells with
  | nil => simp [joinComma, stripPrefix]
  | @cons _ _ remaining _ first others =>
      have read := readElements_joinComma (.cons first others) (by simp) fuel rest (by omega)
      obtain ⟨char, chars, rfl, notClosing⟩ := first.starts
      have goesOn : stripPrefix [']'] (joinComma ((char :: chars) :: remaining) ++ ']' :: rest) =
          none := by
        rw [joinComma]
        simp [stripPrefix, notClosing]
      rw [goesOn, read]
      rfl

theorem spells_object
    {spellings : List Text} {members : List (Text × Json)}
    (spells : List.Forall₂ SpellsMember spellings members) :
    Spells ('{' :: (joinComma spellings ++ ['}'])) (.object members) := by
  refine spells_cons (by decide) fun fuel rest short _ => ?_
  rw [List.append_assoc, List.singleton_append, readValue, if_neg (by decide),
    if_neg (by decide), if_pos rfl]
  rw [List.length_append, List.length_singleton] at short
  cases spells with
  | nil => simp [joinComma, stripPrefix]
  | @cons _ _ remaining _ first others =>
      have read := readMembers_joinComma (.cons first others) (by simp) fuel rest (by omega)
      obtain ⟨keySpelling, valueSpelling, rfl, ⟨body, rfl, _⟩, _⟩ := first
      have goesOn : stripPrefix ['}']
          (joinComma (('"' :: body ++ valueSpelling) :: remaining) ++ '}' :: rest) = none := by
        rw [joinComma]
        simp [stripPrefix]
      rw [goesOn, read]
      rfl

mutual

/-- What is written is read back. -/
theorem spells_render
    (writer : StringWriter) :
    ∀ value : Json, Spells (value.render writer) value
  | .null => by
      rw [render]
      exact spells_null
  | .bool true => by
      rw [render]
      exact spells_bool true
  | .bool false => by
      rw [render]
      exact spells_bool false
  | .number literal => by
      rw [render]
      exact spells_number literal
  | .string value => by
      rw [render]
      exact spells_string writer value
  | .array values => by
      rw [render]
      exact spells_array (spells_renderElements writer values)
  | .object members => by
      rw [render]
      exact spells_object (spells_renderMembers writer members)

theorem spells_renderElements
    (writer : StringWriter) :
    ∀ values : List Json, List.Forall₂ Spells (renderElements writer values) values
  | [] => by
      rw [renderElements]
      exact .nil
  | value :: values => by
      rw [renderElements]
      exact .cons (spells_render writer value) (spells_renderElements writer values)

theorem spells_renderMembers
    (writer : StringWriter) :
    ∀ members : List (Text × Json),
      List.Forall₂ SpellsMember (renderMembers writer members) members
  | [] => by
      rw [renderMembers]
      exact .nil
  | (key, value) :: members => by
      rw [renderMembers]
      refine .cons ⟨writer.writeString key ++ [':'], value.render writer, by simp, ?_, ?_⟩
        (spells_renderMembers writer members)
      · exact spellsKey_string writer key
      · exact spells_render writer value

end

/-- Parsing undoes rendering. -/
theorem parse_render
    (writer : StringWriter)
    (value : Json) :
    parse (value.render writer) = some value :=
  (spells_render writer value).parse_eq

/-! ## Equality of values -/

/-- The value of the last member of a name, the one an object keeps. -/
def member (key : Text) (members : List (Text × Json)) : Option Json :=
  ((members.filter fun entry => entry.1 = key).getLast?).map Prod.snd

/-- The same value: objects agree member by member, whatever their order. -/
inductive Same : Json → Json → Prop
  | refl (value : Json) : Same value value
  | array {values others : List Json} :
      List.Forall₂ Same values others → Same (.array values) (.array others)
  | object {members others : List (Text × Json)} :
      (∀ key, Option.Rel Same (member key members) (member key others)) →
      Same (.object members) (.object others)

/-- The last member of a name among the members that items give. -/
theorem member_filterMap
    {Item : Type}
    (keyOf : Item → Text)
    (valueOf : Item → Option Json)
    (items : List Item)
    (key : Text) :
    member key (items.filterMap fun item => (valueOf item).map fun value => (keyOf item, value)) =
      ((items.filter fun item => keyOf item = key).filterMap valueOf).getLast? := by
  rw [member, ← List.getLast?_map]
  congr 1
  induction items with
  | nil => rfl
  | cons item rest hypothesis =>
      rw [List.filterMap_cons, List.filter_cons]
      cases found : valueOf item with
      | none =>
          by_cases same : keyOf item = key
          · simpa [same, found] using hypothesis
          · simpa [same] using hypothesis
      | some value =>
          by_cases same : keyOf item = key
          · simpa [same, found] using hypothesis
          · simpa [same] using hypothesis

theorem option_rel_refl
    (value : Option Json) :
    Option.Rel Same value value := by
  cases value with
  | none => exact .none
  | some value => exact .some (.refl value)

theorem Same.object_iff
    {members others : List (Text × Json)} :
    Same (.object members) (.object others) ↔
      ∀ key, Option.Rel Same (member key members) (member key others) := by
  constructor
  · intro same key
    cases same with
    | refl => exact option_rel_refl _
    | object agree => exact agree key
  · exact .object

theorem Same.string_iff
    {value : Text} {other : Json} :
    Same (.string value) other ↔ other = .string value := by
  constructor
  · intro same
    cases same
    rfl
  · rintro rfl
    exact .refl _

theorem rel_map_string_iff
    {left right : Option Text} :
    Option.Rel Same (left.map .string) (right.map .string) ↔ left = right := by
  constructor
  · intro related
    cases left with
    | none =>
        cases right with
        | none => rfl
        | some value => cases related
    | some value =>
        cases right with
        | none => cases related
        | some other =>
            cases related with
            | some same =>
                cases same
                rfl
  · rintro rfl
    exact option_rel_refl _

end Json
end HttpNative
