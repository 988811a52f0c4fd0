import HttpNative.Library.JsonValue

/-!
# What is written is read

The reader takes the text of a value at every depth and is behind that value then. What
it takes inside a string can be written as an escape instead, and is read the same.
-/

namespace HttpNative
namespace JsonValue

open Json (hexDigit hexDigitValue hexDigitValue_hexDigit shortEscape readShortEscape NumberLiteral
  isNumberChar joinComma separator)

namespace Reader

@[simp] theorem read_nil
    (reader : Reader) :
    reader.read [] = reader := rfl

@[simp] theorem read_cons
    (reader : Reader)
    (char : Char)
    (input : Text) :
    reader.read (char :: input) = (reader.step char).read input := rfl

theorem read_append
    (reader : Reader)
    (first second : Text) :
    reader.read (first ++ second) = (reader.read first).read second :=
  List.foldl_append

theorem read_failed
    (input : Text) :
    failed.read input = failed := by
  induction input with
  | nil => rfl
  | cons char input hypothesis => exact hypothesis

theorem step_of_not_isNumberChar
    {char : Char}
    (other : isNumberChar char = false)
    (reader : Reader) :
    reader.step char = stepSettled char reader.settle := by
  cases reader with
  | number spelling stack => rw [step, other, if_neg Bool.false_ne_true]
  | _ => rfl

/-! ## Strings -/

section Strings

variable (purpose : Purpose) (value : JsString) (stack : List Frame)

theorem step_digit
    {char : Char} {digit : Nat}
    (isDigit : hexDigitValue char = some digit)
    (count amount : Nat) :
    (string purpose value (.digits count amount) stack).step char =
      if count = 3 then
        string purpose (value ++ [.ofNat (amount * 0x10 + digit)]) .none stack
      else
        string purpose value (.digits (count + 1) (amount * 0x10 + digit)) stack := by
  rw [step, stepSettled, inString, isDigit]
  intro _ _ number
  cases number

theorem read_unitEscape
    (unit : UInt16) :
    (string purpose value .none stack).read (unitEscape unit) =
      string purpose (value ++ [unit]) .none stack := by
  have size := unit.toNat_lt
  have first := hexDigitValue_hexDigit (unit.toNat / 0x1000) (by omega)
  have second := hexDigitValue_hexDigit (unit.toNat / 0x100 % 0x10) (by omega)
  have third := hexDigitValue_hexDigit (unit.toNat / 0x10 % 0x10) (by omega)
  have fourth := hexDigitValue_hexDigit (unit.toNat % 0x10) (by omega)
  have number : (((0 * 0x10 + unit.toNat / 0x1000) * 0x10 + unit.toNat / 0x100 % 0x10) * 0x10 +
      unit.toNat / 0x10 % 0x10) * 0x10 + unit.toNat % 0x10 = unit.toNat := by
    omega
  have opened : ((string purpose value .none stack).step '\\').step 'u' =
      string purpose value (.digits 0 0) stack := rfl
  rw [unitEscape, read_cons, read_cons, opened, read_cons, step_digit _ _ _ first,
    if_neg (by decide), read_cons, step_digit _ _ _ second, if_neg (by decide), read_cons,
    step_digit _ _ _ third, if_neg (by decide), read_cons, step_digit _ _ _ fourth, if_pos rfl,
    read_nil, number, UInt16.ofNat_toNat]

theorem read_shortEscape
    {char : Char} {escaped : Text}
    (short : shortEscape char = some escaped) :
    (string purpose value .none stack).read escaped =
      string purpose (value ++ JsString.unitsOf char) .none stack := by
  unfold shortEscape at short
  repeat'
    split at short
  all_goals
    first
    | (cases short; rename_i same; subst same; rfl)
    | cases short

theorem read_quotePoint
    (point : CodePoint) :
    (string purpose value .none stack).read (quotePoint point) =
      string purpose (value ++ point.units) .none stack := by
  cases point with
  | lone unit => exact read_unitEscape purpose value stack unit
  | scalar char =>
      rw [quotePoint, CodePoint.units]
      split
      · rename_i escaped short
        exact read_shortEscape purpose value stack short
      · rename_i unescaped
        split
        · rename_i control
          have units : JsString.unitsOf char = [.ofNat char.toNat] :=
            if_pos (by omega)
          rw [read_unitEscape, units]
        · rename_i large
          have quote : char ≠ '"' := by
            rintro rfl
            cases unescaped
          have backslash : char ≠ '\\' := by
            rintro rfl
            cases unescaped
          simp only [read_cons, read_nil, step, stepSettled, inString]
          rw [if_neg quote, if_neg backslash, if_neg large]

theorem read_flatMap_quotePoint
    (points : List CodePoint) :
    (string purpose value .none stack).read (points.flatMap quotePoint) =
      string purpose (value ++ points.flatMap CodePoint.units) .none stack := by
  induction points generalizing value with
  | nil => rw [List.flatMap_nil, List.flatMap_nil, List.append_nil, read_nil]
  | cons point points hypothesis =>
      rw [List.flatMap_cons, List.flatMap_cons, read_append, read_quotePoint, hypothesis,
        List.append_assoc]

/-- What is between the quotes of a string is read up to the closing quote. -/
theorem read_quoted
    (content : JsString) :
    (string purpose [] .none stack).read ((JsString.codePoints content).flatMap quotePoint ++
        ['"']) =
      close content stack purpose := by
  rw [read_append, read_flatMap_quotePoint, List.nil_append, JsString.flatMap_units_codePoints]
  rfl

end Strings

/-! ## Numbers -/

theorem read_number
    {chars : Text}
    (number : ∀ char ∈ chars, isNumberChar char = true)
    (spelling : Text)
    (stack : List Frame) :
    (Reader.number spelling stack).read chars = .number (spelling ++ chars) stack := by
  induction chars generalizing spelling with
  | nil => rw [read_nil, List.append_nil]
  | cons char chars hypothesis =>
      have step : (Reader.number spelling stack).step char = .number (spelling ++ [char]) stack :=
        if_pos (number char List.mem_cons_self)
      rw [read_cons, step, hypothesis fun other member => number other (List.mem_cons_of_mem _ member),
        List.append_assoc]
      rfl

theorem read_literal
    (literal : NumberLiteral)
    (stack : List Frame) :
    ((due stack).read literal.spelling).settle = behind (.number literal) stack := by
  have number := Json.isNumberChar_of_isNumber literal.valid
  obtain ⟨spelling, valid⟩ := literal
  cases spelling with
  | nil => cases valid
  | cons char chars =>
      have isNumber := number char List.mem_cons_self
      have other : ∀ special, isNumberChar special = false → char ≠ special := by
        rintro special notNumber rfl
        rw [isNumber] at notNumber
        cases notNumber
      have noSpace : isJsonSpace char = false := by
        simp [isJsonSpace, other ' ' rfl, other '\t' rfl, other '\n' rfl, other '\r' rfl]
      have started : (due stack).step char = .number [char] stack := by
        simp only [step, stepSettled, noSpace, start]
        rw [if_neg Bool.false_ne_true, if_neg (other '"' rfl), if_neg (other '[' rfl),
          if_neg (other '{' rfl), if_neg (other 'n' rfl), if_neg (other 't' rfl),
          if_neg (other 'f' rfl), if_pos isNumber]
      have goesOn := read_number (fun other member => number other (List.mem_cons_of_mem _ member))
        [char] stack
      rw [read_cons, started, goesOn]
      exact dif_pos valid

end Reader

/-! ## Values -/

/-- A value begins with a character that is neither blank nor a closing bracket. -/
theorem exists_render_eq
    (value : JsonValue) :
    ∃ char rest, value.render = char :: rest ∧ isJsonSpace char = false ∧ char ≠ ']' := by
  cases value with
  | null => exact ⟨'n', text "ull", rfl, rfl, by decide⟩
  | bool value =>
      cases value with
      | true => exact ⟨'t', text "rue", rfl, rfl, by decide⟩
      | false => exact ⟨'f', text "alse", rfl, rfl, by decide⟩
  | string value => exact ⟨'"', _, by rw [render, quote], rfl, by decide⟩
  | array values => exact ⟨'[', _, by rw [render], rfl, by decide⟩
  | object members => exact ⟨'{', _, by rw [render], rfl, by decide⟩
  | number literal =>
      rw [render]
      cases spelled : literal.spelling with
      | nil => exact absurd spelled literal.spelling_ne_nil
      | cons char others =>
          have number := Json.isNumberChar_of_isNumber literal.valid char (by simp [spelled])
          refine ⟨char, others, rfl, ?_, ?_⟩
          · rw [← Bool.not_eq_true]
            intro space
            simp only [isJsonSpace, Bool.or_eq_true, beq_iff_eq] at space
            rcases space with ((rfl | rfl) | rfl) | rfl <;> cases number
          · rintro rfl
            cases number

namespace Reader

/-- The first element of an array is read as any other. -/
theorem read_dueOrEnd_render
    (value : JsonValue)
    (stack : List Frame)
    (rest : Text) :
    (dueOrEnd stack).read (value.render ++ rest) =
      (due (.array [] :: stack)).read (value.render ++ rest) := by
  obtain ⟨char, chars, spelled, noSpace, notClosing⟩ := exists_render_eq value
  have same : (dueOrEnd stack).step char = (due (.array [] :: stack)).step char := by
    simp only [step, stepSettled, noSpace]
    rw [if_neg Bool.false_ne_true, if_neg Bool.false_ne_true, if_neg notClosing]
  rw [spelled, List.cons_append, read_cons, read_cons, same]

/-- A member is read as soon as its value is. -/
theorem read_member
    {value : JsonValue}
    (reads : ∀ stack, ((due stack).read value.render).settle = behind value stack)
    (key : JsString)
    (before : List (JsString × JsonValue))
    (stack : List Frame) :
    ((keyDue before stack).read (quote key ++ ':' :: value.render)).settle =
      behind value (.object before key :: stack) := by
  have opened : (keyDue before stack).step '"' = string (.key before) [] .none stack := rfl
  have colon : (colonDue key before stack).step ':' = due (.object before key :: stack) := rfl
  rw [quote, List.cons_append, read_cons, opened, read_append, read_quoted, close, read_cons,
    colon, reads]

/-- A text is read as a member, with a key between quotes. -/
def SpellsMember (spelling : Text) (member : JsString × JsonValue) : Prop :=
  (∃ rest, spelling = '"' :: rest) ∧
    ∀ before stack, ((keyDue before stack).read spelling).settle =
      behind member.2 (.object before member.1 :: stack)

/-- Members with commas between them are read one behind the other. -/
theorem read_spelledMembers
    {spellings : List Text} {members : List (JsString × JsonValue)}
    (spells : List.Forall₂ SpellsMember spellings members)
    (nonempty : members ≠ [])
    (before : List (JsString × JsonValue))
    (stack : List Frame) :
    (keyDue before stack).read (joinComma spellings ++ ['}']) =
      behind (.object (before ++ members)) stack := by
  induction spells generalizing before with
  | nil => exact absurd rfl nonempty
  | @cons spelling member spellings members first others hypothesis =>
      cases others with
      | nil =>
          rw [joinComma, separator, joinComma, List.nil_append, List.append_nil, read_append,
            read_cons, read_nil, step_of_not_isNumberChar rfl, first.2]
          rfl
      | @cons next nextMember spellings members second others =>
          have comma : stepSettled ',' (behind member.2 (.object before member.1 :: stack)) =
              keyDue (before ++ [member]) stack := rfl
          rw [joinComma, separator, List.append_assoc, read_append, List.append_assoc,
            List.singleton_append, read_cons, step_of_not_isNumberChar rfl, first.2, comma,
            hypothesis (List.cons_ne_nil _ _), List.append_assoc]
          rfl

/-- An object with members is read when they are. -/
theorem read_spelledObject
    {spellings : List Text} {members : List (JsString × JsonValue)}
    (spells : List.Forall₂ SpellsMember spellings members)
    (nonempty : members ≠ [])
    (stack : List Frame) :
    (due stack).read ('{' :: (joinComma spellings ++ ['}'])) = behind (.object members) stack := by
  have opened : (due stack).step '{' = keyDueOrEnd stack := rfl
  have same : ∀ rest, (keyDueOrEnd stack).read ('"' :: rest) =
      (keyDue [] stack).read ('"' :: rest) := fun _ => rfl
  have all := read_spelledMembers spells nonempty [] stack
  cases spells with
  | nil => exact absurd rfl nonempty
  | @cons spelling member spellings members first others =>
      obtain ⟨⟨rest, rfl⟩, -⟩ := first
      rw [joinComma, List.cons_append, List.cons_append] at all
      rw [joinComma, read_cons, opened, List.cons_append, List.cons_append, same, all,
        List.nil_append]

mutual

/-- At every depth the reader is behind a value when it has read the text of it. -/
theorem read_render :
    ∀ (value : JsonValue) (stack : List Frame),
      ((due stack).read value.render).settle = behind value stack
  | .null, stack => by
      rw [render]
      rfl
  | .bool true, stack => by
      rw [render]
      rfl
  | .bool false, stack => by
      rw [render]
      rfl
  | .number literal, stack => by
      rw [render]
      exact read_literal literal stack
  | .string value, stack => by
      rw [render, quote, read_cons]
      exact congrArg settle (read_quoted .value stack value)
  | .array [], stack => by
      rw [render, renderElements]
      rfl
  | .array (value :: values), stack => by
      have opened : (due stack).step '[' = dueOrEnd stack := rfl
      have all := read_renderElements (value :: values) [] stack (List.cons_ne_nil value values)
      rw [renderElements, joinComma, List.append_assoc] at all
      rw [render, renderElements, joinComma, read_cons, opened, List.append_assoc,
        read_dueOrEnd_render, all]
      rfl
  | .object [], stack => by
      rw [render, renderMembers]
      rfl
  | .object (member :: members), stack => by
      rw [render]
      exact congrArg settle (read_spelledObject (spells_renderMembers (member :: members))
        (List.cons_ne_nil member members) stack)

theorem read_renderElements :
    ∀ (values before : List JsonValue) (stack : List Frame),
      values ≠ [] →
        (due (.array before :: stack)).read (joinComma (renderElements values) ++ [']']) =
          behind (.array (before ++ values)) stack
  | [], _, _, nonempty => absurd rfl nonempty
  | [value], before, stack, _ => by
      have first := read_render value (.array before :: stack)
      rw [renderElements, renderElements, joinComma, separator, joinComma, List.nil_append,
        List.append_nil, read_append, read_cons, read_nil, step_of_not_isNumberChar rfl, first]
      rfl
  | value :: next :: values, before, stack, _ => by
      have first := read_render value (.array before :: stack)
      have others := read_renderElements (next :: values) (before ++ [value]) stack
        (List.cons_ne_nil next values)
      have comma : stepSettled ',' (behind value (.array before :: stack)) =
          due (.array (before ++ [value]) :: stack) := rfl
      rw [renderElements] at others
      rw [renderElements, renderElements, joinComma, separator, List.append_assoc, read_append,
        List.append_assoc, List.singleton_append, read_cons, step_of_not_isNumberChar rfl, first,
        comma, others, List.append_assoc]
      rfl

theorem spells_renderMembers :
    ∀ members : List (JsString × JsonValue),
      List.Forall₂ SpellsMember (renderMembers members) members
  | [] => .nil
  | (key, value) :: members => by
      rw [renderMembers]
      refine .cons ⟨⟨_, by rw [quote, List.cons_append]⟩, ?_⟩ (spells_renderMembers members)
      exact fun before stack => read_member (read_render value) key before stack

end

end Reader

/-- Parsing undoes rendering. -/
theorem parse_render
    (value : JsonValue) :
    parse value.render = some value := by
  rw [parse, Reader.result, Reader.read_render value []]

/-! ## Other spellings -/

/-- A character that stands outside strings or behind a backslash. -/
def isTokenChar (char : Char) : Bool :=
  isJsonSpace char || char.isAlphanum ||
    ['"', '\\', '/', '[', ']', '{', '}', ':', ',', '+', '-', '.'].contains char

theorem ne_of_isTokenChar
    {char token : Char}
    (other : isTokenChar char = false)
    (isToken : isTokenChar token = true) :
    char ≠ token := by
  rintro rfl
  rw [isToken] at other
  cases other

/-- A text in which some characters are written as escapes. -/
inductive Respelled : Text → Text → Prop
  | nil : Respelled [] []
  | keep (char : Char) {input output : Text} :
      Respelled input output → Respelled (char :: input) (char :: output)
  | escape {char : Char} {input output : Text} :
      isTokenChar char = false → char.toNat < 0x10000 → Respelled input output →
      Respelled (char :: input) (unitEscape (.ofNat char.toNat) ++ output)

namespace Reader

theorem isNumberChar_of_not_isTokenChar
    {char : Char}
    (other : isTokenChar char = false) :
    isNumberChar char = false := by
  have noDigit : char.isDigit = false := by
    simp only [isTokenChar, Char.isAlphanum, Bool.or_eq_false_iff] at other
    exact other.1.2.2
  have noLower := ne_of_isTokenChar other (by decide : isTokenChar 'e' = true)
  have noUpper := ne_of_isTokenChar other (by decide : isTokenChar 'E' = true)
  have noPlus := ne_of_isTokenChar other (by decide : isTokenChar '+' = true)
  have noMinus := ne_of_isTokenChar other (by decide : isTokenChar '-' = true)
  have noPoint := ne_of_isTokenChar other (by decide : isTokenChar '.' = true)
  simp [isNumberChar, noDigit, noLower, noUpper, noPlus, noMinus, noPoint]

theorem hexDigitValue_eq_none
    {char : Char}
    (other : isTokenChar char = false) :
    hexDigitValue char = none := by
  simp only [isTokenChar, Char.isAlphanum, Text.isAlpha_eq, Text.isUpper_eq, Text.isLower_eq,
    Char.isDigit, Bool.or_eq_false_iff, Bool.and_eq_false_iff, decide_eq_false_iff_not,
    UInt32.le_iff_toNat_le] at other
  obtain ⟨⟨_, ⟨upper, lower⟩, digit⟩, _⟩ := other
  have noDigit : ¬ ('0' ≤ char ∧ char ≤ '9') := by
    rw [Char.le_def, Char.le_def, UInt32.le_iff_toNat_le, UInt32.le_iff_toNat_le]
    exact not_and_or.mpr digit
  have noLower : ¬ ('a' ≤ char ∧ char ≤ 'f') := by
    rw [Char.le_def, Char.le_def, UInt32.le_iff_toNat_le, UInt32.le_iff_toNat_le]
    simp only [UInt32.toNat_ofNat, Char.reduceVal] at lower ⊢
    omega
  have noUpper : ¬ ('A' ≤ char ∧ char ≤ 'F') := by
    rw [Char.le_def, Char.le_def, UInt32.le_iff_toNat_le, UInt32.le_iff_toNat_le]
    simp only [UInt32.toNat_ofNat, Char.reduceVal] at upper ⊢
    omega
  rw [hexDigitValue, if_neg noDigit, if_neg noLower, if_neg noUpper]

theorem readShortEscape_eq_none
    {char : Char}
    (other : isTokenChar char = false) :
    readShortEscape char = none := by
  have ne : ∀ token, isTokenChar token = true → char ≠ token := fun _ => ne_of_isTokenChar other
  simp [readShortEscape, ne '"' rfl, ne '\\' rfl, ne '/' rfl, ne 'b' rfl, ne 'f' rfl, ne 'n' rfl,
    ne 'r' rfl, ne 't' rfl]

/-- Only in a string is there a place for other characters. -/
theorem exists_string_of_step
    {reader : Reader} {char : Char}
    (other : isTokenChar char = false)
    (live : reader.step char ≠ .failed) :
    ∃ purpose value stack, reader = .string purpose value .none stack := by
  have ne : ∀ token, isTokenChar token = true → char ≠ token := fun _ => ne_of_isTokenChar other
  have noSpace : isJsonSpace char = false := by
    simp only [isTokenChar, Bool.or_eq_false_iff] at other
    exact other.1.1
  have noNumber := isNumberChar_of_not_isTokenChar other
  have noStart : ∀ stack, start stack char = .failed := by
    intro stack
    simp [start, ne '"' rfl, ne '[' rfl, ne '{' rfl, ne 'n' rfl, ne 't' rfl, ne 'f' rfl, noNumber]
  have noEnd : ∀ value stack, goOn value char stack = .failed := by
    intro value stack
    cases stack with
    | nil => rfl
    | cons frame stack =>
        cases frame with
        | array values => simp [goOn, ne ',' rfl, ne ']' rfl]
        | object members key => simp [goOn, ne ',' rfl, ne '}' rfl]
  rw [step_of_not_isNumberChar noNumber] at live
  cases reader with
  | string purpose value inside stack =>
      cases inside with
      | none => exact ⟨purpose, value, stack, rfl⟩
      | backslash =>
          refine absurd ?_ live
          simp [settle, stepSettled, inString, ne 'u' rfl, readShortEscape_eq_none other]
      | digits count amount =>
          refine absurd ?_ live
          simp [settle, stepSettled, inString, hexDigitValue_eq_none other]
  | word meant count stack =>
      refine absurd ?_ live
      have noLetter : meant.spelling[count]? ≠ some char := by
        intro isLetter
        have member := List.mem_of_getElem? isLetter
        have tokens : ∀ meant : Word, ∀ letter ∈ meant.spelling, isTokenChar letter = true := by
          intro meant
          cases meant <;> decide
        rw [tokens meant char member] at other
        cases other
      rw [settle, stepSettled, if_neg noLetter]
      all_goals simp
  | number spelling stack =>
      refine absurd ?_ live
      rw [settle]
      split
      · simp [stepSettled, noSpace, noEnd]
      · rfl
  | _ =>
      refine absurd ?_ live
      simp [settle, stepSettled, noSpace, noStart, noEnd, ne ']' rfl, ne '"' rfl, ne '}' rfl,
        ne ':' rfl]

/-- A text and another spelling of it are read the same. -/
theorem Respelled.read_eq
    {input output : Text}
    (respelled : Respelled input output)
    {reader : Reader}
    (live : reader.read input ≠ .failed) :
    reader.read output = reader.read input := by
  induction respelled generalizing reader with
  | nil => rfl
  | keep char _ hypothesis => exact hypothesis live
  | @escape char input output other small _ hypothesis =>
      have stepLive : reader.step char ≠ .failed := by
        intro failed
        rw [read_cons, failed, read_failed] at live
        exact live rfl
      obtain ⟨purpose, value, stack, rfl⟩ := exists_string_of_step other stepLive
      have units : JsString.unitsOf char = [.ofNat char.toNat] := if_pos small
      have stepped : (string purpose value .none stack).step char =
          string purpose (value ++ [.ofNat char.toNat]) .none stack := by
        have ne : ∀ token, isTokenChar token = true → char ≠ token :=
          fun _ => ne_of_isTokenChar other
        have taken : (string purpose value .none stack).step char =
            if char.toNat < 0x20 then .failed
            else string purpose (value ++ JsString.unitsOf char) .none stack := by
          rw [step, stepSettled, inString, if_neg (ne '"' rfl), if_neg (ne '\\' rfl)]
          intro _ _ number
          cases number
        split at taken
        · exact absurd taken stepLive
        · rw [taken, units]
      rw [read_cons, stepped] at live ⊢
      rw [read_append, read_unitEscape, hypothesis live]

end Reader

/-- A text has the value of another spelling of it. -/
theorem Respelled.parse_eq
    {input output : Text} {value : JsonValue}
    (respelled : Respelled input output)
    (parsed : parse input = some value) :
    parse output = some value := by
  have live : (Reader.due []).read input ≠ .failed := by
    intro failed
    rw [parse, failed] at parsed
    cases parsed
  rw [parse, Reader.Respelled.read_eq respelled live]
  exact parsed

end JsonValue
end HttpNative
