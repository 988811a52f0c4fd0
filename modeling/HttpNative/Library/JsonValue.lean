import HttpNative.Library.JsString
import HttpNative.Library.Json

/-!
# JSON values with strings of JavaScript

The compact text of a value, and a reader that takes a text character by character. What
the reader has read and not yet closed is a row of frames, so that what a character does
is said once, whatever the depth it stands at.
-/

namespace HttpNative

/-- A JSON value; the members of an object in the order they are written. -/
inductive JsonValue where
  | null
  | bool (value : Bool)
  | number (literal : Json.NumberLiteral)
  | string (value : JsString)
  | array (values : List JsonValue)
  | object (members : List (JsString × JsonValue))
deriving Repr

namespace JsonValue

open Json (hexDigit hexDigitValue shortEscape readShortEscape NumberLiteral isNumberChar joinComma
  separator)

/-! ## Writing -/

/-- The escape of four digits. -/
def unitEscape (unit : UInt16) : Text :=
  ['\\', 'u', hexDigit (unit.toNat / 0x1000), hexDigit (unit.toNat / 0x100 % 0x10),
    hexDigit (unit.toNat / 0x10 % 0x10), hexDigit (unit.toNat % 0x10)]

/-- What stands for a code point between quotes. -/
def quotePoint : CodePoint → Text
  | .scalar char =>
      match shortEscape char with
      | some escaped => escaped
      | none => if char.toNat < 0x20 then unitEscape (.ofNat char.toNat) else [char]
  | .lone unit => unitEscape unit

/-- A string between quotes. -/
def quote (value : JsString) : Text :=
  '"' :: ((JsString.codePoints value).flatMap quotePoint ++ ['"'])

mutual

/-- The compact text of a value. -/
def render : JsonValue → Text
  | .null => text "null"
  | .bool true => text "true"
  | .bool false => text "false"
  | .number literal => literal.spelling
  | .string value => quote value
  | .array values => '[' :: (joinComma (renderElements values) ++ [']'])
  | .object members => '{' :: (joinComma (renderMembers members) ++ ['}'])

def renderElements : List JsonValue → List Text
  | [] => []
  | value :: values => render value :: renderElements values

def renderMembers : List (JsString × JsonValue) → List Text
  | [] => []
  | (key, value) :: members => (quote key ++ ':' :: render value) :: renderMembers members

end

/-! ## Reading -/

/-- An array or an object that is not closed, with what it holds so far. -/
inductive Frame where
  | array (values : List JsonValue)
  | object (members : List (JsString × JsonValue)) (key : JsString)

/-- Whether a string is a value, or the next key behind some members. -/
inductive Purpose where
  | value
  | key (members : List (JsString × JsonValue))

/-- The values that are spelled as words. -/
inductive Word where
  | null
  | true
  | false

def Word.spelling : Word → Text
  | .null => text "null"
  | .true => text "true"
  | .false => text "false"

def Word.value : Word → JsonValue
  | .null => .null
  | .true => .bool Bool.true
  | .false => .bool Bool.false

/-- How much of an escape is read. -/
inductive Escape where
  | none
  | backslash
  | digits (count amount : Nat)

/-- Where a reader stands, and what is open around it. -/
inductive Reader where
  | due (stack : List Frame)
  | dueOrEnd (stack : List Frame)
  | keyDue (members : List (JsString × JsonValue)) (stack : List Frame)
  | keyDueOrEnd (stack : List Frame)
  | string (purpose : Purpose) (value : JsString) (inside : Escape) (stack : List Frame)
  | colonDue (key : JsString) (members : List (JsString × JsonValue)) (stack : List Frame)
  | word (meant : Word) (count : Nat) (stack : List Frame)
  | number (spelling : Text) (stack : List Frame)
  | behind (value : JsonValue) (stack : List Frame)
  | failed

def isJsonSpace (char : Char) : Bool :=
  char == ' ' || char == '\t' || char == '\n' || char == '\r'

namespace Reader

/-- A value begins. -/
def start (stack : List Frame) (char : Char) : Reader :=
  if char = '"' then .string .value [] .none stack
  else if char = '[' then .dueOrEnd stack
  else if char = '{' then .keyDueOrEnd stack
  else if char = 'n' then .word .null 1 stack
  else if char = 't' then .word .true 1 stack
  else if char = 'f' then .word .false 1 stack
  else if isNumberChar char then .number [char] stack
  else .failed

/-- A string is closed. -/
def close (value : JsString) (stack : List Frame) : Purpose → Reader
  | .value => .behind (.string value) stack
  | .key members => .colonDue value members stack

/-- A character inside a string. -/
def inString
    (purpose : Purpose)
    (value : JsString)
    (stack : List Frame)
    (char : Char) :
    Escape → Reader
  | .none =>
      if char = '"' then close value stack purpose
      else if char = '\\' then .string purpose value .backslash stack
      else if char.toNat < 0x20 then .failed
      else .string purpose (value ++ JsString.unitsOf char) .none stack
  | .backslash =>
      if char = 'u' then .string purpose value (.digits 0 0) stack
      else
        match readShortEscape char with
        | some meant => .string purpose (value ++ JsString.unitsOf meant) .none stack
        | none => .failed
  | .digits count amount =>
      match hexDigitValue char with
      | some digit =>
          if count = 3 then
            .string purpose (value ++ [.ofNat (amount * 0x10 + digit)]) .none stack
          else
            .string purpose value (.digits (count + 1) (amount * 0x10 + digit)) stack
      | none => .failed

/-- A character behind a value. -/
def goOn (value : JsonValue) (char : Char) : List Frame → Reader
  | [] => .failed
  | .array values :: stack =>
      if char = ',' then .due (.array (values ++ [value]) :: stack)
      else if char = ']' then .behind (.array (values ++ [value])) stack
      else .failed
  | .object members key :: stack =>
      if char = ',' then .keyDue (members ++ [(key, value)]) stack
      else if char = '}' then .behind (.object (members ++ [(key, value)])) stack
      else .failed

/-- What is read when a number ends here. -/
def settle : Reader → Reader
  | .number spelling stack =>
      if valid : Json.isNumber spelling = true then
        .behind (.number ⟨spelling, valid⟩) stack
      else
        .failed
  | reader => reader

/-- One character, where no number goes on. -/
def stepSettled (char : Char) : Reader → Reader
  | .due stack => if isJsonSpace char then .due stack else start stack char
  | .dueOrEnd stack =>
      if isJsonSpace char then .dueOrEnd stack
      else if char = ']' then .behind (.array []) stack
      else start (.array [] :: stack) char
  | .keyDue members stack =>
      if isJsonSpace char then .keyDue members stack
      else if char = '"' then .string (.key members) [] .none stack
      else .failed
  | .keyDueOrEnd stack =>
      if isJsonSpace char then .keyDueOrEnd stack
      else if char = '}' then .behind (.object []) stack
      else if char = '"' then .string (.key []) [] .none stack
      else .failed
  | .string purpose value inside stack => inString purpose value stack char inside
  | .colonDue key members stack =>
      if isJsonSpace char then .colonDue key members stack
      else if char = ':' then .due (.object members key :: stack)
      else .failed
  | .word meant count stack =>
      if meant.spelling[count]? = some char then
        if count + 1 = meant.spelling.length then .behind meant.value stack
        else .word meant (count + 1) stack
      else .failed
  | .behind value stack =>
      if isJsonSpace char then .behind value stack else goOn value char stack
  | .number _ _ => .failed
  | .failed => .failed

/-- One character: it belongs to the number that is read, or the number is over. -/
def step (reader : Reader) (char : Char) : Reader :=
  match reader with
  | .number spelling stack =>
      if isNumberChar char then .number (spelling ++ [char]) stack
      else stepSettled char (settle reader)
  | _ => stepSettled char reader

def read (reader : Reader) (input : Text) : Reader :=
  input.foldl step reader

/-- The value, when all of it is read and nothing is open. -/
def result (reader : Reader) : Option JsonValue :=
  match settle reader with
  | .behind value [] => some value
  | _ => none

end Reader

/-- The value of a JSON text. -/
def parse (input : Text) : Option JsonValue :=
  ((Reader.due []).read input).result

end JsonValue
end HttpNative
