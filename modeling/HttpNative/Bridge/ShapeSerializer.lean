import HttpNative.Library.JsonReading
import HttpNative.Library.JsValue
import Mathlib.Data.List.Nodup

/-!
# JSON of a known shape

`createJsonSerializer` makes two kinds of serializers. The one writes what
`JSON.stringify` returns; the other one is given the keys of an object, and writes the
members itself, with an escaper of its own for the keys and the strings.
-/

namespace HttpNative
namespace Bridge

open JsValue (isNullish)

/-! ## Values -/

/-- `typeof v === "function"` -/
def isFunction : JsValue → Bool
  | .function => true
  | .converted _ self => isFunction self
  | _ => false

/-- A plain object: its own enumerable members with string keys, in order, and its method
`toJSON`, if it has one. A member with this key is that method as soon as it is a
function. -/
structure PlainObject where
  members : List (JsString × JsValue)
  distinct : (members.map Prod.fst).Nodup
  toJSON : Option (JsString → Option JsValue)
  method : ∀ member ∈ members, member.1 = .ofText (text "toJSON") →
    toJSON.isSome = isFunction member.2

namespace PlainObject

def keys (object : PlainObject) : List JsString :=
  object.members.map Prod.fst

/-- `value[key]`, for a key of its own. -/
def get (object : PlainObject) (key : JsString) : JsValue :=
  (object.members.lookup key).getD .undefined

def toValue (object : PlainObject) : JsValue :=
  match object.toJSON with
  | none => .object object.members
  | some toJSON => .converted toJSON (.object object.members)

end PlainObject

/-- What a serializer is called with. -/
inductive Argument where
  | undefined
  | null
  | plain (object : PlainObject)

def Argument.toValue : Argument → JsValue
  | .undefined => .undefined
  | .null => .null
  | .plain object => object.toValue

/-! ## Serializers -/

/-- `Buffer.from(string, "utf8")` -/
def bufferFrom (string : JsString) : List UInt8 :=
  Utf8.encode string.toWellFormed

/-- One unit in `escapeJsonString`. -/
def escapeUnit (unit : UInt16) : JsString :=
  if unit = 0x22 then .ofText ['\\', '"']
  else if unit = 0x5C then .ofText ['\\', '\\']
  else if unit = 0x0A then .ofText ['\\', 'n']
  else if unit = 0x0D then .ofText ['\\', 'r']
  else if unit = 0x09 then .ofText ['\\', 't']
  else if unit.toNat < 0x20 then .ofText (JsonValue.unitEscape unit)
  else [unit]

def escapeJsonString (str : JsString) : JsString :=
  str.flatMap escapeUnit

/-- `prefix[i]` -/
def keyPrefix (index : Nat) (key : JsString) : JsString :=
  .ofText (if index = 0 then ['{', '"'] else [',', '"']) ++ escapeJsonString key ++
    .ofText ['"', ':']

/-- What is written for a member; none where `JSON.stringify` throws. When it returns
`undefined`, that word is appended. -/
def writeMember (member : JsValue) : Option JsString :=
  match member.string? with
  | some string => some (.ofText ['"'] ++ escapeJsonString string ++ .ofText ['"'])
  | none =>
      if isNullish member then
        some (.ofText (text "null"))
      else
        member.stringify.map fun json => .ofText (json.getD (text "undefined"))

/-- The loop over the keys, from an index on. -/
def writeShape (object : PlainObject) : Nat → List JsString → Option JsString
  | _, [] => some (.ofText ['}'])
  | index, key :: keys =>
      match writeMember (object.get key), writeShape object (index + 1) keys with
      | some member, some rest => some (keyPrefix index key ++ member ++ rest)
      | _, _ => none

def serializeShape (keys : List JsString) : Argument → Option (List UInt8)
  | .undefined => some (bufferFrom (.ofText (text "null")))
  | .null => some (bufferFrom (.ofText (text "null")))
  | .plain object => (writeShape object 0 keys).map bufferFrom

/-- None where `JSON.stringify` throws, or returns `undefined`, from which no buffer is
made. -/
def serializeFallback (value : Argument) : Option (List UInt8) :=
  match value.toValue.stringify with
  | some (some serialized) => some (bufferFrom (.ofText serialized))
  | _ => none

inductive SerializerMode where
  | fallback
  | generic
  | specialized
  | shape
deriving DecidableEq

def createJsonSerializer
    (mode : SerializerMode)
    (keys : List JsString) :
    Argument → Option (List UInt8) :=
  if mode = .shape ∧ keys ≠ [] then serializeShape keys else serializeFallback

end Bridge
end HttpNative
