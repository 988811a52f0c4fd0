import HttpNative.Library.Decimal
import HttpNative.Library.JsonValue

/-!
# Values of JavaScript and `JSON.stringify`

A value as far as serialising sees it. What a value is serialised as is a JSON value
first, and the text of that value then.
-/

namespace HttpNative

/-- A value that has no members. A number is what it is spelled as; those that are not
finite have no spelling in JSON. -/
inductive JsPrimitive where
  | boolean (value : Bool)
  | number (spelling : Option Json.NumberLiteral)
  | string (value : JsString)
  | bigint

/-- A value; of an object, its own enumerable members with string keys, in order. An
object that has a method `toJSON` is `converted`: the method is called with a key, and
returns a value or throws. A `circular` object is found again among what it holds. -/
inductive JsValue where
  | undefined
  | null
  | symbol
  | function
  | primitive (value : JsPrimitive)
  | wrapped (value : JsPrimitive)
  | array (elements : List JsValue)
  | object (members : List (JsString × JsValue))
  | circular
  | converted (toJSON : JsString → Option JsValue) (self : JsValue)

/-- What a primitive is serialised as; none where that throws. -/
def JsPrimitive.serialize : JsPrimitive → Option JsonValue
  | .boolean value => some (.bool value)
  | .number (some spelling) => some (.number spelling)
  | .number none => some .null
  | .string value => some (.string value)
  | .bigint => none

namespace JsValue

/-- Whether a method `toJSON` of the value is looked for. -/
def mayConvert : JsValue → Bool
  | .undefined | .null | .symbol => false
  | .primitive .bigint => true
  | .primitive _ => false
  | .converted _ self => mayConvert self
  | _ => true

/-- `typeof value === "string"` -/
def string? : JsValue → Option JsString
  | .primitive (.string value) => some value
  | .converted _ self => string? self
  | _ => none

/-- `value === null || value === undefined` -/
def isNullish : JsValue → Bool
  | .undefined | .null => true
  | .converted _ self => isNullish self
  | _ => false

/-- The key of an element of an array. -/
def indexKey (index : Nat) : JsString :=
  .ofText (Decimal.write index)

mutual

/-- What a value is serialised as: none when that throws, and `some none` when there is
nothing to write. The key is what `toJSON` is called with, as long as it is still to be
called. -/
def serialize : Option JsString → JsValue → Option (Option JsonValue)
  | _, .undefined => some none
  | _, .null => some (some .null)
  | _, .symbol => some none
  | _, .function => some none
  | _, .primitive value => value.serialize.map some
  | _, .wrapped value => value.serialize.map some
  | _, .array elements => (serializeElements 0 elements).map fun values => some (.array values)
  | _, .object members => (serializeMembers members).map fun values => some (.object values)
  | _, .circular => none
  | some key, .converted toJSON self =>
      if self.mayConvert then serializeResult (toJSON key) else serialize none self
  | none, .converted _ self => serialize none self

/-- What a call of `toJSON` comes to. -/
def serializeResult : Option JsValue → Option (Option JsonValue)
  | some result => serialize none result
  | none => none

/-- The elements from an index on; nothing becomes null. -/
def serializeElements : Nat → List JsValue → Option (List JsonValue)
  | _, [] => some []
  | index, element :: elements =>
      match serialize (some (indexKey index)) element, serializeElements (index + 1) elements with
      | some value, some values => some (value.getD .null :: values)
      | _, _ => none

/-- The members; those of which there is nothing to write are left out. -/
def serializeMembers : List (JsString × JsValue) → Option (List (JsString × JsonValue))
  | [] => some []
  | (key, member) :: members =>
      match serialize (some key) member, serializeMembers members with
      | some (some value), some values => some ((key, value) :: values)
      | some none, some values => some values
      | _, _ => none

end

/-- `JSON.stringify(value)`: none when it throws, and `some none` when it returns
`undefined`. -/
def stringify (value : JsValue) : Option (Option Text) :=
  (serialize (some []) value).map fun json => json.map JsonValue.render

end JsValue
end HttpNative
