import HttpNative.Library.JsonValue
import HttpNative.Library.Text

/-!
# Schemas in a document

A schema of Zod is described by a JSON schema that forgets its refinements: a value that
the schema accepts meets its description.
-/

namespace HttpNative
namespace OpenApi

/-! ## Schemas of Zod -/

/-- A schema by the kind that its `_def.typeName` names. What it was refined with is
nothing that is described; schemas of other kinds are told apart by it alone. -/
inductive ZodSchema (Refinement : Type) where
  | string (refined : Refinement)
  | number (refined : Refinement)
  | boolean (refined : Refinement)
  | array (type : ZodSchema Refinement) (refined : Refinement)
  | object (shape : List (JsString × ZodSchema Refinement)) (refined : Refinement)
  | optional (innerType : ZodSchema Refinement)
  | enum (values : List JsString)
  | other (refined : Refinement)

/-- What the library offers: which values a schema accepts, none being `undefined`, and
its method `isOptional`. -/
structure ZodLibrary (Refinement : Type) where
  Accepts : ZodSchema Refinement → Option JsonValue → Prop
  isOptional : ZodSchema Refinement → Bool

/-- What is documented of schemas that convert nothing: a refinement only takes values
away, the fields of an object are looked up one by one, and a schema that accepts
`undefined` is optional. The schemas of `z.coerce`, which have the same type names and accept
what they can convert, are left out. -/
structure ZodLibrary.Documented {Refinement : Type} (zod : ZodLibrary Refinement) : Prop where
  string : ∀ refined value, zod.Accepts (.string refined) value →
    ∃ string, value = some (.string string)
  number : ∀ refined value, zod.Accepts (.number refined) value →
    ∃ literal, value = some (.number literal)
  boolean : ∀ refined value, zod.Accepts (.boolean refined) value →
    ∃ bool, value = some (.bool bool)
  array : ∀ type refined value, zod.Accepts (.array type refined) value →
    ∃ values, value = some (.array values) ∧ ∀ entry ∈ values, zod.Accepts type (some entry)
  object : ∀ shape refined value, zod.Accepts (.object shape refined) value →
    ∃ members, value = some (.object members) ∧
      ∀ field ∈ shape, zod.Accepts field.2 (members.lookup field.1)
  optional : ∀ innerType value, zod.Accepts (.optional innerType) value →
    value = none ∨ zod.Accepts innerType value
  enum : ∀ values value, zod.Accepts (.enum values) value →
    ∃ string ∈ values, value = some (.string string)
  isOptional : ∀ schema, zod.Accepts schema none → zod.isOptional schema = true

/-! ## JSON schemas -/

/-- The JSON schemas that are written, and those that were given. -/
inductive JsonSchema (Given : Type) where
  | string
  | number
  | boolean
  | array (items : JsonSchema Given)
  | object
      (properties : List (JsString × JsonSchema Given))
      (required : Option (List JsString))
  | enum (values : List JsString)
  /-- `{ type: "object" }` -/
  | anyObject
  | given (schema : Given)

section Meaning

variable {Given : Type}

mutual

/-- The value is valid against the schema. -/
def Meets (meetsGiven : Given → JsonValue → Prop) : JsonSchema Given → JsonValue → Prop
  | .string, value => ∃ string, value = .string string
  | .number, value => ∃ literal, value = .number literal
  | .boolean, value => ∃ bool, value = .bool bool
  | .array items, value =>
      ∃ values, value = .array values ∧ ∀ entry ∈ values, Meets meetsGiven items entry
  | .object properties required, value =>
      ∃ members, value = .object members ∧ MeetProperties meetsGiven properties members ∧
        ∀ key ∈ required.getD [], members.lookup key ≠ none
  | .enum values, value => ∃ string ∈ values, value = .string string
  | .anyObject, value => ∃ members, value = .object members
  | .given schema, value => meetsGiven schema value

/-- The members that are named by a property are valid against it. -/
def MeetProperties (meetsGiven : Given → JsonValue → Prop) :
    List (JsString × JsonSchema Given) → List (JsString × JsonValue) → Prop
  | [], _ => True
  | (key, schema) :: properties, members =>
      (∀ entry, members.lookup key = some entry → Meets meetsGiven schema entry) ∧
        MeetProperties meetsGiven properties members

end

theorem MeetProperties.filter
    {meetsGiven : Given → JsonValue → Prop} {properties : List (JsString × JsonSchema Given)}
    {members : List (JsString × JsonValue)}
    (meet : MeetProperties meetsGiven properties members)
    (keeps : JsString × JsonSchema Given → Bool) :
    MeetProperties meetsGiven (properties.filter keeps) members := by
  induction properties with
  | nil => exact meet
  | cons property properties hypothesis =>
      rw [MeetProperties] at meet
      rw [List.filter_cons]
      split
      · rw [MeetProperties]
        exact ⟨meet.1, hypothesis meet.2⟩
      · exact hypothesis meet.2

end Meaning

/-! ## The conversion -/

section Conversion

variable {Given Refinement : Type}

/-- Setting this key of a fresh object sets no property. -/
def protoKey : JsString :=
  .ofText (text "__proto__")

mutual

def zodToJsonSchema (zod : ZodLibrary Refinement) : ZodSchema Refinement → JsonSchema Given
  | .string _ => .string
  | .number _ => .number
  | .boolean _ => .boolean
  | .array type _ => .array (zodToJsonSchema zod type)
  | .object shape _ =>
      let properties := (zodProperties zod shape).filter fun property => property.1 ≠ protoKey
      let required := (shape.filter fun field => !zod.isOptional field.2).map Prod.fst
      .object properties (if required = [] then none else some required)
  | .optional innerType => zodToJsonSchema zod innerType
  | .enum values => .enum values
  | .other _ => .anyObject

def zodProperties (zod : ZodLibrary Refinement) :
    List (JsString × ZodSchema Refinement) → List (JsString × JsonSchema Given)
  | [] => []
  | (key, val) :: shape => (key, zodToJsonSchema zod val) :: zodProperties zod shape

end

mutual

/-- No schema within the schema is of another kind. -/
def ZodSchema.Described : ZodSchema Refinement → Prop
  | .array type _ => type.Described
  | .object shape _ => ShapeDescribed shape
  | .optional innerType => innerType.Described
  | .other _ => False
  | _ => True

def ShapeDescribed : List (JsString × ZodSchema Refinement) → Prop
  | [] => True
  | (_, val) :: shape => val.Described ∧ ShapeDescribed shape

end

theorem ShapeDescribed.of_mem
    {shape : List (JsString × ZodSchema Refinement)} {field : JsString × ZodSchema Refinement}
    (described : ShapeDescribed shape)
    (member : field ∈ shape) :
    field.2.Described := by
  induction shape with
  | nil => cases member
  | cons first shape hypothesis =>
      rw [ShapeDescribed] at described
      rcases List.mem_cons.mp member with rfl | later
      · exact described.1
      · exact hypothesis described.2 later

variable {zod : ZodLibrary Refinement} {meetsGiven : Given → JsonValue → Prop}

theorem getD_required
    (required : List JsString) :
    (if required = [] then none else some required).getD [] = required := by
  split
  · rename_i none
    rw [none]
    rfl
  · rfl

mutual

/-- What a schema accepts is valid against its description. -/
theorem meets_zodToJsonSchema
    (documented : zod.Documented) :
    ∀ (schema : ZodSchema Refinement), schema.Described →
      ∀ value, zod.Accepts schema (some value) →
        Meets meetsGiven (zodToJsonSchema zod schema) value
  | .string refined, _, value, accepted => by
      obtain ⟨string, same⟩ := documented.string refined _ accepted
      rw [zodToJsonSchema, Meets]
      exact ⟨string, Option.some.inj same⟩
  | .number refined, _, value, accepted => by
      obtain ⟨literal, same⟩ := documented.number refined _ accepted
      rw [zodToJsonSchema, Meets]
      exact ⟨literal, Option.some.inj same⟩
  | .boolean refined, _, value, accepted => by
      obtain ⟨bool, same⟩ := documented.boolean refined _ accepted
      rw [zodToJsonSchema, Meets]
      exact ⟨bool, Option.some.inj same⟩
  | .array type refined, described, value, accepted => by
      obtain ⟨values, same, entries⟩ := documented.array type refined _ accepted
      rw [ZodSchema.Described] at described
      rw [zodToJsonSchema, Meets]
      refine ⟨values, Option.some.inj same, fun entry member => ?_⟩
      exact meets_zodToJsonSchema documented type described entry (entries entry member)
  | .object shape refined, described, value, accepted => by
      obtain ⟨members, same, fields⟩ := documented.object shape refined _ accepted
      rw [ZodSchema.Described] at described
      rw [zodToJsonSchema, Meets]
      refine ⟨members, Option.some.inj same, ?_, ?_⟩
      · exact (meet_zodProperties documented shape described members fields).filter _
      · rw [getD_required]
        intro key member absent
        obtain ⟨field, inShape, rfl⟩ := List.mem_map.mp member
        obtain ⟨inShape, needed⟩ := List.mem_filter.mp inShape
        -- a field that is absent was accepted as `undefined`
        have accepted := fields field inShape
        rw [absent] at accepted
        rw [documented.isOptional _ accepted] at needed
        cases needed
  | .optional innerType, described, value, accepted => by
      rw [ZodSchema.Described] at described
      rw [zodToJsonSchema]
      rcases documented.optional innerType _ accepted with absent | accepted
      · cases absent
      · exact meets_zodToJsonSchema documented innerType described value accepted
  | .enum values, _, value, accepted => by
      obtain ⟨string, member, same⟩ := documented.enum values _ accepted
      rw [zodToJsonSchema, Meets]
      exact ⟨string, member, Option.some.inj same⟩
  | .other refined, described, _, _ => by
      rw [ZodSchema.Described] at described
      exact described.elim

theorem meet_zodProperties
    (documented : zod.Documented) :
    ∀ (shape : List (JsString × ZodSchema Refinement)), ShapeDescribed shape →
      ∀ members : List (JsString × JsonValue),
        (∀ field ∈ shape, zod.Accepts field.2 (members.lookup field.1)) →
        MeetProperties meetsGiven (zodProperties zod shape) members
  | [], _, _, _ => by
      rw [zodProperties, MeetProperties]
      trivial
  | (key, val) :: shape, described, members, fields => by
      rw [ShapeDescribed] at described
      rw [zodProperties, MeetProperties]
      constructor
      · intro entry found
        have accepted := fields (key, val) List.mem_cons_self
        rw [found] at accepted
        exact meets_zodToJsonSchema documented val described.1 entry accepted
      · exact meet_zodProperties documented shape described.2 members
          fun field member => fields field (List.mem_cons_of_mem _ member)

end

end Conversion

end OpenApi
end HttpNative
