import HttpNative.Bridge.RequestReaders
import HttpNative.Library.Json

/-!
# Rendering a dynamic fast path natively

The templates the analyser extracts from a handler, and the bodies the native
side renders from them without calling the handler. A template is generic in
its dynamic sources, so that the same template can be read with the
expressions the handler spells.
-/

namespace HttpNative
namespace FastPath

open Bridge

inductive DynamicValueSourceKind where
  | param
  | query
  | queryObject
  | header
deriving DecidableEq, Repr

structure DynamicValueSource where
  kind : DynamicValueSourceKind
  key : Text
deriving DecidableEq, Repr

/-- A literal, kept as the text it was serialized to. -/
structure JsonLiteral where
  bytes : Text
  value : Json
  spells : Json.Spells bytes value

/-- Literals of the same text are the same. -/
theorem JsonLiteral.eq_of_bytes
    {left right : JsonLiteral}
    (same : left.bytes = right.bytes) :
    left = right := by
  obtain ⟨bytes, value, spells⟩ := left
  obtain ⟨_, other, otherSpells⟩ := right
  cases same
  have both : some value = some other := spells.parse_eq.symm.trans otherSpells.parse_eq
  cases both
  rfl

instance : DecidableEq JsonLiteral := fun left right =>
  decidable_of_iff (left.bytes = right.bytes)
    ⟨JsonLiteral.eq_of_bytes, congrArg JsonLiteral.bytes⟩

inductive JsonValueTemplate (Source : Type) where
  | literal (literal : JsonLiteral)
  | dynamic (source : Source)
deriving DecidableEq

/-- A field of an object template, its key kept serialized with the colon. -/
structure JsonObjectField (Source : Type) where
  keyPrefix : Text
  key : Text
  spellsKey : Json.SpellsKey keyPrefix key
  value : JsonValueTemplate Source
deriving DecidableEq

inductive JsonTemplate (Source : Type) where
  | object (fields : List (JsonObjectField Source))
  | literal (literal : JsonLiteral)
deriving DecidableEq

inductive TextSegment (Source : Type) where
  | literal (value : Text)
  | dynamic (source : Source)
deriving DecidableEq

abbrev TextTemplate (Source : Type) := List (TextSegment Source)

/-- What the native side takes from its crates: the parser of query strings and the
writer of JSON. -/
class NativeCrates where
  /-- `form_urlencoded::parse` -/
  parseForm : Text → List (Text × Text)
  /-- `serde_json::to_vec` -/
  jsonText : Json → Text
  /-- `serde_json::to_string` of a string. -/
  jsonString : Text → Text
  parseForm_eq : ∀ queryText, parseForm queryText = QueryString.parseForm queryText
  spells_jsonText : ∀ value, Json.Spells (jsonText value) value
  spellsKey_jsonString : ∀ key, Json.SpellsKey (jsonString key ++ [':']) key

/-- The crates as they are. -/
@[reducible] def nativeCrates : NativeCrates where
  parseForm := QueryString.parseForm
  jsonText value := value.render Json.stringifyWriter
  jsonString := Json.stringifyWriter.writeString
  parseForm_eq _ := rfl
  spells_jsonText := Json.spells_render Json.stringifyWriter
  spellsKey_jsonString := Json.spellsKey_string Json.stringifyWriter

variable [NativeCrates]

def JsonLiteral.serialize (value : Json) : JsonLiteral where
  bytes := NativeCrates.jsonText value
  value := value
  spells := NativeCrates.spells_jsonText value

/-- A field with its key serialized. -/
def JsonObjectField.serialize
    {Source : Type}
    (key : Text)
    (value : JsonValueTemplate Source) :
    JsonObjectField Source where
  keyPrefix := NativeCrates.jsonString key ++ [':']
  key := key
  spellsKey := NativeCrates.spellsKey_jsonString key
  value := value

/-! ## Resolving a source -/

inductive ResolvedDynamicValue where
  | missing
  | single (value : Text)
  | multi (values : List Text)
  | rawJson (raw : Text)
deriving DecidableEq, Repr

variable {paramNames : List Text}

/-- The value captured for the first parameter of a name. -/
def lookupParamValue (request : RouteRequest paramNames) (key : Text) : Option Text :=
  ((paramNames.zip request.paramValues).find? fun entry => entry.1 = key).map Prod.snd

def lookupHeaderValue (headers : List (Text × Text)) (key : Text) : Option Text :=
  (headers.find? fun header => Text.eqIgnoreAsciiCase header.1 key).map Prod.snd

/-- The entries of what follows the question mark. -/
def queryEntries (url : Text) : List (Text × Text) :=
  ((QueryString.query url).map NativeCrates.parseForm).getD []

theorem queryEntries_eq
    (url : Text) :
    queryEntries url = QueryString.entries QueryString.formDecode url := by
  rw [queryEntries, QueryString.entries_formDecode]
  cases QueryString.query url with
  | none => rfl
  | some queryText => exact NativeCrates.parseForm_eq queryText

def lookupQueryValue (entries : List (Text × Text)) (key : Text) : ResolvedDynamicValue :=
  match (entries.filter fun entry => entry.1 = key).map Prod.snd with
  | [] => .missing
  | [value] => .single value
  | values => .multi values

def isDangerousQueryKey (key : Text) : Bool :=
  [text "__proto__", text "constructor", text "prototype", text "__defineGetter__",
    text "__defineSetter__", text "__lookupGetter__", text "__lookupSetter__"].contains key

/-- Rust's `char::is_control`. -/
def isControl (char : Char) : Bool :=
  char.toNat < 0x20 || (0x7F ≤ char.toNat && char.toNat ≤ 0x9F)

/-- How `append_json_string` writes characters. -/
def nativeWriter : Json.StringWriter :=
  Json.StringWriter.ofEscapes isControl
    (by
      intro char control
      simp only [isControl, Bool.or_eq_true, decide_eq_true_eq, Bool.and_eq_true] at control
      omega)
    (by
      intro char small
      simp [isControl, small])

def appendJsonString (value : Text) : Text :=
  nativeWriter.writeString value

/-- An array of strings. -/
def appendJsonStrings (values : List Text) : Text :=
  '[' :: (Json.joinComma (values.map appendJsonString) ++ [']'])

/-- The buckets of the query object: the values of every key, keys in the order
of their first entry. -/
def queryBuckets (entries : List (Text × Text)) : Dictionary Text (List Text) :=
  (entries.filter fun entry => !isDangerousQueryKey entry.1).foldl
    (fun buckets entry =>
      buckets.set entry.1 (((buckets.get entry.1).getD []) ++ [entry.2])) []

def serializeBucket (bucket : Text × List Text) : Text :=
  appendJsonString bucket.1 ++ ':' ::
    match bucket.2 with
    | [value] => appendJsonString value
    | values => appendJsonStrings values

def serializeQueryObjectJson (entries : List (Text × Text)) : Text :=
  '{' :: (Json.joinComma ((queryBuckets entries).map serializeBucket) ++ ['}'])

def resolveDynamicValue
    (source : DynamicValueSource)
    (request : RouteRequest paramNames) :
    ResolvedDynamicValue :=
  match source.kind with
  | .param =>
      match lookupParamValue request source.key with
      | some value => .single value
      | none => .missing
  | .header =>
      match lookupHeaderValue request.headers source.key with
      | some value => .single value
      | none => .missing
  | .query => lookupQueryValue (queryEntries request.url) source.key
  | .queryObject => .rawJson (serializeQueryObjectJson (queryEntries request.url))

/-! ## Rendering -/

/-- The text written for a resolved value; nothing for a missing one. -/
def ResolvedDynamicValue.write : ResolvedDynamicValue → Option Text
  | .missing => none
  | .single value => some (appendJsonString value)
  | .multi values => some (appendJsonStrings values)
  | .rawJson raw => some raw

/-- The text of one field, when it is written. -/
def renderField
    (request : RouteRequest paramNames)
    (field : JsonObjectField DynamicValueSource) :
    Option Text :=
  match field.value with
  | .literal literal => some (field.keyPrefix ++ literal.bytes)
  | .dynamic source =>
      (resolveDynamicValue source request).write.map (field.keyPrefix ++ ·)

/-- `render_dynamic_json_body`: the written fields between braces, a comma
before every one but the first. -/
def renderDynamicJsonBody
    (template : JsonTemplate DynamicValueSource)
    (request : RouteRequest paramNames) :
    Text :=
  match template with
  | .literal literal => literal.bytes
  | .object fields => '{' :: (Json.joinComma (fields.filterMap (renderField request)) ++ ['}'])

/-- Strings separated by commas. -/
def joinValues (values : List Text) : Text :=
  Json.joinComma values

def ResolvedDynamicValue.toText : ResolvedDynamicValue → Text
  | .missing => text "undefined"
  | .single value => value
  | .multi values => joinValues values
  | .rawJson raw => raw

/-- `render_dynamic_text_body`. -/
def renderDynamicTextBody
    (template : TextTemplate DynamicValueSource)
    (request : RouteRequest paramNames) :
    Text :=
  template.flatMap fun segment =>
    match segment with
    | .literal value => value
    | .dynamic source => (resolveDynamicValue source request).toText

end FastPath
end HttpNative
