import HttpNative.FastPath.DynamicTemplate

/-!
# The handler of a template

A template with the expressions the handler spells, and the body the handler
sends when the request goes through the bridge.
-/

namespace HttpNative
namespace FastPath

open Bridge

/-- A dynamic expression of a handler. -/
inductive Expression where
  /-- `req.params.key`. -/
  | param (key : Text)
  /-- `req.query.key`. -/
  | query (key : Text)
  /-- `req.query`. -/
  | queryObject
  /-- `req.headers.key`. -/
  | headerProperty (key : Text)
  /-- `req.header("key")`. -/
  | headerCall (key : Text)
deriving DecidableEq, Repr

/-- The source that `parse_dynamic_json_value_source` makes of an expression. -/
def Expression.source : Expression → DynamicValueSource
  | .param key => ⟨.param, key⟩
  | .query key => ⟨.query, key⟩
  | .queryObject => ⟨.queryObject, []⟩
  | .headerProperty key => ⟨.header, Text.asciiLower key⟩
  | .headerCall key => ⟨.header, Text.asciiLower key⟩

section Map

variable {Source Target : Type}

def JsonValueTemplate.map (convert : Source → Target) :
    JsonValueTemplate Source → JsonValueTemplate Target
  | .literal value => .literal value
  | .dynamic source => .dynamic (convert source)

def JsonObjectField.map
    (convert : Source → Target)
    (field : JsonObjectField Source) :
    JsonObjectField Target where
  keyPrefix := field.keyPrefix
  key := field.key
  spellsKey := field.spellsKey
  value := field.value.map convert

def JsonTemplate.map (convert : Source → Target) : JsonTemplate Source → JsonTemplate Target
  | .object fields => .object (fields.map (JsonObjectField.map convert))
  | .literal value => .literal value

def TextSegment.map (convert : Source → Target) : TextSegment Source → TextSegment Target
  | .literal value => .literal value
  | .dynamic source => .dynamic (convert source)

end Map

/-! ## Evaluating an expression -/

/-- A JavaScript value that an expression can have. -/
inductive ExpressionValue where
  | undefined
  | string (value : Text)
  | array (values : List Text)
  | object (entries : Dictionary Text QueryValue)
deriving DecidableEq, Repr

def ExpressionValue.ofString : Option Text → ExpressionValue
  | none => .undefined
  | some value => .string value

def ExpressionValue.ofQuery : Option QueryValue → ExpressionValue
  | none => .undefined
  | some (.single value) => .string value
  | some (.several values) => .array values

variable {paramNames : List Text}

def Expression.evaluate
    (plan : AccessPlan)
    (request : RouteRequest paramNames) :
    Expression → ExpressionValue
  | .param key => .ofString ((reqParams plan request).get key)
  | .query key => .ofQuery ((reqQuery plan request).get key)
  | .queryObject => .object (reqQuery plan request)
  | .headerProperty key => .ofString ((reqHeaders plan request).get key)
  | .headerCall key => .ofString (reqHeader plan request key)

/-- The plan records the reads an expression makes, as
`analyzeRequestAccess` does for a handler that spells it. -/
def AccessPlanCovers (plan : AccessPlan) : Expression → Prop
  | .param key => plan.fullParams = true ∨ key ∈ plan.paramKeys
  | .query key => plan.fullQuery = true ∨ key ∈ plan.queryKeys
  | .queryObject => plan.fullQuery = true
  | .headerProperty key => plan.fullHeaders = true ∨ toLowerCase key ∈ plan.headerKeys
  | .headerCall key => plan.fullHeaders = true ∨ toLowerCase key ∈ plan.headerKeys

/-! ## JSON bodies -/

def jsonStrings (values : List Text) : Json :=
  .array (values.map .string)

def queryValueJson : QueryValue → Json
  | .single value => .string value
  | .several values => jsonStrings values

/-- What `JSON.stringify` makes of a value; `undefined` is left out. -/
def ExpressionValue.json : ExpressionValue → Option Json
  | .undefined => none
  | .string value => some (.string value)
  | .array values => some (jsonStrings values)
  | .object entries => some (.object (entries.map fun entry => (entry.1, queryValueJson entry.2)))

def fieldJson
    (plan : AccessPlan)
    (request : RouteRequest paramNames)
    (field : JsonObjectField Expression) :
    Option Json :=
  match field.value with
  | .literal literal => some literal.value
  | .dynamic expression => (expression.evaluate plan request).json

/-- The own properties of the object literal: the last of repeated keys wins,
and `__proto__` sets no property. -/
def objectProperties
    (plan : AccessPlan)
    (request : RouteRequest paramNames)
    (fields : List (JsonObjectField Expression)) :
    Dictionary Text (Option Json) :=
  (fields.filter fun field => field.key ≠ text "__proto__").foldl
    (fun properties field => properties.set field.key (fieldJson plan request field)) []

/-- The value that `res.json(template)` serializes. -/
def handlerJson
    (plan : AccessPlan)
    (request : RouteRequest paramNames) :
    JsonTemplate Expression → Json
  | .literal literal => literal.value
  | .object fields =>
      .object ((objectProperties plan request fields).filterMap fun property =>
        property.2.map fun value => (property.1, value))

/-! ## Text bodies -/

/-- The text of a value in a template literal; a prototype-free object has
none, the conversion throws. -/
def ExpressionValue.toText : ExpressionValue → Option Text
  | .undefined => some (text "undefined")
  | .string value => some value
  | .array values => some (joinValues values)
  | .object _ => none

/-- The text that `res.send(template)` sends, when evaluating it does not
throw. -/
def handlerText
    (plan : AccessPlan)
    (request : RouteRequest paramNames) :
    TextTemplate Expression → Option Text
  | [] => some []
  | .literal value :: segments => (handlerText plan request segments).map (value ++ ·)
  | .dynamic expression :: segments => do
      let value ← (expression.evaluate plan request).toText
      let rest ← handlerText plan request segments
      pure (value ++ rest)

end FastPath
end HttpNative
