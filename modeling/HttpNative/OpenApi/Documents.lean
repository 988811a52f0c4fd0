import HttpNative.Library.Dictionary
import HttpNative.Library.TextTemplates
import HttpNative.OpenApi.JsonSchemas

/-!
# The OpenAPI document

One operation for each path and method, that of the route registered last. What the
schemas of a route accept is admitted by its operation.
-/

namespace HttpNative
namespace OpenApi

open TextTemplate

/-! ## Paths -/

/-- What `/:([^/]+)/g` matches. -/
def colonName : Token := fun char rest =>
  let name := rest.takeWhile (· ≠ '/')
  if char = ':' ∧ name ≠ [] then some (name, name.length) else none

/-- A route's path cut into the names that are matched and the characters between. -/
def pathParts (path : Text) : List Part :=
  scan colonName path

/-- `path.replace(/:([^/]+)/g, "{$1}")` -/
def toOpenApiPath (path : Text) : Text :=
  write (pathParts path)

/-! ## Operations -/

section Generation

variable {Refinement Given : Type}

/-- A schema as a route comes with it: one of Zod, one that is a JSON schema already,
with its properties, or an object that is neither. -/
inductive Schema (Refinement Given : Type) where
  | zod (schema : ZodSchema Refinement)
  | given (schema : Given) (properties : List (JsString × Schema Refinement Given))
  | plain

structure Validation (Refinement Given : Type) where
  body : Option (Schema Refinement Given)
  query : Option (Schema Refinement Given)

structure RouteMeta (Refinement Given : Type) where
  summary : Option Text
  tags : Option (List Text)
  operationId : Option Text
  validation : Option (Validation Refinement Given)

structure RouteEntry (Refinement Given : Type) where
  method : Text
  path : Text
  meta? : Option (RouteMeta Refinement Given)

def RouteEntry.bodySchema (route : RouteEntry Refinement Given) :
    Option (Schema Refinement Given) :=
  (route.meta?.bind RouteMeta.validation).bind Validation.body

def RouteEntry.querySchema (route : RouteEntry Refinement Given) :
    Option (Schema Refinement Given) :=
  (route.meta?.bind RouteMeta.validation).bind Validation.query

inductive ParameterLocation where
  | path
  | query
deriving DecidableEq

structure Parameter (Given : Type) where
  name : JsString
  location : ParameterLocation
  required : Bool
  schema : JsonSchema Given

structure Operation (Given : Type) where
  summary : Option Text
  tags : Option (List Text)
  operationId : Text
  parameters : Option (List (Parameter Given))
  requestBody : Option (JsonSchema Given)
  responses : List (Nat × Text)

def pathParameter (name : Text) : Parameter Given where
  name := .ofText name
  location := .path
  required := true
  schema := .string

def extractPathParams (path : Text) : Option (List (Parameter Given)) :=
  let params := (names (pathParts path)).map pathParameter
  if params.isEmpty then none else some params

def extractJsonSchema (zod : ZodLibrary Refinement) : Schema Refinement Given → JsonSchema Given
  | .zod schema => zodToJsonSchema zod schema
  | .given schema _ => .given schema
  | .plain => .anyObject

/-- The properties of a schema, which one of Zod has when it is an object. -/
def Schema.fields : Schema Refinement Given → List (JsString × Schema Refinement Given)
  | .zod (.object shape _) => shape.map fun field => (field.1, .zod field.2)
  | .zod _ => []
  | .given _ properties => properties
  | .plain => []

/-- `val?.isOptional?.()`, a method of the schemas of Zod. -/
def Schema.isOptional (zod : ZodLibrary Refinement) : Schema Refinement Given → Bool
  | .zod schema => zod.isOptional schema
  | _ => false

def queryParameter
    (zod : ZodLibrary Refinement)
    (field : JsString × Schema Refinement Given) : Parameter Given where
  name := field.1
  location := .query
  required := !field.2.isOptional zod
  schema := extractJsonSchema zod field.2

def extractQueryParams
    (zod : ZodLibrary Refinement)
    (schema : Schema Refinement Given) : List (Parameter Given) :=
  schema.fields.map (queryParameter zod)

/-- What stands for a character in an identifier; a character of two code units is
replaced twice. -/
def identifierPart (char : Char) : Text :=
  if char.isAlphanum then [char]
  else if 0x10000 ≤ char.toNat then ['_', '_']
  else ['_']

def operationOf
    (zod : ZodLibrary Refinement)
    (route : RouteEntry Refinement Given) : Operation Given where
  summary := route.meta?.bind RouteMeta.summary
  tags := route.meta?.bind RouteMeta.tags
  operationId :=
    (route.meta?.bind RouteMeta.operationId).getD
      (Text.asciiLower route.method ++ '_' :: (toOpenApiPath route.path).flatMap identifierPart)
  parameters :=
    match route.querySchema with
    | none => extractPathParams route.path
    | some schema =>
        some ((extractPathParams route.path).getD [] ++ extractQueryParams zod schema)
  requestBody := route.bodySchema.map (extractJsonSchema zod)
  responses := [(200, text "Successful response")]

/-! ## The document -/

/-- The operations of each path by their methods. -/
abbrev Paths (Given : Type) : Type :=
  Dictionary Text (Dictionary Text (Operation Given))

/-- One round of the loop over the routes. -/
def addOperation
    (zod : ZodLibrary Refinement)
    (paths : Paths Given)
    (route : RouteEntry Refinement Given) : Paths Given :=
  let pathKey := toOpenApiPath route.path
  let item := (paths.get pathKey).getD []
  paths.set pathKey (item.set (Text.asciiLower route.method) (operationOf zod route))

/-- `spec.paths` -/
def generateSpec
    (zod : ZodLibrary Refinement)
    (routes : List (RouteEntry Refinement Given)) : Paths Given :=
  routes.foldl (addOperation zod) []

def operationAt (paths : Paths Given) (pathKey method : Text) : Option (Operation Given) :=
  (paths.get pathKey).bind fun item => item.get method

/-- The route is written under this path and method. -/
def RouteEntry.isAt (pathKey method : Text) (route : RouteEntry Refinement Given) : Bool :=
  toOpenApiPath route.path = pathKey && Text.asciiLower route.method = method

theorem operationAt_addOperation
    (zod : ZodLibrary Refinement)
    (paths : Paths Given)
    (route : RouteEntry Refinement Given)
    (pathKey method : Text) :
    operationAt (addOperation zod paths route) pathKey method =
      if route.isAt pathKey method then some (operationOf zod route)
      else operationAt paths pathKey method := by
  unfold operationAt addOperation RouteEntry.isAt
  simp only [Dictionary.get_set]
  by_cases samePath : toOpenApiPath route.path = pathKey
  · rw [if_pos samePath, Option.bind_some, Dictionary.get_set, samePath]
    by_cases sameMethod : Text.asciiLower route.method = method
    · simp [sameMethod]
    · rw [if_neg sameMethod, if_neg (by simp [sameMethod])]
      cases paths.get pathKey <;> rfl
  · rw [if_neg samePath, if_neg (by simp [samePath])]

/-- The operation under a path and a method is that of the last route written there. -/
theorem operationAt_generateSpec
    (zod : ZodLibrary Refinement)
    (routes : List (RouteEntry Refinement Given))
    (pathKey method : Text) :
    operationAt (generateSpec zod routes) pathKey method =
      ((routes.filter (·.isAt pathKey method)).getLast?).map (operationOf zod) := by
  induction routes using List.reverseRecOn with
  | nil => rfl
  | append_singleton routes route hypothesis =>
      rw [generateSpec] at hypothesis ⊢
      rw [List.foldl_append, List.foldl_cons, List.foldl_nil, operationAt_addOperation,
        hypothesis, List.filter_append]
      by_cases isAt : route.isAt pathKey method = true
      · simp [isAt]
      · simp [isAt]

/-! ## What an operation admits -/

/-- The body is valid against the schema of the operation, if it has one. -/
def Operation.AdmitsBody
    (meetsGiven : Given → JsonValue → Prop)
    (operation : Operation Given)
    (body : JsonValue) : Prop :=
  ∀ schema, operation.requestBody = some schema → Meets meetsGiven schema body

/-- The required query parameters are there, and those there are valid. -/
def Operation.AdmitsQuery
    (meetsGiven : Given → JsonValue → Prop)
    (operation : Operation Given)
    (query : List (JsString × JsonValue)) : Prop :=
  ∀ parameter ∈ operation.parameters.getD [], parameter.location = .query →
    (parameter.required = true → query.lookup parameter.name ≠ none) ∧
      ∀ entry, query.lookup parameter.name = some entry → Meets meetsGiven parameter.schema entry

theorem location_extractPathParams
    {path : Text} {parameter : Parameter Given}
    (member : parameter ∈ (extractPathParams path).getD []) :
    parameter.location = .path := by
  unfold extractPathParams at member
  simp only at member
  split at member
  · cases member
  · obtain ⟨name, _, rfl⟩ := List.mem_map.mp member
    rfl

theorem mem_extractQueryParams
    {zod : ZodLibrary Refinement} {route : RouteEntry Refinement Given}
    {schema : Schema Refinement Given} {parameter : Parameter Given}
    (querySchema : route.querySchema = some schema)
    (member : parameter ∈ (operationOf zod route).parameters.getD [])
    (inQuery : parameter.location = .query) :
    parameter ∈ extractQueryParams zod schema := by
  simp only [operationOf, querySchema, Option.getD_some] at member
  rcases List.mem_append.mp member with inPath | found
  · rw [location_extractPathParams inPath] at inQuery
    cases inQuery
  · exact found

/-- The query that a schema accepts has the parameters described of its fields. -/
theorem admitsQuery_operationOf
    {zod : ZodLibrary Refinement} {meetsGiven : Given → JsonValue → Prop}
    (documented : zod.Documented)
    {route : RouteEntry Refinement Given} {schema : ZodSchema Refinement}
    (querySchema : route.querySchema = some (.zod schema))
    (described : schema.Described)
    {query : List (JsString × JsonValue)}
    (accepted : zod.Accepts schema (some (.object query))) :
    (operationOf zod route).AdmitsQuery meetsGiven query := by
  intro parameter member inQuery
  obtain ⟨field, inFields, rfl⟩ :=
    List.mem_map.mp (mem_extractQueryParams querySchema member inQuery)
  cases schema with
  | object shape refined =>
      obtain ⟨field, inShape, rfl⟩ := List.mem_map.mp inFields
      obtain ⟨members, same, fields⟩ := documented.object shape refined _ accepted
      cases same
      have entry_accepted := fields field inShape
      constructor
      · intro needed absent
        rw [show query.lookup field.1 = none from absent] at entry_accepted
        have optional := documented.isOptional _ entry_accepted
        simp [queryParameter, Schema.isOptional, optional] at needed
      · intro entry found
        rw [show query.lookup field.1 = some entry from found] at entry_accepted
        rw [ZodSchema.Described] at described
        exact meets_zodToJsonSchema documented field.2 (described.of_mem inShape) entry
          entry_accepted
  | _ => cases inFields

/-- Each route has an operation under its path and method. -/
theorem exists_operationAt_generateSpec
    (zod : ZodLibrary Refinement)
    {routes : List (RouteEntry Refinement Given)} {route : RouteEntry Refinement Given}
    (member : route ∈ routes) :
    ∃ operation, operationAt (generateSpec zod routes) (toOpenApiPath route.path)
      (Text.asciiLower route.method) = some operation := by
  have own : route.isAt (toOpenApiPath route.path) (Text.asciiLower route.method) = true := by
    simp [RouteEntry.isAt]
  have kept : route ∈ routes.filter
      (·.isAt (toOpenApiPath route.path) (Text.asciiLower route.method)) :=
    List.mem_filter.mpr ⟨member, own⟩
  rw [operationAt_generateSpec, List.getLast?_eq_some_getLast (List.ne_nil_of_mem kept)]
  exact ⟨_, rfl⟩

theorem admitsBody_operationOf
    {zod : ZodLibrary Refinement} {meetsGiven : Given → JsonValue → Prop}
    (documented : zod.Documented)
    {route : RouteEntry Refinement Given} {schema : ZodSchema Refinement}
    (bodySchema : route.bodySchema = some (.zod schema))
    (described : schema.Described)
    {body : JsonValue}
    (accepted : zod.Accepts schema (some body)) :
    (operationOf zod route).requestBody ≠ none ∧
      (operationOf zod route).AdmitsBody meetsGiven body := by
  have written : (operationOf zod route).requestBody = some (zodToJsonSchema zod schema) := by
    rw [operationOf, bodySchema]
    rfl
  refine ⟨by simp [written], fun schema same => ?_⟩
  rw [written] at same
  cases same
  exact meets_zodToJsonSchema documented _ described body accepted

end Generation

/-! ## A library without refinements -/

mutual

/-- What a schema accepts that was not refined. -/
def PlainAccepts : ZodSchema Unit → Option JsonValue → Prop
  | .string _, value => ∃ string, value = some (.string string)
  | .number _, value => ∃ literal, value = some (.number literal)
  | .boolean _, value => ∃ bool, value = some (.bool bool)
  | .array type _, value =>
      ∃ values, value = some (.array values) ∧ ∀ entry ∈ values, PlainAccepts type (some entry)
  | .object shape _, value =>
      ∃ members, value = some (.object members) ∧ PlainShapeAccepts shape members
  | .optional innerType, value => value = none ∨ PlainAccepts innerType value
  | .enum values, value => ∃ string ∈ values, value = some (.string string)
  | .other _, _ => False

def PlainShapeAccepts :
    List (JsString × ZodSchema Unit) → List (JsString × JsonValue) → Prop
  | [], _ => True
  | (key, val) :: shape, members =>
      PlainAccepts val (members.lookup key) ∧ PlainShapeAccepts shape members

end

def plainIsOptional : ZodSchema Unit → Bool
  | .optional _ => true
  | _ => false

def plainLibrary : ZodLibrary Unit where
  Accepts := PlainAccepts
  isOptional := plainIsOptional

theorem PlainShapeAccepts.of_mem
    {shape : List (JsString × ZodSchema Unit)} {members : List (JsString × JsonValue)}
    {field : JsString × ZodSchema Unit}
    (accepts : PlainShapeAccepts shape members)
    (member : field ∈ shape) :
    PlainAccepts field.2 (members.lookup field.1) := by
  induction shape with
  | nil => cases member
  | cons first shape hypothesis =>
      rw [PlainShapeAccepts] at accepts
      rcases List.mem_cons.mp member with rfl | later
      · exact accepts.1
      · exact hypothesis accepts.2 later

theorem accepts_plainLibrary : plainLibrary.Accepts = PlainAccepts := rfl

theorem plainLibrary_documented : plainLibrary.Documented where
  string := fun refined value accepted => by
    rwa [accepts_plainLibrary, PlainAccepts] at accepted
  number := fun refined value accepted => by
    rwa [accepts_plainLibrary, PlainAccepts] at accepted
  boolean := fun refined value accepted => by
    rwa [accepts_plainLibrary, PlainAccepts] at accepted
  array := fun type refined value accepted => by
    rwa [accepts_plainLibrary, PlainAccepts] at accepted
  object := fun shape refined value accepted => by
    rw [accepts_plainLibrary, PlainAccepts] at accepted
    obtain ⟨members, same, fields⟩ := accepted
    exact ⟨members, same, fun field member => fields.of_mem member⟩
  optional := fun innerType value accepted => by
    rwa [accepts_plainLibrary, PlainAccepts] at accepted
  enum := fun values value accepted => by
    rwa [accepts_plainLibrary, PlainAccepts] at accepted
  isOptional := fun schema accepted => by
    cases schema with
    | optional innerType => rfl
    | _ =>
        rw [accepts_plainLibrary, PlainAccepts] at accepted
        simp at accepted

/-- A route that takes the name of a user and perhaps an age. -/
def createUser : RouteEntry Unit Unit where
  method := text "POST"
  path := text "/teams/:team/users"
  meta? := some {
    summary := none
    tags := none
    operationId := none
    validation := some {
      body := some (.zod (.object
        [(.ofText (text "name"), .string ()), (.ofText (text "age"), .optional (.number ()))] ()))
      query := none } }

end OpenApi
end HttpNative
