import HttpNative.Library.Text
import Mathlib.Data.Option.Basic

/-!
# The validation middleware

A request reaches the handler if every given schema accepts its input. Four kinds of
schemas are documented, and the middleware tells them apart by the methods they have
and what these return by whether an error in it is truthy.
-/

namespace HttpNative
namespace Validation

/-- A value of the program: `undefined`, `null` or any other. -/
inductive JsValue (Datum : Type) where
  | undefined
  | null
  | datum (datum : Datum)
deriving DecidableEq

/-! ## What schemas return -/

/-- An entry of `error.issues` or of `error.details`. -/
structure Issue where
  path : Option (List Text)
  message : Text
deriving DecidableEq

/-- The properties of an error that are read. -/
structure ErrorObject where
  issues : Option (List Issue)
  details : Option (List Issue)
  message : Option Text
deriving DecidableEq

/-- A thrown value. One that is no object has none of the properties. -/
structure Thrown where
  error : ErrorObject
  isError : Bool
  /-- `String(error)` -/
  asString : Text
deriving DecidableEq

/-- `error instanceof Error ? error.message : String(error)` -/
def Thrown.described (thrown : Thrown) : Option Text :=
  if thrown.isError then thrown.error.message else some thrown.asString

section Schemas

variable {Datum : Type}

structure SafeParseResult (Datum : Type) where
  success : Bool
  data : JsValue Datum
  error : Option ErrorObject

/-- The result of a schema's `validate`: an object with a value and an error, or a
promise. -/
inductive ValidateResult (Datum : Type) where
  | object (value : JsValue Datum) (error : Option ErrorObject)
  | promise (settlement : Except Thrown (JsValue Datum))

/-- A promise has no property `error`. -/
def ValidateResult.error : ValidateResult Datum → Option ErrorObject
  | .object _ error => error
  | .promise _ => none

def ValidateResult.value : ValidateResult Datum → JsValue Datum
  | .object value _ => value
  | .promise _ => .undefined

/-- A schema by the methods it has. -/
structure SchemaObject (Datum : Type) where
  safeParse : Option (JsValue Datum → Except Thrown (SafeParseResult Datum))
  parse : Option (JsValue Datum → Except Thrown (JsValue Datum))
  validate : Option (JsValue Datum → Except Thrown (ValidateResult Datum))

/-! ## The middleware -/

/-- An issue as it is answered. -/
structure IssueDetail where
  path : Text
  message : Text
deriving DecidableEq

inductive Details where
  | issues (issues : List IssueDetail)
  | message (message : Text)
deriving DecidableEq

/-- Every array is truthy, and every text but the empty one. -/
def Details.truthy : Details → Bool
  | .issues _ => true
  | .message said => !said.isEmpty

/-- `{ path: issue.path?.join(".") ?? "", message: issue.message }` -/
def Issue.detail (issue : Issue) : IssueDetail where
  path := (issue.path.map (List.intercalate ['.'])).getD []
  message := issue.message

def validationFailed : Text := text "Validation failed"

/-- The details of a refusal: the listed issues, else the message. -/
def detailsOf
    (listed : Option (List Issue))
    (message : Option Text) :
    Details :=
  match listed with
  | some issues => .issues (issues.map Issue.detail)
  | none => .message (message.getD validationFailed)

structure ParseResult (Datum : Type) where
  value : JsValue Datum
  error : Option Details

def noParseMethod : Thrown where
  error :=
    { issues := none
      details := none
      message := some (text "Schema must have a .parse(), .safeParse(), or .validate() method") }
  isError := true
  asString :=
    text "TypeError: Schema must have a .parse(), .safeParse(), or .validate() method"

def parseSchema
    (schema : SchemaObject Datum)
    (data : JsValue Datum) :
    Except Thrown (ParseResult Datum) :=
  match schema.safeParse, schema.parse, schema.validate with
  | some safeParse, _, _ =>
      (safeParse data).map fun result =>
        if result.success then
          { value := result.data, error := none }
        else
          { value := .null
            error := some (detailsOf (result.error.bind (·.issues)) (result.error.bind (·.message))) }
  | none, some parse, _ =>
      match parse data with
      | .ok value => .ok { value := value, error := none }
      | .error thrown =>
          .ok { value := .null, error := some (detailsOf thrown.error.issues thrown.error.message) }
  | none, none, some validate =>
      (validate data).map fun result =>
        match result.error with
        | some error =>
            { value := .null, error := some (detailsOf error.details error.message) }
        | none => { value := result.value, error := none }
  | none, none, none => .error noParseMethod

/-- What `req.json()` finds: no body, one that is no JSON, or JSON, which may be `null`. -/
inductive Body (Datum : Type) where
  | absent
  | invalid (message : Text)
  | json (data : Option Datum)

/-- A parsed text is never `undefined`. -/
def JsValue.ofJson : Option Datum → JsValue Datum
  | none => .null
  | some parsed => .datum parsed

def Body.read : Body Datum → Except Thrown (JsValue Datum)
  | .absent => .ok .null
  | .invalid message =>
      .error
        { error :=
            { issues := none
              details := none
              message := some (text "Invalid JSON in request body: " ++ message) }
          isError := true
          asString := text "SyntaxError: Invalid JSON in request body: " ++ message }
  | .json data => .ok (.ofJson data)

structure Request (Datum : Type) where
  params : JsValue Datum
  query : JsValue Datum
  body : Body Datum

/-- A member for each of the three inputs. -/
structure Inputs (Member : Type) where
  params : Member
  query : Member
  body : Member
deriving DecidableEq

/-- `validatedParams`, `validatedQuery` and `validatedBody`, where they are set. -/
abbrev Validated (Datum : Type) : Type :=
  Inputs (Option (JsValue Datum))

/-- The body of a refusal. -/
structure Refusal where
  error : Text
  field : Option Text
  details : Option Details
deriving DecidableEq

inductive Answer (Datum : Type) where
  | refusal (refusal : Refusal)
  | other (datum : Datum)

/-- A response is finished when it has an answer. -/
structure Response (Datum : Type) where
  status : Nat
  answer : Option (Answer Datum)

/-- The response that the middleware is given. -/
def Response.unanswered (status : Nat) : Response Datum where
  status := status
  answer := none

/-- `res.status(status).json(..)`: the status is set on a finished response too. -/
def Response.json
    (response : Response Datum)
    (status : Nat)
    (answer : Answer Datum) :
    Response Datum where
  status := status
  answer := some (response.answer.getD answer)

def Response.refuse
    (response : Response Datum)
    (field : Option Text)
    (details : Option Details) :
    Response Datum :=
  response.json 400 (.refusal ⟨text "Validation Error", field, details⟩)

/-- What keeps the middleware from calling `next`. -/
inductive Stop where
  | refused (field : Text) (details : Details)
  | threw (thrown : Thrown)

/-- The lines for one input. -/
def parseField
    (schema : SchemaObject Datum)
    (field : Text)
    (data : JsValue Datum) :
    Except Stop (JsValue Datum) :=
  match parseSchema schema data with
  | .error thrown => .error (.threw thrown)
  | .ok result =>
      match result.error.filter Details.truthy with
      | some details => .error (.refused field details)
      | none => .ok result.value

def validateField
    (schema : Option (SchemaObject Datum))
    (field : Text)
    (data : JsValue Datum) :
    Except Stop (Option (JsValue Datum)) :=
  match schema with
  | none => .ok none
  | some schema => (parseField schema field data).map some

def validateBody
    (schema : Option (SchemaObject Datum))
    (body : Body Datum) :
    Except Stop (Option (JsValue Datum)) :=
  match schema with
  | none => .ok none
  | some schema =>
      match body.read with
      | .error thrown => .error (.threw thrown)
      | .ok .null => .error (.refused (text "body") (.message (text "Request body is required")))
      | .ok data => (parseField schema (text "body") data).map some

/-- The three inputs in the order they are validated in. -/
def validateInputs
    (schema : Inputs (Option (SchemaObject Datum)))
    (request : Request Datum) :
    Except Stop (Validated Datum) := do
  let params ← validateField schema.params (text "params") request.params
  let query ← validateField schema.query (text "query") request.query
  let body ← validateBody schema.body request.body
  return { params := params, query := query, body := body }

/-- What runs after the middleware: it is given the validated inputs and the response,
and leaves a response and perhaps a failure. -/
abbrev Next (Datum : Type) : Type :=
  Validated Datum → Response Datum → Response Datum × Option Thrown

/-- `reached` is what the handler is given, if `next` was called. -/
structure Outcome (Datum : Type) where
  reached : Option (Validated Datum)
  response : Response Datum
  failure : Option Thrown

def validationMiddleware
    (schema : Inputs (Option (SchemaObject Datum)))
    (next : Next Datum)
    (request : Request Datum)
    (response : Response Datum) :
    Outcome Datum :=
  match validateInputs schema request with
  | .error (.refused field details) =>
      { reached := none
        response := response.refuse (some field) (some details)
        failure := none }
  | .error (.threw thrown) =>
      { reached := none
        response := response.refuse none (thrown.described.map .message)
        failure := none }
  | .ok validated =>
      match next validated response with
      | (left, none) => { reached := some validated, response := left, failure := none }
      -- `await next()` stands inside the `try`
      | (left, some thrown) =>
          { reached := some validated
            response := left.refuse none (thrown.described.map .message)
            failure := none }

/-! ## The documented kinds -/

/-- A schema of a documented kind. One with `safeParse` or `parse` may have the other
methods too. -/
inductive Schema (Datum : Type) where
  | safeParses
      (safeParse : JsValue Datum → SafeParseResult Datum)
      (parse : Option (JsValue Datum → Except Thrown (JsValue Datum)))
      (validate : Option (JsValue Datum → Except Thrown (ValidateResult Datum)))
  | parses
      (parse : JsValue Datum → Except Thrown (JsValue Datum))
      (validate : Option (JsValue Datum → Except Thrown (ValidateResult Datum)))
  | validates (validate : JsValue Datum → JsValue Datum × Option ErrorObject)
  | validatesLater (settle : JsValue Datum → Except Thrown (JsValue Datum))

namespace Schema

def toObject : Schema Datum → SchemaObject Datum
  | .safeParses safeParse parse validate =>
      { safeParse := some fun data => .ok (safeParse data)
        parse := parse
        validate := validate }
  | .parses parse validate =>
      { safeParse := none, parse := some parse, validate := validate }
  | .validates validate =>
      { safeParse := none
        parse := none
        validate := some fun data => .ok (.object (validate data).1 (validate data).2) }
  | .validatesLater settle =>
      { safeParse := none
        parse := none
        validate := some fun data => .ok (.promise (settle data)) }

/-- The output of a schema that accepts its input. -/
def accept (schema : Schema Datum) (data : JsValue Datum) : Option (JsValue Datum) :=
  match schema with
  | .safeParses safeParse _ _ =>
      if (safeParse data).success then some (safeParse data).data else none
  | .parses parse _ => (parse data).toOption
  | .validates validate => if (validate data).2.isNone then some (validate data).1 else none
  | .validatesLater settle => (settle data).toOption

end Schema

/-- The outputs, if every given schema accepts its input. There is no input without a
body that parses. -/
def acceptField
    (schema : Option (Schema Datum))
    (data : Option (JsValue Datum)) :
    Option (Option (JsValue Datum)) :=
  match schema with
  | none => some none
  | some schema => (data.bind schema.accept).map some

def Body.input : Body Datum → Option (JsValue Datum)
  | .json data => some (.ofJson data)
  | _ => none

def accept
    (schema : Inputs (Option (Schema Datum)))
    (request : Request Datum) :
    Option (Validated Datum) := do
  let params ← acceptField schema.params (some request.params)
  let query ← acceptField schema.query (some request.query)
  let body ← acceptField schema.body request.body.input
  return { params := params, query := query, body := body }

def Inputs.toObjects (schema : Inputs (Option (Schema Datum))) :
    Inputs (Option (SchemaObject Datum)) where
  params := schema.params.map Schema.toObject
  query := schema.query.map Schema.toObject
  body := schema.body.map Schema.toObject

/-- A request that every given schema accepts reaches the handler with the outputs, and
what runs there is left as it is. Every other one is refused. -/
def Validates
    (schema : Inputs (Option (Schema Datum)))
    (next : Next Datum)
    (request : Request Datum)
    (status : Nat) :
    Prop :=
  let outcome := validationMiddleware schema.toObjects next request (.unanswered status)
  match accept schema request with
  | some outputs =>
      outcome.reached = some outputs ∧
        (outcome.response, outcome.failure) = next outputs (.unanswered status)
  | none =>
      outcome.reached = none ∧
        outcome.response.status = 400 ∧
        (∃ refusal, outcome.response.answer = some (.refusal refusal)) ∧
        outcome.failure = none

/-! ## When inputs are read rightly -/

/-- An error that lists issues or has a message that is not empty; without a message
the refusal has one of its own. -/
def speaks (listed : Option (List Issue)) (message : Option Text) : Bool :=
  listed.isSome || message != some []

namespace Schema

/-- The schema refuses its input with an error that is truthy when it is read. -/
def refusesAloud (schema : Schema Datum) (data : JsValue Datum) : Bool :=
  match schema with
  | .safeParses safeParse _ _ =>
      !(safeParse data).success &&
        speaks ((safeParse data).error.bind (·.issues)) ((safeParse data).error.bind (·.message))
  | .parses parse _ =>
      match parse data with
      | .ok _ => false
      | .error thrown => speaks thrown.error.issues thrown.error.message
  | .validates validate =>
      match (validate data).2 with
      | none => false
      | some error => speaks error.details error.message
  | .validatesLater _ => false

/-- The schema accepts its input, and not by a promise that resolves to something. -/
def AcceptsAtOnce (schema : Schema Datum) (data : JsValue Datum) : Prop :=
  match schema with
  | .safeParses safeParse _ _ => (safeParse data).success = true
  | .parses parse _ => (parse data).isOk = true
  | .validates validate => (validate data).2 = none
  | .validatesLater settle => settle data = .ok .undefined

end Schema

/-- A body that is missing, no JSON or `null` is refused whatever its schema. -/
def Body.refusedAloud (body : Body Datum) (schema : Schema Datum) : Bool :=
  match body with
  | .json (some datum) => schema.refusesAloud (.datum datum)
  | _ => true

/-- Some given input is refused, and the middleware gets to hear of it. -/
def refusedAloud (schema : Inputs (Option (Schema Datum))) (request : Request Datum) : Bool :=
  schema.params.any (·.refusesAloud request.params) ||
    schema.query.any (·.refusesAloud request.query) ||
    schema.body.any request.body.refusedAloud

/-- Every given schema accepts its input at once. -/
def AcceptsAtOnce (schema : Inputs (Option (Schema Datum))) (request : Request Datum) : Prop :=
  (∀ given ∈ schema.params, given.AcceptsAtOnce request.params) ∧
    (∀ given ∈ schema.query, given.AcceptsAtOnce request.query) ∧
    ∀ given ∈ schema.body, ∀ data ∈ request.body.input, given.AcceptsAtOnce data

theorem truthy_detailsOf
    (listed : Option (List Issue))
    (message : Option Text) :
    (detailsOf listed message).truthy = speaks listed message := by
  cases listed with
  | some issues => rfl
  | none =>
      cases message with
      | none => decide
      | some said =>
          cases said with
          | nil => rfl
          | cons char rest => rfl

/-! ## Reading one input -/

theorem parseField_accepted
    {schema : SchemaObject Datum}
    {data value : JsValue Datum}
    (parsed : parseSchema schema data = .ok { value := value, error := none })
    (field : Text) :
    parseField schema field data = .ok value := by
  rw [parseField, parsed]
  rfl

theorem parseField_refused
    {schema : SchemaObject Datum}
    {data value : JsValue Datum}
    {listed : Option (List Issue)}
    {message : Option Text}
    (parsed : parseSchema schema data =
      .ok { value := value, error := some (detailsOf listed message) })
    (field : Text) :
    parseField schema field data =
      if speaks listed message then .error (.refused field (detailsOf listed message))
      else .ok value := by
  rw [parseField, parsed, ← truthy_detailsOf]
  change (match Option.filter Details.truthy (some (detailsOf listed message)) with
    | some details => Except.error (Stop.refused field details)
    | none => Except.ok value) = _
  rw [Option.filter_some]
  cases (detailsOf listed message).truthy with
  | true => rfl
  | false => rfl

/-- A reading stops if it hears a refusal, and else goes on with some result. That one
is the expected result exactly if the inputs are accepted at once. -/
structure Reads
    {Result : Type}
    (actual : Except Stop Result)
    (expected : Option Result)
    (aloud : Bool)
    (atOnce : Prop) :
    Prop where
  stops : aloud = true → ∃ stop, actual = .error stop
  goesOn : aloud = false → ∃ result, actual = .ok result ∧ (atOnce ↔ expected = some result)

namespace Reads

variable {Result : Type}

/-- A schema that accepts by returning. -/
theorem of_accepted
    {actual : Except Stop Result}
    {expected : Option Result}
    {atOnce : Prop}
    {value : Result}
    (reads : actual = .ok value)
    (accepted : expected = some value)
    (holds : atOnce) :
    Reads actual expected false atOnce where
  stops := fun heard => absurd heard Bool.false_ne_true
  goesOn := fun _ => ⟨value, reads, iff_of_true holds accepted⟩

/-- A refusal is either heard or taken for a value. -/
theorem of_refused
    {actual : Except Stop Result}
    {expected : Option Result}
    {aloud : Bool}
    {atOnce : Prop}
    {stop : Stop}
    {value : Result}
    (reads : actual = if aloud then .error stop else .ok value)
    (refused : expected = none)
    (fails : ¬ atOnce) :
    Reads actual expected aloud atOnce where
  stops := by
    intro heard
    rw [reads, heard]
    exact ⟨stop, rfl⟩
  goesOn := by
    intro silent
    rw [reads, silent, refused]
    exact ⟨value, rfl, iff_of_false fails (Option.some_ne_none value).symm⟩

theorem congr_atOnce
    {actual : Except Stop Result}
    {expected : Option Result}
    {aloud : Bool}
    {atOnce other : Prop}
    (reads : Reads actual expected aloud atOnce)
    (same : other ↔ atOnce) :
    Reads actual expected aloud other :=
  propext same ▸ reads

/-- A result that is assigned. -/
theorem map_some
    {actual : Except Stop Result}
    {expected : Option Result}
    {aloud : Bool}
    {atOnce : Prop}
    (reads : Reads actual expected aloud atOnce) :
    Reads (actual.map some) (expected.map some) aloud atOnce where
  stops := by
    intro heard
    obtain ⟨stop, stopped⟩ := reads.stops heard
    rw [stopped]
    exact ⟨stop, rfl⟩
  goesOn := by
    intro silent
    obtain ⟨result, read, same⟩ := reads.goesOn silent
    rw [read]
    refine ⟨some result, rfl, same.trans ?_⟩
    exact (Option.map_injective (Option.some_injective _)).eq_iff.symm

/-- The three inputs, one after the other. -/
theorem inputs
    {params query body : Except Stop Result}
    {expectedParams expectedQuery expectedBody : Option Result}
    {paramsAloud queryAloud bodyAloud : Bool}
    {paramsAtOnce queryAtOnce bodyAtOnce : Prop}
    (readsParams : Reads params expectedParams paramsAloud paramsAtOnce)
    (readsQuery : Reads query expectedQuery queryAloud queryAtOnce)
    (readsBody : Reads body expectedBody bodyAloud bodyAtOnce) :
    Reads
      (do return { params := ← params, query := ← query, body := ← body : Inputs Result })
      (do return { params := ← expectedParams
                   query := ← expectedQuery
                   body := ← expectedBody : Inputs Result })
      (paramsAloud || queryAloud || bodyAloud)
      (paramsAtOnce ∧ queryAtOnce ∧ bodyAtOnce) where
  stops := by
    intro heard
    cases paramsAloud with
    | true =>
        obtain ⟨stop, rfl⟩ := readsParams.stops rfl
        exact ⟨stop, rfl⟩
    | false =>
        obtain ⟨first, rfl, -⟩ := readsParams.goesOn rfl
        cases queryAloud with
        | true =>
            obtain ⟨stop, rfl⟩ := readsQuery.stops rfl
            exact ⟨stop, rfl⟩
        | false =>
            obtain ⟨second, rfl, -⟩ := readsQuery.goesOn rfl
            obtain ⟨stop, rfl⟩ := readsBody.stops heard
            exact ⟨stop, rfl⟩
  goesOn := by
    intro silent
    rw [Bool.or_eq_false_iff, Bool.or_eq_false_iff] at silent
    obtain ⟨first, rfl, sameParams⟩ := readsParams.goesOn silent.1.1
    obtain ⟨second, rfl, sameQuery⟩ := readsQuery.goesOn silent.1.2
    obtain ⟨third, rfl, sameBody⟩ := readsBody.goesOn silent.2
    refine ⟨{ params := first, query := second, body := third }, rfl, ?_⟩
    rw [sameParams, sameQuery, sameBody]
    simp only [Option.bind_eq_bind, Option.bind_eq_some_iff, Option.pure_def, Option.some.injEq,
      Inputs.mk.injEq]
    constructor
    · rintro ⟨params, query, body⟩
      exact ⟨first, params, second, query, third, body, rfl, rfl, rfl⟩
    · rintro ⟨_, params, _, query, _, body, rfl, rfl, rfl⟩
      exact ⟨params, query, body⟩

end Reads

theorem reads_safeParse
    (safeParse : JsValue Datum → SafeParseResult Datum)
    (parse : Option (JsValue Datum → Except Thrown (JsValue Datum)))
    (validate : Option (JsValue Datum → Except Thrown (ValidateResult Datum)))
    (field : Text)
    (data : JsValue Datum) :
    let schema := Schema.safeParses safeParse parse validate
    Reads (parseField schema.toObject field data) (schema.accept data)
      (schema.refusesAloud data) (schema.AcceptsAtOnce data) := by
  intro schema
  have parsed : parseSchema schema.toObject data = .ok
      (if (safeParse data).success then { value := (safeParse data).data, error := none }
      else
        { value := .null
          error := some (detailsOf ((safeParse data).error.bind (·.issues))
            ((safeParse data).error.bind (·.message))) }) := rfl
  cases success : (safeParse data).success with
  | true =>
      rw [success, if_pos rfl] at parsed
      have aloud : schema.refusesAloud data = false := by
        simp only [schema, Schema.refusesAloud, success, Bool.not_true, Bool.false_and]
      rw [aloud]
      exact .of_accepted (parseField_accepted parsed field) (if_pos success) success
  | false =>
      rw [success, if_neg Bool.false_ne_true] at parsed
      have aloud : schema.refusesAloud data =
          speaks ((safeParse data).error.bind (·.issues))
            ((safeParse data).error.bind (·.message)) := by
        simp only [schema, Schema.refusesAloud, success, Bool.not_false, Bool.true_and]
      rw [aloud]
      refine .of_refused (parseField_refused parsed field) (if_neg ?_) ?_
      · rw [success]
        exact Bool.false_ne_true
      · change ¬ (safeParse data).success = true
        rw [success]
        exact Bool.false_ne_true

theorem reads_parse
    (parse : JsValue Datum → Except Thrown (JsValue Datum))
    (validate : Option (JsValue Datum → Except Thrown (ValidateResult Datum)))
    (field : Text)
    (data : JsValue Datum) :
    let schema := Schema.parses parse validate
    Reads (parseField schema.toObject field data) (schema.accept data)
      (schema.refusesAloud data) (schema.AcceptsAtOnce data) := by
  intro schema
  have parsed : parseSchema schema.toObject data =
      match parse data with
      | .ok value => .ok { value := value, error := none }
      | .error thrown =>
          .ok { value := .null
                error := some (detailsOf thrown.error.issues thrown.error.message) } := rfl
  simp only [Schema.refusesAloud, Schema.accept, Schema.AcceptsAtOnce, schema]
  cases returned : parse data with
  | ok value =>
      rw [returned] at parsed
      exact .of_accepted (parseField_accepted parsed field) rfl rfl
  | error thrown =>
      rw [returned] at parsed
      exact .of_refused (parseField_refused parsed field) rfl Bool.false_ne_true

theorem reads_validate
    (validate : JsValue Datum → JsValue Datum × Option ErrorObject)
    (field : Text)
    (data : JsValue Datum) :
    let schema := Schema.validates validate
    Reads (parseField schema.toObject field data) (schema.accept data)
      (schema.refusesAloud data) (schema.AcceptsAtOnce data) := by
  intro schema
  have parsed : parseSchema schema.toObject data = .ok
      (match (validate data).2 with
      | some error =>
          { value := .null, error := some (detailsOf error.details error.message) }
      | none => { value := (validate data).1, error := none }) := rfl
  simp only [Schema.refusesAloud, Schema.accept, Schema.AcceptsAtOnce, schema]
  cases returned : (validate data).2 with
  | none =>
      rw [returned] at parsed
      exact .of_accepted (parseField_accepted parsed field) rfl rfl
  | some error =>
      rw [returned] at parsed
      exact .of_refused (parseField_refused parsed field) rfl (Option.some_ne_none error)

/-- A promise is taken for an object without an error and without a value. -/
theorem reads_validateLater
    (settle : JsValue Datum → Except Thrown (JsValue Datum))
    (field : Text)
    (data : JsValue Datum) :
    let schema := Schema.validatesLater settle
    Reads (parseField schema.toObject field data) (schema.accept data)
      (schema.refusesAloud data) (schema.AcceptsAtOnce data) where
  stops := fun heard => absurd heard Bool.false_ne_true
  goesOn := by
    intro _
    refine ⟨.undefined, parseField_accepted rfl field, ?_⟩
    change settle data = .ok .undefined ↔ (settle data).toOption = some .undefined
    cases settle data with
    | error thrown => exact iff_of_false nofun nofun
    | ok value => exact ⟨congrArg Except.toOption, fun same => congrArg _ (Option.some.inj same)⟩

theorem reads_parseField
    (schema : Schema Datum)
    (field : Text)
    (data : JsValue Datum) :
    Reads (parseField schema.toObject field data) (schema.accept data)
      (schema.refusesAloud data) (schema.AcceptsAtOnce data) := by
  cases schema with
  | safeParses safeParse parse validate => exact reads_safeParse safeParse parse validate field data
  | parses parse validate => exact reads_parse parse validate field data
  | validates validate => exact reads_validate validate field data
  | validatesLater settle => exact reads_validateLater settle field data

/-! ## Reading the three inputs -/

theorem forall_mem_given
    {Member : Type}
    {given : Member}
    {property : Member → Prop} :
    (∀ member ∈ some given, property member) ↔ property given :=
  ⟨fun every => every given rfl, fun holds _ same => Option.some.inj same ▸ holds⟩

theorem reads_validateField
    (schema : Option (Schema Datum))
    (field : Text)
    (data : JsValue Datum) :
    Reads (validateField (schema.map Schema.toObject) field data)
      (acceptField schema (some data)) (schema.any (·.refusesAloud data))
      (∀ given ∈ schema, given.AcceptsAtOnce data) := by
  cases schema with
  | none => exact .of_accepted rfl rfl nofun
  | some schema =>
      refine (reads_parseField schema field data).map_some.congr_atOnce ?_
      exact forall_mem_given

theorem reads_validateBody
    (schema : Option (Schema Datum))
    (body : Body Datum) :
    Reads (validateBody (schema.map Schema.toObject) body)
      (acceptField schema body.input) (schema.any body.refusedAloud)
      (∀ given ∈ schema, ∀ data ∈ body.input, given.AcceptsAtOnce data) := by
  cases schema with
  | none => exact .of_accepted rfl rfl nofun
  | some schema =>
      cases body with
      | absent => exact ⟨fun _ => ⟨_, rfl⟩, nofun⟩
      | invalid message => exact ⟨fun _ => ⟨_, rfl⟩, nofun⟩
      | json data =>
          cases data with
          | none => exact ⟨fun _ => ⟨_, rfl⟩, nofun⟩
          | some datum =>
              refine (reads_parseField schema (text "body") (.datum datum)).map_some.congr_atOnce ?_
              exact forall_mem_given.trans forall_mem_given

theorem reads_validateInputs
    (schema : Inputs (Option (Schema Datum)))
    (request : Request Datum) :
    Reads (validateInputs schema.toObjects request) (accept schema request)
      (refusedAloud schema request) (AcceptsAtOnce schema request) :=
  (reads_validateField schema.params (text "params") request.params).inputs
    (reads_validateField schema.query (text "query") request.query)
    (reads_validateBody schema.body request.body)

/-! ## What reaches the handler -/

section Outcomes

variable
  {schema : Inputs (Option (SchemaObject Datum))}
  {request : Request Datum}
  (next : Next Datum)

theorem validationMiddleware_stopped
    {stop : Stop}
    (stopped : validateInputs schema request = .error stop)
    (status : Nat) :
    let outcome := validationMiddleware schema next request (.unanswered status)
    outcome.reached = none ∧
      outcome.response.status = 400 ∧
      (∃ refusal, outcome.response.answer = some (.refusal refusal)) ∧
      outcome.failure = none := by
  rw [validationMiddleware, stopped]
  cases stop with
  | refused field details => exact ⟨rfl, rfl, ⟨_, rfl⟩, rfl⟩
  | threw thrown => exact ⟨rfl, rfl, ⟨_, rfl⟩, rfl⟩

theorem reached_validationMiddleware
    {validated : Validated Datum}
    (read : validateInputs schema request = .ok validated)
    (response : Response Datum) :
    (validationMiddleware schema next request response).reached = some validated := by
  rw [validationMiddleware, read]
  rcases returned : next validated response with ⟨left, failure⟩
  cases failure with
  | none => simp only [returned]
  | some thrown => simp only [returned]

/-- A failure of what runs after the middleware is never passed on. -/
theorem outcome_eq_next_iff
    {validated : Validated Datum}
    (read : validateInputs schema request = .ok validated)
    (response : Response Datum) :
    let outcome := validationMiddleware schema next request response
    (outcome.response, outcome.failure) = next validated response ↔
      (next validated response).2 = none := by
  rw [validationMiddleware, read]
  rcases returned : next validated response with ⟨left, failure⟩
  cases failure with
  | none => simp only [returned]
  | some thrown => simp [returned]

end Outcomes

/-- The middleware validates exactly these requests: where it hears of a refusal, some
given schema has to refuse its input; else every given schema has to accept its input
at once, and nothing may fail after the middleware. -/
theorem validates_iff
    (schema : Inputs (Option (Schema Datum)))
    (next : Next Datum)
    (request : Request Datum)
    (status : Nat) :
    Validates schema next request status ↔
      if refusedAloud schema request then accept schema request = none
      else
        AcceptsAtOnce schema request ∧
          ∀ outputs ∈ accept schema request, (next outputs (.unanswered status)).2 = none := by
  have reads := reads_validateInputs schema request
  rw [Validates]
  cases aloud : refusedAloud schema request with
  | true =>
      rw [if_pos rfl]
      obtain ⟨stop, stopped⟩ := reads.stops aloud
      have refused := validationMiddleware_stopped next stopped status
      cases accept schema request with
      | none => exact iff_of_true refused rfl
      | some outputs =>
          refine iff_of_false (fun reached => ?_) (Option.some_ne_none outputs)
          rw [refused.1] at reached
          exact Option.some_ne_none outputs reached.1.symm
  | false =>
      rw [if_neg Bool.false_ne_true]
      obtain ⟨validated, read, same⟩ := reads.goesOn aloud
      have reached := reached_validationMiddleware next read (.unanswered status)
      rw [same]
      cases accept schema request with
      | none =>
          refine iff_of_false (fun refused => ?_) fun both => Option.some_ne_none _ both.1.symm
          rw [reached] at refused
          exact Option.some_ne_none _ refused.1
      | some outputs =>
          rw [forall_mem_given, reached, Option.some.injEq, eq_comm (a := outputs)]
          change some validated = some outputs ∧ _ = _ ↔ _
          rw [Option.some.injEq]
          refine and_congr_right fun equal => ?_
          subst equal
          exact outcome_eq_next_iff next read (.unanswered status)

/-- A schema that refuses every input by a promise that rejects. -/
def rejectsLater : Schema Unit :=
  .validatesLater fun _ =>
    .error
      { error := { issues := none, details := none, message := some (text "required") }
        isError := true
        asString := text "ValidationError: required" }

/-- With that schema for the body the handler answers with status 201. -/
theorem not_validates :
    ¬ Validates
      { params := none, query := none, body := some rejectsLater }
      (fun _ response => (response.json 201 (.other ()), none))
      { params := .datum (), query := .datum (), body := .json (some ()) }
      200 := by
  intro validates
  exact absurd validates.1 (by decide)

end Schemas

end Validation
end HttpNative
