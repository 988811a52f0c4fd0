import HttpNative.FastPath.TemplateAnalysis
import HttpNative.FastPath.TemplateValues

/-!
# The body of an object template

The octets rendered for an object template are one JSON object. Its members are the
fields that have a value, in the order of the template, and nothing a request brings along
adds to them.
-/

namespace HttpNative
namespace FastPath

open Bridge QueryString

variable {paramNames : List Text}

/-! ## The members -/

/-- The values of the entries of a key. -/
def entryValues (entries : List (Text × Text)) (key : Text) : List Text :=
  (entries.filter fun entry => entry.1 = key).map Prod.snd

/-- The members of a query object: its keys but the dangerous ones, in the order in which
they first come up, each with a string or an array of strings. -/
def queryMembers (entries : List (Text × Text)) : List (Text × Json) :=
  ((entries.map Prod.fst).filter fun key => !isDangerousQueryKey key).eraseDups.filterMap fun key =>
    (valuesJson (entryValues entries key)).map fun value => (key, value)

/-- The value of a source, none when it is missing: the first parameter or header of the
name, what the query holds under the key, and the whole query. -/
def DynamicValueSource.resolved
    (source : DynamicValueSource)
    (request : RouteRequest paramNames) :
    Option Json :=
  match source.kind with
  | .param => (lookupParamValue request source.key).map .string
  | .header => (lookupHeaderValue request.headers source.key).map .string
  | .query => valuesJson (entryValues (entries formDecode request.url) source.key)
  | .queryObject => some (.object (queryMembers (entries formDecode request.url)))

/-- The member that a field comes to. -/
def JsonObjectField.member
    (field : JsonObjectField DynamicValueSource)
    (request : RouteRequest paramNames) :
    Option (Text × Json) :=
  match field.value with
  | .literal literal => some (field.key, literal.value)
  | .dynamic source => (source.resolved request).map fun value => (field.key, value)

/-! ## The buckets of a query -/

theorem map_fst_queryBuckets
    (entries : List (Text × Text)) :
    (queryBuckets entries).map Prod.fst =
      ((entries.map Prod.fst).filter fun key => !isDangerousQueryKey key).eraseDups := by
  unfold queryBuckets
  rw [Dictionary.map_fst_foldl_set Prod.fst, List.filter_map]
  rfl

/-- What the bucket of a key comes to. -/
theorem bind_get_queryBuckets
    {entries : List (Text × Text)} {key : Text}
    (safe : isDangerousQueryKey key = false) :
    ((queryBuckets entries).get key).bind (fun values => bucketJson (key, values)) =
      (valuesJson (entryValues entries key)).map fun value => (key, value) := by
  have empty : Dictionary.get key ([] : Dictionary Text (List Text)) = bucketOf [] := rfl
  have pushed : (queryBuckets entries).get key = bucketOf (entryValues entries key) := by
    refine (get_foldl_pushBucket (entries.filter fun entry => !isDangerousQueryKey entry.1)
      empty).trans ?_
    rw [List.nil_append, entryValues,
      Bridge.filter_kept (fun key => !isDangerousQueryKey key) key (by rw [safe]; rfl)]
  rw [pushed]
  cases entryValues entries key with
  | nil => rfl
  | cons value rest => rfl

/-- The object that the buckets are written as. -/
theorem nativeQueryObject_eq
    (url : Text) :
    nativeQueryObject url = .object (queryMembers (entries formDecode url)) := by
  unfold nativeQueryObject queryMembers
  rw [(distinct_queryBuckets _).filterMap_eq, map_fst_queryBuckets]
  congr 1
  apply List.filterMap_congr
  intro key member
  rw [List.mem_eraseDups, List.mem_filter] at member
  exact bind_get_queryBuckets (by simpa using member.2)

/-! ## The body -/

theorem json_eq_resolved
    (source : DynamicValueSource)
    (request : RouteRequest paramNames) :
    source.json request = source.resolved request := by
  obtain ⟨kind, key⟩ := source
  cases kind with
  | param => rfl
  | header => rfl
  | query =>
      unfold DynamicValueSource.json DynamicValueSource.resolved entryValues
      rw [QueryString.values_eq_filter_entries]
  | queryObject => exact congrArg some (nativeQueryObject_eq request.url)

theorem writtenJson_eq_member
    (field : JsonObjectField DynamicValueSource)
    (request : RouteRequest paramNames) :
    ((writtenJson request field).map fun value => (field.key, value)) = field.member request := by
  unfold writtenJson JsonObjectField.member
  cases field.value with
  | literal literal => rfl
  | dynamic source => exact congrArg _ (json_eq_resolved source request)

/-- What a route with an object template answers is declared as JSON, and parses to the
object of the fields that have a value, in the order of the template. -/
theorem parse_body_of_analyzed
    [NativeCrates]
    {json5 : Text → Option Json} {routePath handlerSource : Text} {middlewares : List Text}
    {spec : DynamicFastPathSpec} {fields : List (JsonObjectField DynamicValueSource)}
    (analyzed : analyzeDynamicFastPath json5 routePath handlerSource middlewares = some spec)
    (isObject : spec.response = .json (.object fields))
    (request : RouteRequest paramNames) :
    spec.headers = jsonHeaders ∧
      (Utf8.decode (Utf8.encode (renderDynamicJsonBody (.object fields) request))).bind Json.parse =
        some (.object (fields.filterMap fun field => field.member request)) := by
  refine ⟨headers_of_analyzeDynamicFastPath isObject analyzed, ?_⟩
  rw [Utf8.decode_encode, Option.bind_some, parse_renderObject]
  simp only [writtenJson_eq_member]

local instance userCrates : NativeCrates := nativeCrates

def userSource : Text :=
  text "(req, res) => res.json(\x7b id: req.params.id, page: 1, all: req.query, " ++
    text "no: req.query.no, agent: req.header('User-Agent') \x7d)"

def userFields : List (JsonObjectField DynamicValueSource) :=
  [.serialize (text "id") (.dynamic ⟨.param, text "id"⟩),
    .serialize (text "page") (.literal (.serialize (.number ⟨text "1", rfl⟩))),
    .serialize (text "all") (.dynamic ⟨.queryObject, []⟩),
    .serialize (text "no") (.dynamic ⟨.query, text "no"⟩),
    .serialize (text "agent") (.dynamic ⟨.header, text "user-agent"⟩)]

/-- JSON whose strings may also stand in single quotes. -/
def parseQuoted (source : Text) : Option Json :=
  Json.parse (source.map fun char => if char = '\'' then '"' else char)

theorem analyzed_userSource :
    analyzeDynamicFastPath parseQuoted (text "/users/:id") userSource [] =
      some ⟨200, jsonHeaders, .json (.object userFields)⟩ := by
  decide +kernel

/-- A parameter that tries to end the string it is put in, a key that is repeated, and a
header with a tab and a backslash. -/
def userRequest : RouteRequest [text "id"] where
  url := text "/users/x?a=1&__proto__=2&a=%22"
  headers := [(text "user-agent", text "a\tb\\")]
  headerNames_ascii := by decide
  paramValues := [text "\",\"admin\":\"yes"]
  paramValues_length := rfl

theorem parse_body_of_analyzed_user :
    (Utf8.decode (Utf8.encode (renderDynamicJsonBody (.object userFields) userRequest))).bind
        Json.parse =
      some (.object
        [(text "id", .string (text "\",\"admin\":\"yes")),
          (text "page", .number ⟨text "1", rfl⟩),
          (text "all", .object [(text "a", .array [.string (text "1"), .string (text "\"")])]),
          (text "agent", .string (text "a\tb\\"))]) :=
  (parse_body_of_analyzed analyzed_userSource rfl userRequest).2

end FastPath
end HttpNative
