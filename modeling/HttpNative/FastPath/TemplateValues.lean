import HttpNative.FastPath.QueryDecoding

/-!
# The values behind a template

What a natively rendered body spells, as a JSON value, and what the handler's
expressions evaluate to, in terms of the raw request.
-/

namespace HttpNative
namespace FastPath

open Bridge QueryString

variable {paramNames : List Text}

/-! ## The value a native source stands for -/

/-- The JSON value of the values found under a key. -/
def valuesJson : List Text → Option Json
  | [] => none
  | [value] => some (.string value)
  | values => some (jsonStrings values)

def bucketJson (bucket : Text × List Text) : Option (Text × Json) :=
  (valuesJson bucket.2).map fun value => (bucket.1, value)

def nativeQueryObject (url : Text) : Json :=
  .object ((queryBuckets (entries formDecode url)).filterMap bucketJson)

/-- The JSON value that is written for a source, if one is written. -/
def DynamicValueSource.json
    (source : DynamicValueSource)
    (request : RouteRequest paramNames) :
    Option Json :=
  match source.kind with
  | .param => (lookupParamValue request source.key).map .string
  | .header => (lookupHeaderValue request.headers source.key).map .string
  | .query => valuesJson (values formDecode source.key request.url)
  | .queryObject => some (nativeQueryObject request.url)

/-- The written value of a field. -/
def nativeFieldJson
    (request : RouteRequest paramNames)
    (field : JsonObjectField Expression) :
    Option Json :=
  match field.value with
  | .literal literal => some literal.value
  | .dynamic expression => expression.source.json request

/-- The value of the whole body. -/
def nativeJson
    (request : RouteRequest paramNames) :
    JsonTemplate Expression → Json
  | .literal literal => literal.value
  | .object fields =>
      .object (fields.filterMap fun field =>
        (nativeFieldJson request field).map fun value => (field.key, value))

theorem spells_appendJsonStrings
    (values : List Text) :
    Json.Spells (appendJsonStrings values) (jsonStrings values) := by
  apply Json.spells_array
  induction values with
  | nil => exact .nil
  | cons value rest hypothesis => exact .cons (Json.spells_string nativeWriter value) hypothesis

theorem forall₂_filterMap
    {Item Left Right : Type}
    {related : Left → Right → Prop}
    {left : Item → Option Left} {right : Item → Option Right}
    (items : List Item)
    (each : ∀ item ∈ items, Option.Rel related (left item) (right item)) :
    List.Forall₂ related (items.filterMap left) (items.filterMap right) := by
  induction items with
  | nil => exact .nil
  | cons item rest hypothesis =>
      have restRelated := hypothesis fun other member => each other (List.mem_cons_of_mem _ member)
      have itemRelated := each item List.mem_cons_self
      rw [List.filterMap_cons, List.filterMap_cons]
      cases leftValue : left item <;> cases rightValue : right item <;>
        rw [leftValue, rightValue] at itemRelated
      · exact restRelated
      · cases itemRelated
      · cases itemRelated
      · cases itemRelated with
        | some related => exact .cons related restRelated

/-- The bucket of the values pushed under a key. -/
def bucketOf : List Text → Option (List Text)
  | [] => none
  | values => some values

def pushBucket
    (buckets : Dictionary Text (List Text))
    (entry : Text × Text) :
    Dictionary Text (List Text) :=
  buckets.set entry.1 (((buckets.get entry.1).getD []) ++ [entry.2])

theorem get_pushBucket
    {buckets : Dictionary Text (List Text)} {values : List Text} {key : Text}
    (pushed : buckets.get key = bucketOf values)
    (entry : Text × Text) :
    (pushBucket buckets entry).get key =
      bucketOf (if entry.1 = key then values ++ [entry.2] else values) := by
  rw [pushBucket, Dictionary.get_set]
  by_cases same : entry.1 = key
  · rw [if_pos same, if_pos same, same, pushed]
    cases values <;> rfl
  · rw [if_neg same, if_neg same, pushed]

theorem get_foldl_pushBucket
    (entries : List (Text × Text))
    {buckets : Dictionary Text (List Text)} {values : List Text} {key : Text}
    (pushed : buckets.get key = bucketOf values) :
    (entries.foldl pushBucket buckets).get key =
      bucketOf (values ++ (entries.filter fun entry => entry.1 = key).map Prod.snd) := by
  induction entries generalizing values buckets with
  | nil => simp [pushed]
  | cons entry rest hypothesis =>
      rw [List.foldl_cons, hypothesis (get_pushBucket pushed entry)]
      by_cases same : entry.1 = key <;> simp [same]

/-- The bucket of a key holds the values decoded under it. -/
theorem get_queryBuckets
    (url key : Text) :
    (queryBuckets (entries formDecode url)).get key =
      bucketOf (if isDangerousKey key then [] else values formDecode key url) := by
  have empty : Dictionary.get key ([] : Dictionary Text (List Text)) = bucketOf [] := rfl
  rw [← filter_keptEntries]
  exact get_foldl_pushBucket _ empty

theorem distinct_queryBuckets
    (entries : List (Text × Text)) :
    (queryBuckets entries).Distinct :=
  Dictionary.distinct_nil.foldl_set Prod.fst
    (fun buckets entry => ((buckets.get entry.1).getD []) ++ [entry.2]) _

theorem spellsMember_serializeBucket
    {bucket : Text × List Text}
    (nonempty : bucket.2 ≠ []) :
    Option.Rel Json.SpellsMember (some (serializeBucket bucket)) (bucketJson bucket) := by
  obtain ⟨key, values⟩ := bucket
  cases values with
  | nil => exact absurd rfl nonempty
  | cons value rest =>
      cases rest with
      | nil =>
          exact .some ⟨_, _, List.append_cons _ _ _, Json.spellsKey_string nativeWriter key,
            Json.spells_string nativeWriter value⟩
      | cons second others =>
          exact .some ⟨_, _, List.append_cons _ _ _, Json.spellsKey_string nativeWriter key,
            spells_appendJsonStrings _⟩

theorem spells_serializeQueryObjectJson
    [NativeCrates]
    (url : Text) :
    Json.Spells (serializeQueryObjectJson (queryEntries url)) (nativeQueryObject url) := by
  rw [queryEntries_eq]
  apply Json.spells_object
  rw [← List.filterMap_eq_map]
  apply forall₂_filterMap
  intro bucket member
  apply spellsMember_serializeBucket
  have stored := (distinct_queryBuckets _).get_of_mem member
  rw [get_queryBuckets] at stored
  intro empty
  rw [empty] at stored
  revert stored
  generalize (if isDangerousKey bucket.1 then [] else values formDecode bucket.1 url) = found
  cases found <;> simp [bucketOf]

/-- What is written for a source spells its value. -/
theorem spells_write_resolveDynamicValue
    [NativeCrates]
    (source : DynamicValueSource)
    (request : RouteRequest paramNames) :
    Option.Rel Json.Spells (resolveDynamicValue source request).write (source.json request) := by
  obtain ⟨kind, key⟩ := source
  cases kind with
  | param =>
      simp only [resolveDynamicValue, DynamicValueSource.json]
      cases lookupParamValue request key with
      | none => exact .none
      | some value => exact .some (Json.spells_string nativeWriter value)
  | header =>
      simp only [resolveDynamicValue, DynamicValueSource.json]
      cases lookupHeaderValue request.headers key with
      | none => exact .none
      | some value => exact .some (Json.spells_string nativeWriter value)
  | query =>
      simp only [resolveDynamicValue, DynamicValueSource.json, lookupQueryValue, queryEntries_eq,
        ← values_eq_filter_entries]
      cases values formDecode key request.url with
      | nil => exact .none
      | cons value rest =>
          cases rest with
          | nil => exact .some (Json.spells_string nativeWriter value)
          | cons second others => exact .some (spells_appendJsonStrings _)
  | queryObject => exact .some (spells_serializeQueryObjectJson request.url)

/-- The JSON value of a field, if it is written. -/
def writtenJson
    (request : RouteRequest paramNames)
    (field : JsonObjectField DynamicValueSource) :
    Option Json :=
  match field.value with
  | .literal literal => some literal.value
  | .dynamic source => source.json request

theorem spellsMember_renderField
    [NativeCrates]
    (request : RouteRequest paramNames)
    (field : JsonObjectField DynamicValueSource) :
    Option.Rel Json.SpellsMember (renderField request field)
      ((writtenJson request field).map fun value => (field.key, value)) := by
  obtain ⟨keyPrefix, key, spellsKey, value⟩ := field
  cases value with
  | literal value => exact .some ⟨_, _, rfl, spellsKey, value.spells⟩
  | dynamic source =>
      have written := spells_write_resolveDynamicValue source request
      simp only [renderField, writtenJson]
      generalize (resolveDynamicValue source request).write = spelling at written ⊢
      generalize source.json request = value at written ⊢
      cases written with
      | none => exact .none
      | some spells => exact .some ⟨_, _, rfl, spellsKey, spells⟩

/-- The body of an object template is JSON text of its fields. -/
theorem parse_renderObject
    [NativeCrates]
    (fields : List (JsonObjectField DynamicValueSource))
    (request : RouteRequest paramNames) :
    Json.parse (renderDynamicJsonBody (.object fields) request) =
      some (.object (fields.filterMap fun field =>
        (writtenJson request field).map fun value => (field.key, value))) := by
  apply Json.Spells.parse_eq
  apply Json.spells_object
  exact forall₂_filterMap fields fun field _ => spellsMember_renderField request field

theorem writtenJson_map
    (request : RouteRequest paramNames)
    (field : JsonObjectField Expression) :
    writtenJson request (field.map Expression.source) = nativeFieldJson request field := by
  obtain ⟨keyPrefix, key, spellsKey, value⟩ := field
  cases value <;> rfl

/-- The rendered body is JSON text of the native value. -/
theorem parse_renderDynamicJsonBody
    [NativeCrates]
    (template : JsonTemplate Expression)
    (request : RouteRequest paramNames) :
    Json.parse (renderDynamicJsonBody (template.map Expression.source) request) =
      some (nativeJson request template) := by
  cases template with
  | literal value => exact value.spells.parse_eq
  | object fields =>
      refine (parse_renderObject _ request).trans ?_
      simp only [List.filterMap_map, Function.comp_def, writtenJson_map]
      rfl

/-! ## The value the handler gives a source -/

theorem asciiLower_isAscii
    {name : Text}
    (ascii : IsAscii name) :
    IsAscii (Text.asciiLower name) := by
  intro char member
  obtain ⟨original, inName, rfl⟩ := List.mem_map.mp member
  have small := ascii original inName
  unfold Char.toLower
  split
  · rename_i upper
    have shift : ('a'.val - 'A'.val).toNat = 32 := rfl
    have last : 'Z'.val.toNat = 90 := rfl
    simp only [ge_iff_le, UInt32.le_iff_toNat_le] at upper
    simp only [Char.toNat, UInt32.toNat_add]
    omega
  · exact small

/-- Where no character is the Kelvin sign, lower case is that of ASCII. -/
theorem toLowerCase_of_isAscii
    {name : Text}
    (ascii : IsAscii name) :
    toLowerCase name = Text.asciiLower name := by
  unfold toLowerCase
  congr 1
  conv_rhs => rw [← List.map_id name]
  apply List.map_congr_left
  intro char member
  have small := ascii char member
  rw [if_neg (by rintro rfl; revert small; decide)]
  rfl

/-- A header is found under lower-case names only. -/
theorem lastHeader_eq_none_of_toLowerCase_ne
    {key : Text}
    (request : RouteRequest paramNames)
    (upper : toLowerCase key ≠ key) :
    lastHeader request key = none := by
  unfold lastHeader
  rw [List.filter_eq_nil_iff.mpr]
  · rfl
  · intro header member matched
    have named : Text.asciiLower header.1 = key := by simpa using matched
    have ascii := asciiLower_isAscii (request.headerNames_ascii header member)
    apply upper
    rw [← named, toLowerCase_of_isAscii ascii, Text.asciiLower_asciiLower]

theorem get_reqHeaders_of_covers
    {plan : AccessPlan} {key : Text}
    (covers : plan.fullHeaders = true ∨ toLowerCase key ∈ plan.headerKeys)
    (request : RouteRequest paramNames) :
    (reqHeaders plan request).get key =
      if isDangerousKey key then none else (lastHeader request key).map textDecode := by
  rw [get_reqHeaders]
  by_cases lower : toLowerCase key = key
  · rw [lower] at covers
    by_cases dangerous : isDangerousKey key = true
    · simp [AccessPlan.readsHeader, dangerous]
    · have reads : plan.readsHeader key = true := by
        simpa [AccessPlan.readsHeader, dangerous] using covers
      rw [if_pos reads, if_neg dangerous]
  · rw [lastHeader_eq_none_of_toLowerCase_ne request lower]
    simp

theorem get_reqParams_of_covers
    {plan : AccessPlan} {key : Text}
    (covers : plan.fullParams = true ∨ key ∈ plan.paramKeys)
    (request : RouteRequest paramNames) :
    (reqParams plan request).get key =
      if isDangerousKey key then none else (lastParam request key).map textDecode := by
  rw [get_reqParams]
  by_cases dangerous : isDangerousKey key = true
  · simp [AccessPlan.readsParam, dangerous]
  · have reads : plan.readsParam key = true := by
      simpa [AccessPlan.readsParam, dangerous] using covers
    rw [if_pos reads, if_neg dangerous]

theorem get_reqQuery_of_covers
    {plan : AccessPlan} {key : Text}
    (covers : plan.fullQuery = true ∨ key ∈ plan.queryKeys)
    (request : RouteRequest paramNames) :
    (reqQuery plan request).get key =
      QueryValue.ofList
        (if isDangerousKey key then [] else values decodeUriComponentFast key request.url) := by
  rw [get_reqQuery]
  by_cases dangerous : isDangerousKey key = true
  · simp [AccessPlan.readsQuery, dangerous, QueryValue.ofList]
  · have reads : plan.readsQuery key = true := by
      simpa [AccessPlan.readsQuery, dangerous] using covers
    rw [if_pos reads, if_neg dangerous]

theorem json_ofString
    (value : Option Text) :
    (ExpressionValue.ofString value).json = value.map .string := by
  cases value <;> rfl

theorem json_ofQuery_ofList
    (values : List Text) :
    (ExpressionValue.ofQuery (QueryValue.ofList values)).json = valuesJson values := by
  cases values with
  | nil => rfl
  | cons value rest => cases rest <;> rfl

theorem distinct_reqQuery
    (plan : AccessPlan)
    (request : RouteRequest paramNames) :
    (reqQuery plan request).Distinct := by
  have pushed : ∀ (entries : List (Text × Text)) (result : Dictionary Text QueryValue),
      result.Distinct → (entries.foldl pushQueryEntry result).Distinct := by
    intro entries
    induction entries with
    | nil => exact fun _ distinct => distinct
    | cons entry rest hypothesis =>
        intro result distinct
        apply hypothesis
        unfold pushQueryEntry
        split <;> exact distinct.set _ _
  unfold reqQuery materializeQueryObject parseQuery parseSelectedQuery parseQueryWith
  repeat' split
  all_goals first | exact pushed _ _ Dictionary.distinct_nil | exact Dictionary.distinct_nil

/-- Looking up a member of an object made from a dictionary. -/
theorem member_filterMap_dictionary
    {Value : Type}
    {dictionary : Dictionary Text Value}
    (distinct : dictionary.Distinct)
    (convert : Value → Option Json)
    (key : Text) :
    Json.member key (dictionary.filterMap fun entry =>
      (convert entry.2).map fun value => (entry.1, value)) =
      (dictionary.get key).bind convert := by
  rw [Json.member_filterMap Prod.fst fun entry : Text × Value => convert entry.2,
    distinct.filter_key]
  cases dictionary.get key with
  | none => rfl
  | some value => cases found : convert value <;> simp [found]

end FastPath
end HttpNative
