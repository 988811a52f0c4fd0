import HttpNative.FastPath.TemplateValues

/-!
# Native bodies and handler bodies

The body rendered natively from a template against the body its handler sends.
Source by source they agree when the request spells the value plainly; a
template agrees when its sources do and no field hides another.
-/

namespace HttpNative
namespace FastPath

open Bridge QueryString

variable {paramNames : List Text}

/-! ## Sources -/

/-- The first occurrence of a name, which is read natively, is the last one,
which the bridge keeps unless the name is dangerous. -/
def OccurrencesAgree (name : Text) (first last : Option Text) : Prop :=
  (if isDangerousKey name then none else last.map textDecode) = first

instance (name : Text) (first last : Option Text) :
    Decidable (OccurrencesAgree name first last) :=
  inferInstanceAs (Decidable (_ = _))

/-- The request spells the value of an expression so that both sides read the
same. -/
def ExpressionAgrees (request : RouteRequest paramNames) : Expression → Prop
  | .param key => OccurrencesAgree key (lookupParamValue request key) (lastParam request key)
  | .query key => QueryAgrees key request.url
  | .queryObject => QueryObjectAgrees request.url
  | .headerProperty key =>
      OccurrencesAgree key (lookupHeaderValue request.headers (Text.asciiLower key))
        (lastHeader request key)
  | .headerCall key =>
      OccurrencesAgree (toLowerCase key) (lookupHeaderValue request.headers (Text.asciiLower key))
        (lastHeader request (toLowerCase key))

instance (request : RouteRequest paramNames) (expression : Expression) :
    Decidable (ExpressionAgrees request expression) := by
  cases expression <;> unfold ExpressionAgrees <;> infer_instance

/-- A query key that either decoder can only reach through plain text. -/
def Expression.Ordinary : Expression → Prop
  | .query key => OrdinaryKey key
  | _ => True

instance (expression : Expression) : Decidable expression.Ordinary := by
  cases expression <;> unfold Expression.Ordinary <;> infer_instance

theorem same_jsonStrings_iff
    {values : List Text} {other : Json} :
    Json.Same (jsonStrings values) other ↔ other = jsonStrings values := by
  constructor
  · intro same
    cases same with
    | refl => rfl
    | @array _ others related =>
        congr 1
        generalize strings : values.map Json.string = expected at related
        induction related generalizing values with
        | nil => rfl
        | cons first _ hypothesis =>
            cases values with
            | nil => cases strings
            | cons value rest =>
                obtain ⟨rfl, sameRest⟩ := List.cons.inj strings
                rw [Json.Same.string_iff.mp first, hypothesis sameRest]
  · rintro rfl
    exact .refl _

theorem jsonStrings_injective : Function.Injective jsonStrings := by
  intro values others same
  exact List.map_injective_iff.mpr (fun _ _ same => by simpa using same) (Json.array.inj same)

theorem rel_valuesJson_iff
    {values others : List Text} :
    Option.Rel Json.Same (valuesJson values) (valuesJson others) ↔ values = others := by
  constructor
  · intro related
    match values, others with
    | [], [] => rfl
    | [], [_] => cases related
    | [], _ :: _ :: _ => cases related
    | [_], [] => cases related
    | [value], [other] =>
        cases related with
        | some same => cases Json.Same.string_iff.mp same; rfl
    | [value], _ :: _ :: _ =>
        cases related with
        | some same => cases Json.Same.string_iff.mp same
    | _ :: _ :: _, [] => cases related
    | _ :: _ :: _, [other] =>
        cases related with
        | some same => cases same_jsonStrings_iff.mp same
    | first :: second :: rest, other :: another :: others =>
        cases related with
        | some same => exact (jsonStrings_injective (same_jsonStrings_iff.mp same)).symm
  · rintro rfl
    exact Json.option_rel_refl _

theorem values_formDecode_eq_nil_iff
    {key url : Text} :
    values formDecode key url = [] ↔ hits formDecode key url = [] := by
  unfold values
  exact List.map_eq_nil_iff

/-- The query values of a key are the same on both sides. -/
theorem queryAgrees_iff
    {key url : Text}
    (ordinary : OrdinaryKey key) :
    QueryAgrees key url ↔
      values formDecode key url =
        if isDangerousKey key then [] else values decodeUriComponentFast key url := by
  by_cases dangerous : isDangerousKey key = true
  · rw [QueryAgrees, if_pos dangerous, if_pos dangerous, values_formDecode_eq_nil_iff]
  · have safe : isDangerousKey key = false := by simpa using dangerous
    rw [if_neg dangerous]
    constructor
    · intro agrees
      exact (values_eq_of_queryAgrees safe agrees).symm
    · intro same
      exact queryAgrees_of_values_eq ordinary safe same.symm

theorem values_of_queryAgrees
    {key url : Text}
    (agrees : QueryAgrees key url) :
    values formDecode key url =
      if isDangerousKey key then [] else values decodeUriComponentFast key url := by
  by_cases dangerous : isDangerousKey key = true
  · rw [QueryAgrees, if_pos dangerous] at agrees
    rw [if_pos dangerous, values_formDecode_eq_nil_iff, agrees]
  · rw [if_neg dangerous, values_eq_of_queryAgrees (by simpa using dangerous) agrees]

theorem member_nativeQueryObject
    (url key : Text) :
    Json.member key ((queryBuckets (entries formDecode url)).filterMap bucketJson) =
      valuesJson (if isDangerousKey key then [] else values formDecode key url) := by
  rw [show bucketJson = fun bucket : Text × List Text =>
      (valuesJson bucket.2).map fun value => (bucket.1, value) from rfl,
    member_filterMap_dictionary (distinct_queryBuckets _), get_queryBuckets]
  generalize (if isDangerousKey key then [] else values formDecode key url) = found
  cases found <;> rfl

theorem member_reqQuery
    {plan : AccessPlan}
    (covers : plan.fullQuery = true)
    (request : RouteRequest paramNames)
    (key : Text) :
    Json.member key ((reqQuery plan request).map fun entry =>
        (entry.1, queryValueJson entry.2)) =
      valuesJson
        (if isDangerousKey key then [] else values decodeUriComponentFast key request.url) := by
  rw [← List.filterMap_eq_map]
  refine (member_filterMap_dictionary (distinct_reqQuery plan request)
    (fun value => some (queryValueJson value)) key).trans ?_
  rw [get_reqQuery_of_covers (.inl covers)]
  generalize (if isDangerousKey key then []
    else values decodeUriComponentFast key request.url) = found
  cases found with
  | nil => rfl
  | cons value rest => cases rest <;> rfl

theorem same_queryObject_iff
    {plan : AccessPlan}
    (covers : plan.fullQuery = true)
    (request : RouteRequest paramNames) :
    Json.Same (nativeQueryObject request.url)
        (.object ((reqQuery plan request).map fun entry => (entry.1, queryValueJson entry.2))) ↔
      QueryObjectAgrees request.url := by
  rw [nativeQueryObject, Json.Same.object_iff]
  simp only [member_nativeQueryObject, member_reqQuery covers, rel_valuesJson_iff]
  constructor
  · intro same
    apply queryObjectAgrees_of_values_eq
    intro key safe
    simpa [safe] using (same key).symm
  · intro agrees key
    by_cases dangerous : isDangerousKey key = true
    · rw [if_pos dangerous, if_pos dangerous]
    · rw [if_neg dangerous, if_neg dangerous,
        values_eq_of_queryObjectAgrees agrees (by simpa using dangerous)]

/-- Where a source agrees, its native value is the value of its expression. -/
theorem rel_of_expressionAgrees
    {plan : AccessPlan} {expression : Expression}
    (covers : AccessPlanCovers plan expression)
    (request : RouteRequest paramNames)
    (agrees : ExpressionAgrees request expression) :
    Option.Rel Json.Same (expression.source.json request)
      (expression.evaluate plan request).json := by
  cases expression with
  | param key =>
      simp only [Expression.evaluate, Expression.source, DynamicValueSource.json,
        json_ofString, get_reqParams_of_covers covers]
      exact Json.rel_map_string_iff.mpr (Eq.symm agrees)
  | query key =>
      simp only [Expression.evaluate, Expression.source, DynamicValueSource.json,
        get_reqQuery_of_covers covers, json_ofQuery_ofList]
      exact rel_valuesJson_iff.mpr (values_of_queryAgrees agrees)
  | queryObject =>
      exact .some ((same_queryObject_iff covers request).mpr agrees)
  | headerProperty key =>
      simp only [Expression.evaluate, Expression.source, DynamicValueSource.json,
        json_ofString, get_reqHeaders_of_covers covers]
      exact Json.rel_map_string_iff.mpr (Eq.symm agrees)
  | headerCall key =>
      simp only [Expression.evaluate, Expression.source, DynamicValueSource.json,
        json_ofString, get_reqHeader covers]
      exact Json.rel_map_string_iff.mpr (Eq.symm agrees)

theorem expressionAgrees_of_rel
    {plan : AccessPlan} {expression : Expression}
    (covers : AccessPlanCovers plan expression)
    (ordinary : expression.Ordinary)
    (request : RouteRequest paramNames)
    (related : Option.Rel Json.Same (expression.source.json request)
      (expression.evaluate plan request).json) :
    ExpressionAgrees request expression := by
  cases expression with
  | param key =>
      simp only [Expression.evaluate, Expression.source, DynamicValueSource.json,
        json_ofString, get_reqParams_of_covers covers] at related
      exact (Json.rel_map_string_iff.mp related).symm
  | query key =>
      simp only [Expression.evaluate, Expression.source, DynamicValueSource.json,
        get_reqQuery_of_covers covers, json_ofQuery_ofList] at related
      exact (queryAgrees_iff ordinary).mpr (rel_valuesJson_iff.mp related)
  | queryObject =>
      cases related with
      | some same => exact (same_queryObject_iff covers request).mp same
  | headerProperty key =>
      simp only [Expression.evaluate, Expression.source, DynamicValueSource.json,
        json_ofString, get_reqHeaders_of_covers covers] at related
      exact (Json.rel_map_string_iff.mp related).symm
  | headerCall key =>
      simp only [Expression.evaluate, Expression.source, DynamicValueSource.json,
        json_ofString, get_reqHeader covers] at related
      exact (Json.rel_map_string_iff.mp related).symm

/-! ## Fields -/

/-- The source of an expression has no value in the request. -/
def Expression.Missing (request : RouteRequest paramNames) : Expression → Prop
  | .param key => lookupParamValue request key = none
  | .query key => hits formDecode key request.url = []
  | .queryObject => False
  | .headerProperty key => lookupHeaderValue request.headers (Text.asciiLower key) = none
  | .headerCall key => lookupHeaderValue request.headers (Text.asciiLower key) = none

def FieldMissing
    (request : RouteRequest paramNames)
    (field : JsonObjectField Expression) :
    Prop :=
  match field.value with
  | .literal _ => False
  | .dynamic expression => expression.Missing request

/-- A field's source agrees; a field named `__proto__`, which sets no
property, has no value. -/
def FieldAgrees
    (request : RouteRequest paramNames)
    (field : JsonObjectField Expression) :
    Prop :=
  if field.key = text "__proto__" then
    FieldMissing request field
  else
    match field.value with
    | .literal _ => True
    | .dynamic expression => ExpressionAgrees request expression

/-- Of two fields of one name the later one, which wins in the handler, is
only missing when the earlier one is. -/
def NotHidden
    (request : RouteRequest paramNames)
    (earlier later : JsonObjectField Expression) :
    Prop :=
  earlier.key = later.key → FieldMissing request later → FieldMissing request earlier

def JsonTemplateAgrees (request : RouteRequest paramNames) : JsonTemplate Expression → Prop
  | .literal _ => True
  | .object fields =>
      (∀ field ∈ fields, FieldAgrees request field) ∧ fields.Pairwise (NotHidden request)

theorem missing_iff
    {expression : Expression} {request : RouteRequest paramNames} :
    expression.Missing request ↔ expression.source.json request = none := by
  cases expression with
  | query key =>
      simp only [Expression.Missing, Expression.source, DynamicValueSource.json,
        ← values_formDecode_eq_nil_iff]
      generalize values formDecode key request.url = found
      match found with
      | [] => simp [valuesJson]
      | [_] => simp [valuesJson]
      | _ :: _ :: _ => simp [valuesJson]
  | _ => simp [Expression.Missing, Expression.source, DynamicValueSource.json]

theorem fieldMissing_iff
    {field : JsonObjectField Expression} {request : RouteRequest paramNames} :
    FieldMissing request field ↔ nativeFieldJson request field = none := by
  obtain ⟨_, _, _, value⟩ := field
  cases value with
  | literal value => simp [FieldMissing, nativeFieldJson]
  | dynamic expression => exact missing_iff

/-- The plan records the reads of a template's fields. -/
def FieldsCovered (plan : AccessPlan) (fields : List (JsonObjectField Expression)) : Prop :=
  ∀ field ∈ fields, ∀ expression, field.value = .dynamic expression →
    AccessPlanCovers plan expression

theorem rel_field
    {plan : AccessPlan} {field : JsonObjectField Expression}
    (covers : ∀ expression, field.value = .dynamic expression → AccessPlanCovers plan expression)
    (request : RouteRequest paramNames)
    (notProto : field.key ≠ text "__proto__")
    (agrees : FieldAgrees request field) :
    Option.Rel Json.Same (nativeFieldJson request field) (fieldJson plan request field) := by
  rw [FieldAgrees, if_neg notProto] at agrees
  obtain ⟨_, _, _, value⟩ := field
  cases value with
  | literal value => exact .some (.refl _)
  | dynamic expression =>
      exact rel_of_expressionAgrees (covers expression rfl) request agrees

/-- Of fields with one name, the last written one against the last one. -/
theorem rel_getLast
    {Item : Type}
    {native handler : Item → Option Json}
    (items : List Item)
    (related : ∀ item ∈ items, Option.Rel Json.Same (native item) (handler item))
    (notHidden : items.Pairwise fun earlier later =>
      native later = none → native earlier = none) :
    Option.Rel Json.Same (items.filterMap native).getLast? (items.getLast?.bind handler) := by
  rcases List.eq_nil_or_concat items with rfl | ⟨initial, last, rfl⟩
  · exact .none
  · have lastRelated := related last (by simp)
    rw [List.concat_eq_append, List.pairwise_append] at notHidden
    rw [List.concat_eq_append, List.filterMap_append, List.getLast?_append,
      List.getLast?_append]
    cases written : native last with
    | none =>
        rw [written] at lastRelated
        have empty : initial.filterMap native = [] := by
          rw [List.filterMap_eq_nil_iff]
          exact fun earlier member => notHidden.2.2 earlier member last (by simp) written
        cases handled : handler last with
        | none => simp [written, handled, empty]
        | some value => rw [handled] at lastRelated; cases lastRelated
    | some value => simpa [written] using lastRelated

theorem member_nativeJson
    (request : RouteRequest paramNames)
    (fields : List (JsonObjectField Expression))
    (key : Text) :
    Json.member key (fields.filterMap fun field =>
        (nativeFieldJson request field).map fun value => (field.key, value)) =
      ((fields.filter fun field => field.key = key).filterMap
        (nativeFieldJson request)).getLast? :=
  Json.member_filterMap JsonObjectField.key (nativeFieldJson request) fields key

theorem member_handlerJson
    (plan : AccessPlan)
    (request : RouteRequest paramNames)
    (fields : List (JsonObjectField Expression))
    (key : Text) :
    Json.member key ((objectProperties plan request fields).filterMap fun property =>
        property.2.map fun value => (property.1, value)) =
      if key = text "__proto__" then
        none
      else
        ((fields.filter fun field => field.key = key).getLast?).bind
          (fieldJson plan request) := by
  have distinct : (objectProperties plan request fields).Distinct :=
    Dictionary.distinct_nil.foldl_set JsonObjectField.key
      (fun _ field => fieldJson plan request field) _
  refine (member_filterMap_dictionary distinct id key).trans ?_
  rw [objectProperties,
    Dictionary.get_foldl_set JsonObjectField.key (fieldJson plan request), List.filter_filter]
  by_cases proto : key = text "__proto__"
  · rw [if_pos proto, List.filter_eq_nil_iff.mpr]
    · rfl
    · intro field _
      simp [proto]
  · have same : (fields.filter fun field =>
        decide (field.key = key) && decide (field.key ≠ text "__proto__")) =
        fields.filter fun field => field.key = key := by
      apply List.filter_congr
      intro field _
      by_cases named : field.key = key <;> simp [named, proto]
    rw [if_neg proto, same]
    cases (fields.filter fun field => field.key = key).getLast? <;> simp

/-- Objects whose fields agree are the same. -/
theorem same_object_of_agrees
    {plan : AccessPlan} {fields : List (JsonObjectField Expression)}
    (covers : FieldsCovered plan fields)
    (request : RouteRequest paramNames)
    (agrees : JsonTemplateAgrees request (.object fields)) :
    Json.Same (nativeJson request (.object fields)) (handlerJson plan request (.object fields)) := by
  obtain ⟨fieldsAgree, notHidden⟩ := agrees
  rw [nativeJson, handlerJson, Json.Same.object_iff]
  intro key
  rw [member_nativeJson, member_handlerJson]
  by_cases proto : key = text "__proto__"
  · rw [if_pos proto, List.filterMap_eq_nil_iff.mpr]
    · exact .none
    · intro field member
      obtain ⟨inFields, named⟩ := List.mem_filter.mp member
      have fieldAgrees := fieldsAgree field inFields
      rw [FieldAgrees, if_pos (by simpa [proto] using named)] at fieldAgrees
      exact fieldMissing_iff.mp fieldAgrees
  · rw [if_neg proto]
    apply rel_getLast
    · intro field member
      obtain ⟨inFields, named⟩ := List.mem_filter.mp member
      have sameKey : field.key = key := by simpa using named
      exact rel_field (covers field inFields) request (sameKey ▸ proto)
        (fieldsAgree field inFields)
    · refine (notHidden.sublist List.filter_sublist).imp_of_mem ?_
      intro earlier later inEarlier inLater kept missing
      have sameKey : earlier.key = later.key := by
        have named := (List.mem_filter.mp inEarlier).2
        have namedLater := (List.mem_filter.mp inLater).2
        simp only [decide_eq_true_eq] at named namedLater
        rw [named, namedLater]
      exact fieldMissing_iff.mp (kept sameKey (fieldMissing_iff.mpr missing))

/-! ## Templates without repeated names -/

theorem filter_key_of_nodup
    {fields : List (JsonObjectField Expression)}
    (distinct : (fields.map JsonObjectField.key).Nodup)
    {field : JsonObjectField Expression}
    (member : field ∈ fields) :
    (fields.filter fun other => other.key = field.key) = [field] := by
  induction fields with
  | nil => cases member
  | cons first rest hypothesis =>
      obtain ⟨absent, distinctRest⟩ := List.nodup_cons.mp distinct
      rcases List.mem_cons.mp member with rfl | inRest
      · rw [List.filter_cons_of_pos (by simp), List.filter_eq_nil_iff.mpr]
        intro other inRest named
        have sameKey : other.key = field.key := by simpa using named
        exact absent (sameKey ▸ List.mem_map_of_mem inRest)
      · have different : first.key ≠ field.key := fun same =>
          absent (same ▸ List.mem_map_of_mem inRest)
        rw [List.filter_cons_of_neg (by simpa using different), hypothesis distinctRest inRest]

theorem pairwise_notHidden_of_nodup
    {fields : List (JsonObjectField Expression)}
    (distinct : (fields.map JsonObjectField.key).Nodup)
    (request : RouteRequest paramNames) :
    fields.Pairwise (NotHidden request) := by
  rw [List.nodup_iff_pairwise_ne, List.pairwise_map] at distinct
  exact distinct.imp fun different same => absurd same different

/-- The query keys of a template's fields are ordinary. -/
def FieldsOrdinary (fields : List (JsonObjectField Expression)) : Prop :=
  ∀ field ∈ fields, ∀ expression, field.value = .dynamic expression → expression.Ordinary

theorem fieldAgrees_of_same
    {plan : AccessPlan} {fields : List (JsonObjectField Expression)}
    (covers : FieldsCovered plan fields)
    (ordinary : FieldsOrdinary fields)
    (distinct : (fields.map JsonObjectField.key).Nodup)
    {request : RouteRequest paramNames}
    (same : Json.Same (nativeJson request (.object fields))
      (handlerJson plan request (.object fields)))
    {field : JsonObjectField Expression}
    (member : field ∈ fields) :
    FieldAgrees request field := by
  rw [nativeJson, handlerJson, Json.Same.object_iff] at same
  have related := same field.key
  rw [member_nativeJson, member_handlerJson, filter_key_of_nodup distinct member] at related
  rw [FieldAgrees]
  split
  · rename_i proto
    rw [if_pos proto] at related
    rw [fieldMissing_iff]
    cases written : nativeFieldJson request field with
    | none => rfl
    | some value => simp [written] at related
  · rename_i notProto
    rw [if_neg notProto] at related
    cases value : field.value with
    | literal literal => trivial
    | dynamic expression =>
        apply expressionAgrees_of_rel (covers field member expression value)
          (ordinary field member expression value)
        have native : nativeFieldJson request field = expression.source.json request := by
          rw [nativeFieldJson, value]
        have handler : fieldJson plan request field = (expression.evaluate plan request).json := by
          rw [fieldJson, value]
        rw [← native, ← handler]
        cases written : nativeFieldJson request field <;> simpa [written] using related

/-! ## Text templates -/

/-- The sources of a text template agree, and none is the query object, which
has no text. -/
def TextTemplateAgrees
    (request : RouteRequest paramNames)
    (template : TextTemplate Expression) :
    Prop :=
  ∀ expression, TextSegment.dynamic expression ∈ template →
    expression ≠ .queryObject ∧ ExpressionAgrees request expression

def TextCovered (plan : AccessPlan) (template : TextTemplate Expression) : Prop :=
  ∀ expression, TextSegment.dynamic expression ∈ template → AccessPlanCovers plan expression

theorem toText_ofString
    (value : Option Text) :
    (ExpressionValue.ofString value).toText = some (value.getD (text "undefined")) := by
  cases value <;> rfl

/-- The text of the values found under a key. -/
def valuesText : List Text → Text
  | [] => text "undefined"
  | values => joinValues values

theorem joinValues_singleton
    (value : Text) :
    joinValues [value] = value := by
  simp [joinValues, Json.joinComma, Json.separator]

theorem toText_ofQuery_ofList
    (values : List Text) :
    (ExpressionValue.ofQuery (QueryValue.ofList values)).toText = some (valuesText values) := by
  cases values with
  | nil => rfl
  | cons value rest =>
      cases rest with
      | nil => exact congrArg some (joinValues_singleton value).symm
      | cons second others => rfl

theorem toText_lookupQueryValue
    [NativeCrates]
    (url key : Text) :
    (lookupQueryValue (queryEntries url) key).toText =
      valuesText (values formDecode key url) := by
  rw [lookupQueryValue, queryEntries_eq, ← values_eq_filter_entries]
  generalize values formDecode key url = found
  cases found with
  | nil => rfl
  | cons value rest =>
      cases rest with
      | nil => exact (joinValues_singleton value).symm
      | cons second others => rfl

theorem toText_of_occurrencesAgree
    {name : Text} {first last : Option Text}
    (agree : OccurrencesAgree name first last) :
    (ExpressionValue.ofString
      (if isDangerousKey name then none else last.map textDecode)).toText =
      some (match first with
        | some value => ResolvedDynamicValue.single value
        | none => .missing).toText := by
  unfold OccurrencesAgree at agree
  rw [agree, toText_ofString]
  cases first <;> rfl

theorem toText_of_agrees
    [NativeCrates]
    {plan : AccessPlan} {expression : Expression}
    (covers : AccessPlanCovers plan expression)
    (request : RouteRequest paramNames)
    (notObject : expression ≠ .queryObject)
    (agrees : ExpressionAgrees request expression) :
    (expression.evaluate plan request).toText =
      some (resolveDynamicValue expression.source request).toText := by
  cases expression with
  | param key =>
      rw [Expression.evaluate, get_reqParams_of_covers covers]
      exact toText_of_occurrencesAgree agrees
  | query key =>
      rw [Expression.evaluate, get_reqQuery_of_covers covers, ← values_of_queryAgrees agrees,
        toText_ofQuery_ofList]
      exact congrArg some (toText_lookupQueryValue request.url key).symm
  | queryObject => exact absurd rfl notObject
  | headerProperty key =>
      rw [Expression.evaluate, get_reqHeaders_of_covers covers]
      exact toText_of_occurrencesAgree agrees
  | headerCall key =>
      rw [Expression.evaluate, get_reqHeader covers]
      exact toText_of_occurrencesAgree agrees

theorem handlerText_of_agrees
    [NativeCrates]
    {plan : AccessPlan} {template : TextTemplate Expression}
    (covers : TextCovered plan template)
    (request : RouteRequest paramNames)
    (agrees : TextTemplateAgrees request template) :
    handlerText plan request template =
      some (renderDynamicTextBody (template.map (TextSegment.map Expression.source)) request) := by
  induction template with
  | nil => rfl
  | cons segment rest hypothesis =>
      have restText := hypothesis
        (fun expression member => covers expression (List.mem_cons_of_mem _ member))
        (fun expression member => agrees expression (List.mem_cons_of_mem _ member))
      cases segment with
      | literal value =>
          rw [handlerText, restText]
          rfl
      | dynamic expression =>
          obtain ⟨notObject, expressionAgrees⟩ := agrees expression List.mem_cons_self
          rw [handlerText, restText, toText_of_agrees (covers expression List.mem_cons_self)
            request notObject expressionAgrees]
          rfl

/-! ## Templates -/

/-- The natively rendered body is JSON text of the value the handler sends. -/
def SameJsonBody
    [NativeCrates]
    (plan : AccessPlan)
    (request : RouteRequest paramNames)
    (template : JsonTemplate Expression) :
    Prop :=
  ∃ value,
    Json.parse (renderDynamicJsonBody (template.map Expression.source) request) = some value ∧
      Json.Same value (handlerJson plan request template)

def TemplateCovered (plan : AccessPlan) : JsonTemplate Expression → Prop
  | .literal _ => True
  | .object fields => FieldsCovered plan fields

/-- Field names are not repeated and query keys are ordinary. -/
def TemplatePlain : JsonTemplate Expression → Prop
  | .literal _ => True
  | .object fields => (fields.map JsonObjectField.key).Nodup ∧ FieldsOrdinary fields

theorem sameJsonBody_of_agrees
    [NativeCrates]
    {plan : AccessPlan} {template : JsonTemplate Expression}
    (covers : TemplateCovered plan template)
    (request : RouteRequest paramNames)
    (agrees : JsonTemplateAgrees request template) :
    SameJsonBody plan request template := by
  refine ⟨nativeJson request template, parse_renderDynamicJsonBody template request, ?_⟩
  cases template with
  | literal value => exact .refl _
  | object fields => exact same_object_of_agrees covers request agrees

theorem agrees_of_sameJsonBody
    [NativeCrates]
    {plan : AccessPlan} {template : JsonTemplate Expression}
    (covers : TemplateCovered plan template)
    (plain : TemplatePlain template)
    {request : RouteRequest paramNames}
    (same : SameJsonBody plan request template) :
    JsonTemplateAgrees request template := by
  obtain ⟨value, parsed, sameValue⟩ := same
  rw [parse_renderDynamicJsonBody] at parsed
  cases parsed
  cases template with
  | literal value => trivial
  | object fields =>
      exact ⟨fun field member => fieldAgrees_of_same covers plain.2 plain.1 sameValue member,
        pairwise_notHidden_of_nodup plain.1 request⟩

/-- Where a template agrees, the bodies are the same; and for JSON templates
without repeated names the bodies are the same only there. -/
theorem sameBodies_iff_agrees
    [NativeCrates]
    (plan : AccessPlan)
    (request : RouteRequest paramNames) :
    (∀ template, TemplateCovered plan template →
      JsonTemplateAgrees request template → SameJsonBody plan request template) ∧
    (∀ template, TemplateCovered plan template → TemplatePlain template →
      (SameJsonBody plan request template ↔ JsonTemplateAgrees request template)) ∧
    (∀ template, TextCovered plan template → TextTemplateAgrees request template →
      handlerText plan request template =
        some (renderDynamicTextBody (template.map (TextSegment.map Expression.source))
          request)) := by
  refine ⟨fun template covers => sameJsonBody_of_agrees covers request,
    fun template covers plain => ⟨agrees_of_sameJsonBody covers plain,
      sameJsonBody_of_agrees covers request⟩,
    fun template covers => handlerText_of_agrees covers request⟩

/-! ## A template and two requests -/

local instance itemCrates : NativeCrates := nativeCrates

/-- `res.json({ id: req.params.id, tags: req.query.tag, agent: req.header("User-Agent") })`. -/
def itemFields : List (JsonObjectField Expression) :=
  [.serialize (text "id") (.dynamic (.param (text "id"))),
    .serialize (text "tags") (.dynamic (.query (text "tag"))),
    .serialize (text "agent") (.dynamic (.headerCall (text "User-Agent")))]

def itemPlan : AccessPlan where
  fullParams := false
  paramKeys := [text "id"]
  fullQuery := false
  queryKeys := [text "tag"]
  fullHeaders := false
  headerKeys := [text "user-agent"]

def plainRequest : RouteRequest [text "id"] where
  url := text "/items/7?tag=a+b&tag=%41"
  headers := [(text "user-agent", text "curl")]
  headerNames_ascii := by decide
  paramValues := [text "7"]
  paramValues_length := rfl

/-- The same header twice, with different values. -/
def repeatedHeaderRequest : RouteRequest [text "id"] where
  url := text "/items/7"
  headers := [(text "user-agent", text "curl"), (text "User-Agent", text "wget")]
  headerNames_ascii := by decide
  paramValues := [text "7"]
  paramValues_length := rfl

theorem fieldsCovered_itemFields : FieldsCovered itemPlan itemFields := by
  intro field member expression value
  simp only [itemFields, List.mem_cons, List.not_mem_nil, or_false] at member
  rcases member with rfl | rfl | rfl
  · cases value
    exact .inr (by decide)
  · cases value
    exact .inr (by decide)
  · cases value
    exact .inr (by decide)

theorem templatePlain_itemFields : TemplatePlain (.object itemFields) := by
  refine ⟨by decide, ?_⟩
  intro field member expression value
  simp only [itemFields, List.mem_cons, List.not_mem_nil, or_false] at member
  rcases member with rfl | rfl | rfl
  · cases value
    trivial
  · cases value
    show OrdinaryKey (text "tag")
    decide
  · cases value
    trivial

theorem agrees_plainRequest : JsonTemplateAgrees plainRequest (.object itemFields) := by
  refine ⟨?_, pairwise_notHidden_of_nodup (by decide) plainRequest⟩
  intro field member
  simp only [itemFields, List.mem_cons, List.not_mem_nil, or_false] at member
  rcases member with rfl | rfl | rfl
  · show ExpressionAgrees plainRequest (.param (text "id"))
    decide
  · show ExpressionAgrees plainRequest (.query (text "tag"))
    decide
  · show ExpressionAgrees plainRequest (.headerCall (text "User-Agent"))
    decide

theorem sameBodies_iff_agrees_items :
    SameJsonBody itemPlan plainRequest (.object itemFields) :=
  (sameBodies_iff_agrees itemPlan plainRequest).1 (.object itemFields)
    fieldsCovered_itemFields agrees_plainRequest

/-- Of a repeated header the native side reads the first value and the handler
the last one. -/
theorem not_sameBodies_of_repeatedHeader :
    ¬ ∀ (plan : AccessPlan) (request : RouteRequest [text "id"])
        (template : JsonTemplate Expression),
      TemplateCovered plan template → SameJsonBody plan request template := by
  intro everywhere
  have covered : TemplateCovered itemPlan (.object itemFields) := fieldsCovered_itemFields
  have agrees := agrees_of_sameJsonBody covered templatePlain_itemFields
    (everywhere itemPlan repeatedHeaderRequest (.object itemFields) covered)
  have header := agrees.1 _ (List.mem_of_getLast? rfl)
  have notAgrees : ¬ ExpressionAgrees repeatedHeaderRequest (.headerCall (text "User-Agent")) := by
    decide
  exact notAgrees header

end FastPath
end HttpNative
