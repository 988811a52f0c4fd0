import HttpNative.Library.Dictionary
import HttpNative.Library.QueryString

/-!
# What a handler reads off a request

The objects `req.params`, `req.query` and `req.headers`, built from the matched
parameter values, the request target and the headers that reach the bridge.
Which parts are built is decided by the access plan of the route.
-/

namespace HttpNative
namespace Bridge

/-- `DANGEROUS_KEYS`. -/
def dangerousKeys : List Text :=
  [text "__proto__", text "constructor", text "prototype", text "__defineGetter__",
    text "__defineSetter__", text "__lookupGetter__", text "__lookupSetter__"]

def isDangerousKey (key : Text) : Bool :=
  dangerousKeys.contains key

def byteOrderMark : Char := '\uFEFF'

/-- `textDecoder.decode` on the octets of a text: a leading byte order mark is
dropped. -/
def textDecode : Text → Text
  | [] => []
  | char :: rest => if char = byteOrderMark then rest else char :: rest

/-- `decodeURIComponent` on the text with plus signs read as spaces; where it
throws, that text itself. -/
def decodeUriComponentFast (input : Text) : Text :=
  let normalized := QueryString.plusToSpace input
  (PercentEncoding.decodeStrict normalized).getD normalized

/-- The parts of a request that the handlers of a route read. -/
structure AccessPlan where
  fullParams : Bool
  paramKeys : List Text
  fullQuery : Bool
  queryKeys : List Text
  fullHeaders : Bool
  headerKeys : List Text
deriving DecidableEq, Repr

/-- ASCII text, such as the tokens that header names are. -/
def IsAscii (input : Text) : Prop :=
  ∀ char ∈ input, char.toNat < 128

instance (input : Text) : Decidable (IsAscii input) :=
  inferInstanceAs (Decidable (∀ char ∈ input, char.toNat < 128))

/-- A request matched to a route with given parameter names. -/
structure RouteRequest (paramNames : List Text) where
  url : Text
  headers : List (Text × Text)
  headerNames_ascii : ∀ header ∈ headers, IsAscii header.1
  paramValues : List Text
  paramValues_length : paramValues.length = paramNames.length
deriving DecidableEq

/-! ## Query -/

/-- A property of the query object. -/
inductive QueryValue where
  | single (value : Text)
  | several (values : List Text)
deriving DecidableEq, Repr

/-- The property for the values that were pushed under one key. -/
def QueryValue.ofList : List Text → Option QueryValue
  | [] => none
  | [value] => some (.single value)
  | values => some (.several values)

def pushQueryEntry
    (result : Dictionary Text QueryValue)
    (entry : Text × Text) :
    Dictionary Text QueryValue :=
  match result.get entry.1 with
  | some (.several current) => result.set entry.1 (.several (current ++ [entry.2]))
  | some (.single current) => result.set entry.1 (.several [current, entry.2])
  | none => result.set entry.1 (.single entry.2)

/-- The loop shared by both query parsers: decode every pair and keep the keys
that pass. A target that ends at its question mark has no pair. -/
def parseQueryWith (keeps : Text → Bool) (url : Text) : Dictionary Text QueryValue :=
  ((QueryString.entries decodeUriComponentFast url).filter fun entry => keeps entry.1).foldl
    pushQueryEntry []

def parseQuery (url : Text) : Dictionary Text QueryValue :=
  parseQueryWith (fun key => !isDangerousKey key) url

def parseSelectedQuery (url : Text) (selectedKeys : List Text) : Dictionary Text QueryValue :=
  if selectedKeys = [] then
    []
  else
    parseQueryWith (fun key => selectedKeys.contains key && !isDangerousKey key) url

def materializeQueryObject
    (plan : AccessPlan)
    (queryPresent : Bool)
    (url : Text) :
    Dictionary Text QueryValue :=
  if queryPresent then
    if plan.fullQuery then
      parseQuery url
    else
      parseSelectedQuery url plan.queryKeys
  else
    []

/-- Whether the manifest asks for the query, so that the target is part of the
bridge request. -/
def AccessPlan.needsQuery (plan : AccessPlan) : Bool :=
  plan.fullQuery || !plan.queryKeys.isEmpty

variable {paramNames : List Text}

/-- `REQUEST_FLAG_QUERY_PRESENT` of the bridge request. -/
def queryPresent (plan : AccessPlan) (request : RouteRequest paramNames) : Bool :=
  plan.needsQuery && request.url.contains '?'

/-- `req.query`. -/
def reqQuery
    (plan : AccessPlan)
    (request : RouteRequest paramNames) :
    Dictionary Text QueryValue :=
  if plan.needsQuery then
    materializeQueryObject plan (queryPresent plan request) (textDecode request.url)
  else
    []

/-! ## Path parameters -/

/-- The loop shared by both ways of building `req.params`. -/
def materializeParamsWith
    (keeps : Text → Bool)
    (entries paramNames : List Text) :
    Dictionary Text Text :=
  ((paramNames.zip entries).filter fun entry => keeps entry.1).foldl
    (fun result entry => result.set entry.1 (textDecode entry.2)) []

def materializeParamPairs (entries paramNames : List Text) : Dictionary Text Text :=
  materializeParamsWith (fun key => !isDangerousKey key) entries paramNames

def materializeSelectedParamPairs
    (entries paramNames selectedKeys : List Text) :
    Dictionary Text Text :=
  if selectedKeys = [] then
    []
  else
    materializeParamsWith (fun key => selectedKeys.contains key && !isDangerousKey key)
      entries paramNames

def materializeParamObject
    (plan : AccessPlan)
    (entries paramNames : List Text) :
    Dictionary Text Text :=
  if plan.fullParams then
    materializeParamPairs entries paramNames
  else
    materializeSelectedParamPairs entries paramNames plan.paramKeys

/-- `req.params`. -/
def reqParams
    (plan : AccessPlan)
    (request : RouteRequest paramNames) :
    Dictionary Text Text :=
  if plan.fullParams || !plan.paramKeys.isEmpty then
    materializeParamObject plan request.paramValues paramNames
  else
    []

/-! ## Headers -/

/-- `should_include_header`: which headers the native side hands over. -/
def shouldIncludeHeader (plan : AccessPlan) (name : Text) : Bool :=
  plan.fullHeaders || plan.headerKeys.any (Text.eqIgnoreAsciiCase · name)

/-- The headers of the bridge request. -/
def rawHeaders
    (plan : AccessPlan)
    (request : RouteRequest paramNames) :
    List (Text × Text) :=
  request.headers.filter fun header => shouldIncludeHeader plan header.1

/-- `ensureHeaderLookup`. Header names are tokens, so lower case only touches
ASCII letters. -/
def ensureHeaderLookup (headers : List (Text × Text)) : Dictionary Text Text :=
  ((headers.map fun header => (Text.asciiLower header.1, header.2)).filter
      fun header => !isDangerousKey header.1).foldl
    (fun result header => result.set header.1 (textDecode header.2)) []

def materializeSelectedHeadersFromLookup
    (headerLookup : Dictionary Text Text)
    (selectedKeys : List Text) :
    Dictionary Text Text :=
  (selectedKeys.filter fun key => !isDangerousKey key).foldl (Dictionary.copyKey headerLookup) []

/-- `req.headers`. -/
def reqHeaders
    (plan : AccessPlan)
    (request : RouteRequest paramNames) :
    Dictionary Text Text :=
  if plan.fullHeaders || !plan.headerKeys.isEmpty then
    if plan.fullHeaders then
      ensureHeaderLookup (rawHeaders plan request)
    else
      materializeSelectedHeadersFromLookup (ensureHeaderLookup (rawHeaders plan request))
        plan.headerKeys
  else
    []

/-- JavaScript's lower case as far as it gives ASCII text: besides the ASCII
letters only the Kelvin sign does. Header names are ASCII, so no other lower
case matters to a lookup. -/
def toLowerCase (name : Text) : Text :=
  Text.asciiLower (name.map fun char => if char = '\u212A' then 'k' else char)

/-- `req.header(name)`. Whether `req.headers` was built before makes no
difference: it holds nothing that the lookup does not (`get_reqHeader`). -/
def reqHeader
    (plan : AccessPlan)
    (request : RouteRequest paramNames)
    (name : Text) :
    Option Text :=
  match (reqHeaders plan request).get (toLowerCase name) with
  | some value => some value
  | none => (ensureHeaderLookup (rawHeaders plan request)).get (toLowerCase name)

/-! ## What the objects hold under a key -/

/-- Whether a read of `req.query` under a key can see anything. -/
def AccessPlan.readsQuery (plan : AccessPlan) (key : Text) : Bool :=
  !isDangerousKey key && (plan.fullQuery || plan.queryKeys.contains key)

def AccessPlan.readsParam (plan : AccessPlan) (key : Text) : Bool :=
  !isDangerousKey key && (plan.fullParams || plan.paramKeys.contains key)

def AccessPlan.readsHeader (plan : AccessPlan) (key : Text) : Bool :=
  !isDangerousKey key && (plan.fullHeaders || plan.headerKeys.contains key)

theorem get_pushQueryEntry
    (values : List Text)
    (entry : Text × Text)
    (result : Dictionary Text QueryValue)
    (key : Text)
    (pushed : result.get key = QueryValue.ofList values) :
    (pushQueryEntry result entry).get key =
      QueryValue.ofList (if entry.1 = key then values ++ [entry.2] else values) := by
  by_cases same : entry.1 = key
  · subst same
    rw [if_pos rfl, pushQueryEntry, pushed]
    cases values with
    | nil => simp [QueryValue.ofList]
    | cons first rest =>
        cases rest with
        | nil => simp [QueryValue.ofList]
        | cons second others => simp [QueryValue.ofList]
  · rw [if_neg same, ← pushed, pushQueryEntry]
    cases result.get entry.1 with
    | none => exact Dictionary.get_set_of_ne result _ same
    | some current =>
        cases current with
        | single value => exact Dictionary.get_set_of_ne result _ same
        | several values => exact Dictionary.get_set_of_ne result _ same

/-- Pushing entries collects the values of a key in order. -/
theorem get_foldl_pushQueryEntry
    (entries : List (Text × Text))
    (values : List Text)
    (result : Dictionary Text QueryValue)
    (key : Text)
    (pushed : result.get key = QueryValue.ofList values) :
    (entries.foldl pushQueryEntry result).get key =
      QueryValue.ofList
        (values ++ (entries.filter fun entry => entry.1 = key).map Prod.snd) := by
  induction entries generalizing values result with
  | nil => simp [pushed]
  | cons entry rest hypothesis =>
      rw [List.foldl_cons,
        hypothesis _ _ (get_pushQueryEntry values entry result key pushed)]
      by_cases same : entry.1 = key <;> simp [same]

theorem get_parseQueryWith
    (keeps : Text → Bool)
    (url key : Text) :
    (parseQueryWith keeps url).get key =
      if keeps key then
        QueryValue.ofList (QueryString.values decodeUriComponentFast key url)
      else
        none := by
  rw [parseQueryWith, get_foldl_pushQueryEntry _ [] [] key rfl, List.nil_append,
    List.filter_filter, QueryString.values_eq_filter_entries]
  by_cases kept : keeps key = true
  · rw [if_pos kept]
    congr 2
    apply List.filter_congr
    intro entry _
    by_cases same : entry.1 = key <;> simp [same, kept]
  · rw [if_neg kept, List.filter_eq_nil_iff.mpr]
    · rfl
    · intro entry _
      by_cases same : entry.1 = key <;> simp [same, kept]

theorem query_textDecode
    (url : Text) :
    QueryString.query (textDecode url) = QueryString.query url := by
  unfold QueryString.query
  cases url with
  | nil => rfl
  | cons char rest =>
      rw [textDecode]
      split
      · rename_i mark
        rw [Text.cut, if_neg (by rw [mark]; decide)]
      · rfl

theorem values_textDecode
    (decode : Text → Text)
    (name url : Text) :
    QueryString.values decode name (textDecode url) = QueryString.values decode name url := by
  simp only [QueryString.values, QueryString.hits, QueryString.pairs, QueryString.pieces,
    query_textDecode]

theorem query_eq_none
    {url : Text}
    (absent : '?' ∉ url) :
    QueryString.query url = none := by
  induction url with
  | nil => rfl
  | cons char rest hypothesis =>
      obtain ⟨different, absent⟩ := List.ne_and_not_mem_of_not_mem_cons absent
      unfold QueryString.query at hypothesis ⊢
      rw [Text.cut, if_neg (Ne.symm different)]
      exact hypothesis absent

theorem values_eq_nil
    {url : Text}
    (absent : '?' ∉ url)
    (decode : Text → Text)
    (name : Text) :
    QueryString.values decode name url = [] := by
  simp [QueryString.values, QueryString.hits, QueryString.pairs, QueryString.pieces,
    query_eq_none absent]

/-- `req.query[key]`. -/
theorem get_reqQuery
    (plan : AccessPlan)
    (request : RouteRequest paramNames)
    (key : Text) :
    (reqQuery plan request).get key =
      if plan.readsQuery key then
        QueryValue.ofList (QueryString.values decodeUriComponentFast key request.url)
      else
        none := by
  unfold reqQuery queryPresent
  by_cases needed : plan.needsQuery = true
  · rw [if_pos needed, materializeQueryObject]
    by_cases present : '?' ∈ request.url
    · rw [if_pos (by simp [needed, present])]
      by_cases full : plan.fullQuery = true
      · rw [if_pos full, parseQuery, get_parseQueryWith, values_textDecode]
        simp [AccessPlan.readsQuery, full]
      · rw [if_neg full, parseSelectedQuery, if_neg (by
          simpa [AccessPlan.needsQuery, full] using needed), get_parseQueryWith,
          values_textDecode]
        simp [AccessPlan.readsQuery, full, and_comm]
    · rw [if_neg (by simp [present]), values_eq_nil present]
      simp [QueryValue.ofList]
  · rw [if_neg needed]
    obtain ⟨partly, empty⟩ : plan.fullQuery = false ∧ plan.queryKeys = [] := by
      simpa [AccessPlan.needsQuery] using needed
    simp [AccessPlan.readsQuery, partly, empty]

/-- The last value matched for a parameter name. -/
def lastParam (request : RouteRequest paramNames) (key : Text) : Option Text :=
  ((paramNames.zip request.paramValues).filter fun entry => entry.1 = key).getLast?.map Prod.snd

/-- The last header whose lower-case name is given. -/
def lastHeader (request : RouteRequest paramNames) (key : Text) : Option Text :=
  (request.headers.filter fun header => Text.asciiLower header.1 = key).getLast?.map Prod.snd

theorem filter_kept
    {Value : Type}
    (keeps : Text → Bool)
    (key : Text)
    (kept : keeps key = true)
    (entries : List (Text × Value)) :
    ((entries.filter fun entry => keeps entry.1).filter fun entry => entry.1 = key) =
      entries.filter fun entry => entry.1 = key := by
  rw [List.filter_filter]
  apply List.filter_congr
  intro entry _
  by_cases same : entry.1 = key <;> simp [same, kept]

theorem filter_dropped
    {Value : Type}
    (keeps : Text → Bool)
    (key : Text)
    (dropped : ¬ keeps key = true)
    (entries : List (Text × Value)) :
    ((entries.filter fun entry => keeps entry.1).filter fun entry => entry.1 = key) = [] := by
  rw [List.filter_filter, List.filter_eq_nil_iff]
  intro entry _
  by_cases same : entry.1 = key <;> simp [same, dropped]

theorem get_materializeParamsWith
    (keeps : Text → Bool)
    (request : RouteRequest paramNames)
    (key : Text) :
    (materializeParamsWith keeps request.paramValues paramNames).get key =
      if keeps key then (lastParam request key).map textDecode else none := by
  rw [materializeParamsWith,
    Dictionary.get_foldl_set Prod.fst fun entry : Text × Text => textDecode entry.2, lastParam]
  by_cases kept : keeps key = true
  · rw [if_pos kept, filter_kept keeps key kept, Option.map_map]
    simp [Function.comp_def]
  · rw [if_neg kept, filter_dropped keeps key kept]
    simp

/-- `req.params[key]`. -/
theorem get_reqParams
    (plan : AccessPlan)
    (request : RouteRequest paramNames)
    (key : Text) :
    (reqParams plan request).get key =
      if plan.readsParam key then (lastParam request key).map textDecode else none := by
  unfold reqParams materializeParamObject
  by_cases full : plan.fullParams = true
  · rw [if_pos (by simp [full]), if_pos full, materializeParamPairs, get_materializeParamsWith]
    simp [AccessPlan.readsParam, full]
  · by_cases empty : plan.paramKeys = []
    · simp [AccessPlan.readsParam, full, empty]
    · rw [if_pos (by simpa [full] using empty), if_neg full, materializeSelectedParamPairs,
        if_neg empty, get_materializeParamsWith]
      simp [AccessPlan.readsParam, full, and_comm]

theorem get_ensureHeaderLookup
    (headers : List (Text × Text))
    (key : Text) :
    (ensureHeaderLookup headers).get key =
      if isDangerousKey key then
        none
      else
        ((headers.filter fun header => Text.asciiLower header.1 = key).getLast?).map
          fun header => textDecode header.2 := by
  rw [ensureHeaderLookup,
    Dictionary.get_foldl_set Prod.fst fun header : Text × Text => textDecode header.2]
  by_cases dangerous : isDangerousKey key = true
  · rw [if_pos dangerous, filter_dropped (fun key => !isDangerousKey key) key (by simp [dangerous])]
    simp
  · rw [if_neg dangerous, filter_kept (fun key => !isDangerousKey key) key (by simp [dangerous]), List.filter_map,
      List.getLast?_map, Option.map_map]
    simp [Function.comp_def]

/-- The headers handed over include every header of a name that is read. -/
theorem filter_rawHeaders
    {plan : AccessPlan} {key : Text}
    (handed : plan.fullHeaders = true ∨ key ∈ plan.headerKeys)
    (request : RouteRequest paramNames) :
    ((rawHeaders plan request).filter fun header => Text.asciiLower header.1 = key) =
      request.headers.filter fun header => Text.asciiLower header.1 = key := by
  rw [rawHeaders, List.filter_filter]
  apply List.filter_congr
  intro header _
  by_cases same : Text.asciiLower header.1 = key
  · have included : shouldIncludeHeader plan header.1 = true := by
      rw [shouldIncludeHeader, Bool.or_eq_true, List.any_eq_true]
      refine handed.imp id fun selected => ⟨key, selected, ?_⟩
      rw [Text.eqIgnoreAsciiCase_iff, ← same, Text.asciiLower_asciiLower]
    simp [same, included]
  · simp [same]

/-- `req.headers[key]`. -/
theorem get_reqHeaders
    (plan : AccessPlan)
    (request : RouteRequest paramNames)
    (key : Text) :
    (reqHeaders plan request).get key =
      if plan.readsHeader key then (lastHeader request key).map textDecode else none := by
  unfold reqHeaders lastHeader
  by_cases full : plan.fullHeaders = true
  · rw [if_pos (by simp [full]), if_pos full, get_ensureHeaderLookup,
      filter_rawHeaders (.inl full), Option.map_map]
    by_cases dangerous : isDangerousKey key = true <;>
      simp [AccessPlan.readsHeader, full, dangerous, Function.comp_def]
  · by_cases empty : plan.headerKeys = []
    · simp [AccessPlan.readsHeader, full, empty]
    · rw [if_pos (by simpa [full] using empty), if_neg full,
        materializeSelectedHeadersFromLookup, Dictionary.get_foldl_copyKey]
      by_cases selected : key ∈ plan.headerKeys
      · rw [get_ensureHeaderLookup, filter_rawHeaders (.inr selected), Option.map_map]
        by_cases dangerous : isDangerousKey key = true <;>
          simp [AccessPlan.readsHeader, full, selected, dangerous, Function.comp_def]
      · simp [AccessPlan.readsHeader, full, selected]

/-- `req.header(name)` for a header that is handed over. -/
theorem get_reqHeader
    {plan : AccessPlan} {name : Text}
    (handed : plan.fullHeaders = true ∨ toLowerCase name ∈ plan.headerKeys)
    (request : RouteRequest paramNames) :
    reqHeader plan request name =
      if isDangerousKey (toLowerCase name) then
        none
      else
        (lastHeader request (toLowerCase name)).map textDecode := by
  unfold reqHeader
  rw [get_reqHeaders, get_ensureHeaderLookup, filter_rawHeaders handed]
  by_cases dangerous : isDangerousKey (toLowerCase name) = true
  · simp [AccessPlan.readsHeader, dangerous]
  · have reads : plan.readsHeader (toLowerCase name) = true := by
      simpa [AccessPlan.readsHeader, dangerous] using handed
    rw [if_pos reads, if_neg dangerous, lastHeader, Option.map_map]
    cases (request.headers.filter fun header =>
      Text.asciiLower header.1 = toLowerCase name).getLast? <;> simp [dangerous]

end Bridge
end HttpNative
