import HttpNative.Router.VaryKeys

/-!
# Equal cache keys and equal reads

The cache key is taken from the raw request and the handler reads decoded
values, so equal keys do not always mean equal reads. They do between requests
that spell each vary key plainly; and a request that does not is confused with
a plain one.
-/

namespace HttpNative
namespace Router

open Bridge

variable {paramNames : List Text}

/-- At most one pair of the query decodes to the name, and it is spelled
`name=value`. -/
def SpelledOnce (name url : Text) : Prop :=
  (QueryString.hits decodeUriComponentFast name url).length ≤ 1 ∧
    ∀ pair ∈ QueryString.hits decodeUriComponentFast name url,
      pair.1 = name ∧ pair.2.isSome = true

instance (name url : Text) : Decidable (SpelledOnce name url) :=
  inferInstanceAs (Decidable (_ ∧ _))

/-- The request spells a vary key plainly, as far as the handler can read it:
a query name once and unescaped, a parameter or header name with one text in
its first and its last occurrence. -/
def Plain
    (plan : AccessPlan)
    (request : RouteRequest paramNames) :
    CacheVaryKey → Prop
  | .queryParam name => plan.readsQuery name = true → SpelledOnce name request.url
  | .pathParam name =>
      plan.readsParam name = true →
        (lastParam request name).map textDecode = (firstParam name request).map textDecode
  | .header name =>
      plan.readsHeader name = true ∧ Text.asciiLower name = name →
        (lastHeader request name).map textDecode = (firstHeader name request).map textDecode

instance (plan : AccessPlan) (request : RouteRequest paramNames) (key : CacheVaryKey) :
    Decidable (Plain plan request key) := by
  cases key <;> exact inferInstanceAs (Decidable (_ → _))

/-! ## Query names -/

/-- The values a plainly spelled query gives under a name, from the value in
the cache key. A name that does not decode to itself cannot be read from its
plain spelling. -/
def plainValues (name : Text) (first : Option Text) : List Text :=
  if decodeUriComponentFast name = name then
    (first.map decodeUriComponentFast).toList
  else
    []

theorem mem_hits_of_firstQueryValue
    {name url value : Text}
    (plainName : decodeUriComponentFast name = name)
    (found : firstQueryValue name url = some value) :
    (name, some value) ∈ QueryString.hits decodeUriComponentFast name url :=
  QueryString.mem_hits_iff.mpr ⟨mem_pairs_of_firstQueryValue found, plainName⟩

theorem values_of_spelledOnce
    {name url : Text}
    (once : SpelledOnce name url) :
    QueryString.values decodeUriComponentFast name url =
      plainValues name (firstQueryValue name url) := by
  obtain ⟨short, plain⟩ := once
  unfold QueryString.values plainValues
  cases found : QueryString.hits decodeUriComponentFast name url with
  | nil =>
      split
      · rename_i plainName
        cases first : firstQueryValue name url with
        | none => rfl
        | some value =>
            have member := mem_hits_of_firstQueryValue plainName first
            rw [found] at member
            cases member
      · rfl
  | cons pair others =>
      rw [found] at short plain
      obtain rfl : others = [] := by
        cases others with
        | nil => rfl
        | cons second rest => simp at short
      obtain ⟨sameName, hasValue⟩ := plain pair List.mem_cons_self
      obtain ⟨value, isValue⟩ := Option.isSome_iff_exists.mp hasValue
      have spelled : pair = (name, some value) := Prod.ext sameName isValue
      have inHits : (name, some value) ∈ QueryString.hits decodeUriComponentFast name url := by
        rw [found, spelled]
        exact List.mem_cons_self
      obtain ⟨inPairs, plainName⟩ := QueryString.mem_hits_iff.mp inHits
      rw [if_pos plainName]
      cases first : firstQueryValue name url with
      | none => exact absurd first (firstQueryValue_ne_none inPairs)
      | some taken =>
          have member := mem_hits_of_firstQueryValue plainName first
          rw [found, spelled, List.mem_singleton] at member
          cases member
          simp [spelled, QueryString.decodePair]

theorem spelledOnce_of_values
    {name url : Text}
    (values : QueryString.values decodeUriComponentFast name url =
      plainValues name (firstQueryValue name url)) :
    SpelledOnce name url := by
  unfold QueryString.values plainValues at values
  split at values
  · rename_i plainName
    cases first : firstQueryValue name url with
    | none =>
        rw [first] at values
        have empty := List.map_eq_nil_iff.mp values
        simp [SpelledOnce, empty]
    | some value =>
        rw [first] at values
        have member := mem_hits_of_firstQueryValue plainName first
        have single : (QueryString.hits decodeUriComponentFast name url).length = 1 := by
          rw [← List.length_map (f := fun pair =>
            (QueryString.decodePair decodeUriComponentFast pair).2), values]
          rfl
        obtain ⟨pair, found⟩ := List.length_eq_one_iff.mp single
        rw [found, List.mem_singleton] at member
        simp [SpelledOnce, found, ← member]
  · have empty := List.map_eq_nil_iff.mp values
    simp [SpelledOnce, empty]

theorem spelledOnce_iff
    {name url : Text} :
    SpelledOnce name url ↔
      QueryString.values decodeUriComponentFast name url =
        plainValues name (firstQueryValue name url) :=
  ⟨values_of_spelledOnce, spelledOnce_of_values⟩

theorem ofList_injective : Function.Injective QueryValue.ofList := by
  intro values others same
  cases values with
  | nil =>
      cases others with
      | nil => rfl
      | cons other rest => cases rest <;> simp [QueryValue.ofList] at same
  | cons value tail =>
      cases others with
      | nil => cases tail <;> simp [QueryValue.ofList] at same
      | cons other rest => cases tail <;> cases rest <;> simp_all [QueryValue.ofList]

/-! ## Parameters and headers -/

theorem lastParam_eq_none_of_firstParam
    {name : Text} {request : RouteRequest paramNames}
    (missing : firstParam name request = none) :
    lastParam request name = none := by
  unfold firstParam at missing
  unfold lastParam
  rw [Option.map_eq_none_iff, ← List.head?_filter, List.head?_eq_none_iff] at missing
  rw [missing]
  rfl

theorem asciiLower_eq_iff
    {name : Text}
    (lower : Text.asciiLower name = name)
    (header : Text) :
    Text.eqIgnoreAsciiCase header name = true ↔ Text.asciiLower header = name := by
  rw [Text.eqIgnoreAsciiCase_iff, lower]

theorem lastHeader_eq_none_of_firstHeader
    {name : Text} {request : RouteRequest paramNames}
    (lower : Text.asciiLower name = name)
    (missing : firstHeader name request = none) :
    lastHeader request name = none := by
  unfold firstHeader at missing
  unfold lastHeader
  rw [Option.map_eq_none_iff, List.find?_eq_none] at missing
  rw [List.filter_eq_nil_iff.mpr]
  · rfl
  · intro header member matched
    exact missing header member ((asciiLower_eq_iff lower _).mpr (by simpa using matched))

/-- A name with an upper-case letter is the lower-case name of no header. -/
theorem lastHeader_eq_none_of_not_lower
    {name : Text}
    (upper : Text.asciiLower name ≠ name)
    (request : RouteRequest paramNames) :
    lastHeader request name = none := by
  unfold lastHeader
  rw [List.filter_eq_nil_iff.mpr]
  · rfl
  · intro header _ matched
    apply upper
    rw [← (by simpa using matched : Text.asciiLower header.1 = name), Text.asciiLower_asciiLower]

/-! ## Plain requests are read by their cache key -/

/-- What the handler reads under a plainly spelled vary key, from the value in
the cache key. -/
def plainRead (plan : AccessPlan) : CacheVaryKey → Option Text → Option QueryValue
  | .queryParam name, first =>
      if plan.readsQuery name then QueryValue.ofList (plainValues name first) else none
  | .pathParam name, first =>
      if plan.readsParam name then (first.map textDecode).map .single else none
  | .header name, first =>
      if plan.readsHeader name ∧ Text.asciiLower name = name then
        (first.map textDecode).map .single
      else
        none

theorem map_single_inj
    {left right : Option Text} :
    left.map QueryValue.single = right.map QueryValue.single ↔ left = right :=
  (Option.map_injective fun _ _ same => by simpa using same).eq_iff

theorem plain_iff_read
    (plan : AccessPlan)
    (request : RouteRequest paramNames)
    (key : CacheVaryKey) :
    Plain plan request key ↔
      readVaryKey plan request key = plainRead plan key (varyValue request key) := by
  cases key with
  | queryParam name =>
      simp only [Plain, readVaryKey, plainRead, varyValue, get_reqQuery, spelledOnce_iff]
      by_cases reads : plan.readsQuery name = true
      · rw [if_pos reads, if_pos reads, ofList_injective.eq_iff]
        simp [reads]
      · simp [reads]
  | pathParam name =>
      simp only [Plain, readVaryKey, plainRead, varyValue, get_reqParams]
      by_cases reads : plan.readsParam name = true
      · rw [if_pos reads, if_pos reads, map_single_inj]
        simp [reads]
      · simp [reads]
  | header name =>
      simp only [Plain, readVaryKey, plainRead, varyValue, get_reqHeaders]
      by_cases lower : Text.asciiLower name = name
      · by_cases reads : plan.readsHeader name = true
        · rw [if_pos reads, if_pos ⟨reads, lower⟩, map_single_inj]
          simp [reads, lower]
        · simp [reads]
      · rw [lastHeader_eq_none_of_not_lower lower]
        simp [lower]

/-! ## Every cache key has a plain request -/

/-- A query of one plainly spelled pair. -/
def plainUrl (name value : Text) : Text :=
  '?' :: (name ++ '=' :: value)

theorem pieces_plainUrl
    {name value : Text}
    (noSeparator : '&' ∉ name ++ '=' :: value) :
    QueryString.pieces (plainUrl name value) = [name ++ '=' :: value] := by
  have query : QueryString.query (plainUrl name value) = some (name ++ '=' :: value) := by
    rw [QueryString.query, plainUrl, Text.cut, if_pos rfl]
  rw [QueryString.pieces, query]
  exact List.splitOn_eq_singleton noSeparator

theorem spelledOnce_plainUrl
    {name value : Text}
    (noSeparator : '&' ∉ name ++ '=' :: value)
    (noEquals : '=' ∉ name) :
    SpelledOnce name (plainUrl name value) := by
  have pairs : QueryString.pairs (plainUrl name value) = [(name, some value)] := by
    rw [QueryString.pairs, pieces_plainUrl noSeparator, List.filter_cons_of_pos (by simp),
      List.filter_nil, List.map_singleton, Text.cut_append_cons noEquals]
  constructor
  · exact (List.length_filter_le _ _).trans (by rw [pairs]; simp)
  · intro pair member
    obtain ⟨inPairs, _⟩ := QueryString.mem_hits_iff.mp member
    rw [pairs, List.mem_singleton] at inPairs
    simp [inPairs]

theorem firstQueryValue_plainUrl
    {name value : Text}
    (noSeparator : '&' ∉ name ++ '=' :: value)
    (noEquals : '=' ∉ name) :
    firstQueryValue name (plainUrl name value) = some value := by
  rw [firstQueryValue, pieces_plainUrl noSeparator]
  simp [Text.cut_append_cons noEquals]

/-- A pair of a query has no ampersand, and no equals sign in its name. -/
theorem separators_notMem_of_mem_pairs
    {name url value : Text}
    (member : (name, some value) ∈ QueryString.pairs url) :
    '&' ∉ name ++ '=' :: value ∧ '=' ∉ name := by
  obtain ⟨piece, inPieces, _, spelled⟩ := QueryString.mem_pairs_iff.mp member
  have noSeparator : '&' ∉ piece := by
    unfold QueryString.pieces at inPieces
    split at inPieces
    · cases inPieces
    · exact Text.separator_notMem_of_mem_splitOn inPieces
  have nameSpelled : (Text.cut '=' piece).1 = name := by rw [spelled]
  have valueSpelled : (Text.cut '=' piece).2 = some value := by rw [spelled]
  constructor
  · intro inPair
    rcases List.mem_append.mp inPair with inName | inRest
    · exact noSeparator (Text.mem_of_mem_cut_fst (nameSpelled ▸ inName))
    · rcases List.mem_cons.mp inRest with equals | inValue
      · simp at equals
      · exact noSeparator (Text.mem_of_mem_cut_snd valueSpelled inValue)
  · rw [← nameSpelled]
    exact Text.separator_notMem_cut_fst '=' piece

/-- Capture one value for every parameter. -/
def constantParams (value : Text) (request : RouteRequest paramNames) : RouteRequest paramNames :=
  { request with
    paramValues := List.replicate paramNames.length value
    paramValues_length := List.length_replicate }

theorem zip_replicate
    (names : List Text)
    (value : Text) :
    names.zip (List.replicate names.length value) = names.map fun name => (name, value) := by
  induction names with
  | nil => rfl
  | cons name rest hypothesis =>
      rw [List.length_cons, List.replicate_succ, List.zip_cons_cons, List.map_cons, hypothesis]

theorem zip_constantParams
    (value : Text)
    (request : RouteRequest paramNames) :
    paramNames.zip (constantParams value request).paramValues =
      paramNames.map fun name => (name, value) :=
  zip_replicate paramNames value

theorem firstParam_constantParams
    {name value : Text}
    (member : name ∈ paramNames)
    (request : RouteRequest paramNames) :
    firstParam name (constantParams value request) = some value := by
  rw [firstParam, zip_constantParams, List.find?_map, Option.map_map]
  cases found : paramNames.find? ((fun entry => decide (entry.1 = name)) ∘ (·, value)) with
  | none => exact absurd (List.find?_eq_none.mp found name member) (by simp)
  | some _ => rfl

theorem lastParam_constantParams
    {name value : Text}
    (member : name ∈ paramNames)
    (request : RouteRequest paramNames) :
    lastParam (constantParams value request) name = some value := by
  rw [lastParam, zip_constantParams, List.filter_map, List.getLast?_map, Option.map_map]
  cases found : (paramNames.filter
      ((fun entry => decide (entry.1 = name)) ∘ (·, value))).getLast? with
  | none =>
      rw [List.getLast?_eq_none_iff, List.filter_eq_nil_iff] at found
      exact absurd (found name member) (by simp)
  | some _ => rfl

theorem mem_of_firstParam
    {name value : Text} {request : RouteRequest paramNames}
    (found : firstParam name request = some value) :
    name ∈ paramNames := by
  obtain ⟨entry, inZip, _⟩ := Option.map_eq_some_iff.mp found
  have same : entry.1 = name := by simpa using List.find?_some inZip
  exact same ▸ (List.of_mem_zip (List.mem_of_find?_eq_some inZip)).1

/-- Keep one header of a request. -/
def onlyHeader
    (request : RouteRequest paramNames)
    {header : Text × Text}
    (member : header ∈ request.headers) :
    RouteRequest paramNames :=
  { request with
    headers := [header]
    headerNames_ascii := by
      intro other isHeader
      rw [List.mem_singleton.mp isHeader]
      exact request.headerNames_ascii header member }

/-- Some plain request has the same value in its cache key. -/
theorem exists_plain
    (plan : AccessPlan)
    (request : RouteRequest paramNames)
    (key : CacheVaryKey) :
    ∃ other : RouteRequest paramNames,
      Plain plan other key ∧ varyValue other key = varyValue request key := by
  cases key with
  | queryParam name =>
      cases found : firstQueryValue name request.url with
      | none =>
          refine ⟨{ request with url := [] }, fun _ => ?_, by simp [varyValue, found]; rfl⟩
          simp [SpelledOnce, QueryString.hits, QueryString.pairs, QueryString.pieces,
            QueryString.query, Text.cut]
      | some value =>
          obtain ⟨noSeparator, noEquals⟩ :=
            separators_notMem_of_mem_pairs (mem_pairs_of_firstQueryValue found)
          refine ⟨{ request with url := plainUrl name value },
            fun _ => spelledOnce_plainUrl noSeparator noEquals, ?_⟩
          rw [varyValue, varyValue, found, firstQueryValue_plainUrl noSeparator noEquals]
  | pathParam name =>
      cases found : firstParam name request with
      | none =>
          refine ⟨request, fun _ => ?_, rfl⟩
          rw [found, lastParam_eq_none_of_firstParam found]
      | some value =>
          have member := mem_of_firstParam found
          refine ⟨constantParams value request, fun _ => ?_, ?_⟩
          · rw [lastParam_constantParams member, firstParam_constantParams member]
          · rw [varyValue, varyValue, found, firstParam_constantParams member]
  | header name =>
      cases found : firstHeader name request with
      | none =>
          refine ⟨request, fun plain => ?_, rfl⟩
          rw [found, lastHeader_eq_none_of_firstHeader plain.2 found]
      | some value =>
          obtain ⟨header, isFirst, rfl⟩ := Option.map_eq_some_iff.mp found
          have member := List.mem_of_find?_eq_some isFirst
          have named : Text.eqIgnoreAsciiCase header.1 name = true := by
            simpa using List.find?_some isFirst
          refine ⟨onlyHeader request member, fun plain => ?_, ?_⟩
          · have sameName := (asciiLower_eq_iff plain.2 header.1).mp named
            simp [lastHeader, firstHeader, onlyHeader, sameName, named]
          · rw [varyValue, varyValue, found]
            simp [firstHeader, onlyHeader, named]

/-- Requests that spell every vary key plainly and have the same cache key are
read the same; and a request that does not spell a vary key plainly shares its
cache key with a plain one that is read differently. -/
theorem sameReads_of_plain
    (plan : AccessPlan) :
    (∀ (config : RouteCacheConfig) (request other : RouteRequest paramNames),
      (∀ key ∈ config.varyKeys, Plain plan request key ∧ Plain plan other key) →
      interpolateCacheKey config request = interpolateCacheKey config other →
      ∀ key ∈ config.varyKeys,
        readVaryKey plan request key = readVaryKey plan other key) ∧
    (∀ (key : CacheVaryKey) (request : RouteRequest paramNames),
      Plain plan request key ↔
        ∀ other : RouteRequest paramNames, Plain plan other key →
          hashVaryKey request key = hashVaryKey other key →
          readVaryKey plan request key = readVaryKey plan other key) := by
  have agree : ∀ (key : CacheVaryKey) (request other : RouteRequest paramNames),
      Plain plan request key → Plain plan other key →
      varyValue request key = varyValue other key →
      readVaryKey plan request key = readVaryKey plan other key := by
    intro key request other plain plainOther same
    rw [(plain_iff_read plan request key).mp plain,
      (plain_iff_read plan other key).mp plainOther, same]
  constructor
  · intro config request other plain same key member
    obtain ⟨plainRequest, plainOther⟩ := plain key member
    exact agree key request other plainRequest plainOther
      (varyValue_eq_of_interpolateCacheKey_eq same member)
  · intro key request
    constructor
    · intro plain other plainOther same
      exact agree key request other plain plainOther (hashVaryKey_inj same)
    · intro reads
      obtain ⟨other, plainOther, same⟩ := exists_plain plan request key
      rw [plain_iff_read, ← same, ← (plain_iff_read plan other key).mp plainOther]
      apply reads other plainOther
      rw [hashVaryKey, hashVaryKey, same]

/-! ## Two requests to one route -/

/-- A plan that reads every part of the request. -/
def fullPlan : AccessPlan where
  fullParams := true
  paramKeys := []
  fullQuery := true
  queryKeys := []
  fullHeaders := true
  headerKeys := []

/-- A route `/items/:id` cached by its parameter, the query name `page` and the
header `accept-language`. -/
def itemConfig : RouteCacheConfig where
  ttlSecs := 60
  maxEntries := 256
  varyKeys := [.pathParam (text "id"), .queryParam (text "page"),
    .header (text "accept-language")]

theorem length_itemValues : [text "7"].length = [text "id"].length :=
  rfl

def itemRequest (url : Text) : RouteRequest [text "id"] where
  url := url
  headers := [(text "Accept-Language", text "en")]
  headerNames_ascii := by decide
  paramValues := [text "7"]
  paramValues_length := length_itemValues

def plainItemRequest : RouteRequest [text "id"] :=
  itemRequest (text "/items/7?page=2&sort=a")

def otherItemRequest : RouteRequest [text "id"] :=
  itemRequest (text "/items/7?page=2")

theorem sameReads_of_plain_items :
    (readVaryKey fullPlan plainItemRequest (.queryParam (text "page")) =
        readVaryKey fullPlan otherItemRequest (.queryParam (text "page"))) ∧
      Plain fullPlan plainItemRequest (.queryParam (text "page")) :=
  ⟨(sameReads_of_plain fullPlan).1 itemConfig plainItemRequest otherItemRequest
      (by decide) (by decide) (.queryParam (text "page")) (by decide),
    by decide⟩

/-- A repeated query name is read as an array, and is not seen by the key. -/
theorem not_sameReads_of_repeated :
    ¬ ∀ (plan : AccessPlan) (config : RouteCacheConfig) (request other : RouteRequest [text "id"]),
      interpolateCacheKey config request = interpolateCacheKey config other →
      ∀ key ∈ config.varyKeys,
        readVaryKey plan request key = readVaryKey plan other key := by
  intro everywhere
  have same := everywhere fullPlan itemConfig otherItemRequest
    (itemRequest (text "/items/7?page=2&page=3"))
    (by decide) (.queryParam (text "page")) (by decide)
  revert same
  decide

end Router
end HttpNative
