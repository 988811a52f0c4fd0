import HttpNative.Bridge.RequestReaders

/-!
# Cache keys of native routes

The values a route's vary keys feed to the hasher, taken from the request as it
arrived, beside the values that the handler reads under the same names.
-/

namespace HttpNative
namespace Router

open Bridge

inductive CacheVaryKey where
  | queryParam (name : Text)
  | pathParam (name : Text)
  | header (name : Text)
deriving DecidableEq, Repr

structure RouteCacheConfig where
  ttlSecs : Nat
  maxEntries : Nat
  varyKeys : List CacheVaryKey
deriving DecidableEq, Repr

def CacheVaryKey.name : CacheVaryKey → Text
  | .queryParam name => name
  | .pathParam name => name
  | .header name => name

/-- A value fed to the hasher: a string, or the empty octet array `b""`. -/
inductive HashedValue where
  | str (value : Text)
  | emptyBytes
deriving DecidableEq, Repr

variable {paramNames : List Text}

/-- The value of the first pair spelled `name=value`. -/
def firstQueryValue (name url : Text) : Option Text :=
  (QueryString.pieces url).findSome? fun pair =>
    match Text.cut '=' pair with
    | (key, some value) => if key = name then some value else none
    | (_, none) => none

/-- The first value captured for a parameter name; a name without a value is
passed over. -/
def firstParam (name : Text) (request : RouteRequest paramNames) : Option Text :=
  ((paramNames.zip request.paramValues).find? fun entry => entry.1 = name).map Prod.snd

/-- The first header of a name, whatever its case. -/
def firstHeader (name : Text) (request : RouteRequest paramNames) : Option Text :=
  (request.headers.find? fun header => Text.eqIgnoreAsciiCase header.1 name).map Prod.snd

def varyValue (request : RouteRequest paramNames) : CacheVaryKey → Option Text
  | .queryParam name => firstQueryValue name request.url
  | .pathParam name => firstParam name request
  | .header name => firstHeader name request

/-- What one vary key feeds: its name, then the value found or `b""`. -/
def hashVaryKey (request : RouteRequest paramNames) (key : CacheVaryKey) : List HashedValue :=
  [.str key.name, (varyValue request key).elim .emptyBytes .str]

/-- `interpolate_cache_key` before hashing: the values fed, in order. -/
def interpolateCacheKey
    (config : RouteCacheConfig)
    (request : RouteRequest paramNames) :
    List HashedValue :=
  config.varyKeys.flatMap (hashVaryKey request)

/-- The value the handler reads under the name of a vary key. -/
def readVaryKey
    (plan : AccessPlan)
    (request : RouteRequest paramNames) :
    CacheVaryKey → Option QueryValue
  | .queryParam name => (reqQuery plan request).get name
  | .pathParam name => ((reqParams plan request).get name).map .single
  | .header name => ((reqHeaders plan request).get name).map .single

theorem hashVaryKey_inj
    {request other : RouteRequest paramNames} {key : CacheVaryKey}
    (same : hashVaryKey request key = hashVaryKey other key) :
    varyValue request key = varyValue other key := by
  unfold hashVaryKey at same
  cases found : varyValue request key <;> cases foundOther : varyValue other key <;>
    simp_all

/-- Equal sequences agree at every vary key: each key feeds two values. -/
theorem varyValue_eq_of_interpolateCacheKey_eq
    {config : RouteCacheConfig} {request other : RouteRequest paramNames}
    (same : interpolateCacheKey config request = interpolateCacheKey config other)
    {key : CacheVaryKey}
    (member : key ∈ config.varyKeys) :
    varyValue request key = varyValue other key := by
  unfold interpolateCacheKey at same
  generalize config.varyKeys = keys at same member
  induction keys with
  | nil => cases member
  | cons first rest hypothesis =>
      rw [List.flatMap_cons, List.flatMap_cons] at same
      obtain ⟨sameFirst, sameRest⟩ := List.append_inj same rfl
      rcases List.mem_cons.mp member with rfl | inRest
      · exact hashVaryKey_inj sameFirst
      · exact hypothesis sameRest inRest

/-! ## What the key takes from a query -/

theorem mem_pairs_of_firstQueryValue
    {name url value : Text}
    (found : firstQueryValue name url = some value) :
    (name, some value) ∈ QueryString.pairs url := by
  obtain ⟨piece, member, taken⟩ := List.exists_of_findSome?_eq_some found
  rw [QueryString.mem_pairs_iff]
  refine ⟨piece, member, ?_, ?_⟩
  · rintro rfl
    simp [Text.cut] at taken
  · cases spelled : Text.cut '=' piece with
    | mk key after =>
        rw [spelled] at taken
        cases after with
        | none => cases taken
        | some after =>
            obtain ⟨rfl, same⟩ : key = name ∧ after = value := by
              simpa using taken
            rw [same]

theorem firstQueryValue_ne_none
    {name url value : Text}
    (member : (name, some value) ∈ QueryString.pairs url) :
    firstQueryValue name url ≠ none := by
  obtain ⟨piece, inPieces, _, spelled⟩ := QueryString.mem_pairs_iff.mp member
  intro missing
  have skipped := List.findSome?_eq_none_iff.mp missing piece inPieces
  rw [spelled] at skipped
  simp at skipped

end Router
end HttpNative
