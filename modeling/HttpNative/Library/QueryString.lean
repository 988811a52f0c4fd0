import HttpNative.Library.PercentEncoding

/-!
# Query strings

The pairs of a query string as they are spelled, and as a decoder reads them.
-/

namespace HttpNative
namespace QueryString

/-- What follows the first question mark of a request target. -/
def query (url : Text) : Option Text :=
  (Text.cut '?' url).2

/-- The pieces of the query between ampersands. -/
def pieces (url : Text) : List Text :=
  match query url with
  | none => []
  | some queryText => queryText.splitOn '&'

/-- The pairs of the query as spelled: a name, and a value where there is an
equals sign. Empty pieces are no pairs. -/
def pairs (url : Text) : List (Text × Option Text) :=
  ((pieces url).filter (· ≠ [])).map (Text.cut '=')

/-- A pair as a decoder reads it; a pair without an equals sign has the empty
value. -/
def decodePair (decode : Text → Text) (pair : Text × Option Text) : Text × Text :=
  (decode pair.1, (pair.2.map decode).getD [])

def entries (decode : Text → Text) (url : Text) : List (Text × Text) :=
  (pairs url).map (decodePair decode)

/-- The pairs whose name decodes to a given one, as spelled. -/
def hits (decode : Text → Text) (name url : Text) : List (Text × Option Text) :=
  (pairs url).filter fun pair => decode pair.1 = name

/-- The values a decoder reads under a name, in order. -/
def values (decode : Text → Text) (name url : Text) : List Text :=
  (hits decode name url).map fun pair => (decodePair decode pair).2

def plusToSpace (input : Text) : Text :=
  input.map fun char => if char = '+' then ' ' else char

/-- Decoding of `application/x-www-form-urlencoded`: a plus sign is a space,
escapes are decoded leniently. -/
def formDecode (input : Text) : Text :=
  PercentEncoding.decodeLenient (plusToSpace input)

/-- The parser of `application/x-www-form-urlencoded`. -/
def parseForm (queryText : Text) : List (Text × Text) :=
  ((queryText.splitOn '&').filter (· ≠ [])).map fun piece =>
    decodePair formDecode (Text.cut '=' piece)

/-- What the parser makes of the query of a request target. -/
theorem entries_formDecode
    (url : Text) :
    entries formDecode url = ((query url).map parseForm).getD [] := by
  unfold entries pairs pieces
  cases query url with
  | none => rfl
  | some queryText => exact List.map_map

theorem values_eq_filter_entries
    (decode : Text → Text)
    (name url : Text) :
    values decode name url =
      ((entries decode url).filter fun entry => entry.1 = name).map Prod.snd := by
  unfold values hits entries
  rw [List.filter_map, List.map_map]
  rfl

theorem mem_pairs_iff
    {pair : Text × Option Text} {url : Text} :
    pair ∈ pairs url ↔ ∃ piece ∈ pieces url, piece ≠ [] ∧ Text.cut '=' piece = pair := by
  simp [pairs, and_assoc]

theorem mem_hits_iff
    {decode : Text → Text} {name url : Text} {pair : Text × Option Text} :
    pair ∈ hits decode name url ↔ pair ∈ pairs url ∧ decode pair.1 = name := by
  simp [hits]

end QueryString
end HttpNative
