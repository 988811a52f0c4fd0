import HttpNative.Session.SessionCookies

/-!
# What is read of a cookie

A cookie value is verified exactly when it is the one that is built for the session id, up
to the case of its hexadecimal letters. And of a header with one pair of the name, the
value of that pair is taken, whatever stands around it.
-/

namespace HttpNative
namespace Session

/-! ## Verified values -/

theorem decode_of_hexDecodeId
    {hex : Text} {id : SessionId}
    (decodes : hexDecodeId hex = some id) :
    Hex.decode hex = some id.octets := by
  obtain ⟨octets, decoded, isId⟩ := Option.bind_eq_some_iff.mp decodes
  split at isId
  · cases isId
    exact decoded
  · cases isId

/-- Nothing but the cookie of a session id is verified. -/
theorem asciiLower_of_verifyCookie
    {signer : Signer} {value : Text} {id : SessionId}
    (verified : verifyCookie signer value = some id) :
    Text.asciiLower value = buildCookieValue signer id := by
  unfold verifyCookie at verified
  split at verified
  · cases verified
  · rename_i idHex sigHex cuts
    split at verified
    · cases verified
    · obtain ⟨read, decodes, checked⟩ := Option.bind_eq_some_iff.mp verified
      split at checked
      · rename_i signed
        cases checked
        rw [Text.eq_append_of_cut cuts, buildCookieValue,
          ← Hex.asciiLower_of_decode (decode_of_hexDecodeId decodes),
          ← Hex.asciiLower_of_decode signed, Text.asciiLower, List.map_append, List.map_cons]
        rfl
      · cases checked

/-! ## The pairs of a header -/

/-- The name and the value of a part of the header, around its first equals sign. -/
def pairOf (part : Text) : Option (Text × Text) :=
  match Text.cut '=' (Parser.trim part) with
  | (name, some value) => some (name, value)
  | (_, none) => none

/-- The pairs that semicolons and blanks separate. -/
def cookiePairs (cookieHeader : Text) : List (Text × Text) :=
  (cookieHeader.splitOn ';').filterMap pairOf

/-- A value without the blanks and then the quotes around it, if that leaves anything. -/
def bareValue (value : Text) : Option Text :=
  let bare := trimQuotes (Parser.trim value)
  if bare = [] then none else some bare

/-- A part is looked at when it is a pair of the name. -/
theorem valueOfPart_eq
    {cookieName : Text}
    (plain : '=' ∉ cookieName)
    (part : Text) :
    valueOfPart cookieName part =
      ((pairOf part).filter fun pair => pair.1 = cookieName).bind fun pair => bareValue pair.2 := by
  unfold valueOfPart pairOf
  cases cuts : Text.cut '=' (Parser.trim part) with
  | mk name found =>
      cases found with
      | none =>
          have absent := Text.notMem_of_cut cuts
          refine if_neg fun starts => absent ?_
          exact (List.isPrefixOf_iff_prefix.mp starts).subset (by simp)
      | some value =>
          have plainName : '=' ∉ name := by
            have absent := Text.separator_notMem_cut_fst '=' (Parser.trim part)
            rwa [cuts] at absent
          rw [Text.eq_append_of_cut cuts]
          by_cases own : name = cookieName
          · have behind : (name ++ '=' :: value).drop (cookieName.length + 1) = value := by
              rw [← own, ← List.drop_drop, List.drop_left]
              rfl
            rw [if_pos ((isPrefixOf_pair_iff plain plainName).mpr own), behind]
            simp [Option.filter, own, bareValue]
          · rw [if_neg (mt (isPrefixOf_pair_iff plain plainName).mp own)]
            simp [Option.filter, own]

theorem findSome?_valueOfPart
    {cookieName : Text}
    (plain : '=' ∉ cookieName)
    (parts : List Text) :
    parts.findSome? (valueOfPart cookieName) =
      ((parts.filterMap pairOf).filter fun pair => pair.1 = cookieName).findSome? fun pair =>
        bareValue pair.2 := by
  induction parts with
  | nil => rfl
  | cons part rest hypothesis =>
      rw [List.findSome?_cons, valueOfPart_eq plain, hypothesis, List.filterMap_cons]
      cases pairOf part with
      | none => rfl
      | some pair =>
          by_cases own : pair.1 = cookieName
          · simp [Option.filter, own, List.findSome?_cons]
          · simp [Option.filter, own]

theorem plain_of_pairOf
    {part : Text} {pair : Text × Text}
    (isPair : pairOf part = some pair) :
    '=' ∉ pair.1 := by
  unfold pairOf at isPair
  split at isPair
  · rename_i name value cuts
    cases isPair
    have absent := Text.separator_notMem_cut_fst '=' (Parser.trim part)
    rwa [cuts] at absent
  · cases isPair

/-- Of the pairs of the name, the first with a value is taken. -/
theorem extractCookieValue_eq
    {cookieName : Text}
    (plain : '=' ∉ cookieName)
    (cookieHeader : Text) :
    extractCookieValue cookieName cookieHeader =
      ((cookiePairs cookieHeader).filter fun pair => pair.1 = cookieName).findSome? fun pair =>
        bareValue pair.2 :=
  findSome?_valueOfPart plain _

/-! ## Headers that are put together of pairs -/

/-- A pair as it stands in a header, with what separates it from the one before. -/
structure SpacedPair where
  blanks : Text
  name : Text
  value : Text
  blank : ∀ char ∈ blanks, Parser.isWhitespace char = true
  /-- Blanks before a name belong to the separator. -/
  starts : ∀ char ∈ name.head?, Parser.isWhitespace char = false
  plain : '=' ∉ name
  wholeName : ';' ∉ name
  wholeValue : ';' ∉ value

namespace SpacedPair

def spelling (pair : SpacedPair) : Text :=
  pair.blanks ++ (pair.name ++ '=' :: pair.value)

theorem semicolon_notMem
    (pair : SpacedPair) :
    ';' ∉ pair.spelling := by
  have notBlank : ';' ∉ pair.blanks := fun member => absurd (pair.blank ';' member) (by decide)
  simp [spelling, notBlank, pair.wholeName, pair.wholeValue]

theorem pairOf_spelling
    (pair : SpacedPair) :
    pairOf pair.spelling = some (pair.name, pair.value.rdropWhile Parser.isWhitespace) := by
  have equals : Parser.isWhitespace '=' = false := by decide
  have front : pair.spelling.dropWhile Parser.isWhitespace = pair.name ++ '=' :: pair.value := by
    rw [spelling, List.dropWhile_append_of_pos pair.blank]
    have starts := pair.starts
    cases name : pair.name with
    | nil => rw [List.nil_append, List.dropWhile_cons_of_neg (by simp [equals])]
    | cons first rest =>
        rw [name] at starts
        rw [List.cons_append, List.dropWhile_cons_of_neg (by simp [starts first rfl])]
  rw [pairOf, Parser.trim, Text.trimWith, front, Text.rdropWhile_append_cons equals,
    Text.cut_append_cons pair.plain]

end SpacedPair

/-- The pairs of a header are those it is put together of. -/
theorem cookiePairs_intercalate
    {pairs : List SpacedPair}
    (some_ : pairs ≠ []) :
    cookiePairs ([';'].intercalate (pairs.map SpacedPair.spelling)) =
      pairs.map fun pair => (pair.name, pair.value.rdropWhile Parser.isWhitespace) := by
  rw [cookiePairs, List.splitOn_intercalate, List.filterMap_map]
  · rw [← List.filterMap_eq_map]
    apply List.filterMap_congr
    intro pair _
    exact pair.pairOf_spelling
  · intro part member
    obtain ⟨pair, -, rfl⟩ := List.mem_map.mp member
    exact pair.semicolon_notMem
  · simpa using some_

/-- The cookie of a session id is verified for it, nothing is verified but the cookie of
the session id up to the case of letters, of a header with one pair of the name the
bare value of that pair is taken, and the pairs of a header are those that it was put
together of. -/
theorem verifyCookie_and_extractCookieValue
    (signer : Signer) :
    (∀ id, verifyCookie signer (buildCookieValue signer id) = some id) ∧
      (∀ value id, verifyCookie signer value = some id →
        Text.asciiLower value = buildCookieValue signer id) ∧
      (∀ cookieName cookieHeader value,
        ((cookiePairs cookieHeader).filter fun pair => pair.1 = cookieName) =
            [(cookieName, value)] →
          extractCookieValue cookieName cookieHeader = bareValue value) ∧
      ∀ pairs : List SpacedPair, pairs ≠ [] →
        cookiePairs ([';'].intercalate (pairs.map SpacedPair.spelling)) =
          pairs.map fun pair => (pair.name, pair.value.rdropWhile Parser.isWhitespace) := by
  refine ⟨verifyCookie_buildCookieValue signer, fun _ _ => asciiLower_of_verifyCookie, ?_,
    fun _ => cookiePairs_intercalate⟩
  intro cookieName cookieHeader value one
  have own : (cookieName, value) ∈ (cookiePairs cookieHeader).filter fun pair =>
      pair.1 = cookieName := by
    rw [one]
    exact List.mem_singleton_self _
  obtain ⟨part, -, isPair⟩ := List.mem_filterMap.mp (List.mem_filter.mp own).1
  rw [extractCookieValue_eq (plain_of_pairOf isPair), one]
  simp

def countedId : SessionId where
  octets := [0, 1, 2, 3, 4, 5, 6, 7, 8, 9, 10, 11, 12, 13, 14, 15]
  sixteen := rfl

/-- HMAC-SHA256 of that id under the secret `a session secret`. -/
def countedSigner : Signer where
  mac := fun _ => [211, 70, 214, 151, 154, 35, 139, 51, 245, 58, 22, 239, 5, 180, 133, 118, 66, 19,
    54, 84, 62, 151, 69, 52, 63, 210, 175, 95, 127, 138, 34, 208]
  length_mac := fun _ => rfl

/-- The cookie with capital letters, between cookies of longer names. -/
def countedValue : Text :=
  text "000102030405060708090A0B0C0D0E0F.D346D6979A238B33F53A16EF05B48576421336543E9745343FD2AF5F7F8A22D0"

theorem verifyCookie_and_extractCookieValue_counted :
    Text.asciiLower countedValue = buildCookieValue countedSigner countedId ∧
      extractCookieValue (text "sid")
          (text "xsid=1;  sid= \"" ++ countedValue ++ text "\" ;sidx=2; sid =3") =
        some countedValue :=
  ⟨(verifyCookie_and_extractCookieValue countedSigner).2.1 countedValue countedId
      (by decide),
    ((verifyCookie_and_extractCookieValue countedSigner).2.2.1 (text "sid") _
      (text " \"" ++ countedValue ++ text "\"") (by decide)).trans (by decide)⟩

end Session
end HttpNative
