import HttpNative.Library.Hex
import HttpNative.Parser.RequestHead

/-!
# Session cookies

A session cookie holds the session id and its signature, both in hexadecimal.
The native layer and the middleware each take it out of the `Cookie` header with
code of their own.
-/

namespace HttpNative
namespace Session

def sessionIdBytes : Nat := 16

def sessionIdHexLen : Nat := sessionIdBytes * 2

def hmacHexLen : Nat := 64

structure SessionId where
  octets : Octets
  sixteen : octets.length = sessionIdBytes
deriving DecidableEq

/-- HMAC-SHA256 under the secret of the server. -/
structure Signer where
  mac : Octets → Octets
  length_mac : ∀ octets, 2 * (mac octets).length = hmacHexLen

def hexEncodeId (id : SessionId) : Text :=
  Hex.encode id.octets

def hexDecodeId (hex : Text) : Option SessionId :=
  (Hex.decode hex).bind fun octets =>
    if sixteen : octets.length = sessionIdBytes then some ⟨octets, sixteen⟩ else none

def buildCookieValue (signer : Signer) (id : SessionId) : Text :=
  Hex.encode id.octets ++ '.' :: Hex.encode (signer.mac id.octets)

def verifyCookie (signer : Signer) (cookieValue : Text) : Option SessionId :=
  match Text.cut '.' cookieValue with
  | (_, none) => none
  | (idHex, some sigHex) =>
      if idHex.length ≠ sessionIdHexLen ∨ sigHex.length ≠ hmacHexLen then
        none
      else
        (hexDecodeId idHex).bind fun id =>
          if Hex.decode sigHex = some (signer.mac id.octets) then some id else none

/-! ## Taking the cookie out of the header -/

/-- `trim_matches` on quotes: all of them, at both ends. -/
def trimQuotes (value : Text) : Text :=
  Text.trimWith (· = '"') value

/-- The value of one part of the header, when it is a cookie of the name and the
value is not empty. -/
def valueOfPart (cookieName part : Text) : Option Text :=
  let trimmed := Parser.trim part
  if (cookieName ++ ['=']).isPrefixOf trimmed then
    let value := trimQuotes (Parser.trim (trimmed.drop (cookieName.length + 1)))
    if value = [] then none else some value
  else
    none

/-- `extract_cookie_value`. -/
def extractCookieValue (cookieName cookieHeader : Text) : Option Text :=
  (cookieHeader.splitOn ';').findSome? (valueOfPart cookieName)

/-- The replacement of one quote at each end. -/
def stripQuotes (value : Text) : Text :=
  let opened := if value.head? = some '"' then value.tail else value
  if opened.getLast? = some '"' then opened.dropLast else opened

/-- The cookie value in `resolveSessionId`: that of the first cookie of the
name. -/
def cookieValueOf (cookieName cookieHeader : Text) : Option Text :=
  ((cookieHeader.splitOn ';').map Text.trim).find? ((cookieName ++ ['=']).isPrefixOf ·) |>.map
    fun trimmed => stripQuotes (Text.trim (trimmed.drop (cookieName.length + 1)))

/-! ## Signing and verifying -/

theorem dot_notMem_encode
    (octets : Octets) :
    '.' ∉ Hex.encode octets := by
  intro member
  exact absurd (Hex.mem_digits_of_mem_encode member) (by decide)

theorem hexDecodeId_hexEncodeId
    (id : SessionId) :
    hexDecodeId (hexEncodeId id) = some id := by
  rw [hexDecodeId, hexEncodeId, Hex.decode_encode, Option.bind_some, dif_pos id.sixteen]

theorem cut_buildCookieValue
    (signer : Signer)
    (id : SessionId) :
    Text.cut '.' (buildCookieValue signer id) =
      (hexEncodeId id, some (Hex.encode (signer.mac id.octets))) :=
  Text.cut_append_cons (dot_notMem_encode id.octets) _

/-- A cookie that was built is verified. -/
theorem verifyCookie_buildCookieValue
    (signer : Signer)
    (id : SessionId) :
    verifyCookie signer (buildCookieValue signer id) = some id := by
  have idLength : (hexEncodeId id).length = sessionIdHexLen := by
    rw [hexEncodeId, Hex.length_encode, id.sixteen]
    rfl
  have sigLength : (Hex.encode (signer.mac id.octets)).length = hmacHexLen := by
    rw [Hex.length_encode, signer.length_mac]
  rw [verifyCookie, cut_buildCookieValue]
  simp only [idLength, sigLength, hexDecodeId_hexEncodeId, Hex.decode_encode, Option.bind_some]
  simp

/-! ## The header of a client -/

/-- A printable character that neither ends a name nor a cookie. -/
def isCookieNameChar (char : Char) : Bool :=
  33 ≤ char.toNat && char.toNat ≤ 126 && char != '=' && char != ';'

structure Cookie where
  name : Text
  value : Text
  named : name ≠ []
  nameChars : ∀ char ∈ name, isCookieNameChar char = true
  whole : ';' ∉ value
deriving DecidableEq

namespace Cookie

def spelling (cookie : Cookie) : Text :=
  cookie.name ++ '=' :: cookie.value

end Cookie

/-- The `Cookie` header that a client sends. -/
def renderCookies : List Cookie → Text
  | [] => []
  | [cookie] => cookie.spelling
  | cookie :: rest => cookie.spelling ++ ';' :: ' ' :: renderCookies rest

/-- The cookie as it stands between two separators. -/
def Spelled (cookie : Cookie) (part : Text) : Prop :=
  part = cookie.spelling ∨ part = ' ' :: cookie.spelling

theorem Cookie.semicolon_notMem
    (cookie : Cookie) :
    ';' ∉ cookie.spelling := by
  intro member
  rcases List.mem_append.mp member with inName | others
  · exact absurd (cookie.nameChars ';' inName) (by decide)
  · rcases List.mem_cons.mp others with same | inValue
    · exact absurd same (by decide)
    · exact cookie.whole inValue

/-- The header falls apart into its cookies. -/
theorem splitOn_renderCookies
    (cookies : List Cookie)
    (some_ : cookies ≠ []) :
    List.Forall₂ Spelled cookies ((renderCookies cookies).splitOn ';') := by
  have blank : ∀ {rest : List Cookie}, rest ≠ [] →
      List.Forall₂ Spelled rest ((' ' :: renderCookies rest).splitOn ';') := by
    intro rest notEmpty
    induction rest with
    | nil => exact absurd rfl notEmpty
    | cons cookie others hypothesis =>
        have absent : ';' ∉ ' ' :: cookie.spelling := by
          rw [List.mem_cons, not_or]
          exact ⟨by decide, cookie.semicolon_notMem⟩
        cases others with
        | nil =>
            rw [renderCookies, List.splitOn_eq_singleton absent]
            exact .cons (.inr rfl) .nil
        | cons next others =>
            rw [renderCookies, ← List.cons_append,
              List.splitOn_append_cons_self_of_not_mem absent]
            · exact .cons (.inr rfl) (hypothesis (by simp))
            · simp
  cases cookies with
  | nil => exact absurd rfl some_
  | cons cookie others =>
      cases others with
      | nil =>
          rw [renderCookies, List.splitOn_eq_singleton cookie.semicolon_notMem]
          exact .cons (.inl rfl) .nil
      | cons next others =>
          rw [renderCookies, List.splitOn_append_cons_self_of_not_mem cookie.semicolon_notMem]
          · exact .cons (.inl rfl) (blank (by simp))
          · simp

/-- What trimming leaves of a cookie. -/
theorem trimWith_of_spelled
    {isBlank : Char → Bool} {cookie : Cookie} {part : Text}
    (space : isBlank ' ' = true)
    (solid : ∀ char, 33 ≤ char.toNat → char.toNat ≤ 126 → isBlank char = false)
    (spelled : Spelled cookie part) :
    Text.trimWith isBlank part = cookie.name ++ '=' :: cookie.value.rdropWhile isBlank := by
  have front : part.dropWhile isBlank = cookie.spelling := by
    obtain ⟨first, rest, name⟩ := List.exists_cons_of_ne_nil cookie.named
    have visible : isBlank first = false := by
      have nameChar := cookie.nameChars first (by simp [name])
      simp only [isCookieNameChar, Bool.and_eq_true, decide_eq_true_eq] at nameChar
      exact solid first nameChar.1.1.1 nameChar.1.1.2
    rcases spelled with rfl | rfl <;> simp [Cookie.spelling, name, visible, space]
  rw [Text.trimWith, front, Cookie.spelling]
  exact Text.rdropWhile_append_cons (solid '=' (by decide) (by decide)) _ _

/-- A pair begins with a name and an equals sign when it has the name. -/
theorem isPrefixOf_pair_iff
    {cookieName name value : Text}
    (plain : '=' ∉ cookieName)
    (plainName : '=' ∉ name) :
    (cookieName ++ ['=']).isPrefixOf (name ++ '=' :: value) = true ↔ name = cookieName := by
  rw [List.isPrefixOf_iff_prefix]
  constructor
  · rintro ⟨rest, spelled⟩
    rw [List.append_assoc, List.cons_append, List.nil_append] at spelled
    have cuts := congrArg (fun input => (Text.cut '=' input).1) spelled
    simp only [Text.cut_append_cons plain, Text.cut_append_cons plainName] at cuts
    exact cuts.symm
  · rintro rfl
    exact ⟨value, by simp⟩

/-- A trimmed cookie begins with a name and an equals sign when it has the name. -/
theorem isPrefixOf_name_iff
    {cookieName value : Text} {cookie : Cookie}
    (plain : '=' ∉ cookieName) :
    (cookieName ++ ['=']).isPrefixOf (cookie.name ++ '=' :: value) = true ↔
      cookie.name = cookieName := by
  refine isPrefixOf_pair_iff plain ?_
  intro member
  exact absurd (cookie.nameChars '=' member) (by decide)

/-! ## Both sides take the same value -/

/-- A value of digits and points, as signed cookies have it. -/
def IsSignedText (value : Text) : Prop :=
  value ≠ [] ∧ ∀ char ∈ value, char ∈ text "0123456789abcdef."

theorem isSignedText_buildCookieValue
    (signer : Signer)
    (id : SessionId) :
    IsSignedText (buildCookieValue signer id) := by
  have digits : ∀ char ∈ text "0123456789abcdef", char ∈ text "0123456789abcdef." := by decide
  refine ⟨by simp [buildCookieValue], ?_⟩
  intro char member
  rcases List.mem_append.mp member with inId | others
  · exact digits char (Hex.mem_digits_of_mem_encode inId)
  · rcases List.mem_cons.mp others with rfl | inMac
    · decide
    · exact digits char (Hex.mem_digits_of_mem_encode inMac)

/-- Nothing is trimmed off a signed text. -/
theorem IsSignedText.trimmed
    {value : Text}
    (signed : IsSignedText value)
    (isBlank : Char → Bool)
    (solid : ∀ char ∈ text "0123456789abcdef.", isBlank char = false) :
    Text.trimWith isBlank value = value ∧ value.rdropWhile isBlank = value := by
  have notBlank : ∀ char ∈ value, isBlank char = false :=
    fun char member => solid char (signed.2 char member)
  refine ⟨?_, ?_⟩
  · have whole : Text.trimWith isBlank ([] ++ value ++ []) = value :=
      Text.trimWith_append (by simp) (by simp) notBlank
    simpa using whole
  · rw [List.rdropWhile_eq_self_iff]
    intro notEmpty
    simp [notBlank _ (List.getLast_mem notEmpty)]

theorem isWhitespace_of_visible
    (char : Char)
    (low : 33 ≤ char.toNat)
    (high : char.toNat ≤ 126) :
    Parser.isWhitespace char = false := by
  simp only [Parser.isWhitespace, List.contains_eq_mem, List.mem_cons, List.not_mem_nil, or_false,
    Bool.or_eq_false_iff, Bool.and_eq_false_iff, decide_eq_false_iff_not]
  omega

theorem isSpace_of_visible
    (char : Char)
    (low : 33 ≤ char.toNat)
    (high : char.toNat ≤ 126) :
    Text.isSpace char = false := by
  simp only [Text.isSpace, List.contains_eq_mem, List.mem_cons, List.not_mem_nil, or_false,
    Bool.or_eq_false_iff, Bool.and_eq_false_iff, decide_eq_false_iff_not]
  omega

section Extraction

variable {cookieName value : Text} {before after : List Cookie} {own : Cookie}

theorem valueOfPart_of_other
    {cookie : Cookie} {part : Text}
    (plain : '=' ∉ cookieName)
    (spelled : Spelled cookie part)
    (other : cookie.name ≠ cookieName) :
    valueOfPart cookieName part = none := by
  have trimmed : Parser.trim part = _ :=
    trimWith_of_spelled (by decide) isWhitespace_of_visible spelled
  rw [valueOfPart, trimmed]
  exact if_neg (fun starts => other ((isPrefixOf_name_iff plain).mp starts))

theorem valueOfPart_of_own
    {part : Text}
    (spelled : Spelled own part)
    (signed : IsSignedText own.value) :
    valueOfPart own.name part = some own.value := by
  have trimmed : Parser.trim part = _ :=
    trimWith_of_spelled (by decide) isWhitespace_of_visible spelled
  have plain : '=' ∉ own.name := by
    intro member
    exact absurd (own.nameChars '=' member) (by decide)
  have solid := signed.trimmed Parser.isWhitespace (by decide)
  have unquoted := signed.trimmed (· = '"') (by decide)
  have behind : (own.name ++ '=' :: own.value).drop (own.name.length + 1) = own.value := by
    rw [← List.drop_drop, List.drop_left]
    rfl
  rw [valueOfPart, trimmed, solid.2]
  simp only [(isPrefixOf_name_iff plain).mpr rfl, if_true, behind, Parser.trim, solid.1, trimQuotes,
    unquoted.1, if_neg signed.1]

/-- The native layer finds the cookie. -/
theorem extractCookieValue_renderCookies
    (signed : IsSignedText own.value)
    (others : ∀ cookie ∈ before, cookie.name ≠ own.name) :
    extractCookieValue own.name (renderCookies (before ++ own :: after)) = some own.value := by
  have plain : '=' ∉ own.name := by
    intro member
    exact absurd (own.nameChars '=' member) (by decide)
  have spelled := splitOn_renderCookies (before ++ own :: after) (by simp)
  unfold extractCookieValue
  generalize (renderCookies (before ++ own :: after)).splitOn ';' = parts at spelled
  induction before generalizing parts with
  | nil =>
      cases spelled with
      | cons head _ => rw [List.findSome?_cons, valueOfPart_of_own head signed]
  | cons cookie before hypothesis =>
      cases spelled with
      | cons head tail =>
          rw [List.findSome?_cons,
            valueOfPart_of_other plain head (others cookie List.mem_cons_self)]
          exact hypothesis (fun other member => others other (List.mem_cons_of_mem _ member)) _ tail

/-- The middleware finds the same cookie. -/
theorem cookieValueOf_renderCookies
    (signed : IsSignedText own.value)
    (others : ∀ cookie ∈ before, cookie.name ≠ own.name) :
    cookieValueOf own.name (renderCookies (before ++ own :: after)) = some own.value := by
  have plain : '=' ∉ own.name := by
    intro member
    exact absurd (own.nameChars '=' member) (by decide)
  have solid := signed.trimmed Text.isSpace (by decide)
  have spelled := splitOn_renderCookies (before ++ own :: after) (by simp)
  have found : (((renderCookies (before ++ own :: after)).splitOn ';').map Text.trim).find?
      ((own.name ++ ['=']).isPrefixOf ·) = some (own.name ++ '=' :: own.value) := by
    generalize (renderCookies (before ++ own :: after)).splitOn ';' = parts at spelled
    induction before generalizing parts with
    | nil =>
        cases spelled with
        | cons head _ =>
            have trimmed : Text.trim _ = _ :=
              trimWith_of_spelled (by decide) isSpace_of_visible head
            rw [List.map_cons, trimmed, solid.2]
            exact List.find?_cons_of_pos ((isPrefixOf_name_iff plain).mpr rfl)
    | cons cookie before hypothesis =>
        cases spelled with
        | cons head tail =>
            have trimmed : Text.trim _ = _ :=
              trimWith_of_spelled (by decide) isSpace_of_visible head
            rw [List.map_cons, trimmed, List.find?_cons_of_neg]
            · exact hypothesis
                (fun other member => others other (List.mem_cons_of_mem _ member)) _ tail
            · exact fun starts =>
                others cookie List.mem_cons_self ((isPrefixOf_name_iff plain).mp starts)
  have unquoted : stripQuotes own.value = own.value := by
    have noQuote : '"' ∉ own.value := by
      intro member
      exact absurd (signed.2 _ member) (by decide)
    have notFirst : own.value.head? ≠ some '"' :=
      fun first => noQuote (List.mem_of_mem_head? first)
    have notLast : own.value.getLast? ≠ some '"' :=
      fun last => noQuote (List.mem_of_getLast? last)
    rw [stripQuotes, if_neg notFirst]
    exact if_neg notLast
  have behind : (own.name ++ '=' :: own.value).drop (own.name.length + 1) = own.value := by
    rw [← List.drop_drop, List.drop_left]
    rfl
  rw [cookieValueOf, found, Option.map_some, behind, Text.trim, solid.1, unquoted]

end Extraction

end Session
end HttpNative
