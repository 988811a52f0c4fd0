import HttpNative.Bridge.ShapeSerializer
import HttpNative.Library.JsonValue
import HttpNative.Response.HeaderSetters
import HttpNative.Session.SessionCookies

/-!
# Tokens against forged requests

The middleware puts a random token into a cookie and asks state-changing requests to repeat
it in a header or in a field of a JSON body. A browser that keeps its cookie is issued one
token, and of its requests exactly those pass that are safe or repeat this token.
-/

namespace HttpNative
namespace Csrf

open Response (includesBreak includesBreak_append)
open Session (Cookie renderCookies isCookieNameChar)

/-- The options of the middleware with their defaults filled in; the attributes of the cookie
fit into a line. -/
structure CsrfOptions where
  cookieName : Text
  named : cookieName ≠ []
  nameChars : ∀ char ∈ cookieName, isCookieNameChar char = true
  path : Text
  pathOneLine : includesBreak path = false
  httpOnly : Bool
  secure : Bool
  sameSite : Option Text
  sameSiteOneLine : ∀ policy ∈ sameSite, includesBreak policy = false
  maxAge : Option Nat
  ignoreMethods : List Text
  tokenField : JsString

/-- `randomBytes(TOKEN_BYTES)` -/
structure TokenBytes where
  octets : Octets
  sized : octets.length = 32

/-- `generateToken`, for the bytes that were drawn. -/
def generateToken (bytes : TokenBytes) : Text :=
  Hex.encode bytes.octets

/-- What follows the first semicolon of the cookie. -/
def cookieAttributes (options : CsrfOptions) : Text :=
  text " Path=" ++ options.path ++
    (if options.httpOnly then text "; HttpOnly" else []) ++
    (if options.secure then text "; Secure" else []) ++
    ((options.sameSite.filter fun policy => !policy.isEmpty).elim []
      fun policy => text "; SameSite=" ++ policy) ++
    options.maxAge.elim [] fun seconds => text "; Max-Age=" ++ Decimal.write seconds

def buildSetCookie (options : CsrfOptions) (value : Text) : Text :=
  options.cookieName ++ '=' :: value ++ ';' :: cookieAttributes options

def parseCookieValue (cookieHeader : Option Text) (name : Text) : Option Text :=
  match cookieHeader.filter fun header => !header.isEmpty with
  | none => none
  | some header =>
      (((header.splitOn ';').map Text.trim).find? ((name ++ ['=']).isPrefixOf ·)).map
        (List.drop (name.length + 1))

/-- Strings of the same length whose octets are the same. -/
def safeTokenEquals (left right : Option JsString) : Bool :=
  match left, right with
  | some left, some right =>
      left.length == right.length && Bridge.bufferFrom left == Bridge.bufferFrom right
  | _, _ => false

/-- A request as the middleware reads it. -/
structure CsrfRequest where
  method : Text
  cookieHeader : Option Text
  headerToken : Option Text
  body : Option Octets

/-- The string that a JSON body has in a field; the last member of a name counts. An element
of an array is named by its index. -/
def fieldOf (tokenField : JsString) : JsonValue → Option JsString
  | .object members =>
      match (members.reverse.find? fun member => member.1 == tokenField).map Prod.snd with
      | some (.string value) => some value
      | _ => none
  | .array values =>
      match (List.range values.length).find? fun index =>
          tokenField == JsString.ofText (Decimal.write index) with
      | some index =>
          match values[index]? with
          | some (.string value) => some value
          | _ => none
      | none => none
  | _ => none

def bodyToken (tokenField : JsString) (body : Option Octets) : Option JsString :=
  ((body.filter fun octets => !octets.isEmpty).bind fun octets =>
    JsonValue.parse (Utf8.decodeLossy octets)).bind (fieldOf tokenField)

/-- What becomes of a request. -/
inductive CsrfOutcome where
  | next
  | rejected (status : Nat) (error code message : Text)
deriving DecidableEq

/-- The answer to a request without the token. -/
def rejection : CsrfOutcome :=
  .rejected 403 (text "Forbidden") (text "CSRF_TOKEN_MISMATCH")
    (text "CSRF token validation failed")

/-- The cookie is what `res.set` keeps, which drops a value with a line break. -/
structure CsrfResult where
  setCookie : Option Text
  csrfToken : Text
  outcome : CsrfOutcome

def csrfMiddleware
    (options : CsrfOptions)
    (request : CsrfRequest)
    (bytes : TokenBytes) : CsrfResult :=
  let issued := (parseCookieValue request.cookieHeader options.cookieName).filter
    fun token => !token.isEmpty
  let cookieToken := issued.getD (generateToken bytes)
  { setCookie :=
      if issued.isNone then
        (some (buildSetCookie options cookieToken)).filter fun value => !includesBreak value
      else
        none
    csrfToken := cookieToken
    outcome :=
      if options.ignoreMethods.contains request.method then
        .next
      else if safeTokenEquals (request.headerToken.map .ofText) (some (.ofText cookieToken)) ||
          safeTokenEquals (bodyToken options.tokenField request.body)
            (some (.ofText cookieToken)) then
        .next
      else
        rejection }

/-! ## Comparing tokens -/

theorem encode_inj
    {left right : Text}
    (same : Utf8.encode left = Utf8.encode right) :
    left = right := by
  have decoded := congrArg Utf8.decode same
  rw [Utf8.decode_encode, Utf8.decode_encode] at decoded
  exact Option.some.inj decoded

/-- Only the token itself equals a token without replaced characters. -/
theorem safeTokenEquals_iff
    {token : Text}
    (unreplaced : Utf8.replacement ∉ token)
    (candidate : Option JsString) :
    safeTokenEquals candidate (some (.ofText token)) = true ↔
      candidate = some (.ofText token) := by
  cases candidate with
  | none => exact iff_of_false Bool.false_ne_true (Option.some_ne_none _).symm
  | some candidate =>
      rw [safeTokenEquals, Bool.and_eq_true, beq_iff_eq, beq_iff_eq, Option.some.injEq]
      constructor
      · rintro ⟨-, octets⟩
        have wellFormed := encode_inj octets
        rw [JsString.toWellFormed_ofText] at wellFormed
        exact JsString.eq_ofText_of_toWellFormed wellFormed unreplaced
      · rintro rfl
        exact ⟨rfl, rfl⟩

theorem replacement_notMem_generateToken
    (bytes : TokenBytes) :
    Utf8.replacement ∉ generateToken bytes := by
  intro member
  exact absurd (Hex.mem_digits_of_mem_encode member) (by decide)

theorem generateToken_ne_nil
    (bytes : TokenBytes) :
    generateToken bytes ≠ [] := by
  intro empty
  have length := Hex.length_encode bytes.octets
  rw [bytes.sized] at length
  change (generateToken bytes).length = _ at length
  rw [empty] at length
  cases length

/-! ## The browser -/

/-- What a browser keeps of the cookie. -/
abbrev StoredValue := { value : Text // ';' ∉ value }

def keepValue (value : Text) : Option StoredValue :=
  if whole : ';' ∉ value then some ⟨value, whole⟩ else none

/-- The value of the cookie in a `Set-Cookie` header. -/
def storedValue (options : CsrfOptions) (setCookie : Text) : Option StoredValue :=
  let pair := Text.cut '=' (Text.cut ';' setCookie).1
  if pair.1 = options.cookieName then pair.2.bind keepValue else none

def ownCookie (options : CsrfOptions) (stored : StoredValue) : Cookie where
  name := options.cookieName
  value := stored.val
  named := options.named
  nameChars := options.nameChars
  whole := stored.property

/-- A request of a page, with cookies of other names before and after the one of the
middleware. -/
structure Visit (options : CsrfOptions) where
  method : Text
  headerToken : Option Text
  body : Option Octets
  bytes : TokenBytes
  before : List Cookie
  after : List Cookie
  foreign : ∀ cookie ∈ before ++ after, cookie.name ≠ options.cookieName

/-- The request with the cookies that the browser sends. -/
def Visit.request
    {options : CsrfOptions}
    (visit : Visit options)
    (jar : Option StoredValue) : CsrfRequest :=
  let cookies := visit.before ++ (jar.map (ownCookie options)).toList ++ visit.after
  { method := visit.method
    cookieHeader := if cookies = [] then none else some (renderCookies cookies)
    headerToken := visit.headerToken
    body := visit.body }

/-- What the handler and the browser get out of each visit. -/
def visitAll
    (options : CsrfOptions) :
    Option StoredValue → List (Visit options) → List (Visit options × CsrfResult)
  | _, [] => []
  | jar, visit :: visits =>
      let result := csrfMiddleware options (visit.request jar) visit.bytes
      (visit, result) ::
        visitAll options ((result.setCookie.bind (storedValue options)).or jar) visits

theorem length_visitAll
    {options : CsrfOptions}
    (jar : Option StoredValue)
    (visits : List (Visit options)) :
    (visitAll options jar visits).length = visits.length := by
  induction visits generalizing jar with
  | nil => rfl
  | cons visit visits hypothesis =>
      rw [visitAll, List.length_cons, List.length_cons, hypothesis]

/-! ## One token -/

section OneToken

variable {options : CsrfOptions}

theorem equals_notMem_cookieName : '=' ∉ options.cookieName := by
  intro member
  exact absurd (options.nameChars '=' member) (by decide)

theorem semicolon_notMem_cookieName : ';' ∉ options.cookieName := by
  intro member
  exact absurd (options.nameChars ';' member) (by decide)

/-- A browser keeps the token that is set. -/
theorem storedValue_buildSetCookie
    (stored : StoredValue) :
    storedValue options (buildSetCookie options stored.val) = some stored := by
  obtain ⟨token, whole⟩ := stored
  have absent : ';' ∉ options.cookieName ++ '=' :: token := by
    rw [List.mem_append, List.mem_cons, not_or, not_or]
    exact ⟨semicolon_notMem_cookieName, by decide, whole⟩
  rw [storedValue, buildSetCookie, Text.cut_append_cons absent]
  dsimp only
  rw [Text.cut_append_cons equals_notMem_cookieName, if_pos rfl, Option.bind_some, keepValue,
    dif_pos whole]

/-- A part of the header that is a cookie of another name is passed over. -/
theorem isPrefixOf_trim_of_foreign
    {cookie : Cookie} {part : Text}
    (spelled : Session.Spelled cookie part)
    (foreign : cookie.name ≠ options.cookieName) :
    (options.cookieName ++ ['=']).isPrefixOf (Text.trim part) = false := by
  have trimmed : Text.trim part = _ :=
    Session.trimWith_of_spelled (by decide) Session.isSpace_of_visible spelled
  rw [trimmed, Bool.eq_false_iff]
  intro found
  exact foreign ((Session.isPrefixOf_name_iff equals_notMem_cookieName).mp found)

/-- The parts of a header of other cookies are passed over. -/
theorem find_foreign
    {cookies : List Cookie} {parts : List Text}
    (spelled : List.Forall₂ Session.Spelled cookies parts)
    (foreign : ∀ cookie ∈ cookies, cookie.name ≠ options.cookieName) :
    (parts.map Text.trim).find? ((options.cookieName ++ ['=']).isPrefixOf ·) = none := by
  induction spelled with
  | nil => rfl
  | cons head _ hypothesis =>
      rw [List.forall_mem_cons] at foreign
      rw [List.map_cons, List.find?_cons_of_neg]
      · exact hypothesis foreign.2
      · rw [isPrefixOf_trim_of_foreign head foreign.1]
        exact Bool.false_ne_true

/-- The cookie is found behind those of other names. -/
theorem find_own
    {own : Cookie} {before after : List Cookie} {parts : List Text}
    (isOwn : own.name = options.cookieName)
    (solid : own.value.rdropWhile Text.isSpace = own.value)
    (spelled : List.Forall₂ Session.Spelled (before ++ own :: after) parts)
    (foreign : ∀ cookie ∈ before, cookie.name ≠ options.cookieName) :
    (parts.map Text.trim).find? ((options.cookieName ++ ['=']).isPrefixOf ·) =
      some (options.cookieName ++ '=' :: own.value) := by
  induction before generalizing parts with
  | nil =>
      cases spelled with
      | cons head _ =>
          have trimmed : Text.trim _ = _ :=
            Session.trimWith_of_spelled (by decide) Session.isSpace_of_visible head
          rw [List.map_cons, trimmed, solid, ← isOwn]
          exact List.find?_cons_of_pos ((Session.isPrefixOf_name_iff
            (isOwn ▸ equals_notMem_cookieName)).mpr rfl)
  | cons cookie before hypothesis =>
      cases spelled with
      | cons head tail =>
          rw [List.forall_mem_cons] at foreign
          rw [List.map_cons, List.find?_cons_of_neg]
          · exact hypothesis tail foreign.2
          · rw [isPrefixOf_trim_of_foreign head foreign.1]
            exact Bool.false_ne_true

theorem renderCookies_ne_nil
    {cookies : List Cookie}
    (notEmpty : cookies ≠ []) :
    renderCookies cookies ≠ [] := by
  cases cookies with
  | nil => exact absurd rfl notEmpty
  | cons cookie rest =>
      have named : cookie.spelling ≠ [] :=
        List.append_ne_nil_of_right_ne_nil _ (List.cons_ne_nil _ _)
      cases rest with
      | nil => exact named
      | cons next rest => exact List.append_ne_nil_of_left_ne_nil named _

/-- The middleware finds the cookie that the browser sends, if there is one. -/
theorem parseCookieValue_request
    (visit : Visit options)
    {jar : Option StoredValue}
    (solid : ∀ stored, jar = some stored →
      stored.val.rdropWhile Text.isSpace = stored.val) :
    parseCookieValue (visit.request jar).cookieHeader options.cookieName =
      jar.map Subtype.val := by
  cases jar with
  | none =>
      have sent : (visit.request none).cookieHeader =
          if visit.before ++ visit.after = [] then none
          else some (renderCookies (visit.before ++ visit.after)) := by
        rw [Visit.request, Option.map_none, Option.toList_none, List.append_nil]
      rw [sent]
      split
      case isTrue => rfl
      case isFalse notEmpty =>
          have header := renderCookies_ne_nil notEmpty
          rw [parseCookieValue, Option.filter_some, List.isEmpty_eq_false_iff.mpr header]
          change Option.map _ _ = none
          rw [find_foreign (Session.splitOn_renderCookies _ notEmpty) visit.foreign]
          rfl
  | some stored =>
      have notEmpty : visit.before ++ ownCookie options stored :: visit.after ≠ [] :=
        List.append_ne_nil_of_right_ne_nil _ (List.cons_ne_nil _ _)
      have sent : (visit.request (some stored)).cookieHeader =
          some (renderCookies (visit.before ++ ownCookie options stored :: visit.after)) := by
        have cookies : visit.before ++ ((some stored).map (ownCookie options)).toList ++
            visit.after = visit.before ++ ownCookie options stored :: visit.after := by
          rw [List.append_assoc]
          rfl
        rw [Visit.request, cookies, if_neg notEmpty]
      have header := renderCookies_ne_nil notEmpty
      rw [sent, parseCookieValue, Option.filter_some, List.isEmpty_eq_false_iff.mpr header]
      change Option.map _ _ = some stored.val
      rw [find_own rfl (solid stored rfl) (Session.splitOn_renderCookies _ notEmpty)
        fun cookie member => visit.foreign cookie (List.mem_append_left _ member)]
      rw [Option.map_some, ← List.drop_drop, List.drop_left]
      rfl

theorem ofText_inj
    {left right : Text}
    (same : JsString.ofText left = .ofText right) :
    left = right := by
  have wellFormed := congrArg JsString.toWellFormed same
  rwa [JsString.toWellFormed_ofText, JsString.toWellFormed_ofText] at wellFormed

/-- A request is safe or repeats a token. -/
def MayPass (options : CsrfOptions) (token : Text) (visit : Visit options) : Prop :=
  options.ignoreMethods.contains visit.method = true ∨
    visit.headerToken = some token ∨
    bodyToken options.tokenField visit.body = some (.ofText token)

/-- What may pass goes on to the handler, and everything else is answered. -/
structure Decides
    (options : CsrfOptions)
    (token : Text)
    (visit : Visit options)
    (outcome : CsrfOutcome) : Prop where
  passes : outcome = .next ↔ MayPass options token visit
  rejects : outcome = rejection ↔ ¬ MayPass options token visit

/-- With a token that is known the middleware lets through what may pass. -/
theorem decides_outcome
    {token : Text}
    (unreplaced : Utf8.replacement ∉ token)
    (visit : Visit options)
    {jar : Option StoredValue}
    (isToken : (csrfMiddleware options (visit.request jar) visit.bytes).csrfToken = token) :
    Decides options token visit
      (csrfMiddleware options (visit.request jar) visit.bytes).outcome := by
  have headers : visit.headerToken.map JsString.ofText = some (.ofText token) ↔
      visit.headerToken = some token := by
    cases visit.headerToken with
    | none => exact iff_of_false (Option.some_ne_none _).symm (Option.some_ne_none _).symm
    | some candidate =>
        rw [Option.map_some, Option.some.injEq, Option.some.injEq]
        exact ⟨ofText_inj, congrArg JsString.ofText⟩
  have may : MayPass options token visit ↔
      options.ignoreMethods.contains visit.method = true ∨
        (safeTokenEquals (visit.headerToken.map .ofText) (some (.ofText token)) ||
          safeTokenEquals (bodyToken options.tokenField visit.body) (some (.ofText token))) =
            true := by
    rw [MayPass, ← headers, Bool.or_eq_true, safeTokenEquals_iff unreplaced,
      safeTokenEquals_iff unreplaced]
  have decided : (csrfMiddleware options (visit.request jar) visit.bytes).outcome =
      if options.ignoreMethods.contains visit.method then
        .next
      else if safeTokenEquals (visit.headerToken.map .ofText) (some (.ofText token)) ||
          safeTokenEquals (bodyToken options.tokenField visit.body) (some (.ofText token)) then
        .next
      else
        rejection := by
    rw [← isToken]
    rfl
  have distinct : CsrfOutcome.next ≠ rejection := fun same => by cases same
  rw [decided]
  by_cases passes : MayPass options token visit
  · have next : (if options.ignoreMethods.contains visit.method then CsrfOutcome.next
        else if safeTokenEquals (visit.headerToken.map .ofText) (some (.ofText token)) ||
            safeTokenEquals (bodyToken options.tokenField visit.body)
              (some (.ofText token)) then .next
        else rejection) = .next := by
      rcases may.mp passes with safe | equal
      · exact if_pos safe
      · rw [if_pos equal, ite_self]
    rw [next]
    exact ⟨iff_of_true rfl passes, iff_of_false distinct (not_not.mpr passes)⟩
  · obtain ⟨changes, unequal⟩ := not_or.mp (mt may.mpr passes)
    rw [if_neg changes, if_neg unequal]
    exact ⟨iff_of_false distinct.symm passes, iff_of_true rfl passes⟩

theorem isSpace_of_mem_generateToken
    {bytes : TokenBytes} {char : Char}
    (member : char ∈ generateToken bytes) :
    Text.isSpace char = false := by
  have digits : ∀ digit ∈ text "0123456789abcdef", Text.isSpace digit = false := by decide
  exact digits char (Hex.mem_digits_of_mem_encode member)

theorem rdropWhile_generateToken (bytes : TokenBytes) :
    (generateToken bytes).rdropWhile Text.isSpace = generateToken bytes := by
  rw [List.rdropWhile_eq_self_iff]
  intro notEmpty
  rw [isSpace_of_mem_generateToken (List.getLast_mem notEmpty)]
  exact Bool.false_ne_true

/-- The token as the browser keeps it. -/
def keptToken (bytes : TokenBytes) : StoredValue :=
  ⟨generateToken bytes, fun member =>
    absurd (Hex.mem_digits_of_mem_encode member) (by decide)⟩

/-- A browser that has the token is not issued another one. -/
theorem csrfMiddleware_of_kept
    (visit : Visit options)
    (bytes : TokenBytes) :
    (csrfMiddleware options (visit.request (some (keptToken bytes))) visit.bytes).setCookie = none ∧
      (csrfMiddleware options (visit.request (some (keptToken bytes))) visit.bytes).csrfToken =
        generateToken bytes := by
  have solid : ∀ stored, some (keptToken bytes) = some stored →
      stored.val.rdropWhile Text.isSpace = stored.val := by
    rintro stored isStored
    cases isStored
    exact rdropWhile_generateToken bytes
  have found := parseCookieValue_request visit solid
  have issued : (parseCookieValue (visit.request (some (keptToken bytes))).cookieHeader
      options.cookieName).filter (fun token => !token.isEmpty) = some (generateToken bytes) := by
    rw [found, Option.map_some, Option.filter_some]
    apply if_pos
    change (!(generateToken bytes).isEmpty) = true
    rw [List.isEmpty_eq_false_iff.mpr (generateToken_ne_nil bytes)]
    rfl
  rw [csrfMiddleware, issued]
  exact ⟨rfl, rfl⟩

theorem includesBreak_eq_false
    {value : Text}
    (noReturn : '\r' ∉ value)
    (noFeed : '\n' ∉ value) :
    includesBreak value = false := by
  rw [includesBreak, List.contains_eq_mem, List.contains_eq_mem, decide_eq_false noReturn,
    decide_eq_false noFeed, Bool.or_false]

theorem includesBreak_cookieAttributes : includesBreak (cookieAttributes options) = false := by
  have path : includesBreak (text " Path=") = false := by decide
  have written : includesBreak (text "; HttpOnly") = false ∧
      includesBreak (text "; Secure") = false := by decide
  have httpOnly : includesBreak (if options.httpOnly then text "; HttpOnly" else []) = false := by
    split
    · exact written.1
    · rfl
  have secure : includesBreak (if options.secure then text "; Secure" else []) = false := by
    split
    · exact written.2
    · rfl
  have sameSite : includesBreak ((options.sameSite.filter fun policy => !policy.isEmpty).elim []
      fun policy => text "; SameSite=" ++ policy) = false := by
    cases found : options.sameSite.filter fun policy => !policy.isEmpty with
    | none => rfl
    | some policy =>
        rw [Option.elim_some, includesBreak_append,
          options.sameSiteOneLine policy (Option.filter_eq_some_iff.mp found).1, Bool.or_false]
        decide
  have maxAge : includesBreak (options.maxAge.elim []
      fun seconds => text "; Max-Age=" ++ Decimal.write seconds) = false := by
    cases options.maxAge with
    | none => rfl
    | some seconds =>
        have numeral : includesBreak (Decimal.write seconds) = false := includesBreak_eq_false
          (fun member => absurd (Decimal.isDigit_of_mem_write member) (by decide))
          (fun member => absurd (Decimal.isDigit_of_mem_write member) (by decide))
        rw [Option.elim_some, includesBreak_append, numeral, Bool.or_false]
        decide
  unfold cookieAttributes
  simp only [includesBreak_append, path, options.pathOneLine, httpOnly, secure, sameSite, maxAge,
    Bool.or_self]

/-- A new cookie fits into a line. -/
theorem includesBreak_buildSetCookie
    (bytes : TokenBytes) :
    includesBreak (buildSetCookie options (generateToken bytes)) = false := by
  have named : includesBreak options.cookieName = false := includesBreak_eq_false
    (fun member => absurd (options.nameChars _ member) (by decide))
    (fun member => absurd (options.nameChars _ member) (by decide))
  have token : includesBreak (generateToken bytes) = false := includesBreak_eq_false
    (fun member => absurd (Hex.mem_digits_of_mem_encode member) (by decide))
    (fun member => absurd (Hex.mem_digits_of_mem_encode member) (by decide))
  have spelled : buildSetCookie options (generateToken bytes) =
      options.cookieName ++ (['='] ++ (generateToken bytes ++ ([';'] ++
        cookieAttributes options))) := by
    rw [buildSetCookie, List.append_assoc]
    rfl
  rw [spelled, includesBreak_append, includesBreak_append, includesBreak_append,
    includesBreak_append, named, token, includesBreak_cookieAttributes]
  rfl

/-- A browser without a token is issued one, which it keeps. -/
theorem csrfMiddleware_of_none
    (visit : Visit options) :
    (csrfMiddleware options (visit.request none) visit.bytes).setCookie =
        some (buildSetCookie options (generateToken visit.bytes)) ∧
      (csrfMiddleware options (visit.request none) visit.bytes).csrfToken =
        generateToken visit.bytes := by
  have solid : ∀ stored : StoredValue, none = some stored →
      stored.val.rdropWhile Text.isSpace = stored.val :=
    fun _ absent => absurd absent (Option.some_ne_none _).symm
  have found := parseCookieValue_request visit solid
  have kept : (some (buildSetCookie options (generateToken visit.bytes))).filter
      (fun value => !includesBreak value) =
        some (buildSetCookie options (generateToken visit.bytes)) := by
    rw [Option.filter_some, includesBreak_buildSetCookie]
    rfl
  rw [csrfMiddleware, found]
  exact ⟨kept, rfl⟩

/-- What a browser with the token gets out of its visits. -/
theorem visitAll_of_kept
    (bytes : TokenBytes)
    (visits : List (Visit options)) :
    ∀ entry ∈ visitAll options (some (keptToken bytes)) visits,
      entry.2.setCookie = none ∧
        entry.2.csrfToken = generateToken bytes ∧
        Decides options (generateToken bytes) entry.1 entry.2.outcome := by
  induction visits with
  | nil => exact fun _ absent => absurd absent List.not_mem_nil
  | cons visit visits hypothesis =>
      obtain ⟨unset, isToken⟩ := csrfMiddleware_of_kept visit bytes
      rw [visitAll, unset, List.forall_mem_cons]
      refine ⟨⟨unset, isToken, ?_⟩, hypothesis⟩
      exact decides_outcome (replacement_notMem_generateToken bytes) visit isToken

/-- A browser that keeps its cookie is issued one token, at its first visit, which every
handler sees. Of all its requests exactly those pass that are safe, or that repeat this token
in the header or in the field of their body; the others are answered 403. -/
theorem passes_iff_of_visits
    (first : Visit options)
    (visits : List (Visit options)) :
    (∀ entry ∈ visitAll options none (first :: visits),
      entry.2.csrfToken = generateToken first.bytes ∧
        Decides options (generateToken first.bytes) entry.1 entry.2.outcome) ∧
      (visitAll options none (first :: visits)).map (fun entry => entry.2.setCookie) =
        some (buildSetCookie options (generateToken first.bytes)) ::
          visits.map fun _ => none := by
  obtain ⟨set, isToken⟩ := csrfMiddleware_of_none first
  have kept : storedValue options (buildSetCookie options (generateToken first.bytes)) =
      some (keptToken first.bytes) := storedValue_buildSetCookie (keptToken first.bytes)
  have rest := visitAll_of_kept first.bytes visits
  rw [visitAll, set, Option.bind_some, kept, Option.some_or]
  refine ⟨?_, ?_⟩
  · rw [List.forall_mem_cons]
    refine ⟨⟨isToken, ?_⟩, fun entry member => (rest entry member).2⟩
    exact decides_outcome (replacement_notMem_generateToken first.bytes) first isToken
  · rw [List.map_cons, set]
    refine congrArg (_ :: ·) ?_
    rw [List.map_congr_left fun entry member => (rest entry member).1, List.map_const',
      List.map_const', length_visitAll]

end OneToken

end Csrf
end HttpNative
