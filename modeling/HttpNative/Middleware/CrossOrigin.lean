import HttpNative.Bridge.RequestReaders
import HttpNative.Response.HeaderSetters

/-!
# The CORS middleware

The middleware answers for the origins that it allows, and leaves every other request to
the code behind it. Whether a shared cache is told that a response depends on the origin
is a matter of the whole response, so the other middlewares and the handler are part of
the setting.
-/

namespace HttpNative
namespace Cors

open Response (ResponseState isTruthy)
open Bridge (toLowerCase)

/-! ## The configuration -/

/-- An option that is a string or an array of strings. -/
inductive StringOption where
  | single (value : Text)
  | list (values : List Text)

/-- `Array.isArray(option) ? option.join(",") : option` -/
def StringOption.joined : StringOption → Text
  | .single value => value
  | .list values => (text ",").intercalate values

/-- The kinds of `options.origin`. -/
inductive OriginOption where
  | single (origin : Text)
  | function (matches_ : Text → Bool)
  | list (origins : List Text)
  | other

structure CorsOptions where
  origin : OriginOption
  methods : StringOption
  allowedHeaders : StringOption
  exposedHeaders : Option StringOption
  credentials : Bool
  maxAge : Option Text
  preflight : Bool

def starOrigin : Text := text "*"

/-- `origin === "*"` -/
def OriginOption.isStar : OriginOption → Bool
  | .single origin => origin = starOrigin
  | _ => false

/-- The function that `buildOriginMatcher` returns. -/
def buildOriginMatcher (origin : OriginOption) (requestOrigin : Text) : Bool :=
  if origin.isStar then
    true
  else
    match origin with
    | .function matches_ => matches_ requestOrigin
    | .single expected => requestOrigin = expected
    | .list origins => origins.contains requestOrigin
    | .other => false

/-! ## The middleware -/

/-- A request by its origin, its method, and what else it holds. -/
structure CorsRequest (Rest : Type) where
  origin : Option Text
  method : Text
  rest : Rest

/-- A middleware calls `next`, and then it has nothing more to do, or it returns without
that. -/
inductive Passage where
  | next (response : ResponseState)
  | done (response : ResponseState)

def allowOriginKey : Text := text "access-control-allow-origin"

def varyKey : Text := text "vary"

/-- The origin is added to the names that the response varies by. -/
def addVary (response : ResponseState) : ResponseState :=
  match response.headers.get (toLowerCase varyKey) with
  | some existing =>
      if existing = [] then
        response.set toLowerCase varyKey (text "Origin")
      else if Text.includesText (text "origin") (toLowerCase existing) then
        response
      else
        response.set toLowerCase varyKey (existing ++ text ", Origin")
  | none => response.set toLowerCase varyKey (text "Origin")

namespace CorsOptions

variable (options : CorsOptions)

/-- `origin === "*" && !credentials` -/
def isOpen : Bool :=
  options.origin.isStar && !options.credentials

def effectiveOrigin (requestOrigin : Text) : Text :=
  if options.isOpen then starOrigin else requestOrigin

def allow (requestOrigin : Text) (response : ResponseState) : ResponseState :=
  response.set toLowerCase (text "Access-Control-Allow-Origin")
    (options.effectiveOrigin requestOrigin)

def credit (response : ResponseState) : ResponseState :=
  if options.credentials then
    response.set toLowerCase (text "Access-Control-Allow-Credentials") (text "true")
  else
    response

def vary (requestOrigin : Text) (response : ResponseState) : ResponseState :=
  if options.effectiveOrigin requestOrigin = starOrigin then response else addVary response

def expose (response : ResponseState) : ResponseState :=
  match options.exposedHeaders.map StringOption.joined with
  | some exposed =>
      if exposed = [] then
        response
      else
        response.set toLowerCase (text "Access-Control-Expose-Headers") exposed
  | none => response

/-- The headers for an allowed origin. -/
def corsHeaders (requestOrigin : Text) (response : ResponseState) : ResponseState :=
  options.expose (options.vary requestOrigin (options.credit (options.allow requestOrigin response)))

/-- The answer to a preflight request. -/
def preflightAnswer (response : ResponseState) : ResponseState :=
  let methods := response.set toLowerCase (text "Access-Control-Allow-Methods") options.methods.joined
  let headers := methods.set toLowerCase (text "Access-Control-Allow-Headers")
    options.allowedHeaders.joined
  let aged :=
    match options.maxAge with
    | some maxAge => headers.set toLowerCase (text "Access-Control-Max-Age") maxAge
    | none => headers
  (aged.call toLowerCase (.status 204)).call toLowerCase .sendNothing

/-- A preflight request that the middleware answers itself. -/
def answers (method : Text) : Bool :=
  options.preflight && method = text "OPTIONS"

def corsMiddleware
    {Rest : Type}
    (request : CorsRequest Rest)
    (response : ResponseState) :
    Passage :=
  match request.origin with
  | none => .next response
  | some requestOrigin =>
      if requestOrigin = [] then
        .next response
      else if buildOriginMatcher options.origin requestOrigin then
        let marked := options.corsHeaders requestOrigin response
        if options.answers request.method then
          .done (options.preflightAnswer marked)
        else
          .next marked
      else
        .next response

end CorsOptions

/-! ## The whole response -/

/-- The code around the middleware: what has become of the response when the middleware
is called, if it is; what the code behind it makes of the response, to the end; and what is
still done with a response that the middleware has finished. -/
structure OtherCode (Rest : Type) where
  before : CorsRequest Rest → Passage
  behind : CorsRequest Rest → ResponseState → ResponseState
  afterwards : CorsRequest Rest → ResponseState → ResponseState

section Responses

variable {Rest : Type} (options : CorsOptions) (others : OtherCode Rest)

def respond (request : CorsRequest Rest) : ResponseState :=
  match others.before request with
  | .done response => response
  | .next response =>
      match options.corsMiddleware request response with
      | .next passed => others.behind request passed
      | .done answered => others.afterwards request answered

def allowOrigin (response : ResponseState) : Option Text :=
  response.headers.get allowOriginKey

def isBlank (char : Char) : Bool :=
  char == ' ' || char == '\t'

/-- The names of a list of header names. -/
def listedNames (value : Text) : List Text :=
  (value.splitOn ',').map (Text.trimWith isBlank)

/-- A list of header names with the name of the origin. -/
def namesOrigin (value : Text) : Bool :=
  (listedNames value).any fun name => Text.eqIgnoreAsciiCase name (text "Origin")

def listsOrigin (response : ResponseState) : Bool :=
  (response.headers.get varyKey).any namesOrigin

/-- Responses to requests that differ in their origin only, and that do not allow the same
origin, say that they depend on it. -/
def AnnouncesOrigin : Prop :=
  ∀ (request : CorsRequest Rest) (first second : Option Text),
    allowOrigin (respond options others { request with origin := first }) ≠
        allowOrigin (respond options others { request with origin := second }) →
      listsOrigin (respond options others { request with origin := first }) = true ∧
        listsOrigin (respond options others { request with origin := second }) = true

/-! ## When the origin is announced -/

/-- An origin that the middleware answers for. -/
def Allows (origin : Option Text) : Prop :=
  ∃ requestOrigin, origin = some requestOrigin ∧ requestOrigin ≠ [] ∧
    buildOriginMatcher options.origin requestOrigin = true

end Responses

namespace CorsOptions

variable {Rest : Type} (options : CorsOptions)

theorem corsMiddleware_of_not_allows
    {request : CorsRequest Rest}
    (refused : ¬ Allows options request.origin)
    (response : ResponseState) :
    options.corsMiddleware request response = .next response := by
  unfold corsMiddleware
  cases found : request.origin with
  | none => rfl
  | some requestOrigin =>
      by_cases empty : requestOrigin = []
      · exact if_pos empty
      · have unmatched : ¬ buildOriginMatcher options.origin requestOrigin = true := by
          intro matched
          exact refused ⟨requestOrigin, found, empty, matched⟩
        simp only [if_neg empty, if_neg unmatched]

theorem corsMiddleware_of_allows
    {request : CorsRequest Rest} {requestOrigin : Text}
    (isOrigin : request.origin = some requestOrigin)
    (allowed : Allows options (some requestOrigin))
    (response : ResponseState) :
    options.corsMiddleware request response =
      if options.answers request.method then
        .done (options.preflightAnswer (options.corsHeaders requestOrigin response))
      else
        .next (options.corsHeaders requestOrigin response) := by
  obtain ⟨_, same, nonempty, matched⟩ := allowed
  cases same
  unfold corsMiddleware
  rw [isOrigin]
  simp only [if_neg nonempty, matched, if_true]

end CorsOptions

section Announced

variable {Rest : Type} {options : CorsOptions} {others : OtherCode Rest}

theorem respond_of_done
    {request : CorsRequest Rest} {response : ResponseState}
    (answered : others.before request = .done response) :
    respond options others request = response := by
  rw [respond, answered]

theorem respond_of_not_allows
    {request : CorsRequest Rest} {response : ResponseState}
    (reached : others.before request = .next response)
    (refused : ¬ Allows options request.origin) :
    respond options others request = others.behind request response := by
  rw [respond, reached]
  simp only [options.corsMiddleware_of_not_allows refused]

theorem respond_of_allows
    {request : CorsRequest Rest} {requestOrigin : Text} {response : ResponseState}
    (reached : others.before request = .next response)
    (isOrigin : request.origin = some requestOrigin)
    (allowed : Allows options (some requestOrigin)) :
    respond options others request =
      if options.answers request.method then
        others.afterwards request
          (options.preflightAnswer (options.corsHeaders requestOrigin response))
      else
        others.behind request (options.corsHeaders requestOrigin response) := by
  rw [respond, reached]
  simp only [options.corsMiddleware_of_allows isOrigin allowed]
  cases options.answers request.method with
  | true => rfl
  | false => rfl

/-- Two responses that differ cannot both agree with a third one. -/
theorem announcesOrigin_iff_forall :
    AnnouncesOrigin options others ↔
      ∀ request : CorsRequest Rest,
        (∃ value, ∀ origin,
          allowOrigin (respond options others { request with origin }) = value) ∨
        ∀ origin, listsOrigin (respond options others { request with origin }) = true := by
  constructor
  · intro announces request
    by_cases same : ∃ value, ∀ origin,
        allowOrigin (respond options others { request with origin }) = value
    · exact .inl same
    · right
      intro origin
      rw [not_exists] at same
      obtain ⟨other, different⟩ := not_forall.mp
        (same (allowOrigin (respond options others { request with origin })))
      exact (announces request origin other fun equal => different equal.symm).1
  · intro every request first second different
    rcases every request with ⟨value, same⟩ | lists
    · exact absurd ((same first).trans (same second).symm) different
    · exact ⟨lists first, lists second⟩

end Announced

/-! ## Merging with a list that is there -/

theorem namesOrigin_append
    (existing : Text) :
    namesOrigin (existing ++ text ", Origin") = true := by
  have pieces : (existing ++ text ", Origin").splitOn ',' =
      existing.splitOn ',' ++ (text " Origin").splitOn ',' :=
    List.splitOn_append_cons_self existing (text " Origin")
  have last : (((text " Origin").splitOn ',').map (Text.trimWith isBlank)).any
      (fun name => Text.eqIgnoreAsciiCase name (text "Origin")) = true := by
    decide
  rw [namesOrigin, listedNames, pieces, List.map_append, List.any_append, last, Bool.or_true]

/-- Whether the names that a response varies by name the origin once it is merged with them.
A list in which the word stands anywhere is taken for one that names it already, and a list
with a line break cannot be set. -/
def MergesOrigin (vary : Option Text) : Prop :=
  ∀ existing ∈ vary, existing ≠ [] →
    Text.includesText (text "origin") (toLowerCase existing) = true ∨
      Response.includesBreak existing = true →
    namesOrigin existing = true

theorem get_set_of_ne
    {key name : Text}
    (different : toLowerCase name ≠ key)
    (response : ResponseState)
    (value : Text) :
    (response.set toLowerCase name value).headers.get key = response.headers.get key := by
  unfold ResponseState.set
  split
  · rfl
  · exact Dictionary.get_set_of_ne _ _ different

theorem toLowerCase_varyKey : toLowerCase varyKey = varyKey := by decide

theorem get_set_vary
    {value : Text}
    (noBreak : Response.includesBreak value = false)
    (response : ResponseState) :
    (response.set toLowerCase varyKey value).headers.get varyKey = some value := by
  have keyBreak : Response.includesBreak varyKey = false := by decide
  rw [ResponseState.set, toLowerCase_varyKey, keyBreak, noBreak, Bool.or_false, if_neg Bool.false_ne_true]
  exact Dictionary.get_set_self _ _ _

theorem listsOrigin_addVary_iff
    (response : ResponseState) :
    listsOrigin (addVary response) = true ↔ MergesOrigin (response.headers.get varyKey) := by
  have alone : listsOrigin (response.set toLowerCase varyKey (text "Origin")) = true := by
    rw [listsOrigin, get_set_vary (by decide)]
    decide
  unfold addVary MergesOrigin
  rw [toLowerCase_varyKey]
  cases isVary : response.headers.get varyKey with
  | none => exact iff_of_true alone fun _ absent => absurd absent (Option.not_mem_none _)
  | some existing =>
      simp only [Option.mem_def, Option.some.injEq, forall_eq']
      by_cases empty : existing = []
      · rw [if_pos empty]
        exact iff_of_true alone fun nonempty => absurd empty nonempty
      · rw [if_neg empty]
        cases found : Text.includesText (text "origin") (toLowerCase existing) with
        | true =>
            rw [if_pos rfl, listsOrigin, isVary, Option.any_some]
            exact ⟨fun names _ _ => names, fun names => names empty (.inl rfl)⟩
        | false =>
            rw [if_neg Bool.false_ne_true]
            cases breaks : Response.includesBreak existing with
            | true =>
                have merged : response.set toLowerCase varyKey (existing ++ text ", Origin") =
                    response := by
                  rw [ResponseState.set, Response.includesBreak_append, breaks, Bool.true_or,
                    Bool.or_true, if_pos rfl]
                rw [merged, listsOrigin, isVary, Option.any_some]
                exact ⟨fun names _ _ => names, fun names => names empty (.inr rfl)⟩
            | false =>
                have whole : Response.includesBreak (existing ++ text ", Origin") = false := by
                  rw [Response.includesBreak_append, breaks]
                  decide
                rw [listsOrigin, get_set_vary whole, Option.any_some]
                refine iff_of_true (namesOrigin_append existing) fun _ impossible => ?_
                rcases impossible with impossible | impossible <;> cases impossible

/-! ## What the middleware does to the two headers -/

namespace CorsOptions

variable (options : CorsOptions)

theorem get_credit
    {key : Text}
    (different : toLowerCase (text "Access-Control-Allow-Credentials") ≠ key)
    (response : ResponseState) :
    (options.credit response).headers.get key = response.headers.get key := by
  unfold credit
  split
  · exact get_set_of_ne different response _
  · rfl

theorem get_expose
    {key : Text}
    (different : toLowerCase (text "Access-Control-Expose-Headers") ≠ key)
    (response : ResponseState) :
    (options.expose response).headers.get key = response.headers.get key := by
  unfold expose
  split
  · split
    · rfl
    · exact get_set_of_ne different response _
  · rfl

/-- An answer to a preflight request keeps a header that is none of its own. -/
theorem get_preflightAnswer
    {key : Text}
    (methods : toLowerCase (text "Access-Control-Allow-Methods") ≠ key)
    (headers : toLowerCase (text "Access-Control-Allow-Headers") ≠ key)
    (age : toLowerCase (text "Access-Control-Max-Age") ≠ key)
    (response : ResponseState) :
    (options.preflightAnswer response).headers.get key = response.headers.get key := by
  have sent : ∀ state : ResponseState,
      ((state.call toLowerCase (.status 204)).call toLowerCase .sendNothing).headers.get key =
        state.headers.get key := by
    intro state
    unfold ResponseState.call
    simp only
    split
    · rfl
    · rfl
  unfold preflightAnswer
  simp only [sent]
  cases options.maxAge with
  | none =>
      rw [get_set_of_ne headers, get_set_of_ne methods]
  | some maxAge =>
      simp only
      rw [get_set_of_ne age, get_set_of_ne headers, get_set_of_ne methods]

theorem allowOrigin_preflightAnswer
    (response : ResponseState) :
    allowOrigin (options.preflightAnswer response) = allowOrigin response :=
  options.get_preflightAnswer (by decide) (by decide) (by decide) response

theorem listsOrigin_preflightAnswer
    (response : ResponseState) :
    listsOrigin (options.preflightAnswer response) = listsOrigin response := by
  unfold listsOrigin
  rw [options.get_preflightAnswer (by decide) (by decide) (by decide)]

theorem allowOrigin_allow
    (requestOrigin : Text)
    (response : ResponseState) :
    allowOrigin (options.allow requestOrigin response) =
      if Response.includesBreak (options.effectiveOrigin requestOrigin) then allowOrigin response
      else some (options.effectiveOrigin requestOrigin) := by
  have isKey : toLowerCase (text "Access-Control-Allow-Origin") = allowOriginKey := by
    decide
  have noBreak : Response.includesBreak allowOriginKey = false := by decide
  unfold allow ResponseState.set
  rw [isKey, noBreak, Bool.false_or]
  split
  · rfl
  · exact Dictionary.get_set_self _ _ _

theorem allowOrigin_addVary
    (response : ResponseState) :
    allowOrigin (addVary response) = allowOrigin response := by
  have different : toLowerCase varyKey ≠ allowOriginKey := by decide
  unfold addVary
  split
  · split
    · exact get_set_of_ne different response _
    · split
      · rfl
      · exact get_set_of_ne different response _
  · exact get_set_of_ne different response _

theorem allowOrigin_vary
    (requestOrigin : Text)
    (response : ResponseState) :
    allowOrigin (options.vary requestOrigin response) = allowOrigin response := by
  unfold vary
  split
  · rfl
  · exact allowOrigin_addVary response

/-- The origin is allowed, when the header can hold it. -/
theorem allowOrigin_corsHeaders
    (requestOrigin : Text)
    (response : ResponseState) :
    allowOrigin (options.corsHeaders requestOrigin response) =
      if Response.includesBreak (options.effectiveOrigin requestOrigin) then allowOrigin response
      else some (options.effectiveOrigin requestOrigin) := by
  have exposed : allowOrigin (options.corsHeaders requestOrigin response) =
      allowOrigin (options.vary requestOrigin
        (options.credit (options.allow requestOrigin response))) :=
    options.get_expose (by decide) _
  have credited : allowOrigin (options.credit (options.allow requestOrigin response)) =
      allowOrigin (options.allow requestOrigin response) :=
    options.get_credit (by decide) _
  rw [exposed, options.allowOrigin_vary, credited, options.allowOrigin_allow]

/-- Whether the headers for an allowed origin name it, by what the response varies by
before: where every origin gets the same header, nothing is merged. -/
def NamesOrigin (requestOrigin : Text) (response : ResponseState) : Prop :=
  if options.effectiveOrigin requestOrigin = starOrigin then
    listsOrigin response = true
  else
    MergesOrigin (response.headers.get varyKey)

theorem listsOrigin_corsHeaders_iff
    (requestOrigin : Text)
    (response : ResponseState) :
    listsOrigin (options.corsHeaders requestOrigin response) = true ↔
      options.NamesOrigin requestOrigin response := by
  have before : (options.credit (options.allow requestOrigin response)).headers.get varyKey =
      response.headers.get varyKey := by
    rw [options.get_credit (by decide), allow, get_set_of_ne (by decide)]
  have exposed : listsOrigin (options.corsHeaders requestOrigin response) =
      listsOrigin (options.vary requestOrigin
        (options.credit (options.allow requestOrigin response))) := by
    rw [corsHeaders, listsOrigin, options.get_expose (by decide), listsOrigin]
  rw [exposed, vary, NamesOrigin]
  split
  · rw [listsOrigin, before, listsOrigin]
  · rw [listsOrigin_addVary_iff, before]

end CorsOptions

/-! ## Other code that leaves the two headers alone -/

/-- An origin whose headers can be set. -/
def Marks (options : CorsOptions) (requestOrigin : Text) : Prop :=
  Allows options (some requestOrigin) ∧
    Response.includesBreak (options.effectiveOrigin requestOrigin) = false

/-- Whatever the other code does to a response, the origin that it allows is the one that
the middleware has set. -/
structure OtherCode.LeavesAllowOrigin {Rest : Type} (others : OtherCode Rest) : Prop where
  answered : ∀ request response,
    others.before request = .done response → allowOrigin response = none
  reached : ∀ request response,
    others.before request = .next response → allowOrigin response = none
  behind : ∀ request response,
    allowOrigin (others.behind request response) = allowOrigin response
  afterwards : ∀ request response,
    allowOrigin (others.afterwards request response) = allowOrigin response

/-- The code behind the middleware keeps the name of the origin among those that a response
varies by, and adds it to the responses to some requests. -/
structure OtherCode.KeepsOrigin
    {Rest : Type}
    (others : OtherCode Rest)
    (adds : CorsRequest Rest → Prop) : Prop where
  behind : ∀ request response,
    listsOrigin (others.behind request response) = true ↔
      listsOrigin response = true ∨ adds request
  afterwards : ∀ request response,
    listsOrigin (others.afterwards request response) = true ↔
      listsOrigin response = true ∨ adds request

/-- Of the requests that differ in their origin only, those that are answered in front of the
middleware get a response that names it; the others get it from the code behind, or have it
in their response before the middleware leaves that alone or merges the name into it. -/
structure NamesOriginAlways
    {Rest : Type}
    (options : CorsOptions)
    (others : OtherCode Rest)
    (adds : CorsRequest Rest → Prop)
    (request : CorsRequest Rest) : Prop where
  answered : ∀ origin response,
    others.before { request with origin } = .done response → listsOrigin response = true
  passed : ∀ origin response,
    others.before { request with origin } = .next response → ¬ Allows options origin →
      listsOrigin response = true ∨ adds { request with origin }
  marked : ∀ requestOrigin response,
    others.before { request with origin := some requestOrigin } = .next response →
    Allows options (some requestOrigin) →
      options.NamesOrigin requestOrigin response ∨
        adds { request with origin := some requestOrigin }

section Left

variable {Rest : Type} {options : CorsOptions} {others : OtherCode Rest}

theorem respond_allowOrigin
    (leaves : others.LeavesAllowOrigin)
    {request : CorsRequest Rest} {requestOrigin : Text} {response : ResponseState}
    (reached : others.before request = .next response)
    (isOrigin : request.origin = some requestOrigin)
    (allowed : Allows options (some requestOrigin)) :
    allowOrigin (respond options others request) =
      allowOrigin (options.corsHeaders requestOrigin response) := by
  rw [respond_of_allows reached isOrigin allowed]
  split
  · rw [leaves.afterwards, options.allowOrigin_preflightAnswer]
  · rw [leaves.behind]

theorem respond_listsOrigin
    {adds : CorsRequest Rest → Prop}
    (keeps : others.KeepsOrigin adds)
    {request : CorsRequest Rest} {requestOrigin : Text} {response : ResponseState}
    (reached : others.before request = .next response)
    (isOrigin : request.origin = some requestOrigin)
    (allowed : Allows options (some requestOrigin)) :
    listsOrigin (respond options others request) = true ↔
      options.NamesOrigin requestOrigin response ∨ adds request := by
  rw [respond_of_allows reached isOrigin allowed, ← options.listsOrigin_corsHeaders_iff]
  split
  · rw [keeps.afterwards, options.listsOrigin_preflightAnswer]
  · rw [keeps.behind]

/-- The origins are told apart exactly when the middleware sets its headers for one. -/
theorem exists_allowOrigin_iff
    (leaves : others.LeavesAllowOrigin)
    (request : CorsRequest Rest) :
    (∃ value, ∀ origin,
        allowOrigin (respond options others { request with origin }) = value) ↔
      ∀ requestOrigin response,
        others.before { request with origin := some requestOrigin } = .next response →
          ¬ Marks options requestOrigin := by
  have unallowed : ∀ origin, ¬ Allows options origin →
      allowOrigin (respond options others { request with origin }) = none := by
    intro origin refused
    cases reached : others.before { request with origin } with
    | done response =>
        rw [respond_of_done reached]
        exact leaves.answered _ response reached
    | next response =>
        rw [respond_of_not_allows reached refused, leaves.behind]
        exact leaves.reached _ response reached
  have noOrigin : ¬ Allows options none := by
    rintro ⟨_, absent, _⟩
    cases absent
  constructor
  · rintro ⟨value, same⟩ requestOrigin response reached ⟨allowed, noBreak⟩
    have isNone : value = none := (same none).symm.trans (unallowed none noOrigin)
    have own := same (some requestOrigin)
    rw [isNone, respond_allowOrigin leaves reached rfl allowed, options.allowOrigin_corsHeaders,
      noBreak, if_neg Bool.false_ne_true] at own
    cases own
  · intro unmarked
    refine ⟨none, fun origin => ?_⟩
    by_cases allowed : Allows options origin
    · obtain ⟨requestOrigin, rfl, _⟩ := id allowed
      cases reached : others.before { request with origin := some requestOrigin } with
      | done response =>
          rw [respond_of_done reached]
          exact leaves.answered _ response reached
      | next response =>
          rw [respond_allowOrigin leaves reached rfl allowed, options.allowOrigin_corsHeaders]
          cases found : Response.includesBreak (options.effectiveOrigin requestOrigin) with
          | true => exact leaves.reached _ response reached
          | false => exact absurd ⟨allowed, found⟩ (unmarked requestOrigin response reached)
    · exact unallowed origin allowed

theorem forall_listsOrigin_iff
    {adds : CorsRequest Rest → Prop}
    (keeps : others.KeepsOrigin adds)
    (request : CorsRequest Rest) :
    (∀ origin, listsOrigin (respond options others { request with origin }) = true) ↔
      NamesOriginAlways options others adds request := by
  constructor
  · intro all
    refine ⟨?_, ?_, ?_⟩
    · intro origin response reached
      exact (@respond_of_done Rest options others _ _ reached) ▸ all origin
    · intro origin response reached refused
      have own := all origin
      rwa [respond_of_not_allows reached refused, keeps.behind] at own
    · intro requestOrigin response reached allowed
      exact (respond_listsOrigin keeps reached rfl allowed).mp (all (some requestOrigin))
  · intro names origin
    cases reached : others.before { request with origin } with
    | done response =>
        rw [respond_of_done reached]
        exact names.answered origin response reached
    | next response =>
        by_cases allowed : Allows options origin
        · obtain ⟨requestOrigin, rfl, _⟩ := id allowed
          exact (respond_listsOrigin keeps reached rfl allowed).mpr
            (names.marked requestOrigin response reached allowed)
        · rw [respond_of_not_allows reached allowed, keeps.behind]
          exact names.passed origin response reached allowed

/-- With other code that leaves the allowed origin alone and keeps the name of the origin,
the origin is announced exactly where, of the requests that differ in nothing else, the
middleware sets its headers for none, or all are answered with a list that names it. -/
theorem announcesOrigin_iff
    {adds : CorsRequest Rest → Prop}
    (leaves : others.LeavesAllowOrigin)
    (keeps : others.KeepsOrigin adds) :
    AnnouncesOrigin options others ↔
      ∀ request : CorsRequest Rest,
        (∀ requestOrigin response,
          others.before { request with origin := some requestOrigin } = .next response →
            ¬ Marks options requestOrigin) ∨
        NamesOriginAlways options others adds request := by
  rw [announcesOrigin_iff_forall]
  simp only [exists_allowOrigin_iff leaves, forall_listsOrigin_iff keeps]

end Left

/-! ## One allowed origin -/

/-- A middleware that varies every response by these names, and a handler that sets no
header. -/
def varyingCode (names : Option Text) : OtherCode Unit where
  before := fun _ => .next (match names with
    | some names => Response.acquireResponseState.set toLowerCase varyKey names
    | none => Response.acquireResponseState)
  behind := fun _ response => response
  afterwards := fun _ response => response

/-- The defaults, with another choice of origins. -/
def optionsFor (origin : OriginOption) : CorsOptions where
  origin
  methods := .single (text "GET,HEAD,PUT,PATCH,POST,DELETE")
  allowedHeaders := .single (text "Content-Type,Authorization,Accept,X-Requested-With")
  exposedHeaders := none
  credentials := false
  maxAge := none
  preflight := true

def acceptAndOrigin : OtherCode Unit :=
  varyingCode (some (text "Accept, Origin"))

theorem leavesAllowOrigin_acceptAndOrigin : acceptAndOrigin.LeavesAllowOrigin where
  answered := by
    intro request response answered
    cases answered
  reached := by
    intro request response reached
    cases reached
    decide
  behind := fun _ _ => rfl
  afterwards := fun _ _ => rfl

theorem keepsOrigin_acceptAndOrigin : acceptAndOrigin.KeepsOrigin fun _ => False where
  behind := fun _ _ => iff_of_eq (or_false _).symm
  afterwards := fun _ _ => iff_of_eq (or_false _).symm

/-- With one origin allowed it is announced where a middleware in front names it always. -/
theorem announcesOrigin_acceptAndOrigin :
    acceptAndOrigin.LeavesAllowOrigin ∧ acceptAndOrigin.KeepsOrigin (fun _ => False) ∧
      Marks (optionsFor (.list [text "https://a.example"])) (text "https://a.example") ∧
      AnnouncesOrigin (optionsFor (.list [text "https://a.example"])) acceptAndOrigin := by
  have lists : ∀ (origin : Option Text) (method : Text) (response : ResponseState),
      acceptAndOrigin.before { origin, method, rest := () } = .next response →
        response.headers.get varyKey = some (text "Accept, Origin") := by
    intro origin method response reached
    cases reached
    decide
  have names : namesOrigin (text "Accept, Origin") = true := by decide
  refine ⟨leavesAllowOrigin_acceptAndOrigin, keepsOrigin_acceptAndOrigin,
    ⟨⟨_, rfl, by decide, by decide⟩, by decide⟩,
    (announcesOrigin_iff leavesAllowOrigin_acceptAndOrigin keepsOrigin_acceptAndOrigin).mpr ?_⟩
  intro request
  refine .inr ⟨?_, ?_, ?_⟩
  · intro origin response answered
    cases answered
  · intro origin response reached _
    rw [listsOrigin, lists origin request.method response reached]
    exact .inl names
  · intro requestOrigin response reached _
    have isVary := lists (some requestOrigin) request.method response reached
    left
    unfold CorsOptions.NamesOrigin listsOrigin MergesOrigin
    rw [isVary]
    split
    · exact names
    · rintro existing ⟨⟩ _ _
      exact names

/-- The response to a request without an origin does not say that another origin would
have been answered differently. -/
theorem not_announcesOrigin :
    ¬ ∀ (options : CorsOptions) (others : OtherCode Unit),
      options.isOpen = false → AnnouncesOrigin options others := by
  intro announces
  have lists := announces (optionsFor (.list [text "https://a.example"])) (varyingCode none) rfl
    { origin := none, method := text "GET", rest := () } (some (text "https://a.example")) none
    (by decide)
  exact absurd lists.2 (by decide)

end Cors
end HttpNative
