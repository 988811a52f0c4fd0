import HttpNative.FastPath.DynamicTemplate
import HttpNative.Router.NativeRouter

/-!
# Templates in the source of a handler

The native analyser looks for a single `res.json` or `res.send` call in the source of a
handler and takes a template out of its argument. Literals are left to a JSON5 parser,
which is a parameter here.
-/

namespace HttpNative
namespace FastPath

open HttpNative.Parser (trim)

/-! ## Pieces of a source -/

/-- The text before the first place of a pattern, and the text behind it. -/
def splitOnce (pattern : Text) : Text → Option (Text × Text)
  | [] => none
  | char :: rest =>
      match Json.stripPrefix pattern (char :: rest) with
      | some behind => some ([], behind)
      | none => (splitOnce pattern rest).map fun parts => (char :: parts.1, parts.2)

/-- The text before the last place of a character. -/
def beforeLast (char : Char) (input : Text) : Option Text :=
  match input.reverse.dropWhile (· ≠ char) with
  | [] => none
  | _ :: before => some before.reverse

/-- What stands between an opening text and the closing character at the end. -/
def enclosed (opening : Text) (closing : Char) (input : Text) : Option Text :=
  (Json.stripPrefix opening input).bind fun rest =>
    if rest.getLast? = some closing then some rest.dropLast else none

/-- `strip_call`. -/
def stripCall (body opening : Text) : Option Text :=
  (enclosed opening ')' body).map trim

def extractFunctionBody (source : Text) : Text :=
  match splitOnce (text "=>") source with
  | some (_, right) =>
      match enclosed (text "\x7b") '\x7d' (trim right) with
      | some block => trim block
      | none => trim right
  | none =>
      match (splitOnce (text "\x7b") source).bind fun parts => beforeLast '\x7d' parts.2 with
      | some block => trim block
      | none => trim source

def trimReturnAndSemicolon (body : Text) : Text :=
  let value := trim body
  let value :=
    match Json.stripPrefix (text "return ") value with
    | some stripped => trim stripped
    | none => value
  if value.getLast? = some ';' then trim value.dropLast else value

/-- `str::parse::<u16>` behind `trim`. -/
def parseStatus (input : Text) : Option Nat :=
  (Parser.parseUsize (trim input)).filter (· ≤ 0xFFFF)

/-- The status and the argument of `res.status(…).method(…)`. -/
def parseStatusCall (body method : Text) : Option (Nat × Text) := do
  let afterStatus ← enclosed (text "res.status(") ')' body
  let parts ← splitOnce (text ")." ++ method ++ text "(") afterStatus
  let status ← parseStatus parts.1
  some (status, trim parts.2)

/-! ## Nesting -/

/-- Where a scan over a source is: in how many brackets, and in which string. -/
structure Nesting where
  braces : Nat
  brackets : Nat
  parens : Nat
  delimiter : Option Char
  escaped : Bool
deriving DecidableEq

namespace Nesting

def start : Nesting where
  braces := 0
  brackets := 0
  parens := 0
  delimiter := none
  escaped := false

def isTopLevel (nesting : Nesting) : Bool :=
  nesting.delimiter.isNone && nesting.braces = 0 && nesting.brackets = 0 && nesting.parens = 0

/-- `checked_sub(1)`. -/
def close (depth : Nat) : Option Nat :=
  if depth = 0 then none else some (depth - 1)

/-- A character of a string. -/
def stepInString (nesting : Nesting) (delimiter char : Char) : Nesting :=
  if nesting.escaped then { nesting with escaped := false }
  else if char = '\\' then { nesting with escaped := true }
  else if char = delimiter then { nesting with delimiter := none }
  else nesting

/-- The nesting behind a character; none when a bracket closes that was not opened. -/
def step (nesting : Nesting) (char : Char) : Option Nesting :=
  match nesting.delimiter with
  | some delimiter => some (nesting.stepInString delimiter char)
  | none =>
      if char = '"' ∨ char = '\'' ∨ char = '\x60' then
        some { nesting with delimiter := some char }
      else if char = '\x7b' then some { nesting with braces := nesting.braces + 1 }
      else if char = '\x7d' then
        (close nesting.braces).map fun depth => { nesting with braces := depth }
      else if char = '[' then some { nesting with brackets := nesting.brackets + 1 }
      else if char = ']' then
        (close nesting.brackets).map fun depth => { nesting with brackets := depth }
      else if char = '(' then some { nesting with parens := nesting.parens + 1 }
      else if char = ')' then
        (close nesting.parens).map fun depth => { nesting with parens := depth }
      else some nesting

end Nesting

/-- The loop of `split_top_level`; `entry` is what has been read of an entry. -/
def splitEntries (separator : Char) : Nesting → Text → Text → Option (List Text)
  | nesting, entry, [] => if nesting.isTopLevel then some [entry] else none
  | nesting, entry, char :: rest =>
      if nesting.isTopLevel && char = separator then
        (splitEntries separator nesting [] rest).map (entry :: ·)
      else
        (nesting.step char).bind fun next => splitEntries separator next (entry ++ [char]) rest

def splitTopLevel (input : Text) (separator : Char) : Option (List Text) :=
  splitEntries separator .start [] input

/-- The text before the first place that `find_top_level` finds, and the text behind. -/
def splitAtTopLevel (target : Char) : Nesting → Text → Option (Text × Text)
  | _, [] => none
  | nesting, char :: rest =>
      if nesting.isTopLevel && char = target then some ([], rest)
      else
        (nesting.step char).bind fun next =>
          (splitAtTopLevel target next rest).map fun parts => (char :: parts.1, parts.2)

/-- The expression before the end that `find_template_expr_end` finds, and the text
behind it. -/
def splitExpression : Nesting → Text → Option (Text × Text)
  | _, [] => none
  | nesting, char :: rest =>
      let next :=
        match nesting.delimiter with
        | some delimiter => some (nesting.stepInString delimiter char)
        | none =>
            if char = '\'' ∨ char = '"' ∨ char = '\x60' then
              some { nesting with delimiter := some char }
            else if char = '\x7b' then some { nesting with braces := nesting.braces + 1 }
            else if char = '\x7d' then
              (Nesting.close nesting.braces).map fun depth => { nesting with braces := depth }
            else some nesting
      match next with
      | none => some ([], rest)
      | some next => (splitExpression next rest).map fun parts => (char :: parts.1, parts.2)

/-! ## Literals -/

/-- The loop of `normalize_js_literal`: `!0` and `!1` outside of strings are the words
they stand for. -/
def normalizeFrom : Option Char → Bool → Text → Text
  | _, _, [] => []
  | some delimiter, true, char :: rest => char :: normalizeFrom (some delimiter) false rest
  | some delimiter, false, char :: rest =>
      if char = '\\' then char :: normalizeFrom (some delimiter) true rest
      else if char = delimiter then char :: normalizeFrom none false rest
      else char :: normalizeFrom (some delimiter) false rest
  | none, _, '!' :: '0' :: rest => text "true" ++ normalizeFrom none false rest
  | none, _, '!' :: '1' :: rest => text "false" ++ normalizeFrom none false rest
  | none, _, char :: rest =>
      if char = '"' ∨ char = '\'' ∨ char = '\x60' then char :: normalizeFrom (some char) false rest
      else char :: normalizeFrom none false rest

def normalizeJsLiteral (source : Text) : Text :=
  normalizeFrom none false source

def isIdentifier : Text → Bool
  | [] => false
  | first :: rest =>
      (first.isAlpha || first = '_' || first = '$') &&
        rest.all fun char => char.isAlphanum || char = '_' || char = '$'

def unescapeTemplateLiteral : Text → Option Text
  | [] => some []
  | ['\\'] => none
  | '\\' :: next :: rest =>
      let char := if next = 'n' then '\n' else if next = 'r' then '\r' else
        if next = 't' then '\t' else next
      (unescapeTemplateLiteral rest).map (char :: ·)
  | char :: rest => (unescapeTemplateLiteral rest).map (char :: ·)

def normalizeContentType (value : Text) : Text :=
  if '/' ∈ value then value
  else if value = text "json" then text "application/json; charset=utf-8"
  else if value = text "html" then text "text/html; charset=utf-8"
  else if value = text "text" then text "text/plain; charset=utf-8"
  else value

section Literals

variable (json5 : Text → Option Json)

/-- `parse_literal`; the parameter is `json5::from_str`. -/
def parseLiteral (source : Text) : Option Json :=
  json5 (normalizeJsLiteral source)

def parseStringLiteral (source : Text) : Option Text :=
  match parseLiteral json5 source with
  | some (.string value) => some value
  | _ => none

/-! ## Dynamic sources -/

def parseBracketAccess (source opening : Text) : Option Text :=
  (enclosed opening ']' source).bind fun inner => parseStringLiteral json5 (trim inner)

def parseFunctionCallStringArg (source opening : Text) : Option Text :=
  (enclosed opening ')' source).bind fun inner => parseStringLiteral json5 (trim inner)

/-- A property of a part of the request, by its name or in brackets. -/
def parseMember (source part : Text) : Option Text :=
  ((Json.stripPrefix (part ++ text ".") source).filter isIdentifier) <|>
    parseBracketAccess json5 source (part ++ text "[")

def parseDynamicValueSource (raw : Text) : Option DynamicValueSource :=
  let source := trim raw
  ((parseMember json5 source (text "req.params")).map fun key => ⟨.param, key⟩) <|>
    ((parseMember json5 source (text "req.query")).map fun key => ⟨.query, key⟩) <|>
    ((parseMember json5 source (text "req.headers")).map fun key =>
      ⟨.header, Text.asciiLower key⟩) <|>
    ((parseFunctionCallStringArg json5 source (text "req.header(")).map fun key =>
      ⟨.header, Text.asciiLower key⟩)

def parseDynamicJsonValueSource (raw : Text) : Option DynamicValueSource :=
  if trim raw = text "req.query" then some ⟨.queryObject, []⟩
  else parseDynamicValueSource json5 (trim raw)

/-! ## JSON templates -/

variable [NativeCrates]

def parseObjectKey (raw : Text) : Option Text :=
  let raw := trim raw
  if raw = [] then none
  else
    parseStringLiteral json5 raw <|> if isIdentifier raw then some raw else none

/-- One entry of an object literal. -/
def parseField (entry : Text) : Option (JsonObjectField DynamicValueSource) := do
  let parts ← splitAtTopLevel ':' .start entry
  let key ← parseObjectKey json5 (trim parts.1)
  let valueSource := trim parts.2
  match parseDynamicJsonValueSource json5 valueSource with
  | some source => some (.serialize key (.dynamic source))
  | none =>
      let literal ← parseLiteral json5 valueSource
      some (.serialize key (.literal (.serialize literal)))

/-- `parse_json_object_fields`, given what stands between the braces. -/
def parseJsonObjectFields (inner : Text) : Option (List (JsonObjectField DynamicValueSource)) :=
  if trim inner = [] then
    some []
  else
    (splitTopLevel (trim inner) ',').bind fun entries =>
      ((entries.map trim).filter (· ≠ [])).mapM (parseField json5)

def parseJsonTemplate (payload : Text) : Option (JsonTemplate DynamicValueSource) :=
  match enclosed (text "\x7b") '\x7d' (trim payload) with
  | some inner => (parseJsonObjectFields json5 inner).map .object
  | none => (parseLiteral json5 (trim payload)).map fun literal => .literal (.serialize literal)

/-! ## Text templates -/

/-- A literal segment, when there is any text in it. -/
def literalSegment (literal : Text) : TextTemplate DynamicValueSource :=
  if literal = [] then [] else [.literal literal]

/-- The loop of `parse_template_literal`; every round takes three characters and more. -/
def parseSegments : Nat → Text → Option (TextTemplate DynamicValueSource)
  | 0, _ => some []
  | fuel + 1, inner =>
      match splitOnce (text "$\x7b") inner with
      | none => (unescapeTemplateLiteral inner).map literalSegment
      | some (before, behind) => do
          let literal ← unescapeTemplateLiteral before
          let parts ← splitExpression .start behind
          let source ← parseDynamicValueSource json5 (trim parts.1)
          let others ← parseSegments fuel parts.2
          some (literalSegment literal ++ .dynamic source :: others)

def parseTemplateLiteral (payload : Text) : Option (TextTemplate DynamicValueSource) :=
  (enclosed (text "\x60") '\x60' payload).bind fun inner =>
    if Text.includesText (text "$\x7b") inner then
      parseSegments json5 inner.length inner
    else
      (unescapeTemplateLiteral inner).map fun literal => [.literal literal]

def parseTextTemplate (payload : Text) : Option (TextTemplate DynamicValueSource) :=
  let payload := trim payload
  ((parseStringLiteral json5 payload).map fun value => [.literal value]) <|>
    parseTemplateLiteral json5 payload

end Literals

/-! ## The fast path of a route -/

inductive DynamicFastPathResponse where
  | json (template : JsonTemplate DynamicValueSource)
  | text (template : TextTemplate DynamicValueSource)
deriving DecidableEq

structure DynamicFastPathSpec where
  status : Nat
  headers : List (Text × Text)
  response : DynamicFastPathResponse
deriving DecidableEq

def jsonHeaders : List (Text × Text) :=
  [(text "content-type", text "application/json; charset=utf-8")]

/-- The headers of a text, whose type may be given. -/
def textHeaders (forcedContentType : Option Text) : List (Text × Text) :=
  [(text "content-type",
    (forcedContentType.map normalizeContentType).getD (text "text/plain; charset=utf-8"))]

section Analysis

variable [NativeCrates]
variable (json5 : Text → Option Json)

def buildDynamicJsonResponse (status : Nat) (payload : Text) : Option DynamicFastPathSpec :=
  (parseJsonTemplate json5 payload).map fun template =>
    { status := status, headers := jsonHeaders, response := .json template }

def buildDynamicSendResponse
    (status : Nat)
    (payload : Text)
    (forcedContentType : Option Text) :
    Option DynamicFastPathSpec :=
  match parseTextTemplate json5 payload with
  | some template =>
      some ⟨status, textHeaders forcedContentType, .text template⟩
  | none =>
      match parseLiteral json5 payload with
      | some (.string value) =>
          some ⟨status, textHeaders forcedContentType, .text [.literal value]⟩
      | some .null => none
      | some other =>
          if forcedContentType.isSome then none
          else some ⟨status, jsonHeaders, .json (.literal (.serialize other))⟩
      | none => none

/-- The type and the argument of a call to `type` and then `send`. -/
def parseTypeSend (afterType : Text) : Option (Text × Text) := do
  let parts ← splitOnce (text ").send(") afterType
  let contentType ← parseStringLiteral json5 (trim parts.1)
  some (contentType, trim parts.2)

def parseStatusTypeSendCall (body : Text) : Option (Nat × Text × Text) := do
  let afterStatus ← enclosed (text "res.status(") ')' body
  let parts ← splitOnce (text ").type(") afterStatus
  let status ← parseStatus parts.1
  let typed ← parseTypeSend json5 parts.2
  some (status, typed)

def parseTypeSendCall (body : Text) : Option (Text × Text) :=
  (enclosed (text "res.type(") ')' body).bind (parseTypeSend json5)

/-- What the body of a handler comes to: the first form of a call that fits decides. -/
def analyzeBody (body : Text) : Option DynamicFastPathSpec :=
  match parseStatusCall body (text "json") with
  | some (status, payload) => buildDynamicJsonResponse json5 status payload
  | none =>
  match parseStatusCall body (text "send") with
  | some (status, payload) => buildDynamicSendResponse json5 status payload none
  | none =>
  match parseStatusTypeSendCall json5 body with
  | some (status, contentType, payload) =>
      buildDynamicSendResponse json5 status payload (some contentType)
  | none =>
  match parseTypeSendCall json5 body with
  | some (contentType, payload) => buildDynamicSendResponse json5 200 payload (some contentType)
  | none =>
  match stripCall body (text "res.json(") with
  | some payload => buildDynamicJsonResponse json5 200 payload
  | none =>
  match stripCall body (text "res.send(") with
  | some payload => buildDynamicSendResponse json5 200 payload none
  | none => none

/-- `analyze_dynamic_fast_path`, for the prefixes of the middlewares. -/
def analyzeDynamicFastPath
    (routePath handlerSource : Text)
    (middlewares : List Text) :
    Option DynamicFastPathSpec :=
  if Router.hasApplicableMiddleware routePath middlewares then
    none
  else if Text.includesText (text "await") handlerSource then
    none
  else
    let body := trimReturnAndSemicolon (extractFunctionBody handlerSource)
    if body = [] then none else analyzeBody json5 body

/-! ## Object templates are served as JSON -/

variable {json5 : Text → Option Json}

theorem headers_of_buildDynamicJsonResponse
    {status : Nat} {payload : Text} {spec : DynamicFastPathSpec}
    (built : buildDynamicJsonResponse json5 status payload = some spec) :
    spec.headers = jsonHeaders := by
  obtain ⟨template, -, rfl⟩ := Option.map_eq_some_iff.mp built
  rfl

theorem headers_of_buildDynamicSendResponse
    {status : Nat} {payload : Text} {forced : Option Text} {spec : DynamicFastPathSpec}
    {template : JsonTemplate DynamicValueSource}
    (isJson : spec.response = .json template)
    (built : buildDynamicSendResponse json5 status payload forced = some spec) :
    spec.headers = jsonHeaders := by
  unfold buildDynamicSendResponse at built
  split at built
  · cases built
    cases isJson
  · split at built
    · cases built
      cases isJson
    · cases built
    · split at built
      · cases built
      · cases built
        rfl
    · cases built

/-- Whatever is rendered as JSON is declared as JSON. -/
theorem headers_of_analyzeDynamicFastPath
    {routePath handlerSource : Text} {middlewares : List Text} {spec : DynamicFastPathSpec}
    {template : JsonTemplate DynamicValueSource}
    (isJson : spec.response = .json template)
    (analyzed : analyzeDynamicFastPath json5 routePath handlerSource middlewares = some spec) :
    spec.headers = jsonHeaders := by
  unfold analyzeDynamicFastPath analyzeBody at analyzed
  dsimp only at analyzed
  split_ifs at analyzed
  split at analyzed
  · exact headers_of_buildDynamicJsonResponse analyzed
  · split at analyzed
    · exact headers_of_buildDynamicSendResponse isJson analyzed
    · split at analyzed
      · exact headers_of_buildDynamicSendResponse isJson analyzed
      · split at analyzed
        · exact headers_of_buildDynamicSendResponse isJson analyzed
        · split at analyzed
          · exact headers_of_buildDynamicJsonResponse analyzed
          · split at analyzed
            · exact headers_of_buildDynamicSendResponse isJson analyzed
            · cases analyzed

end Analysis

end FastPath
end HttpNative
