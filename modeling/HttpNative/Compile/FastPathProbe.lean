import HttpNative.FastPath.DynamicTemplate

/-!
# The fast-path probe

While an application is compiled, the handlers of its parameterised routes are
called once with placeholder parameters and a recording response; what they
send becomes the source of a synthetic handler. A handler is any function of a
state and of the request it is given, which leaves a new state and a list of
calls on the response.
-/

namespace HttpNative
namespace Compile

open Text (includesText)

/-- What a handler can read off a request. -/
structure RequestView where
  params : Dictionary Text Text
  query : Dictionary Text Bridge.QueryValue
  headers : Dictionary Text Text
  method : Text
  path : Text
  url : Text
deriving DecidableEq

/-- The value of an own property of a response object. -/
inductive FieldData where
  | string (value : Text)
  | number (literal : Json.NumberLiteral)
  /-- `NaN` and the infinities, which `JSON.stringify` writes as `null`. -/
  | nonFinite
  | bool (value : Bool)
  | null
  /-- An array, an object, a function or `undefined`. -/
  | complex
deriving DecidableEq, Repr

/-- The argument of `res.json` or `res.send`. -/
inductive ResponseData where
  | undefined
  | null
  | string (value : Text)
  | array
  | object (entries : List (Text × FieldData))
  /-- A number, a boolean, a symbol or a function. -/
  | primitive
deriving DecidableEq, Repr

/-- A call on the response; a status is kept as the text that interpolating it
gives. -/
inductive ResponseCall where
  | status (code : Text)
  | json (data : ResponseData)
  | send (data : ResponseData)
  | set
  | header
  | type (value : Text)
deriving DecidableEq, Repr

inductive Completion where
  | returned
  | thenable
  | thrown
deriving DecidableEq, Repr

/-- The calls of one handler run, in order, and how it ended. -/
structure Transcript where
  calls : List ResponseCall
  completion : Completion
deriving DecidableEq, Repr

/-- A handler: its source text and what calling it with a request and the
recording response does to the state. -/
structure Handler (World : Type) where
  source : Text
  call : RequestView → World → World × Transcript

structure Route (World : Type) where
  method : Text
  path : Text
  handler : Handler World
  staticResponse : Bool
  syntheticHandlerSource : Option Text

/-! ## The source filter -/

def mutatorNames : List Text :=
  [text "push", text "pop", text "shift", text "unshift", text "splice", text "set",
    text "write", text "emit", text "log", text "warn", text "error", text "send"]

/-- A mutator's name and an opening parenthesis stand next, spaces aside. -/
def startsMutatorCall (input : Text) : Bool :=
  mutatorNames.any fun name =>
    match Json.stripPrefix name (input.dropWhile Text.isSpace) with
    | some after => (after.dropWhile Text.isSpace).head? = some '('
    | none => false

/-- Some dot of the text, not one right after `res`, starts a mutator call. What
stands before the text is given in reverse. -/
def hasMutatorCall : Text → Text → Bool
  | _, [] => false
  | before, char :: rest =>
      (char = '.' && !(text "ser").isPrefixOf before && startsMutatorCall rest) ||
        hasMutatorCall (char :: before) rest

/-! ## The call with placeholders -/

def probeParamPrefix : Text := text "__PROBE_PARAM_"

def probeParamSuffix : Text := text "__"

def placeholder (name : Text) : Text :=
  probeParamPrefix ++ name ++ probeParamSuffix

/-- The names of the parameter segments of a path. -/
def paramNamesOf (path : Text) : List Text :=
  (path.splitOn '/').filterMap fun segment =>
    match segment with
    | ':' :: name => some name
    | _ => none

/-- The request a handler is probed with. -/
def mockRequest (method path : Text) : RequestView where
  params := (paramNamesOf path).foldl (fun params name => params.set name (placeholder name)) []
  query := []
  headers := []
  method := if method = [] then text "GET" else method
  path := path
  url := path

/-- What the recording response has captured. -/
structure Captured where
  data : ResponseData
  status : Text
  isSendString : Bool
  succeeded : Bool
deriving DecidableEq, Repr

def Captured.initial : Captured where
  data := .undefined
  status := text "200"
  isSendString := false
  succeeded := false

def Captured.record (captured : Captured) : ResponseCall → Captured
  | .status code => { captured with status := code }
  | .json data => { captured with data := data, succeeded := true }
  | .send (.string value) =>
      { captured with data := .string value, isSendString := true, succeeded := true }
  | .send (.object entries) =>
      { captured with data := .object entries, isSendString := false, succeeded := true }
  | .send .array => { captured with data := .array, isSendString := false, succeeded := true }
  | .send _ => { captured with succeeded := true }
  | .set => captured
  | .header => captured
  | .type value => { captured with isSendString := value = text "send_string" }

def capture (calls : List ResponseCall) : Captured :=
  calls.foldl Captured.record .initial

/-! ## Synthetic sources -/

/-- `JSON.stringify` of a string. -/
def stringify (value : Text) : Text :=
  Json.stringifyWriter.writeString value

/-- The text of one field; none for a value that cannot be resolved. -/
def resolvedField (paramNames : List Text) (entry : Text × FieldData) : Option Text :=
  match entry.2 with
  | .string value =>
      match paramNames.find? fun name => placeholder name = value with
      | some name => some (stringify entry.1 ++ text ": req.params." ++ name)
      | none => some (stringify entry.1 ++ text ": " ++ stringify value)
  | .number literal => some (stringify entry.1 ++ text ": " ++ literal.spelling)
  | .nonFinite => some (stringify entry.1 ++ text ": null")
  | .bool value =>
      some (stringify entry.1 ++ text ": " ++ if value then text "true" else text "false")
  | .null => some (stringify entry.1 ++ text ": null")
  | .complex => none

/-- The call that sends an argument with a status. -/
def resolvedCall (method status argument : Text) : Text :=
  if status = text "200" then
    text "(req, res) => res." ++ method ++ text "(" ++ argument ++ text ")"
  else
    text "(req, res) => res.status(" ++ status ++ text ")." ++ method ++ text "(" ++ argument ++
      text ")"

def joinFields : List Text → Text
  | [] => []
  | [field] => field
  | field :: fields => field ++ text ", " ++ joinFields fields

def generateResolvedJsonSource
    (entries : List (Text × FieldData))
    (paramNames : List Text)
    (status : Text) :
    Option Text :=
  (entries.mapM (resolvedField paramNames)).map fun fields =>
    resolvedCall (text "json") status (text "\x7b " ++ joinFields fields ++ text " \x7d")

/-- The replacement patterns of `String.prototype.replaceAll`: a doubled dollar
sign, the match, and what stands before and after it. -/
def expandReplacement (before matched after : Text) : Text → Text
  | '$' :: pattern :: rest =>
      if pattern = '$' then '$' :: expandReplacement before matched after rest
      else if pattern = '&' then matched ++ expandReplacement before matched after rest
      else if pattern = Char.ofNat 0x60 then before ++ expandReplacement before matched after rest
      else if pattern = Char.ofNat 0x27 then after ++ expandReplacement before matched after rest
      else '$' :: expandReplacement before matched after (pattern :: rest)
  | char :: rest => char :: expandReplacement before matched after rest
  | [] => []

/-- Replace every occurrence of a nonempty text, from the left; the count skips
what was just replaced. -/
def replaceAllFrom (needle replacement : Text) : Text → Nat → Text → Text
  | _, _, [] => []
  | before, skip + 1, char :: rest =>
      replaceAllFrom needle replacement (before ++ [char]) skip rest
  | before, 0, char :: rest =>
      if needle.isPrefixOf (char :: rest) then
        expandReplacement before needle ((char :: rest).drop needle.length) replacement ++
          replaceAllFrom needle replacement (before ++ [char]) (needle.length - 1) rest
      else
        char :: replaceAllFrom needle replacement (before ++ [char]) 0 rest

def replaceAll (needle replacement input : Text) : Text :=
  replaceAllFrom needle replacement [] 0 input

def generateResolvedSendSource (data : Text) (paramNames : List Text) (status : Text) : Text :=
  if paramNames.any fun name => includesText (placeholder name) data then
    let template := paramNames.foldl
      (fun remaining name =>
        replaceAll (placeholder name) (text "$\x7breq.params." ++ name ++ text "\x7d") remaining)
      data
    resolvedCall (text "send") status (text "`" ++ template ++ text "`")
  else
    resolvedCall (text "send") status (stringify data)

/-- The synthetic source for what was captured. -/
def synthesize (captured : Captured) (paramNames : List Text) : Option Text :=
  if captured.succeeded then
    match captured.data with
    | .object entries => generateResolvedJsonSource entries paramNames captured.status
    | .string value =>
        if captured.isSendString then
          some (generateResolvedSendSource value paramNames captured.status)
        else
          none
    | _ => none
  else
    none

/-! ## Compiling routes -/

variable {World : Type}

/-- Whether the probe calls the handler of a route. -/
def isProbed (path originalSource : Text) : Bool :=
  path.contains ':' && !includesText (text "await") originalSource &&
    !hasMutatorCall [] originalSource && !(paramNamesOf path).isEmpty

/-- `probeHandlerForFastPath`. -/
def probeHandlerForFastPath
    (route : Route World)
    (originalSource : Text)
    (world : World) :
    World × Option Text :=
  if isProbed route.path originalSource then
    let (after, transcript) := route.handler.call (mockRequest route.method route.path) world
    let captured := capture transcript.calls
    if transcript.completion = .thrown then
      (after, none)
    else
      (after, synthesize captured (paramNamesOf route.path))
  else
    (world, none)

/-- The source a route starts from. -/
def Route.source (route : Route World) : Text :=
  route.syntheticHandlerSource.getD route.handler.source

/-- Compile one route: its handler source after the probe. -/
def compileRoute (route : Route World) (world : World) : World × Text :=
  if route.staticResponse then
    (world, route.source)
  else
    let (after, probed) := probeHandlerForFastPath route route.source world
    (after, probed.getD route.source)

/-- What one compilation does: the states it goes through, in order, and the
handler sources of the routes. -/
structure Compilation (World : Type) where
  visited : List World
  handlerSources : List Text

/-- The state in which a list of visited states ends. -/
def lastVisited (world : World) (visited : List World) : World :=
  visited.getLast?.getD world

/-- Compile the routes one after the other. -/
def compileRoutes : List (Route World) → World → Compilation World
  | [], _ => ⟨[], []⟩
  | route :: routes, world =>
      let (after, handlerSource) := compileRoute route world
      let rest := compileRoutes routes after
      ⟨after :: rest.visited, handlerSource :: rest.handlerSources⟩

/-- Mark the compiled routes with the development comment writer, which edits
the file a route was registered in. -/
def markRoutes (markRoute : Route World → World → World) : List (Route World) → World → List World
  | [], _ => []
  | route :: routes, world => markRoute route world :: markRoutes markRoute routes (markRoute route world)

/-- `buildCompiledApplication`; the comment writer is absent when development
comments are switched off. -/
def buildCompiledApplication
    (commentWriter : Option (Route World → World → World))
    (routes : List (Route World))
    (world : World) :
    Compilation World :=
  let compiled := compileRoutes routes world
  match commentWriter with
  | none => compiled
  | some markRoute =>
      { compiled with
        visited := compiled.visited ++
          markRoutes markRoute routes (lastVisited world compiled.visited) }

/-- Compile an application a number of times, with nothing in between; the
states gone through. -/
def compileTimes
    (commentWriter : Option (Route World → World → World))
    (routes : List (Route World)) :
    Nat → World → List World
  | 0, _ => []
  | times + 1, world =>
      let compiled := buildCompiledApplication commentWriter routes world
      compiled.visited ++
        compileTimes commentWriter routes times (lastVisited world compiled.visited)

end Compile
end HttpNative
