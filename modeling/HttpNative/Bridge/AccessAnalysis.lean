import HttpNative.Bridge.RequestReaders
import HttpNative.Library.Json
import HttpNative.Library.SyntaxTree

/-!
# What a handler is seen to read

The parts of a request that the source of a handler is seen to read: from its
syntax tree where it can be parsed, from patterns in its text where it cannot.
The tree is searched for members of the request and for variables that take it
apart; a request that is passed on, stored or taken apart in the parameter list
is not seen.
-/

namespace HttpNative
namespace Bridge

open SyntaxTree (Node Field Visit)

/-- An access plan, with the parts that are read whole. -/
structure RequestAccessPlan extends AccessPlan where
  method : Bool
  path : Bool
  url : Bool
deriving DecidableEq

/-- `createEmptyAccessPlan`. -/
def emptyAccessPlan : RequestAccessPlan where
  fullParams := false
  paramKeys := []
  fullQuery := false
  queryKeys := []
  fullHeaders := false
  headerKeys := []
  method := false
  path := false
  url := false

/-- The parts that are read key by key. -/
inductive KeyedPart where
  | params
  | query
  | headers
deriving DecidableEq

namespace KeyedPart

def name : KeyedPart → Text
  | .params => text "params"
  | .query => text "query"
  | .headers => text "headers"

/-- `identity` or `normalizeHeaderLookup`. -/
def transform : KeyedPart → Text → Text
  | .params, key => key
  | .query, key => key
  | .headers, key => toLowerCase key

end KeyedPart

/-- Add a member to a set. -/
def addMember (keys : List Text) (key : Text) : List Text :=
  if key ∈ keys then keys else keys ++ [key]

namespace RequestAccessPlan

def markFull (plan : RequestAccessPlan) : KeyedPart → RequestAccessPlan
  | .params => { plan with fullParams := true }
  | .query => { plan with fullQuery := true }
  | .headers => { plan with fullHeaders := true }

def addKey (plan : RequestAccessPlan) (key : Text) : KeyedPart → RequestAccessPlan
  | .params => { plan with paramKeys := addMember plan.paramKeys key }
  | .query => { plan with queryKeys := addMember plan.queryKeys key }
  | .headers => { plan with headerKeys := addMember plan.headerKeys key }

def markKeyed (plan : RequestAccessPlan) : RequestAccessPlan :=
  { plan with fullParams := true, fullQuery := true, fullHeaders := true }

def markAll (plan : RequestAccessPlan) : RequestAccessPlan :=
  { plan.markKeyed with method := true, path := true, url := true }

/-- `hasNoRequestAccess`. -/
def hasNoRequestAccess (plan : RequestAccessPlan) : Bool :=
  !plan.method && !plan.path && !plan.url && !plan.fullParams && !plan.fullQuery &&
    !plan.fullHeaders && plan.paramKeys.isEmpty && plan.queryKeys.isEmpty &&
    plan.headerKeys.isEmpty

theorem hasNoRequestAccess_iff
    {plan : RequestAccessPlan} :
    plan.hasNoRequestAccess = true ↔ plan = emptyAccessPlan := by
  obtain ⟨⟨fullParams, paramKeys, fullQuery, queryKeys, fullHeaders, headerKeys⟩, method, path,
    url⟩ := plan
  simp only [hasNoRequestAccess, emptyAccessPlan, Bool.and_eq_true, Bool.not_eq_true',
    List.isEmpty_iff, mk.injEq, AccessPlan.mk.injEq]
  tauto

@[simp] theorem hasNoRequestAccess_markFull
    (plan : RequestAccessPlan)
    (part : KeyedPart) :
    (plan.markFull part).hasNoRequestAccess = false := by
  cases part <;> simp [markFull, hasNoRequestAccess]

theorem addMember_ne_nil
    (keys : List Text)
    (key : Text) :
    addMember keys key ≠ [] := by
  unfold addMember
  split
  · exact List.ne_nil_of_mem ‹_›
  · exact List.append_ne_nil_of_right_ne_nil _ (List.cons_ne_nil _ _)

@[simp] theorem hasNoRequestAccess_addKey
    (plan : RequestAccessPlan)
    (key : Text)
    (part : KeyedPart) :
    (plan.addKey key part).hasNoRequestAccess = false := by
  have filled := fun keys => List.isEmpty_eq_false_iff.mpr (addMember_ne_nil keys key)
  cases part <;> simp [addKey, hasNoRequestAccess, filled]

@[simp] theorem hasNoRequestAccess_markKeyed
    (plan : RequestAccessPlan) :
    plan.markKeyed.hasNoRequestAccess = false := by
  simp [markKeyed, hasNoRequestAccess]

@[simp] theorem hasNoRequestAccess_markAll
    (plan : RequestAccessPlan) :
    plan.markAll.hasNoRequestAccess = false := by
  simp [markAll, hasNoRequestAccess]

end RequestAccessPlan

/-! ## The syntax tree -/

def functionTypes : List Text :=
  [text "ArrowFunctionExpression", text "FunctionExpression", text "FunctionDeclaration"]

/-- The name that the first parameter of a function gives. -/
def reqParamName (node : Node) : Option Text :=
  if node.type ∈ functionTypes then
    match node.firstChild (text "params") with
    | some first =>
        if first.type = text "Identifier" then first.textField (text "name")
        else if first.type = text "ObjectPattern" then some (text "__destructured__")
        else none
    | none => none
  else
    none

/-- `findReqParamNames`. -/
def findReqParamNames (visits : List Visit) : List Text :=
  (visits.filterMap fun visit => reqParamName visit.node).foldl addMember []

def isReqIdentifier (reqNames : List Text) (node : Option Node) : Bool :=
  node.any fun node =>
    node.type = text "Identifier" && (node.textField (text "name")).any reqNames.contains

/-- A static property name; none when the member is computed, and none for the
empty name, which is not truthy. -/
def memberPropName (node : Node) : Option Text :=
  let name :=
    match node.child (text "property") with
    | none => none
    | some property =>
        if (node.field (text "computed")).any Field.isTruthy then
          if property.type = text "Literal" then property.textField (text "value") else none
        else
          if property.type = text "Identifier" then property.textField (text "name") else none
  name.filter fun name => name ≠ []

/-- What a property of a destructuring pattern marks. -/
def markDestructured (plan : RequestAccessPlan) (property : Node) : RequestAccessPlan :=
  let named :=
    match property.child (text "key") with
    | none => none
    | some key => key.field (text "name") <|> key.field (text "value")
  match named.filter Field.isTruthy with
  | none => plan.markKeyed
  | some (.text key) =>
      if key = text "method" then { plan with method := true }
      else if key = text "path" then { plan with path := true }
      else if key = text "url" then { plan with url := true }
      else if key = text "params" then plan.markFull .params
      else if key = text "query" then plan.markFull .query
      else if key = text "headers" then plan.markFull .headers
      else plan
  | some _ => plan

def markSubAccess (plan : RequestAccessPlan) (visit : Visit) (part : KeyedPart) :
    RequestAccessPlan :=
  match visit.parent with
  | none => plan.markFull part
  | some (field, parent) =>
      if parent.type = text "MemberExpression" ∧ field = text "object" then
        match memberPropName parent with
        | some key => plan.addKey (part.transform key) part
        | none => plan.markFull part
      else
        plan.markFull part

/-- The first argument of a call, when it is a string literal. -/
def stringArgument (call : Node) : Option Text :=
  match call.firstChild (text "arguments") with
  | none => none
  | some argument =>
      if argument.type = text "Literal" then argument.textField (text "value") else none

def markCallArg (plan : RequestAccessPlan) (visit : Visit) : RequestAccessPlan :=
  match visit.parent with
  | none => plan.markFull .headers
  | some (field, parent) =>
      if parent.type = text "CallExpression" ∧ field = text "callee" then
        match stringArgument parent with
        | some name => plan.addKey (toLowerCase name) .headers
        | none => plan.markFull .headers
      else
        plan.markFull .headers

/-- What a member of the request marks. -/
def markMember (plan : RequestAccessPlan) (visit : Visit) : RequestAccessPlan :=
  match memberPropName visit.node with
  | none => plan.markAll
  | some name =>
      if name = text "method" then { plan with method := true }
      else if name = text "path" then { plan with path := true }
      else if name = text "url" then { plan with url := true }
      else if name = text "params" then markSubAccess plan visit .params
      else if name = text "query" then markSubAccess plan visit .query
      else if name = text "headers" then markSubAccess plan visit .headers
      else if name = text "header" then markCallArg plan visit
      else plan

/-- The properties that a variable takes from the request. -/
def destructuredProperties (reqNames : List Text) (node : Node) : Option (List Node) :=
  if node.type = text "VariableDeclarator" then
    match node.child (text "id") with
    | none => none
    | some id =>
        if id.type = text "ObjectPattern" ∧ isReqIdentifier reqNames (node.child (text "init")) then
          some (id.children (text "properties"))
        else
          none
  else
    none

def isReqMember (reqNames : List Text) (node : Node) : Bool :=
  node.type = text "MemberExpression" && isReqIdentifier reqNames (node.child (text "object"))

/-- The visitor of the analysis. -/
def markVisit (reqNames : List Text) (plan : RequestAccessPlan) (visit : Visit) :
    RequestAccessPlan :=
  match destructuredProperties reqNames visit.node with
  | some properties => properties.foldl markDestructured plan
  | none => if isReqMember reqNames visit.node then markMember plan visit else plan

/-- `analyzeRequestAccessAST` on the tree of a source. -/
def analyzeRequestAccessAst (ast : Node) : RequestAccessPlan :=
  let visits := ast.visits none
  let reqNames := findReqParamNames visits
  if reqNames = [] then
    emptyAccessPlan
  else
    visits.foldl (markVisit reqNames) emptyAccessPlan

/-! ## What the tree walk sees -/

/-- A property of a destructuring pattern that is marked: one with no name, and
one of the six parts. -/
def seesProperty (property : Node) : Bool :=
  !(markDestructured emptyAccessPlan property).hasNoRequestAccess

/-- The members that are marked. -/
def seenMembers : List Text :=
  [text "method", text "path", text "url", text "params", text "query", text "headers",
    text "header"]

/-- Whether a visit marks anything. -/
def seesRequest (reqNames : List Text) (visit : Visit) : Bool :=
  match destructuredProperties reqNames visit.node with
  | some properties => properties.any seesProperty
  | none =>
      isReqMember reqNames visit.node && (memberPropName visit.node).all seenMembers.contains

section Walk

open RequestAccessPlan

theorem hasNoRequestAccess_markDestructured
    (plan : RequestAccessPlan)
    (property : Node) :
    (markDestructured plan property).hasNoRequestAccess =
      (plan.hasNoRequestAccess && !seesProperty property) := by
  unfold seesProperty markDestructured
  dsimp only
  cases (match property.child (text "key") with
    | none => none
    | some key => key.field (text "name") <|> key.field (text "value")).filter Field.isTruthy with
  | none => simp
  | some field =>
      cases field with
      | text key =>
          dsimp only
          split_ifs <;> simp [hasNoRequestAccess, emptyAccessPlan, markFull]
      | node child => simp [hasNoRequestAccess, emptyAccessPlan]
      | nodes children => simp [hasNoRequestAccess, emptyAccessPlan]
      | bool value => simp [hasNoRequestAccess, emptyAccessPlan]
      | other isTruthy => simp [hasNoRequestAccess, emptyAccessPlan]

theorem hasNoRequestAccess_markSubAccess
    (plan : RequestAccessPlan)
    (visit : Visit)
    (part : KeyedPart) :
    (markSubAccess plan visit part).hasNoRequestAccess = false := by
  unfold markSubAccess
  cases visit.parent with
  | none => exact hasNoRequestAccess_markFull plan part
  | some place =>
      dsimp only
      split
      · cases memberPropName place.2 with
        | none => exact hasNoRequestAccess_markFull plan part
        | some key => exact hasNoRequestAccess_addKey plan _ part
      · exact hasNoRequestAccess_markFull plan part

theorem hasNoRequestAccess_markCallArg
    (plan : RequestAccessPlan)
    (visit : Visit) :
    (markCallArg plan visit).hasNoRequestAccess = false := by
  unfold markCallArg
  cases visit.parent with
  | none => exact hasNoRequestAccess_markFull plan .headers
  | some place =>
      dsimp only
      split
      · cases stringArgument place.2 with
        | none => exact hasNoRequestAccess_markFull plan .headers
        | some name => exact hasNoRequestAccess_addKey plan _ .headers
      · exact hasNoRequestAccess_markFull plan .headers

theorem hasNoRequestAccess_markMember
    (plan : RequestAccessPlan)
    (visit : Visit) :
    (markMember plan visit).hasNoRequestAccess =
      (plan.hasNoRequestAccess && !(memberPropName visit.node).all seenMembers.contains) := by
  unfold markMember
  cases memberPropName visit.node with
  | none => rw [Option.all_none, Bool.not_true, Bool.and_false]; exact hasNoRequestAccess_markAll plan
  | some name =>
      dsimp only
      rw [Option.all_some]
      split_ifs with isMethod isPath isUrl isParams isQuery isHeaders isHeader
      · subst isMethod
        simp [hasNoRequestAccess, seenMembers]
      · subst isPath
        simp [hasNoRequestAccess, seenMembers]
      · subst isUrl
        simp [hasNoRequestAccess, seenMembers]
      · subst isParams
        simp [hasNoRequestAccess_markSubAccess, seenMembers]
      · subst isQuery
        simp [hasNoRequestAccess_markSubAccess, seenMembers]
      · subst isHeaders
        simp [hasNoRequestAccess_markSubAccess, seenMembers]
      · subst isHeader
        simp [hasNoRequestAccess_markCallArg, seenMembers]
      · have unseen : name ∉ seenMembers := by
          simp [seenMembers, isMethod, isPath, isUrl, isParams, isQuery, isHeaders, isHeader]
        simp [unseen]

theorem hasNoRequestAccess_markVisit
    (reqNames : List Text)
    (plan : RequestAccessPlan)
    (visit : Visit) :
    (markVisit reqNames plan visit).hasNoRequestAccess =
      (plan.hasNoRequestAccess && !seesRequest reqNames visit) := by
  unfold markVisit seesRequest
  cases destructuredProperties reqNames visit.node with
  | some properties =>
      dsimp only
      rw [SyntaxTree.isClear_foldl hasNoRequestAccess_markDestructured, List.not_any_eq_all_not]
  | none =>
      dsimp only
      split
      · rename_i member
        rw [hasNoRequestAccess_markMember, member, Bool.true_and]
      · rename_i other
        rw [Bool.eq_false_of_not_eq_true other, Bool.false_and, Bool.not_false, Bool.and_true]

theorem seesRequest_nil
    (visit : Visit) :
    seesRequest [] visit = false := by
  have nobody : ∀ node, isReqIdentifier [] node = false := by
    intro node
    cases node with
    | none => rfl
    | some node =>
        rw [isReqIdentifier, Option.any_some]
        cases node.textField (text "name") <;> simp
  have nothing : destructuredProperties [] visit.node = none := by
    unfold destructuredProperties
    cases visit.node.child (text "id") <;> simp [nobody]
  rw [seesRequest, nothing, isReqMember, nobody]
  simp

/-- The analysis leaves the plan empty exactly for the trees in which no visit
marks anything. -/
theorem hasNoRequestAccess_analyzeRequestAccessAst
    (ast : Node) :
    (analyzeRequestAccessAst ast).hasNoRequestAccess =
      (ast.visits none).all fun visit =>
        !seesRequest (findReqParamNames (ast.visits none)) visit := by
  unfold analyzeRequestAccessAst
  dsimp only
  split
  · rename_i nobody
    rw [nobody, eq_comm, List.all_eq_true.mpr]
    · rfl
    · intro visit _
      rw [seesRequest_nil, Bool.not_false]
  · exact SyntaxTree.isClear_foldl (hasNoRequestAccess_markVisit _) _ _

end Walk

/-! ## The patterns -/

/-- `\w`. -/
def isWordChar (char : Char) : Bool :=
  char.isAlphanum || char = '_'

def isNameStart (char : Char) : Bool :=
  char.isAlpha || char = '_' || char = '$'

/-- `[\w$]`. -/
def isNamePart (char : Char) : Bool :=
  isWordChar char || char = '$'

def isQuote (char : Char) : Bool :=
  (text "'\"").contains char

/-- `\b` between two characters, or at an end of the text. -/
def isBoundary (before after : Option Char) : Bool :=
  before.any isWordChar != after.any isWordChar

/-- A pattern that begins at a word, tried at every place of a text. -/
def testPattern (accepts : Text → Bool) : Option Char → Text → Bool
  | _, [] => false
  | before, char :: rest =>
      (isBoundary before (some char) && accepts (char :: rest)) ||
        testPattern accepts (some char) rest

/-- The first groups of the matches of a pattern that begins at a word, each
search going on behind the match before. `skip` counts what is left of it. -/
def matchAll (find : Text → Option (Text × Nat)) : Nat → Option Char → Text → List Text
  | _, _, [] => []
  | skip + 1, _, char :: rest => matchAll find skip (some char) rest
  | 0, before, char :: rest =>
      match if isBoundary before (some char) then find (char :: rest) else none with
      | some (key, length) => key :: matchAll find (length - 1) (some char) rest
      | none => matchAll find 0 (some char) rest

/-- A name and a boundary behind it: the longest part of the name that has one. -/
def nameAtBoundary (input : Text) : Option Text :=
  let name := input.takeWhile isNamePart
  if name.head?.any isNameStart then
    ((List.range name.length).reverse.find? fun index =>
      isBoundary input[index]? input[index + 1]?).map fun index => input.take (index + 1)
  else
    none

/-- A quoted key and what closes it. -/
def quotedKey (closing : Char) : Text → Option Text
  | [] => none
  | quote :: rest =>
      let key := rest.takeWhile fun char => !isQuote char && char ≠ '\\'
      if isQuote quote && !key.isEmpty && [quote, closing].isPrefixOf (rest.drop key.length) then
        some key
      else
        none

/-- `\breq\.part\.(name)\b`. -/
def dotKey (part : KeyedPart) (input : Text) : Option (Text × Nat) :=
  let front := text "req." ++ part.name ++ text "."
  (Json.stripPrefix front input).bind fun rest =>
    (nameAtBoundary rest).map fun key => (key, front.length + key.length)

/-- `\breq\.part\[(quote)(key)quote\]`, and `\breq\.header\((quote)(key)quote\)`. -/
def keyAfter (front : Text) (closing : Char) (input : Text) : Option (Text × Nat) :=
  (Json.stripPrefix front input).bind fun rest =>
    (quotedKey closing rest).map fun key => (key, front.length + key.length + 3)

def bracketKey (part : KeyedPart) : Text → Option (Text × Nat) :=
  keyAfter (text "req." ++ part.name ++ text "[") ']'

def headerCallKey : Text → Option (Text × Nat) :=
  keyAfter (text "req.header(") ')'

/-- A word and a boundary behind it. -/
def isWholeWord (word : Text) (input : Text) : Bool :=
  match Json.stripPrefix word input with
  | some rest => isBoundary word.getLast? rest.head?
  | none => false

/-- `\breq\.part\b(?!\s*(?:\.|\[))`. -/
def isFullAccess (part : KeyedPart) (input : Text) : Bool :=
  isWholeWord (text "req." ++ part.name) input &&
    match Json.stripPrefix (text "req." ++ part.name) input with
    | some rest => !(rest.dropWhile Text.isSpace).head?.any (text ".[").contains
    | none => false

/-- A text that is followed by no quote. -/
def isUnquoted (front : Text) (input : Text) : Bool :=
  match Json.stripPrefix front input with
  | some rest => !rest.head?.any isQuote
  | none => false

def isDynamicBracket (part : KeyedPart) : Text → Bool :=
  isUnquoted (text "req." ++ part.name ++ text "[")

/-- `REQ_BRACKET_STR_RE` and `REQ_BRACKET_DYN_RE`. -/
def isReqBracket (input : Text) : Bool :=
  match (Json.stripPrefix (text "req") input).map (List.dropWhile Text.isSpace) with
  | some ('[' :: rest) => (quotedKey ']' rest).isSome || !rest.head?.any isQuote
  | _ => false

/-- The pattern of a variable that takes `req` apart: braces, an equals sign and the
word. -/
def takesReqApart : Text → Bool
  | [] => false
  | char :: rest =>
      (char = '\x7b' &&
        match rest.dropWhile (· ≠ '\x7d') with
        | _ :: rest =>
            match rest.dropWhile Text.isSpace with
            | '=' :: rest => isWholeWord (text "req") (rest.dropWhile Text.isSpace)
            | _ => false
        | [] => false) || takesReqApart rest

def collectMatches
    (source : Text)
    (find : Text → Option (Text × Nat))
    (part : KeyedPart)
    (plan : RequestAccessPlan) :
    RequestAccessPlan :=
  (matchAll find 0 none source).foldl (fun plan key => plan.addKey (part.transform key) part) plan

/-- `analyzeRequestAccessRegex`. -/
def analyzeRequestAccessRegex (source : Text) : RequestAccessPlan :=
  let tests := fun accepts => testPattern accepts none source
  let plan :=
    { emptyAccessPlan with
      method := tests (isWholeWord (text "req.method"))
      path := tests (isWholeWord (text "req.path"))
      url := tests (isWholeWord (text "req.url")) }
  let plan := if takesReqApart source then plan.markAll else plan
  let plan := [KeyedPart.params, .query, .headers].foldl (fun plan part =>
    collectMatches source (bracketKey part) part (collectMatches source (dotKey part) part plan)) plan
  let plan := collectMatches source headerCallKey .headers plan
  let plan := [KeyedPart.params, .query, .headers].foldl (fun plan part =>
    if tests (isFullAccess part) || tests (isDynamicBracket part) then plan.markFull part
    else plan) plan
  let plan := if tests isReqBracket then plan.markAll else plan
  if tests (isUnquoted (text "req.header(")) then plan.markFull .headers else plan

/-- `analyzeRequestAccess`; the parser is given the source in parentheses. -/
def analyzeRequestAccess (acornParse : Text → Option Node) (source : Text) : RequestAccessPlan :=
  match acornParse (text "(" ++ source ++ text ")") with
  | some ast => analyzeRequestAccessAst ast
  | none => analyzeRequestAccessRegex source

/-! ## Merging -/

def mergeTwo (merged plan : RequestAccessPlan) : RequestAccessPlan where
  method := merged.method || plan.method
  path := merged.path || plan.path
  url := merged.url || plan.url
  fullParams := merged.fullParams || plan.fullParams
  fullQuery := merged.fullQuery || plan.fullQuery
  fullHeaders := merged.fullHeaders || plan.fullHeaders
  paramKeys := plan.paramKeys.foldl addMember merged.paramKeys
  queryKeys := plan.queryKeys.foldl addMember merged.queryKeys
  headerKeys := plan.headerKeys.foldl addMember merged.headerKeys

def mergeRequestAccessPlans (plans : List RequestAccessPlan) : RequestAccessPlan :=
  plans.foldl mergeTwo emptyAccessPlan

theorem isEmpty_foldl_addMember
    (keys more : List Text) :
    (more.foldl addMember keys).isEmpty = (keys.isEmpty && more.isEmpty) := by
  induction more generalizing keys with
  | nil => rw [List.foldl_nil, List.isEmpty_nil, Bool.and_true]
  | cons key rest hypothesis =>
      rw [List.foldl_cons, hypothesis,
        List.isEmpty_eq_false_iff.mpr (RequestAccessPlan.addMember_ne_nil keys key)]
      simp

theorem hasNoRequestAccess_mergeTwo
    (merged plan : RequestAccessPlan) :
    (mergeTwo merged plan).hasNoRequestAccess =
      (merged.hasNoRequestAccess && plan.hasNoRequestAccess) := by
  simp only [RequestAccessPlan.hasNoRequestAccess, mergeTwo, isEmpty_foldl_addMember,
    Bool.not_or]
  ac_rfl

/-- A merged plan is empty exactly when every plan is. -/
theorem hasNoRequestAccess_mergeRequestAccessPlans
    (plans : List RequestAccessPlan) :
    (mergeRequestAccessPlans plans).hasNoRequestAccess =
      plans.all RequestAccessPlan.hasNoRequestAccess := by
  exact (SyntaxTree.isClear_foldl hasNoRequestAccess_mergeTwo emptyAccessPlan plans).trans
    (Bool.true_and _)

end Bridge
end HttpNative
