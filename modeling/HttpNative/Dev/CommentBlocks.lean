import HttpNative.Library.GeneratedBlocks
import HttpNative.Library.TextLines

/-!
# Comments of the dev server

Above a route that is optimized, a block of four lines tells how. The block is found
again by the lines that open and close it, and by a mention in between; its statuses are
read back from the line of the mention.
-/

namespace HttpNative
namespace DevComments

/-- `COMMENT_PREFIX` -/
def commentPrefix : Text := text "[http-native optimization]"

/-- `STATUS_DESCRIPTIONS` -/
def statusDescriptions : List (Text × Text) :=
  [(text "static-fast-path",
      text "This route is served by the static fast path and avoids generic bridge dispatch."),
    (text "native-cache",
      text "This route is cached natively in Rust after the first response. Subsequent requests are served directly from native memory until the TTL expires."),
    (text "bridge-dispatch",
      text "This route currently runs through bridge dispatch because it depends on runtime request data."),
    (text "runtime-cache-tracking",
      text "Runtime stability is being tracked to determine whether response caching is safe."),
    (text "runtime-cache-promoted",
      text "This route has been promoted to runtime response cache after stable output was observed.")]

/-- The methods that every object has from `Object.prototype`. -/
def inheritedMethods : List Text :=
  [text "hasOwnProperty", text "isPrototypeOf", text "propertyIsEnumerable",
    text "toLocaleString", text "toString", text "valueOf", text "__defineGetter__",
    text "__defineSetter__", text "__lookupGetter__", text "__lookupSetter__"]

/-- What the table gives under a name that it has from `Object.prototype`, as a string. -/
def inheritedDescription (status : Text) : Option Text :=
  if status = text "__proto__" then some (text "[object Object]")
  else if status = text "constructor" then some (text "function Object() \x7b [native code] \x7d")
  else if inheritedMethods.contains status then
    some (text "function " ++ status ++ text "() \x7b [native code] \x7d")
  else none

def describeStatus (status : Text) : Text :=
  ((statusDescriptions.lookup status) <|> inheritedDescription status).getD
    (text "Status '" ++ status ++ text "' is active for this route.")

def isBlankLine (line : Text) : Bool :=
  (Text.trim line).isEmpty

/-- `trim().startsWith("/**")` -/
def opensBlock (line : Text) : Bool :=
  (text "/**").isPrefixOf (Text.trim line)

/-- `trim() === "*/"` -/
def closesBlock (line : Text) : Bool :=
  Text.trim line == text "*/"

def mentionsPrefix (line : Text) : Bool :=
  Text.includesText commentPrefix line

/-- A comment of one line, as former versions wrote it. -/
def isSingleComment (line : Text) : Bool :=
  (text "//").isPrefixOf (Text.trim line) && Text.includesText commentPrefix (Text.trim line)

/-! ## Statuses -/

/-- `split("|")`, trimmed, without what is empty. -/
def splitStatuses (input : Text) : List Text :=
  ((input.splitOn '|').map Text.trim).filter fun status => !status.isEmpty

/-- What follows the first place where a text stands. -/
def afterFirst (needle : Text) : Text → Option Text
  | [] => if needle.isEmpty then some [] else none
  | char :: rest =>
      if needle.isPrefixOf (char :: rest) then some ((char :: rest).drop needle.length)
      else afterFirst needle rest

def parseStatusesFromLines (lines : List Text) : List Text :=
  match lines.find? mentionsPrefix with
  | none => []
  | some line => splitStatuses ((afterFirst commentPrefix line).getD [])

def mergeStatuses (existingStatuses : List Text) (status : Text) : List Text :=
  if existingStatuses.contains status then existingStatuses else existingStatuses ++ [status]

/-! ## Blocks -/

/-- `[...new Set(statuses)]`, trimmed, without what is empty. -/
def dedupeStatuses (statuses : List Text) : List Text :=
  ((statuses.map Text.trim).filter fun status => !status.isEmpty).eraseDups

def buildOptimizationBlock (indent : Text) (statuses : List Text) : List Text :=
  let deduped := dedupeStatuses statuses
  [indent ++ text "/** [Auto generated by http-native]",
    indent ++ text " * " ++ commentPrefix ++ text " " ++ List.intercalate (text " | ") deduped,
    indent ++ text " * " ++ List.intercalate (text " ") (deduped.map describeStatus),
    indent ++ text " */"]

/-- `line.match(/^\s*/)?.[0]` -/
def indentOf (line : Text) : Text :=
  line.takeWhile Text.isSpace

structure ExistingBlock where
  startIndex : Nat
  endIndex : Nat
  statuses : List Text
deriving DecidableEq

/-- The cursor goes up over blank lines to one that closes a block, and on to one that
opens a block. -/
def findExistingOptimizationBlock (lines : List Text) (targetIndex : Nat) :
    Option ExistingBlock :=
  let above := (lines.take targetIndex).reverse
  let blank := (above.takeWhile isBlankLine).length
  match above.drop blank with
  | [] => none
  | line :: further =>
      if closesBlock line then
        let endIndex := targetIndex - 1 - blank
        match (line :: further).findIdx? opensBlock with
        | none => none
        | some distance =>
            let startIndex := endIndex - distance
            let blockLines := (lines.take (endIndex + 1)).drop startIndex
            if blockLines.any mentionsPrefix then
              some
                { startIndex := startIndex
                  endIndex := endIndex
                  statuses := parseStatusesFromLines blockLines }
            else
              none
      else
        none

/-- `parseSingleLineComment`, of a line that may not be there. -/
def parseSingleLineComment (line : Option Text) (indent : Text) : Option (List Text) :=
  line.bind fun line =>
    let start := indent ++ text "// " ++ commentPrefix
    if start.isPrefixOf line then some (splitStatuses (line.drop start.length)) else none

/-- `splice(start, deleteCount, ...items)` -/
def splice (lines : List Text) (start deleteCount : Nat) (items : List Text) : List Text :=
  lines.take start ++ items ++ lines.drop (start + deleteCount)

/-! ## What the lines of a block are -/

section Lines

variable {indent : Text}

/-- An indented line without its indent and the blanks at its end. -/
theorem trim_indented
    (blank : ∀ char ∈ indent, Text.isSpace char = true)
    {solid : Char}
    (isSolid : Text.isSpace solid = false)
    (rest : Text) :
    Text.trim (indent ++ solid :: rest) = solid :: rest.rdropWhile Text.isSpace := by
  have front : (indent ++ solid :: rest).dropWhile Text.isSpace = solid :: rest := by
    rw [List.dropWhile_append_of_pos blank, List.dropWhile_cons_of_neg (by simp [isSolid])]
  rw [Text.trim, Text.trimWith, front]
  exact Text.rdropWhile_append_cons isSolid [] rest

theorem isInfix_trim
    (line : Text) :
    Text.trim line <:+: line := by
  obtain ⟨before, after, same, -⟩ := Text.exists_trimWith Text.isSpace line
  exact ⟨before, after, same.symm⟩

/-- A line that goes on with a star and a blank neither opens nor closes a block. -/
theorem plain_of_star
    (blank : ∀ char ∈ indent, Text.isSpace char = true)
    (rest : Text) :
    opensBlock (indent ++ '*' :: ' ' :: rest) = false ∧
      closesBlock (indent ++ '*' :: ' ' :: rest) = false ∧
      isSingleComment (indent ++ '*' :: ' ' :: rest) = false := by
  have trimmed := trim_indented blank (show Text.isSpace '*' = false by decide) (' ' :: rest)
  refine ⟨?_, ?_, ?_⟩
  · rw [opensBlock, trimmed]
    rfl
  · rw [closesBlock, trimmed, beq_eq_false_iff_ne]
    intro same
    have start := List.rdropWhile_prefix Text.isSpace (' ' :: rest)
    rw [(List.cons.inj same).2] at start
    exact absurd (List.cons_prefix_cons.mp start).1 (by decide)
  · rw [isSingleComment, trimmed]
    rfl

theorem opensBlock_first
    (blank : ∀ char ∈ indent, Text.isSpace char = true) :
    opensBlock (indent ++ text "/** [Auto generated by http-native]") = true ∧
      closesBlock (indent ++ text "/** [Auto generated by http-native]") = false ∧
      isSingleComment (indent ++ text "/** [Auto generated by http-native]") = false := by
  have trimmed := trim_indented blank (show Text.isSpace '/' = false by decide)
    (text "** [Auto generated by http-native]")
  refine ⟨?_, ?_, ?_⟩
  · unfold opensBlock
    exact trimmed ▸ (by decide)
  · unfold closesBlock
    exact trimmed ▸ (by decide)
  · unfold isSingleComment
    exact trimmed ▸ (by decide)

theorem closesBlock_last
    (blank : ∀ char ∈ indent, Text.isSpace char = true) :
    opensBlock (indent ++ text " */") = false ∧
      closesBlock (indent ++ text " */") = true ∧
      isSingleComment (indent ++ text " */") = false := by
  have blanks : ∀ char ∈ indent ++ [' '], Text.isSpace char = true := by
    refine List.forall_mem_append.mpr ⟨blank, ?_⟩
    exact List.forall_mem_singleton.mpr (by decide)
  have trimmed := trim_indented blanks (show Text.isSpace '*' = false by decide) ['/']
  rw [List.append_assoc] at trimmed
  refine ⟨?_, ?_, ?_⟩
  · unfold opensBlock
    exact trimmed ▸ (by decide)
  · unfold closesBlock
    exact trimmed ▸ (by decide)
  · unfold isSingleComment
    exact trimmed ▸ (by decide)

end Lines

/-- A block that the writer makes, for whatever statuses. -/
def IsOptimizationBlock (block : List Text) : Prop :=
  ∃ indent statuses, (∀ char ∈ indent, Text.isSpace char = true) ∧
    block = buildOptimizationBlock indent statuses

theorem mentionsPrefix_of_append
    (before after : Text) :
    mentionsPrefix (before ++ commentPrefix ++ after) = true :=
  (Text.includesText_iff _ _).mpr ⟨before, after, rfl⟩

theorem start_eq_of_isPrefixOf
    {start input : Text} {first second : Char} {rest : Text}
    (found : start.isPrefixOf input = true)
    (startEq : start = first :: second :: rest) :
    ∃ others, input = first :: second :: others := by
  obtain ⟨others, rfl⟩ := List.isPrefixOf_iff_prefix.mp found
  exact ⟨rest ++ others, by rw [startEq]; rfl⟩

theorem not_closesBlock_of_opensBlock
    (line : Text)
    (opens : opensBlock line = true) :
    closesBlock line = false := by
  obtain ⟨others, same⟩ := start_eq_of_isPrefixOf opens rfl
  rw [closesBlock, same]
  rfl

theorem not_opensBlock_of_isSingleComment
    (line : Text)
    (comment : isSingleComment line = true) :
    opensBlock line = false := by
  obtain ⟨others, same⟩ := start_eq_of_isPrefixOf (Bool.and_eq_true_iff.mp comment).1 rfl
  rw [opensBlock, same]
  rfl

theorem not_closesBlock_of_isSingleComment
    (line : Text)
    (comment : isSingleComment line = true) :
    closesBlock line = false := by
  obtain ⟨others, same⟩ := start_eq_of_isPrefixOf (Bool.and_eq_true_iff.mp comment).1 rfl
  rw [closesBlock, same]
  rfl

theorem mentionsPrefix_of_isSingleComment
    (line : Text)
    (comment : isSingleComment line = true) :
    mentionsPrefix line = true := by
  have inside := (Text.includesText_iff _ _).mp (Bool.and_eq_true_iff.mp comment).2
  exact (Text.includesText_iff _ _).mpr (inside.trans (isInfix_trim line))

/-- The line of the mention. -/
def statusLine (indent : Text) (statuses : List Text) : Text :=
  indent ++ text " * " ++ commentPrefix ++ text " " ++ List.intercalate (text " | ") statuses

/-- A block line by line. -/
theorem exists_lines_of_block
    {indent : Text}
    (blank : ∀ char ∈ indent, Text.isSpace char = true)
    (statuses : List Text) :
    ∃ first description last,
      buildOptimizationBlock indent statuses =
        [first, statusLine indent (dedupeStatuses statuses), description, last] ∧
      (opensBlock first = true ∧ closesBlock first = false ∧ isSingleComment first = false) ∧
      (opensBlock (statusLine indent (dedupeStatuses statuses)) = false ∧
        closesBlock (statusLine indent (dedupeStatuses statuses)) = false ∧
        isSingleComment (statusLine indent (dedupeStatuses statuses)) = false) ∧
      (opensBlock description = false ∧ closesBlock description = false ∧
        isSingleComment description = false) ∧
      (opensBlock last = false ∧ closesBlock last = true ∧ isSingleComment last = false) := by
  have blanks : ∀ char ∈ indent ++ [' '], Text.isSpace char = true := by
    refine List.forall_mem_append.mpr ⟨blank, ?_⟩
    exact List.forall_mem_singleton.mpr (by decide)
  have star : ∀ rest : Text, indent ++ text " * " ++ rest = indent ++ [' '] ++ '*' :: ' ' :: rest := by
    intro rest
    rw [List.append_assoc, List.append_assoc]
    rfl
  refine ⟨_, _, _, rfl, opensBlock_first blank, ?_, ?_, closesBlock_last blank⟩
  · rw [statusLine, List.append_assoc, List.append_assoc, star]
    exact plain_of_star blanks _
  · rw [star]
    exact plain_of_star blanks _

theorem mentionsPrefix_statusLine
    (indent : Text)
    (statuses : List Text) :
    mentionsPrefix (statusLine indent statuses) = true := by
  rw [statusLine, List.append_assoc]
  exact mentionsPrefix_of_append _ _

theorem exists_of_isOptimizationBlock
    (block : List Text)
    (generated : IsOptimizationBlock block) :
    ∃ first middle last, block = first :: middle ++ [last] ∧
      opensBlock first = true ∧ (∀ line ∈ middle ++ [last], opensBlock line = false) ∧
      closesBlock last = true ∧ ∀ line ∈ first :: middle, closesBlock line = false := by
  obtain ⟨indent, statuses, blank, rfl⟩ := generated
  obtain ⟨first, description, last, same, isFirst, isStatus, isDescription, isLast⟩ :=
    exists_lines_of_block blank statuses
  refine ⟨first, [statusLine indent (dedupeStatuses statuses), description], last, same,
    isFirst.1, ?_, isLast.2.1, ?_⟩
  · simp [isStatus.1, isDescription.1, isLast.1]
  · simp [isFirst.2.1, isStatus.2.1, isDescription.2.1]

theorem any_mentionsPrefix
    (block : List Text)
    (generated : IsOptimizationBlock block) :
    block.any mentionsPrefix = true := by
  obtain ⟨indent, statuses, blank, rfl⟩ := generated
  obtain ⟨first, description, last, same, -⟩ := exists_lines_of_block blank statuses
  rw [same]
  simp [mentionsPrefix_statusLine]

theorem not_isSingleComment_of_block
    (block : List Text)
    (generated : IsOptimizationBlock block) :
    ∀ line ∈ block, isSingleComment line = false := by
  obtain ⟨indent, statuses, blank, rfl⟩ := generated
  obtain ⟨first, description, last, same, isFirst, isStatus, isDescription, isLast⟩ :=
    exists_lines_of_block blank statuses
  rw [same]
  simp [isFirst.2.2, isStatus.2.2, isDescription.2.2, isLast.2.2]

/-- The lines of a source file as the writer sees them. -/
def markup : BlockMarkup Text where
  opens := opensBlock
  closes := closesBlock
  mentions := mentionsPrefix
  isComment := isSingleComment
  IsGenerated := IsOptimizationBlock
  not_closes_of_opens := not_closesBlock_of_opensBlock
  not_opens_of_isComment := not_opensBlock_of_isSingleComment
  not_closes_of_isComment := not_closesBlock_of_isSingleComment
  mentions_of_isComment := mentionsPrefix_of_isSingleComment
  exists_of_isGenerated := exists_of_isOptimizationBlock
  any_mentions_of_isGenerated := any_mentionsPrefix
  not_isComment_of_isGenerated := not_isSingleComment_of_block

end DevComments
end HttpNative
