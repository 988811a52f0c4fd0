import HttpNative.Dev.CommentWriter

/-!
# Statuses in a block

The writer keeps the statuses of a route nowhere but in the block above it. They are read
back from there as they were written, and the block is found by the lines above the route.
-/

namespace HttpNative
namespace DevComments

/-! ## Blanks around a status -/

theorem trim_append_blank
    {before after : Text}
    (blankBefore : ∀ char ∈ before, Text.isSpace char = true)
    (blankAfter : ∀ char ∈ after, Text.isSpace char = true)
    (core : Text) :
    Text.trim (before ++ core ++ after) = Text.trim core := by
  rw [Text.trim, Text.trim, Text.trimWith, Text.trimWith, List.append_assoc,
    List.dropWhile_append_of_pos blankBefore]
  cases solid : core.dropWhile Text.isSpace with
  | nil =>
      have blank : ∀ char ∈ core ++ after, Text.isSpace char = true :=
        List.forall_mem_append.mpr ⟨List.dropWhile_eq_nil_iff.mp solid, blankAfter⟩
      rw [List.dropWhile_eq_nil_iff.mpr blank]
  | cons first rest =>
      rw [List.dropWhile_append, solid, if_neg (by simp), List.rdropWhile, List.reverse_append,
        List.dropWhile_append_of_pos (by simpa using blankAfter)]
      rfl

/-- A status as the writer gets it. -/
structure IsStatus (status : Text) : Prop where
  trimmed : Text.trim status = status
  notEmpty : status.isEmpty = false

theorem splitStatuses_intercalate
    (statuses : List Text)
    (areStatuses : ∀ status ∈ statuses, IsStatus status)
    (noBars : ∀ status ∈ statuses, '|' ∉ status) :
    splitStatuses (' ' :: List.intercalate (text " | ") statuses) = statuses := by
  have blank : ∀ char ∈ text " ", Text.isSpace char = true :=
    List.forall_mem_singleton.mpr (by decide)
  induction statuses with
  | nil => decide
  | cons status rest hypothesis =>
      obtain ⟨isStatus, restAre⟩ := List.forall_mem_cons.mp areStatuses
      obtain ⟨statusNoBar, restNoBars⟩ := List.forall_mem_cons.mp noBars
      have solid : (!status.isEmpty) = true := by rw [isStatus.notEmpty]; rfl
      cases rest with
      | nil =>
          have noBar : '|' ∉ ' ' :: status := by simp [statusNoBar]
          have trimmed := @trim_append_blank (text " ") [] blank nofun status
          rw [List.append_nil, isStatus.trimmed] at trimmed
          rw [List.intercalate_singleton, splitStatuses, List.splitOn_eq_singleton noBar,
            List.map_singleton, show Text.trim (' ' :: status) = status from trimmed]
          simp [solid]
      | cons next others =>
          have noBar : '|' ∉ text " " ++ status ++ text " " := by
            simp [text, statusNoBar]
          have spelled : ' ' :: List.intercalate (text " | ") (status :: next :: others) =
              (text " " ++ status ++ text " ") ++
                '|' :: (' ' :: List.intercalate (text " | ") (next :: others)) := by
            rw [List.intercalate_cons_cons]
            simp [text]
          have trimmed := trim_append_blank blank blank status
          rw [isStatus.trimmed] at trimmed
          rw [spelled, splitStatuses, List.splitOn_append_cons_self_of_not_mem noBar,
            List.map_cons, trimmed]
          refine (List.filter_cons_of_pos (p := fun status => !List.isEmpty status) solid).trans ?_
          exact congrArg (status :: ·) (hypothesis restAre restNoBars)

/-! ## Reading statuses back -/

section Reading

variable {indent : Text}

theorem afterFirst_append
    {first : Char} {rest before : Text}
    (absent : first ∉ before)
    (after : Text) :
    afterFirst (first :: rest) (before ++ (first :: rest) ++ after) = some after := by
  induction before with
  | nil =>
      have here : (first :: rest).isPrefixOf (first :: (rest ++ after)) = true :=
        List.isPrefixOf_iff_prefix.mpr ⟨after, rfl⟩
      have others : ((first :: rest) ++ after).drop (first :: rest).length = after := List.drop_left
      rw [List.nil_append, List.cons_append, afterFirst, if_pos here]
      exact congrArg some others
  | cons char before hypothesis =>
      obtain ⟨other, others⟩ := not_or.mp (fun found => absent (List.mem_cons.mpr found))
      have notHere : ¬ (first :: rest).isPrefixOf (char :: (before ++ (first :: rest) ++ after)) := by
        intro found
        exact other (List.cons_prefix_cons.mp (List.isPrefixOf_iff_prefix.mp found)).1
      rw [List.cons_append, List.cons_append, afterFirst, if_neg notHere]
      exact hypothesis others

theorem not_mem_of_blank
    (blank : ∀ char ∈ indent, Text.isSpace char = true)
    {solid : Char}
    (isSolid : Text.isSpace solid = false) :
    solid ∉ indent := by
  intro member
  rw [blank solid member] at isSolid
  cases isSolid

/-- Behind characters that cannot begin the text, it is found as without these. -/
theorem includesText_append
    {first : Char} {rest before : Text}
    (absent : first ∉ before)
    (after : Text) :
    Text.includesText (first :: rest) (before ++ after) = Text.includesText (first :: rest) after := by
  induction before with
  | nil => rfl
  | cons char before hypothesis =>
      obtain ⟨other, others⟩ := not_or.mp (fun found => absent (List.mem_cons.mpr found))
      have notHere : (first :: rest).isPrefixOf (char :: (before ++ after)) = false := by
        refine Bool.eq_false_iff.mpr fun found => ?_
        exact other (List.cons_prefix_cons.mp (List.isPrefixOf_iff_prefix.mp found)).1
      rw [List.cons_append, Text.includesText, notHere, Bool.false_or]
      exact hypothesis others

theorem not_mentionsPrefix_first
    (blank : ∀ char ∈ indent, Text.isSpace char = true) :
    mentionsPrefix (indent ++ text "/** [Auto generated by http-native]") = false := by
  have absent : '[' ∉ indent := not_mem_of_blank blank (by decide)
  exact (includesText_append absent _).trans (by decide)

theorem parseStatusesFromLines_block
    (blank : ∀ char ∈ indent, Text.isSpace char = true)
    (statuses : List Text)
    (areStatuses : ∀ status ∈ dedupeStatuses statuses, IsStatus status)
    (noBars : ∀ status ∈ dedupeStatuses statuses, '|' ∉ status) :
    parseStatusesFromLines (buildOptimizationBlock indent statuses) = dedupeStatuses statuses := by
  have absent : '[' ∉ indent ++ text " * " := by
    have notInIndent : '[' ∉ indent := not_mem_of_blank blank (by decide)
    simp [notInIndent, text]
  have found : (buildOptimizationBlock indent statuses).find? mentionsPrefix =
      some (statusLine indent (dedupeStatuses statuses)) := by
    rw [buildOptimizationBlock, List.find?_cons_of_neg (by simp [not_mentionsPrefix_first blank])]
    exact List.find?_cons_of_pos (mentionsPrefix_statusLine indent (dedupeStatuses statuses))
  have after : afterFirst commentPrefix (statusLine indent (dedupeStatuses statuses)) =
      some (' ' :: List.intercalate (text " | ") (dedupeStatuses statuses)) := by
    rw [statusLine, List.append_assoc]
    exact afterFirst_append absent _
  rw [parseStatusesFromLines, found]
  change splitStatuses ((afterFirst commentPrefix _).getD []) = _
  rw [after]
  exact splitStatuses_intercalate _ areStatuses noBars

end Reading

/-! ## Finding a block -/

section Finding

/-- A block right above a line is found. -/
theorem findExistingOptimizationBlock_append
    {indent : Text}
    (blank : ∀ char ∈ indent, Text.isSpace char = true)
    (front after : List Text)
    (statuses : List Text) :
    findExistingOptimizationBlock (front ++ (buildOptimizationBlock indent statuses ++ after))
        (front.length + 4) =
      some
        { startIndex := front.length
          endIndex := front.length + 3
          statuses := parseStatusesFromLines (buildOptimizationBlock indent statuses) } := by
  have mentioned := any_mentionsPrefix _ ⟨indent, statuses, blank, rfl⟩
  obtain ⟨first, description, last, same, isFirst, isStatus, isDescription, isLast⟩ :=
    exists_lines_of_block blank statuses
  have above : ((front ++ (buildOptimizationBlock indent statuses ++ after)).take
      (front.length + 4)).reverse =
        last :: description :: statusLine indent (dedupeStatuses statuses) :: first ::
          front.reverse := by
    rw [List.take_length_add_append, same]
    simp
  have inside : ((front ++ (buildOptimizationBlock indent statuses ++ after)).take
      (front.length + 4)).drop front.length = buildOptimizationBlock indent statuses := by
    rw [List.take_length_add_append, List.drop_left]
    rfl
  have notBlank : isBlankLine last = false := by
    rw [isBlankLine, beq_iff_eq.mp isLast.2.1]
    rfl
  unfold findExistingOptimizationBlock
  simp only [above, List.takeWhile_cons, notBlank, Bool.false_eq_true, if_false, List.length_nil,
    List.drop_zero, isLast.2.1, if_true, List.findIdx?_cons, isLast.1, isDescription.1, isStatus.1,
    isFirst.1, Option.map_some, Nat.sub_zero, Nat.zero_add]
  rw [show front.length + 4 - 1 - (1 + 1 + 1) = front.length by omega,
    show front.length + 4 - 1 + 1 = front.length + 4 by omega, inside, mentioned]
  rfl

/-- No block is found where the first line above that is not blank does not close. -/
theorem findExistingOptimizationBlock_eq_none
    {lines : List Text} {targetIndex : Nat}
    (open_ : ∀ line further, (lines.take targetIndex).reverse.dropWhile isBlankLine = line :: further →
      closesBlock line = false) :
    findExistingOptimizationBlock lines targetIndex = none := by
  have skipped : (lines.take targetIndex).reverse.drop
      ((lines.take targetIndex).reverse.takeWhile isBlankLine).length =
        (lines.take targetIndex).reverse.dropWhile isBlankLine := by
    have whole := @List.takeWhile_append_dropWhile _ isBlankLine (lines.take targetIndex).reverse
    have left := congrArg (List.drop
      ((lines.take targetIndex).reverse.takeWhile isBlankLine).length) whole
    rw [List.drop_left] at left
    exact left.symm
  unfold findExistingOptimizationBlock
  simp only [skipped]
  split
  case h_1 => rfl
  case h_2 line further same => rw [open_ line further same, if_neg Bool.false_ne_true]

/-- The line of a comment of one line is one. -/
theorem parseSingleLineComment_eq_none
    {indent line : Text}
    (blank : ∀ char ∈ indent, Text.isSpace char = true)
    (noComment : isSingleComment line = false) :
    parseSingleLineComment (some line) indent = none := by
  refine if_neg fun found => ?_
  obtain ⟨rest, rfl⟩ := List.isPrefixOf_iff_prefix.mp found
  have trimmed := trim_indented blank (show Text.isSpace '/' = false by decide)
    (text "/ [http-native optimization" ++ ']' :: rest)
  rw [Text.rdropWhile_append_cons (by decide)] at trimmed
  have start : text "// " ++ commentPrefix =
      '/' :: (text "/ [http-native optimization" ++ [']']) := by decide
  have spelled : indent ++ text "// " ++ commentPrefix ++ rest =
      indent ++ '/' :: (text "/ [http-native optimization" ++ ']' :: rest) := by
    rw [List.append_assoc indent, start]
    simp only [List.append_assoc, List.cons_append, List.nil_append]
  have mentioned : commentPrefix <:+:
      '/' :: (text "/ [http-native optimization" ++ ']' :: rest.rdropWhile Text.isSpace) := by
    refine ⟨text "// ", rest.rdropWhile Text.isSpace, ?_⟩
    rw [start]
    simp only [List.append_assoc, List.cons_append, List.nil_append]
  rw [isSingleComment, spelled, trimmed] at noComment
  refine Bool.false_ne_true (noComment.symm.trans (Bool.and_eq_true_iff.mpr ⟨?_, ?_⟩))
  · exact List.isPrefixOf_iff_prefix.mpr
      ⟨text " [http-native optimization" ++ ']' :: rest.rdropWhile Text.isSpace, rfl⟩
  · exact (Text.includesText_iff _ _).mpr mentioned

end Finding

end DevComments
end HttpNative
