import HttpNative.Library.Text

/-!
# The lines of a text

A text is cut at line feeds, with or without a carriage return before them, and the
lines are joined again with one line end for all. Joined lines are cut to the same lines.
The text itself comes back if all its line ends are that one.
-/

namespace HttpNative
namespace TextLines

def lineFeed : Text := ['\n']

def carriageReturnLineFeed : Text := ['\r', '\n']

/-- The pieces between line ends. -/
def splitLines : Text → List Text
  | '\r' :: '\n' :: rest => [] :: splitLines rest
  | '\n' :: rest => [] :: splitLines rest
  | char :: rest => (splitLines rest).modifyHead (char :: ·)
  | [] => [[]]

/-- Each line with its line end; the last one has none. -/
def endedLines : Text → List (Text × Text)
  | '\r' :: '\n' :: rest => ([], carriageReturnLineFeed) :: endedLines rest
  | '\n' :: rest => ([], lineFeed) :: endedLines rest
  | char :: rest => (endedLines rest).modifyHead fun line => (char :: line.1, line.2)
  | [] => [([], [])]

/-- Put lines together; the last one loses its line end. -/
def render : List (Text × Text) → Text
  | [] => []
  | [line] => line.1
  | line :: next :: rest => line.1 ++ line.2 ++ render (next :: rest)

/-- `lines.join(eol)` -/
def joinLines (eol : Text) (lines : List Text) : Text :=
  List.intercalate eol lines

/-- The line end that a text is written back with. -/
def lineEnd (input : Text) : Text :=
  if Text.includesText carriageReturnLineFeed input then carriageReturnLineFeed else lineFeed

theorem splitLines_ne_nil (input : Text) :
    splitLines input ≠ [] := by
  fun_induction splitLines input with
  | case1 rest hypothesis => exact List.cons_ne_nil _ _
  | case2 rest hypothesis => exact List.cons_ne_nil _ _
  | case3 char rest _ _ hypothesis =>
      obtain ⟨head, tail, same⟩ := List.exists_cons_of_ne_nil hypothesis
      rw [same]
      exact List.cons_ne_nil _ _
  | case4 => exact List.cons_ne_nil _ _

theorem map_fst_endedLines (input : Text) :
    (endedLines input).map Prod.fst = splitLines input := by
  fun_induction splitLines input with
  | case1 rest hypothesis =>
      rw [endedLines, List.map_cons, hypothesis]
  | case2 rest hypothesis =>
      rw [endedLines, List.map_cons, hypothesis]
  | case3 char rest notBoth notFeed hypothesis =>
      rw [endedLines]
      · rw [← hypothesis]
        cases endedLines rest with
        | nil => rfl
        | cons head tail => rfl
      · exact notBoth
      · exact notFeed
  | case4 => rfl

theorem endedLines_ne_nil (input : Text) :
    endedLines input ≠ [] := by
  intro nothing
  have same := map_fst_endedLines input
  rw [nothing] at same
  exact splitLines_ne_nil input same.symm

theorem render_cons
    {rest : List (Text × Text)}
    (notEmpty : rest ≠ [])
    (line : Text × Text) :
    render (line :: rest) = line.1 ++ line.2 ++ render rest := by
  cases rest with
  | nil => exact absurd rfl notEmpty
  | cons next rest => rfl

/-- A text is its lines with their ends. -/
theorem render_endedLines (input : Text) :
    render (endedLines input) = input := by
  fun_induction endedLines input with
  | case1 rest hypothesis =>
      rw [render_cons (endedLines_ne_nil rest), hypothesis]
      rfl
  | case2 rest hypothesis =>
      rw [render_cons (endedLines_ne_nil rest), hypothesis]
      rfl
  | case3 char rest _ _ hypothesis =>
      obtain ⟨head, tail, same⟩ := List.exists_cons_of_ne_nil (endedLines_ne_nil rest)
      rw [same] at hypothesis ⊢
      rw [List.modifyHead_cons]
      by_cases last : tail = []
      · rw [last] at hypothesis ⊢
        exact congrArg (char :: ·) hypothesis
      · rw [render_cons last] at hypothesis ⊢
        exact congrArg (char :: ·) hypothesis
  | case4 => rfl

/-- Lines whose ends are all the same, up to the last one. -/
theorem render_eq_joinLines
    {eol : Text}
    {lines : List (Text × Text)}
    (uniform : ∀ line ∈ lines.dropLast, line.2 = eol) :
    render lines = joinLines eol (lines.map Prod.fst) := by
  induction lines with
  | nil => rfl
  | cons line rest hypothesis =>
      cases rest with
      | nil => exact (List.intercalate_singleton).symm
      | cons next rest =>
          rw [List.dropLast_cons_of_ne_nil (List.cons_ne_nil _ _), List.forall_mem_cons] at uniform
          rw [render_cons (List.cons_ne_nil _ _), hypothesis uniform.2, uniform.1, joinLines,
            joinLines, List.map_cons, List.map_cons, List.map_cons, List.intercalate_cons_cons]

/-! ## Joined lines -/

/-- Lines that can be told apart when they are joined: none has a line feed in it, and
none but the last ends as the first half of a longer line end. -/
structure Separable (eol : Text) (lines : List Text) : Prop where
  noFeed : ∀ line ∈ lines, '\n' ∉ line
  noReturn : eol = lineFeed → ∀ line ∈ lines.dropLast, line.getLast? ≠ some '\r'

theorem splitLines_cons
    {char : Char}
    {rest : Text}
    (notFeed : char ≠ '\n')
    (notReturn : char = '\r' → rest.head? ≠ some '\n') :
    splitLines (char :: rest) = (splitLines rest).modifyHead (char :: ·) := by
  rw [splitLines]
  · intro others sign same
    exact notReturn sign (by rw [same]; rfl)
  · exact notFeed

theorem splitLines_of_notMem
    {line : Text}
    (noFeed : '\n' ∉ line) :
    splitLines line = [line] := by
  induction line with
  | nil => rfl
  | cons char rest hypothesis =>
      rw [List.mem_cons, not_or] at noFeed
      rw [splitLines_cons (Ne.symm noFeed.1), hypothesis noFeed.2]
      · rfl
      · intro _ starts
        exact noFeed.2 (List.mem_of_mem_head? starts)

/-- The first line ends at the line end behind it. -/
theorem splitLines_append
    {eol line : Text}
    (isEnd : eol = lineFeed ∨ eol = carriageReturnLineFeed)
    (noFeed : '\n' ∉ line)
    (noReturn : eol = lineFeed → line.getLast? ≠ some '\r')
    (rest : Text) :
    splitLines (line ++ eol ++ rest) = line :: splitLines rest := by
  induction line with
  | nil =>
      rcases isEnd with rfl | rfl
      · rfl
      · rfl
  | cons char line hypothesis =>
      rw [List.mem_cons, not_or] at noFeed
      have restNoReturn : eol = lineFeed → line.getLast? ≠ some '\r' := by
        intro isFeed ends
        refine noReturn isFeed ?_
        rw [List.getLast?_cons, ends]
        rfl
      rw [List.cons_append, List.cons_append, splitLines_cons (Ne.symm noFeed.1),
        hypothesis noFeed.2 restNoReturn, List.modifyHead_cons]
      rintro rfl starts
      cases line with
      | nil =>
          rcases isEnd with rfl | rfl
          · exact noReturn rfl rfl
          · cases starts
      | cons next line =>
          cases starts
          exact noFeed.2 List.mem_cons_self

theorem lineEnd_cases (input : Text) :
    lineEnd input = lineFeed ∨ lineEnd input = carriageReturnLineFeed := by
  unfold lineEnd
  split
  · exact .inr rfl
  · exact .inl rfl

theorem splitLines_joinLines
    {eol : Text}
    {lines : List Text}
    (isEnd : eol = lineFeed ∨ eol = carriageReturnLineFeed)
    (notEmpty : lines ≠ [])
    (separable : Separable eol lines) :
    splitLines (joinLines eol lines) = lines := by
  induction lines with
  | nil => exact absurd rfl notEmpty
  | cons line rest hypothesis =>
      obtain ⟨noFeed, restNoFeed⟩ := List.forall_mem_cons.mp separable.noFeed
      cases rest with
      | nil =>
          rw [joinLines, List.intercalate_singleton]
          exact splitLines_of_notMem noFeed
      | cons next rest =>
          have noReturn := separable.noReturn
          rw [List.dropLast_cons_of_ne_nil (List.cons_ne_nil _ _)] at noReturn
          have others := hypothesis (List.cons_ne_nil _ _)
            ⟨restNoFeed, fun isFeed => (List.forall_mem_cons.mp (noReturn isFeed)).2⟩
          rw [joinLines, List.intercalate_cons_cons,
            splitLines_append isEnd noFeed fun isFeed =>
              (List.forall_mem_cons.mp (noReturn isFeed)).1]
          exact congrArg (line :: ·) others

/-! ## The lines of a file -/

theorem noFeed_splitLines (input : Text) :
    ∀ line ∈ splitLines input, '\n' ∉ line := by
  fun_induction splitLines input with
  | case1 rest hypothesis => exact List.forall_mem_cons.mpr ⟨List.not_mem_nil, hypothesis⟩
  | case2 rest hypothesis => exact List.forall_mem_cons.mpr ⟨List.not_mem_nil, hypothesis⟩
  | case3 char rest notBoth notFeed hypothesis =>
      obtain ⟨head, tail, same⟩ := List.exists_cons_of_ne_nil (splitLines_ne_nil rest)
      rw [same] at hypothesis ⊢
      obtain ⟨first, others⟩ := List.forall_mem_cons.mp hypothesis
      refine List.forall_mem_cons.mpr ⟨?_, others⟩
      rw [List.mem_cons, not_or]
      exact ⟨fun equal => notFeed equal.symm, first⟩
  | case4 => exact List.forall_mem_singleton.mpr List.not_mem_nil

/-- A line that begins empty and is not the last ends right there. -/
theorem starts_of_splitLines
    {input : Text}
    {tail : List Text}
    (spelled : splitLines input = [] :: tail)
    (notLast : tail ≠ []) :
    lineFeed <+: input ∨ carriageReturnLineFeed <+: input := by
  fun_cases splitLines input with
  | case1 rest => exact .inr ⟨rest, rfl⟩
  | case2 rest => exact .inl ⟨rest, rfl⟩
  | case3 char rest notBoth notFeed =>
      rw [splitLines] at spelled
      · obtain ⟨head, others, same⟩ := List.exists_cons_of_ne_nil (splitLines_ne_nil rest)
        rw [same] at spelled
        cases spelled
      · exact notBoth
      · exact notFeed
  | case4 =>
      cases spelled
      exact absurd rfl notLast

theorem noReturn_splitLines
    {input : Text}
    (noPair : Text.includesText carriageReturnLineFeed input = false) :
    ∀ line ∈ (splitLines input).dropLast, line.getLast? ≠ some '\r' := by
  fun_induction splitLines input with
  | case1 rest hypothesis =>
      have pair : carriageReturnLineFeed <:+: '\r' :: '\n' :: rest := ⟨[], rest, rfl⟩
      rw [(Text.includesText_iff _ _).mpr pair] at noPair
      cases noPair
  | case2 rest hypothesis =>
      rw [Text.includesText, Bool.or_eq_false_iff] at noPair
      rw [List.dropLast_cons_of_ne_nil (splitLines_ne_nil rest)]
      exact List.forall_mem_cons.mpr ⟨(Option.some_ne_none '\r').symm, hypothesis noPair.2⟩
  | case3 char rest notBoth notFeed hypothesis =>
      have restNoPair := noPair
      rw [Text.includesText, Bool.or_eq_false_iff] at restNoPair
      have others := hypothesis restNoPair.2
      obtain ⟨head, tail, same⟩ := List.exists_cons_of_ne_nil (splitLines_ne_nil rest)
      rw [same] at others ⊢
      rw [List.modifyHead_cons]
      by_cases last : tail = []
      · rw [last]
        intro line member
        cases member
      · rw [List.dropLast_cons_of_ne_nil last, List.forall_mem_cons] at others ⊢
        refine ⟨?_, others.2⟩
        cases head with
        | cons first others' =>
            rw [List.getLast?_cons_cons]
            exact others.1
        | nil =>
            intro isReturn
            cases isReturn
            rcases starts_of_splitLines same last with ⟨more, rfl⟩ | ⟨more, rfl⟩
            · exact notBoth more rfl rfl
            · have pair : carriageReturnLineFeed <:+: carriageReturnLineFeed ++ more :=
                ⟨[], more, rfl⟩
              rw [(Text.includesText_iff _ _).mpr pair] at restNoPair
              cases restNoPair.2
  | case4 =>
      intro line member
      cases member

theorem separable_splitLines (input : Text) :
    Separable (lineEnd input) (splitLines input) where
  noFeed := noFeed_splitLines input
  noReturn := by
    intro isFeed
    refine noReturn_splitLines ?_
    unfold lineEnd at isFeed
    split at isFeed
    case isTrue => cases isFeed
    case isFalse noPair => exact Bool.eq_false_iff.mpr noPair

/-- Whatever comes before the last line of a part comes before the last line. -/
theorem Separable.sublist
    {eol : Text}
    {lines part : List Text}
    (separable : Separable eol lines)
    (inside : part.Sublist lines) :
    Separable eol part where
  noFeed line member := separable.noFeed line (inside.subset member)
  noReturn := by
    intro isFeed line member
    refine separable.noReturn isFeed line ?_
    clear separable
    induction inside with
    | slnil => exact member
    | cons other inside hypothesis =>
        have notEmpty := List.ne_nil_of_mem (inside.subset (List.dropLast_subset _ member))
        rw [List.dropLast_cons_of_ne_nil notEmpty]
        exact List.mem_cons_of_mem _ (hypothesis member)
    | @cons_cons less more other inside hypothesis =>
        cases less with
        | nil => cases member
        | cons next less =>
            have notEmpty := List.ne_nil_of_mem (inside.subset List.mem_cons_self)
            rw [List.dropLast_cons_of_ne_nil (List.cons_ne_nil _ _)] at member
            rw [List.dropLast_cons_of_ne_nil notEmpty]
            rcases List.mem_cons.mp member with rfl | inRest
            · exact List.mem_cons_self
            · exact List.mem_cons_of_mem _ (hypothesis inRest)

/-! ## The line end of joined lines -/

/-- A line that does not end as a longer line end begins makes no longer one. -/
theorem includesText_line_append
    {line : Text}
    (noFeed : '\n' ∉ line)
    (noReturn : line.getLast? ≠ some '\r')
    (rest : Text) :
    Text.includesText carriageReturnLineFeed (line ++ '\n' :: rest) =
      Text.includesText carriageReturnLineFeed rest := by
  induction line with
  | nil => rfl
  | cons char line hypothesis =>
      rw [List.mem_cons, not_or] at noFeed
      have notHere : carriageReturnLineFeed.isPrefixOf (char :: (line ++ '\n' :: rest)) = false := by
        refine Bool.eq_false_iff.mpr fun found => ?_
        obtain ⟨rfl, next⟩ := List.cons_prefix_cons.mp (List.isPrefixOf_iff_prefix.mp found)
        cases line with
        | nil => exact noReturn rfl
        | cons other line =>
            obtain ⟨rfl, -⟩ := List.cons_prefix_cons.mp next
            exact noFeed.2 List.mem_cons_self
      rw [List.cons_append, Text.includesText, notHere, Bool.false_or]
      apply hypothesis noFeed.2
      intro ends
      refine noReturn ?_
      rw [List.getLast?_cons, ends]
      rfl

theorem not_includesText_joinLines
    {lines : List Text}
    (separable : Separable lineFeed lines) :
    Text.includesText carriageReturnLineFeed (joinLines lineFeed lines) = false := by
  induction lines with
  | nil => rfl
  | cons line rest hypothesis =>
      obtain ⟨noFeed, restNoFeed⟩ := List.forall_mem_cons.mp separable.noFeed
      cases rest with
      | nil =>
          rw [joinLines, List.intercalate_singleton, Bool.eq_false_iff, ne_eq, Text.includesText_iff]
          intro inside
          exact noFeed (inside.subset (List.mem_cons_of_mem _ List.mem_cons_self))
      | cons next rest =>
          have noReturn := separable.noReturn rfl
          rw [List.dropLast_cons_of_ne_nil (List.cons_ne_nil _ _), List.forall_mem_cons] at noReturn
          rw [joinLines, List.intercalate_cons_cons, List.append_assoc]
          refine (includesText_line_append noFeed noReturn.1 _).trans ?_
          exact hypothesis ⟨restNoFeed, fun _ => noReturn.2⟩

/-- More than one line joined show the line end that they were joined with. -/
theorem lineEnd_joinLines
    {eol : Text}
    {lines : List Text}
    (isEnd : eol = lineFeed ∨ eol = carriageReturnLineFeed)
    (separable : Separable eol lines)
    (several : 2 ≤ lines.length) :
    lineEnd (joinLines eol lines) = eol := by
  rcases isEnd with rfl | rfl
  · rw [lineEnd, not_includesText_joinLines separable, if_neg Bool.false_ne_true]
  · cases lines with
    | nil => exact absurd several (by simp)
    | cons line rest =>
        cases rest with
        | nil => exact absurd several (by simp)
        | cons next rest =>
            rw [lineEnd, if_pos]
            rw [Text.includesText_iff, joinLines, List.intercalate_cons_cons]
            exact ⟨line, _, rfl⟩

end TextLines
end HttpNative
