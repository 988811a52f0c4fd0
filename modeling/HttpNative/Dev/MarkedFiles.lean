import HttpNative.Dev.MarkedLines
import HttpNative.Dev.StatusBlocks
import Mathlib.Algebra.GroupWithZero.Nat

/-!
# Files that are marked

Over any row of marks the lines of a file are its own ones, with a block above each marked
line that lists the statuses of that line. The writer knows neither the statuses nor the
blocks; it finds them by where the lines stand, which it counts from what it took out and
put in.
-/

namespace HttpNative
namespace DevComments

/-! ## Rows without duplicates -/

section EraseDups

variable {Item : Type} [BEq Item] [LawfulBEq Item]

theorem eraseDups_append_singleton
    (items : List Item)
    (item : Item) :
    (items ++ [item]).eraseDups =
      if items.contains item then items.eraseDups else items.eraseDups ++ [item] := by
  rw [List.eraseDups_append, List.removeAll, List.filter_singleton]
  change items.eraseDups ++ (bif !items.contains item then [item] else []).eraseDups = _
  cases items.contains item with
  | true => exact List.append_nil _
  | false => rfl

theorem nodup_eraseDups
    (items : List Item) :
    items.eraseDups.Nodup := by
  induction items using List.reverseRecOn with
  | nil => exact .nil
  | append_singleton items item hypothesis =>
      rw [eraseDups_append_singleton]
      split
      case isTrue => exact hypothesis
      case isFalse absent =>
          rw [List.contains_iff_mem, ← List.mem_eraseDups] at absent
          exact List.nodup_append.mpr ⟨hypothesis, List.nodup_singleton item, fun other member _ last =>
            fun same => absent (by rwa [same, List.mem_singleton.mp last] at member)⟩

theorem eraseDups_eq_self
    {items : List Item}
    (distinct : items.Nodup) :
    items.eraseDups = items := by
  induction items using List.reverseRecOn with
  | nil => rfl
  | append_singleton items item hypothesis =>
      obtain ⟨itemsDistinct, -, apart⟩ := List.nodup_append.mp distinct
      have absent : ¬ items.contains item = true := fun member =>
        apart item (List.contains_iff_mem.mp member) item (List.mem_singleton_self item) rfl
      rw [eraseDups_append_singleton, if_neg absent, hypothesis itemsDistinct]

end EraseDups

/-! ## Annotated lines -/

/-- The block above a line with statuses. -/
def blockOf (statuses : List Text) (line : Text) : List Text :=
  if statuses.isEmpty then [] else buildOptimizationBlock (indentOf line) statuses

/-- A numbered line with the block above it. -/
def annotated (statuses : Nat → List Text) (entry : Text × Nat) : List Text :=
  blockOf (statuses entry.2) entry.1 ++ [entry.1]

section Annotated

variable {statuses : Nat → List Text} {line : Text} {number : Nat} {status : Text}

theorem blank_indentOf
    (line : Text) :
    ∀ char ∈ indentOf line, Text.isSpace char = true :=
  fun _ member => List.mem_takeWhile_imp member

theorem blockOf_nil
    (line : Text) :
    blockOf [] line = [] :=
  rfl

theorem blockOf_append
    (others : List Text)
    (status line : Text) :
    blockOf (others ++ [status]) line =
      buildOptimizationBlock (indentOf line) (others ++ [status]) :=
  if_neg (by simp)

theorem annotated_update_of_ne
    (statuses : Nat → List Text)
    {entry : Text × Nat}
    (other : entry.2 ≠ number)
    (marked : List Text) :
    annotated (Function.update statuses number marked) entry = annotated statuses entry := by
  rw [annotated, annotated, Function.update_of_ne other]

theorem flatMap_annotated_update
    (statuses : Nat → List Text)
    {entries : List (Text × Nat)}
    (others : ∀ entry ∈ entries, entry.2 ≠ number)
    (marked : List Text) :
    entries.flatMap (annotated (Function.update statuses number marked)) =
      entries.flatMap (annotated statuses) :=
  List.flatMap_congr fun entry member => annotated_update_of_ne statuses (others entry member) marked

/-- How many lines the writer has put in above an entry. -/
def blockLength (statuses : Nat → List Text) (entry : Text × Nat) : Nat :=
  (blockOf (statuses entry.2) entry.1).length

theorem map_blockLength_update
    (statuses : Nat → List Text)
    {entries : List (Text × Nat)}
    (others : ∀ entry ∈ entries, entry.2 ≠ number)
    (marked : List Text) :
    entries.map (blockLength (Function.update statuses number marked)) =
      entries.map (blockLength statuses) :=
  List.map_congr_left fun entry member => by
    rw [blockLength, blockLength, Function.update_of_ne (others entry member)]

theorem length_flatMap_annotated
    (statuses : Nat → List Text)
    (entries : List (Text × Nat)) :
    (entries.flatMap (annotated statuses)).length =
      entries.length + (entries.map (blockLength statuses)).sum := by
  induction entries with
  | nil => rfl
  | cons entry rest hypothesis =>
      rw [List.flatMap_cons, List.length_append, hypothesis, annotated, List.length_append,
        List.length_singleton, List.length_cons, List.map_cons, List.sum_cons, blockLength]
      omega

end Annotated

/-! ## What has been put in -/

theorem countInsertedBefore_eq_sum
    (inserted : List InsertedLines)
    (originalLine : Nat) :
    countInsertedBefore inserted originalLine =
      (inserted.map fun entry => if entry.line ≤ originalLine then entry.count else 0).sum := by
  have from_ : ∀ count, inserted.foldl
      (fun count entry => if entry.line ≤ originalLine then count + entry.count else count) count =
        count + (inserted.map fun entry =>
          if entry.line ≤ originalLine then entry.count else 0).sum := by
    induction inserted with
    | nil => exact fun _ => rfl
    | cons entry rest hypothesis =>
        intro count
        rw [List.foldl_cons, hypothesis, List.map_cons, List.sum_cons]
        split
        · omega
        · omega
  exact (from_ 0).trans (Nat.zero_add _)

theorem countInsertedBefore_pushInserted
    (inserted : List InsertedLines)
    (entry : InsertedLines)
    (originalLine : Nat) :
    countInsertedBefore (pushInserted inserted entry) originalLine =
      countInsertedBefore inserted originalLine +
        if entry.line ≤ originalLine then entry.count else 0 := by
  have reordered := (List.mergeSort_perm (inserted ++ [entry])
    fun left right => left.line ≤ right.line).map fun entry : InsertedLines =>
      if entry.line ≤ originalLine then entry.count else 0
  rw [countInsertedBefore_eq_sum, countInsertedBefore_eq_sum, pushInserted, reordered.sum_nat,
    List.map_append, List.sum_append, List.map_singleton, List.sum_singleton]

/-! ## Lines of the file -/

/-- The lines that a file has left. -/
structure Base (kept : List (Text × Nat)) : Prop where
  increasing : kept.Pairwise fun earlier later => earlier.2 < later.2
  noComment : ∀ entry ∈ kept, isSingleComment entry.1 = false
  noCloser : ∀ entry ∈ kept, closesBlock entry.1 = false

/-- Statuses of lines that are not blank. -/
structure Fits (statuses : Nat → List Text) (kept : List (Text × Nat)) : Prop where
  areStatuses : ∀ number, ∀ status ∈ statuses number, IsStatus status
  distinct : ∀ number, (statuses number).Nodup
  solid : ∀ entry ∈ kept, isBlankLine entry.1 = true → statuses entry.2 = []

/-- The writer holds the lines of the file with a block above each that has statuses, and
counts where each of them has come to stand. -/
structure Annotated
    (statuses : Nat → List Text)
    (kept : List (Text × Nat))
    (state : FileState) : Prop where
  base : kept.map Prod.fst = state.baseLines
  lines : state.lines = kept.flatMap (annotated statuses)
  placed : ∀ front entry back, kept = front ++ entry :: back →
    normalizeSourceLine state entry.2 = front.length + 1
  counted : ∀ place < kept.length,
    countInsertedBefore state.insertedAtOriginalLine (place + 1) =
      ((kept.take (place + 1)).map (blockLength statuses)).sum

section Marks

variable {statuses : Nat → List Text} {front back : List (Text × Nat)} {line : Text}
variable {number : Nat} {state : FileState} {status : Text}

theorem Base.ne_of_split
    (base : Base (front ++ (line, number) :: back)) :
    (∀ entry ∈ front, entry.2 ≠ number) ∧ ∀ entry ∈ back, entry.2 ≠ number := by
  obtain ⟨-, later, across⟩ := List.pairwise_append.mp base.increasing
  refine ⟨fun entry member => ?_, fun entry member => ?_⟩
  · exact Nat.ne_of_lt (across entry member (line, number) List.mem_cons_self)
  · exact Nat.ne_of_gt ((List.pairwise_cons.mp later).1 entry member)

/-- The line is found where it has come to stand. -/
theorem Annotated.effectiveLine_eq
    (holds : Annotated statuses (front ++ (line, number) :: back) state) :
    effectiveLine state number =
      (front.flatMap (annotated statuses) ++ blockOf (statuses number) line).length + 1 := by
  have inside : front.length < (front ++ (line, number) :: back).length := by simp
  have taken : (front ++ (line, number) :: back).take (front.length + 1) =
      front ++ [(line, number)] := by
    rw [List.take_length_add_append, List.take_succ_cons, List.take_zero]
  have counted := holds.counted front.length inside
  rw [taken, List.map_append, List.sum_append, List.map_singleton, List.sum_singleton] at counted
  simp only [effectiveLine]
  rw [holds.placed front (line, number) back rfl, counted, List.length_append,
    length_flatMap_annotated]
  change _ + (_ + (blockOf (statuses number) line).length) = _
  omega

/-- No block stands above a line without statuses. -/
theorem findExisting_of_unmarked
    (noCloser : ∀ entry ∈ front, closesBlock entry.1 = false)
    (solid : ∀ entry ∈ front, isBlankLine entry.1 = true → statuses entry.2 = [])
    (after : List Text) :
    findExistingOptimizationBlock (front.flatMap (annotated statuses) ++ after)
      (front.flatMap (annotated statuses)).length = none := by
  refine findExistingOptimizationBlock_eq_none fun line further same => ?_
  rw [List.take_left] at same
  induction front using List.reverseRecOn with
  | nil => cases same
  | append_singleton front entry hypothesis =>
      obtain ⟨frontNoCloser, entryNoCloser⟩ := List.forall_mem_append.mp noCloser
      obtain ⟨frontSolid, entrySolid⟩ := List.forall_mem_append.mp solid
      rw [List.flatMap_append, List.flatMap_singleton, annotated, ← List.append_assoc,
        List.reverse_append, List.reverse_singleton, List.singleton_append] at same
      cases blank : isBlankLine entry.1 with
      | true =>
          rw [List.dropWhile_cons_of_pos blank,
            entrySolid entry (List.mem_singleton_self entry) blank, blockOf_nil,
            List.append_nil] at same
          exact hypothesis frontNoCloser frontSolid same
      | false =>
          rw [List.dropWhile_cons_of_neg (by simp [blank])] at same
          obtain ⟨rfl, -⟩ := List.cons.inj same
          exact entryNoCloser entry (List.mem_singleton_self entry)

/-- No comment of one line stands above a line without statuses. -/
theorem parseSingle_of_unmarked
    {indent : Text}
    (blank : ∀ char ∈ indent, Text.isSpace char = true)
    (noComment : ∀ entry ∈ front, isSingleComment entry.1 = false)
    (after : List Text) :
    parseSingleLineComment
      (if (front.flatMap (annotated statuses)).length = 0 then none
        else (front.flatMap (annotated statuses) ++ after)[
          (front.flatMap (annotated statuses)).length - 1]?) indent = none := by
  rcases List.eq_nil_or_concat' front with rfl | ⟨others, entry, rfl⟩
  · rfl
  · rw [List.flatMap_append, List.flatMap_singleton, annotated, ← List.append_assoc, if_neg (by simp),
      List.length_append, List.length_singleton, Nat.add_sub_cancel,
      List.getElem?_append_left (by simp), List.getElem?_concat_length]
    exact parseSingleLineComment_eq_none blank
      (noComment entry (List.mem_append_right others (List.mem_singleton_self entry)))

theorem dedupeStatuses_eq
    {statuses : List Text}
    (areStatuses : ∀ status ∈ statuses, IsStatus status)
    (distinct : statuses.Nodup) :
    dedupeStatuses statuses = statuses := by
  have trimmed : statuses.map Text.trim = statuses :=
    (List.map_congr_left fun status member => (areStatuses status member).trimmed).trans
      (List.map_id statuses)
  have kept : statuses.filter (fun status => !status.isEmpty) = statuses :=
    List.filter_eq_self.mpr fun status member => by rw [(areStatuses status member).notEmpty]; rfl
  rw [dedupeStatuses, trimmed, kept]
  exact eraseDups_eq_self distinct

/-! ## One mark -/

/-- A line that has got a status has come one block down. -/
theorem Annotated.of_block
    {next : FileState}
    (holds : Annotated statuses (front ++ (line, number) :: back) state)
    (base : Base (front ++ (line, number) :: back))
    (extra : Nat)
    (baseLines : next.baseLines = state.baseLines)
    (removed : next.removedBeforeLine = state.removedBeforeLine)
    (lines : next.lines = front.flatMap (annotated statuses) ++
      (blockOf (statuses number ++ [status]) line ++ line :: back.flatMap (annotated statuses)))
    (length : (blockOf (statuses number ++ [status]) line).length =
      (blockOf (statuses number) line).length + extra)
    (counted : ∀ originalLine, countInsertedBefore next.insertedAtOriginalLine originalLine =
      countInsertedBefore state.insertedAtOriginalLine originalLine +
        if front.length + 1 ≤ originalLine then extra else 0) :
    Annotated (Function.update statuses number (statuses number ++ [status]))
      (front ++ (line, number) :: back) next := by
  obtain ⟨frontOthers, backOthers⟩ := base.ne_of_split
  have here : annotated (Function.update statuses number (statuses number ++ [status]))
      (line, number) = blockOf (statuses number ++ [status]) line ++ [line] := by
    rw [annotated, Function.update_self]
  refine ⟨by rw [baseLines, holds.base], ?_, ?_, ?_⟩
  · rw [lines, List.flatMap_append, List.flatMap_cons,
      flatMap_annotated_update statuses frontOthers, flatMap_annotated_update statuses backOthers,
      here, List.append_assoc]
    rfl
  · intro before entry after same
    rw [← holds.placed before entry after same, normalizeSourceLine, normalizeSourceLine, removed]
  · intro place inside
    have before := holds.counted place inside
    rw [counted, before]
    by_cases later : front.length ≤ place
    · obtain ⟨more, rfl⟩ := Nat.exists_eq_add_of_le later
      have taken : (front ++ (line, number) :: back).take (front.length + more + 1) =
          front ++ (line, number) :: back.take more := by
        rw [Nat.add_assoc, List.take_length_add_append, List.take_succ_cons]
      have moreOthers : ∀ entry ∈ back.take more, entry.2 ≠ number := fun entry member =>
        backOthers entry (List.mem_of_mem_take member)
      have grown : blockLength (Function.update statuses number (statuses number ++ [status]))
          (line, number) = blockLength statuses (line, number) + extra := by
        rw [blockLength, Function.update_self]
        exact length
      rw [taken, if_pos (by omega), List.map_append, List.map_append, List.map_cons, List.map_cons,
        map_blockLength_update statuses frontOthers, map_blockLength_update statuses moreOthers,
        grown, List.sum_append, List.sum_append, List.sum_cons, List.sum_cons]
      omega
    · have taken : (front ++ (line, number) :: back).take (place + 1) = front.take (place + 1) :=
        List.take_append_of_le_length (by omega)
      have someOthers : ∀ entry ∈ front.take (place + 1), entry.2 ≠ number := fun entry member =>
        frontOthers entry (List.mem_of_mem_take member)
      rw [taken, if_neg (by omega), map_blockLength_update statuses someOthers, Nat.add_zero]

theorem annotateLines_insert
    (found : state.lines[effectiveLine state number - 1]? = some line)
    (noBlock : findExistingOptimizationBlock state.lines (effectiveLine state number - 1) = none)
    (noSingle : parseSingleLineComment
      (if effectiveLine state number - 1 = 0 then none
        else state.lines[effectiveLine state number - 1 - 1]?) (indentOf line) = none)
    (replaceExisting : Bool) :
    annotateLines state number status replaceExisting =
      some
        { state with
          lines := splice state.lines (effectiveLine state number - 1) 0
            (buildOptimizationBlock (indentOf line) [status])
          insertedAtOriginalLine := pushInserted state.insertedAtOriginalLine
            { line := normalizeSourceLine state number, count := 4 } } := by
  unfold annotateLines
  simp only [found, noBlock, noSingle]
  rfl

theorem annotateLines_replace
    {existing : ExistingBlock}
    (found : state.lines[effectiveLine state number - 1]? = some line)
    (block : findExistingOptimizationBlock state.lines (effectiveLine state number - 1) =
      some existing) :
    annotateLines state number status false =
      some
        { state with
          lines := splice state.lines existing.startIndex
            (existing.endIndex - existing.startIndex + 1)
            (buildOptimizationBlock (indentOf line)
              (mergeStatuses existing.statuses status)) } := by
  unfold annotateLines
  simp only [found, block]
  rfl

/-- A mark adds its status to the block above its line. -/
theorem Annotated.exists_annotateLines
    (holds : Annotated statuses (front ++ (line, number) :: back) state)
    (base : Base (front ++ (line, number) :: back))
    (fits : Fits statuses (front ++ (line, number) :: back))
    (noBars : ∀ other ∈ statuses number, '|' ∉ other)
    (new : status ∉ statuses number) :
    ∃ next, annotateLines state number status (statuses number).isEmpty = some next ∧
      Annotated (Function.update statuses number (statuses number ++ [status]))
        (front ++ (line, number) :: back) next := by
  have effective := holds.effectiveLine_eq
  have frontMember : ∀ entry ∈ front, entry ∈ front ++ (line, number) :: back :=
    fun entry member => List.mem_append_left _ member
  have spelled : state.lines = front.flatMap (annotated statuses) ++
      (blockOf (statuses number) line ++ line :: back.flatMap (annotated statuses)) := by
    rw [holds.lines, List.flatMap_append, List.flatMap_cons, annotated, List.append_assoc]
    rfl
  have found : state.lines[effectiveLine state number - 1]? = some line := by
    rw [effective, Nat.add_sub_cancel, spelled, ← List.append_assoc,
      List.getElem?_append_right (Nat.le_refl _), Nat.sub_self]
    rfl
  have blank := blank_indentOf line
  by_cases unmarked : statuses number = []
  · -- a new block
    have place : effectiveLine state number - 1 = (front.flatMap (annotated statuses)).length := by
      rw [effective, unmarked, blockOf_nil, List.append_nil, Nat.add_sub_cancel]
    have own : state.lines =
        front.flatMap (annotated statuses) ++ line :: back.flatMap (annotated statuses) := by
      rw [spelled, unmarked]
      rfl
    have noBlock := findExisting_of_unmarked
      (fun entry member => base.noCloser entry (frontMember entry member))
      (fun entry member => fits.solid entry (frontMember entry member))
      (line :: back.flatMap (annotated statuses))
    have noSingle := @parseSingle_of_unmarked statuses front (indentOf line) blank
      (fun entry member => base.noComment entry (frontMember entry member))
      (line :: back.flatMap (annotated statuses))
    rw [← own, ← place] at noBlock noSingle
    refine ⟨_, annotateLines_insert found noBlock noSingle _, ?_⟩
    refine holds.of_block base 4 rfl rfl ?_ ?_ fun originalLine => ?_
    · change splice state.lines _ 0 _ = _
      rw [splice, place, own, List.take_left, Nat.add_zero, List.drop_left, blockOf_append, unmarked,
        List.append_assoc]
      rfl
    · rw [blockOf_append, unmarked]
      rfl
    · rw [countInsertedBefore_pushInserted, holds.placed front (line, number) back rfl]
  · -- one more status in the block
    have block : blockOf (statuses number) line =
        buildOptimizationBlock (indentOf line) (statuses number) :=
      if_neg (by rw [List.isEmpty_iff]; exact unmarked)
    have place : effectiveLine state number - 1 =
        (front.flatMap (annotated statuses)).length + 4 := by
      rw [effective, block, List.length_append, Nat.add_sub_cancel]
      rfl
    have same := dedupeStatuses_eq (fits.areStatuses number) (fits.distinct number)
    have areStatuses : ∀ status ∈ dedupeStatuses (statuses number), IsStatus status := by
      rw [same]
      exact fits.areStatuses number
    have dedupedNoBars : ∀ status ∈ dedupeStatuses (statuses number), '|' ∉ status := by
      rw [same]
      exact noBars
    have existing := findExistingOptimizationBlock_append blank
      (front.flatMap (annotated statuses)) (line :: back.flatMap (annotated statuses))
      (statuses number)
    rw [← block, ← spelled, ← place, block, parseStatusesFromLines_block blank _ areStatuses
      dedupedNoBars, same] at existing
    have first : (statuses number).isEmpty = false := by
      rw [← Bool.not_eq_true, List.isEmpty_iff]
      exact unmarked
    have merged : mergeStatuses (statuses number) status = statuses number ++ [status] :=
      if_neg (by rw [List.contains_iff_mem]; exact new)
    rw [first]
    refine ⟨_, annotateLines_replace found existing, ?_⟩
    refine holds.of_block base 0 rfl rfl ?_ ?_ fun originalLine => ?_
    · change splice state.lines _ _ (buildOptimizationBlock _ (mergeStatuses (statuses number) status)) = _
      have dropped : state.lines.drop ((front.flatMap (annotated statuses)).length + 4) =
          line :: back.flatMap (annotated statuses) := by
        rw [spelled, block, List.drop_length_add_append]
        rfl
      rw [splice, merged, Nat.add_sub_cancel_left, dropped, blockOf_append, spelled, List.take_left,
        List.append_assoc]
    · rw [blockOf_append, block]
      rfl
    · rw [ite_self]
      rfl

end Marks

end DevComments
end HttpNative
