import HttpNative.Dev.CleanupRuns
import HttpNative.Dev.MarkRuns

/-!
# Files that are read again

A process may end without a cleanup, with its blocks in the files. The next one reads such a
file, takes the blocks out and so finds the lines that the first one found. This takes that
no line of the file opens a comment: such a line would be taken for the start of the next
block.
-/

namespace HttpNative
namespace DevComments

/-! ## Taking blocks out again -/

section Cleaned

variable {statuses : Nat → List Text}

theorem cleaned_block_append
    {block : List Text}
    (generated : IsOptimizationBlock block)
    (after : List Text) :
    markup.cleaned (block ++ after) = markup.cleaned after := by
  obtain ⟨first, rest, rfl, opens, closed, -⟩ :=
    @BlockMarkup.exists_cons_of_isGenerated _ markup block generated
  rw [BlockMarkup.cleaned_cons_append opens closed, if_pos]
  exact any_mentionsPrefix _ generated

theorem isOptimizationBlock_blockOf
    {marked : List Text}
    (notEmpty : marked ≠ [])
    (line : Text) :
    IsOptimizationBlock (blockOf marked line) := by
  refine ⟨indentOf line, marked, blank_indentOf line, if_neg ?_⟩
  rw [List.isEmpty_iff]
  exact notEmpty

/-- The lines below the blocks are what is left. -/
theorem cleaned_annotated
    (kept : List (Text × Nat))
    (noComment : ∀ entry ∈ kept, isSingleComment entry.1 = false)
    (plain : ∀ entry ∈ kept, opensBlock entry.1 = false) :
    markup.cleaned (kept.flatMap (annotated statuses)) = kept.map Prod.fst := by
  induction kept with
  | nil => exact BlockMarkup.strip_nil
  | cons entry kept hypothesis =>
      obtain ⟨entryNoComment, keptNoComment⟩ := List.forall_mem_cons.mp noComment
      obtain ⟨entryPlain, keptPlain⟩ := List.forall_mem_cons.mp plain
      have own : markup.cleaned (entry.1 :: kept.flatMap (annotated statuses)) =
          entry.1 :: kept.map Prod.fst := by
        rw [BlockMarkup.cleaned, BlockMarkup.strip_plain entryNoComment entryPlain]
        exact congrArg (entry.1 :: ·) (hypothesis keptNoComment keptPlain)
      rw [List.flatMap_cons, annotated, List.append_assoc, List.singleton_append, List.map_cons]
      by_cases unmarked : statuses entry.2 = []
      · rw [unmarked]
        exact own
      · rw [cleaned_block_append (isOptimizationBlock_blockOf unmarked entry.1), own]

end Cleaned

/-! ## Lines that can be told apart -/

/-- A line that does not break and does not end as a line end begins. -/
structure StaysOneLine (line : Text) : Prop where
  noFeed : '\n' ∉ line
  noReturn : line.getLast? ≠ some '\r'

section OneLine

variable {before after separator : Text}

theorem StaysOneLine.append
    (stays : StaysOneLine after)
    (noFeed : '\n' ∉ before)
    (notEmpty : after ≠ []) :
    StaysOneLine (before ++ after) where
  noFeed := by
    rw [List.mem_append, not_or]
    exact ⟨noFeed, stays.noFeed⟩
  noReturn := by
    obtain ⟨front, last, rfl⟩ := (List.eq_nil_or_concat' after).resolve_left notEmpty
    rw [← List.append_assoc, List.getLast?_concat]
    intro isReturn
    exact stays.noReturn (by rw [List.getLast?_concat, isReturn])

theorem StaysOneLine.intercalate
    {items : List Text}
    (stays : ∀ item ∈ items, StaysOneLine item)
    (nonempty : ∀ item ∈ items, item ≠ [])
    (noFeed : '\n' ∉ separator)
    (notEmpty : items ≠ []) :
    StaysOneLine (List.intercalate separator items) ∧ List.intercalate separator items ≠ [] := by
  induction items with
  | nil => exact absurd rfl notEmpty
  | cons item items hypothesis =>
      obtain ⟨itemStays, itemsStay⟩ := List.forall_mem_cons.mp stays
      obtain ⟨itemNonempty, itemsNonempty⟩ := List.forall_mem_cons.mp nonempty
      cases items with
      | nil =>
          rw [List.intercalate_singleton]
          exact ⟨itemStays, itemNonempty⟩
      | cons next items =>
          obtain ⟨rest, restNonempty⟩ := hypothesis itemsStay itemsNonempty (List.cons_ne_nil _ _)
          rw [List.intercalate_cons_cons]
          refine ⟨rest.append ?_ restNonempty, List.append_ne_nil_of_right_ne_nil _ restNonempty⟩
          rw [List.mem_append, not_or]
          exact ⟨itemStays.noFeed, noFeed⟩

theorem IsStatus.ne_nil
    {status : Text}
    (isStatus : IsStatus status) :
    status ≠ [] := by
  rintro rfl
  cases isStatus.notEmpty

theorem IsStatus.staysOneLine
    {status : Text}
    (isStatus : IsStatus status)
    (noFeed : '\n' ∉ status) :
    StaysOneLine status where
  noFeed := noFeed
  noReturn ends := by
    obtain ⟨front, rfl⟩ := List.getLast?_eq_some_iff.mp ends
    have blank : ∀ char ∈ text "\r", Text.isSpace char = true :=
      List.forall_mem_singleton.mpr (by decide)
    have trimmed := @trim_append_blank [] (text "\r") nofun blank front
    have shorter := (isInfix_trim front).length_le
    rw [← trimmed, List.nil_append] at shorter
    have same : Text.trim (front ++ text "\r") = front ++ ['\r'] := isStatus.trimmed
    rw [same, List.length_append, List.length_singleton] at shorter
    omega

theorem staysOneLine_inheritedDescription
    {status description : Text}
    (inherits : inheritedDescription status = some description) :
    StaysOneLine description ∧ description ≠ [] := by
  have methods : ∀ name ∈ inheritedMethods, '\n' ∉ name := by decide
  unfold inheritedDescription at inherits
  split_ifs at inherits with isProto isConstructor isMethod
  · cases inherits
    exact ⟨⟨by decide, by decide⟩, by decide⟩
  · cases inherits
    exact ⟨⟨by decide, by decide⟩, by decide⟩
  · cases inherits
    have native : StaysOneLine (text "() \x7b [native code] \x7d") := ⟨by decide, by decide⟩
    refine ⟨native.append ?_ (by decide), List.append_ne_nil_of_right_ne_nil _ (by decide)⟩
    rw [List.mem_append, not_or]
    exact ⟨by decide, methods status (List.contains_iff_mem.mp isMethod)⟩

theorem staysOneLine_describeStatus
    {status : Text}
    (noFeed : '\n' ∉ status) :
    StaysOneLine (describeStatus status) ∧ describeStatus status ≠ [] := by
  have known : ∀ entry ∈ statusDescriptions,
      ('\n' ∉ entry.2 ∧ entry.2.getLast? ≠ some '\r') ∧ entry.2 ≠ [] := by
    decide +kernel
  have unknown : StaysOneLine (text "' is active for this route.") :=
    ⟨by decide, by decide⟩
  unfold describeStatus
  cases found : statusDescriptions.lookup status with
  | some description =>
      obtain ⟨before, after, same, -⟩ := List.lookup_eq_some_iff.mp found
      obtain ⟨stays, nonempty⟩ := known (status, description) (by rw [same]; simp)
      exact ⟨⟨stays.1, stays.2⟩, nonempty⟩
  | none =>
  cases inherits : inheritedDescription status with
  | some description => exact staysOneLine_inheritedDescription inherits
  | none =>
      refine ⟨unknown.append ?_ (by decide), List.append_ne_nil_of_right_ne_nil _ (by decide)⟩
      rw [List.mem_append, not_or]
      exact ⟨by decide, noFeed⟩

/-- Every line of a block is one line. -/
theorem staysOneLine_block
    {indent : Text}
    (noFeed : '\n' ∉ indent)
    {statuses : List Text}
    (same : dedupeStatuses statuses = statuses)
    (notEmpty : statuses ≠ [])
    (areStatuses : ∀ status ∈ statuses, IsStatus status)
    (statusesNoFeed : ∀ status ∈ statuses, '\n' ∉ status) :
    ∀ line ∈ buildOptimizationBlock indent statuses, StaysOneLine line := by
  have notIn : ∀ {solid : Text}, '\n' ∉ solid → '\n' ∉ indent ++ solid := by
    intro solid absent
    rw [List.mem_append, not_or]
    exact ⟨noFeed, absent⟩
  obtain ⟨joined, joinedNonempty⟩ := @StaysOneLine.intercalate (text " | ") statuses
    (fun status member => (areStatuses status member).staysOneLine (statusesNoFeed status member))
    (fun status member => (areStatuses status member).ne_nil) (by decide) notEmpty
  obtain ⟨described, describedNonempty⟩ := @StaysOneLine.intercalate (text " ")
    (statuses.map describeStatus)
    (List.forall_mem_map.mpr fun status member =>
      (staysOneLine_describeStatus (statusesNoFeed status member)).1)
    (List.forall_mem_map.mpr fun status member =>
      (staysOneLine_describeStatus (statusesNoFeed status member)).2)
    (by decide) (by rw [ne_eq, List.map_eq_nil_iff]; exact notEmpty)
  rw [buildOptimizationBlock, same]
  simp only [List.forall_mem_cons]
  refine ⟨?_, ?_, ?_, ?_, fun _ absent => absurd absent List.not_mem_nil⟩
  · exact StaysOneLine.append ⟨by decide, by decide⟩ noFeed (by decide)
  · apply joined.append _ joinedNonempty
    rw [List.append_assoc, List.append_assoc]
    exact notIn (by decide)
  · apply described.append _ describedNonempty
    exact notIn (by decide)
  · exact StaysOneLine.append ⟨by decide, by decide⟩ noFeed (by decide)

end OneLine

/-! ## What a run has written -/

section Written

variable {statuses : Nat → List Text} {kept : List (Text × Nat)} {eol content : Text}

theorem separable_annotated
    (base : TextLines.Separable eol (kept.map Prod.fst))
    (blocks : ∀ entry ∈ kept, ∀ line ∈ blockOf (statuses entry.2) entry.1, StaysOneLine line) :
    TextLines.Separable eol (kept.flatMap (annotated statuses)) where
  noFeed line member := by
    obtain ⟨entry, isEntry, inside⟩ := List.mem_flatMap.mp member
    rcases List.mem_append.mp inside with inBlock | own
    · exact (blocks entry isEntry line inBlock).noFeed
    · rw [List.mem_singleton.mp own]
      exact base.noFeed _ (List.mem_map_of_mem isEntry)
  noReturn isFeed := by
    have ownNoReturn := base.noReturn isFeed
    clear base
    induction kept with
    | nil => exact nofun
    | cons entry kept hypothesis =>
        obtain ⟨entryBlock, keptBlocks⟩ := List.forall_mem_cons.mp blocks
        cases kept with
        | nil =>
            rw [List.flatMap_singleton, annotated, List.dropLast_concat]
            exact fun line member => (entryBlock line member).noReturn
        | cons next kept =>
            rw [List.map_cons, List.map_cons, List.dropLast_cons_of_ne_nil (List.cons_ne_nil _ _),
              List.forall_mem_cons] at ownNoReturn
            have notEmpty : (next :: kept).flatMap (annotated statuses) ≠ [] := by
              rw [List.flatMap_cons, annotated]
              simp
            rw [List.flatMap_cons, List.dropLast_append_of_ne_nil notEmpty, annotated]
            intro line member
            rcases List.mem_append.mp member with here | behind
            · rcases List.mem_append.mp here with inBlock | own
              · exact (entryBlock line inBlock).noReturn
              · rw [List.mem_singleton.mp own]
                exact ownNoReturn.1
            · exact hypothesis keptBlocks ownNoReturn.2 line behind

/-- What the next process finds of a file is what the first one found. -/
structure Reread (content left : Text) : Prop where
  baseLines : markup.cleaned (TextLines.splitLines left) =
    markup.cleaned (TextLines.splitLines content)
  eol : TextLines.lineEnd left = TextLines.lineEnd content

theorem noFeed_indentOf
    {line : Text}
    (noFeed : '\n' ∉ line) :
    '\n' ∉ indentOf line :=
  fun member => noFeed ((List.takeWhile_prefix _).subset member)

/-- A file with blocks shows the lines below them again, and nothing else. -/
theorem reread_of_annotated
    (texts : kept.map Prod.fst = markup.cleaned (TextLines.splitLines content))
    (base : Base kept)
    (plain : ∀ entry ∈ kept, opensBlock entry.1 = false)
    (fits : Fits statuses kept)
    (oneLine : ∀ number, ∀ status ∈ statuses number, '\n' ∉ status)
    (marked : ∃ entry ∈ kept, statuses entry.2 ≠ []) :
    TextLines.splitLines (TextLines.joinLines (TextLines.lineEnd content)
        (kept.flatMap (annotated statuses))) = kept.flatMap (annotated statuses) ∧
      Reread content (TextLines.joinLines (TextLines.lineEnd content)
        (kept.flatMap (annotated statuses))) := by
  have isEnd := TextLines.lineEnd_cases content
  have ownSeparable : TextLines.Separable (TextLines.lineEnd content) (kept.map Prod.fst) := by
    rw [texts]
    exact (TextLines.separable_splitLines content).sublist (BlockMarkup.strip_sublist _ _)
  have separable : TextLines.Separable (TextLines.lineEnd content)
      (kept.flatMap (annotated statuses)) := by
    apply separable_annotated ownSeparable
    intro entry isEntry line member
    by_cases unmarked : statuses entry.2 = []
    · rw [unmarked] at member
      cases member
    · have block : blockOf (statuses entry.2) entry.1 =
          buildOptimizationBlock (indentOf entry.1) (statuses entry.2) :=
        if_neg (by rw [List.isEmpty_iff]; exact unmarked)
      rw [block] at member
      refine staysOneLine_block ?_ (dedupeStatuses_eq (fits.areStatuses _) (fits.distinct _))
        unmarked (fits.areStatuses _) (oneLine _) line member
      exact noFeed_indentOf (ownSeparable.noFeed _ (List.mem_map_of_mem isEntry))
  have several : 2 ≤ (kept.flatMap (annotated statuses)).length := by
    obtain ⟨entry, isEntry, notEmpty⟩ := marked
    obtain ⟨front, back, rfl⟩ := List.append_of_mem isEntry
    have block : (blockOf (statuses entry.2) entry.1).length = 4 := by
      rw [blockOf, if_neg (by rw [List.isEmpty_iff]; exact notEmpty)]
      rfl
    rw [List.flatMap_append, List.flatMap_cons, annotated, List.length_append, List.length_append,
      List.length_append, block]
    omega
  have split := TextLines.splitLines_joinLines isEnd
    (List.ne_nil_of_length_pos (Nat.lt_of_lt_of_le Nat.two_pos several)) separable
  refine ⟨split, ?_, TextLines.lineEnd_joinLines isEnd separable several⟩
  rw [split, cleaned_annotated kept base.noComment plain, texts]

end Written

/-! ## Runs that end without a cleanup -/

/-- Marks on lines of a file that opens no comment, with statuses that do not break. -/
structure Markable (content : Text) (marks : List (Nat × Text)) : Prop where
  only : markup.OnlyGeneratedClose (TextLines.splitLines content)
  plain : ∀ line ∈ markup.cleaned (TextLines.splitLines content), opensBlock line = false
  named : ∀ mark ∈ marks, NamesLine (TextLines.splitLines content) mark
  careful : CarefulRun (TextLines.splitLines content) marks
  oneLine : ∀ mark ∈ marks, '\n' ∉ mark.2

section Crashed

variable {content path : Text} {marks : List (Nat × Text)} {found : Disk} {writer : Writer}
variable {devComments hotReload hotReloadVariable : Bool}

theorem noFeed_statusesAt
    (oneLine : ∀ mark ∈ marks, '\n' ∉ mark.2)
    (number : Nat) :
    ∀ status ∈ statusesAt marks number, '\n' ∉ status := by
  intro status member feed
  obtain ⟨-, mark, isMark, -, rfl⟩ := mem_statusesAt_iff.mp member
  have inside := (isInfix_trim _).subset feed
  split at inside
  · exact absurd inside (by decide)
  · exact oneLine mark isMark inside

/-- Marks without a status do nothing. -/
theorem foldl_markRoute_of_unmarked
    (nothing : ∀ mark ∈ marks, (Writer.normalizeStatus mark.2).isEmpty = true) :
    marks.foldl (fun writer mark => writer.markRoute path mark.1 mark.2) writer = writer := by
  induction marks with
  | nil => rfl
  | cons mark marks hypothesis =>
      obtain ⟨empty, marksEmpty⟩ := List.forall_mem_cons.mp nothing
      have same : writer.markRoute path mark.1 mark.2 = writer := by
        refine if_pos ?_
        rw [empty, Bool.or_true, Bool.true_or]
      rw [List.foldl_cons, same]
      exact hypothesis marksEmpty

theorem fileState_of_create
    (made : Writer.create found devComments hotReload hotReloadVariable = some writer)
    (path : Text) :
    writer.fileState.get path = none := by
  unfold Writer.create at made
  split at made
  case isTrue =>
      cases made
      rfl
  case isFalse => cases made

/-- What a run of marks has left of its file. -/
theorem exists_left
    (made : Writer.create found devComments hotReload hotReloadVariable = some writer)
    (isPath : path.isEmpty = false)
    (readable : found.content path = some content)
    (markable : Markable content marks)
    (settled : Settled path
      (marks.foldl (fun writer mark => writer.markRoute path mark.1 mark.2) writer)) :
    ∃ left,
      (marks.foldl (fun writer mark => writer.markRoute path mark.1 mark.2) writer).disk.content
        path = some left ∧
      (left = content ∨
        Reread content left ∧
          left = TextLines.joinLines (TextLines.lineEnd content) (TextLines.splitLines left)) := by
  have filesKept : FilesKept found
      (marks.foldl (fun writer mark => writer.markRoute path mark.1 mark.2) writer) := by
    have run := (filesKept_of_create made).foldl_handle
      (marks.map fun mark => WriterEvent.mark path mark.1 mark.2)
    rw [List.foldl_map] at run
    exact run
  have file := filesKept.files path
  obtain ⟨kept, isKept⟩ := exists_kept 1 0 (TextLines.splitLines content)
  have texts := isKept.texts
  rw [fst_stripFrom] at texts
  have base := base_of_kept markable.only isKept
  have follows := Follows.foldl_markRoute isPath isKept base
    (follows_of_create made readable) marks markable.named markable.careful
  cases held : (marks.foldl (fun writer mark => writer.markRoute path mark.1 mark.2)
      writer).fileState.get path with
  | none => exact ⟨content, (file.unread held).2.trans readable, .inl rfl⟩
  | some state =>
      obtain ⟨other, isOther, readFrom, onDisk⟩ := file.read state held
      rw [readable] at isOther
      cases isOther
      rcases settled with last | failed
      case inr => exact ⟨content, onDisk.failed failed, .inl rfl⟩
      case inl =>
        have written := onDisk.written last
        have holds := follows.file.held state held
        have marked : ∃ entry ∈ kept, statusesAt marks entry.2 ≠ [] := by
          by_contra none_
          have nothing : ∀ mark ∈ marks, (Writer.normalizeStatus mark.2).isEmpty = true := by
            intro mark isMark
            cases empty : (Writer.normalizeStatus mark.2).isEmpty with
            | true => rfl
            | false =>
                obtain ⟨positive, line, isLine, -⟩ := markable.named mark isMark
                have isEntry := isKept.complete (mark.1 - 1) line isLine
                  (markable.careful.untouched isMark)
                rw [Nat.add_sub_cancel' positive] at isEntry
                refine absurd ⟨(line, mark.1), isEntry, ?_⟩ none_
                exact List.ne_nil_of_mem (mem_statusesAt_iff.mpr ⟨empty, mark, isMark, rfl, rfl⟩)
          rw [foldl_markRoute_of_unmarked nothing, fileState_of_create made] at held
          cases held
        have plain : ∀ entry ∈ kept, opensBlock entry.1 = false := fun entry isEntry =>
          markable.plain entry.1 (texts ▸ List.mem_map_of_mem isEntry)
        obtain ⟨split, reread⟩ := reread_of_annotated texts base plain
          (fits_statusesAt markable.named isKept.numbered)
          (noFeed_statusesAt markable.oneLine) marked
        rw [readFrom.eol, holds.lines] at written
        refine ⟨_, written, .inr ⟨reread, ?_⟩⟩
        rw [split]

end Crashed

/-- A file with one route, every write of which succeeds. -/
def writtenFile : Disk :=
  { routeFile with succeeds := fun _ => true }

end DevComments
end HttpNative
