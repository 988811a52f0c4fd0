import HttpNative.Dev.MarkedLines

/-!
# Runs of marks and cleanups

Marks come for lines of any files in any order, with cleanups in between. Whatever the marks
put into a file, its base lines stay what they were when the file was read, so that a
cleanup writes these lines back. A file is then as it was found, less the comments of a
former run and with its line ends made alike.
-/

namespace HttpNative
namespace DevComments

/-! ## Base lines -/

/-- What reading a file fixes. -/
structure ReadFrom (content : Text) (state : FileState) : Prop where
  baseLines : state.baseLines = markup.cleaned (TextLines.splitLines content)
  eol : state.eol = TextLines.lineEnd content

theorem readFrom_readFile
    (content : Text) :
    ReadFrom content (Writer.readFile content) where
  baseLines := fst_stripFrom 0 (TextLines.splitLines content)
  eol := rfl

/-- A mark changes neither the base lines nor the line end. -/
theorem ReadFrom.annotateLines
    {content : Text} {state next : FileState}
    {sourceLine : Nat} {status : Text} {replaceExisting : Bool}
    (read : ReadFrom content state)
    (annotated : DevComments.annotateLines state sourceLine status replaceExisting = some next) :
    ReadFrom content next := by
  unfold DevComments.annotateLines at annotated
  simp only at annotated
  split at annotated
  case h_1 => cases annotated
  case h_2 =>
      split at annotated
      case h_1 =>
          cases annotated
          exact ⟨read.baseLines, read.eol⟩
      case h_2 =>
          split at annotated
          case h_1 =>
              cases annotated
              exact ⟨read.baseLines, read.eol⟩
          case h_2 =>
              cases annotated
              exact ⟨read.baseLines, read.eol⟩

/-! ## The disk -/

section Disk

variable {disk : Disk} {filePath other : Text} {lines : List Text} {eol : Text}

theorem content_persist_of_ne
    (isOther : other ≠ filePath) :
    (disk.persist filePath lines eol).content other = disk.content other := by
  unfold Disk.persist
  dsimp only
  split
  · exact Function.update_of_ne isOther ..
  · rfl

theorem content_persist_self :
    (disk.persist filePath lines eol).content filePath =
      if disk.succeeds 0 = true then some (TextLines.joinLines eol lines)
      else disk.content filePath := by
  unfold Disk.persist
  dsimp only
  split
  · exact Function.update_self ..
  · rfl

theorem outcomes_persist_of_ne
    (isOther : other ≠ filePath) :
    (disk.persist filePath lines eol).outcomes other = disk.outcomes other := by
  unfold Disk.outcomes Disk.persist
  rw [List.filter_cons_of_neg]
  exact fun same => isOther (of_decide_eq_true same).symm

theorem outcomes_persist_self :
    (disk.persist filePath lines eol).outcomes filePath =
      disk.succeeds 0 :: disk.outcomes filePath := by
  simp [Disk.outcomes, Disk.persist]

end Disk

/-! ## What the writer keeps -/

/-- What its writes have made of a file: it is as it was found as long as none succeeds, and
has the lines that the writer holds for it when the last one did. Without a write these are
the lines that it was found with. -/
structure OnDisk (content filePath : Text) (state : FileState) (disk : Disk) : Prop where
  unwritten : disk.outcomes filePath = [] → state.lines = TextLines.splitLines content
  failed : (∀ succeeded ∈ disk.outcomes filePath, succeeded = false) →
    disk.content filePath = some content
  written : (disk.outcomes filePath).head? = some true →
    disk.content filePath = some (TextLines.joinLines state.eol state.lines)

theorem OnDisk.persist
    {disk : Disk} {content filePath : Text}
    (failed : (∀ succeeded ∈ disk.outcomes filePath, succeeded = false) →
      disk.content filePath = some content)
    (state : FileState) :
    OnDisk content filePath state (disk.persist filePath state.lines state.eol) where
  unwritten nothing := by
    rw [outcomes_persist_self] at nothing
    cases nothing
  failed all := by
    rw [outcomes_persist_self, List.forall_mem_cons] at all
    rw [content_persist_self, all.1, if_neg Bool.false_ne_true]
    exact failed all.2
  written last := by
    rw [outcomes_persist_self, List.head?_cons, Option.some.injEq] at last
    rw [content_persist_self, if_pos last]

/-- A file is as it was found, or as its writes have made it. -/
structure FileKept (found : Disk) (filePath : Text) (writer : Writer) : Prop where
  unread : writer.fileState.get filePath = none →
    writer.disk.outcomes filePath = [] ∧
      writer.disk.content filePath = found.content filePath
  read : ∀ state, writer.fileState.get filePath = some state →
    ∃ content, found.content filePath = some content ∧ ReadFrom content state ∧
      OnDisk content filePath state writer.disk

section Kept

variable {found : Disk} {writer : Writer} {filePath other : Text} {state next : FileState}
variable {content : Text}

/-- Another file is not touched. -/
theorem FileKept.of_ne
    {after : Writer}
    (kept : FileKept found other writer)
    (sameOutcomes : after.disk.outcomes other = writer.disk.outcomes other)
    (sameContent : after.disk.content other = writer.disk.content other)
    (sameState : after.fileState.get other = writer.fileState.get other) :
    FileKept found other after where
  unread := by
    rw [sameOutcomes, sameContent, sameState]
    exact kept.unread
  read held isHeld := by
    rw [sameState] at isHeld
    obtain ⟨content, isFound, readFrom, onDisk⟩ := kept.read held isHeld
    refine ⟨content, isFound, readFrom, ?_, ?_, ?_⟩
    · rw [sameOutcomes]
      exact onDisk.unwritten
    · rw [sameOutcomes, sameContent]
      exact onDisk.failed
    · rw [sameOutcomes, sameContent]
      exact onDisk.written

/-- The writer writes the lines that it holds from now on. -/
theorem FileKept.persist
    {applied initializedRoutes : List Text}
    (isFound : found.content filePath = some content)
    (read : ReadFrom content next)
    (failed : (∀ succeeded ∈ writer.disk.outcomes filePath, succeeded = false) →
      writer.disk.content filePath = some content) :
    FileKept found filePath
      { applied := applied
        initializedRoutes := initializedRoutes
        fileState := writer.fileState.set filePath next
        disk := writer.disk.persist filePath next.lines next.eol } where
  unread unread := by
    rw [Dictionary.get_set_self] at unread
    cases unread
  read held isHeld := by
    rw [Dictionary.get_set_self] at isHeld
    cases isHeld
    exact ⟨content, isFound, read, .persist failed next⟩

/-- A file none of whose writes succeeds stays as it was found. -/
theorem FileKept.content_of_failed
    (kept : FileKept found filePath writer)
    (held : writer.fileState.get filePath = some state)
    (isFound : found.content filePath = some content)
    (failed : ∀ succeeded ∈ writer.disk.outcomes filePath, succeeded = false) :
    writer.disk.content filePath = some content := by
  obtain ⟨other, isOther, -, onDisk⟩ := kept.read state held
  rw [onDisk.failed failed, ← isOther, isFound]

/-- Reading a file that has not been read. -/
theorem FileKept.getFileState
    (kept : FileKept found filePath writer)
    {after : Writer}
    (read : writer.getFileState filePath = some (state, after)) :
    FileKept found filePath after ∧ after.fileState.get filePath = some state ∧
      (∃ content, found.content filePath = some content ∧ ReadFrom content state) := by
  unfold Writer.getFileState at read
  cases held : writer.fileState.get filePath with
  | some old =>
      rw [held] at read
      cases read
      obtain ⟨content, isFound, readFrom, -⟩ := kept.read _ held
      exact ⟨kept, held, content, isFound, readFrom⟩
  | none =>
      rw [held] at read
      obtain ⟨content, onDisk, same⟩ := Option.map_eq_some_iff.mp read
      obtain ⟨unwritten, unchanged⟩ := kept.unread held
      have isFound : found.content filePath = some content := by
        rw [← unchanged, onDisk]
      have readFrom := readFrom_readFile content
      cases same
      refine ⟨?_, Dictionary.get_set_self .., content, isFound, readFrom⟩
      by_cases clean : TextLines.splitLines content = (Writer.readFile content).lines
      · rw [if_pos clean]
        refine ⟨fun unread => ?_, fun other isHeld => ?_⟩
        · change (writer.fileState.set filePath _).get filePath = none at unread
          rw [Dictionary.get_set_self] at unread
          cases unread
        · change (writer.fileState.set filePath _).get filePath = some other at isHeld
          rw [Dictionary.get_set_self] at isHeld
          cases isHeld
          refine ⟨content, isFound, readFrom, fun _ => clean.symm, fun _ => onDisk, fun last => ?_⟩
          change (writer.disk.outcomes filePath).head? = some true at last
          rw [unwritten] at last
          cases last
      · rw [if_neg clean]
        exact .persist isFound readFrom fun _ => onDisk

/-- Reading a file leaves the others alone. -/
theorem FileKept.getFileState_of_ne
    (kept : FileKept found other writer)
    (isOther : other ≠ filePath)
    {after : Writer}
    (read : writer.getFileState filePath = some (state, after)) :
    FileKept found other after := by
  unfold Writer.getFileState at read
  cases held : writer.fileState.get filePath with
  | some old =>
      rw [held] at read
      cases read
      exact kept
  | none =>
      rw [held] at read
      obtain ⟨content, -, same⟩ := Option.map_eq_some_iff.mp read
      cases same
      refine kept.of_ne ?_ ?_ (Dictionary.get_set_of_ne _ _ (Ne.symm isOther))
      · change Disk.outcomes (if _ then writer.disk else _) other = _
        split
        · rfl
        · exact outcomes_persist_of_ne isOther
      · change (if _ then writer.disk else _).content other = _
        split
        · rfl
        · exact content_persist_of_ne isOther

theorem FileKept.annotateFile
    (kept : ∀ path, FileKept found path writer)
    (filePath : Text)
    (sourceLine : Nat)
    (status : Text)
    (replaceExisting : Bool)
    (path : Text) :
    FileKept found path (writer.annotateFile filePath sourceLine status replaceExisting) := by
  unfold Writer.annotateFile
  cases read : writer.getFileState filePath with
  | none => exact kept path
  | some result =>
      obtain ⟨state, after⟩ := result
      obtain ⟨ownKept, held, content, isFound, readFrom⟩ := (kept filePath).getFileState read
      simp only
      cases annotated : annotateLines state sourceLine status replaceExisting with
      | none =>
          by_cases same : path = filePath
          · rw [same]
            exact ownKept
          · exact (kept path).getFileState_of_ne same read
      | some next =>
          by_cases same : path = filePath
          · rw [same]
            exact .persist isFound (readFrom.annotateLines annotated)
              (ownKept.content_of_failed held isFound)
          · exact ((kept path).getFileState_of_ne same read).of_ne (outcomes_persist_of_ne same)
              (content_persist_of_ne same) (Dictionary.get_set_of_ne _ _ (Ne.symm same))

theorem FileKept.markRoute
    (kept : ∀ path, FileKept found path writer)
    (filePath : Text)
    (line : Nat)
    (status : Text)
    (path : Text) :
    FileKept found path (writer.markRoute filePath line status) := by
  unfold Writer.markRoute
  simp only
  split
  · exact kept path
  · apply FileKept.annotateFile
    intro other
    exact ⟨(kept other).unread, (kept other).read⟩

/-! ## Cleaning up -/

theorem get_cleanupFile_self
    (held : writer.fileState.get filePath = some state) :
    (writer.cleanupFile filePath state).fileState.get filePath =
      some { state with lines := state.baseLines } := by
  unfold Writer.cleanupFile
  split
  case isTrue same =>
      rw [held]
      obtain ⟨eol, lines, baseLines, removedBeforeLine, insertedAtOriginalLine⟩ := state
      cases same
      rfl
  case isFalse => exact Dictionary.get_set_self ..

theorem get_cleanupFile_of_ne
    (isOther : other ≠ filePath) :
    (writer.cleanupFile filePath state).fileState.get other = writer.fileState.get other := by
  unfold Writer.cleanupFile
  split
  · rfl
  · exact Dictionary.get_set_of_ne _ _ (Ne.symm isOther)

theorem FileKept.cleanupFile
    (kept : ∀ path, FileKept found path writer)
    (held : writer.fileState.get filePath = some state)
    (path : Text) :
    FileKept found path (writer.cleanupFile filePath state) := by
  obtain ⟨content, isFound, readFrom, -⟩ := (kept filePath).read state held
  unfold Writer.cleanupFile
  split
  case isTrue => exact kept path
  case isFalse =>
      by_cases same : path = filePath
      · rw [same]
        apply FileKept.persist isFound
        · exact ⟨readFrom.baseLines, readFrom.eol⟩
        · exact (kept filePath).content_of_failed held isFound
      · exact (kept path).of_ne (outcomes_persist_of_ne same) (content_persist_of_ne same)
          (Dictionary.get_set_of_ne _ _ (Ne.symm same))

/-- Cleaning up file after file puts the base lines of each back. -/
theorem FileKept.foldl_cleanupFile
    (files : Dictionary Text FileState)
    (distinct : files.Distinct)
    (kept : ∀ path, FileKept found path writer)
    (held : ∀ file ∈ files, writer.fileState.get file.1 = some file.2) :
    (∀ path, FileKept found path
        (files.foldl (fun writer file => writer.cleanupFile file.1 file.2) writer)) ∧
      (∀ file ∈ files,
        (files.foldl (fun writer file => writer.cleanupFile file.1 file.2) writer).fileState.get
          file.1 = some { file.2 with lines := file.2.baseLines }) ∧
      ∀ path, path ∉ files.map Prod.fst →
        (files.foldl (fun writer file => writer.cleanupFile file.1 file.2) writer).fileState.get
          path = writer.fileState.get path := by
  induction files generalizing writer with
  | nil => exact ⟨kept, nofun, fun _ _ => rfl⟩
  | cons file files hypothesis =>
      obtain ⟨fileHeld, filesHeld⟩ := List.forall_mem_cons.mp held
      obtain ⟨absent, filesDistinct⟩ := List.nodup_cons.mp distinct
      have apart : ∀ other ∈ files, other.1 ≠ file.1 := fun other member same =>
        absent (same ▸ List.mem_map_of_mem member)
      obtain ⟨afterKept, afterHeld, afterOthers⟩ := hypothesis filesDistinct
        (FileKept.cleanupFile kept fileHeld)
        (fun other member => (get_cleanupFile_of_ne (apart other member)).trans
          (filesHeld other member))
      refine ⟨afterKept, List.forall_mem_cons.mpr ⟨?_, afterHeld⟩, fun path missing => ?_⟩
      · exact (afterOthers file.1 absent).trans (get_cleanupFile_self fileHeld)
      · rw [List.map_cons, List.mem_cons, not_or] at missing
        exact (afterOthers path missing.2).trans (get_cleanupFile_of_ne missing.1)

end Kept

/-! ## Runs -/

inductive WriterEvent where
  | mark (filePath : Text) (line : Nat) (status : Text)
  | cleanup

def Writer.handle (writer : Writer) : WriterEvent → Writer
  | .mark filePath line status => writer.markRoute filePath line status
  | .cleanup => writer.cleanup

/-- The files that the writer has read are kept once each. -/
structure FilesKept (found : Disk) (writer : Writer) : Prop where
  distinct : writer.fileState.Distinct
  files : ∀ path, FileKept found path writer

section Runs

variable {found : Disk} {writer : Writer}

theorem distinct_getFileState
    {filePath : Text} {state : FileState} {after : Writer}
    (distinct : writer.fileState.Distinct)
    (read : writer.getFileState filePath = some (state, after)) :
    after.fileState.Distinct := by
  unfold Writer.getFileState at read
  cases held : writer.fileState.get filePath with
  | some old =>
      rw [held] at read
      cases read
      exact distinct
  | none =>
      rw [held] at read
      obtain ⟨content, -, same⟩ := Option.map_eq_some_iff.mp read
      cases same
      exact distinct.set _ _

theorem distinct_annotateFile
    (distinct : writer.fileState.Distinct)
    (filePath : Text)
    (sourceLine : Nat)
    (status : Text)
    (replaceExisting : Bool) :
    (writer.annotateFile filePath sourceLine status replaceExisting).fileState.Distinct := by
  unfold Writer.annotateFile
  cases read : writer.getFileState filePath with
  | none => exact distinct
  | some result =>
      obtain ⟨state, after⟩ := result
      have afterDistinct := distinct_getFileState distinct read
      simp only
      split
      · exact afterDistinct
      · exact afterDistinct.set _ _

theorem FilesKept.markRoute
    (kept : FilesKept found writer)
    (filePath : Text)
    (line : Nat)
    (status : Text) :
    FilesKept found (writer.markRoute filePath line status) where
  distinct := by
    unfold Writer.markRoute
    simp only
    split
    · exact kept.distinct
    · apply distinct_annotateFile
      exact kept.distinct
  files := FileKept.markRoute kept.files filePath line status

theorem distinct_cleanupFile
    (distinct : writer.fileState.Distinct)
    (filePath : Text)
    (state : FileState) :
    (writer.cleanupFile filePath state).fileState.Distinct := by
  unfold Writer.cleanupFile
  split
  · exact distinct
  · exact distinct.set _ _

theorem distinct_foldl_cleanupFile
    (files : Dictionary Text FileState)
    (distinct : writer.fileState.Distinct) :
    (files.foldl (fun writer file => writer.cleanupFile file.1 file.2)
      writer).fileState.Distinct := by
  induction files generalizing writer with
  | nil => exact distinct
  | cons file files hypothesis =>
      apply hypothesis
      exact distinct_cleanupFile distinct file.1 file.2

/-- After a cleanup every file that is held has its base lines. -/
theorem FilesKept.cleanup
    (kept : FilesKept found writer) :
    FilesKept found writer.cleanup ∧
      ∀ path state, writer.cleanup.fileState.get path = some state →
        state.lines = state.baseLines := by
  obtain ⟨afterKept, restored, others⟩ := FileKept.foldl_cleanupFile writer.fileState
    kept.distinct kept.files fun file member => kept.distinct.get_of_mem member
  refine ⟨⟨distinct_foldl_cleanupFile _ kept.distinct, afterKept⟩, fun path state held => ?_⟩
  by_cases known : path ∈ writer.fileState.map Prod.fst
  · obtain ⟨file, member, rfl⟩ := List.mem_map.mp known
    have same := (restored file member).symm.trans held
    cases same
    rfl
  · have absent : writer.cleanup.fileState.get path = none :=
      (others path known).trans (Dictionary.get_eq_none_of_notMem known)
    rw [absent] at held
    cases held

theorem FilesKept.handle
    (kept : FilesKept found writer)
    (event : WriterEvent) :
    FilesKept found (writer.handle event) := by
  cases event with
  | mark filePath line status => exact kept.markRoute filePath line status
  | cleanup => exact kept.cleanup.1

theorem FilesKept.foldl_handle
    (kept : FilesKept found writer)
    (events : List WriterEvent) :
    FilesKept found (events.foldl Writer.handle writer) := by
  induction events generalizing writer with
  | nil => exact kept
  | cons event events hypothesis =>
      apply hypothesis
      exact kept.handle event

theorem filesKept_of_create
    {devComments hotReload hotReloadVariable : Bool}
    (made : Writer.create found devComments hotReload hotReloadVariable = some writer) :
    FilesKept found writer := by
  unfold Writer.create at made
  split at made
  case isTrue =>
      cases made
      exact ⟨Dictionary.distinct_nil, fun path => ⟨fun _ => ⟨rfl, rfl⟩, nofun⟩⟩
  case isFalse => cases made

end Runs

/-! ## Files that are cleaned up -/

/-- All line ends of a text are the one that it is written back with. -/
def UniformEnds (content : Text) : Prop :=
  ∀ line ∈ (TextLines.endedLines content).dropLast, line.2 = TextLines.lineEnd content

/-- Lines of a text with one kind of line ends and without former comments make that text. -/
theorem joinLines_cleaned
    {content : Text}
    (uniform : UniformEnds content)
    (quiet : markup.Quiet (TextLines.splitLines content)) :
    TextLines.joinLines (TextLines.lineEnd content)
      (markup.cleaned (TextLines.splitLines content)) = content := by
  rw [BlockMarkup.cleaned_eq_ownLines (BlockMarkup.clear_of_quiet quiet),
    BlockMarkup.ownLines_of_quiet quiet, ← TextLines.map_fst_endedLines,
    ← TextLines.render_eq_joinLines uniform]
  exact TextLines.render_endedLines content

/-- A file after a cleanup: as it was found, or its lines less the comments of a former run.
A file with one kind of line ends and no such comments is as it was found. -/
structure Restored (found : Disk) (path : Text) (writer : Writer) : Prop where
  lines : ∀ state, writer.fileState.get path = some state → state.lines = state.baseLines
  file : writer.disk.content path = found.content path ∨
    ∃ content, found.content path = some content ∧
      writer.disk.content path =
        some (TextLines.joinLines (TextLines.lineEnd content)
          (markup.cleaned (TextLines.splitLines content)))
  same : ∀ content, found.content path = some content → UniformEnds content →
    markup.Quiet (TextLines.splitLines content) → writer.disk.content path = some content

theorem Restored.of_file
    {found : Disk} {path : Text} {writer : Writer}
    (lines : ∀ state, writer.fileState.get path = some state → state.lines = state.baseLines)
    (file : writer.disk.content path = found.content path ∨
      ∃ content, found.content path = some content ∧
        writer.disk.content path =
          some (TextLines.joinLines (TextLines.lineEnd content)
            (markup.cleaned (TextLines.splitLines content)))) :
    Restored found path writer where
  lines := lines
  file := file
  same content isFound uniform quiet := by
    rcases file with same | ⟨other, isOther, written⟩
    · exact same.trans isFound
    · rw [isFound] at isOther
      cases isOther
      rw [written, joinLines_cleaned uniform quiet]

/-- The last write of the file succeeded, or none did. -/
def Settled (path : Text) (writer : Writer) : Prop :=
  (writer.disk.outcomes path).head? = some true ∨
    ∀ succeeded ∈ writer.disk.outcomes path, succeeded = false

theorem FilesKept.restored
    {found : Disk} {writer : Writer}
    (kept : FilesKept found writer)
    {path : Text}
    (settled : Settled path writer.cleanup) :
    Restored found path writer.cleanup := by
  obtain ⟨cleanedKept, cleaned⟩ := kept.cleanup
  have file := cleanedKept.files path
  apply Restored.of_file (cleaned path)
  cases held : writer.cleanup.fileState.get path with
  | none => exact .inl (file.unread held).2
  | some state =>
      obtain ⟨content, isFound, readFrom, onDisk⟩ := file.read state held
      rcases settled with last | failed
      · refine .inr ⟨content, isFound, ?_⟩
        rw [onDisk.written last, cleaned path state held, readFrom.baseLines, readFrom.eol]
      · exact .inl ((onDisk.failed failed).trans isFound.symm)

/-- A file with one route, of which only the first write fails. -/
def routeFile : Disk where
  content := fun _ => some (text "get('/x')\n")
  succeeds := fun index => index ≠ 0
  writes := []

def freshWriter (disk : Disk) : Writer where
  applied := []
  initializedRoutes := []
  fileState := []
  disk := { disk with writes := [] }

end DevComments
end HttpNative
