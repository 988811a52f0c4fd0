import HttpNative.Dev.CommentBlocks
import HttpNative.Library.Decimal
import HttpNative.Library.Dictionary
import Mathlib.Logic.Function.Basic

/-!
# The writer of dev comments

The writer reads a file at its first mark, takes former comments out, and keeps the lines.
Each mark puts a block above a line, or replaces the one that stands there, and writes the
whole file. Marks name lines of the file as it was read, so the writer counts what it took
out and what it has put in.
-/

namespace HttpNative
namespace DevComments

/-! ## Taking comments out -/

/-- The lines that are kept, and for each line how many lines have been removed when the
loop is past it. -/
def stripFrom (removedCount : Nat) (lines : List Text) : List Text × List Nat :=
  match lines with
  | [] => ([], [])
  | line :: rest =>
      if isSingleComment line then
        let stripped := stripFrom (removedCount + 1) rest
        (stripped.1, (removedCount + 1) :: stripped.2)
      else
        match _cut : if opensBlock line then markup.cutBlock (line :: rest) else none with
        | some (block, after) =>
            if block.any mentionsPrefix then
              let stripped := stripFrom (removedCount + block.length) after
              (stripped.1, List.range' (removedCount + 1) block.length ++ stripped.2)
            else
              let stripped := stripFrom removedCount rest
              (line :: stripped.1, removedCount :: stripped.2)
        | none =>
            let stripped := stripFrom removedCount rest
            (line :: stripped.1, removedCount :: stripped.2)
  termination_by lines.length
  decreasing_by
    all_goals simp_wf
    split at _cut
    · have shorter : after.length < rest.length + 1 := markup.length_lt_of_cutBlock _cut
      omega
    · cases _cut

/-- `lines` and `removedBeforeLine` -/
def stripGeneratedOptimizationComments (lines : List Text) : List Text × List Nat :=
  let stripped := stripFrom 0 lines
  (stripped.1, 0 :: stripped.2)

/-! ## Files -/

structure InsertedLines where
  line : Nat
  count : Nat

structure FileState where
  eol : Text
  lines : List Text
  baseLines : List Text
  removedBeforeLine : List Nat
  insertedAtOriginalLine : List InsertedLines

/-- The files that can be read, and whether the writes to come succeed, in order. The
writes of the process are kept with their paths, the last one first. -/
structure Disk where
  content : Text → Option Text
  succeeds : Nat → Bool
  writes : List (Text × Bool)

/-- A write that fails is only reported. -/
def Disk.persist (disk : Disk) (filePath : Text) (lines : List Text) (eol : Text) : Disk where
  content :=
    if disk.succeeds 0 then
      Function.update disk.content filePath (some (TextLines.joinLines eol lines))
    else
      disk.content
  succeeds := fun index => disk.succeeds (index + 1)
  writes := (filePath, disk.succeeds 0) :: disk.writes

/-- Whether the writes of a file succeeded, the last one first. -/
def Disk.outcomes (disk : Disk) (filePath : Text) : List Bool :=
  (disk.writes.filter fun write => write.1 = filePath).map Prod.snd

def normalizeSourceLine (state : FileState) (sourceLine : Nat) : Nat :=
  let normalized := max 1 sourceLine
  let lookupIndex := min normalized (state.removedBeforeLine.length - 1)
  let removed := (state.removedBeforeLine[lookupIndex]?).getD 0
  max 1 (normalized - removed)

def countInsertedBefore
    (insertedAtOriginalLine : List InsertedLines)
    (originalLine : Nat) : Nat :=
  insertedAtOriginalLine.foldl
    (fun count entry => if entry.line ≤ originalLine then count + entry.count else count) 0

/-- `push` and `sort` -/
def pushInserted (inserted : List InsertedLines) (entry : InsertedLines) : List InsertedLines :=
  (inserted ++ [entry]).mergeSort fun left right => left.line ≤ right.line

/-- The line that a source line has become, counted from one. -/
def effectiveLine (state : FileState) (sourceLine : Nat) : Nat :=
  let normalizedLine := normalizeSourceLine state sourceLine
  normalizedLine + countInsertedBefore state.insertedAtOriginalLine normalizedLine

/-- What `annotateFile` makes of the lines; none where it writes nothing. -/
def annotateLines
    (state : FileState)
    (sourceLine : Nat)
    (status : Text)
    (replaceExisting : Bool) : Option FileState :=
  let normalizedLine := normalizeSourceLine state sourceLine
  let targetIndex := effectiveLine state sourceLine - 1
  match state.lines[targetIndex]? with
  | none => none
  | some routeLine =>
      let indent := indentOf routeLine
      match findExistingOptimizationBlock state.lines targetIndex with
      | some existing =>
          let merged :=
            if replaceExisting then [status] else mergeStatuses existing.statuses status
          some
            { state with
              lines := splice state.lines existing.startIndex
                (existing.endIndex - existing.startIndex + 1)
                (buildOptimizationBlock indent merged) }
      | none =>
          let above := if targetIndex = 0 then none else state.lines[targetIndex - 1]?
          match parseSingleLineComment above indent with
          | some statuses =>
              let merged := if replaceExisting then [status] else mergeStatuses statuses status
              let replacement := buildOptimizationBlock indent merged
              some
                { state with
                  lines := splice state.lines (targetIndex - 1) 1 replacement
                  insertedAtOriginalLine := pushInserted state.insertedAtOriginalLine
                    { line := normalizedLine, count := replacement.length - 1 } }
          | none =>
              let block := buildOptimizationBlock indent [status]
              some
                { state with
                  lines := splice state.lines targetIndex 0 block
                  insertedAtOriginalLine := pushInserted state.insertedAtOriginalLine
                    { line := normalizedLine, count := block.length } }

/-! ## The writer -/

structure Writer where
  applied : List Text
  initializedRoutes : List Text
  fileState : Dictionary Text FileState
  disk : Disk

namespace Writer

/-- `createRouteDevCommentWriter`; none where no comments are written. -/
def create (disk : Disk) (devComments hotReload hotReloadVariable : Bool) : Option Writer :=
  if devComments && !hotReload && !hotReloadVariable then
    some
      { applied := []
        initializedRoutes := []
        fileState := []
        disk := { disk with writes := [] } }
  else
    none

/-- The state of a file that is read now. -/
def readFile (fileText : Text) : FileState :=
  let lines := TextLines.splitLines fileText
  let cleaned := stripGeneratedOptimizationComments lines
  { eol := TextLines.lineEnd fileText
    lines := cleaned.1
    baseLines := cleaned.1
    removedBeforeLine := cleaned.2
    insertedAtOriginalLine := [] }

/-- The state of a file, read at the first time, when comments of a former run are taken
out of the file as well. -/
def getFileState (writer : Writer) (filePath : Text) : Option (FileState × Writer) :=
  match writer.fileState.get filePath with
  | some state => some (state, writer)
  | none =>
      (writer.disk.content filePath).map fun fileText =>
        let state := readFile fileText
        let disk :=
          if TextLines.splitLines fileText = state.lines then writer.disk
          else writer.disk.persist filePath state.lines state.eol
        (state,
          { writer with
            fileState := writer.fileState.set filePath state
            disk := disk })

def annotateFile
    (writer : Writer)
    (filePath : Text)
    (sourceLine : Nat)
    (status : Text)
    (replaceExisting : Bool) : Writer :=
  match writer.getFileState filePath with
  | none => writer
  | some (state, writer) =>
      match annotateLines state sourceLine status replaceExisting with
      | none => writer
      | some next =>
          { writer with
            fileState := writer.fileState.set filePath next
            disk := writer.disk.persist filePath next.lines next.eol }

/-- `String(status || "optimized").trim()` -/
def normalizeStatus (status : Text) : Text :=
  Text.trim (if status.isEmpty then text "optimized" else status)

def routeKey (filePath : Text) (line : Nat) : Text :=
  filePath ++ ':' :: Decimal.write line

def dedupeKey (filePath : Text) (line : Nat) (status : Text) : Text :=
  routeKey filePath line ++ ':' :: status

def markRoute (writer : Writer) (filePath : Text) (line : Nat) (status : Text) : Writer :=
  let normalizedStatus := normalizeStatus status
  let dedupeKey := dedupeKey filePath line normalizedStatus
  let routeKey := routeKey filePath line
  if filePath.isEmpty || normalizedStatus.isEmpty || writer.applied.contains dedupeKey then
    writer
  else
    let marked :=
      { writer with
        applied := dedupeKey :: writer.applied
        initializedRoutes := routeKey :: writer.initializedRoutes }
    marked.annotateFile filePath line normalizedStatus (!writer.initializedRoutes.contains routeKey)

def cleanupFile (writer : Writer) (filePath : Text) (state : FileState) : Writer :=
  if state.lines = state.baseLines then
    writer
  else
    { writer with
      fileState := writer.fileState.set filePath { state with lines := state.baseLines }
      disk := writer.disk.persist filePath state.baseLines state.eol }

def cleanup (writer : Writer) : Writer :=
  writer.fileState.foldl (fun writer entry => writer.cleanupFile entry.1 entry.2) writer

end Writer

end DevComments
end HttpNative
