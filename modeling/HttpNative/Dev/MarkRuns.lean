import HttpNative.Dev.MarkedFiles

/-!
# Runs of marks

Whatever marks come in whatever order, the statuses that are marked for a line stand in the
block above it, each once and in the order of their first marks. This takes that the lines
are not among those taken out when the file was read, and that no status is merged into a
block with a status that holds the bar between two statuses.
-/

namespace HttpNative
namespace DevComments

/-! ## Marks -/

/-- The statuses marked for a line, in the order of their first marks. -/
def statusesAt (marks : List (Nat × Text)) (number : Nat) : List Text :=
  (((marks.filter fun mark => mark.1 == number).map fun mark => Writer.normalizeStatus mark.2).filter
    fun status => !status.isEmpty).eraseDups

/-- The mark names a line of the file that is not blank. -/
def NamesLine (lines : List Text) (mark : Nat × Text) : Prop :=
  1 ≤ mark.1 ∧ ∃ line, lines[mark.1 - 1]? = some line ∧ isBlankLine line = false

/-- The mark brings a status that its line does not have yet. -/
def AddsStatus (earlier : List (Nat × Text)) (mark : Nat × Text) : Prop :=
  (Writer.normalizeStatus mark.2).isEmpty = false ∧
    Writer.normalizeStatus mark.2 ∉ statusesAt earlier mark.1

/-- The line stays when comments of a former run are taken out, and a further status finds
none with a bar in its block. -/
structure Careful
    (lines : List Text)
    (earlier : List (Nat × Text))
    (mark : Nat × Text) : Prop where
  untouched : Untouched lines (mark.1 - 1)
  noBars : AddsStatus earlier mark → ∀ status ∈ statusesAt earlier mark.1, '|' ∉ status

/-- Each mark of a run is careful after those before it. -/
def CarefulRun (lines : List Text) (marks : List (Nat × Text)) : Prop :=
  ∀ earlier mark later, marks = earlier ++ mark :: later → Careful lines earlier mark

section Careful

variable {lines : List Text} {marks : List (Nat × Text)} {mark : Nat × Text}

theorem carefulRun_nil : CarefulRun lines [] := by
  intro earlier mark later same
  exact absurd same.symm (List.append_ne_nil_of_right_ne_nil _ (List.cons_ne_nil _ _))

theorem carefulRun_concat_iff :
    CarefulRun lines (marks ++ [mark]) ↔ CarefulRun lines marks ∧ Careful lines marks mark := by
  constructor
  · intro careful
    refine ⟨fun earlier other later same => ?_, careful marks mark [] rfl⟩
    exact careful earlier other (later ++ [mark]) (by rw [same]; simp)
  · rintro ⟨careful, last⟩ earlier other later same
    rcases List.eq_nil_or_concat' later with rfl | ⟨others, final, rfl⟩
    · obtain ⟨front, back⟩ := List.append_inj' same rfl
      rw [← front, ← List.singleton_inj.mp back]
      exact last
    · rw [← List.cons_append, ← List.append_assoc] at same
      exact careful earlier other others (List.append_inj' same rfl).1

theorem CarefulRun.untouched
    (careful : CarefulRun lines marks)
    (isMark : mark ∈ marks) :
    Untouched lines (mark.1 - 1) := by
  obtain ⟨earlier, later, same⟩ := List.append_of_mem isMark
  exact (careful earlier mark later same).untouched

end Careful

section Statuses

variable {marks : List (Nat × Text)} {number : Nat}

theorem statusesAt_append_of_ne
    (marks : List (Nat × Text))
    {mark : Nat × Text}
    (other : mark.1 ≠ number) :
    statusesAt (marks ++ [mark]) number = statusesAt marks number := by
  rw [statusesAt, List.filter_append, List.filter_singleton, beq_eq_false_iff_ne.mpr other,
    cond_false, List.append_nil, statusesAt]

theorem statusesAt_append_self
    (marks : List (Nat × Text))
    {mark : Nat × Text}
    (notEmpty : (Writer.normalizeStatus mark.2).isEmpty = false) :
    statusesAt (marks ++ [mark]) mark.1 =
      if Writer.normalizeStatus mark.2 ∈ statusesAt marks mark.1 then statusesAt marks mark.1
      else statusesAt marks mark.1 ++ [Writer.normalizeStatus mark.2] := by
  have last : [Writer.normalizeStatus mark.2].filter (fun status => !status.isEmpty) =
      [Writer.normalizeStatus mark.2] :=
    List.filter_eq_self.mpr (List.forall_mem_singleton.mpr (by rw [notEmpty]; rfl))
  rw [statusesAt, List.filter_append, List.filter_singleton, beq_self_eq_true, cond_true,
    List.map_append, List.filter_append, List.map_singleton, last, eraseDups_append_singleton]
  refine if_congr ?_ rfl rfl
  rw [List.contains_iff_mem, statusesAt, List.mem_eraseDups]

/-- A new status comes last. -/
theorem statusesAt_append_of_new
    (marks : List (Nat × Text))
    {mark : Nat × Text}
    (notEmpty : (Writer.normalizeStatus mark.2).isEmpty = false)
    (new : Writer.normalizeStatus mark.2 ∉ statusesAt marks mark.1) :
    statusesAt (marks ++ [mark]) =
      Function.update (statusesAt marks) mark.1
        (statusesAt marks mark.1 ++ [Writer.normalizeStatus mark.2]) := by
  funext number
  by_cases same : number = mark.1
  · rw [same, Function.update_self, statusesAt_append_self marks notEmpty, if_neg new]
  · rw [Function.update_of_ne same, statusesAt_append_of_ne marks (Ne.symm same)]

/-- A status that has been marked, or is empty, changes nothing. -/
theorem statusesAt_append_of_old
    (marks : List (Nat × Text))
    {mark : Nat × Text}
    (old : (Writer.normalizeStatus mark.2).isEmpty = false →
      Writer.normalizeStatus mark.2 ∈ statusesAt marks mark.1) :
    statusesAt (marks ++ [mark]) = statusesAt marks := by
  funext number
  by_cases same : mark.1 = number
  · cases same
    cases empty : (Writer.normalizeStatus mark.2).isEmpty with
    | false => rw [statusesAt_append_self marks empty, if_pos (old empty)]
    | true =>
        have nothing : [Writer.normalizeStatus mark.2].filter (fun status => !status.isEmpty) = [] :=
          List.filter_eq_nil_iff.mpr (List.forall_mem_singleton.mpr (by rw [empty]; decide))
        rw [statusesAt, List.filter_append, List.filter_singleton, beq_self_eq_true, cond_true,
          List.map_append, List.filter_append, List.map_singleton, nothing, List.append_nil, statusesAt]
  · exact statusesAt_append_of_ne marks same

theorem mem_statusesAt_iff
    {status : Text} :
    status ∈ statusesAt marks number ↔
      status.isEmpty = false ∧ ∃ mark ∈ marks, mark.1 = number ∧
        Writer.normalizeStatus mark.2 = status := by
  unfold statusesAt
  rw [List.mem_eraseDups, List.mem_filter, List.mem_map, Bool.not_eq_true', and_comm]
  refine and_congr_right fun _ => exists_congr fun mark => ?_
  rw [List.mem_filter, beq_iff_eq, and_assoc]

theorem trim_trim
    (input : Text) :
    Text.trim (Text.trim input) = Text.trim input := by
  obtain ⟨before, after, same, blankBefore, blankAfter⟩ := Text.exists_trimWith Text.isSpace input
  have outer := trim_append_blank blankBefore blankAfter (Text.trimWith Text.isSpace input)
  rw [← same] at outer
  exact outer.symm

theorem isStatus_normalizeStatus
    {status : Text}
    (notEmpty : (Writer.normalizeStatus status).isEmpty = false) :
    IsStatus (Writer.normalizeStatus status) where
  trimmed := trim_trim _
  notEmpty := notEmpty

/-- Marked statuses fit the lines of a file. -/
theorem fits_statusesAt
    {lines : List Text} {kept : List (Text × Nat)}
    (named : ∀ mark ∈ marks, NamesLine lines mark)
    (numbered : ∀ entry ∈ kept, 1 ≤ entry.2 ∧ lines[entry.2 - 1]? = some entry.1) :
    Fits (statusesAt marks) kept where
  areStatuses number status member := by
    obtain ⟨notEmpty, mark, -, -, rfl⟩ := mem_statusesAt_iff.mp member
    exact isStatus_normalizeStatus notEmpty
  distinct number := nodup_eraseDups _
  solid entry isKept blank := by
    refine List.eq_nil_iff_forall_not_mem.mpr fun status member => ?_
    obtain ⟨-, mark, isMark, same, -⟩ := mem_statusesAt_iff.mp member
    obtain ⟨-, line, found, solid⟩ := named mark isMark
    rw [same, (numbered entry isKept).2] at found
    cases found
    rw [blank] at solid
    cases solid

end Statuses

/-! ## Keys -/

theorem routeKey_injective
    (path : Text) :
    Function.Injective (Writer.routeKey path) := by
  intro number other same
  have digits := (List.cons.inj (List.append_cancel_left same)).2
  have values := congrArg Decimal.value digits
  rwa [Decimal.value_write, Decimal.value_write] at values

theorem dedupeKey_inj
    {path : Text} {number other : Nat} {status otherStatus : Text}
    (same : Writer.dedupeKey path number status = Writer.dedupeKey path other otherStatus) :
    number = other ∧ status = otherStatus := by
  have ends : ∀ status : Text, Decimal.Ends (':' :: status) := by
    rintro status char first
    cases first
    decide
  unfold Writer.dedupeKey Writer.routeKey at same
  rw [List.append_assoc, List.append_assoc, List.cons_append, List.cons_append] at same
  have rest := (List.cons.inj (List.append_cancel_left same)).2
  have digits := congrArg (List.takeWhile Char.isDigit) rest
  rw [Decimal.takeWhile_write_append number (ends status),
    Decimal.takeWhile_write_append other (ends otherStatus)] at digits
  rw [digits] at rest
  refine ⟨?_, (List.cons.inj (List.append_cancel_left rest)).2⟩
  have values := congrArg Decimal.value digits
  rwa [Decimal.value_write, Decimal.value_write] at values

/-! ## The file as it is read -/

section Read

variable {lines : List Text} {kept : List (Text × Nat)}

theorem base_of_kept
    (only : markup.OnlyGeneratedClose lines)
    (isKept : Kept 1 0 lines (stripFrom 0 lines) kept) :
    Base kept := by
  have texts := isKept.texts
  rw [fst_stripFrom] at texts
  have member : ∀ entry ∈ kept, entry.1 ∈ markup.cleaned lines := fun entry isEntry =>
    texts ▸ List.mem_map_of_mem isEntry
  exact
    { increasing := isKept.increasing
      noComment := fun entry isEntry =>
        (BlockMarkup.quiet_cleaned lines).noComment entry.1 (member entry isEntry)
      noCloser := fun entry isEntry =>
        BlockMarkup.not_closes_of_mem_cleaned only entry.1 (member entry isEntry) }

/-- A file that is read has no blocks, and each line is counted at its place. -/
theorem annotated_readFile
    {content : Text}
    (isKept : Kept 1 0 (TextLines.splitLines content)
      (stripFrom 0 (TextLines.splitLines content)) kept) :
    Annotated (fun _ => []) kept (Writer.readFile content) where
  base := isKept.texts
  lines := by
    have plain : annotated (fun _ => []) = fun entry : Text × Nat => [entry.1] := rfl
    rw [plain, ← List.map_eq_flatMap]
    exact isKept.texts.symm
  placed front entry back same := by
    obtain ⟨later, found⟩ := isKept.table front entry back same
    obtain ⟨inside, -⟩ := List.getElem?_eq_some_iff.mp found
    change max 1 (max 1 entry.2 - ((0 :: (stripFrom 0 (TextLines.splitLines content)).2)[
      min (max 1 entry.2) ((stripFrom 0 (TextLines.splitLines content)).2.length + 1 - 1)]?).getD 0) =
        front.length + 1
    have index : min (max 1 entry.2)
        ((stripFrom 0 (TextLines.splitLines content)).2.length + 1 - 1) = entry.2 - 1 + 1 := by
      omega
    rw [index, List.getElem?_cons_succ, found, Option.getD_some]
    omega
  counted place _ := by
    have nothing : ∀ entries : List (Text × Nat),
        (entries.map (blockLength fun _ => [])).sum = 0 := by
      intro entries
      induction entries with
      | nil => rfl
      | cons entry rest hypothesis =>
          rw [List.map_cons, List.sum_cons, hypothesis]
          rfl
    rw [nothing]
    rfl

end Read

/-! ## The writer over a run -/

/-- What the writer holds of a file before it is read, and after. -/
structure HoldsFile
    (content path : Text)
    (kept : List (Text × Nat))
    (statuses : Nat → List Text)
    (writer : Writer) : Prop where
  unread : writer.fileState.get path = none →
    writer.disk.content path = some content ∧ statuses = fun _ => []
  held : ∀ state, writer.fileState.get path = some state → Annotated statuses kept state

/-- The writer after marks on lines of one file. -/
structure Follows
    (content path : Text)
    (kept : List (Text × Nat))
    (statuses : Nat → List Text)
    (writer : Writer) : Prop where
  applied : ∀ number status, Writer.dedupeKey path number status ∈ writer.applied ↔
    status ∈ statuses number
  initialized : ∀ number, Writer.routeKey path number ∈ writer.initializedRoutes ↔
    statuses number ≠ []
  file : HoldsFile content path kept statuses writer

section Runs

variable {content path : Text} {kept : List (Text × Nat)} {statuses : Nat → List Text}
variable {writer : Writer} {line status : Text} {number : Nat}

theorem HoldsFile.exists_getFileState
    (holds : HoldsFile content path kept statuses writer)
    (isKept : Kept 1 0 (TextLines.splitLines content)
      (stripFrom 0 (TextLines.splitLines content)) kept) :
    ∃ state next, writer.getFileState path = some (state, next) ∧ Annotated statuses kept state ∧
      next.applied = writer.applied ∧ next.initializedRoutes = writer.initializedRoutes := by
  unfold Writer.getFileState
  cases found : writer.fileState.get path with
  | some state => exact ⟨state, writer, rfl, holds.held state found, rfl, rfl⟩
  | none =>
      obtain ⟨readable, rfl⟩ := holds.unread found
      rw [readable]
      exact ⟨_, _, rfl, annotated_readFile isKept, rfl, rfl⟩

theorem HoldsFile.annotateFile
    (holds : HoldsFile content path kept statuses writer)
    (isKept : Kept 1 0 (TextLines.splitLines content)
      (stripFrom 0 (TextLines.splitLines content)) kept)
    (base : Base kept)
    (fits : Fits statuses kept)
    (isEntry : (line, number) ∈ kept)
    (noBars : ∀ other ∈ statuses number, '|' ∉ other)
    (new : status ∉ statuses number)
    {replaceExisting : Bool}
    (replaces : replaceExisting = (statuses number).isEmpty) :
    HoldsFile content path kept (Function.update statuses number (statuses number ++ [status]))
        (writer.annotateFile path number status replaceExisting) ∧
      ((writer.annotateFile path number status replaceExisting).fileState.get path).isSome = true ∧
      (writer.annotateFile path number status replaceExisting).applied = writer.applied ∧
      (writer.annotateFile path number status replaceExisting).initializedRoutes =
        writer.initializedRoutes := by
  obtain ⟨state, next, read, annotates, applied, initialized⟩ := holds.exists_getFileState isKept
  obtain ⟨front, back, rfl⟩ := List.append_of_mem isEntry
  obtain ⟨lines, written, after⟩ := annotates.exists_annotateLines base fits noBars new
  unfold Writer.annotateFile
  rw [read, replaces]
  simp only [written]
  have got : (next.fileState.set path lines).get path = some lines := Dictionary.get_set_self ..
  refine ⟨⟨fun unread => ?_, fun other isHeld => ?_⟩, ?_, applied, initialized⟩
  · rw [got] at unread
    cases unread
  · rw [got] at isHeld
    cases isHeld
    exact after
  · rw [got]
    rfl

/-- One mark. -/
theorem Follows.markRoute
    (follows : Follows content path kept statuses writer)
    (named : path.isEmpty = false)
    (isKept : Kept 1 0 (TextLines.splitLines content)
      (stripFrom 0 (TextLines.splitLines content)) kept)
    (base : Base kept)
    (fits : Fits statuses kept)
    (isEntry : (line, number) ∈ kept)
    (noBars : ∀ other ∈ statuses number, '|' ∉ other)
    (notEmpty : (Writer.normalizeStatus status).isEmpty = false)
    (new : Writer.normalizeStatus status ∉ statuses number) :
    Follows content path kept
      (Function.update statuses number (statuses number ++ [Writer.normalizeStatus status]))
      (writer.markRoute path number status) := by
  have notApplied : writer.applied.contains
      (Writer.dedupeKey path number (Writer.normalizeStatus status)) = false := by
    rw [← Bool.not_eq_true, List.contains_iff_mem, follows.applied]
    exact new
  have replaces : (!writer.initializedRoutes.contains (Writer.routeKey path number)) =
      (statuses number).isEmpty := by
    rw [Bool.eq_iff_iff, Bool.not_eq_true', ← Bool.not_eq_true, List.contains_iff_mem,
      follows.initialized, not_not, List.isEmpty_iff]
  unfold Writer.markRoute
  simp only [named, notEmpty, notApplied, Bool.or_false, Bool.false_eq_true, if_false]
  have marked : HoldsFile content path kept statuses
      { writer with
        applied := Writer.dedupeKey path number (Writer.normalizeStatus status) :: writer.applied
        initializedRoutes := Writer.routeKey path number :: writer.initializedRoutes } :=
    ⟨follows.file.unread, follows.file.held⟩
  obtain ⟨file, -, applied, initialized⟩ :=
    marked.annotateFile isKept base fits isEntry noBars new replaces
  refine ⟨fun other otherStatus => ?_, fun other => ?_, file⟩
  · rw [applied, List.mem_cons, follows.applied]
    by_cases same : other = number
    · rw [same, Function.update_self, List.mem_append, List.mem_singleton, or_comm]
      refine or_congr_right ⟨fun key => (dedupeKey_inj key).2, fun key => by rw [key]⟩
    · rw [Function.update_of_ne same]
      exact or_iff_right fun key => same (dedupeKey_inj key).1
  · rw [initialized, List.mem_cons, follows.initialized]
    by_cases same : other = number
    · rw [same, Function.update_self]
      exact iff_of_true (.inl rfl) (by simp)
    · rw [Function.update_of_ne same]
      exact or_iff_right fun key => same (routeKey_injective path key)

theorem markRoute_of_old
    (follows : Follows content path kept statuses writer)
    (old : (Writer.normalizeStatus status).isEmpty = false →
      Writer.normalizeStatus status ∈ statuses number) :
    writer.markRoute path number status = writer := by
  refine if_pos ?_
  cases empty : (Writer.normalizeStatus status).isEmpty with
  | true => rw [Bool.or_true, Bool.true_or]
  | false =>
      rw [List.contains_iff_mem.mpr ((follows.applied number _).mpr (old empty)), Bool.or_true]

/-- A writer that has just been made follows no marks. -/
theorem follows_of_create
    {found : Disk} {writer : Writer} {devComments hotReload hotReloadVariable : Bool}
    (made : Writer.create found devComments hotReload hotReloadVariable = some writer)
    {path content : Text} {kept : List (Text × Nat)}
    (readable : found.content path = some content) :
    Follows content path kept (fun _ => []) writer := by
  unfold Writer.create at made
  split at made
  case isTrue =>
      cases made
      exact
        { applied := fun _ _ => iff_of_false nofun nofun
          initialized := fun _ => iff_of_false nofun fun notEmpty => notEmpty rfl
          file := ⟨fun _ => ⟨readable, rfl⟩, nofun⟩ }
  case isFalse => cases made

/-- A run of marks. -/
theorem Follows.foldl_markRoute
    (named : path.isEmpty = false)
    (isKept : Kept 1 0 (TextLines.splitLines content)
      (stripFrom 0 (TextLines.splitLines content)) kept)
    (base : Base kept)
    (follows : Follows content path kept (fun _ => []) writer)
    (marks : List (Nat × Text))
    (areNamed : ∀ mark ∈ marks, NamesLine (TextLines.splitLines content) mark)
    (areCareful : CarefulRun (TextLines.splitLines content) marks) :
    Follows content path kept (statusesAt marks)
      (marks.foldl (fun writer mark => writer.markRoute path mark.1 mark.2) writer) := by
  induction marks using List.reverseRecOn with
  | nil => exact follows
  | append_singleton marks mark hypothesis =>
      obtain ⟨marksNamed, markNamed⟩ := List.forall_mem_append.mp areNamed
      obtain ⟨marksCareful, markCareful⟩ := carefulRun_concat_iff.mp areCareful
      obtain ⟨positive, line, found, -⟩ := markNamed mark (List.mem_singleton_self mark)
      have before := hypothesis marksNamed marksCareful
      have fits := @fits_statusesAt marks _ kept marksNamed isKept.numbered
      have isEntry := isKept.complete (mark.1 - 1) line found markCareful.untouched
      rw [Nat.add_sub_cancel' positive] at isEntry
      rw [List.foldl_append]
      change Follows content path kept _ (Writer.markRoute _ path mark.1 mark.2)
      by_cases new : AddsStatus marks mark
      · rw [statusesAt_append_of_new marks new.1 new.2]
        exact before.markRoute named isKept base fits isEntry (markCareful.noBars new) new.1 new.2
      · have old : (Writer.normalizeStatus mark.2).isEmpty = false →
            Writer.normalizeStatus mark.2 ∈ statusesAt marks mark.1 :=
          fun notEmpty => not_not.mp fun absent => new ⟨notEmpty, absent⟩
        rw [statusesAt_append_of_old marks old, markRoute_of_old before old]
        exact before

end Runs

/-! ## What the writer holds -/

/-- The lines held for a file: those left of it in their order, each with the block of its
statuses above, and counted where they have come to stand. -/
def HoldsMarks
    (lines : List Text)
    (path : Text)
    (marks : List (Nat × Text))
    (writer : Writer) : Prop :=
  ((∃ number, statusesAt marks number ≠ []) → (writer.fileState.get path).isSome = true) ∧
    ∀ state, writer.fileState.get path = some state →
      ∃ kept : List (Text × Nat),
        kept.map Prod.fst = state.baseLines ∧
        state.baseLines = (stripGeneratedOptimizationComments lines).1 ∧
        kept.Pairwise (fun earlier later => earlier.2 < later.2) ∧
        (∀ entry ∈ kept, 1 ≤ entry.2 ∧ lines[entry.2 - 1]? = some entry.1) ∧
        (∀ mark ∈ marks, ∃ line, (line, mark.1) ∈ kept) ∧
        state.lines = kept.flatMap (annotated (statusesAt marks)) ∧
        ∀ front entry back, kept = front ++ entry :: back →
          effectiveLine state entry.2 =
            (front.flatMap (annotated (statusesAt marks)) ++
              blockOf (statusesAt marks entry.2) entry.1).length + 1

/-- Over every run of marks on lines that stay, the lines of the file keep their order and
each has the block of its statuses above it. -/
theorem holdsMarks_of_careful
    {disk : Disk} {devComments hotReload hotReloadVariable : Bool} {writer : Writer}
    (made : Writer.create disk devComments hotReload hotReloadVariable = some writer)
    {path content : Text}
    (named : path.isEmpty = false)
    (readable : disk.content path = some content)
    (only : markup.OnlyGeneratedClose (TextLines.splitLines content))
    (marks : List (Nat × Text))
    (areNamed : ∀ mark ∈ marks, NamesLine (TextLines.splitLines content) mark)
    (areCareful : CarefulRun (TextLines.splitLines content) marks) :
    HoldsMarks (TextLines.splitLines content) path marks
      (marks.foldl (fun writer mark => writer.markRoute path mark.1 mark.2) writer) := by
  obtain ⟨kept, isKept⟩ := exists_kept 1 0 (TextLines.splitLines content)
  have follows := Follows.foldl_markRoute named isKept (base_of_kept only isKept)
    (follows_of_create made readable) marks areNamed areCareful
  refine ⟨fun marked => ?_, fun state held => ?_⟩
  · obtain ⟨number, notEmpty⟩ := marked
    rw [Option.isSome_iff_ne_none]
    intro unread
    exact notEmpty (congrFun (follows.file.unread unread).2 number)
  · have holds := follows.file.held state held
    refine ⟨kept, holds.base, holds.base.symm.trans isKept.texts, isKept.increasing, isKept.numbered,
      fun mark isMark => ?_, holds.lines, ?_⟩
    · obtain ⟨positive, line, found, -⟩ := areNamed mark isMark
      have isEntry := isKept.complete (mark.1 - 1) line found (areCareful.untouched isMark)
      rw [Nat.add_sub_cancel' positive] at isEntry
      exact ⟨line, isEntry⟩
    · rintro front ⟨line, number⟩ back rfl
      exact holds.effectiveLine_eq

/-- A file with a comment of a former run, two of whose lines are marked, one of them twice and
the other with a status that holds a bar. -/
theorem holdsMarks_formerComment :
    HoldsMarks
      (TextLines.splitLines
        (text "// [http-native optimization] native-cache\nget('/x')\nget('/y')"))
      (text "server.js")
      [(2, text "static-fast-path"), (3, text "native|cache"), (2, text "bridge-dispatch")]
      ([(2, text "static-fast-path"), (3, text "native|cache"), (2, text "bridge-dispatch")].foldl
        (fun writer mark => writer.markRoute (text "server.js") mark.1 mark.2)
        { applied := []
          initializedRoutes := []
          fileState := []
          disk :=
            { content := fun _ =>
                some (text "// [http-native optimization] native-cache\nget('/x')\nget('/y')")
              succeeds := fun _ => true
              writes := [] } }) := by
  have lines : TextLines.splitLines
      (text "// [http-native optimization] native-cache\nget('/x')\nget('/y')") =
        [text "// [http-native optimization] native-cache", text "get('/x')", text "get('/y')"] := by
    decide
  let former : Disk :=
    { content := fun _ =>
        some (text "// [http-native optimization] native-cache\nget('/x')\nget('/y')")
      succeeds := fun _ => true
      writes := [] }
  refine @holdsMarks_of_careful former true false false _ rfl (text "server.js") _ (by decide) rfl
    ?_ _ ?_ ?_
  · rw [lines]
    exact BlockMarkup.onlyGeneratedClose_of_open (by decide)
  · rw [lines]
    simp only [List.forall_mem_cons]
    exact ⟨⟨by decide, _, rfl, by decide⟩, ⟨by decide, _, rfl, by decide⟩,
      ⟨by decide, _, rfl, by decide⟩, nofun⟩
  · rw [lines]
    have plain : ∀ line ∈ [text "// [http-native optimization] native-cache", text "get('/x')",
        text "get('/y')"], opensBlock line = false := by decide
    refine carefulRun_concat_iff.mpr ⟨carefulRun_concat_iff.mpr
      ⟨carefulRun_concat_iff.mpr ⟨carefulRun_nil, ?_⟩, ?_⟩, ?_⟩
    · exact ⟨untouched_of_plain plain (by decide), fun _ => nofun⟩
    · exact ⟨untouched_of_plain plain (by decide), fun _ => by decide⟩
    · exact ⟨untouched_of_plain plain (by decide), fun _ => by decide⟩

/-- Where a line opens a comment that ends in the same line, the writer takes the lines on to
the end of the next generated block for that block, and the marked line is lost. -/
theorem not_holdsMarks :
    ¬ ∀ (disk : Disk) (writer : Writer) (path content : Text) (marks : List (Nat × Text)),
      Writer.create disk true false false = some writer → path.isEmpty = false →
        disk.content path = some content →
        markup.OnlyGeneratedClose (TextLines.splitLines content) →
        (∀ mark ∈ marks, NamesLine (TextLines.splitLines content) mark) →
        HoldsMarks (TextLines.splitLines content) path marks
          (marks.foldl (fun writer mark => writer.markRoute path mark.1 mark.2) writer) := by
  intro always
  let block := buildOptimizationBlock [] [text "static-fast-path"]
  have generated : IsOptimizationBlock block := ⟨[], [text "static-fast-path"], nofun, rfl⟩
  let lines := [text "/** a */", text "get('/x')"] ++ (block ++ [text "get('/y')"])
  let content := TextLines.joinLines TextLines.lineFeed lines
  have split : TextLines.splitLines content = lines := by decide
  have only : markup.OnlyGeneratedClose lines :=
    .put (by decide) generated (BlockMarkup.onlyGeneratedClose_of_open (by decide))
  have names : ∀ mark ∈ [(2, text "static-fast-path")], NamesLine lines mark :=
    List.forall_mem_singleton.mpr ⟨by decide, text "get('/x')", rfl, by decide⟩
  have stripped : (stripGeneratedOptimizationComments lines).1 = [text "get('/y')"] := by
    have closed : markup.Closed ([text "get('/x')"] ++ block) := by
      refine ⟨[text "get('/x')"] ++ block.dropLast, text " */", rfl, by decide, by decide⟩
    have mentioned : (text "/** a */" :: ([text "get('/x')"] ++ block)).any mentionsPrefix = true := by
      decide
    have cut := congrArg Prod.fst
      (@stripFrom_block _ 0 _ [text "get('/y')"] (by decide) closed mentioned)
    refine cut.trans ?_
    rw [stripFrom_keep (by decide) fun _ _ opens => absurd opens (by decide), stripFrom_nil]
  obtain ⟨marked, holds⟩ := always
    { content := fun _ => some content, succeeds := fun _ => true, writes := [] } _ (text "server.js") content
    [(2, text "static-fast-path")] rfl (by decide) rfl (by rw [split]; exact only)
    (by rw [split]; exact names)
  obtain ⟨state, held⟩ := Option.isSome_iff_exists.mp (marked ⟨2, by decide⟩)
  obtain ⟨kept, texts, base, -, numbered, named, -⟩ := holds state held
  obtain ⟨line, isEntry⟩ := named _ (List.mem_singleton_self _)
  have isLine := (numbered _ isEntry).2
  rw [split] at isLine
  have member : line ∈ [text "get('/y')"] := by
    rw [← stripped, ← split, ← base, ← texts]
    exact List.mem_map_of_mem isEntry
  cases List.mem_singleton.mp member
  exact absurd isLine (by decide)

end DevComments
end HttpNative
