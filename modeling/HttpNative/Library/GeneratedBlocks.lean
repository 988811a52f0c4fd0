import Mathlib.Data.List.Basic
import Mathlib.Tactic.Tauto

/-!
# Generated blocks in a row of lines

A tool writes blocks of lines into a file that is not its own: each opens with a line
that opens a block and closes with the next line that closes one. To take its blocks
out again the tool goes by a mention. It takes out exactly what was generated if every
block that mentions it is a generated one.
-/

namespace HttpNative

/-- What the lines of a file mean to the tool, and which rows of them it generates. -/
structure BlockMarkup (Line : Type) where
  opens : Line → Bool
  closes : Line → Bool
  mentions : Line → Bool
  isComment : Line → Bool
  IsGenerated : List Line → Prop
  not_closes_of_opens : ∀ line, opens line = true → closes line = false
  not_opens_of_isComment : ∀ line, isComment line = true → opens line = false
  not_closes_of_isComment : ∀ line, isComment line = true → closes line = false
  mentions_of_isComment : ∀ line, isComment line = true → mentions line = true
  /-- Only the first line of a generated block opens, and only its last line closes. -/
  exists_of_isGenerated : ∀ block, IsGenerated block →
    ∃ first middle last, block = first :: middle ++ [last] ∧
      opens first = true ∧ (∀ line ∈ middle ++ [last], opens line = false) ∧
      closes last = true ∧ ∀ line ∈ first :: middle, closes line = false
  any_mentions_of_isGenerated : ∀ block, IsGenerated block → block.any mentions = true
  not_isComment_of_isGenerated : ∀ block, IsGenerated block →
    ∀ line ∈ block, isComment line = false

namespace BlockMarkup

variable {Line : Type}

/-! ## Blocks -/

section Blocks

variable (markup : BlockMarkup Line)

/-- The lines up to the first one that closes, and those behind it. -/
def cutBlock : List Line → Option (List Line × List Line)
  | [] => none
  | line :: rest =>
      if markup.closes line then some ([line], rest)
      else (cutBlock rest).map fun cut => (line :: cut.1, cut.2)

/-- The row closes with its last line and not before. -/
def Closed (block : List Line) : Prop :=
  ∃ front last, block = front ++ [last] ∧ markup.closes last = true ∧
    ∀ line ∈ front, markup.closes line = false

theorem cutBlock_eq_some_iff
    {lines block after : List Line} :
    markup.cutBlock lines = some (block, after) ↔ markup.Closed block ∧ lines = block ++ after := by
  constructor
  · intro cut
    induction lines generalizing block with
    | nil => cases cut
    | cons line rest hypothesis =>
        rw [cutBlock] at cut
        split at cut
        case isTrue closes =>
            cases cut
            exact ⟨⟨[], line, rfl, closes, nofun⟩, rfl⟩
        case isFalse stays =>
            obtain ⟨⟨inner, _⟩, found, same⟩ := Option.map_eq_some_iff.mp cut
            cases same
            obtain ⟨⟨front, last, rfl, closes, before⟩, rfl⟩ := hypothesis found
            refine ⟨⟨line :: front, last, rfl, closes, ?_⟩, rfl⟩
            exact List.forall_mem_cons.mpr ⟨Bool.eq_false_iff.mpr stays, before⟩
  · rintro ⟨⟨front, last, rfl, closes, before⟩, rfl⟩
    induction front with
    | nil =>
        rw [List.nil_append, List.singleton_append, cutBlock, if_pos closes]
    | cons line rest hypothesis =>
        obtain ⟨stays, restStays⟩ := List.forall_mem_cons.mp before
        rw [List.cons_append, List.cons_append, cutBlock, stays, if_neg Bool.false_ne_true,
          hypothesis restStays]
        rfl

theorem length_lt_of_cutBlock
    {lines block after : List Line}
    (cut : markup.cutBlock lines = some (block, after)) :
    after.length < lines.length := by
  obtain ⟨⟨front, last, rfl, -⟩, rfl⟩ := markup.cutBlock_eq_some_iff.mp cut
  simp only [List.length_append, List.length_singleton]
  omega

end Blocks

variable {markup : BlockMarkup Line}

theorem closed_of_isGenerated
    {block : List Line}
    (generated : markup.IsGenerated block) :
    markup.Closed block := by
  obtain ⟨first, middle, last, rfl, -, -, closes, before⟩ := markup.exists_of_isGenerated _ generated
  exact ⟨first :: middle, last, rfl, closes, before⟩

theorem cutBlock_of_isGenerated
    {block : List Line}
    (generated : markup.IsGenerated block)
    (after : List Line) :
    markup.cutBlock (block ++ after) = some (block, after) :=
  markup.cutBlock_eq_some_iff.mpr ⟨closed_of_isGenerated generated, rfl⟩

/-- A generated block with its first line apart. -/
theorem exists_cons_of_isGenerated
    {block : List Line}
    (generated : markup.IsGenerated block) :
    ∃ first rest, block = first :: rest ∧ markup.opens first = true ∧ markup.Closed rest ∧
      ∀ line ∈ rest, markup.opens line = false := by
  obtain ⟨first, middle, last, rfl, opens, others, closes, before⟩ :=
    markup.exists_of_isGenerated _ generated
  exact ⟨first, middle ++ [last], rfl, opens,
    ⟨middle, last, rfl, closes, (List.forall_mem_cons.mp before).2⟩, others⟩

/-! ## Taking blocks out -/

section Strip

variable (markup)

/-- Take out the comments, and the blocks that are to be removed. -/
def strip (removes : List Line → Bool) (lines : List Line) : List Line :=
  match lines with
  | [] => []
  | line :: rest =>
      if markup.isComment line then strip removes rest
      else
        match _cut : if markup.opens line then markup.cutBlock (line :: rest) else none with
        | some (block, after) =>
            if removes block then strip removes after else line :: strip removes rest
        | none => line :: strip removes rest
  termination_by lines.length
  decreasing_by
    all_goals simp_wf
    split at _cut
    · have shorter : after.length < rest.length + 1 := markup.length_lt_of_cutBlock _cut
      omega
    · cases _cut

variable {markup} {removes : List Line → Bool} {line : Line} {rest : List Line}

theorem strip_nil :
    markup.strip removes [] = [] := by
  rw [strip]

theorem strip_comment
    (comment : markup.isComment line = true) :
    markup.strip removes (line :: rest) = markup.strip removes rest := by
  rw [strip, if_pos comment]

theorem strip_plain
    (noComment : markup.isComment line = false)
    (plain : markup.opens line = false) :
    markup.strip removes (line :: rest) = line :: markup.strip removes rest := by
  rw [strip, noComment, if_neg Bool.false_ne_true]
  split
  case h_1 cut =>
      rw [plain, if_neg Bool.false_ne_true] at cut
      cases cut
  case h_2 => rfl

theorem strip_open
    (opens : markup.opens line = true)
    (noEnd : markup.cutBlock (line :: rest) = none) :
    markup.strip removes (line :: rest) = line :: markup.strip removes rest := by
  have noComment : markup.isComment line = false := by
    cases comment : markup.isComment line with
    | false => rfl
    | true => rw [markup.not_opens_of_isComment line comment] at opens; cases opens
  rw [strip, noComment, if_neg Bool.false_ne_true]
  split
  case h_1 cut =>
      rw [if_pos opens, noEnd] at cut
      cases cut
  case h_2 => rfl

theorem strip_block
    {block after : List Line}
    (opens : markup.opens line = true)
    (cut : markup.cutBlock (line :: rest) = some (block, after)) :
    markup.strip removes (line :: rest) =
      if removes block then markup.strip removes after
      else line :: markup.strip removes rest := by
  have noComment : markup.isComment line = false := by
    cases comment : markup.isComment line with
    | false => rfl
    | true => rw [markup.not_opens_of_isComment line comment] at opens; cases opens
  rw [strip, noComment, if_neg Bool.false_ne_true]
  split
  case h_1 found =>
      rw [if_pos opens, cut] at found
      cases found
      rfl
  case h_2 found =>
      rw [if_pos opens, cut] at found
      cases found

/-- The cases of a strip. -/
theorem blockInduction
    (markup : BlockMarkup Line)
    {motive : List Line → Prop}
    (nil : motive [])
    (comment : ∀ line rest, markup.isComment line = true → motive rest → motive (line :: rest))
    (plain : ∀ line rest, markup.isComment line = false → markup.opens line = false →
      motive rest → motive (line :: rest))
    (unclosed : ∀ line rest, markup.opens line = true → markup.cutBlock (line :: rest) = none →
      motive rest → motive (line :: rest))
    (block : ∀ line tail after, markup.opens line = true → markup.Closed tail →
      motive after → motive (tail ++ after) → motive (line :: tail ++ after))
    (lines : List Line) :
    motive lines := by
  match lines with
  | [] => exact nil
  | line :: rest =>
      have restHolds := blockInduction markup nil comment plain unclosed block rest
      cases isComment : markup.isComment line with
      | true => exact comment line rest isComment restHolds
      | false =>
          cases opens : markup.opens line with
          | false => exact plain line rest isComment opens restHolds
          | true =>
              cases cut : markup.cutBlock (line :: rest) with
              | none => exact unclosed line rest opens cut restHolds
              | some parts =>
                  have shorter : parts.2.length < rest.length + 1 :=
                    markup.length_lt_of_cutBlock cut
                  have afterHolds := blockInduction markup nil comment plain unclosed block parts.2
                  rw [cutBlock, markup.not_closes_of_opens line opens,
                    if_neg Bool.false_ne_true] at cut
                  obtain ⟨⟨tail, after⟩, cutRest, rfl⟩ := Option.map_eq_some_iff.mp cut
                  obtain ⟨closed, rfl⟩ := markup.cutBlock_eq_some_iff.mp cutRest
                  exact block line tail after opens closed afterHolds restHolds
termination_by lines.length
decreasing_by
  all_goals simp_wf
  omega

/-- A block with the line that opens it. -/
theorem Closed.cons
    {tail : List Line}
    (closed : markup.Closed tail)
    (opens : markup.opens line = true) :
    markup.Closed (line :: tail) := by
  obtain ⟨front, last, rfl, closes, before⟩ := closed
  exact ⟨line :: front, last, rfl, closes,
    List.forall_mem_cons.mpr ⟨markup.not_closes_of_opens line opens, before⟩⟩

theorem strip_cons_append
    {tail after : List Line}
    (opens : markup.opens line = true)
    (closed : markup.Closed tail) :
    markup.strip removes (line :: tail ++ after) =
      if removes (line :: tail) then markup.strip removes after
      else line :: markup.strip removes (tail ++ after) :=
  strip_block opens (markup.cutBlock_eq_some_iff.mpr ⟨closed.cons opens, rfl⟩)

theorem strip_sublist
    (removes : List Line → Bool)
    (lines : List Line) :
    (markup.strip removes lines).Sublist lines := by
  induction lines using markup.blockInduction with
  | nil => rw [strip_nil]
  | comment line rest isComment hypothesis =>
      rw [strip_comment isComment]
      exact hypothesis.cons line
  | plain line rest noComment notOpen hypothesis =>
      rw [strip_plain noComment notOpen]
      exact hypothesis.cons_cons line
  | unclosed line rest opens noEnd hypothesis =>
      rw [strip_open opens noEnd]
      exact hypothesis.cons_cons line
  | block line tail after opens closed afterHypothesis restHypothesis =>
      rw [strip_cons_append opens closed]
      split
      · exact afterHypothesis.trans (List.sublist_append_right _ after)
      · exact restHypothesis.cons_cons line

end Strip

/-! ## Every block of a row -/

section EveryBlock

variable (markup)

/-- Whatever stands between a line that opens a block and the next one that closes it. -/
def EveryBlock (property : List Line → Prop) (lines : List Line) : Prop :=
  ∀ before line tail after, lines = before ++ (line :: tail) ++ after →
    markup.opens line = true → markup.Closed tail → property (line :: tail)

/-- Every block with a mention was generated. -/
def Clear (lines : List Line) : Prop :=
  markup.EveryBlock (fun block => block.any markup.mentions = true → markup.IsGenerated block) lines

/-- There is no comment and no block with a mention. -/
structure Quiet (lines : List Line) : Prop where
  noComment : ∀ line ∈ lines, markup.isComment line = false
  unmentioned : markup.EveryBlock (fun block => block.any markup.mentions = false) lines

variable {markup} {property : List Line → Prop} {line : Line} {rest lines : List Line}

theorem everyBlock_nil :
    markup.EveryBlock property [] := by
  intro before line tail after same
  have length := congrArg List.length same
  simp at length

theorem everyBlock_cons_iff :
    markup.EveryBlock property (line :: rest) ↔
      (markup.opens line = true → ∀ tail after, rest = tail ++ after → markup.Closed tail →
        property (line :: tail)) ∧ markup.EveryBlock property rest := by
  constructor
  · intro every
    refine ⟨fun opens tail after same closed => ?_, fun before other tail after same => ?_⟩
    · exact every [] line tail after (by rw [same]; rfl) opens closed
    · exact every (line :: before) other tail after (by rw [same]; rfl)
  · rintro ⟨first, others⟩ before other tail after same opens closed
    cases before with
    | nil =>
        obtain ⟨rfl, rfl⟩ := List.cons.inj same
        exact first opens tail after rfl closed
    | cons head before =>
        obtain ⟨rfl, rfl⟩ := List.cons.inj same
        exact others before other tail after rfl opens closed

theorem everyBlock_cons_of_plain
    (notOpen : markup.opens line = false) :
    markup.EveryBlock property (line :: rest) ↔ markup.EveryBlock property rest := by
  rw [everyBlock_cons_iff, notOpen]
  exact and_iff_right nofun

theorem everyBlock_append_of_plain
    {front : List Line}
    (notOpen : ∀ line ∈ front, markup.opens line = false)
    (after : List Line) :
    markup.EveryBlock property (front ++ after) ↔ markup.EveryBlock property after := by
  induction front with
  | nil => rfl
  | cons line front hypothesis =>
      obtain ⟨first, others⟩ := List.forall_mem_cons.mp notOpen
      rw [List.cons_append, everyBlock_cons_of_plain first, hypothesis others]

/-- A block ends only where it first closes. -/
theorem Closed.eq_of_append_eq
    {tail other after others : List Line}
    (closed : markup.Closed tail)
    (otherClosed : markup.Closed other)
    (same : tail ++ after = other ++ others) :
    tail = other ∧ after = others := by
  have cut := markup.cutBlock_eq_some_iff.mpr ⟨closed, same.symm.trans rfl⟩
  rw [markup.cutBlock_eq_some_iff.mpr ⟨otherClosed, rfl⟩] at cut
  have parts := Option.some.inj cut
  exact ⟨(congrArg Prod.fst parts).symm, (congrArg Prod.snd parts).symm⟩

theorem everyBlock_cons_append
    {tail after : List Line}
    (opens : markup.opens line = true)
    (closed : markup.Closed tail) :
    markup.EveryBlock property (line :: tail ++ after) ↔
      property (line :: tail) ∧ markup.EveryBlock property (tail ++ after) := by
  rw [List.cons_append, everyBlock_cons_iff]
  refine and_congr_left fun _ => ⟨fun every => every opens tail after rfl closed, ?_⟩
  intro holds _ other others same otherClosed
  rw [← (closed.eq_of_append_eq otherClosed same).1]
  exact holds

theorem everyBlock_of_unclosed
    (opens : markup.opens line = true)
    (noEnd : markup.cutBlock (line :: rest) = none) :
    markup.EveryBlock property (line :: rest) ↔ markup.EveryBlock property rest := by
  rw [everyBlock_cons_iff]
  refine and_iff_right fun _ tail after same closed => ?_
  rw [markup.cutBlock_eq_some_iff.mpr ⟨closed.cons opens, by rw [same]; rfl⟩] at noEnd
  cases noEnd

theorem Quiet.tail
    (quiet : markup.Quiet (line :: rest)) :
    markup.Quiet rest :=
  ⟨fun other member => quiet.noComment other (List.mem_cons_of_mem _ member),
    (everyBlock_cons_iff.mp quiet.unmentioned).2⟩

theorem clear_of_quiet
    (quiet : markup.Quiet lines) :
    markup.Clear lines := by
  intro before line tail after same opens closed mentioned
  rw [quiet.unmentioned before line tail after same opens closed] at mentioned
  cases mentioned

end EveryBlock

/-! ## What the tool takes out -/

section Cleaning

variable (markup)

/-- The tool takes out every block with a mention. -/
def cleaned (lines : List Line) : List Line :=
  markup.strip (fun block => block.any markup.mentions) lines

open Classical in
/-- The lines that are not the tool's own. -/
noncomputable def ownLines (lines : List Line) : List Line :=
  markup.strip (fun block => decide (markup.IsGenerated block)) lines

variable {markup} {line : Line} {tail after lines : List Line}

theorem ownLines_cons_append
    (opens : markup.opens line = true)
    (closed : markup.Closed tail) :
    (markup.IsGenerated (line :: tail) →
      markup.ownLines (line :: tail ++ after) = markup.ownLines after) ∧
    (¬ markup.IsGenerated (line :: tail) →
      markup.ownLines (line :: tail ++ after) = line :: markup.ownLines (tail ++ after)) := by
  rw [ownLines, strip_cons_append opens closed]
  constructor
  · intro generated
    simp only [generated, decide_true, if_true]
    rfl
  · intro notGenerated
    simp only [notGenerated, decide_false, Bool.false_eq_true, if_false]
    rfl

theorem cleaned_cons_append
    (opens : markup.opens line = true)
    (closed : markup.Closed tail) :
    markup.cleaned (line :: tail ++ after) =
      if (line :: tail).any markup.mentions then markup.cleaned after
      else line :: markup.cleaned (tail ++ after) :=
  strip_cons_append opens closed

/-- A line that closes a block stays. -/
theorem strip_of_closes
    {removes : List Line → Bool}
    (closes : markup.closes line = true)
    (rest : List Line) :
    markup.strip removes (line :: rest) = line :: markup.strip removes rest := by
  refine strip_plain ?_ ?_
  · cases comment : markup.isComment line with
    | false => rfl
    | true => rw [markup.not_closes_of_isComment line comment] at closes; cases closes
  · cases opens : markup.opens line with
    | false => rfl
    | true => rw [markup.not_closes_of_opens line opens] at closes; cases closes

/-- What is left of a row is no shorter for the lines before it. -/
theorem length_ownLines_le
    {lines : List Line}
    (closed : markup.Closed tail)
    (spelled : lines = tail ++ after) :
    (markup.ownLines after).length ≤ (markup.ownLines lines).length := by
  induction lines using markup.blockInduction generalizing tail with
  | nil =>
      obtain ⟨front, last, rfl, -⟩ := closed
      simp at spelled
  | comment line rest isComment hypothesis =>
      obtain ⟨front, last, rfl, closes, before⟩ := closed
      rw [ownLines, ownLines, strip_comment isComment]
      cases front with
      | nil =>
          obtain ⟨rfl, rfl⟩ := List.cons.inj spelled
          have never := markup.not_closes_of_isComment line isComment
          exact absurd (never.symm.trans closes) Bool.false_ne_true
      | cons head front =>
          obtain ⟨rfl, rfl⟩ := List.cons.inj spelled
          exact hypothesis ⟨front, last, rfl, closes, (List.forall_mem_cons.mp before).2⟩ rfl
  | plain line rest noComment notOpen hypothesis =>
      obtain ⟨front, last, rfl, closes, before⟩ := closed
      rw [ownLines, ownLines, strip_plain noComment notOpen, List.length_cons]
      cases front with
      | nil =>
          obtain ⟨rfl, rfl⟩ := List.cons.inj spelled
          exact Nat.le_succ _
      | cons head front =>
          obtain ⟨rfl, rfl⟩ := List.cons.inj spelled
          exact Nat.le_succ_of_le
            (hypothesis ⟨front, last, rfl, closes, (List.forall_mem_cons.mp before).2⟩ rfl)
  | unclosed line rest opens noEnd hypothesis =>
      rw [markup.cutBlock_eq_some_iff.mpr ⟨closed, spelled⟩] at noEnd
      cases noEnd
  | block line inner others opens innerClosed afterHypothesis restHypothesis =>
      obtain ⟨rfl, rfl⟩ := (innerClosed.cons opens).eq_of_append_eq closed spelled
      by_cases generated : markup.IsGenerated (line :: inner)
      · have same := (@ownLines_cons_append _ markup line inner others opens innerClosed).1 generated
        exact Nat.le_of_eq (congrArg List.length same.symm)
      · rw [(ownLines_cons_append opens innerClosed).2 generated, List.length_cons]
        exact Nat.le_succ_of_le (restHypothesis innerClosed rfl)

/-- Either the tool takes out exactly its own lines, or one of the others is missing
and one that opens a block is among these. -/
theorem cleaned_cases
    (lines : List Line) :
    (markup.Clear lines ∧ markup.cleaned lines = markup.ownLines lines) ∨
      ¬ markup.Clear lines ∧ (markup.cleaned lines).length < (markup.ownLines lines).length ∧
        ∃ line ∈ markup.ownLines lines, markup.opens line = true := by
  induction lines using markup.blockInduction with
  | nil =>
      refine .inl ⟨everyBlock_nil, ?_⟩
      rw [cleaned, ownLines, strip_nil, strip_nil]
  | comment line rest isComment hypothesis =>
      have notOpen := markup.not_opens_of_isComment line isComment
      rw [Clear, everyBlock_cons_of_plain notOpen, cleaned, ownLines, strip_comment isComment,
        strip_comment isComment]
      exact hypothesis
  | plain line rest noComment notOpen hypothesis =>
      rw [Clear, everyBlock_cons_of_plain notOpen, cleaned, ownLines,
        strip_plain noComment notOpen, strip_plain noComment notOpen]
      exact hypothesis.imp (And.imp_right (congrArg (line :: ·))) (And.imp_right fun missing =>
        ⟨Nat.succ_lt_succ missing.1, missing.2.imp fun other =>
          And.imp_left (List.mem_cons_of_mem line)⟩)
  | unclosed line rest opens noEnd hypothesis =>
      rw [Clear, everyBlock_of_unclosed opens noEnd, cleaned, ownLines, strip_open opens noEnd,
        strip_open opens noEnd]
      exact hypothesis.imp (And.imp_right (congrArg (line :: ·))) (And.imp_right fun missing =>
        ⟨Nat.succ_lt_succ missing.1, missing.2.imp fun other =>
          And.imp_left (List.mem_cons_of_mem line)⟩)
  | block line tail after opens closed afterHypothesis restHypothesis =>
      have own := @ownLines_cons_append _ markup line tail after opens closed
      rw [Clear, everyBlock_cons_append opens closed, cleaned_cons_append opens closed]
      by_cases generated : markup.IsGenerated (line :: tail)
      · -- the block is taken out, rightly
        have others : ∀ other ∈ tail, markup.opens other = false := by
          obtain ⟨first, rest, same, -, -, plain⟩ := exists_cons_of_isGenerated generated
          obtain ⟨rfl, rfl⟩ := List.cons.inj same
          exact plain
        rw [if_pos (markup.any_mentions_of_isGenerated _ generated), own.1 generated,
          everyBlock_append_of_plain others, and_iff_right fun _ => generated]
        exact afterHypothesis
      · rw [own.2 generated]
        cases mentioned : (line :: tail).any markup.mentions with
        | true =>
            -- its first line is missing
            rw [if_pos rfl]
            refine .inr ⟨fun clear => generated (clear.1 rfl), ?_, line, List.mem_cons_self, opens⟩
            have kept := length_ownLines_le closed (rfl : tail ++ after = tail ++ after)
            rw [List.length_cons]
            rcases afterHypothesis with ⟨-, same⟩ | ⟨-, shorter, -⟩
            · rw [same]
              exact Nat.lt_succ_of_le kept
            · exact Nat.lt_succ_of_le (Nat.le_trans (Nat.le_of_lt shorter) kept)
        | false =>
            rw [if_neg Bool.false_ne_true,
              and_iff_right fun impossible => absurd impossible Bool.false_ne_true]
            exact restHypothesis.imp (And.imp_right (congrArg (line :: ·)))
              (And.imp_right fun missing => ⟨Nat.succ_lt_succ missing.1,
                missing.2.imp fun other => And.imp_left (List.mem_cons_of_mem line)⟩)

theorem cleaned_eq_ownLines
    (clear : markup.Clear lines) :
    markup.cleaned lines = markup.ownLines lines := by
  rcases cleaned_cases lines with ⟨-, same⟩ | ⟨unclear, -⟩
  · exact same
  · exact absurd clear unclear

/-! ## Quiet rows -/

/-- A block without a mention is kept, whatever follows it. -/
theorem cleaned_append_of_unmentioned
    {front : List Line}
    (closed : markup.Closed front)
    (unmentioned : front.any markup.mentions = false)
    (after : List Line) :
    markup.cleaned (front ++ after) = front ++ markup.cleaned after := by
  obtain ⟨lines, last, rfl, closes, before⟩ := closed
  induction lines with
  | nil => exact strip_of_closes closes after
  | cons line lines hypothesis =>
      obtain ⟨stays, restStays⟩ := List.forall_mem_cons.mp before
      rw [List.cons_append, List.any_cons, Bool.or_eq_false_iff] at unmentioned
      have rest := hypothesis unmentioned.2 restStays
      cases opens : markup.opens line with
      | true =>
          have inner : markup.Closed (lines ++ [last]) := ⟨lines, last, rfl, closes, restStays⟩
          rw [List.cons_append, cleaned_cons_append opens inner, List.any_cons, unmentioned.1,
            unmentioned.2, if_neg (by decide), rest, List.cons_append]
      | false =>
          have noComment : markup.isComment line = false := by
            cases comment : markup.isComment line with
            | false => rfl
            | true =>
                rw [markup.mentions_of_isComment line comment] at unmentioned
                cases unmentioned.1
          rw [List.cons_append, List.cons_append, cleaned, strip_plain noComment opens]
          exact congrArg (line :: ·) rest

theorem cutBlock_eq_none_of_sublist
    {less more : List Line}
    (inside : less.Sublist more)
    (noEnd : markup.cutBlock more = none) :
    markup.cutBlock less = none := by
  have open_ : ∀ {lines : List Line}, markup.cutBlock lines = none ↔
      ∀ line ∈ lines, markup.closes line = false := by
    intro lines
    induction lines with
    | nil => exact iff_of_true rfl nofun
    | cons line rest hypothesis =>
        rw [cutBlock, List.forall_mem_cons]
        split
        case isTrue closes =>
            refine iff_of_false nofun fun all => ?_
            rw [all.1] at closes
            cases closes
        case isFalse stays =>
            rw [Option.map_eq_none_iff, hypothesis, Bool.eq_false_iff.mpr stays]
            exact (and_iff_right rfl).symm
  exact open_.mpr fun line member => open_.mp noEnd line (inside.subset member)

/-- What the tool leaves has nothing more for it to take out. -/
theorem quiet_cleaned
    (lines : List Line) :
    markup.Quiet (markup.cleaned lines) := by
  have put : ∀ {line : Line} {rest : List Line}, markup.isComment line = false →
      markup.Quiet rest →
      markup.EveryBlock (fun block => block.any markup.mentions = false) (line :: rest) →
      markup.Quiet (line :: rest) := fun noComment quiet every =>
    ⟨List.forall_mem_cons.mpr ⟨noComment, quiet.noComment⟩, every⟩
  have noComment : ∀ {line : Line}, markup.opens line = true → markup.isComment line = false := by
    intro line opens
    cases comment : markup.isComment line with
    | false => rfl
    | true => rw [markup.not_opens_of_isComment line comment] at opens; cases opens
  induction lines using markup.blockInduction with
  | nil =>
      rw [cleaned, strip_nil]
      exact ⟨nofun, everyBlock_nil⟩
  | comment line rest isComment hypothesis =>
      rw [cleaned, strip_comment isComment]
      exact hypothesis
  | plain line rest notComment notOpen hypothesis =>
      rw [cleaned, strip_plain notComment notOpen]
      exact put notComment hypothesis ((everyBlock_cons_of_plain notOpen).mpr
        hypothesis.unmentioned)
  | unclosed line rest opens noEnd hypothesis =>
      have inside : (markup.cleaned rest).Sublist rest := strip_sublist _ rest
      have stillNone := cutBlock_eq_none_of_sublist (inside.cons_cons line) noEnd
      rw [cleaned, strip_open opens noEnd]
      exact put (noComment opens) hypothesis
        ((everyBlock_of_unclosed opens stillNone).mpr hypothesis.unmentioned)
  | block line tail after opens closed afterHypothesis restHypothesis =>
      rw [cleaned_cons_append opens closed]
      cases mentioned : (line :: tail).any markup.mentions with
      | true =>
          rw [if_pos rfl]
          exact afterHypothesis
      | false =>
          rw [if_neg Bool.false_ne_true]
          have tailQuiet : tail.any markup.mentions = false := by
            rw [List.any_cons, Bool.or_eq_false_iff] at mentioned
            exact mentioned.2
          have kept := cleaned_append_of_unmentioned closed tailQuiet after
          refine put (noComment opens) restHypothesis ?_
          have every := restHypothesis.unmentioned
          rw [kept] at every ⊢
          exact (everyBlock_cons_append opens closed).mpr ⟨mentioned, every⟩

theorem ownLines_of_quiet
    (quiet : markup.Quiet lines) :
    markup.ownLines lines = lines := by
  induction lines using markup.blockInduction with
  | nil => rw [ownLines, strip_nil]
  | comment line rest isComment hypothesis =>
      rw [quiet.noComment line List.mem_cons_self] at isComment
      cases isComment
  | plain line rest noComment notOpen hypothesis =>
      rw [ownLines, strip_plain noComment notOpen]
      exact congrArg (line :: ·) (hypothesis quiet.tail)
  | unclosed line rest opens noEnd hypothesis =>
      rw [ownLines, strip_open opens noEnd]
      exact congrArg (line :: ·) (hypothesis quiet.tail)
  | block line tail after opens closed afterHypothesis restHypothesis =>
      rw [(ownLines_cons_append opens closed).2, restHypothesis quiet.tail, List.cons_append]
      intro generated
      have mentioned := markup.any_mentions_of_isGenerated _ generated
      rw [((everyBlock_cons_append opens closed).mp quiet.unmentioned).1] at mentioned
      cases mentioned

end Cleaning

/-! ## Rows that only generated blocks close -/

section OnlyGeneratedClose

variable (markup)

/-- A line closes only at the end of a generated block. -/
def OnlyGeneratedClose (lines : List Line) : Prop :=
  ∀ before line after, lines = before ++ line :: after → markup.closes line = true →
    ∃ block, markup.IsGenerated block ∧ block <:+ before ++ [line]

variable {markup} {line : Line} {rest : List Line}

theorem OnlyGeneratedClose.tail
    (only : markup.OnlyGeneratedClose (line :: rest))
    (noBlock : ∀ block after, markup.IsGenerated block → line :: rest ≠ block ++ after) :
    markup.OnlyGeneratedClose rest := by
  intro before other after same closes
  obtain ⟨block, generated, ends⟩ := only (line :: before) other after (by rw [same]; rfl) closes
  rcases List.suffix_cons_iff.mp ends with whole | inside
  · refine absurd ?_ (noBlock block after generated)
    rw [whole, same]
    exact congrArg (line :: ·) (List.append_cons before other after)
  · exact ⟨block, generated, inside⟩

theorem OnlyGeneratedClose.append
    {front after : List Line}
    (only : markup.OnlyGeneratedClose (front ++ after))
    (closed : markup.Closed front) :
    markup.OnlyGeneratedClose after := by
  intro before other behind same closes
  obtain ⟨block, generated, start, ends⟩ := only (front ++ before) other behind
    (by rw [same, List.append_assoc]) closes
  rw [List.append_assoc] at ends
  rcases List.append_eq_append_iff.mp ends with ⟨crossing, rfl, whole⟩ | ⟨more, -, inside⟩
  · rcases List.eq_nil_or_concat' crossing with rfl | ⟨crossing, last, rfl⟩
    · exact ⟨block, generated, [], whole⟩
    · -- the front would close inside the block
      obtain ⟨lines, closer, split, lastCloses, -⟩ := closed
      rw [← List.append_assoc] at split
      obtain ⟨-, rfl⟩ := List.append_inj' split rfl |>.imp id List.singleton_inj.mp
      obtain ⟨first, middle, final, rfl, -, -, -, stays⟩ := markup.exists_of_isGenerated _ generated
      rw [← List.append_assoc] at whole
      have inner := (List.append_inj' whole rfl).1
      have never := stays last (by rw [inner]; simp)
      rw [never] at lastCloses
      cases lastCloses
  · exact ⟨block, generated, more, inside.symm⟩

/-- Where only generated blocks close, nothing that is left closes. -/
theorem not_closes_of_mem_cleaned
    {lines : List Line}
    (only : markup.OnlyGeneratedClose lines) :
    ∀ line ∈ markup.cleaned lines, markup.closes line = false := by
  induction lines using markup.blockInduction with
  | nil =>
      rw [cleaned, strip_nil]
      exact nofun
  | comment line rest isComment hypothesis =>
      rw [cleaned, strip_comment isComment]
      refine hypothesis (only.tail fun block after generated same => ?_)
      obtain ⟨first, others, rfl, -⟩ := exists_cons_of_isGenerated generated
      obtain ⟨rfl, -⟩ := List.cons.inj same
      rw [markup.not_isComment_of_isGenerated _ generated line List.mem_cons_self] at isComment
      cases isComment
  | plain line rest noComment notOpen hypothesis =>
      have noBlock : ∀ block after, markup.IsGenerated block → line :: rest ≠ block ++ after := by
        intro block after generated same
        obtain ⟨first, others, rfl, opens, -⟩ := exists_cons_of_isGenerated generated
        obtain ⟨rfl, -⟩ := List.cons.inj same
        rw [notOpen] at opens
        cases opens
      rw [cleaned, strip_plain noComment notOpen]
      refine List.forall_mem_cons.mpr ⟨?_, hypothesis (only.tail noBlock)⟩
      refine Bool.eq_false_iff.mpr fun closes => ?_
      obtain ⟨block, generated, ends⟩ := only [] line rest rfl closes
      obtain ⟨first, middle, last, rfl, -⟩ := markup.exists_of_isGenerated _ generated
      have short := ends.length_le
      simp at short
  | unclosed line rest opens noEnd hypothesis =>
      rw [cleaned, strip_open opens noEnd]
      refine List.forall_mem_cons.mpr ⟨markup.not_closes_of_opens line opens, hypothesis ?_⟩
      refine only.tail fun block after generated same => ?_
      rw [same, cutBlock_of_isGenerated generated] at noEnd
      cases noEnd
  | block line tail after opens closed afterHypothesis restHypothesis =>
      rw [cleaned_cons_append opens closed]
      split
      case isTrue => exact afterHypothesis (only.append (closed.cons opens))
      case isFalse unmentioned =>
          refine List.forall_mem_cons.mpr ⟨markup.not_closes_of_opens line opens, restHypothesis ?_⟩
          refine OnlyGeneratedClose.tail only fun block others generated same => ?_
          obtain ⟨rfl, -⟩ := (closed.cons opens).eq_of_append_eq (closed_of_isGenerated generated) same
          exact unmentioned (markup.any_mentions_of_isGenerated _ generated)

theorem onlyGeneratedClose_of_open
    {lines : List Line}
    (stays : ∀ line ∈ lines, markup.closes line = false) :
    markup.OnlyGeneratedClose lines := by
  rintro before line after rfl closes
  rw [stays line (List.mem_append_right _ List.mem_cons_self)] at closes
  cases closes

/-- A generated block may be put between lines. -/
theorem OnlyGeneratedClose.put
    {front block after : List Line}
    (stays : ∀ line ∈ front, markup.closes line = false)
    (generated : markup.IsGenerated block)
    (only : markup.OnlyGeneratedClose after) :
    markup.OnlyGeneratedClose (front ++ (block ++ after)) := by
  intro before line behind same closes
  obtain ⟨first, middle, last, spelled, firstOpens, -, -, blockStays⟩ :=
    markup.exists_of_isGenerated block generated
  rcases List.append_eq_append_iff.mp same with ⟨more, rfl, rest⟩ | ⟨more, rfl, rest⟩
  · rcases List.append_eq_append_iff.mp rest with ⟨others, rfl, inside⟩ | ⟨others, whole, inside⟩
    · obtain ⟨other, isOther, ends⟩ := only others line behind inside closes
      refine ⟨other, isOther, ends.trans ⟨front ++ block, ?_⟩⟩
      simp only [List.append_assoc]
    · cases others with
      | nil =>
          obtain ⟨other, isOther, ends⟩ := only [] line behind inside.symm closes
          refine ⟨other, isOther, ends.trans ⟨front ++ more, ?_⟩⟩
          simp only [List.append_assoc, List.nil_append]
      | cons head others =>
          obtain ⟨rfl, -⟩ := List.cons.inj inside
          rcases List.eq_nil_or_concat' others with rfl | ⟨others, final, rfl⟩
          · exact ⟨block, generated, front, by rw [whole, List.append_assoc]⟩
          · -- a line before the last one would close
            have spelledTwice : first :: middle ++ [last] = (more ++ line :: others) ++ [final] := by
              rw [← spelled, whole, List.append_assoc]
              rfl
            have inner := (List.append_inj' spelledTwice rfl).1
            rw [blockStays line (by rw [inner]; simp)] at closes
            cases closes
  · cases more with
    | nil =>
        rw [spelled] at rest
        obtain ⟨rfl, -⟩ := List.cons.inj rest
        rw [markup.not_closes_of_opens line firstOpens] at closes
        cases closes
    | cons head more =>
        obtain ⟨rfl, -⟩ := List.cons.inj rest
        rw [stays line (List.mem_append_right _ List.mem_cons_self)] at closes
        cases closes

end OnlyGeneratedClose

end BlockMarkup
end HttpNative
