import HttpNative.Dev.CommentWriter

/-!
# Lines that are marked

A mark names a line of the file as it was read. Whatever was taken out of the file, and
whatever marks came before, the writer puts the block above that very line, as long as the
line itself was not taken out.
-/

namespace HttpNative
namespace DevComments

/-! ## What is taken out -/

section Strip

variable {line : Text} {rest : List Text} {removedCount : Nat}

theorem not_isSingleComment_of_opensBlock
    (opens : opensBlock line = true) :
    isSingleComment line = false := by
  refine Bool.eq_false_iff.mpr fun comment => ?_
  rw [not_opensBlock_of_isSingleComment line comment] at opens
  cases opens

theorem stripFrom_nil :
    stripFrom removedCount [] = ([], []) := by
  rw [stripFrom]

theorem stripFrom_comment
    (comment : isSingleComment line = true) :
    stripFrom removedCount (line :: rest) =
      ((stripFrom (removedCount + 1) rest).1,
        (removedCount + 1) :: (stripFrom (removedCount + 1) rest).2) := by
  rw [stripFrom, if_pos comment]

theorem stripFrom_keep
    (noComment : isSingleComment line = false)
    (notRemoved : ∀ block after, opensBlock line = true →
      markup.cutBlock (line :: rest) = some (block, after) → block.any mentionsPrefix = false) :
    stripFrom removedCount (line :: rest) =
      (line :: (stripFrom removedCount rest).1, removedCount :: (stripFrom removedCount rest).2) := by
  rw [stripFrom, noComment, if_neg Bool.false_ne_true]
  split
  case h_1 block after found =>
      split at found
      case isTrue opens => rw [notRemoved block after opens found, if_neg Bool.false_ne_true]
      case isFalse => cases found
  case h_2 => rfl

theorem stripFrom_block
    {tail after : List Text}
    (opens : opensBlock line = true)
    (closed : markup.Closed tail)
    (mentioned : (line :: tail).any mentionsPrefix = true) :
    stripFrom removedCount (line :: tail ++ after) =
      ((stripFrom (removedCount + (tail.length + 1)) after).1,
        List.range' (removedCount + 1) (tail.length + 1) ++
          (stripFrom (removedCount + (tail.length + 1)) after).2) := by
  have noComment := not_isSingleComment_of_opensBlock opens
  have cut : markup.cutBlock (line :: (tail ++ after)) = some (line :: tail, after) :=
    markup.cutBlock_eq_some_iff.mpr ⟨closed.cons opens, rfl⟩
  rw [List.cons_append, stripFrom, noComment, if_neg Bool.false_ne_true]
  split
  case h_1 block others found =>
      rw [if_pos opens, cut] at found
      cases found
      rw [if_pos mentioned]
      rfl
  case h_2 found =>
      rw [if_pos opens, cut] at found
      cases found

/-- The writer takes out what the markup says. -/
theorem fst_stripFrom
    (removedCount : Nat)
    (lines : List Text) :
    (stripFrom removedCount lines).1 = markup.cleaned lines := by
  induction lines using markup.blockInduction generalizing removedCount with
  | nil => rw [stripFrom_nil, BlockMarkup.cleaned, BlockMarkup.strip_nil]
  | comment line rest comment hypothesis =>
      rw [stripFrom_comment comment, BlockMarkup.cleaned, BlockMarkup.strip_comment comment]
      exact hypothesis (removedCount + 1)
  | plain line rest noComment notOpen hypothesis =>
      rw [stripFrom_keep noComment, BlockMarkup.cleaned, BlockMarkup.strip_plain noComment notOpen]
      · exact congrArg (line :: ·) (hypothesis removedCount)
      · intro block after opens
        rw [show opensBlock line = false from notOpen] at opens
        cases opens
  | unclosed line rest opens noEnd hypothesis =>
      rw [stripFrom_keep (not_isSingleComment_of_opensBlock opens), BlockMarkup.cleaned,
        BlockMarkup.strip_open opens noEnd]
      · exact congrArg (line :: ·) (hypothesis removedCount)
      · intro block after _ found
        rw [noEnd] at found
        cases found
  | block line tail after opens closed afterHypothesis restHypothesis =>
      rw [BlockMarkup.cleaned_cons_append opens closed]
      cases mentioned : (line :: tail).any markup.mentions with
      | true =>
          rw [stripFrom_block opens closed mentioned, if_pos rfl]
          exact afterHypothesis _
      | false =>
          rw [List.cons_append, stripFrom_keep (not_isSingleComment_of_opensBlock opens),
            if_neg Bool.false_ne_true]
          · exact congrArg (line :: ·) (restHypothesis removedCount)
          · intro block others _ found
            obtain ⟨otherClosed, same⟩ := markup.cutBlock_eq_some_iff.mp found
            obtain ⟨rfl, -⟩ := (closed.cons opens).eq_of_append_eq otherClosed same
            exact mentioned

/-- A line outside of whatever is taken for a comment: it is no comment of one line, and
does not stand between a line that opens a block and the next one that closes one, with a
mention in between. -/
def Untouched (lines : List Text) (index : Nat) : Prop :=
  (∀ line ∈ lines[index]?, isSingleComment line = false) ∧
    ∀ before line tail after, lines = before ++ (line :: tail) ++ after →
      opensBlock line = true → markup.Closed tail → (line :: tail).any mentionsPrefix = true →
      index < before.length ∨ before.length + (tail.length + 1) ≤ index

theorem untouched_of_plain
    {lines : List Text} {index : Nat}
    (plain : ∀ line ∈ lines, opensBlock line = false)
    (noComment : ∀ line ∈ lines[index]?, isSingleComment line = false) :
    Untouched lines index := by
  refine ⟨noComment, ?_⟩
  rintro before line tail after rfl opens
  rw [plain line (List.mem_append_left _ (List.mem_append_right _ List.mem_cons_self))] at opens
  cases opens

theorem Untouched.tail
    {index : Nat}
    (untouched : Untouched (line :: rest) (index + 1)) :
    Untouched rest index := by
  refine ⟨fun other isOther => untouched.1 other isOther, ?_⟩
  intro before other tail after same opens closed mentioned
  have outside := untouched.2 (line :: before) other tail after (by rw [same]; rfl) opens closed
    mentioned
  rw [List.length_cons] at outside
  omega

theorem Untouched.append
    {front after : List Text} {index : Nat}
    (untouched : Untouched (front ++ after) (front.length + index)) :
    Untouched after index := by
  induction front with
  | nil =>
      rw [List.nil_append, List.length_nil, Nat.zero_add] at untouched
      exact untouched
  | cons line front hypothesis =>
      have same : (line :: front).length + index = front.length + index + 1 := by
        rw [List.length_cons]
        omega
      rw [List.cons_append, same] at untouched
      exact hypothesis untouched.tail

end Strip

/-- The lines that are kept, with the numbers that they had, and what the table says of
these numbers. -/
structure Kept
    (number removedCount : Nat)
    (lines : List Text)
    (stripped : List Text × List Nat)
    (kept : List (Text × Nat)) : Prop where
  texts : kept.map Prod.fst = stripped.1
  increasing : kept.Pairwise fun earlier later => earlier.2 < later.2
  numbered : ∀ entry ∈ kept, number ≤ entry.2 ∧ lines[entry.2 - number]? = some entry.1
  table : ∀ front entry back, kept = front ++ entry :: back →
    number + front.length ≤ entry.2 ∧
      stripped.2[entry.2 - number]? = some (removedCount + (entry.2 - number - front.length))
  complete : ∀ index line, lines[index]? = some line → Untouched lines index →
    (line, number + index) ∈ kept

section Kept

variable {number removedCount : Nat} {lines : List Text} {stripped : List Text × List Nat}
variable {kept : List (Text × Nat)}

theorem Kept.nil :
    Kept number removedCount [] ([], []) [] where
  texts := rfl
  increasing := .nil
  numbered := nofun
  table front entry back same := absurd same.symm (by simp)
  complete index line found := by
    rw [List.getElem?_nil] at found
    cases found

/-- Lines are taken out in front. -/
theorem Kept.skip
    {front : List Text}
    (rest : Kept (number + front.length) (removedCount + front.length) lines stripped kept)
    (touched : ∀ index < front.length, ¬ Untouched (front ++ lines) index) :
    Kept number removedCount (front ++ lines)
      (stripped.1, List.range' (removedCount + 1) front.length ++ stripped.2) kept where
  texts := rest.texts
  increasing := rest.increasing
  numbered entry isKept := by
    obtain ⟨later, found⟩ := rest.numbered entry isKept
    refine ⟨by omega, ?_⟩
    rw [List.getElem?_append_right (by omega)]
    have same : entry.2 - number - front.length = entry.2 - (number + front.length) := by omega
    rw [same, found]
  table before entry back same := by
    obtain ⟨later, found⟩ := rest.table before entry back same
    refine ⟨by omega, ?_⟩
    rw [List.getElem?_append_right (by rw [List.length_range']; omega), List.length_range']
    have place : entry.2 - number - front.length = entry.2 - (number + front.length) := by omega
    rw [place, found]
    congr 1
    omega
  complete index line found untouched := by
    have outside : front.length ≤ index := by
      by_contra inside
      exact touched index (Nat.lt_of_not_le inside) untouched
    obtain ⟨place, rfl⟩ := Nat.exists_eq_add_of_le outside
    rw [List.getElem?_append_right outside, Nat.add_sub_cancel_left] at found
    have isKept := rest.complete place line found untouched.append
    rw [Nat.add_assoc] at isKept
    exact isKept

/-- A line is kept in front. -/
theorem Kept.keep
    (line : Text)
    (rest : Kept (number + 1) removedCount lines stripped kept) :
    Kept number removedCount (line :: lines) (line :: stripped.1, removedCount :: stripped.2)
      ((line, number) :: kept) where
  texts := congrArg (line :: ·) rest.texts
  increasing :=
    List.pairwise_cons.mpr ⟨fun entry isKept => (rest.numbered entry isKept).1, rest.increasing⟩
  numbered entry isEntry := by
    rcases List.mem_cons.mp isEntry with rfl | isKept
    · refine ⟨Nat.le_refl _, ?_⟩
      rw [Nat.sub_self]
      rfl
    · obtain ⟨later, found⟩ := rest.numbered entry isKept
      refine ⟨by omega, ?_⟩
      have place : entry.2 - number = entry.2 - (number + 1) + 1 := by omega
      rw [place, List.getElem?_cons_succ, found]
  table front entry back same := by
    cases front with
    | nil =>
        cases same
        refine ⟨Nat.le_refl _, ?_⟩
        change (removedCount :: stripped.2)[number - number]? = some (removedCount + (number - number - 0))
        rw [Nat.sub_self]
        rfl
    | cons first front =>
        obtain ⟨later, found⟩ := rest.table front entry back (List.cons.inj same).2
        refine ⟨by rw [List.length_cons]; omega, ?_⟩
        have place : entry.2 - number = entry.2 - (number + 1) + 1 := by omega
        rw [place, List.getElem?_cons_succ, found, List.length_cons]
        congr 1
        omega
  complete index other found untouched := by
    cases index with
    | zero =>
        cases found
        exact List.mem_cons_self
    | succ index =>
        have isKept := rest.complete index other found untouched.tail
        refine List.mem_cons_of_mem _ ?_
        rw [Nat.add_assoc, Nat.add_comm 1 index] at isKept
        exact isKept

theorem exists_kept
    (number removedCount : Nat)
    (lines : List Text) :
    ∃ kept, Kept number removedCount lines (stripFrom removedCount lines) kept := by
  induction lines using markup.blockInduction generalizing number removedCount with
  | nil =>
      rw [stripFrom_nil]
      exact ⟨[], .nil⟩
  | comment line rest comment hypothesis =>
      obtain ⟨kept, isKept⟩ := hypothesis (number + 1) (removedCount + 1)
      rw [stripFrom_comment comment]
      refine ⟨kept, @Kept.skip number removedCount rest _ kept [line] isKept ?_⟩
      intro index inside untouched
      cases Nat.lt_one_iff.mp inside
      have noComment := untouched.1 line rfl
      rw [show isSingleComment line = true from comment] at noComment
      cases noComment
  | plain line rest noComment notOpen hypothesis =>
      obtain ⟨kept, isKept⟩ := hypothesis (number + 1) removedCount
      rw [stripFrom_keep noComment]
      · exact ⟨_, isKept.keep line⟩
      · intro block after opens
        rw [show opensBlock line = false from notOpen] at opens
        cases opens
  | unclosed line rest opens noEnd hypothesis =>
      obtain ⟨kept, isKept⟩ := hypothesis (number + 1) removedCount
      rw [stripFrom_keep]
      · exact ⟨_, isKept.keep line⟩
      · exact not_isSingleComment_of_opensBlock opens
      · intro block after _ found
        rw [noEnd] at found
        cases found
  | block line tail after opens closed afterHypothesis restHypothesis =>
      cases mentioned : (line :: tail).any mentionsPrefix with
      | true =>
          obtain ⟨kept, isKept⟩ := afterHypothesis (number + (tail.length + 1))
            (removedCount + (tail.length + 1))
          rw [stripFrom_block opens closed mentioned]
          refine ⟨kept, @Kept.skip number removedCount after _ kept (line :: tail) isKept ?_⟩
          intro index inside untouched
          have outside := untouched.2 [] line tail after rfl opens closed mentioned
          rw [List.length_cons] at inside
          rw [List.length_nil] at outside
          omega
      | false =>
          obtain ⟨kept, isKept⟩ := restHypothesis (number + 1) removedCount
          rw [List.cons_append, stripFrom_keep]
          · exact ⟨_, isKept.keep line⟩
          · exact not_isSingleComment_of_opensBlock opens
          · intro block others _ found
            obtain ⟨otherClosed, same⟩ := markup.cutBlock_eq_some_iff.mp found
            obtain ⟨rfl, -⟩ := (closed.cons opens).eq_of_append_eq otherClosed same
            exact mentioned

end Kept

end DevComments
end HttpNative
