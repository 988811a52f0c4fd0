import Mathlib.Data.List.Infix

/-!
# Segments of two dots

A path is read as a row of marks: dots, the two separators, and whatever else. Whether
two dots stand in it as a segment does not depend on how long the runs of other marks
are.
-/

namespace HttpNative
namespace DotSegments

inductive Mark where
  | dot
  | slash
  | backslash
  | other
deriving DecidableEq, Repr

def Mark.isSeparator : Mark → Bool
  | .slash => true
  | .backslash => true
  | _ => false

/-- The segment that leads upwards. -/
def up : List Mark :=
  [.dot, .dot]

/-- Some segment between separators is two dots. -/
def HasUpSegment (row : List Mark) : Prop :=
  up ∈ row.splitOnP Mark.isSeparator

instance (row : List Mark) : Decidable (HasUpSegment row) :=
  inferInstanceAs (Decidable (up ∈ row.splitOnP Mark.isSeparator))

/-- Two dots stand as a segment that is the first, the last, or between two equal
separators. -/
def StandsPlainly (row : List Mark) : Prop :=
  ∃ before after,
    row = before ++ up ++ after ∧
      (∀ mark ∈ before.getLast?, mark.isSeparator = true) ∧
      (∀ mark ∈ after.head?, mark.isSeparator = true) ∧
      (before = [] ∨ after = [] ∨ before.getLast? = after.head?)

theorem hasUpSegment_start
    {after : List Mark}
    (ends : ∀ mark ∈ after.head?, mark.isSeparator = true) :
    HasUpSegment (up ++ after) := by
  cases after with
  | nil => decide
  | cons mark rest =>
      rw [HasUpSegment, List.splitOnP_append_cons_of_forall_mem (by decide) mark (ends mark rfl)]
      exact List.mem_cons_self

/-- Two dots between separators or ends are a segment. -/
theorem hasUpSegment_of_between
    {before after : List Mark}
    (starts : ∀ mark ∈ before.getLast?, mark.isSeparator = true)
    (ends : ∀ mark ∈ after.head?, mark.isSeparator = true) :
    HasUpSegment (before ++ up ++ after) := by
  have start := hasUpSegment_start ends
  rcases List.eq_nil_or_concat before with rfl | ⟨front, mark, rfl⟩
  · exact start
  · have separator : mark.isSeparator = true := starts mark (by simp)
    rw [List.concat_eq_append, List.append_assoc, List.append_assoc, List.singleton_append,
      HasUpSegment, List.splitOnP_append_cons _ _ separator]
    exact List.mem_append_right _ start

theorem StandsPlainly.hasUpSegment
    {row : List Mark}
    (plainly : StandsPlainly row) :
    HasUpSegment row := by
  obtain ⟨before, after, rfl, starts, ends, -⟩ := plainly
  exact hasUpSegment_of_between starts ends

/-- The fixed patterns that two dots stand plainly in. -/
theorem standsPlainly_iff
    {row : List Mark} :
    StandsPlainly row ↔
      up = row ∨ ∃ separator : Mark, separator.isSeparator = true ∧
        (separator :: up ++ [separator] <:+: row ∨ separator :: up <:+ row ∨
          up ++ [separator] <+: row) := by
  constructor
  · rintro ⟨before, after, rfl, starts, ends, equal⟩
    rcases List.eq_nil_or_concat before with rfl | ⟨front, left, rfl⟩
    · cases after with
      | nil => exact .inl rfl
      | cons right rest =>
          refine .inr ⟨right, ends right rfl, .inr (.inr ⟨rest, ?_⟩)⟩
          simp
    · rw [List.concat_eq_append] at starts equal ⊢
      have separator : left.isSeparator = true := starts left (by simp)
      refine .inr ⟨left, separator, ?_⟩
      cases after with
      | nil =>
          refine .inr (.inl ⟨front, ?_⟩)
          simp
      | cons right rest =>
          have same : left = right := by simpa using equal
          subst same
          refine .inl ⟨front, rest, ?_⟩
          simp
  · rintro (rfl | ⟨mark, separator, ⟨front, rest, rfl⟩ | ⟨front, rfl⟩ | ⟨rest, rfl⟩⟩)
    · exact ⟨[], [], rfl, nofun, nofun, .inl rfl⟩
    · refine ⟨front ++ [mark], mark :: rest, by simp, ?_, ?_, .inr (.inr (by simp))⟩
      · simpa using separator
      · simpa using separator
    · refine ⟨front ++ [mark], [], by simp, ?_, nofun, .inr (.inl rfl)⟩
      simpa using separator
    · refine ⟨[], mark :: rest, by simp, nofun, ?_, .inl rfl⟩
      simpa using separator

/-! ## Runs of other marks -/

/-- Put a mark before a row in which no two other marks stand together. -/
def push : Mark → List Mark → List Mark
  | .other, .other :: row => .other :: row
  | mark, row => mark :: row

/-- Every run of other marks becomes a single one. -/
def collapse (row : List Mark) : List Mark :=
  row.foldr push []

theorem push_cases
    (mark : Mark)
    (row : List Mark) :
    push mark row = mark :: row ∨
      mark = .other ∧ push mark row = row ∧ ∃ rest, row = .other :: rest := by
  unfold push
  split
  · exact .inr ⟨rfl, rfl, _, rfl⟩
  · exact .inl rfl

theorem push_other_push_other
    (row : List Mark) :
    push .other (push .other row) = push .other row := by
  obtain pushed | ⟨-, pushed, rest, rfl⟩ := push_cases .other row
  · rw [pushed]
    rfl
  · rfl

/-- A run of other marks is one. -/
theorem foldr_push_of_forall_other
    {run : List Mark}
    (notEmpty : run ≠ [])
    (others : ∀ mark ∈ run, mark = .other)
    (row : List Mark) :
    run.foldr push row = push .other row := by
  induction run with
  | nil => exact absurd rfl notEmpty
  | cons mark rest hypothesis =>
      obtain ⟨rfl, restOthers⟩ := List.forall_mem_cons.mp others
      by_cases last : rest = []
      · rw [last]
        rfl
      · rw [List.foldr_cons, hypothesis last restOthers, push_other_push_other]

section Patterns

variable {first : Mark} {pattern : List Mark}

theorem prefix_collapse_iff
    (plain : .other ∉ pattern)
    (row : List Mark) :
    pattern <+: collapse row ↔ pattern <+: row := by
  induction row generalizing pattern with
  | nil => rfl
  | cons mark rest hypothesis =>
      cases pattern with
      | nil => exact iff_of_true List.nil_prefix List.nil_prefix
      | cons head tail =>
          rw [List.mem_cons, not_or] at plain
          change _ <+: push mark (collapse rest) ↔ _
          obtain pushed | ⟨rfl, pushed, others, same⟩ := push_cases mark (collapse rest)
          · rw [pushed, List.cons_prefix_cons, List.cons_prefix_cons, hypothesis plain.2]
          · rw [pushed, same, List.cons_prefix_cons, List.cons_prefix_cons]
            exact iff_of_false (fun both => plain.1 both.1.symm) fun both => plain.1 both.1.symm

theorem eq_collapse_iff
    (plain : .other ∉ pattern)
    (row : List Mark) :
    pattern = collapse row ↔ pattern = row := by
  induction row generalizing pattern with
  | nil => rfl
  | cons mark rest hypothesis =>
      change _ = push mark (collapse rest) ↔ _
      cases pattern with
      | nil =>
          obtain pushed | ⟨-, pushed, others, same⟩ := push_cases mark (collapse rest)
          · rw [pushed]
            exact iff_of_false nofun nofun
          · rw [pushed, same]
            exact iff_of_false nofun nofun
      | cons head tail =>
          rw [List.mem_cons, not_or] at plain
          obtain pushed | ⟨rfl, pushed, others, same⟩ := push_cases mark (collapse rest)
          · rw [pushed, List.cons.injEq, List.cons.injEq, hypothesis plain.2]
          · rw [pushed, same, List.cons.injEq, List.cons.injEq]
            exact iff_of_false (fun both => plain.1 both.1.symm) fun both => plain.1 both.1.symm

/-- What holds at the first mark of a row or somewhere behind it, and at no other mark,
is kept. -/
theorem somewhere_collapse_iff
    {At Somewhere : List Mark → Prop}
    (nowhere : ¬ Somewhere [])
    (somewhere : ∀ mark rest, Somewhere (mark :: rest) ↔ At (mark :: rest) ∨ Somewhere rest)
    (notOther : ∀ rest, ¬ At (.other :: rest))
    (kept : ∀ row, At (collapse row) ↔ At row)
    (row : List Mark) :
    Somewhere (collapse row) ↔ Somewhere row := by
  induction row with
  | nil => exact iff_of_false nowhere nowhere
  | cons mark rest hypothesis =>
      have keptHere := kept (mark :: rest)
      change At (push mark (collapse rest)) ↔ _ at keptHere
      change Somewhere (push mark (collapse rest)) ↔ _
      obtain pushed | ⟨rfl, pushed, -⟩ := push_cases mark (collapse rest)
      · rw [pushed] at keptHere ⊢
        rw [somewhere, somewhere, hypothesis, keptHere]
      · rw [pushed, hypothesis, somewhere]
        exact (or_iff_right (notOther rest)).symm

theorem infix_collapse_iff
    (plain : .other ∉ first :: pattern)
    (row : List Mark) :
    first :: pattern <:+: collapse row ↔ first :: pattern <:+: row := by
  refine somewhere_collapse_iff ?_ (fun _ _ => List.infix_cons_iff) ?_
    (prefix_collapse_iff plain) row
  · exact fun inside => List.cons_ne_nil _ _ (List.infix_nil.mp inside)
  · intro rest starts
    exact plain ((List.cons_prefix_cons.mp starts).1 ▸ List.mem_cons_self)

theorem suffix_collapse_iff
    (plain : .other ∉ first :: pattern)
    (row : List Mark) :
    first :: pattern <:+ collapse row ↔ first :: pattern <:+ row := by
  refine somewhere_collapse_iff ?_ (fun _ _ => List.suffix_cons_iff) ?_
    (eq_collapse_iff plain) row
  · exact fun inside => List.cons_ne_nil _ _ (List.suffix_nil.mp inside)
  · intro rest equal
    exact plain ((List.cons.inj equal).1 ▸ List.mem_cons_self)

end Patterns

theorem standsPlainly_collapse_iff
    (row : List Mark) :
    StandsPlainly (collapse row) ↔ StandsPlainly row := by
  rw [standsPlainly_iff, standsPlainly_iff, eq_collapse_iff (by decide)]
  refine or_congr_right (exists_congr fun separator => and_congr_right fun isSeparator => ?_)
  have notOther : .other ≠ separator := by
    rintro rfl
    cases isSeparator
  have outside : .other ∉ separator :: up ++ [separator] := by
    simp [up, notOther]
  have opening : .other ∉ separator :: up := fun member =>
    outside (List.mem_append_left _ member)
  have closing : .other ∉ up ++ [separator] := fun member =>
    outside (List.mem_cons_of_mem _ member)
  rw [prefix_collapse_iff closing, suffix_collapse_iff opening]
  exact or_congr_left (infix_collapse_iff outside row)

end DotSegments
end HttpNative
