import Mathlib.Data.List.Infix

/-!
# Runs at the end of a row

How often the last item of a row stands at its end, followed as items are appended; and
whether a row has an item a number of times in succession.
-/

namespace HttpNative
namespace TrailingRuns

variable {Item : Type}

/-- An item stands exactly so often at the end. -/
def EndsWithRun (count : Nat) (item : Item) (items : List Item) : Prop :=
  List.replicate count item <:+ items ∧ ¬ List.replicate (count + 1) item <:+ items

/-- Some item stands so often in succession. -/
def HasRun (count : Nat) (items : List Item) : Prop :=
  ∃ item, List.replicate count item <:+: items

theorem not_hasRun_nil
    {length : Nat}
    (some : 0 < length) :
    ¬ HasRun length ([] : List Item) := by
  rintro ⟨item, isInfix⟩
  have none := congrArg List.length (List.infix_nil.mp isInfix)
  rw [List.length_replicate] at none
  exact Nat.ne_of_gt some none

theorem replicate_succ_suffix_concat
    {count : Nat} {item last : Item} {items : List Item} :
    List.replicate (count + 1) item <:+ items ++ [last] ↔
      item = last ∧ List.replicate count item <:+ items := by
  rw [List.replicate_succ', List.suffix_concat_iff]
  constructor
  · rintro (empty | ⟨front, same, isSuffix⟩)
    · exact absurd empty (List.append_ne_nil_of_right_ne_nil _ (List.cons_ne_nil _ _))
    · obtain ⟨rfl, last⟩ := List.append_inj' same rfl
      exact ⟨(List.cons.inj last).1, isSuffix⟩
  · rintro ⟨rfl, isSuffix⟩
    exact .inr ⟨_, rfl, isSuffix⟩

/-- One more item of the same kind makes the run longer. -/
theorem EndsWithRun.concat_same
    {count : Nat} {item : Item} {items : List Item}
    (ends : EndsWithRun count item items) :
    EndsWithRun (count + 1) item (items ++ [item]) := by
  refine ⟨replicate_succ_suffix_concat.mpr ⟨rfl, ends.1⟩, fun longer => ?_⟩
  exact ends.2 (replicate_succ_suffix_concat.mp longer).2

/-- An item of another kind begins a run. -/
theorem endsWithRun_one
    {last : Item} {items : List Item}
    (other : ¬ [last] <:+ items) :
    EndsWithRun 1 last (items ++ [last]) := by
  refine ⟨List.suffix_append _ _, fun longer => ?_⟩
  exact other (replicate_succ_suffix_concat.mp longer).2

theorem EndsWithRun.le_of_suffix
    {count length : Nat} {item : Item} {items : List Item}
    (ends : EndsWithRun count item items)
    (isSuffix : List.replicate length item <:+ items) :
    length ≤ count := by
  apply Nat.le_of_not_lt
  intro longer
  apply ends.2
  refine List.IsSuffix.trans ⟨List.replicate (length - (count + 1)) item, ?_⟩ isSuffix
  rw [List.replicate_append_replicate, Nat.sub_add_cancel longer]

theorem EndsWithRun.suffix_of_le
    {count length : Nat} {item : Item} {items : List Item}
    (ends : EndsWithRun count item items)
    (within : length ≤ count) :
    List.replicate length item <:+ items := by
  refine List.IsSuffix.trans ⟨List.replicate (count - length) item, ?_⟩ ends.1
  rw [List.replicate_append_replicate, Nat.sub_add_cancel within]

/-- An item that is appended completes a run when it then stands often enough at the end. -/
theorem hasRun_concat_iff
    {count length : Nat} {last : Item} {items : List Item}
    (some : 0 < length)
    (ends : EndsWithRun count last (items ++ [last])) :
    HasRun length (items ++ [last]) ↔ HasRun length items ∨ length ≤ count := by
  obtain ⟨length, rfl⟩ := Nat.exists_eq_succ_of_ne_zero (Nat.ne_of_gt some)
  constructor
  · rintro ⟨item, isInfix⟩
    rcases List.infix_concat_iff.mp isInfix with isSuffix | before
    · obtain ⟨rfl, -⟩ := replicate_succ_suffix_concat.mp isSuffix
      exact .inr (ends.le_of_suffix isSuffix)
    · exact .inl ⟨item, before⟩
  · rintro (⟨item, before⟩ | within)
    · exact ⟨item, before.trans (List.prefix_append _ _).isInfix⟩
    · exact ⟨last, (ends.suffix_of_le within).isInfix⟩

end TrailingRuns
end HttpNative
