import Mathlib.Data.Finset.SDiff
import Mathlib.Data.Multiset.Count

/-!
# Reference counts

Holders each hold a set of keys, and for each key it is counted how many of them hold
it. A key that nobody holds has no count. The counts of holders are changed as one of
them comes, goes, or holds another set.
-/

namespace HttpNative

/-- The count of each key, if it has one. -/
abbrev ReferenceCounts (Key : Type) : Type :=
  Key → Option Nat

namespace ReferenceCounts

def increment : Option Nat → Option Nat
  | some count => some (count + 1)
  | none => some 1

def decrement : Option Nat → Option Nat
  | some count => if count ≤ 1 then none else some (count - 1)
  | none => none

variable {Key : Type} [DecidableEq Key]

/-- Count each key of a set once more. -/
def register (counts : ReferenceCounts Key) (keys : Finset Key) : ReferenceCounts Key :=
  fun key => if key ∈ keys then increment (counts key) else counts key

/-- Count each key of a set once less. -/
def unregister (counts : ReferenceCounts Key) (keys : Finset Key) : ReferenceCounts Key :=
  fun key => if key ∈ keys then decrement (counts key) else counts key

/-- A holder of one set of keys holds another one. -/
def replace (counts : ReferenceCounts Key) (previous next : Finset Key) : ReferenceCounts Key :=
  (counts.unregister (previous \ next)).register (next \ previous)

theorem register_empty (counts : ReferenceCounts Key) :
    counts.register ∅ = counts := by
  funext key
  exact if_neg (Finset.notMem_empty key)

theorem unregister_empty (counts : ReferenceCounts Key) :
    counts.unregister ∅ = counts := by
  funext key
  exact if_neg (Finset.notMem_empty key)

/-! ## The counts of holders -/

/-- How a number is stored. -/
def stored (number : Nat) : Option Nat :=
  if number = 0 then none else some number

/-- The counts of holders by the sets that they hold. -/
def counted (holders : Multiset (Finset Key)) : ReferenceCounts Key :=
  fun key => stored (holders.countP (key ∈ ·))

theorem getD_stored (number : Nat) :
    (stored number).getD 0 = number := by
  unfold stored
  split
  · rename_i zero
    exact zero.symm
  · rfl

theorem stored_eq_none {number : Nat} :
    stored number = none ↔ number = 0 := by
  unfold stored
  split
  · rename_i zero
    exact iff_of_true rfl zero
  · rename_i positive
    exact iff_of_false (Option.some_ne_none _) positive

theorem increment_stored (number : Nat) :
    increment (stored number) = stored (number + 1) := by
  cases number with
  | zero => rfl
  | succ number => rfl

theorem decrement_stored (number : Nat) :
    decrement (stored (number + 1)) = stored number := by
  cases number with
  | zero => rfl
  | succ number => rfl

theorem counted_zero :
    counted (0 : Multiset (Finset Key)) = fun _ => none := by
  funext key
  rfl

/-- A key has a count just when somebody holds it. -/
theorem counted_eq_none
    {holders : Multiset (Finset Key)} {key : Key} :
    counted holders key = none ↔ ∀ keys ∈ holders, key ∉ keys := by
  rw [counted, stored_eq_none, Multiset.countP_eq_zero]

variable {keys : Finset Key} {key : Key}

theorem counted_cons_of_mem
    (holders : Multiset (Finset Key))
    (held : key ∈ keys) :
    counted (keys ::ₘ holders) key = increment (counted holders key) := by
  rw [counted, counted, Multiset.countP_cons, if_pos held, increment_stored]

theorem counted_cons_of_notMem
    (holders : Multiset (Finset Key))
    (other : key ∉ keys) :
    counted (keys ::ₘ holders) key = counted holders key := by
  rw [counted, counted, Multiset.countP_cons, if_neg other, Nat.add_zero]

theorem decrement_increment (number : Nat) :
    decrement (increment (stored number)) = stored number := by
  rw [increment_stored, decrement_stored]

/-- A holder comes. -/
theorem register_counted
    (holders : Multiset (Finset Key))
    (keys : Finset Key) :
    (counted holders).register keys = counted (keys ::ₘ holders) := by
  funext key
  by_cases held : key ∈ keys
  · rw [register, if_pos held, counted_cons_of_mem holders held]
  · rw [register, if_neg held, counted_cons_of_notMem holders held]

/-- A holder goes. -/
theorem unregister_counted
    (holders : Multiset (Finset Key))
    (keys : Finset Key) :
    (counted (keys ::ₘ holders)).unregister keys = counted holders := by
  funext key
  by_cases held : key ∈ keys
  · rw [unregister, if_pos held, counted_cons_of_mem holders held]
    exact decrement_increment _
  · rw [unregister, if_neg held, counted_cons_of_notMem holders held]

/-- A holder holds another set. -/
theorem replace_counted
    (holders : Multiset (Finset Key))
    (previous next : Finset Key) :
    (counted (previous ::ₘ holders)).replace previous next = counted (next ::ₘ holders) := by
  funext key
  rw [replace, register, unregister]
  simp only [Finset.mem_sdiff]
  by_cases before : key ∈ previous
  · rw [counted_cons_of_mem holders before]
    by_cases behind : key ∈ next
    · rw [counted_cons_of_mem holders behind, if_neg fun both => both.2 before,
        if_neg fun both => both.2 behind]
    · rw [counted_cons_of_notMem holders behind, if_neg fun both => behind both.1,
        if_pos ⟨before, behind⟩]
      exact decrement_increment _
  · rw [counted_cons_of_notMem holders before]
    by_cases behind : key ∈ next
    · rw [counted_cons_of_mem holders behind, if_pos ⟨behind, before⟩,
        if_neg fun both => before both.1]
    · rw [counted_cons_of_notMem holders behind, if_neg fun both => behind both.1,
        if_neg fun both => before both.1]

end ReferenceCounts
end HttpNative
