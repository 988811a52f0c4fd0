import HttpNative.Library.Octets
import Mathlib.Algebra.Group.Nat.Defs

/-!
# Weighted lists

A list of names with weights, as it stands in the value of a field: elements
between commas, each a name with parameters behind semicolons. A weight is a number
from 0 to 1 with at most three decimals, given by a parameter `q`.
-/

namespace HttpNative
namespace WeightedList

/-- The number of a row of digits. -/
def digitsValue (digits : Octets) : Nat :=
  digits.foldl (fun (number : Nat) (digit : UInt8) => 10 * number + (digit.toNat - 48)) 0

/-- Up to three decimals in thousandths. -/
def thousandths (decimals : Octets) : Option Nat :=
  if decimals.length ≤ 3 ∧ ∀ digit : UInt8, digit ∈ decimals → 48 ≤ digit.toNat ∧ digit.toNat ≤ 57 then
    some (digitsValue decimals * 10 ^ (3 - decimals.length))
  else
    none

/-- A weight in thousandths. -/
def readWeight : Octets → Option Nat
  | [digit] => if digit = 48 then some 0 else if digit = 49 then some 1000 else none
  | digit :: point :: decimals =>
      if point ≠ 46 then none
      else if digit = 48 then thousandths decimals
      else if digit = 49 then (thousandths decimals).bind fun rest =>
        if rest = 0 then some 1000 else none
      else none
  | [] => none

/-- The weight that a parameter gives. -/
def parameterWeight (parameter : Octets) : Option Nat :=
  match Octets.trimAscii parameter with
  | letter :: equals :: weight =>
      if Octets.lower letter = 113 ∧ equals = 61 then readWeight (Octets.trimAscii weight) else none
  | _ => none

def parts (element : Octets) : List Octets :=
  (Octets.trimAscii element).splitOn 59

/-- The element is of the name, in any case, and has not the weight zero. -/
def Offers (element name : Octets) : Prop :=
  Octets.eqIgnoreAsciiCase (Octets.trimAscii ((parts element).headD [])) name = true ∧
    ∀ parameter ∈ (parts element).tail, parameterWeight parameter ≠ some 0

/-- The list has the name with a weight that is not zero. -/
def Lists (value name : Octets) : Prop :=
  ∃ element ∈ value.splitOn 44, Offers element name

/-! ## Weights of zero -/

theorem digits_of_foldl_eq_zero
    {digits : Octets} {start : Nat}
    (zero : digits.foldl (fun (number : Nat) (digit : UInt8) =>
      10 * number + (digit.toNat - 48)) start = 0) :
    start = 0 ∧ ∀ digit : UInt8, digit ∈ digits → digit.toNat ≤ 48 := by
  induction digits generalizing start with
  | nil => exact ⟨zero, List.forall_mem_nil _⟩
  | cons digit rest hypothesis =>
      obtain ⟨sum, others⟩ := hypothesis zero
      have first : 10 * start + (digit.toNat - 48) = 0 := sum
      exact ⟨by omega, List.forall_mem_cons.mpr ⟨by omega, others⟩⟩

theorem thousandths_eq_zero
    {decimals : Octets}
    (zero : thousandths decimals = some 0) :
    decimals = List.replicate decimals.length 48 ∧ decimals.length ≤ 3 := by
  unfold thousandths at zero
  split at zero
  · rename_i few
    obtain ⟨short, digits⟩ := few
    have power : 10 ^ (3 - decimals.length) ≠ 0 := Nat.ne_of_gt (Nat.pow_pos (by decide))
    have value : digitsValue decimals = 0 :=
      (Nat.mul_eq_zero.mp (Option.some.inj zero)).resolve_right power
    have least := (digits_of_foldl_eq_zero value).2
    refine ⟨List.eq_replicate_iff.mpr ⟨rfl, fun digit member => ?_⟩, short⟩
    have below := least digit member
    have above := (digits digit member).1
    exact UInt8.toNat_inj.mp (Nat.le_antisymm below above)
  · cases zero

/-- The ways to write the weight zero. -/
theorem readWeight_eq_zero
    {weight : Octets}
    (zero : readWeight weight = some 0) :
    weight ∈ [octets "0", octets "0.", octets "0.0", octets "0.00", octets "0.000"] := by
  match weight, zero with
  | [digit], zero =>
      rw [readWeight] at zero
      split at zero
      · rename_i same
        rw [same]
        decide
      · split at zero
        · cases zero
        · cases zero
  | digit :: point :: decimals, zero =>
      rw [readWeight] at zero
      split at zero
      · cases zero
      rename_i pointed
      split at zero
      · rename_i same
        obtain ⟨zeros, short⟩ := thousandths_eq_zero zero
        have few : ∀ count ≤ 3, (48 : UInt8) :: 46 :: List.replicate count 48 ∈
            [octets "0", octets "0.", octets "0.0", octets "0.00", octets "0.000"] := by decide
        rw [same, not_not.mp pointed, zeros]
        exact few decimals.length short
      · split at zero
        · obtain ⟨rest, -, whole⟩ := Option.bind_eq_some_iff.mp zero
          split at whole
          · cases whole
          · cases whole
        · cases zero

/-- A parameter with the weight zero, as it is written. -/
theorem parameterWeight_eq_zero
    {parameter : Octets}
    (zero : parameterWeight parameter = some 0) :
    ∃ letter weight, Octets.trimAscii parameter = letter :: 61 :: weight ∧
      Octets.lower letter = 113 ∧ Octets.trimAscii weight ∈
        [octets "0", octets "0.", octets "0.0", octets "0.00", octets "0.000"] := by
  unfold parameterWeight at zero
  split at zero
  · rename_i letter equals weight trimmed
    split at zero
    · rename_i named
      refine ⟨letter, weight, ?_, named.1, readWeight_eq_zero zero⟩
      rw [trimmed, named.2]
    · cases zero
  · cases zero

end WeightedList
end HttpNative
