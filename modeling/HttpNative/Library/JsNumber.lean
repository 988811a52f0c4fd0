import Mathlib.Data.Rat.Floor

/-!
# Numbers of JavaScript

A number is a rational, one of the infinities, or not a number. Both zeros are the
rational zero.
-/

namespace HttpNative

inductive JsNumber where
  | notANumber
  | negativeInfinity
  | finite (value : ℚ)
  | infinity
deriving DecidableEq

namespace JsNumber

/-- `value || fallback` -/
def orElse (fallback : ℚ) : JsNumber → JsNumber
  | .notANumber => .finite fallback
  | .finite value => if value = 0 then .finite fallback else .finite value
  | value => value

/-- `Math.floor(value)` -/
def floor : JsNumber → JsNumber
  | .finite value => .finite ⌊value⌋
  | value => value

/-- `Math.max(least, value)` -/
def atLeast (least : ℚ) : JsNumber → JsNumber
  | .negativeInfinity => .finite least
  | .finite value => .finite (max least value)
  | value => value

/-- What the bit operations see of a number: it is cut off behind the point, and
loses what does not fit. -/
def toUint32 : JsNumber → BitVec 32
  | .finite value => BitVec.ofInt 32 (if 0 ≤ value then ⌊value⌋ else ⌈value⌉)
  | _ => 0

/-- A number as a natural number that is at most `most`. -/
def upTo (most : Nat) : JsNumber → Nat
  | .finite value => min ⌊value⌋.toNat most
  | .infinity => most
  | _ => 0

/-- The number fits 32 bits, or what is left of it in them is still as large as
`least`. -/
def FitsUpTo (least : Nat) : JsNumber → Prop
  | .finite value => ⌊value⌋ < 2 ^ 32 ∨ (least : ℤ) ≤ ⌊value⌋ % 2 ^ 32
  | .infinity => False
  | _ => True

theorem toUint32_natCast
    (number : Nat) :
    (finite number).toUint32.toNat = number % 2 ^ 32 := by
  rw [toUint32, if_pos (Nat.cast_nonneg number), Int.floor_natCast, BitVec.ofInt_natCast,
    BitVec.toNat_ofNat]

theorem upTo_natCast
    (most number : Nat) :
    (finite number).upTo most = min number most := by
  rw [upTo, Int.floor_natCast, Int.toNat_natCast]

/-- What a positive number comes to: a natural number, which fits when the number
that it is made of does, or infinity. -/
inductive Positive (number : JsNumber) : JsNumber → Prop
  | whole (value : Nat) :
      1 ≤ value →
      (∀ least, number.FitsUpTo least ↔ value < 2 ^ 32 ∨ least ≤ value % 2 ^ 32) →
      Positive number (finite value)
  | infinity : number = .infinity → Positive number .infinity

/-- Of a small number nothing is lost. -/
theorem Positive.ofSmall
    {number : JsNumber} {value : Nat}
    (positive : 1 ≤ value)
    (small : value < 2 ^ 32)
    (fits : ∀ least, number.FitsUpTo least) :
    Positive number (finite value) :=
  .whole value positive fun least => ⟨fun _ => .inl small, fun _ => fits least⟩

theorem positive_atLeast_one
    {fallback : Nat}
    (least : 1 ≤ fallback)
    (small : fallback < 2 ^ 32)
    (number : JsNumber) :
    Positive number (((number.orElse fallback).floor).atLeast 1) := by
  have fallen : ((finite (fallback : ℚ)).floor).atLeast 1 = finite (fallback : ℚ) := by
    have above : (1 : ℚ) ≤ fallback := Nat.one_le_cast.mpr least
    rw [floor, Int.floor_natCast, Int.cast_natCast, atLeast, max_eq_right above]
  have one : finite 1 = finite ((1 : Nat) : ℚ) := by rw [Nat.cast_one]
  cases number with
  | notANumber =>
      rw [orElse, fallen]
      exact .ofSmall least small fun _ => trivial
  | negativeInfinity =>
      have raised : ((negativeInfinity.orElse fallback).floor).atLeast 1 = finite 1 := rfl
      rw [raised, one]
      exact .ofSmall (Nat.le_refl 1) (by decide) fun _ => trivial
  | infinity => exact .infinity rfl
  | finite value =>
      rw [orElse]
      split
      · rename_i isZero
        rw [fallen]
        refine .ofSmall least small fun _ => .inl ?_
        rw [isZero, Int.floor_zero]
        decide
      · rw [floor, atLeast]
        by_cases above : 1 ≤ ⌊value⌋
        · obtain ⟨whole, isWhole⟩ := Int.eq_ofNat_of_zero_le (Int.le_of_lt above)
          have larger : max (1 : ℚ) (⌊value⌋ : ℚ) = (whole : ℚ) := by
            rw [max_eq_right (by exact_mod_cast above), isWhole, Int.cast_natCast]
          rw [larger]
          refine .whole whole (by omega) fun other => ?_
          rw [FitsUpTo, isWhole]
          omega
        · have smaller : max (1 : ℚ) (⌊value⌋ : ℚ) = 1 :=
            max_eq_left (by exact_mod_cast (Int.not_le.mp above).le)
          rw [smaller, one]
          refine .ofSmall (Nat.le_refl 1) (by decide) fun _ => .inl ?_
          omega

end JsNumber
end HttpNative
