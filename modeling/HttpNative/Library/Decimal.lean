import HttpNative.Library.Text

/-!
# Decimal numerals

The value of a row of digits, the shortest numeral of a number, and the reader
that skips white space, takes a sign and as many digits as there are.
-/

namespace HttpNative
namespace Decimal

/-- The number that digits write in base ten. -/
def value (digits : Text) : Nat :=
  Nat.ofDigitChars 10 digits 0

/-- The shortest numeral of a number. -/
def write (number : Nat) : Text :=
  Nat.toDigits 10 number

@[simp] theorem value_write
    (number : Nat) :
    value (write number) = number :=
  Nat.ofDigitChars_ten_toDigits

theorem isDigit_of_mem_write
    {number : Nat} {char : Char}
    (member : char ∈ write number) :
    char.isDigit = true :=
  Nat.isDigit_of_mem_toDigits (by omega) (by omega) member

theorem write_ne_nil
    (number : Nat) :
    write number ≠ [] :=
  Nat.toDigits_ne_nil

/-- What follows a numeral does not go on with it. -/
def Ends (rest : Text) : Prop :=
  ∀ char, rest.head? = some char → char.isDigit = false

theorem takeWhile_write_append
    (number : Nat) {rest : Text}
    (ends : Ends rest) :
    (write number ++ rest).takeWhile Char.isDigit = write number := by
  rw [List.takeWhile_append_of_pos fun char member => isDigit_of_mem_write member]
  cases rest with
  | nil => simp
  | cons char others =>
      have stops := ends char rfl
      rw [List.takeWhile_cons_of_neg (by simp [stops]), List.append_nil]

/-- A sign that may stand before a numeral; `true` stands for minus. -/
def cutSign : Text → Bool × Text
  | [] => (false, [])
  | char :: rest =>
      if char = '-' then (true, rest)
      else if char = '+' then (false, rest)
      else (false, char :: rest)

/-- JavaScript's `parseInt` in base ten; `none` stands for `NaN`. -/
def parseInt (input : Text) : Option Int :=
  let signed := cutSign (input.dropWhile Text.isSpace)
  let digits := signed.2.takeWhile Char.isDigit
  if digits = [] then
    none
  else if signed.1 then
    some (-(value digits : Int))
  else
    some (value digits : Int)

end Decimal
end HttpNative
