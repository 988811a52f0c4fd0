import HttpNative.Library.Octets

/-!
# Little-endian numbers

Unsigned numbers of a fixed number of octets, the least octet first. A number
that does not fit loses its upper octets.
-/

namespace HttpNative
namespace LittleEndian

def write : Nat → Nat → Octets
  | 0, _ => []
  | width + 1, number => UInt8.ofNat number :: write width (number / 256)

def value : Octets → Nat
  | [] => 0
  | octet :: rest => octet.toNat + 256 * value rest

/-- The numbers of a width are below this one. -/
def limit : Nat → Nat
  | 0 => 1
  | width + 1 => 256 * limit width

@[simp]
theorem length_write
    (width number : Nat) :
    (write width number).length = width := by
  induction width generalizing number with
  | zero => rfl
  | succ width hypothesis => rw [write, List.length_cons, hypothesis]

theorem limit_pos
    (width : Nat) :
    0 < limit width := by
  induction width with
  | zero => exact Nat.one_pos
  | succ width hypothesis =>
      rw [limit]
      omega

theorem limit_mono
    {width wider : Nat}
    (within : width ≤ wider) :
    limit width ≤ limit wider := by
  induction within with
  | refl => exact Nat.le_refl _
  | step _ hypothesis =>
      rw [limit]
      omega

/-- A shift by whole octets. -/
theorem shiftRight_eq_div_limit
    (number width : Nat) :
    number >>> (8 * width) = number / limit width := by
  induction width with
  | zero => rw [limit, Nat.mul_zero, Nat.shiftRight_zero, Nat.div_one]
  | succ width hypothesis =>
      rw [Nat.mul_succ, Nat.shiftRight_add, hypothesis, limit, Nat.mul_comm 256,
        ← Nat.div_div_eq_div_mul, Nat.shiftRight_eq_div_pow]

/-- What is read back is the number modulo the limit. -/
theorem value_write_mod
    (width number : Nat) :
    value (write width number) = number % limit width := by
  induction width generalizing number with
  | zero => rw [write, value, limit, Nat.mod_one]
  | succ width hypothesis =>
      rw [write, value, hypothesis, limit, Nat.mod_mul, UInt8.toNat_ofNat']

theorem value_write
    {width number : Nat}
    (fits : number < limit width) :
    value (write width number) = number := by
  rw [value_write_mod, Nat.mod_eq_of_lt fits]

/-- A longer number is the lower octets, and then the upper ones. -/
theorem write_add
    (lower upper number : Nat) :
    write (lower + upper) number = write lower number ++ write upper (number / limit lower) := by
  induction lower generalizing number with
  | zero => rw [Nat.zero_add, limit, Nat.div_one, write, List.nil_append]
  | succ lower hypothesis =>
      rw [Nat.succ_add, write, hypothesis, write, limit, Nat.div_div_eq_div_mul, List.cons_append]

/-- What does not fit is not written. -/
theorem write_mod
    (width number : Nat) :
    write width (number % limit width) = write width number := by
  induction width generalizing number with
  | zero => rfl
  | succ width hypothesis =>
      rw [write, write, limit, Nat.mod_mul_right_div_self, hypothesis]
      congr 1
      rw [← UInt8.toNat_inj, UInt8.toNat_ofNat', UInt8.toNat_ofNat', Nat.mod_mul_right_mod]

/-- What is read from a width is below its limit. -/
theorem value_lt
    (row : Octets) :
    value row < limit row.length := by
  induction row with
  | nil => exact Nat.one_pos
  | cons octet rest hypothesis =>
      rw [value, List.length_cons, limit]
      have small := octet.toNat_lt
      omega

end LittleEndian
end HttpNative
