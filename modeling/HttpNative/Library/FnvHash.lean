import Mathlib.Data.List.Basic

/-!
# The FNV-1a hash

A row of units is folded into 32 bits: each round takes a unit in by an exclusive or and
multiplies with a prime. A round can be undone, for the hash as for the unit, so that rows
that differ in one place never have the same hash.
-/

namespace HttpNative
namespace FnvHash

/-- `Math.imul(hash ^ unit, 0x01000193)` -/
def round (hash unit : BitVec 32) : BitVec 32 :=
  (hash ^^^ unit) * 0x01000193#32

/-- The hash of a row of units, from a seed on. -/
def hashFrom (seed : BitVec 32) (units : List (BitVec 32)) : BitVec 32 :=
  units.foldl round seed

/-- The seed of an empty row. -/
def offset : BitVec 32 := 0x811c9dc5#32

@[simp] theorem hashFrom_nil (seed : BitVec 32) : hashFrom seed [] = seed := rfl

@[simp] theorem hashFrom_cons
    (seed unit : BitVec 32)
    (units : List (BitVec 32)) :
    hashFrom seed (unit :: units) = hashFrom (round seed unit) units := rfl

theorem hashFrom_append
    (seed : BitVec 32)
    (front back : List (BitVec 32)) :
    hashFrom seed (front ++ back) = hashFrom (hashFrom seed front) back :=
  List.foldl_append

/-- The prime is odd and has an inverse. -/
theorem mul_prime_inj
    {left right : BitVec 32}
    (same : left * 0x01000193#32 = right * 0x01000193#32) :
    left = right := by
  have unit : 0x01000193#32 * 0x359c449b#32 = 1#32 := by decide
  calc left
      _ = left * (0x01000193#32 * 0x359c449b#32) := by rw [unit, BitVec.mul_one]
      _ = right * (0x01000193#32 * 0x359c449b#32) := by
          rw [← BitVec.mul_assoc, same, BitVec.mul_assoc]
      _ = right := by rw [unit, BitVec.mul_one]

theorem round_inj_hash
    {left right unit : BitVec 32}
    (same : round left unit = round right unit) :
    left = right :=
  (BitVec.xor_left_inj _).mp (mul_prime_inj same)

theorem round_inj_unit
    {hash left right : BitVec 32}
    (same : round hash left = round hash right) :
    left = right :=
  (BitVec.xor_right_inj _).mp (mul_prime_inj same)

/-- Different hashes stay different over the same units. -/
theorem hashFrom_inj_seed
    {units : List (BitVec 32)} {left right : BitVec 32}
    (same : hashFrom left units = hashFrom right units) :
    left = right := by
  induction units generalizing left right with
  | nil => exact same
  | cons unit units hypothesis =>
      apply round_inj_hash
      apply hypothesis
      exact same

/-- A unit that is replaced changes the hash. -/
theorem hashFrom_replace_ne
    (seed : BitVec 32)
    (front back : List (BitVec 32))
    {unit other : BitVec 32}
    (different : unit ≠ other) :
    hashFrom seed (front ++ unit :: back) ≠ hashFrom seed (front ++ other :: back) := by
  intro same
  rw [hashFrom_append, hashFrom_append] at same
  apply different
  apply round_inj_unit
  exact hashFrom_inj_seed same

/-- Bytes keep what they are as units. -/
theorem setWidth_inj
    {left right : BitVec 8}
    (same : left.setWidth 32 = right.setWidth 32) :
    left = right := by
  have narrowed := congrArg (BitVec.setWidth 8) same
  rwa [BitVec.setWidth_setWidth_of_le _ (by decide), BitVec.setWidth_setWidth_of_le _ (by decide),
    BitVec.setWidth_eq, BitVec.setWidth_eq] at narrowed

end FnvHash
end HttpNative
