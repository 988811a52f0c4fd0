import HttpNative.Library.Text
import Mathlib.Data.List.DropRight

/-!
# Rows of octets

Raw header bytes: ASCII case, white space, and searching.
-/

namespace HttpNative

abbrev Octets := List UInt8

/-- The octets of an ASCII literal. -/
def octets (string : String) : Octets :=
  string.toList.map fun char => UInt8.ofNat char.toNat

namespace Octets

/-- The characters that octets below 128 stand for. -/
def toText (input : Octets) : Text :=
  input.map fun octet => Char.ofNat octet.toNat

/-- Lower case of the ASCII letters; every other octet stays. -/
def lower (octet : UInt8) : UInt8 :=
  if 65 ≤ octet.toNat ∧ octet.toNat ≤ 90 then octet + 32 else octet

def asciiLower (input : Octets) : Octets :=
  input.map lower

/-- Equality up to the case of ASCII letters. -/
def eqIgnoreAsciiCase (left right : Octets) : Bool :=
  asciiLower left == asciiLower right

/-- Whether a row stands somewhere in another. -/
def includes (needle : Octets) : Octets → Bool
  | [] => needle.isEmpty
  | octet :: rest => needle.isPrefixOf (octet :: rest) || includes needle rest

/-- The position of the first place where a row stands in another. -/
def find (needle : Octets) : Octets → Option Nat
  | [] => if needle = [] then some 0 else none
  | octet :: rest =>
      if needle.isPrefixOf (octet :: rest) then some 0 else (find needle rest).map (· + 1)

def isAsciiWhitespace (octet : UInt8) : Bool :=
  [9, 10, 12, 13, 32].contains octet.toNat

/-- The row without blank octets at its ends. -/
def trimWith (isBlank : UInt8 → Bool) (input : Octets) : Octets :=
  (input.dropWhile isBlank).rdropWhile isBlank

def trimAscii (input : Octets) : Octets :=
  trimWith isAsciiWhitespace input

/-! ## Searching -/

/-- A row that cannot start before is found behind. -/
theorem find_append_of_head_notMem
    {head : UInt8} {needle before : Octets}
    (absent : head ∉ before)
    (rest : Octets) :
    find (head :: needle) (before ++ rest) =
      (find (head :: needle) rest).map (· + before.length) := by
  induction before with
  | nil => simp
  | cons octet others hypothesis =>
      obtain ⟨different, absent⟩ := List.ne_and_not_mem_of_not_mem_cons absent
      have notHere : (head :: needle).isPrefixOf (octet :: (others ++ rest)) = false := by
        simp [List.isPrefixOf, different]
      rw [List.cons_append, find, notHere, hypothesis absent, Option.map_map]
      rfl

/-- A needle without the next octet does not reach over it. -/
theorem prefix_of_prefix_append
    {needle before rest : Octets} {foreign : UInt8}
    (absent : foreign ∉ needle)
    (starts : needle <+: before ++ foreign :: rest) :
    needle <+: before := by
  induction needle generalizing before with
  | nil => exact List.nil_prefix
  | cons octet others hypothesis =>
      obtain ⟨different, absent⟩ := List.ne_and_not_mem_of_not_mem_cons absent
      cases before with
      | nil => exact absurd (List.cons_prefix_cons.mp starts).1 (Ne.symm different)
      | cons first before =>
          obtain ⟨same, starts⟩ := List.cons_prefix_cons.mp starts
          exact List.cons_prefix_cons.mpr ⟨same, hypothesis absent starts⟩

/-- A row that is nowhere before an octet it does not have is looked for from there. -/
theorem find_append_of_notInfix
    {needle before : Octets} {foreign : UInt8}
    (elsewhere : ¬ needle <:+: before)
    (absent : foreign ∉ needle)
    (rest : Octets) :
    find needle (before ++ foreign :: rest) =
      (find needle (foreign :: rest)).map (· + before.length) := by
  induction before with
  | nil => simp
  | cons octet before hypothesis =>
      have notHere : needle.isPrefixOf (octet :: (before ++ foreign :: rest)) = false := by
        rw [Bool.eq_false_iff, Ne, List.isPrefixOf_iff_prefix]
        intro starts
        rw [← List.cons_append] at starts
        exact elsewhere (prefix_of_prefix_append absent starts).isInfix
      have behind : ¬ needle <:+: before := fun inside =>
        elsewhere (inside.trans (List.suffix_cons octet before).isInfix)
      rw [List.cons_append, find, notHere, hypothesis behind, if_neg (by simp), Option.map_map]
      rfl

theorem find_of_isPrefixOf
    {needle input : Octets}
    (starts : needle <+: input)
    (notEmpty : needle ≠ []) :
    find needle input = some 0 := by
  cases input with
  | nil => exact absurd (List.prefix_nil.mp starts) notEmpty
  | cons octet rest => rw [find, if_pos (List.isPrefixOf_iff_prefix.mpr starts)]

/-- A row that is found lies within the octets that are searched. -/
theorem find_add_length_le
    {needle input : Octets} {position : Nat}
    (found : find needle input = some position) :
    position + needle.length ≤ input.length := by
  induction input generalizing position with
  | nil =>
      rw [find] at found
      split at found
      case isTrue empty =>
          cases found
          simp [empty]
      case isFalse => cases found
  | cons octet rest hypothesis =>
      rw [find] at found
      split at found
      case isTrue starts =>
          cases found
          have long := (List.isPrefixOf_iff_prefix.mp starts).length_le
          omega
      case isFalse =>
          obtain ⟨behind, later, rfl⟩ := Option.map_eq_some_iff.mp found
          have bound := hypothesis later
          rw [List.length_cons]
          omega

/-- What is found stays where it is when more follows. -/
theorem find_append
    {needle input : Octets} {position : Nat}
    (found : find needle input = some position)
    (more : Octets) :
    find needle (input ++ more) = some position := by
  induction input generalizing position with
  | nil =>
      rw [find] at found
      split at found
      case isTrue empty =>
          cases found
          subst empty
          cases more <;> rfl
      case isFalse => cases found
  | cons octet rest hypothesis =>
      rw [find] at found
      rw [List.cons_append, find]
      split at found
      case isTrue starts =>
          cases found
          have within := (List.isPrefixOf_iff_prefix.mp starts).trans
            (List.prefix_append (octet :: rest) more)
          rw [List.cons_append] at within
          rw [if_pos (List.isPrefixOf_iff_prefix.mpr within)]
      case isFalse notHere =>
          obtain ⟨behind, later, rfl⟩ := Option.map_eq_some_iff.mp found
          have bound := find_add_length_le later
          have notStart : ¬ needle.isPrefixOf (octet :: (rest ++ more)) = true := by
            intro starts
            refine notHere (List.isPrefixOf_iff_prefix.mpr ?_)
            refine List.prefix_of_prefix_length_le (List.isPrefixOf_iff_prefix.mp starts)
              (List.prefix_append (octet :: rest) more) ?_
            rw [List.length_cons]
            omega
          rw [if_neg notStart, hypothesis later, Option.map_some]

/-- Octets that a row does not hold can be taken off in front. -/
theorem includes_append_left
    {needle before : Octets}
    (notEmpty : needle ≠ [])
    (absent : ∀ octet ∈ before, octet ∉ needle)
    (rest : Octets) :
    includes needle (before ++ rest) = includes needle rest := by
  induction before with
  | nil => rfl
  | cons octet others hypothesis =>
      cases needle with
      | nil => exact absurd rfl notEmpty
      | cons head tail =>
          have different : head ≠ octet := by
            rintro rfl
            exact absent head List.mem_cons_self List.mem_cons_self
          have notHere : (head :: tail).isPrefixOf (octet :: (others ++ rest)) = false := by
            simp [List.isPrefixOf, different]
          rw [List.cons_append, includes, notHere, Bool.false_or]
          exact hypothesis fun other member => absent other (List.mem_cons_of_mem _ member)

/-- Octets that a row does not hold can be taken off behind. -/
theorem includes_append_right
    {needle after : Octets}
    (notEmpty : needle ≠ [])
    (absent : ∀ octet ∈ after, octet ∉ needle)
    (rest : Octets) :
    includes needle (rest ++ after) = includes needle rest := by
  induction rest with
  | nil =>
      have alone := includes_append_left notEmpty absent []
      rwa [List.append_nil] at alone
  | cons octet others hypothesis =>
      have starts : needle.isPrefixOf (octet :: (others ++ after)) =
          needle.isPrefixOf (octet :: others) := by
        rw [Bool.eq_iff_iff, List.isPrefixOf_iff_prefix, List.isPrefixOf_iff_prefix,
          ← List.cons_append]
        constructor
        · intro within
          by_cases fits : needle.length ≤ (octet :: others).length
          · exact List.prefix_of_prefix_length_le within (List.prefix_append _ _) fits
          · obtain ⟨middle, spelled⟩ := List.prefix_of_prefix_length_le
              (List.prefix_append (octet :: others) after) within (by omega)
            have reaches : (octet :: others) ++ middle <+: (octet :: others) ++ after := by
              rw [spelled]
              exact within
            have inAfter := (List.prefix_append_right_inj _).mp reaches
            cases middle with
            | nil => simp [← spelled] at fits
            | cons first more =>
                have member : first ∈ after := inAfter.subset List.mem_cons_self
                exact absurd (by simp [← spelled]) (absent first member)
        · intro within
          exact within.trans (List.prefix_append _ _)
      rw [List.cons_append, includes, starts, hypothesis, includes]

/-! ## Case and white space -/

theorem asciiLower_append
    (left right : Octets) :
    asciiLower (left ++ right) = asciiLower left ++ asciiLower right :=
  List.map_append

theorem toNat_lower
    (octet : UInt8) :
    (lower octet).toNat = octet.toNat ∨
      (65 ≤ octet.toNat ∧ octet.toNat ≤ 90 ∧ (lower octet).toNat = octet.toNat + 32) := by
  unfold lower
  split
  · rename_i upper
    right
    refine ⟨upper.1, upper.2, ?_⟩
    rw [UInt8.toNat_add]
    change (octet.toNat + 32) % 256 = octet.toNat + 32
    omega
  · exact .inl rfl

/-- Blank ends come off a row that neither begins nor ends blank. -/
theorem trimWith_append
    {isBlank : UInt8 → Bool} {before value after : Octets}
    (blankBefore : ∀ octet ∈ before, isBlank octet = true)
    (blankAfter : ∀ octet ∈ after, isBlank octet = true)
    (solidStart : ∀ octet, value.head? = some octet → isBlank octet = false)
    (solidEnd : ∀ octet, value.getLast? = some octet → isBlank octet = false) :
    trimWith isBlank (before ++ value ++ after) = value := by
  cases value with
  | nil =>
      have blank : ∀ octet ∈ before ++ [] ++ after, isBlank octet = true := by
        intro octet member
        rw [List.append_nil] at member
        exact (List.mem_append.mp member).elim (blankBefore octet) (blankAfter octet)
      rw [trimWith, List.dropWhile_eq_nil_iff.mpr blank, List.rdropWhile_nil]
  | cons first rest =>
      have front : (before ++ first :: rest ++ after).dropWhile isBlank =
          first :: rest ++ after := by
        rw [List.append_assoc, List.dropWhile_append_of_pos blankBefore, List.cons_append,
          List.dropWhile_cons_of_neg]
        simp [solidStart first rfl]
      have kept : (first :: rest).rdropWhile isBlank = first :: rest := by
        rw [List.rdropWhile_eq_self_iff]
        intro notEmpty
        simp [solidEnd _ (List.getLast?_eq_some_getLast notEmpty)]
      rw [trimWith, front, List.rdropWhile, List.reverse_append,
        List.dropWhile_append_of_pos (by simpa using blankAfter)]
      exact kept

end Octets
end HttpNative
