import HttpNative.Library.Utf8Ascii

/-!
# Strings of JavaScript

A string is a row of UTF-16 code units. Two surrogates that stand for one character
are read as that character; a surrogate that stands alone is a code point of its own,
and UTF-8 has no octets for it but those of the replacement character.
-/

namespace HttpNative

/-- The code units of a string. -/
abbrev JsString := List UInt16

/-- A character, or a surrogate without its other half. -/
inductive CodePoint where
  | scalar (char : Char)
  | lone (unit : UInt16)
deriving DecidableEq, Repr

namespace JsString

/-- The code units of a character. -/
def unitsOf (char : Char) : JsString :=
  if char.toNat < 0x10000 then
    [.ofNat char.toNat]
  else
    [.ofNat (0xD800 + (char.toNat - 0x10000) / 0x400),
      .ofNat (0xDC00 + (char.toNat - 0x10000) % 0x400)]

/-- The string of a text. -/
def ofText (input : Text) : JsString :=
  input.flatMap unitsOf

def isHighSurrogate (unit : UInt16) : Bool :=
  0xD800 ≤ unit.toNat && unit.toNat < 0xDC00

def isLowSurrogate (unit : UInt16) : Bool :=
  0xDC00 ≤ unit.toNat && unit.toNat < 0xE000

/-- The code point of a unit that is not one half of a pair. -/
def single (unit : UInt16) : CodePoint :=
  if isHighSurrogate unit || isLowSurrogate unit then
    .lone unit
  else
    .scalar (Char.ofNat unit.toNat)

/-- The character of two surrogates. -/
def pairChar (high low : UInt16) : Char :=
  Char.ofNat (0x10000 + (high.toNat - 0xD800) * 0x400 + (low.toNat - 0xDC00))

/-- The code points of a string, from the left. -/
def codePoints : JsString → List CodePoint
  | [] => []
  | [unit] => [single unit]
  | unit :: next :: rest =>
      if isHighSurrogate unit && isLowSurrogate next then
        .scalar (pairChar unit next) :: codePoints rest
      else
        single unit :: codePoints (next :: rest)

/-- The text that is left when each lone surrogate is replaced. -/
def toWellFormed (string : JsString) : Text :=
  (codePoints string).map fun point =>
    match point with
    | .scalar char => char
    | .lone _ => Utf8.replacement

end JsString

/-- The code units of a code point. -/
def CodePoint.units : CodePoint → JsString
  | .scalar char => JsString.unitsOf char
  | .lone unit => [unit]

namespace JsString

theorem ofText_append
    (first second : Text) :
    ofText (first ++ second) = ofText first ++ ofText second :=
  List.flatMap_append

theorem toNat_lt_or_lt
    (char : Char) :
    char.toNat < 0xD800 ∨ 0xE000 ≤ char.toNat ∧ char.toNat < 0x110000 := by
  rcases char.valid with small | ⟨above, below⟩
  · exact .inl small
  · exact .inr ⟨above, below⟩

theorem single_of_char
    {char : Char}
    (small : char.toNat < 0x10000) :
    single (.ofNat char.toNat) = .scalar char := by
  have range := toNat_lt_or_lt char
  have size : (UInt16.ofNat char.toNat).toNat = char.toNat := by
    rw [UInt16.toNat_ofNat']
    exact Nat.mod_eq_of_lt small
  have noSurrogate : (isHighSurrogate (.ofNat char.toNat) || isLowSurrogate (.ofNat char.toNat)) =
      false := by
    simp only [isHighSurrogate, isLowSurrogate, size, Bool.or_eq_false_iff, Bool.and_eq_false_iff,
      decide_eq_false_iff_not]
    omega
  rw [single, noSurrogate, if_neg Bool.false_ne_true, size, Char.ofNat_toNat]

/-- A unit that is not a surrogate is read by itself, whatever follows. -/
theorem codePoints_cons_of_not_high
    {unit : UInt16}
    (other : isHighSurrogate unit = false)
    (rest : JsString) :
    codePoints (unit :: rest) = single unit :: codePoints rest := by
  cases rest with
  | nil => rfl
  | cons next rest =>
      rw [codePoints, other, Bool.false_and, if_neg Bool.false_ne_true]

theorem codePoints_unitsOf_append
    (char : Char)
    (rest : JsString) :
    codePoints (unitsOf char ++ rest) = .scalar char :: codePoints rest := by
  have range := toNat_lt_or_lt char
  unfold unitsOf
  split
  · rename_i small
    have size : (UInt16.ofNat char.toNat).toNat = char.toNat := by
      rw [UInt16.toNat_ofNat']
      exact Nat.mod_eq_of_lt small
    rw [List.singleton_append, codePoints_cons_of_not_high, single_of_char small]
    simp only [isHighSurrogate, size, Bool.and_eq_false_iff, decide_eq_false_iff_not]
    omega
  · rename_i large
    have high : (UInt16.ofNat (0xD800 + (char.toNat - 0x10000) / 0x400)).toNat =
        0xD800 + (char.toNat - 0x10000) / 0x400 := by
      rw [UInt16.toNat_ofNat']
      exact Nat.mod_eq_of_lt (by omega)
    have low : (UInt16.ofNat (0xDC00 + (char.toNat - 0x10000) % 0x400)).toNat =
        0xDC00 + (char.toNat - 0x10000) % 0x400 := by
      rw [UInt16.toNat_ofNat']
      exact Nat.mod_eq_of_lt (by omega)
    have pair : (isHighSurrogate (.ofNat (0xD800 + (char.toNat - 0x10000) / 0x400)) &&
        isLowSurrogate (.ofNat (0xDC00 + (char.toNat - 0x10000) % 0x400))) = true := by
      simp only [isHighSurrogate, isLowSurrogate, high, low, Bool.and_eq_true, decide_eq_true_eq]
      omega
    have joined : pairChar (.ofNat (0xD800 + (char.toNat - 0x10000) / 0x400))
        (.ofNat (0xDC00 + (char.toNat - 0x10000) % 0x400)) = char := by
      have number : 0x10000 + (0xD800 + (char.toNat - 0x10000) / 0x400 - 0xD800) * 0x400 +
          (0xDC00 + (char.toNat - 0x10000) % 0x400 - 0xDC00) = char.toNat := by
        omega
      rw [pairChar, high, low, number, Char.ofNat_toNat]
    rw [List.cons_append, List.singleton_append, codePoints, pair, if_pos rfl, joined]

/-- The code points of a text are its characters. -/
theorem codePoints_ofText_append
    (input : Text)
    (rest : JsString) :
    codePoints (ofText input ++ rest) = input.map .scalar ++ codePoints rest := by
  unfold ofText
  induction input with
  | nil => rfl
  | cons char input hypothesis =>
      rw [List.flatMap_cons, List.append_assoc, codePoints_unitsOf_append, hypothesis]
      rfl

/-- A text brings in no units but those of its characters. -/
theorem mem_of_mem_ofText
    {char : Char} {input : Text}
    (small : char.toNat < 0xD800)
    (member : .ofNat char.toNat ∈ ofText input) :
    char ∈ input := by
  obtain ⟨other, inside, isUnit⟩ := List.mem_flatMap.mp member
  have range := toNat_lt_or_lt other
  have size : (UInt16.ofNat char.toNat).toNat = char.toNat := by
    rw [UInt16.toNat_ofNat']
    exact Nat.mod_eq_of_lt (by omega)
  unfold unitsOf at isUnit
  split at isUnit
  · rename_i otherSmall
    have same := congrArg UInt16.toNat (List.mem_singleton.mp isUnit)
    rw [size, UInt16.toNat_ofNat', Nat.mod_eq_of_lt otherSmall] at same
    rwa [Char.toNat_inj.mp same]
  · rename_i otherLarge
    rw [List.mem_cons, List.mem_singleton] at isUnit
    rcases isUnit with isUnit | isUnit
    all_goals
      have same := congrArg UInt16.toNat isUnit
      rw [size, UInt16.toNat_ofNat', Nat.mod_eq_of_lt (by omega)] at same
      omega

theorem toNat_pairChar
    {high low : UInt16}
    (pair : (isHighSurrogate high && isLowSurrogate low) = true) :
    (pairChar high low).toNat =
      0x10000 + (high.toNat - 0xD800) * 0x400 + (low.toNat - 0xDC00) := by
  simp only [isHighSurrogate, isLowSurrogate, Bool.and_eq_true, decide_eq_true_eq] at pair
  exact Utf8.toNat_ofNat_of_valid (.inr (by omega))

/-- A string is put together of its code points. -/
theorem flatMap_units_codePoints
    (string : JsString) :
    (codePoints string).flatMap CodePoint.units = string := by
  have units_single : ∀ unit, (single unit).units = [unit] := by
    intro unit
    unfold single
    split
    · rfl
    · rename_i noSurrogate
      have size := unit.toNat_lt
      simp only [isHighSurrogate, isLowSurrogate, Bool.or_eq_true, Bool.and_eq_true,
        decide_eq_true_eq, not_or] at noSurrogate
      have number : (Char.ofNat unit.toNat).toNat = unit.toNat :=
        Utf8.toNat_ofNat_of_valid (by omega)
      rw [CodePoint.units, unitsOf, number, if_pos (by omega), UInt16.ofNat_toNat]
  induction string using codePoints.induct with
  | case1 => rfl
  | case2 unit => rw [codePoints, List.flatMap_singleton, units_single]
  | case3 high low rest pair hypothesis =>
      have number := toNat_pairChar pair
      simp only [isHighSurrogate, isLowSurrogate, Bool.and_eq_true, decide_eq_true_eq] at pair
      have first : 0xD800 + ((pairChar high low).toNat - 0x10000) / 0x400 = high.toNat := by
        omega
      have second : 0xDC00 + ((pairChar high low).toNat - 0x10000) % 0x400 = low.toNat := by
        omega
      rw [codePoints, if_pos (by simp [isHighSurrogate, isLowSurrogate, pair]),
        List.flatMap_cons, hypothesis, CodePoint.units, unitsOf, if_neg (by omega), first, second,
        UInt16.ofNat_toNat, UInt16.ofNat_toNat]
      rfl
  | case4 unit next rest unpaired hypothesis =>
      rw [codePoints, if_neg unpaired, List.flatMap_cons, hypothesis, units_single]
      rfl

theorem toWellFormed_ofText (input : Text) : (ofText input).toWellFormed = input := by
  have points := codePoints_ofText_append input []
  rw [List.append_nil, codePoints, List.append_nil] at points
  rw [toWellFormed, points, List.map_map]
  exact List.map_id input

/-- A string is the text that is left of it when nothing was replaced. -/
theorem eq_ofText_of_toWellFormed
    {string : JsString} {input : Text}
    (wellFormed : string.toWellFormed = input)
    (unreplaced : Utf8.replacement ∉ input) :
    string = ofText input := by
  have points : codePoints string = input.map .scalar := by
    rw [← wellFormed, toWellFormed, List.map_map]
    symm
    apply (List.map_congr_left ?_).trans (List.map_id _)
    intro point member
    cases point with
    | scalar char => rfl
    | lone unit =>
        apply absurd _ unreplaced
        rw [← wellFormed]
        exact List.mem_map.mpr ⟨_, member, rfl⟩
  rw [← flatMap_units_codePoints string, points, List.flatMap_map]
  rfl

end JsString
end HttpNative
