import HttpNative.Library.PercentEncoding
import HttpNative.Library.Utf8Ascii

/-!
# Percent decoding of octets

One round of percent decoding on the octets of a text. Each escape gives an octet, so
another round may find escapes in the result. The octets of a character above ASCII are
part of no escape.
-/

namespace HttpNative
namespace PercentEncoding

/-- The percent sign. -/
def percent : UInt8 := 0x25

/-- The octet that two octets are the hexadecimal digits of. -/
def hexPairOctets (high low : UInt8) : Option UInt8 :=
  hexPair (Char.ofNat high.toNat) (Char.ofNat low.toNat)

/-- A percent sign without two hexadecimal digits is kept. -/
def decodeOctets : Octets → Octets
  | octet :: high :: low :: rest =>
      match if octet = percent then hexPairOctets high low else none with
      | some value => value :: decodeOctets rest
      | none => octet :: decodeOctets (high :: low :: rest)
  | rest => rest

theorem decodeOctets_cons_of_none
    {octet : UInt8}
    {rest : Octets}
    (noPair : ∀ high low tail, octet = percent → rest = high :: low :: tail →
      hexPairOctets high low = none) :
    decodeOctets (octet :: rest) = octet :: decodeOctets rest := by
  match rest, noPair with
  | [], _ => rfl
  | [high], _ => rfl
  | high :: low :: tail, noPair =>
      have keeps : (if octet = percent then hexPairOctets high low else none) = none := by
        split
        · exact noPair high low tail ‹_› rfl
        · rfl
      rw [decodeOctets, keeps]

/-- Octets before the first percent sign are kept. -/
theorem decodeOctets_append_of_notMem
    {before : Octets}
    (absent : percent ∉ before)
    (after : Octets) :
    decodeOctets (before ++ after) = before ++ decodeOctets after := by
  induction before with
  | nil => rfl
  | cons octet rest hypothesis =>
      rw [List.mem_cons, not_or] at absent
      rw [List.cons_append, decodeOctets_cons_of_none fun _ _ _ same => absurd same.symm absent.1,
        hypothesis absent.2, List.cons_append]

/-! ## Escapes of a text -/

/-- The numbers of the hexadecimal digits. -/
theorem toNat_of_hexValue
    {char : Char}
    {value : Nat}
    (digit : hexValue char = some value) :
    value < 10 ∧ char.toNat = 48 + value ∨
      10 ≤ value ∧ value < 16 ∧ (char.toNat = 87 + value ∨ char.toNat = 55 + value) := by
  unfold hexValue at digit
  simp only [Char.le_def, UInt32.le_iff_toNat_le] at digit
  have zero : ('0'.val).toNat = 48 := rfl
  have nine : ('9'.val).toNat = 57 := rfl
  have lowerA : ('a'.val).toNat = 97 := rfl
  have lowerF : ('f'.val).toNat = 102 := rfl
  have upperA : ('A'.val).toNat = 65 := rfl
  have upperF : ('F'.val).toNat = 70 := rfl
  simp only [zero, nine, lowerA, lowerF, upperA, upperF, Char.toNat] at digit
  have isNat : char.toNat = char.val.toNat := rfl
  split at digit
  · cases digit
    omega
  split at digit
  · cases digit
    omega
  split at digit
  · cases digit
    omega
  · cases digit

theorem ascii_of_hexPair
    {high low : Char}
    {value : UInt8}
    (pair : hexPair high low = some value) :
    high.toNat < 0x80 ∧ low.toNat < 0x80 := by
  unfold hexPair at pair
  split at pair
  · rename_i highDigit lowDigit
    have small := toNat_of_hexValue highDigit
    have smallLow := toNat_of_hexValue lowDigit
    omega
  · cases pair

theorem toNat_ofNat_octet
    (octet : UInt8) :
    (Char.ofNat octet.toNat).toNat = octet.toNat :=
  Utf8.toNat_ofNat_of_valid (.inl (by have := octet.toNat_lt; omega))

theorem hexPairOctets_of_not_ascii
    {high low : UInt8}
    (above : 0x80 ≤ high.toNat ∨ 0x80 ≤ low.toNat) :
    hexPairOctets high low = none := by
  cases pair : hexPairOctets high low with
  | none => rfl
  | some value =>
      have small := ascii_of_hexPair pair
      rw [toNat_ofNat_octet, toNat_ofNat_octet] at small
      omega

/-- An ASCII character is one octet. -/
theorem utf8EncodeChar_of_ascii
    {char : Char}
    (ascii : char.toNat < 0x80) :
    String.utf8EncodeChar char = [UInt8.ofNat char.toNat] := by
  have small : char.val.toNat ≤ 0x7F := Nat.le_of_lt_succ ascii
  simp only [String.utf8EncodeChar, if_pos small]
  rfl

theorem ofNat_toNat_of_ascii
    {char : Char}
    (ascii : char.toNat < 0x80) :
    Char.ofNat (UInt8.ofNat char.toNat).toNat = char := by
  rw [Utf8.toNat_ofNat_of_lt (by omega), Char.ofNat_toNat]

/-- No octet of another character is an ASCII octet. -/
theorem le_of_mem_utf8EncodeChar
    {char : Char}
    (above : 0x80 ≤ char.toNat) :
    ∀ octet ∈ String.utf8EncodeChar char, 0x80 ≤ octet.toNat := by
  intro octet member
  by_contra small
  have same := (Utf8.mem_utf8EncodeChar_iff (Nat.lt_of_not_le small)).mp member
  have isNat : char.toNat = char.val.toNat := rfl
  omega

theorem encode_cons
    (char : Char)
    (rest : Text) :
    Utf8.encode (char :: rest) = String.utf8EncodeChar char ++ Utf8.encode rest :=
  List.flatMap_cons

theorem encode_percent
    (rest : Text) :
    Utf8.encode ('%' :: rest) = percent :: Utf8.encode rest := by
  rw [encode_cons]
  rfl

theorem decodeOctets_literal
    {char : Char}
    (literal : char ≠ '%')
    (rest : Text) :
    decodeOctets (Utf8.encode (char :: rest)) =
      String.utf8EncodeChar char ++ decodeOctets (Utf8.encode rest) := by
  rw [encode_cons, decodeOctets_append_of_notMem]
  intro member
  have same := (Utf8.mem_utf8EncodeChar_iff (by decide)).mp member
  exact literal (Char.ext (UInt32.toNat_inj.mp same))

theorem decodeOctets_escape
    {high low : Char}
    {value : UInt8}
    (pair : hexPair high low = some value)
    (rest : Text) :
    decodeOctets (Utf8.encode ('%' :: high :: low :: rest)) =
      value :: decodeOctets (Utf8.encode rest) := by
  have ascii := ascii_of_hexPair pair
  rw [encode_percent, encode_cons, encode_cons, utf8EncodeChar_of_ascii ascii.1,
    utf8EncodeChar_of_ascii ascii.2, List.singleton_append, List.singleton_append, decodeOctets,
    if_pos rfl, hexPairOctets, ofNat_toNat_of_ascii ascii.1, ofNat_toNat_of_ascii ascii.2, pair]

/-- A percent sign that starts no escape. -/
theorem decodeOctets_percent
    {rest : Text}
    (noPair : ∀ high low tail, rest = high :: low :: tail → hexPair high low = none) :
    decodeOctets (Utf8.encode ('%' :: rest)) = percent :: decodeOctets (Utf8.encode rest) := by
  rw [encode_percent]
  refine decodeOctets_cons_of_none fun first second tail _ spelled => ?_
  cases rest with
  | nil => cases spelled
  | cons high others =>
      rw [encode_cons] at spelled
      by_cases highAscii : high.toNat < 0x80
      · rw [utf8EncodeChar_of_ascii highAscii, List.singleton_append] at spelled
        cases others with
        | nil => cases spelled
        | cons low others =>
            rw [encode_cons] at spelled
            by_cases lowAscii : low.toNat < 0x80
            · rw [utf8EncodeChar_of_ascii lowAscii, List.singleton_append] at spelled
              cases spelled
              rw [hexPairOctets, ofNat_toNat_of_ascii highAscii, ofNat_toNat_of_ascii lowAscii]
              exact noPair high low others rfl
            · obtain ⟨octet, octets, encoded, -⟩ := Utf8.utf8EncodeChar_eq_cons low
              have above := le_of_mem_utf8EncodeChar (Nat.le_of_not_lt lowAscii)
              rw [encoded] at spelled above
              cases spelled
              exact hexPairOctets_of_not_ascii (.inr (above _ List.mem_cons_self))
      · obtain ⟨octet, octets, encoded, -⟩ := Utf8.utf8EncodeChar_eq_cons high
        have above := le_of_mem_utf8EncodeChar (Nat.le_of_not_lt highAscii)
        rw [encoded] at spelled above
        rw [List.cons_append, List.cons.injEq] at spelled
        rw [← spelled.1]
        exact hexPairOctets_of_not_ascii (.inl (above _ List.mem_cons_self))

/-- Wherever an escape is written, its octet is decoded. -/
theorem mem_decodeOctets
    {high low : Char}
    {value : UInt8}
    (pair : hexPair high low = some value)
    (before after : Text) :
    value ∈ decodeOctets (Utf8.encode (before ++ '%' :: high :: low :: after)) := by
  fun_induction tokens before with
  | case1 first second rest other escape hypothesis =>
      change value ∈ decodeOctets (Utf8.encode ('%' :: first :: second :: (rest ++ _)))
      rw [decodeOctets_escape escape]
      exact List.mem_cons_of_mem _ hypothesis
  | case2 first second rest noEscape hypothesis =>
      change value ∈ decodeOctets (Utf8.encode ('%' :: (first :: second :: rest ++ _)))
      rw [decodeOctets_percent]
      · exact List.mem_cons_of_mem _ hypothesis
      · intro _ _ _ same
        cases same
        exact noEscape
  | case3 char rest short hypothesis =>
      change value ∈ decodeOctets (Utf8.encode (char :: (rest ++ _)))
      by_cases sign : char = '%'
      · subst sign
        rw [decodeOctets_percent]
        · exact List.mem_cons_of_mem _ hypothesis
        · intro first second tail same
          cases rest with
          | nil =>
              cases same
              rfl
          | cons one others =>
              cases others with
              | nil =>
                  cases same
                  unfold hexPair
                  split
                  · rename_i digit
                    cases digit
                  · rfl
              | cons two others => exact (short one two others rfl rfl).elim
      · rw [decodeOctets_literal sign]
        exact List.mem_append_right _ hypothesis
  | case4 =>
      rw [List.nil_append, decodeOctets_escape pair]
      exact List.mem_cons_self

end PercentEncoding
end HttpNative
