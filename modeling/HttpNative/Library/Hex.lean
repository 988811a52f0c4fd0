import HttpNative.Library.Json
import HttpNative.Library.Octets

/-!
# Hexadecimal digits

Octets as pairs of hexadecimal digits: a writer in lower case and a reader of
either case.
-/

namespace HttpNative
namespace Hex

def encode (octets : Octets) : Text :=
  octets.flatMap fun octet => [Json.hexDigit (octet.toNat / 16), Json.hexDigit (octet.toNat % 16)]

def decode : Text → Option Octets
  | [] => some []
  | [_] => none
  | high :: low :: rest => do
      let high ← Json.hexDigitValue high
      let low ← Json.hexDigitValue low
      let rest ← decode rest
      some (UInt8.ofNat (high * 16 + low) :: rest)

/-- Decoding undoes encoding. -/
theorem decode_encode
    (octets : Octets) :
    decode (encode octets) = some octets := by
  induction octets with
  | nil => rfl
  | cons octet rest hypothesis =>
      have bound := octet.toNat_lt
      have high := Json.hexDigitValue_hexDigit (octet.toNat / 16) (by omega)
      have low := Json.hexDigitValue_hexDigit (octet.toNat % 16) (by omega)
      have parts : octet.toNat / 16 * 16 + octet.toNat % 16 = octet.toNat := by omega
      rw [encode, List.flatMap_cons, List.cons_append, List.cons_append, List.nil_append, decode,
        high, low]
      rw [encode] at hypothesis
      simp only [hypothesis, parts, Option.bind_eq_bind, Option.bind_some, UInt8.ofNat_toNat]

theorem length_encode
    (octets : Octets) :
    (encode octets).length = 2 * octets.length := by
  induction octets with
  | nil => rfl
  | cons octet rest hypothesis =>
      rw [encode] at hypothesis ⊢
      simp only [List.flatMap_cons, List.length_append, List.length_cons, List.length_nil,
        hypothesis]
      omega

/-- The digits that are written. -/
theorem mem_digits_of_mem_encode
    {octets : Octets} {char : Char}
    (member : char ∈ encode octets) :
    char ∈ text "0123456789abcdef" := by
  have digits : ∀ value < 16, Json.hexDigit value ∈ text "0123456789abcdef" := by decide
  obtain ⟨octet, _, digit⟩ := List.mem_flatMap.mp member
  have bound := octet.toNat_lt
  simp only [List.mem_cons, List.not_mem_nil, or_false] at digit
  rcases digit with rfl | rfl
  · exact digits _ (by omega)
  · exact digits _ (by omega)

/-! ## What is read -/

theorem toNat_lt_of_hexDigitValue
    {char : Char} {value : Nat}
    (digit : Json.hexDigitValue char = some value) :
    char.toNat < 128 := by
  have nine : '9'.toNat = 57 := rfl
  have lower : 'f'.toNat = 102 := rfl
  have upper : 'F'.toNat = 70 := rfl
  simp only [Json.hexDigitValue, Char.le_def, UInt32.le_iff_toNat_le] at digit
  simp only [Char.toNat] at nine lower upper ⊢
  split_ifs at digit <;> omega

/-- A digit of either case is the written one in lower case. -/
theorem toLower_of_hexDigitValue
    {char : Char} {value : Nat}
    (digit : Json.hexDigitValue char = some value) :
    value < 16 ∧ char.toLower = Json.hexDigit value := by
  have all : ∀ code < 128, ∀ value ∈ Json.hexDigitValue (Char.ofNat code),
      value < 16 ∧ (Char.ofNat code).toLower = Json.hexDigit value := by
    decide
  have own := all char.toNat (toNat_lt_of_hexDigitValue digit)
  rw [Char.ofNat_toNat] at own
  exact own value digit

/-- Only what is written is read, up to the case of its letters. -/
theorem asciiLower_of_decode
    {hex : Text} {octets : Octets}
    (decodes : decode hex = some octets) :
    Text.asciiLower hex = encode octets := by
  induction hex using decode.induct generalizing octets with
  | case1 =>
      cases decodes
      rfl
  | case2 char => cases decodes
  | case3 high low rest hypothesis =>
      rw [decode] at decodes
      simp only [Option.bind_eq_bind, Option.bind_eq_some_iff, Option.some.injEq] at decodes
      obtain ⟨highValue, highDigit, lowValue, lowDigit, octets, decodesRest, rfl⟩ := decodes
      obtain ⟨highBound, highLower⟩ := toLower_of_hexDigitValue highDigit
      obtain ⟨lowBound, lowLower⟩ := toLower_of_hexDigitValue lowDigit
      have octet : (UInt8.ofNat (highValue * 16 + lowValue)).toNat = highValue * 16 + lowValue := by
        rw [UInt8.toNat_ofNat']
        omega
      rw [encode, List.flatMap_cons, octet, show (highValue * 16 + lowValue) / 16 = highValue by omega,
        show (highValue * 16 + lowValue) % 16 = lowValue by omega, ← highLower, ← lowLower,
        ← encode, ← hypothesis decodesRest]
      rfl

end Hex
end HttpNative
