import HttpNative.Library.Octets
import HttpNative.Library.Utf8
import Mathlib.Tactic.Ring

/-!
# ASCII text in UTF-8

A character that takes several octets lies above ASCII. So well-formed octets
whose text is ASCII are the octets of that text, one for each character.
-/

namespace HttpNative
namespace Utf8

/-- How many code points share the octets read so far and the next one. -/
def Pending.span (pending : Pending) : Nat :=
  if pending.missing = 1 then 1 else if pending.missing = 2 then 64 else 4096

/-- Whatever completes the pending character, it is a character above ASCII. -/
structure Pending.AboveAscii (pending : Pending) : Prop where
  started : 1 ≤ pending.missing ∧ pending.missing ≤ 3
  bounded : 0x80 ≤ pending.lower ∧ pending.upper ≤ 0xBF
  above : 0x80 ≤ (pending.codePoint * 64 + (pending.lower - 0x80)) * pending.span
  below : (pending.codePoint * 64 + (pending.upper - 0x80) + 1) * pending.span ≤ 0x110000
  notSurrogate :
    (pending.codePoint * 64 + (pending.upper - 0x80) + 1) * pending.span ≤ 0xD800 ∨
      0xE000 ≤ (pending.codePoint * 64 + (pending.lower - 0x80)) * pending.span

theorem aboveAscii_of_readFirst
    {octet : Nat} {next : Pending}
    (continues : readFirst octet = .more next) :
    next.AboveAscii := by
  unfold readFirst at continues
  repeat' split at continues
  all_goals cases continues
  all_goals
    refine ⟨by simp, by simp, ?_, ?_, ?_⟩
    all_goals
      simp only [Pending.span, Nat.reduceEqDiff, OfNat.ofNat_ne_one, if_true, if_false]
      omega

/-- The next octet narrows the range of code points. -/
theorem narrow
    {low point high span : Nat}
    (atLeast : low ≤ point)
    (atMost : point ≤ high)
    (above : 0x80 ≤ low * (64 * span))
    (below : (high + 1) * (64 * span) ≤ 0x110000)
    (notSurrogate : (high + 1) * (64 * span) ≤ 0xD800 ∨ 0xE000 ≤ low * (64 * span)) :
    0x80 ≤ point * 64 * span ∧ (point * 64 + 63 + 1) * span ≤ 0x110000 ∧
      ((point * 64 + 63 + 1) * span ≤ 0xD800 ∨ 0xE000 ≤ point * 64 * span) := by
  have lowest : low * (64 * span) ≤ point * 64 * span := by
    rw [Nat.mul_assoc]
    exact Nat.mul_le_mul_right _ atLeast
  have highest : (point * 64 + 63 + 1) * span ≤ (high + 1) * (64 * span) := by
    rw [show point * 64 + 63 + 1 = (point + 1) * 64 by ring, Nat.mul_assoc]
    exact Nat.mul_le_mul_right _ (Nat.succ_le_succ atMost)
  exact ⟨above.trans lowest, highest.trans below,
    notSurrogate.imp highest.trans fun fromAbove => fromAbove.trans lowest⟩

theorem span_step
    {missing : Nat}
    (several : missing = 2 ∨ missing = 3)
    (lower upper codePoint nextLower nextUpper nextPoint : Nat) :
    (Pending.mk missing lower upper codePoint).span =
      64 * (Pending.mk (missing - 1) nextLower nextUpper nextPoint).span := by
  rcases several with rfl | rfl <;> rfl

theorem aboveAscii_of_readNext
    {pending next : Pending} {octet : Nat}
    (aboveAscii : pending.AboveAscii)
    (continues : readNext pending octet = .more next) :
    next.AboveAscii := by
  obtain ⟨missing, lower, upper, codePoint⟩ := pending
  have started : 1 ≤ missing ∧ missing ≤ 3 := aboveAscii.started
  have bounded : 0x80 ≤ lower ∧ upper ≤ 0xBF := aboveAscii.bounded
  unfold readNext at continues
  split at continues
  · rename_i inBounds
    have inBounds : lower ≤ octet ∧ octet ≤ upper := inBounds
    split at continues
    · cases continues
    · rename_i several
      have several : missing = 2 ∨ missing = 3 := by
        have notOne : missing ≠ 1 := several
        omega
      cases continues
      have atLeast : codePoint * 64 + (lower - 0x80) ≤ codePoint * 64 + (octet - 0x80) := by
        omega
      have atMost : codePoint * 64 + (octet - 0x80) ≤ codePoint * 64 + (upper - 0x80) := by
        omega
      have above := aboveAscii.above
      have below := aboveAscii.below
      have notSurrogate := aboveAscii.notSurrogate
      rw [span_step several lower upper codePoint 0x80 0xBF
        (codePoint * 64 + (octet - 0x80))] at above below notSurrogate
      obtain ⟨nextAbove, nextBelow, nextNotSurrogate⟩ :=
        narrow atLeast atMost above below notSurrogate
      refine ⟨?_, by simp, ?_, ?_, ?_⟩
      · simp only
        omega
      · simpa using nextAbove
      · simpa using nextBelow
      · simpa using nextNotSurrogate
  · cases continues

theorem toNat_ofNat_of_valid
    {codePoint : Nat}
    (valid : codePoint < 0xD800 ∨ 0xE000 ≤ codePoint ∧ codePoint < 0x110000) :
    (Char.ofNat codePoint).toNat = codePoint := by
  have isValid : codePoint.isValidChar := by
    unfold Nat.isValidChar
    omega
  rw [Char.ofNat, dif_pos isValid]
  rfl

theorem le_toNat_of_readNext
    {pending : Pending} {octet : Nat} {char : Char}
    (aboveAscii : pending.AboveAscii)
    (completes : readNext pending octet = .complete char) :
    0x80 ≤ char.toNat := by
  obtain ⟨missing, lower, upper, codePoint⟩ := pending
  have bounded : 0x80 ≤ lower ∧ upper ≤ 0xBF := aboveAscii.bounded
  unfold readNext at completes
  split at completes
  · rename_i inBounds
    have inBounds : lower ≤ octet ∧ octet ≤ upper := inBounds
    split at completes
    · rename_i last
      have last : missing = 1 := last
      simp only [Reading.complete.injEq] at completes
      rw [← completes]
      have above := aboveAscii.above
      have below := aboveAscii.below
      have notSurrogate := aboveAscii.notSurrogate
      simp only [Pending.span, if_pos last, Nat.mul_one] at above below notSurrogate
      have valid : codePoint * 64 + (octet - 0x80) < 0xD800 ∨
          0xE000 ≤ codePoint * 64 + (octet - 0x80) ∧
            codePoint * 64 + (octet - 0x80) < 0x110000 := by
        omega
      rw [toNat_ofNat_of_valid valid]
      omega
    · cases completes
  · cases completes

/-- A pending character is decoded to one above ASCII. -/
theorem exists_above_of_decodeFrom
    {pending : Pending} {octets : List UInt8} {decoded : Text}
    (aboveAscii : pending.AboveAscii)
    (decodes : decodeFrom pending octets = some decoded) :
    ∃ char ∈ decoded, 0x80 ≤ char.toNat := by
  have started := aboveAscii.started
  induction octets generalizing pending with
  | nil =>
      rw [decodeFrom, if_neg (by omega)] at decodes
      cases decodes
  | cons octet rest hypothesis =>
      rw [decodeFrom, read, if_neg (by omega)] at decodes
      split at decodes
      · rename_i char completes
        obtain ⟨others, _, rfl⟩ := Option.map_eq_some_iff.mp decodes
        exact ⟨char, List.mem_cons_self, le_toNat_of_readNext aboveAscii completes⟩
      · rename_i next continues
        have nextAbove := aboveAscii_of_readNext aboveAscii continues
        exact hypothesis nextAbove decodes nextAbove.started
      · cases decodes

/-- The octets of an ASCII text are its characters. -/
theorem eq_toText_of_decode
    {octets : Octets} {decoded : Text}
    (decodes : decode octets = some decoded)
    (ascii : ∀ char ∈ decoded, char.toNat < 0x80) :
    Octets.toText octets = decoded ∧ ∀ octet ∈ octets, octet.toNat < 0x80 := by
  unfold decode at decodes
  induction octets generalizing decoded with
  | nil =>
      cases decodes
      exact ⟨rfl, by simp⟩
  | cons octet rest hypothesis =>
      rw [decodeFrom, read_idle] at decodes
      split at decodes
      · rename_i char completes
        obtain ⟨others, restDecodes, rfl⟩ := Option.map_eq_some_iff.mp decodes
        obtain ⟨same, small⟩ := hypothesis restDecodes fun char member =>
          ascii char (List.mem_cons_of_mem _ member)
        have first : octet.toNat ≤ 0x7F ∧ Char.ofNat octet.toNat = char := by
          unfold readFirst at completes
          split at completes
          · rename_i one
            cases completes
            exact ⟨one, rfl⟩
          · repeat' split at completes
            all_goals cases completes
        refine ⟨?_, ?_⟩
        · rw [Octets.toText, List.map_cons, first.2, ← same, Octets.toText]
        · intro other member
          rcases List.mem_cons.mp member with rfl | inRest
          · omega
          · exact small other inRest
      · rename_i next continues
        obtain ⟨char, member, above⟩ :=
          exists_above_of_decodeFrom (aboveAscii_of_readFirst continues) decodes
        have below := ascii char member
        omega
      · cases decodes

/-- ASCII octets are decoded to the characters they stand for. -/
theorem decode_of_ascii
    {octets : Octets}
    (ascii : ∀ octet ∈ octets, octet.toNat < 0x80) :
    decode octets = some (Octets.toText octets) := by
  unfold decode
  induction octets with
  | nil => rfl
  | cons octet rest hypothesis =>
      have small := ascii octet List.mem_cons_self
      rw [decodeFrom, read_idle, readFirst, if_pos (by omega)]
      simp only
      rw [hypothesis fun other member => ascii other (List.mem_cons_of_mem _ member)]
      rfl

/-- ASCII octets are decoded whether or not every invalid octet is replaced. -/
theorem decodeLossy_of_ascii
    {octets : Octets}
    (ascii : ∀ octet ∈ octets, octet.toNat < 0x80) :
    decodeLossy octets = Octets.toText octets := by
  unfold decodeLossy
  induction octets with
  | nil => rfl
  | cons octet rest hypothesis =>
      have small := ascii octet List.mem_cons_self
      have first : read .idle octet.toNat = .complete (Char.ofNat octet.toNat) := by
        rw [read_idle, readFirst, if_pos (by omega)]
      rw [decodeLossyFrom_cons_complete first,
        hypothesis fun other member => ascii other (List.mem_cons_of_mem _ member)]
      rfl

/-- An ASCII octet stands for the character it is the code of, and for no part of
another. -/
theorem mem_utf8EncodeChar_iff
    {char : Char} {octet : UInt8}
    (ascii : octet.toNat < 0x80) :
    octet ∈ String.utf8EncodeChar char ↔ char.val.toNat = octet.toNat := by
  have valid := toNat_valid char
  unfold String.utf8EncodeChar
  generalize char.val.toNat = point at valid
  simp only
  split
  · rw [List.mem_singleton, ← UInt8.toNat_inj, toNat_ofNat_of_lt (by omega)]
    omega
  split
  · simp only [List.mem_cons, List.not_mem_nil, or_false, ← UInt8.toNat_inj]
    rw [toNat_ofNat_of_lt (by omega), toNat_ofNat_of_lt (by omega)]
    omega
  split
  · simp only [List.mem_cons, List.not_mem_nil, or_false, ← UInt8.toNat_inj]
    rw [toNat_ofNat_of_lt (by omega), toNat_ofNat_of_lt (by omega), toNat_ofNat_of_lt (by omega)]
    omega
  · simp only [List.mem_cons, List.not_mem_nil, or_false, ← UInt8.toNat_inj]
    rw [toNat_ofNat_of_lt (by omega), toNat_ofNat_of_lt (by omega), toNat_ofNat_of_lt (by omega),
      toNat_ofNat_of_lt (by omega)]
    omega

theorem mem_encode_iff
    {input : Text} {octet : UInt8}
    (ascii : octet.toNat < 0x80) :
    octet ∈ encode input ↔ ∃ char ∈ input, char.val.toNat = octet.toNat := by
  simp only [encode, List.mem_flatMap, mem_utf8EncodeChar_iff ascii]

/-! ## Letter case -/

theorem toChar_lower
    {octet : UInt8}
    (small : octet.toNat < 0x80) :
    Char.ofNat (Octets.lower octet).toNat = (Char.ofNat octet.toNat).toLower := by
  have all : ∀ value : Fin 128,
      Char.ofNat (Octets.lower (UInt8.ofNat value)).toNat = (Char.ofNat value).toLower := by
    decide
  have own := all ⟨octet.toNat, small⟩
  simpa using own

theorem asciiLower_toText
    {value : Octets}
    (small : ∀ octet ∈ value, octet.toNat < 0x80) :
    Text.asciiLower (Octets.toText value) = Octets.toText (Octets.asciiLower value) := by
  rw [Text.asciiLower, Octets.toText, Octets.toText, Octets.asciiLower, List.map_map, List.map_map]
  apply List.map_congr_left
  intro octet member
  exact (toChar_lower (small octet member)).symm

theorem toText_inj
    {left right : Octets}
    (leftSmall : ∀ octet ∈ left, octet.toNat < 0x80)
    (rightSmall : ∀ octet ∈ right, octet.toNat < 0x80)
    (same : Octets.toText left = Octets.toText right) :
    left = right := by
  have back : ∀ value : Octets, (∀ octet ∈ value, octet.toNat < 0x80) →
      (Octets.toText value).map (fun char => UInt8.ofNat char.toNat) = value := by
    intro value small
    rw [Octets.toText, List.map_map]
    apply (List.map_congr_left ?_).trans (List.map_id value)
    intro octet member
    have bound := small octet member
    rw [Function.comp_apply, toNat_ofNat_of_valid (by omega)]
    simp
  rw [← back left leftSmall, same, back right rightSmall]

theorem small_of_lower_small
    {octet : UInt8}
    (small : (Octets.lower octet).toNat < 0x80) :
    octet.toNat < 0x80 := by
  have lowered := Octets.toNat_lower octet
  omega

theorem toNat_of_toLower_lt
    {char : Char}
    (small : char.toLower.toNat < 0x80) :
    char.toNat < 0x80 := by
  unfold Char.toLower at small
  split at small
  · rename_i upper
    have bounds : 65 ≤ char.toNat ∧ char.toNat ≤ 90 := by
      simpa [UInt32.le_iff_toNat_le] using upper
    omega
  · exact small

/-- Comparing with an ASCII word comes to the same on octets and on text. -/
theorem eqIgnoreAsciiCase_decoded
    {value : Octets} {decoded : Text} {word : Octets}
    (decodes : decode value = some decoded)
    (wordSmall : ∀ octet ∈ Octets.asciiLower word, octet.toNat < 0x80) :
    Octets.eqIgnoreAsciiCase value word =
      Text.eqIgnoreAsciiCase decoded (Octets.toText word) := by
  have wordOwn : ∀ octet ∈ word, octet.toNat < 0x80 := fun octet member =>
    small_of_lower_small (wordSmall _ (List.mem_map_of_mem member))
  rw [Bool.eq_iff_iff, Text.eqIgnoreAsciiCase_iff, asciiLower_toText wordOwn,
    Octets.eqIgnoreAsciiCase, beq_iff_eq]
  constructor
  · intro same
    have small : ∀ octet ∈ value, octet.toNat < 0x80 := by
      intro octet member
      apply small_of_lower_small
      apply wordSmall
      rw [← same]
      exact List.mem_map_of_mem member
    rw [decode_of_ascii small] at decodes
    cases decodes
    rw [asciiLower_toText small, same]
  · intro same
    have ascii : ∀ char ∈ decoded, char.toNat < 0x80 := by
      intro char member
      apply toNat_of_toLower_lt
      have lowered : char.toLower ∈ Text.asciiLower decoded := List.mem_map_of_mem member
      rw [same] at lowered
      obtain ⟨octet, octetMember, isChar⟩ := List.mem_map.mp lowered
      have small := wordSmall octet octetMember
      rw [← isChar, toNat_ofNat_of_valid (by omega)]
      exact small
    obtain ⟨rfl, small⟩ := eq_toText_of_decode decodes ascii
    rw [asciiLower_toText small] at same
    refine toText_inj ?_ wordSmall same
    intro octet member
    obtain ⟨source, sourceMember, rfl⟩ := List.mem_map.mp member
    have bound := small source sourceMember
    have lowered := Octets.toNat_lower source
    omega

end Utf8
end HttpNative
