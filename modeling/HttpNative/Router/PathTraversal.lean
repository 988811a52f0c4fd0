import HttpNative.Library.DotSegments
import HttpNative.Library.OctetEscapes
import HttpNative.Router.RouteTable

/-!
# Paths that lead upwards

A path is refused if a segment of two dots stands in it after one round of percent
decoding, first, last or between two equal separators. So a path that leads upwards is
let through where its escapes are escaped again, or where the separators differ.
-/

namespace HttpNative
namespace Routing

open DotSegments
open PercentEncoding (decodeOctets hexPair)

/-! ## What the check is for -/

/-- What a character means in a path. -/
def markOfChar (char : Char) : Mark :=
  if char = '.' then .dot
  else if char = '/' then .slash
  else if char = '\\' then .backslash
  else .other

def markOfOctet (octet : UInt8) : Mark :=
  if octet = 0x2E then .dot
  else if octet = 0x2F then .slash
  else if octet = 0x5C then .backslash
  else .other

def nul : Char := Char.ofNat 0

/-- The path after some rounds of percent decoding. -/
def decodedPath (rounds : Nat) (path : Text) : Octets :=
  decodeOctets^[rounds] (Utf8.encode path)

/-- At most three rounds of decoding bring out a segment of two dots. -/
def LeadsUp (path : Text) : Prop :=
  ∃ rounds ≤ 3, HasUpSegment ((decodedPath rounds path).map markOfOctet)

/-- No number of rounds brings out a segment of two dots or a NUL. -/
def Harmless (path : Text) : Prop :=
  ∀ rounds,
    ¬ HasUpSegment ((decodedPath rounds path).map markOfOctet) ∧ 0 ∉ decodedPath rounds path

/-- A NUL as it is, or as an escape. -/
def HasNul (path : Text) : Prop :=
  nul ∈ path ∨ text "%00" <:+: path

/-- What has to be refused is refused, and what is harmless is not. -/
structure Guards (path : Text) : Prop where
  refuses : HasNul path ∨ LeadsUp path → containsPathTraversal path = true
  admits : Harmless path → containsPathTraversal path = false

/-! ## The patterns -/

/-- Dots and separators are the only characters with their marks. -/
theorem markOfChar_eq_iff
    {char : Char}
    {mark : Mark}
    {symbol : Char}
    (means : markOfChar symbol = mark)
    (special : mark ≠ .other) :
    markOfChar char = mark ↔ char = symbol := by
  constructor
  · intro same
    unfold markOfChar at means same
    subst means
    split_ifs at same special
    all_goals first
      | exact absurd rfl special
      | exact absurd same (by decide)
      | (subst_vars; rfl)
  · rintro rfl
    exact means

/-- A row of marks that stand for one character each comes from one text only. -/
theorem map_markOfChar_eq_iff
    {found needle : Text}
    (plain : .other ∉ needle.map markOfChar) :
    found.map markOfChar = needle.map markOfChar ↔ found = needle := by
  induction needle generalizing found with
  | nil => rw [List.map_nil, List.map_eq_nil_iff]
  | cons symbol rest hypothesis =>
      rw [List.map_cons, List.mem_cons, not_or] at plain
      cases found with
      | nil => exact iff_of_false nofun nofun
      | cons char others =>
          rw [List.map_cons, List.map_cons, List.cons.injEq, List.cons.injEq,
            hypothesis plain.2, markOfChar_eq_iff rfl (Ne.symm plain.1)]

section Patterns

variable
  {needle : Text}
  (plain : .other ∉ needle.map markOfChar)
  (path : Text)

include plain

theorem infix_map_iff :
    needle.map markOfChar <:+: path.map markOfChar ↔ needle <:+: path := by
  constructor
  · rintro ⟨before, after, spelled⟩
    obtain ⟨first, last, rfl, split, rfl⟩ := List.map_eq_append_iff.mp spelled.symm
    obtain ⟨front, found, rfl, rfl, same⟩ := List.map_eq_append_iff.mp split
    rw [map_markOfChar_eq_iff plain] at same
    exact ⟨front, last, by rw [same]⟩
  · exact fun inside => inside.map markOfChar

theorem suffix_map_iff :
    needle.map markOfChar <:+ path.map markOfChar ↔ needle <:+ path := by
  constructor
  · rintro ⟨before, spelled⟩
    obtain ⟨front, found, rfl, rfl, same⟩ := List.map_eq_append_iff.mp spelled.symm
    rw [map_markOfChar_eq_iff plain] at same
    exact ⟨front, by rw [same]⟩
  · exact fun inside => inside.map markOfChar

theorem prefix_map_iff :
    needle.map markOfChar <+: path.map markOfChar ↔ needle <+: path := by
  constructor
  · rintro ⟨after, spelled⟩
    obtain ⟨found, rest, rfl, same, rfl⟩ := List.map_eq_append_iff.mp spelled.symm
    rw [map_markOfChar_eq_iff plain] at same
    exact ⟨rest, by rw [same]⟩
  · exact fun inside => inside.map markOfChar

end Patterns

theorem exists_separator_iff
    {property : Mark → Prop} :
    (∃ mark : Mark, mark.isSeparator = true ∧ property mark) ↔
      property .slash ∨ property .backslash := by
  constructor
  · rintro ⟨mark, separator, holds⟩
    cases mark with
    | slash => exact .inl holds
    | backslash => exact .inr holds
    | dot => cases separator
    | other => cases separator
  · rintro (holds | holds)
    · exact ⟨.slash, rfl, holds⟩
    · exact ⟨.backslash, rfl, holds⟩

/-- The patterns are those of a segment that stands plainly. -/
theorem checkTraversalPatterns_iff
    (path : Text) :
    checkTraversalPatterns path = true ↔ StandsPlainly (path.map markOfChar) := by
  have whole : up = path.map markOfChar ↔ path = text ".." := by
    rw [eq_comm]
    exact map_markOfChar_eq_iff (by decide : Mark.other ∉ (text "..").map markOfChar)
  have mixed := fun needle plain => @infix_map_iff needle plain path
  have ending := fun needle plain => @suffix_map_iff needle plain path
  have opening := fun needle plain => @prefix_map_iff needle plain path
  rw [standsPlainly_iff, exists_separator_iff, whole]
  change _ ↔ _ ∨
    ((text "/../").map markOfChar <:+: _ ∨ (text "/..").map markOfChar <:+ _ ∨
      (text "../").map markOfChar <+: _) ∨
    ((text "\\..\\").map markOfChar <:+: _ ∨ (text "\\..").map markOfChar <:+ _ ∨
      (text "..\\").map markOfChar <+: _)
  rw [mixed _ (by decide), mixed _ (by decide), ending _ (by decide), ending _ (by decide),
    opening _ (by decide), opening _ (by decide), checkTraversalPatterns]
  simp only [Bool.or_eq_true, Text.includesText_iff, List.isSuffixOf_iff_suffix,
    List.isPrefixOf_iff_prefix, beq_iff_eq]
  tauto

/-! ## One round is all -/

/-- What an escape of the table is decoded to is part of no such escape. -/
theorem percentReplacement_eq_some
    {high low char : Char}
    (replaced : percentReplacement high low = some char) :
    (high = '2' ∧ (low = 'e' ∨ low = 'E') ∧ char = '.') ∨
      (high = '2' ∧ (low = 'f' ∨ low = 'F') ∧ char = '/') ∨
        high = '5' ∧ (low = 'c' ∨ low = 'C') ∧ char = '\\' := by
  unfold percentReplacement at replaced
  split_ifs at replaced with dots slashes backslashes
  · exact .inl ⟨dots.1, dots.2, (Option.some.inj replaced).symm⟩
  · exact .inr (.inl ⟨slashes.1, slashes.2, (Option.some.inj replaced).symm⟩)
  · exact .inr (.inr ⟨backslashes.1, backslashes.2, (Option.some.inj replaced).symm⟩)

/-- The first character of a decoded path is a decoded one or stood there before. -/
theorem percentDecodeRound_eq_cons
    {path rest : Text}
    {char : Char}
    (decoded : percentDecodeRound path = char :: rest) :
    (∃ high low, percentReplacement high low = some char) ∨
      ∃ others, path = char :: others ∧ percentDecodeRound others = rest := by
  fun_cases percentDecodeRound path with
  | case1 high low others replacement replaced =>
      rw [percentDecodeRound, replaced] at decoded
      cases decoded
      exact .inl ⟨high, low, replaced⟩
  | case2 high low others kept =>
      rw [percentDecodeRound, kept] at decoded
      cases decoded
      exact .inr ⟨_, rfl, rfl⟩
  | case3 first others short =>
      rw [percentDecodeRound] at decoded
      · cases decoded
        exact .inr ⟨_, rfl, rfl⟩
      · exact short
  | case4 => cases decoded

theorem percentReplacement_decoded
    {path rest : Text}
    {high low : Char}
    (decoded : percentDecodeRound path = high :: low :: rest)
    {char : Char}
    (replaced : percentReplacement high low = some char) :
    ∃ others, path = high :: low :: others := by
  have digits := percentReplacement_eq_some replaced
  obtain ⟨_, _, first⟩ | ⟨others, rfl, decodedRest⟩ := percentDecodeRound_eq_cons decoded
  · have special := percentReplacement_eq_some first
    rcases digits with ⟨rfl, -⟩ | ⟨rfl, -⟩ | ⟨rfl, -⟩
    all_goals simp at special
  obtain ⟨_, _, second⟩ | ⟨others, rfl, -⟩ := percentDecodeRound_eq_cons decodedRest
  · have special := percentReplacement_eq_some second
    rcases digits with ⟨-, rfl | rfl, -⟩ | ⟨-, rfl | rfl, -⟩ | ⟨-, rfl | rfl, -⟩
    all_goals simp at special
  · exact ⟨others, rfl⟩

theorem percentDecodeRound_cons
    {char : Char}
    {rest : Text}
    (kept : ∀ high low others, char = '%' → rest = high :: low :: others →
      percentReplacement high low = none) :
    percentDecodeRound (char :: rest) = char :: percentDecodeRound rest := by
  rw [percentDecodeRound.eq_def]
  split
  case h_1 high low others spelled =>
      cases spelled
      rw [kept high low others rfl rfl]
  case h_2 first others _ spelled =>
      cases spelled
      rfl
  case h_3 spelled => cases spelled

theorem percentDecodeRound_percentDecodeRound
    (path : Text) :
    percentDecodeRound (percentDecodeRound path) = percentDecodeRound path := by
  fun_induction percentDecodeRound path with
  | case1 high low rest char replaced hypothesis =>
      rw [percentDecodeRound_cons, hypothesis]
      rintro _ _ _ rfl
      have special := percentReplacement_eq_some replaced
      simp at special
  | case2 high low rest kept hypothesis =>
      rw [percentDecodeRound_cons, hypothesis]
      intro first second others _ spelled
      cases replaced : percentReplacement first second with
      | none => rfl
      | some char =>
          obtain ⟨_, same⟩ := percentReplacement_decoded spelled replaced
          cases same
          rw [kept] at replaced
          cases replaced
  | case3 char rest short hypothesis =>
      rw [percentDecodeRound_cons, hypothesis]
      intro first second others sign spelled
      cases replaced : percentReplacement first second with
      | none => rfl
      | some char =>
          obtain ⟨_, same⟩ := percentReplacement_decoded spelled replaced
          exact (short _ _ _ sign same).elim
  | case4 => rfl

/-- The later rounds find nothing. -/
theorem percentDecodePath_eq
    (path : Text) :
    percentDecodePath path = percentDecodeRound path := by
  rw [percentDecodePath, percentDecodeRound_percentDecodeRound,
    percentDecodeRound_percentDecodeRound]

theorem percentDecodeRound_of_notMem
    {path : Text}
    (absent : '%' ∉ path) :
    percentDecodeRound path = path := by
  induction path with
  | nil => rfl
  | cons char rest hypothesis =>
      rw [List.mem_cons, not_or] at absent
      rw [percentDecodeRound_cons fun _ _ _ same => absurd same.symm absent.1,
        hypothesis absent.2]

/-- The early exits change nothing. -/
theorem containsPathTraversal_iff_round
    (path : Text) :
    containsPathTraversal path = true ↔
      HasNul path ∨ StandsPlainly ((percentDecodeRound path).map markOfChar) := by
  have isNul : (path.contains (Char.ofNat 0) || Text.includesText (text "%00") path) = true ↔
      HasNul path := by
    rw [Bool.or_eq_true, List.contains_iff_mem, Text.includesText_iff]
    rfl
  rw [containsPathTraversal]
  split
  case isTrue nul => exact iff_of_true rfl (.inl (isNul.mp (Bool.or_eq_true _ _ ▸ nul)))
  case isFalse noNul =>
      have noNul : ¬ HasNul path := fun has => noNul (Bool.or_eq_true _ _ ▸ isNul.mpr has)
      rw [or_iff_right noNul]
      split
      case isTrue percent => rw [percentDecodePath_eq, checkTraversalPatterns_iff]
      case isFalse noPercent =>
          have absent : '%' ∉ path := fun member => noPercent (List.contains_iff_mem.mpr member)
          rw [percentDecodeRound_of_notMem absent, Bool.and_eq_true, checkTraversalPatterns_iff,
            Text.includesText_iff]
          refine and_iff_right_of_imp fun plainly => ?_
          obtain ⟨before, after, spelled, -⟩ := plainly
          exact (infix_map_iff (by decide) path).mp ⟨before, after, spelled.symm⟩

/-! ## Against full decoding -/

theorem char_eq_iff
    {char symbol : Char} :
    char = symbol ↔ char.toNat = symbol.toNat :=
  ⟨congrArg Char.toNat, fun same => Char.ext (UInt32.toNat_inj.mp same)⟩

theorem markOfOctet_ofNat
    {char : Char}
    (ascii : char.toNat < 0x80) :
    markOfOctet (UInt8.ofNat char.toNat) = markOfChar char := by
  have same : (UInt8.ofNat char.toNat).toNat = char.toNat := Utf8.toNat_ofNat_of_lt (by omega)
  simp only [markOfOctet, markOfChar, ← UInt8.toNat_inj, same, char_eq_iff]
  rfl

theorem markOfOctet_of_le
    {octet : UInt8}
    (above : 0x80 ≤ octet.toNat) :
    markOfOctet octet = .other := by
  unfold markOfOctet
  split_ifs with dot slash backslash
  · exact absurd (dot ▸ above) (by decide)
  · exact absurd (slash ▸ above) (by decide)
  · exact absurd (backslash ▸ above) (by decide)
  · rfl

theorem markOfChar_eq_other
    {char : Char}
    (notDot : char.toNat ≠ 46)
    (notSlash : char.toNat ≠ 47)
    (notBackslash : char.toNat ≠ 92) :
    markOfChar char = .other := by
  rw [markOfChar, if_neg, if_neg, if_neg]
  · exact fun same => notBackslash (congrArg Char.toNat same)
  · exact fun same => notSlash (congrArg Char.toNat same)
  · exact fun same => notDot (congrArg Char.toNat same)

theorem markOfChar_of_hexValue
    {char : Char}
    {value : Nat}
    (digit : PercentEncoding.hexValue char = some value) :
    markOfChar char = .other := by
  have number := PercentEncoding.toNat_of_hexValue digit
  exact markOfChar_eq_other (by omega) (by omega) (by omega)

theorem exists_hexValue_of_hexPair
    {high low : Char}
    {value : UInt8}
    (pair : hexPair high low = some value) :
    ∃ first second, PercentEncoding.hexValue high = some first ∧
      PercentEncoding.hexValue low = some second ∧ value = UInt8.ofNat (16 * first + second) := by
  unfold hexPair at pair
  split at pair
  · rename_i first second highDigit lowDigit
    exact ⟨first, second, highDigit, lowDigit, (Option.some.inj pair).symm⟩
  · cases pair

/-- The octets of a character have one mark, up to runs of other marks. -/
theorem foldr_push_utf8EncodeChar
    (char : Char)
    (row : List Mark) :
    ((String.utf8EncodeChar char).map markOfOctet).foldr push row = push (markOfChar char) row := by
  by_cases ascii : char.toNat < 0x80
  · rw [PercentEncoding.utf8EncodeChar_of_ascii ascii, List.map_singleton, List.foldr_cons,
      List.foldr_nil, markOfOctet_ofNat ascii]
  · have above := PercentEncoding.le_of_mem_utf8EncodeChar (Nat.le_of_not_lt ascii)
    rw [markOfChar_eq_other (by omega) (by omega) (by omega), foldr_push_of_forall_other]
    · obtain ⟨octet, octets, encoded, -⟩ := Utf8.utf8EncodeChar_eq_cons char
      rw [encoded]
      exact List.cons_ne_nil _ _
    · exact List.forall_mem_map.mpr fun octet member => markOfOctet_of_le (above octet member)

theorem collapse_literal
    {char : Char}
    (literal : char ≠ '%')
    (rest : Text) :
    collapse ((decodeOctets (Utf8.encode (char :: rest))).map markOfOctet) =
      push (markOfChar char) (collapse ((decodeOctets (Utf8.encode rest)).map markOfOctet)) := by
  rw [PercentEncoding.decodeOctets_literal literal, List.map_append, collapse, List.foldr_append,
    foldr_push_utf8EncodeChar]
  rfl

/-- An escape of the table is decoded to an octet with the same mark. -/
theorem hexPair_of_percentReplacement
    {high low char : Char}
    (replaced : percentReplacement high low = some char) :
    ∃ value, hexPair high low = some value ∧ markOfOctet value = markOfChar char := by
  rcases percentReplacement_eq_some replaced with
    ⟨rfl, rfl | rfl, rfl⟩ | ⟨rfl, rfl | rfl, rfl⟩ | ⟨rfl, rfl | rfl, rfl⟩
  all_goals exact ⟨_, rfl, by decide⟩

/-- Every other escape is decoded to an octet without a meaning. -/
theorem markOfOctet_of_hexPair
    {high low : Char}
    {value : UInt8}
    (pair : hexPair high low = some value)
    (kept : percentReplacement high low = none) :
    markOfOctet value = .other := by
  obtain ⟨first, second, highDigit, lowDigit, rfl⟩ := exists_hexValue_of_hexPair pair
  have highNumber := PercentEncoding.toNat_of_hexValue highDigit
  have lowNumber := PercentEncoding.toNat_of_hexValue lowDigit
  have number : (UInt8.ofNat (16 * first + second)).toNat = 16 * first + second :=
    Utf8.toNat_ofNat_of_lt (by omega)
  simp only [percentReplacement, char_eq_iff] at kept
  have two : '2'.toNat = 50 := rfl
  have five : '5'.toNat = 53 := rfl
  have lowerC : 'c'.toNat = 99 := rfl
  have upperC : 'C'.toNat = 67 := rfl
  have lowerE : 'e'.toNat = 101 := rfl
  have upperE : 'E'.toNat = 69 := rfl
  have lowerF : 'f'.toNat = 102 := rfl
  have upperF : 'F'.toNat = 70 := rfl
  simp only [two, five, lowerC, upperC, lowerE, upperE, lowerF, upperF] at kept
  split_ifs at kept with dot slash backslash
  simp only [markOfOctet, ← UInt8.toNat_inj, number]
  rw [if_neg, if_neg, if_neg]
  · exact fun same => backslash (by change 16 * first + second = 92 at same; omega)
  · exact fun same => slash (by change 16 * first + second = 47 at same; omega)
  · exact fun same => dot (by change 16 * first + second = 46 at same; omega)

/-- Full decoding gives the same dots and separators as the table does. -/
theorem collapse_percentDecodeRound
    (path : Text) :
    collapse ((percentDecodeRound path).map markOfChar) =
      collapse ((decodeOctets (Utf8.encode path)).map markOfOctet) := by
  fun_induction percentDecodeRound path with
  | case1 high low rest char replaced hypothesis =>
      obtain ⟨value, pair, sameMark⟩ := hexPair_of_percentReplacement replaced
      rw [PercentEncoding.decodeOctets_escape pair, List.map_cons, List.map_cons, sameMark]
      exact congrArg (push (markOfChar char)) hypothesis
  | case2 high low rest kept hypothesis =>
      have decoded : collapse (('%' :: percentDecodeRound (high :: low :: rest)).map markOfChar) =
          push .other (collapse ((decodeOctets (Utf8.encode (high :: low :: rest))).map
            markOfOctet)) :=
        congrArg (push .other) hypothesis
      rw [decoded]
      cases pair : hexPair high low with
      | none =>
          rw [PercentEncoding.decodeOctets_percent]
          · rfl
          · intro _ _ _ same
            cases same
            exact pair
      | some value =>
          obtain ⟨first, second, highDigit, lowDigit, -⟩ := exists_hexValue_of_hexPair pair
          have highLiteral : high ≠ '%' := by
            rintro rfl
            cases highDigit
          have lowLiteral : low ≠ '%' := by
            rintro rfl
            cases lowDigit
          -- the two digits and the sign are one run of other marks
          rw [collapse_literal highLiteral, collapse_literal lowLiteral,
            markOfChar_of_hexValue highDigit, markOfChar_of_hexValue lowDigit,
            push_other_push_other, push_other_push_other,
            PercentEncoding.decodeOctets_escape pair, List.map_cons,
            markOfOctet_of_hexPair pair kept]
          rfl
  | case3 char rest short hypothesis =>
      have decoded : collapse ((char :: percentDecodeRound rest).map markOfChar) =
          push (markOfChar char) (collapse ((decodeOctets (Utf8.encode rest)).map markOfOctet)) :=
        congrArg (push (markOfChar char)) hypothesis
      rw [decoded]
      by_cases sign : char = '%'
      · subst sign
        rw [PercentEncoding.decodeOctets_percent]
        · rfl
        · intro high low tail same
          exact (short high low tail rfl same).elim
      · exact (collapse_literal sign rest).symm
  | case4 => rfl

theorem containsPathTraversal_iff
    (path : Text) :
    containsPathTraversal path = true ↔
      HasNul path ∨ StandsPlainly ((decodedPath 1 path).map markOfOctet) := by
  rw [containsPathTraversal_iff_round, ← standsPlainly_collapse_iff, collapse_percentDecodeRound,
    standsPlainly_collapse_iff]
  rfl

/-! ## Which paths are guarded -/

/-- A NUL comes out in one round. -/
theorem not_harmless_of_hasNul
    {path : Text}
    (has : HasNul path) :
    ¬ Harmless path := by
  intro harmless
  rcases has with nulInside | ⟨before, after, rfl⟩
  · refine (harmless 0).2 ((Utf8.mem_encode_iff (by decide)).mpr ⟨nul, nulInside, ?_⟩)
    decide
  · refine (harmless 1).2 ?_
    rw [List.append_assoc]
    exact @PercentEncoding.mem_decodeOctets '0' '0' 0 rfl before after

/-- The check never refuses a harmless path. It misses a path that leads upwards exactly
if no NUL is in it and one round of decoding brings out no segment of two dots that is
the first, the last, or between two equal separators. -/
theorem guards_iff
    (path : Text) :
    Guards path ↔
      (LeadsUp path → HasNul path ∨ StandsPlainly ((decodedPath 1 path).map markOfOctet)) := by
  constructor
  · intro guards leadsUp
    exact (containsPathTraversal_iff path).mp (guards.refuses (.inr leadsUp))
  · intro caught
    constructor
    · rintro (has | leadsUp)
      · exact (containsPathTraversal_iff path).mpr (.inl has)
      · exact (containsPathTraversal_iff path).mpr (caught leadsUp)
    · intro harmless
      rw [← Bool.not_eq_true]
      intro refused
      rcases (containsPathTraversal_iff path).mp refused with has | plainly
      · exact not_harmless_of_hasNul has harmless
      · exact (harmless 1).1 plainly.hasUpSegment

/-- Escapes that are escaped again, and separators that differ. -/
theorem not_guards :
    ¬ Guards (text "/%252e%252e/a") ∧ ¬ Guards (text "/a/..\\b") := by
  constructor
  · intro guards
    exact absurd (guards.refuses (.inr ⟨2, by decide, by decide⟩)) (by decide)
  · intro guards
    exact absurd (guards.refuses (.inr ⟨0, by decide, by decide⟩)) (by decide)

end Routing
end HttpNative
