import HttpNative.Bridge.ShapeSerializer
import Mathlib.Algebra.Order.BigOperators.Group.List
import Mathlib.Data.List.Zip

/-!
# The octets of a known shape

What the serializer for a known shape writes is JSON for the members that are given, and
it is the text of `JSON.stringify` exactly when these are the members that the object is
serialised with, and no string has a character that `JSON.stringify` alone escapes with a
letter.
-/

namespace HttpNative
namespace Bridge

open JsValue (isNullish)
open JsonValue (Frame Purpose Reader quote quotePoint render renderMembers parse unitEscape)
open Json (joinComma separator shortEscape)

/-! ## Escapes -/

/-- `escapeJsonString` for a character. -/
def escapeChar (char : Char) : Text :=
  if char = '"' then ['\\', '"']
  else if char = '\\' then ['\\', '\\']
  else if char = '\n' then ['\\', 'n']
  else if char = '\r' then ['\\', 'r']
  else if char = '\t' then ['\\', 't']
  else if char.toNat < 0x20 then unitEscape (.ofNat char.toNat)
  else [char]

/-- A backspace and a form feed have a letter in JSON that `escapeJsonString` does not
use. -/
def hasLetter (char : Char) : Bool :=
  char == '\x08' || char == '\x0C'

theorem escapeUnit_of_large
    {unit : UInt16}
    (large : 0x5C < unit.toNat) :
    escapeUnit unit = [unit] := by
  have other : ∀ number : UInt16, number.toNat ≤ 0x5C → unit ≠ number := by
    rintro number small rfl
    omega
  unfold escapeUnit
  rw [if_neg (other 0x22 (by decide)), if_neg (other 0x5C (by decide)),
    if_neg (other 0x0A (by decide)), if_neg (other 0x0D (by decide)),
    if_neg (other 0x09 (by decide)), if_neg (by omega)]

theorem escape_unitsOf
    (char : Char) :
    (JsString.unitsOf char).flatMap escapeUnit = JsString.ofText (escapeChar char) := by
  have kept : JsString.ofText [char] = JsString.unitsOf char := List.flatMap_singleton ..
  by_cases small : char.toNat < 0x10000
  · have size : (UInt16.ofNat char.toNat).toNat = char.toNat := by
      rw [UInt16.toNat_ofNat']
      exact Nat.mod_eq_of_lt small
    have other : ∀ special : Char, special.toNat < 0x10000 → char ≠ special →
        UInt16.ofNat char.toNat ≠ UInt16.ofNat special.toNat := by
      intro special specialSmall different same
      have numbers := congrArg UInt16.toNat same
      rw [size, UInt16.toNat_ofNat', Nat.mod_eq_of_lt specialSmall] at numbers
      exact different (Char.toNat_inj.mp numbers)
    unfold escapeChar
    split
    case isTrue same =>
        rw [same]
        rfl
    case isFalse notQuote =>
    split
    case isTrue same =>
        rw [same]
        rfl
    case isFalse notBackslash =>
    split
    case isTrue same =>
        rw [same]
        rfl
    case isFalse notNewline =>
    split
    case isTrue same =>
        rw [same]
        rfl
    case isFalse notReturn =>
    split
    case isTrue same =>
        rw [same]
        rfl
    case isFalse notTab =>
    have quote : UInt16.ofNat char.toNat ≠ 0x22 := other '"' (by decide) notQuote
    have backslash : UInt16.ofNat char.toNat ≠ 0x5C := other '\\' (by decide) notBackslash
    have newline : UInt16.ofNat char.toNat ≠ 0x0A := other '\n' (by decide) notNewline
    have carriage : UInt16.ofNat char.toNat ≠ 0x0D := other '\r' (by decide) notReturn
    have tab : UInt16.ofNat char.toNat ≠ 0x09 := other '\t' (by decide) notTab
    have unit : JsString.unitsOf char = [.ofNat char.toNat] := if_pos small
    rw [unit, List.flatMap_singleton, escapeUnit, if_neg quote, if_neg backslash, if_neg newline,
      if_neg carriage, if_neg tab, size]
    split
    · rfl
    · rw [kept, unit]
  · have range := JsString.toNat_lt_or_lt char
    have large : ∀ unit ∈ JsString.unitsOf char, escapeUnit unit = [unit] := by
      intro unit isUnit
      unfold JsString.unitsOf at isUnit
      rw [if_neg small, List.mem_cons, List.mem_singleton] at isUnit
      apply escapeUnit_of_large
      rcases isUnit with rfl | rfl
      all_goals
        rw [UInt16.toNat_ofNat', Nat.mod_eq_of_lt (by omega)]
        omega
    have same : escapeChar char = [char] := by
      have special : ∀ other : Char, other.toNat < 0x80 → char ≠ other := by
        rintro other otherSmall rfl
        omega
      unfold escapeChar
      rw [if_neg (special _ (by decide)), if_neg (special _ (by decide)),
        if_neg (special _ (by decide)), if_neg (special _ (by decide)),
        if_neg (special _ (by decide)), if_neg (by omega)]
    rw [same, kept, List.flatMap_congr large]
    exact List.flatMap_singleton' _

/-- The escaper takes a text to a text. -/
theorem escapeJsonString_ofText
    (content : Text) :
    escapeJsonString (.ofText content) = .ofText (content.flatMap escapeChar) := by
  unfold escapeJsonString JsString.ofText
  rw [List.flatMap_assoc, List.flatMap_assoc]
  exact List.flatMap_congr fun char _ => escape_unitsOf char

theorem escapeChar_eq
    {char : Char}
    (noLetter : hasLetter char = false) :
    escapeChar char = quotePoint (.scalar char) := by
  obtain ⟨notBackspace, notFeed⟩ := Bool.or_eq_false_iff.mp noLetter
  rw [beq_eq_false_iff_ne] at notBackspace notFeed
  unfold escapeChar
  split
  case isTrue same =>
      rw [same]
      rfl
  case isFalse notQuote =>
  split
  case isTrue same =>
      rw [same]
      rfl
  case isFalse notBackslash =>
  split
  case isTrue same =>
      rw [same]
      rfl
  case isFalse notNewline =>
  split
  case isTrue same =>
      rw [same]
      rfl
  case isFalse notReturn =>
  split
  case isTrue same =>
      rw [same]
      rfl
  case isFalse notTab =>
  have noShort : shortEscape char = none := by
    rw [shortEscape, if_neg notQuote, if_neg notBackslash, if_neg notNewline, if_neg notReturn,
      if_neg notTab, if_neg notBackspace, if_neg notFeed]
  rw [quotePoint, noShort]

theorem length_escapeChar
    {char : Char}
    (letter : hasLetter char = true) :
    (quotePoint (.scalar char)).length < (escapeChar char).length := by
  rcases Bool.or_eq_true_iff.mp letter with same | same
  · rw [beq_iff_eq.mp same]
    decide
  · rw [beq_iff_eq.mp same]
    decide

/-- The escape of a character is read as the character. -/
theorem read_escapeChar
    (purpose : Purpose)
    (value : JsString)
    (stack : List Frame)
    (char : Char) :
    (Reader.string purpose value .none stack).read (escapeChar char) =
      .string purpose (value ++ JsString.unitsOf char) .none stack := by
  cases letter : hasLetter char with
  | false =>
      rw [escapeChar_eq letter]
      exact Reader.read_quotePoint purpose value stack (.scalar char)
  | true =>
      rcases Bool.or_eq_true_iff.mp letter with same | same
      · rw [beq_iff_eq.mp same]
        exact Reader.read_unitEscape purpose value stack 8
      · rw [beq_iff_eq.mp same]
        exact Reader.read_unitEscape purpose value stack 12

/-! ## Strings -/

/-- What is written for a string between quotes. -/
def escapedQuote (content : Text) : Text :=
  '"' :: (content.flatMap escapeChar ++ ['"'])

/-- A string has a character that `JSON.stringify` escapes with a letter, and
`escapeJsonString` with its number. -/
def HasLetter (string : JsString) : Prop :=
  (0x08 : UInt16) ∈ string ∨ (0x0C : UInt16) ∈ string

theorem hasLetter_ofText_iff
    (content : Text) :
    HasLetter (.ofText content) ↔ ∃ char ∈ content, hasLetter char = true := by
  constructor
  · intro letter
    rcases letter with backspace | feed
    · exact ⟨'\x08', @JsString.mem_of_mem_ofText '\x08' content (by decide) backspace, rfl⟩
    · exact ⟨'\x0C', @JsString.mem_of_mem_ofText '\x0C' content (by decide) feed, rfl⟩
  · rintro ⟨char, inside, letter⟩
    rcases Bool.or_eq_true_iff.mp letter with same | same
    · rw [beq_iff_eq.mp same] at inside
      exact .inl (List.mem_flatMap.mpr ⟨'\x08', inside, List.mem_cons_self⟩)
    · rw [beq_iff_eq.mp same] at inside
      exact .inr (List.mem_flatMap.mpr ⟨'\x0C', inside, List.mem_cons_self⟩)

theorem quote_ofText
    (content : Text) :
    quote (.ofText content) =
      '"' :: (content.flatMap (fun char => quotePoint (.scalar char)) ++ ['"']) := by
  have points := JsString.codePoints_ofText_append content []
  rw [List.append_nil] at points
  rw [quote, points, JsString.codePoints, List.append_nil, List.flatMap_map]

theorem escapedQuote_of_not_hasLetter
    {content : Text}
    (noLetter : ¬ HasLetter (.ofText content)) :
    escapedQuote content = quote (.ofText content) := by
  rw [hasLetter_ofText_iff] at noLetter
  rw [quote_ofText, escapedQuote]
  have same : content.flatMap escapeChar =
      content.flatMap fun char => quotePoint (.scalar char) := by
    refine List.flatMap_congr fun char inside => escapeChar_eq ?_
    exact Bool.eq_false_iff.mpr fun letter => noLetter ⟨char, inside, letter⟩
  rw [same]

theorem length_quotePoint_le
    (char : Char) :
    (quotePoint (.scalar char)).length ≤ (escapeChar char).length := by
  cases letter : hasLetter char with
  | false => rw [escapeChar_eq letter]
  | true => exact (length_escapeChar letter).le

/-- A letter makes the text of `JSON.stringify` shorter. -/
theorem length_quote_lt
    {content : Text}
    (letter : HasLetter (.ofText content)) :
    (quote (.ofText content)).length < (escapedQuote content).length := by
  obtain ⟨char, inside, isLetter⟩ := (hasLetter_ofText_iff content).mp letter
  rw [quote_ofText, escapedQuote, List.length_cons, List.length_cons, List.length_append,
    List.length_append, Nat.add_lt_add_iff_right, Nat.add_lt_add_iff_right, List.length_flatMap,
    List.length_flatMap]
  exact List.sum_lt_sum _ _ (fun other _ => length_quotePoint_le other)
    ⟨char, inside, length_escapeChar isLetter⟩

theorem length_quote_le
    (content : Text) :
    (quote (.ofText content)).length ≤ (escapedQuote content).length := by
  by_cases letter : HasLetter (.ofText content)
  · exact (length_quote_lt letter).le
  · rw [escapedQuote_of_not_hasLetter letter]

theorem read_flatMap_escapeChar
    (purpose : Purpose)
    (value : JsString)
    (stack : List Frame)
    (content : Text) :
    (Reader.string purpose value .none stack).read (content.flatMap escapeChar) =
      .string purpose (value ++ .ofText content) .none stack := by
  induction content generalizing value with
  | nil =>
      rw [JsString.ofText, List.flatMap_nil, List.flatMap_nil, List.append_nil, Reader.read_nil]
  | cons char content hypothesis =>
      rw [List.flatMap_cons, Reader.read_append, read_escapeChar, hypothesis, List.append_assoc]
      rfl

/-- What the escaper writes between quotes is read as the string. -/
theorem read_escaped
    (purpose : Purpose)
    (stack : List Frame)
    (content : Text) :
    (Reader.string purpose [] .none stack).read (content.flatMap escapeChar ++ ['"']) =
      Reader.close (.ofText content) stack purpose := by
  rw [Reader.read_append, read_flatMap_escapeChar, List.nil_append]
  rfl

/-! ## Members -/

/-- What is written for a member, as a JSON value. -/
def memberValue (member : JsValue) : Option JsonValue :=
  if isNullish member then some .null else (member.serialize (some [])).join

/-- A text that is written for a member, and its JSON value. -/
inductive WritesValue (member : JsValue) : Text → JsonValue → Prop
  | string {content : Text} :
      member.string? = some (.ofText content) →
      WritesValue member (escapedQuote content) (.string (.ofText content))
  | nullish :
      isNullish member = true →
      WritesValue member (text "null") .null
  | stringified {value : JsonValue} :
      member.string? = none →
      member.serialize (some []) = some (some value) →
      WritesValue member value.render value

/-- A member with its key. -/
def WritesMember (member : JsString × JsValue) (spelling : Text) (written : JsString × JsonValue) :
    Prop :=
  ∃ key value, member.1 = .ofText key ∧ written.1 = .ofText key ∧
    WritesValue member.2 value written.2 ∧ spelling = escapedQuote key ++ ':' :: value

theorem WritesValue.read
    {member : JsValue} {spelling : Text} {value : JsonValue}
    (writes : WritesValue member spelling value)
    (stack : List Frame) :
    ((Reader.due stack).read spelling).settle = .behind value stack := by
  cases writes with
  | @string content _ =>
      have opened : (Reader.due stack).step '"' = .string .value [] .none stack := rfl
      rw [escapedQuote, Reader.read_cons, opened, read_escaped]
      rfl
  | nullish => rfl
  | stringified => exact Reader.read_render value stack

theorem WritesMember.spells
    {member : JsString × JsValue} {spelling : Text} {written : JsString × JsonValue}
    (writes : WritesMember member spelling written) :
    Reader.SpellsMember spelling written := by
  obtain ⟨key, value, -, keyEq, writesValue, rfl⟩ := writes
  refine ⟨⟨_, rfl⟩, fun before stack => ?_⟩
  have opened : (Reader.keyDue before stack).step '"' = .string (.key before) [] .none stack := rfl
  have colon : (Reader.colonDue written.1 before stack).step ':' =
      .due (.object before written.1 :: stack) := rfl
  rw [escapedQuote, List.cons_append, Reader.read_cons, opened, Reader.read_append, read_escaped,
    Reader.close, ← keyEq, Reader.read_cons, colon, writesValue.read]

theorem mayConvert_of_isNullish
    {value : JsValue}
    (nullish : isNullish value = true) :
    value.mayConvert = false := by
  fun_induction isNullish value with
  | case1 => rfl
  | case2 => rfl
  | case3 toJSON self hypothesis => exact hypothesis nullish
  | case4 => cases nullish

theorem string?_of_isNullish
    {value : JsValue}
    (nullish : isNullish value = true) :
    value.string? = none := by
  fun_induction isNullish value with
  | case1 => rfl
  | case2 => rfl
  | case3 toJSON self hypothesis => exact hypothesis nullish
  | case4 => cases nullish

theorem serialize_of_isNullish
    {value : JsValue}
    (nullish : isNullish value = true)
    (key : Option JsString) :
    value.serialize key = some none ∨ value.serialize key = some (some .null) := by
  fun_induction isNullish value generalizing key with
  | case1 => exact .inl (by rw [JsValue.serialize])
  | case2 => exact .inr (by rw [JsValue.serialize])
  | case3 toJSON self hypothesis =>
      cases key with
      | none =>
          rw [JsValue.serialize]
          exact hypothesis nullish none
      | some key =>
          rw [JsValue.serialize, mayConvert_of_isNullish nullish, if_neg Bool.false_ne_true]
          exact hypothesis nullish none
  | case4 => cases nullish

/-- A string is serialised as itself. -/
theorem serialize_of_string?
    {value : JsValue} {string : JsString}
    (isString : value.string? = some string)
    (key : Option JsString) :
    value.mayConvert = false ∧ value.serialize key = some (some (.string string)) := by
  fun_induction JsValue.string? value generalizing key with
  | case1 content =>
      cases isString
      exact ⟨rfl, by rw [JsValue.serialize]; rfl⟩
  | case2 toJSON self hypothesis =>
      refine ⟨(hypothesis isString none).1, ?_⟩
      cases key with
      | none =>
          rw [JsValue.serialize]
          exact (hypothesis isString none).2
      | some key =>
          rw [JsValue.serialize, (hypothesis isString none).1, if_neg Bool.false_ne_true]
          exact (hypothesis isString none).2
  | case3 => cases isString

/-- A string without lone surrogates. -/
def IsText (string : JsString) : Prop :=
  ∃ content, string = .ofText content

/-- The key and the string have no lone surrogate, and of the member, unless it is
`undefined`, there is something to write. -/
structure Spellable (member : JsString × JsValue) : Prop where
  key : IsText member.1
  string : ∀ string ∈ member.2.string?, IsText string
  value : isNullish member.2 = false → member.2.serialize (some []) ≠ some none

theorem WritesValue.memberValue_eq
    {member : JsValue} {spelling : Text} {value : JsonValue}
    (writes : WritesValue member spelling value) :
    memberValue member = some value := by
  unfold memberValue
  cases writes with
  | nullish isNull => rw [if_pos isNull]
  | @string content isString =>
      split
      case isTrue nullish =>
          rw [string?_of_isNullish nullish] at isString
          cases isString
      case isFalse => rw [(serialize_of_string? isString _).2, Option.join_some]
  | stringified notString serialized =>
      split
      case isTrue nullish =>
          rcases serialize_of_isNullish nullish (some []) with nothing | isNull
          · rw [serialized] at nothing
            cases nothing
          · rw [serialized] at isNull
            exact (Option.some.inj isNull).symm
      case isFalse => rw [serialized, Option.join_some]

theorem writeMember_eq_none_iff
    (member : JsValue) :
    writeMember member = none ↔ member.serialize (some []) = none := by
  unfold writeMember
  split
  case h_1 string isString =>
      rw [(serialize_of_string? isString _).2]
      exact iff_of_false nofun nofun
  case h_2 =>
      split
      case isTrue nullish =>
          rcases serialize_of_isNullish nullish (some []) with nothing | isNull
          · rw [nothing]
            exact iff_of_false nofun nofun
          · rw [isNull]
            exact iff_of_false nofun nofun
      case isFalse => rw [JsValue.stringify, Option.map_eq_none_iff, Option.map_eq_none_iff]

theorem exists_writesValue
    {member : JsString × JsValue} {piece : JsString}
    (spellable : Spellable member)
    (written : writeMember member.2 = some piece) :
    ∃ spelling value, WritesValue member.2 spelling value ∧ piece = .ofText spelling := by
  unfold writeMember at written
  split at written
  case h_1 string isString =>
      obtain ⟨content, rfl⟩ := spellable.string string isString
      cases written
      refine ⟨_, _, .string isString, ?_⟩
      rw [escapeJsonString_ofText, ← JsString.ofText_append, ← JsString.ofText_append,
        List.append_assoc, List.singleton_append, escapedQuote]
  case h_2 notString =>
      split at written
      case isTrue nullish =>
          cases written
          exact ⟨_, _, .nullish nullish, rfl⟩
      case isFalse notNullish =>
          obtain ⟨json, stringified, rfl⟩ := Option.map_eq_some_iff.mp written
          obtain ⟨value, serialized, rfl⟩ := Option.map_eq_some_iff.mp stringified
          cases value with
          | none => exact absurd serialized (spellable.value (Bool.eq_false_iff.mpr notNullish))
          | some value => exact ⟨_, _, .stringified notString serialized, rfl⟩

/-! ## Objects -/

theorem writeShape_eq_none_iff
    {object : PlainObject} {members : List (JsString × JsValue)}
    (own : ∀ member ∈ members, object.get member.1 = member.2)
    (index : Nat) :
    writeShape object index (members.map Prod.fst) = none ↔
      ∃ member ∈ members, member.2.serialize (some []) = none := by
  induction members generalizing index with
  | nil => simp [writeShape]
  | cons member members hypothesis =>
      rw [List.forall_mem_cons] at own
      rw [List.map_cons, writeShape, own.1, List.exists_mem_cons_iff, ← writeMember_eq_none_iff,
        ← hypothesis own.2 (index + 1)]
      cases writeMember member.2 with
      | none => simp
      | some piece =>
          cases writeShape object (index + 1) (members.map Prod.fst) with
          | none => simp
          | some rest => simp

/-- The texts that are written for members, and what they stand for. -/
inductive Writings :
    List (JsString × JsValue) → List Text → List (JsString × JsonValue) → Prop
  | nil : Writings [] [] []
  | cons
      {member : JsString × JsValue} {spelling : Text} {written : JsString × JsonValue}
      {members : List (JsString × JsValue)} {spellings : List Text}
      {object : List (JsString × JsonValue)} :
      WritesMember member spelling written →
      Writings members spellings object →
      Writings (member :: members) (spelling :: spellings) (written :: object)

theorem Writings.spells
    {members : List (JsString × JsValue)} {spellings : List Text}
    {object : List (JsString × JsonValue)}
    (writings : Writings members spellings object) :
    List.Forall₂ Reader.SpellsMember spellings object := by
  induction writings with
  | nil => exact .nil
  | cons first _ hypothesis => exact .cons first.spells hypothesis

/-- The object that is written has the keys of the members, with their values. -/
theorem Writings.forall₂
    {members : List (JsString × JsValue)} {spellings : List Text}
    {object : List (JsString × JsonValue)}
    (writings : Writings members spellings object) :
    List.Forall₂ (fun member written => written.1 = member.1 ∧
      memberValue member.2 = some written.2) members object := by
  induction writings with
  | nil => exact .nil
  | cons first _ hypothesis =>
      obtain ⟨key, value, memberKey, writtenKey, writes, -⟩ := first
      exact .cons ⟨writtenKey.trans memberKey.symm, writes.memberValue_eq⟩ hypothesis

/-- What stands before a member: a comma stands before each one but the first. -/
def opening (index : Nat) (spellings : List Text) : Text :=
  if index = 0 then ['{'] else separator spellings

theorem exists_writings
    {object : PlainObject} {members : List (JsString × JsValue)} {index : Nat} {output : JsString}
    (own : ∀ member ∈ members, object.get member.1 = member.2)
    (spellable : ∀ member ∈ members, Spellable member)
    (proper : index = 0 → members ≠ [])
    (written : writeShape object index (members.map Prod.fst) = some output) :
    ∃ spellings values, Writings members spellings values ∧
      output = .ofText (opening index spellings ++ (joinComma spellings ++ ['}'])) := by
  induction members generalizing index output with
  | nil =>
      have later : index ≠ 0 := fun first => proper first rfl
      cases written
      refine ⟨[], [], .nil, ?_⟩
      rw [opening, if_neg later]
      rfl
  | cons member members hypothesis =>
      rw [List.forall_mem_cons] at own spellable
      rw [List.map_cons, writeShape, own.1] at written
      split at written
      case h_1 piece rest pieceEq restEq =>
          cases written
          obtain ⟨key, keyEq⟩ := spellable.1.key
          obtain ⟨value, json, writes, rfl⟩ := exists_writesValue spellable.1 pieceEq
          obtain ⟨spellings, values, writings, rfl⟩ :=
            hypothesis own.2 spellable.2 (fun first => absurd first (Nat.succ_ne_zero index)) restEq
          refine ⟨(escapedQuote key ++ ':' :: value) :: spellings, (member.1, json) :: values,
            .cons ⟨key, value, keyEq, keyEq, writes, rfl⟩ writings, ?_⟩
          rw [keyPrefix, keyEq, escapeJsonString_ofText, ← JsString.ofText_append,
            ← JsString.ofText_append, ← JsString.ofText_append, ← JsString.ofText_append]
          congr 1
          rw [joinComma, escapedQuote, opening, opening, if_neg (Nat.succ_ne_zero index)]
          split
          · simp
          · simp [separator]
      case h_2 => cases written

/-! ## Lengths -/

/-- Neither the key nor the string has a character that `JSON.stringify` escapes with a
letter. -/
def WithoutLetters (member : JsString × JsValue) : Prop :=
  ¬ HasLetter member.1 ∧ ∀ string ∈ member.2.string?, ¬ HasLetter string

theorem WritesValue.length_le
    {member : JsValue} {spelling : Text} {value : JsonValue}
    (writes : WritesValue member spelling value) :
    value.render.length ≤ spelling.length := by
  cases writes with
  | string =>
      rw [render]
      exact length_quote_le _
  | nullish =>
      rw [render]
  | stringified => exact le_rfl

theorem WritesValue.length_lt
    {member : JsValue} {spelling : Text} {value : JsonValue} {string : JsString}
    (writes : WritesValue member spelling value)
    (isString : string ∈ member.string?)
    (letter : HasLetter string) :
    value.render.length < spelling.length := by
  cases writes with
  | @string content isContent =>
      rw [isContent] at isString
      cases isString
      rw [render]
      exact length_quote_lt letter
  | nullish nullish =>
      rw [string?_of_isNullish nullish] at isString
      cases isString
  | stringified notString =>
      rw [notString] at isString
      cases isString

theorem WritesValue.eq_render
    {member : JsValue} {spelling : Text} {value : JsonValue}
    (writes : WritesValue member spelling value)
    (noLetter : ∀ string ∈ member.string?, ¬ HasLetter string) :
    spelling = value.render := by
  cases writes with
  | @string content isString =>
      rw [render]
      exact escapedQuote_of_not_hasLetter (noLetter _ isString)
  | nullish => rw [render]
  | stringified => rfl

theorem WritesMember.length_le
    {member : JsString × JsValue} {spelling : Text} {written : JsString × JsonValue}
    (writes : WritesMember member spelling written) :
    (quote written.1 ++ ':' :: written.2.render).length ≤ spelling.length := by
  obtain ⟨key, value, -, keyEq, writesValue, rfl⟩ := writes
  have first := length_quote_le key
  have second := writesValue.length_le
  rw [keyEq, List.length_append, List.length_append, List.length_cons, List.length_cons]
  omega

theorem WritesMember.withoutLetters
    {member : JsString × JsValue} {spelling : Text} {written : JsString × JsonValue}
    (writes : WritesMember member spelling written)
    (long : spelling.length ≤ (quote written.1 ++ ':' :: written.2.render).length) :
    WithoutLetters member := by
  obtain ⟨key, value, memberKey, keyEq, writesValue, rfl⟩ := writes
  have first := length_quote_le key
  have second := writesValue.length_le
  rw [keyEq, List.length_append, List.length_append, List.length_cons, List.length_cons] at long
  constructor
  · rw [memberKey]
    intro letter
    have shorter := length_quote_lt letter
    omega
  · intro string isString letter
    have shorter := writesValue.length_lt isString letter
    omega

theorem WritesMember.eq_render
    {member : JsString × JsValue} {spelling : Text} {written : JsString × JsonValue}
    (writes : WritesMember member spelling written)
    (noLetter : WithoutLetters member) :
    spelling = quote written.1 ++ ':' :: written.2.render := by
  obtain ⟨key, value, memberKey, keyEq, writesValue, rfl⟩ := writes
  rw [keyEq, ← escapedQuote_of_not_hasLetter (memberKey ▸ noLetter.1),
    writesValue.eq_render noLetter.2]

theorem length_separator_eq
    {members : List (JsString × JsValue)} {spellings : List Text}
    {object : List (JsString × JsonValue)}
    (writings : Writings members spellings object) :
    (separator spellings).length = (separator (renderMembers object)).length := by
  cases writings with
  | nil => rfl
  | cons => rw [renderMembers, separator, separator]

theorem Writings.length_le
    {members : List (JsString × JsValue)} {spellings : List Text}
    {object : List (JsString × JsonValue)}
    (writings : Writings members spellings object) :
    (joinComma (renderMembers object)).length ≤ (joinComma spellings).length := by
  induction writings with
  | nil => rw [renderMembers]
  | cons first others hypothesis =>
      have firstBound := first.length_le
      have separators := length_separator_eq others
      simp only [renderMembers, joinComma, List.length_append] at firstBound ⊢
      omega

/-- When all that is written is no longer than the text of the object, no letter makes any
of it shorter. -/
theorem Writings.withoutLetters
    {members : List (JsString × JsValue)} {spellings : List Text}
    {object : List (JsString × JsonValue)}
    (writings : Writings members spellings object)
    (long : (joinComma spellings).length ≤ (joinComma (renderMembers object)).length) :
    ∀ member ∈ members, WithoutLetters member := by
  induction writings with
  | nil => exact fun _ inside => absurd inside List.not_mem_nil
  | cons first others hypothesis =>
      have firstBound := first.length_le
      have otherBound := others.length_le
      have separators := length_separator_eq others
      rw [renderMembers, joinComma, joinComma] at long
      have parts := first.withoutLetters
      simp only [List.length_append] at firstBound long parts
      refine List.forall_mem_cons.mpr ⟨parts ?_, hypothesis ?_⟩
      · omega
      · omega

theorem Writings.eq_renderMembers
    {members : List (JsString × JsValue)} {spellings : List Text}
    {object : List (JsString × JsonValue)}
    (writings : Writings members spellings object)
    (noLetter : ∀ member ∈ members, WithoutLetters member) :
    spellings = renderMembers object := by
  induction writings with
  | nil => rw [renderMembers]
  | cons first others hypothesis =>
      rw [List.forall_mem_cons] at noLetter
      rw [renderMembers, first.eq_render noLetter.1, hypothesis noLetter.2]

/-! ## Both serializers -/

namespace PlainObject

theorem get_eq
    (object : PlainObject)
    {member : JsString × JsValue}
    (isMember : member ∈ object.members) :
    object.get member.1 = member.2 := by
  obtain ⟨before, after, membersEq⟩ := List.append_of_mem isMember
  have distinct := object.distinct
  rw [membersEq, List.map_append, List.map_cons, List.nodup_append] at distinct
  have found : object.members.lookup member.1 = some member.2 := by
    refine List.lookup_eq_some_iff.mpr ⟨before, after, membersEq, fun other isBefore => ?_⟩
    have different := distinct.2.2 other.1 (List.mem_map_of_mem isBefore) member.1
      List.mem_cons_self
    exact bne_iff_ne.mpr different.symm
  rw [get, found, Option.getD_some]

/-- What `JSON.stringify` writes of the object, as a JSON value. -/
def serialized (object : PlainObject) : Option (Option JsonValue) :=
  object.toValue.serialize (some [])

/-- Some member makes `JSON.stringify` throw, when it is serialised by itself. -/
def MemberThrows (object : PlainObject) : Prop :=
  ∃ member ∈ object.members, member.2.serialize (some []) = none

/-- Both serializers write the same: no string has a character with a letter of its own
among the escapes, and the members are written by themselves as `JSON.stringify` writes
them as members, or there is an exception either way. -/
def WrittenAlike (object : PlainObject) : Prop :=
  match object.toJSON with
  | none =>
      (∀ member ∈ object.members, WithoutLetters member ∧
          ∃ value, memberValue member.2 = some value ∧
            member.2.serialize (some member.1) = some (some value)) ∨
        object.MemberThrows ∧ ∃ member ∈ object.members, member.2.serialize (some member.1) = none
  | some toJSON =>
      ((∀ member ∈ object.members, WithoutLetters member) ∧
          ∃ written, List.Forall₂ (fun member written => written.1 = member.1 ∧
              memberValue member.2 = some written.2) object.members written ∧
            JsValue.serializeResult (toJSON []) = some (some (.object written))) ∨
        object.MemberThrows ∧ ∀ value, JsValue.serializeResult (toJSON []) ≠ some (some value)

theorem serialized_of_method
    {object : PlainObject} {toJSON : JsString → Option JsValue}
    (method : object.toJSON = some toJSON) :
    object.serialized = JsValue.serializeResult (toJSON []) := by
  unfold serialized toValue
  simp only [method]
  rw [JsValue.serialize]
  exact if_pos rfl

theorem serialized_of_no_method
    {object : PlainObject}
    (noMethod : object.toJSON = none) :
    object.serialized =
      (JsValue.serializeMembers object.members).map fun values => some (.object values) := by
  unfold serialized toValue
  simp only [noMethod]
  rw [JsValue.serialize]

end PlainObject

/-- Members are left out when there is nothing to write. -/
theorem length_of_serializeMembers
    {members : List (JsString × JsValue)} {values : List (JsString × JsonValue)}
    (serialized : JsValue.serializeMembers members = some values) :
    values.length ≤ members.length ∧
      (values.length = members.length →
        List.Forall₂ (fun member value => value.1 = member.1 ∧
          member.2.serialize (some member.1) = some (some value.2)) members values) := by
  induction members generalizing values with
  | nil =>
      rw [JsValue.serializeMembers] at serialized
      cases serialized
      exact ⟨le_rfl, fun _ => .nil⟩
  | cons member members hypothesis =>
      rw [JsValue.serializeMembers] at serialized
      split at serialized
      case h_1 value rest memberEq restEq =>
          cases serialized
          obtain ⟨bounded, all⟩ := hypothesis restEq
          refine ⟨Nat.succ_le_succ bounded, fun same => .cons ⟨rfl, memberEq⟩ (all ?_)⟩
          exact Nat.succ.inj same
      case h_2 rest memberEq restEq =>
          cases serialized
          obtain ⟨bounded, -⟩ := hypothesis restEq
          refine ⟨Nat.le_succ_of_le bounded, fun same => ?_⟩
          rw [same, List.length_cons] at bounded
          omega
      case h_3 => cases serialized

theorem serializeMembers_of_forall₂
    {members : List (JsString × JsValue)} {values : List (JsString × JsonValue)}
    (all : List.Forall₂ (fun member value => value.1 = member.1 ∧
      member.2.serialize (some member.1) = some (some value.2)) members values) :
    JsValue.serializeMembers members = some values := by
  induction all with
  | nil => rw [JsValue.serializeMembers]
  | @cons member value members values first _ hypothesis =>
      obtain ⟨keyEq, serialized⟩ := first
      rw [JsValue.serializeMembers, serialized, hypothesis, ← keyEq]

theorem serializeMembers_eq_none_iff
    (members : List (JsString × JsValue)) :
    JsValue.serializeMembers members = none ↔
      ∃ member ∈ members, member.2.serialize (some member.1) = none := by
  induction members with
  | nil =>
      rw [JsValue.serializeMembers]
      simp
  | cons member members hypothesis =>
      rw [JsValue.serializeMembers, List.exists_mem_cons_iff, ← hypothesis]
      cases member.2.serialize (some member.1) with
      | none => simp
      | some value =>
          cases JsValue.serializeMembers members with
          | none => cases value <;> simp
          | some rest => cases value <;> simp

theorem exists_forall₂
    {Left Right : Type} {related : Left → Right → Prop} {lefts : List Left}
    (each : ∀ left ∈ lefts, ∃ right, related left right) :
    ∃ rights, List.Forall₂ related lefts rights := by
  induction lefts with
  | nil => exact ⟨[], .nil⟩
  | cons left lefts hypothesis =>
      rw [List.forall_mem_cons] at each
      obtain ⟨right, first⟩ := each.1
      obtain ⟨rights, others⟩ := hypothesis each.2
      exact ⟨right :: rights, .cons first others⟩

theorem exists_of_forall₂
    {Left Right : Type} {first second : Left → Right → Prop}
    {lefts : List Left} {rights : List Right}
    (all : List.Forall₂ first lefts rights)
    (also : List.Forall₂ second lefts rights) :
    ∀ left ∈ lefts, ∃ right, first left right ∧ second left right := by
  induction all with
  | nil => exact fun _ inside => absurd inside List.not_mem_nil
  | cons one _ hypothesis =>
      cases also with
      | cons other others => exact List.forall_mem_cons.mpr ⟨⟨_, one, other⟩, hypothesis others⟩

namespace PlainObject

/-- The members that are written, with their keys. -/
def Writes (member : JsString × JsValue) (written : JsString × JsonValue) : Prop :=
  written.1 = member.1 ∧ memberValue member.2 = some written.2

theorem writtenAlike_iff
    (object : PlainObject) :
    object.WrittenAlike ↔
      ((∀ member ∈ object.members, WithoutLetters member) ∧
          ∃ written, List.Forall₂ Writes object.members written ∧
            object.serialized = some (some (.object written))) ∨
        object.MemberThrows ∧ ∀ value, object.serialized ≠ some (some value) := by
  cases methodEq : object.toJSON with
  | some toJSON =>
      rw [serialized_of_method methodEq, WrittenAlike]
      simp only [methodEq]
      rfl
  | none =>
      rw [serialized_of_no_method methodEq, WrittenAlike]
      simp only [methodEq]
      refine or_congr ?_ (and_congr_right fun _ => ?_)
      · constructor
        · intro all
          refine ⟨fun member isMember => (all member isMember).1, ?_⟩
          have each : ∀ member ∈ object.members, ∃ written : JsString × JsonValue,
              written.1 = member.1 ∧ memberValue member.2 = some written.2 ∧
                member.2.serialize (some member.1) = some (some written.2) := by
            intro member isMember
            obtain ⟨-, value, valueEq, serialized⟩ := all member isMember
            exact ⟨(member.1, value), rfl, valueEq, serialized⟩
          obtain ⟨written, writes⟩ := exists_forall₂ each
          refine ⟨written, writes.imp fun _ _ one => ⟨one.1, one.2.1⟩, ?_⟩
          rw [serializeMembers_of_forall₂ (writes.imp fun _ _ one => ⟨one.1, one.2.2⟩),
            Option.map_some]
        · rintro ⟨noLetter, written, writes, serialized⟩ member isMember
          obtain ⟨values, valuesEq, same⟩ := Option.map_eq_some_iff.mp serialized
          cases same
          have all := (length_of_serializeMembers valuesEq).2 writes.length_eq.symm
          obtain ⟨one, wrote, serializes⟩ := exists_of_forall₂ writes all member isMember
          exact ⟨noLetter member isMember, one.2, wrote.2, serializes.2⟩
      · rw [← serializeMembers_eq_none_iff]
        cases JsValue.serializeMembers object.members with
        | none => simp
        | some values => simp

end PlainObject

/-! ## Octets -/

theorem bufferFrom_ofText
    (content : Text) :
    bufferFrom (.ofText content) = Utf8.encode content := by
  have points := JsString.codePoints_ofText_append content []
  rw [List.append_nil] at points
  rw [bufferFrom, JsString.toWellFormed, points, JsString.codePoints, List.append_nil,
    List.map_map]
  exact congrArg Utf8.encode (List.map_id content)

theorem createJsonSerializer_fallback
    (object : PlainObject) :
    createJsonSerializer .fallback [] (.plain object) =
      object.serialized.join.map fun value => Utf8.encode value.render := by
  have stringified : (Argument.plain object).toValue.stringify =
      object.serialized.map fun json => json.map render := rfl
  rw [createJsonSerializer, if_neg (by simp), serializeFallback, stringified]
  cases object.serialized with
  | none => rfl
  | some value =>
      cases value with
      | none => rfl
      | some value => exact congrArg some (bufferFrom_ofText _)

theorem createJsonSerializer_shape
    (object : PlainObject)
    (nonempty : object.keys ≠ []) :
    createJsonSerializer .shape object.keys (.plain object) =
      (writeShape object 0 object.keys).map bufferFrom := by
  rw [createJsonSerializer, if_pos ⟨rfl, nonempty⟩, serializeShape]

/-- What is written is JSON for the members that are written. -/
theorem Writings.parse_eq
    {members : List (JsString × JsValue)} {spellings : List Text}
    {written : List (JsString × JsonValue)}
    (writings : Writings members spellings written)
    (nonempty : members ≠ []) :
    parse ('{' :: (joinComma spellings ++ ['}'])) = some (.object written) := by
  have some : written ≠ [] := by
    cases writings with
    | nil => exact absurd rfl nonempty
    | cons => exact List.cons_ne_nil _ _
  rw [parse, Reader.read_spelledObject writings.spells some []]
  rfl

/-- It is the text of a JSON value exactly when that is the object of these members, and no
string has a letter among the escapes. -/
theorem Writings.eq_render_iff
    {members : List (JsString × JsValue)} {spellings : List Text}
    {written : List (JsString × JsonValue)}
    (writings : Writings members spellings written)
    (nonempty : members ≠ [])
    (value : JsonValue) :
    '{' :: (joinComma spellings ++ ['}']) = value.render ↔
      (∀ member ∈ members, WithoutLetters member) ∧ value = .object written := by
  constructor
  · intro same
    have parsed := writings.parse_eq nonempty
    rw [same, JsonValue.parse_render] at parsed
    cases parsed
    refine ⟨writings.withoutLetters ?_, rfl⟩
    rw [render] at same
    exact (congrArg List.length (List.append_cancel_right (List.cons.inj same).2)).le
  · rintro ⟨noLetter, rfl⟩
    rw [writings.eq_renderMembers noLetter, render]

theorem exists_of_shape
    {object : PlainObject} {octets : List UInt8}
    (nonempty : object.keys ≠ [])
    (spellable : ∀ member ∈ object.members, Spellable member)
    (written : createJsonSerializer .shape object.keys (.plain object) = some octets) :
    ∃ spellings values, Writings object.members spellings values ∧
      octets = Utf8.encode ('{' :: (joinComma spellings ++ ['}'])) := by
  rw [createJsonSerializer_shape object nonempty] at written
  obtain ⟨output, outputEq, rfl⟩ := Option.map_eq_some_iff.mp written
  obtain ⟨spellings, values, writings, rfl⟩ := exists_writings (fun _ => object.get_eq) spellable
    (fun _ noMember => nonempty (congrArg (List.map Prod.fst) noMember)) outputEq
  exact ⟨spellings, values, writings, bufferFrom_ofText _⟩

theorem shape_eq_none_iff
    {object : PlainObject}
    (nonempty : object.keys ≠ []) :
    createJsonSerializer .shape object.keys (.plain object) = none ↔ object.MemberThrows := by
  rw [createJsonSerializer_shape object nonempty, Option.map_eq_none_iff]
  exact writeShape_eq_none_iff (fun _ => object.get_eq) 0

theorem writes_unique :
    Relator.RightUnique PlainObject.Writes := by
  rintro member ⟨firstKey, first⟩ ⟨secondKey, second⟩ ⟨rfl, firstEq⟩ ⟨rfl, secondEq⟩
  rw [firstEq] at secondEq
  cases secondEq
  rfl

theorem not_memberThrows_of_writes
    {object : PlainObject} {written : List (JsString × JsonValue)}
    (writes : List.Forall₂ PlainObject.Writes object.members written) :
    ¬ object.MemberThrows := by
  rintro ⟨member, isMember, throws⟩
  obtain ⟨one, wrote, -⟩ := exists_of_forall₂ writes writes member isMember
  have valueEq := wrote.2
  unfold memberValue at valueEq
  split at valueEq
  case isTrue nullish =>
      rcases serialize_of_isNullish nullish (some []) with nothing | isNull
      · rw [throws] at nothing
        cases nothing
      · rw [throws] at isNull
        cases isNull
  case isFalse =>
      rw [throws] at valueEq
      cases valueEq

theorem shape_eq_fallback_iff
    {object : PlainObject}
    (nonempty : object.keys ≠ [])
    (spellable : ∀ member ∈ object.members, Spellable member) :
    createJsonSerializer .shape object.keys (.plain object) =
        createJsonSerializer .fallback [] (.plain object) ↔
      object.WrittenAlike := by
  have proper : object.members ≠ [] := fun noMember =>
    nonempty (congrArg (List.map Prod.fst) noMember)
  rw [object.writtenAlike_iff, createJsonSerializer_fallback]
  cases shapeEq : createJsonSerializer .shape object.keys (.plain object) with
  | none =>
      have throws := (shape_eq_none_iff nonempty).mp shapeEq
      have noObject : ∀ written, ¬ List.Forall₂ PlainObject.Writes object.members written :=
        fun _ writes => not_memberThrows_of_writes writes throws
      rw [eq_comm, Option.map_eq_none_iff, Option.eq_none_iff_forall_ne_some]
      constructor
      · intro nothing
        exact .inr ⟨throws, fun value valueEq => nothing value (Option.join_eq_some_iff.mpr valueEq)⟩
      · rintro (⟨-, written, writes, -⟩ | ⟨-, nothing⟩) value joined
        · exact noObject written writes
        · exact nothing value (Option.join_eq_some_iff.mp joined)
  | some octets =>
      have noThrow : ¬ object.MemberThrows := by
        rw [← shape_eq_none_iff nonempty, shapeEq]
        exact nofun
      obtain ⟨spellings, values, writings, rfl⟩ := exists_of_shape nonempty spellable shapeEq
      constructor
      · intro same
        obtain ⟨value, valueEq, encoded⟩ := Option.map_eq_some_iff.mp same.symm
        obtain ⟨noLetter, rfl⟩ :=
          (writings.eq_render_iff proper value).mp (Utf8.encode_inj.mp encoded.symm)
        exact .inl ⟨noLetter, values, writings.forall₂, Option.join_eq_some_iff.mp valueEq⟩
      · intro alike
        obtain ⟨noLetter, written, writes, serialized⟩ :=
          alike.resolve_right fun throws => noThrow throws.1
        have same := writes_unique.forall₂ writings.forall₂ writes
        rw [serialized, Option.join_some, Option.map_some,
          (writings.eq_render_iff proper (.object written)).mpr ⟨noLetter, congrArg _ same.symm⟩]

/-- The serializer for a known shape writes JSON for the members that it is given, and
the octets of `JSON.stringify` exactly when these write the members alike. -/
theorem shape_serializes
    {keys : List JsString} {object : PlainObject}
    (nonempty : keys ≠ [])
    (own : object.keys = keys)
    (spellable : ∀ member ∈ object.members, Spellable member) :
    (∀ octets, createJsonSerializer .shape keys (.plain object) = some octets →
        ∃ written, List.Forall₂ PlainObject.Writes object.members written ∧
          (Utf8.decode octets).bind parse = some (.object written)) ∧
      (createJsonSerializer .shape keys (.plain object) =
          createJsonSerializer .fallback [] (.plain object) ↔
        object.WrittenAlike) := by
  subst own
  have proper : object.members ≠ [] := fun noMember =>
    nonempty (congrArg (List.map Prod.fst) noMember)
  refine ⟨fun octets written => ?_, shape_eq_fallback_iff nonempty spellable⟩
  obtain ⟨spellings, values, writings, rfl⟩ := exists_of_shape nonempty spellable written
  refine ⟨values, writings.forall₂, ?_⟩
  rw [Utf8.decode_encode, Option.bind_some, writings.parse_eq proper]

/-- `{ name: value }` -/
def namedMembers (value : JsValue) : List (JsString × JsValue) :=
  [(.ofText (text "name"), value)]

theorem distinct_namedMembers
    (value : JsValue) :
    ((namedMembers value).map Prod.fst).Nodup :=
  List.nodup_singleton _

theorem method_namedMembers
    (value : JsValue) :
    ∀ member ∈ namedMembers value, member.1 = .ofText (text "toJSON") →
      (none : Option (JsString → Option JsValue)).isSome = isFunction member.2 := by
  intro member isMember isMethod
  rw [List.mem_singleton.mp isMember] at isMethod
  exact absurd isMethod (show JsString.ofText (text "name") ≠ .ofText (text "toJSON") by decide)

def named (value : JsValue) : PlainObject where
  members := namedMembers value
  distinct := distinct_namedMembers value
  toJSON := none
  method := method_namedMembers value

theorem shape_serializes_named :
    createJsonSerializer .shape [.ofText (text "name")]
        (.plain (named (.primitive (.string (.ofText (text "a")))))) =
      createJsonSerializer .fallback []
        (.plain (named (.primitive (.string (.ofText (text "a")))))) := by
  have spellable : ∀ member ∈ namedMembers (.primitive (.string (.ofText (text "a")))),
      Spellable member := by
    intro member isMember
    rw [List.mem_singleton.mp isMember]
    refine ⟨⟨_, rfl⟩, ?_, ?_⟩
    · rintro string ⟨⟩
      exact ⟨_, rfl⟩
    · rw [JsValue.serialize]
      exact fun _ => nofun
  refine (shape_serializes (List.cons_ne_nil _ _) rfl spellable).2.mpr (.inl ?_)
  intro member isMember
  rw [List.mem_singleton.mp isMember]
  refine ⟨⟨?_, ?_⟩, .string (.ofText (text "a")), ?_, ?_⟩
  · exact fun letter => absurd letter (by unfold HasLetter; decide)
  · rintro string ⟨⟩
    exact fun letter => absurd letter (by unfold HasLetter; decide)
  · rw [memberValue, JsValue.serialize]
    rfl
  · rw [JsValue.serialize]
    rfl

/-- A member that is `undefined` is written as null. -/
theorem not_shape_serializes :
    ¬ ∀ (keys : List JsString) (object : PlainObject), keys ≠ [] → object.keys = keys →
      createJsonSerializer .shape keys (.plain object) =
        createJsonSerializer .fallback [] (.plain object) := by
  intro everywhere
  have same := everywhere [.ofText (text "name")] (named .undefined) (List.cons_ne_nil _ _) rfl
  exact absurd same (by decide)

end Bridge
end HttpNative
