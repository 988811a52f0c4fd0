import Mathlib.Data.List.DropRight
import Mathlib.Tactic.Tauto

/-!
# Text

Text as a list of Unicode scalar values, with the cuts and splits that query
strings and header names are read with.
-/

namespace HttpNative

/-- A well-formed string. -/
abbrev Text := List Char

/-- The text of a string literal. -/
abbrev text (string : String) : Text := string.toList

instance : LawfulBEq Text :=
  inferInstanceAs (LawfulBEq (List Char))

/-- Decided member by member, whatever else is known about the type of the
members. -/
instance (priority := high) decidableForallMem
    {Member : Type}
    (members : List Member)
    (property : Member → Prop)
    [DecidablePred property] :
    Decidable (∀ member ∈ members, property member) :=
  List.decidableBAll property members

instance (priority := high) decidableForallSome
    {Member : Type}
    (option : Option Member)
    (property : Member → Prop)
    [DecidablePred property] :
    Decidable (∀ member, option = some member → property member) :=
  match option with
  | none => isTrue fun _ absent => by cases absent
  | some member => decidable_of_iff (property member) (by simp)

namespace Text

/-- What stands before the first separator, and what follows it when there is
one. -/
def cut (separator : Char) : Text → Text × Option Text
  | [] => ([], none)
  | char :: rest =>
      if char = separator then
        ([], some rest)
      else
        (char :: (cut separator rest).1, (cut separator rest).2)

theorem separator_notMem_cut_fst
    (separator : Char)
    (input : Text) :
    separator ∉ (cut separator input).1 := by
  induction input with
  | nil => simp [cut]
  | cons char rest hypothesis =>
      unfold cut
      split
      · simp
      · rename_i different
        simp only [List.mem_cons, not_or]
        exact ⟨fun same => different same.symm, hypothesis⟩

theorem cut_append_cons
    {separator : Char} {before : Text}
    (absent : separator ∉ before)
    (after : Text) :
    cut separator (before ++ separator :: after) = (before, some after) := by
  induction before with
  | nil => simp [cut]
  | cons char rest hypothesis =>
      obtain ⟨different, absent⟩ := List.ne_and_not_mem_of_not_mem_cons absent
      rw [List.cons_append, cut, if_neg (Ne.symm different), hypothesis absent]

/-- A text is put together of what it is cut into. -/
theorem eq_append_of_cut
    {separator : Char} {input before after : Text}
    (cuts : cut separator input = (before, some after)) :
    input = before ++ separator :: after := by
  induction input generalizing before with
  | nil => cases cuts
  | cons char rest hypothesis =>
      rw [cut] at cuts
      split at cuts
      · rename_i same
        cases cuts
        rw [same, List.nil_append]
      · obtain ⟨rfl, found⟩ := Prod.mk.inj cuts
        rw [List.cons_append, ← hypothesis (Prod.ext rfl found)]

theorem notMem_of_cut
    {separator : Char} {input before : Text}
    (cuts : cut separator input = (before, none)) :
    separator ∉ input := by
  induction input generalizing before with
  | nil => exact List.not_mem_nil
  | cons char rest hypothesis =>
      rw [cut] at cuts
      split at cuts
      · cases cuts
      · rename_i different
        obtain ⟨rfl, found⟩ := Prod.mk.inj cuts
        rw [List.mem_cons, not_or]
        exact ⟨Ne.symm different, hypothesis (Prod.ext rfl found)⟩

theorem separator_notMem_of_mem_splitOn
    {separator : Char} {input piece : Text}
    (member : piece ∈ input.splitOn separator) :
    separator ∉ piece := by
  induction input generalizing piece with
  | nil =>
      rw [List.splitOn_nil, List.mem_singleton] at member
      simp [member]
  | cons char rest hypothesis =>
      rw [List.splitOn_cons_eq_if_modifyHead] at member
      split at member
      · rcases List.mem_cons.mp member with rfl | inRest
        · simp
        · exact hypothesis inRest
      · rename_i different
        cases pieces : rest.splitOn separator with
        | nil => exact absurd pieces (List.splitOn_ne_nil separator rest)
        | cons first others =>
            rw [pieces, List.modifyHead_cons, List.mem_cons] at member
            rcases member with rfl | inOthers
            · have absent : separator ∉ first := hypothesis (by simp [pieces])
              simp only [List.mem_cons, not_or]
              exact ⟨fun same => different (by simp [same]), absent⟩
            · exact hypothesis (by simp [pieces, inOthers])

/-- A piece is not longer than what it is cut out of. -/
theorem length_le_of_mem_splitOn
    {separator : Char} {input piece : Text}
    (member : piece ∈ input.splitOn separator) :
    piece.length ≤ input.length := by
  induction input generalizing piece with
  | nil =>
      rw [List.splitOn_nil, List.mem_singleton] at member
      rw [member]
  | cons first rest hypothesis =>
      rw [List.splitOn_cons_eq_if_modifyHead] at member
      split at member
      · rcases List.mem_cons.mp member with rfl | later
        · exact Nat.zero_le _
        · exact Nat.le_succ_of_le (hypothesis later)
      · cases pieces : rest.splitOn separator with
        | nil => exact absurd pieces (List.splitOn_ne_nil separator rest)
        | cons head tail =>
            rw [pieces] at member hypothesis
            rcases List.mem_cons.mp member with rfl | later
            · exact Nat.succ_le_succ (hypothesis List.mem_cons_self)
            · exact Nat.le_succ_of_le (hypothesis (List.mem_cons_of_mem _ later))

/-- The part after the separator cannot bring in what the text does not have. -/
theorem mem_of_mem_cut_snd
    {separator char : Char} {input after : Text}
    (found : (cut separator input).2 = some after)
    (member : char ∈ after) :
    char ∈ input := by
  induction input with
  | nil => simp [cut] at found
  | cons head rest hypothesis =>
      unfold cut at found
      split at found
      · cases found
        exact List.mem_cons_of_mem _ member
      · exact List.mem_cons_of_mem _ (hypothesis found)

theorem mem_of_mem_cut_fst
    {separator char : Char} {input : Text}
    (member : char ∈ (cut separator input).1) :
    char ∈ input := by
  induction input with
  | nil => simp [cut] at member
  | cons head rest hypothesis =>
      unfold cut at member
      split at member
      · simp at member
      · rcases List.mem_cons.mp member with rfl | inRest
        · exact List.mem_cons_self
        · exact List.mem_cons_of_mem _ (hypothesis inRest)

/-- The white space and line ends of JavaScript's `trim` and `\\s`. -/
def isSpace (char : Char) : Bool :=
  [0x09, 0x0A, 0x0B, 0x0C, 0x0D, 0x20, 0xA0, 0x1680, 0x2028, 0x2029, 0x202F, 0x205F, 0x3000,
    0xFEFF].contains char.toNat || (0x2000 ≤ char.toNat && char.toNat ≤ 0x200A)

/-- The text without blank characters at its ends. -/
def trimWith (isBlank : Char → Bool) (input : Text) : Text :=
  (input.dropWhile isBlank).rdropWhile isBlank

def trim (input : Text) : Text :=
  trimWith isSpace input

/-- Trimming takes blank characters away, and nothing else. -/
theorem exists_trimWith
    (isBlank : Char → Bool)
    (input : Text) :
    ∃ before after, input = before ++ trimWith isBlank input ++ after ∧
      (∀ char ∈ before, isBlank char = true) ∧ (∀ char ∈ after, isBlank char = true) := by
  refine ⟨input.takeWhile isBlank, (input.dropWhile isBlank).rtakeWhile isBlank, ?_, ?_, ?_⟩
  · rw [trimWith, List.append_assoc, List.rdropWhile_append_rtakeWhile,
      List.takeWhile_append_dropWhile]
  · intro char member
    exact List.mem_takeWhile_imp member
  · intro char member
    exact List.mem_rtakeWhile_imp member

/-- Blank ends come off a core that neither begins nor ends blank. -/
theorem trimWith_append
    {isBlank : Char → Bool} {before core after : Text}
    (blankBefore : ∀ char ∈ before, isBlank char = true)
    (blankAfter : ∀ char ∈ after, isBlank char = true)
    (solid : ∀ char ∈ core, isBlank char = false) :
    trimWith isBlank (before ++ core ++ after) = core := by
  cases core with
  | nil =>
      have blank : ∀ char ∈ before ++ [] ++ after, isBlank char = true := by
        intro char member
        rw [List.append_nil] at member
        exact (List.mem_append.mp member).elim (blankBefore char) (blankAfter char)
      rw [trimWith, List.dropWhile_eq_nil_iff.mpr blank, List.rdropWhile_nil]
  | cons first rest =>
      have front : (before ++ first :: rest ++ after).dropWhile isBlank =
          first :: rest ++ after := by
        rw [List.append_assoc, List.dropWhile_append_of_pos blankBefore, List.cons_append,
          List.dropWhile_cons_of_neg]
        simp [solid first List.mem_cons_self]
      have kept : (first :: rest).rdropWhile isBlank = first :: rest := by
        rw [List.rdropWhile_eq_self_iff]
        intro notEmpty
        simp [solid _ (List.getLast_mem notEmpty)]
      rw [trimWith, front, List.rdropWhile, List.reverse_append,
        List.dropWhile_append_of_pos (by simpa using blankAfter)]
      exact kept

/-- Blanks come off the end as far as the last character that is not blank. -/
theorem rdropWhile_append_cons
    {isBlank : Char → Bool} {solid : Char}
    (isSolid : isBlank solid = false)
    (before after : Text) :
    (before ++ solid :: after).rdropWhile isBlank = before ++ solid :: after.rdropWhile isBlank := by
  induction after using List.reverseRecOn with
  | nil => rw [List.rdropWhile_concat_neg _ _ _ (by simp [isSolid]), List.rdropWhile_nil]
  | append_singleton after last hypothesis =>
      rw [← List.cons_append, ← List.append_assoc, List.rdropWhile_concat, List.rdropWhile_concat]
      split
      · exact hypothesis
      · simp

/-- Whether a text stands somewhere in another. -/
def includesText (needle : Text) : Text → Bool
  | [] => needle.isEmpty
  | char :: rest => needle.isPrefixOf (char :: rest) || includesText needle rest

theorem includesText_iff
    (needle input : Text) :
    includesText needle input = true ↔ needle <:+: input := by
  induction input with
  | nil => rw [includesText, List.isEmpty_iff, List.infix_nil]
  | cons char rest hypothesis =>
      rw [includesText, Bool.or_eq_true, List.isPrefixOf_iff_prefix, hypothesis,
        List.infix_cons_iff]

/-- What two texts have in common from their first character on. -/
def commonStart : Text → Text → Text
  | left :: lefts, right :: rights =>
      if left = right then left :: commonStart lefts rights else []
  | _, _ => []

theorem commonStart_prefix_left
    (left right : Text) :
    commonStart left right <+: left := by
  induction left generalizing right with
  | nil => simp [commonStart]
  | cons char rest hypothesis =>
      cases right with
      | nil => simp [commonStart]
      | cons other others =>
          rw [commonStart]
          split
          · exact List.cons_prefix_cons.mpr ⟨rfl, hypothesis others⟩
          · exact List.nil_prefix

theorem prefix_commonStart_iff
    {start left right : Text} :
    start <+: commonStart left right ↔ start <+: left ∧ start <+: right := by
  induction left generalizing start right with
  | nil =>
      simp only [commonStart, List.prefix_nil]
      constructor
      · rintro rfl
        exact ⟨rfl, List.nil_prefix⟩
      · exact And.left
  | cons char rest hypothesis =>
      cases start with
      | nil => simp
      | cons first start =>
          cases right with
          | nil => simp [commonStart]
          | cons other others =>
              rw [commonStart]
              split
              · rename_i same
                simp only [List.cons_prefix_cons, hypothesis, same]
                tauto
              · rename_i different
                simp only [List.prefix_nil, reduceCtorEq, List.cons_prefix_cons, false_iff]
                rintro ⟨⟨rfl, _⟩, rfl, _⟩
                exact different rfl

/-- Lower case of the ASCII letters; every other character stays. -/
def asciiLower (input : Text) : Text :=
  input.map Char.toLower

theorem isUpper_eq
    (char : Char) :
    char.isUpper = decide ('A'.val ≤ char.val ∧ char.val ≤ 'Z'.val) := rfl

theorem isAlpha_eq
    (char : Char) :
    char.isAlpha = (char.isUpper || char.isLower) := rfl

theorem isLower_eq
    (char : Char) :
    char.isLower = (decide ('a'.val ≤ char.val) && decide (char.val ≤ 'z'.val)) := rfl

theorem toLower_toLower
    (char : Char) :
    char.toLower.toLower = char.toLower := by
  unfold Char.toLower
  split
  · rename_i upper
    rw [dif_neg]
    rintro ⟨_, notAbove⟩
    have shift : ('a'.val - 'A'.val).toNat = 32 := rfl
    have first : 'A'.val.toNat = 65 := rfl
    have last : 'Z'.val.toNat = 90 := rfl
    simp only [ge_iff_le, UInt32.le_iff_toNat_le, UInt32.toNat_add] at upper notAbove
    omega
  · rfl

@[simp] theorem asciiLower_asciiLower
    (input : Text) :
    asciiLower (asciiLower input) = asciiLower input := by
  unfold asciiLower
  rw [List.map_map]
  apply List.map_congr_left
  intro char _
  exact toLower_toLower char

/-- Equality up to the case of ASCII letters. -/
def eqIgnoreAsciiCase (left right : Text) : Bool :=
  asciiLower left == asciiLower right

theorem eqIgnoreAsciiCase_iff
    {left right : Text} :
    eqIgnoreAsciiCase left right = true ↔ asciiLower left = asciiLower right := by
  simp [eqIgnoreAsciiCase]

end Text
end HttpNative
