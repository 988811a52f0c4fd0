import HttpNative.Library.Text

/-!
# Replacing every match

A pattern is a row of tests, one for each character. Every match is replaced, from the
left, and the search goes on behind it.
-/

namespace HttpNative

/-- A test for each character of a match. -/
abbrev TextPattern := List (Char → Bool)

namespace TextPattern

/-- The pattern that only a text itself matches. -/
def exactly (expected : Text) : TextPattern :=
  expected.map fun char other => other == char

/-- The pattern of a text in lower case, for either case of ASCII. -/
def ignoringCase (expected : Text) : TextPattern :=
  expected.map fun char other => other.toLower == char

/-- A match stands at the front. -/
def matchesFront : TextPattern → Text → Bool
  | [], _ => true
  | _ :: _, [] => false
  | test :: pattern, char :: input => test char && matchesFront pattern input

/-- Replace the matches behind as many characters as are still to be left out. -/
def replaceFrom (pattern : TextPattern) (replacement : Text) : Nat → Text → Text
  | _, [] => []
  | skip + 1, _ :: input => replaceFrom pattern replacement skip input
  | 0, char :: input =>
      if pattern.matchesFront (char :: input) then
        replacement ++ replaceFrom pattern replacement (pattern.length - 1) input
      else
        char :: replaceFrom pattern replacement 0 input

/-- `input.replace(/pattern/g, replacement)`, for a pattern that is not empty. -/
def replaceAll (pattern : TextPattern) (replacement input : Text) : Text :=
  replaceFrom pattern replacement 0 input

theorem replaceFrom_eq_drop
    (pattern : TextPattern)
    (replacement : Text)
    (skip : Nat)
    (input : Text) :
    replaceFrom pattern replacement skip input =
      replaceFrom pattern replacement 0 (input.drop skip) := by
  induction skip generalizing input with
  | zero => rfl
  | succ skip hypothesis =>
      cases input with
      | nil => rfl
      | cons char input =>
          rw [replaceFrom, hypothesis]
          rfl

/-- What holds between a text and its replacement, when it is kept by every character that
stays and by every match that goes. -/
theorem replaceAll_induction
    {pattern : TextPattern} {replacement : Text}
    (relation : Text → Text → Prop)
    (nil : relation [] [])
    (keep : ∀ char input output,
      pattern.matchesFront (char :: input) = false →
      relation input output →
      relation (char :: input) (char :: output))
    (replace : ∀ input output,
      input ≠ [] →
      pattern.matchesFront input = true →
      relation (input.drop (max 1 pattern.length)) output →
      relation input (replacement ++ output))
    (input : Text) :
    relation input (pattern.replaceAll replacement input) := by
  have bounded : ∀ size (input : Text), input.length ≤ size →
      relation input (pattern.replaceAll replacement input) := by
    intro size
    induction size with
    | zero =>
        intro input short
        rw [List.eq_nil_of_length_eq_zero (Nat.le_zero.mp short)]
        exact nil
    | succ size hypothesis =>
        intro input short
        cases input with
        | nil => exact nil
        | cons char input =>
            rw [List.length_cons] at short
            cases found : pattern.matchesFront (char :: input) with
            | false =>
                have step : pattern.replaceAll replacement (char :: input) =
                    char :: pattern.replaceAll replacement input := by
                  rw [replaceAll, replaceFrom, found, if_neg Bool.false_ne_true]
                  rfl
                rw [step]
                exact keep char input _ found (hypothesis input (by omega))
            | true =>
                have step : pattern.replaceAll replacement (char :: input) =
                    replacement ++
                      pattern.replaceAll replacement (input.drop (pattern.length - 1)) := by
                  rw [replaceAll, replaceFrom, found, if_pos rfl, replaceFrom_eq_drop]
                  rfl
                have skipped : (char :: input).drop (max 1 pattern.length) =
                    input.drop (pattern.length - 1) := by
                  have count : max 1 pattern.length = pattern.length - 1 + 1 := by omega
                  rw [count, List.drop_succ_cons]
                rw [step]
                refine replace _ _ (List.cons_ne_nil char input) found ?_
                rw [skipped]
                refine hypothesis _ ?_
                rw [List.length_drop]
                omega
  exact bounded input.length input (Nat.le_refl _)

/-- A text with a match begins with it. -/
theorem exactly_matchesFront_iff
    {expected input : Text} :
    (exactly expected).matchesFront input = true ↔ expected <+: input := by
  induction expected generalizing input with
  | nil => simp [exactly, matchesFront]
  | cons char expected hypothesis =>
      cases input with
      | nil => simp [exactly, matchesFront]
      | cons other input =>
          rw [exactly] at hypothesis
          rw [exactly, List.map_cons, matchesFront, Bool.and_eq_true, hypothesis, beq_iff_eq,
            List.cons_prefix_cons, eq_comm]

/-- What is no lower-case letter is matched by itself only, in whatever case. -/
theorem eq_of_ignoringCase
    {char first : Char} {expected input : Text}
    (noLetter : char.isLower = false)
    (found : (ignoringCase (char :: expected)).matchesFront (first :: input) = true) :
    first = char := by
  rw [ignoringCase, List.map_cons, matchesFront, Bool.and_eq_true, beq_iff_eq] at found
  have same := found.1
  unfold Char.toLower at same
  split at same
  · rename_i upper
    have shift : ('a'.val - 'A'.val).toNat = 32 := rfl
    have first : 'A'.val.toNat = 65 := rfl
    have last : 'Z'.val.toNat = 90 := rfl
    have lowerFirst : 'a'.val.toNat = 97 := rfl
    have lowerLast : 'z'.val.toNat = 122 := rfl
    rw [← same, Text.isLower_eq, Bool.and_eq_false_iff, decide_eq_false_iff_not,
      decide_eq_false_iff_not] at noLetter
    simp only [ge_iff_le, UInt32.le_iff_toNat_le, UInt32.toNat_add] at upper noLetter
    omega
  · exact same

/-- A character that the replacement is without is not brought in. -/
theorem notMem_replaceAll
    {pattern : TextPattern} {replacement : Text} {char : Char}
    (absent : char ∉ replacement)
    {input : Text}
    (missing : char ∉ input) :
    char ∉ pattern.replaceAll replacement input := by
  refine replaceAll_induction (fun input output => char ∉ input → char ∉ output) ?_ ?_ ?_ input
    missing
  · exact fun missing => missing
  · intro first input output _ hypothesis missing
    rw [List.mem_cons, not_or] at missing ⊢
    exact ⟨missing.1, hypothesis missing.2⟩
  · intro input output _ _ hypothesis missing
    rw [List.mem_append, not_or]
    exact ⟨absent, hypothesis fun member => missing (List.mem_of_mem_drop member)⟩

/-- A pattern of one character leaves none of it behind. -/
theorem notMem_replaceAll_exactly
    {replacement : Text} {char : Char}
    (absent : char ∉ replacement)
    (input : Text) :
    char ∉ (exactly [char]).replaceAll replacement input := by
  refine replaceAll_induction (fun _ output => char ∉ output) (List.not_mem_nil) ?_ ?_ input
  · intro first input output unmatched hypothesis
    rw [List.mem_cons, not_or]
    refine ⟨?_, hypothesis⟩
    rintro rfl
    rw [← Bool.not_eq_true, exactly_matchesFront_iff] at unmatched
    exact unmatched ⟨input, rfl⟩
  · intro input output _ _ hypothesis
    rw [List.mem_append, not_or]
    exact ⟨absent, hypothesis⟩

end TextPattern
end HttpNative
