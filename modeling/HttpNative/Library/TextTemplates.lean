import HttpNative.Library.Text

/-!
# Texts with named holes

A scan takes a text from the left: where a token starts, it reads a hole and goes on
behind the token, and elsewhere it reads a character. Written with their names between
braces, the parts of a text without braces are read back as they were.
-/

namespace HttpNative

namespace TextTemplate

/-- A character of a template, or a hole with its name. -/
inductive Part where
  | literal (char : Char)
  | hole (name : Text)
deriving DecidableEq

/-! ## Scanning -/

/-- What starts at a character and what follows it: the name of a hole, and how many of
the characters behind the first belong to it. -/
abbrev Token : Type := Char → Text → Option (Text × Nat)

/-- The parts of a text whose first characters have been read already. -/
def scanFrom (token : Token) : Nat → Text → List Part
  | _, [] => []
  | skipped + 1, _ :: rest => scanFrom token skipped rest
  | 0, char :: rest =>
      match token char rest with
      | some (name, length) => .hole name :: scanFrom token length rest
      | none => .literal char :: scanFrom token 0 rest

def scan (token : Token) (input : Text) : List Part :=
  scanFrom token 0 input

section Scanning

variable {token : Token}

theorem scanFrom_eq
    (skipped : Nat)
    (input : Text) :
    scanFrom token skipped input = scan token (input.drop skipped) := by
  induction skipped generalizing input with
  | zero => rfl
  | succ skipped hypothesis =>
      cases input with
      | nil => rfl
      | cons char rest => exact hypothesis rest

theorem scan_nil : scan token [] = [] := rfl

theorem scan_of_none
    {char : Char} {rest : Text}
    (noToken : token char rest = none) :
    scan token (char :: rest) = .literal char :: scan token rest := by
  rw [scan, scanFrom, noToken]
  rfl

theorem scan_of_some
    {char : Char} {rest name : Text} {length : Nat}
    (starts : token char rest = some (name, length)) :
    scan token (char :: rest) = .hole name :: scan token (rest.drop length) := by
  rw [scan, scanFrom, starts]
  exact congrArg _ (scanFrom_eq length rest)

end Scanning

/-! ## Names between braces -/

def Part.write : Part → Text
  | .literal char => [char]
  | .hole name => '{' :: (name ++ ['}'])

def write (parts : List Part) : Text :=
  parts.flatMap Part.write

/-- A name from an opening brace to the next closing one. -/
def braced : Token := fun char rest =>
  if char = '{' ∧ '}' ∈ rest then
    some (rest.takeWhile (· ≠ '}'), (rest.takeWhile (· ≠ '}')).length + 1)
  else
    none

/-- Reading takes nothing of the part for a brace. -/
def Part.Plain : Part → Prop
  | .literal char => char ≠ '{'
  | .hole name => '}' ∉ name

/-- What is written is read back. -/
theorem scan_write
    {parts : List Part}
    (plain : ∀ part ∈ parts, part.Plain) :
    scan braced (write parts) = parts := by
  induction parts with
  | nil => rfl
  | cons part parts hypothesis =>
      have later : scan braced (write parts) = parts :=
        hypothesis fun part member => plain part (List.mem_cons_of_mem _ member)
      have first := plain part List.mem_cons_self
      cases part with
      | literal char =>
          have noToken : braced char (write parts) = none :=
            if_neg fun opens => first opens.1
          calc scan braced (write (.literal char :: parts))
              = scan braced (char :: write parts) := rfl
            _ = .literal char :: parts := by rw [scan_of_none noToken, later]
      | hole name =>
          have name_eq : (name ++ '}' :: write parts).takeWhile (· ≠ '}') = name := by
            rw [List.takeWhile_append_of_pos]
            · simp
            · intro char member
              exact decide_eq_true (ne_of_mem_of_not_mem member first)
          have starts : braced '{' (name ++ '}' :: write parts) =
              some (name, name.length + 1) := by
            rw [braced, if_pos ⟨rfl, by simp⟩, name_eq]
          have behind : (name ++ '}' :: write parts).drop (name.length + 1) = write parts := by
            simp
          calc scan braced (write (.hole name :: parts))
              = scan braced ('{' :: (name ++ '}' :: write parts)) := by
                rw [write, List.flatMap_cons, Part.write, List.cons_append,
                  List.append_assoc]
                rfl
            _ = .hole name :: parts := by rw [scan_of_some starts, behind, later]

/-! ## Filling -/

def Part.name? : Part → Option Text
  | .literal _ => none
  | .hole name => some name

/-- The names of the holes from the left. -/
def names (parts : List Part) : List Text :=
  parts.filterMap Part.name?

/-- The text with one value in each hole, from the left; none for another number of
values. -/
def expand : List Part → List Text → Option Text
  | [], [] => some []
  | [], _ :: _ => none
  | .literal char :: parts, values => (expand parts values).map (char :: ·)
  | .hole _ :: _, [] => none
  | .hole _ :: parts, value :: values => (expand parts values).map (value ++ ·)

/-- Characters in front stand as they are. -/
theorem expand_literals
    (before : Text)
    (parts : List Part)
    (values : List Text) :
    expand (before.map .literal ++ parts) values = (expand parts values).map (before ++ ·) := by
  induction before with
  | nil => simp
  | cons char before hypothesis =>
      rw [List.map_cons, List.cons_append, expand, hypothesis, Option.map_map]
      rfl

end TextTemplate
end HttpNative
