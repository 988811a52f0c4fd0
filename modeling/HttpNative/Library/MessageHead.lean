import HttpNative.Library.Octets

/-!
# Message heads

The head of a text message as a recipient reads it: lines that end in a carriage
return and a line feed, up to an empty one. A line is a field with the name in
front of its first colon, and a line that begins blank goes on with the value of
the line before it.
-/

namespace HttpNative
namespace MessageHead

def lineEnd : Octets := [13, 10]

/-- The lines up to the empty one and what follows it, behind the octets `line`
of a line that has begun. -/
def readLines (line : Octets) : Octets → Option (List Octets × Octets)
  | [] => none
  | octet :: rest =>
      if octet = 10 ∧ line.getLast? = some 13 then
        if line.dropLast = [] then
          some ([], rest)
        else
          (readLines [] rest).map fun read => (line.dropLast :: read.1, read.2)
      else
        readLines (line ++ [octet]) rest

def isBlank (octet : UInt8) : Bool :=
  octet = 32 || octet = 9

/-- The line goes on with the one before it. -/
def isContinuation (line : Octets) : Bool :=
  line.head?.any isBlank

def fieldName (line : Octets) : Octets :=
  Octets.trimWith isBlank (line.takeWhile (· ≠ 58))

def fieldValue (line : Octets) : Octets :=
  Octets.trimWith isBlank (line.dropWhile (· ≠ 58)).tail

/-- The line is a field of the name, in any case. -/
def isFieldNamed (name line : Octets) : Bool :=
  !isContinuation line && line.contains 58 && Octets.eqIgnoreAsciiCase (fieldName line) name

/-- What the lines at the front of others add to the value of the line before. -/
def continuation (lines : List Octets) : Octets :=
  (lines.takeWhile isContinuation).flatten

/-- The values of the fields of a name. -/
def valuesOf (name : Octets) : List Octets → List Octets
  | [] => []
  | line :: rest =>
      if isFieldNamed name line then
        fieldValue (line ++ continuation rest) :: valuesOf name rest
      else
        valuesOf name rest

/-- A name that stands in front of its colon as it is. -/
structure IsToken (name : Octets) : Prop where
  notEmpty : name ≠ []
  noColon : 58 ∉ name
  solid : ∀ octet ∈ name, isBlank octet = false

instance (name : Octets) : Decidable (IsToken name) :=
  if notEmpty : name ≠ [] then
    if noColon : 58 ∉ name then
      if solid : ∀ octet ∈ name, isBlank octet = false then
        isTrue ⟨notEmpty, noColon, solid⟩
      else isFalse fun token => solid token.solid
    else isFalse fun token => noColon token.noColon
  else isFalse fun token => notEmpty token.notEmpty

/-- A field as it is written. -/
def fieldLine (name value : Octets) : Octets :=
  name ++ (octets ": " ++ value)

/-! ## Reading lines -/

/-- A row without a line feed is the rest of the line that has begun. -/
theorem readLines_rest
    {row : Octets}
    (noFeed : 10 ∉ row)
    (line rest : Octets) :
    readLines line (row ++ (lineEnd ++ rest)) =
      if line ++ row = [] then some ([], rest)
      else (readLines [] rest).map fun read => ((line ++ row) :: read.1, read.2) := by
  induction row generalizing line with
  | nil =>
      have notYet : ¬ ((13 : UInt8) = 10 ∧ line.getLast? = some 13) := by simp
      have ends : (10 : UInt8) = 10 ∧ (line ++ [13]).getLast? = some 13 := by simp
      change readLines line (13 :: 10 :: rest) = _
      rw [readLines, if_neg notYet, readLines, if_pos ends, List.dropLast_concat,
        List.append_nil]
  | cons octet row hypothesis =>
      obtain ⟨different, noFeed⟩ := List.ne_and_not_mem_of_not_mem_cons noFeed
      have goesOn : ¬ (octet = 10 ∧ line.getLast? = some 13) :=
        fun ends => different ends.1.symm
      rw [List.cons_append, readLines, if_neg goesOn, hypothesis noFeed, List.append_assoc,
        List.singleton_append]

theorem readLines_line
    {row : Octets}
    (noFeed : 10 ∉ row)
    (notEmpty : row ≠ [])
    (rest : Octets) :
    readLines [] (row ++ (lineEnd ++ rest)) =
      (readLines [] rest).map fun read => (row :: read.1, read.2) := by
  rw [readLines_rest noFeed, List.nil_append, if_neg notEmpty]

/-- The first line starts with the octet that it began with. -/
theorem head?_readLines
    {first : UInt8} {line input : Octets} {read : List Octets × Octets}
    (noReturn : first ≠ 13)
    (found : readLines (first :: line) input = some read) :
    ∃ rest, read.1.head? = some (first :: rest) := by
  induction input generalizing line with
  | nil => cases found
  | cons octet input hypothesis =>
      rw [readLines] at found
      split at found
      · rename_i ends
        have longer : line ≠ [] := by
          rintro rfl
          exact noReturn (Option.some.inj ends.2)
        have kept : (first :: line).dropLast = first :: line.dropLast :=
          List.dropLast_cons_of_ne_nil longer
        rw [kept, if_neg (List.cons_ne_nil _ _)] at found
        obtain ⟨others, -, rfl⟩ := Option.map_eq_some_iff.mp found
        exact ⟨line.dropLast, rfl⟩
      · exact hypothesis found

/-- A row of lines in front of others. -/
theorem readLines_rows
    {rows : List Octets}
    (lines : ∀ row ∈ rows, 10 ∉ row ∧ row ≠ [])
    (rest : Octets) :
    readLines [] (rows.flatMap (· ++ lineEnd) ++ rest) =
      (readLines [] rest).map fun read => (rows ++ read.1, read.2) := by
  induction rows with
  | nil => simp
  | cons row rows hypothesis =>
      obtain ⟨noFeed, notEmpty⟩ := lines row List.mem_cons_self
      rw [List.flatMap_cons, List.append_assoc, List.append_assoc,
        readLines_line noFeed notEmpty,
        hypothesis fun other member => lines other (List.mem_cons_of_mem _ member),
        Option.map_map]
      rfl

/-- What is read stays when more follows. -/
theorem readLines_append
    {line input behind : Octets} {lines : List Octets}
    (read : readLines line input = some (lines, behind))
    (more : Octets) :
    readLines line (input ++ more) = some (lines, behind ++ more) := by
  induction input generalizing line lines with
  | nil => cases read
  | cons octet rest hypothesis =>
      rw [readLines] at read
      rw [List.cons_append, readLines]
      split at read
      case isTrue ends =>
          rw [if_pos ends]
          split at read
          case isTrue empty =>
              cases read
              rw [if_pos empty]
          case isFalse notEmpty =>
              obtain ⟨others, found, same⟩ := Option.map_eq_some_iff.mp read
              cases same
              rw [if_neg notEmpty, hypothesis found]
              rfl
      case isFalse goesOn =>
          rw [if_neg goesOn]
          exact hypothesis read

/-- Behind a line feed whole lines are whole lines again. -/
theorem suffix_behind_feed
    {line rest : Octets}
    (suffix : lineEnd <:+ line ++ 10 :: rest) :
    rest = [] ∨ lineEnd <:+ rest := by
  cases rest with
  | nil => exact .inl rfl
  | cons first rest =>
      right
      have tail : first :: rest <:+ line ++ 10 :: first :: rest :=
        ⟨line ++ [10], by simp⟩
      cases rest with
      | nil =>
          obtain ⟨before, spelled⟩ := suffix
          have last := congrArg (fun row => (row.dropLast).getLast?) spelled
          rw [lineEnd, List.append_cons before 13 [10], List.append_cons line 10 [first]] at last
          simp at last
      | cons second rest =>
          exact List.suffix_of_suffix_length_le suffix tail (by simp [lineEnd])

theorem ends_of_suffix
    {line : Octets} {octet : UInt8}
    (suffix : lineEnd <:+ line ++ [octet]) :
    octet = 10 ∧ line.getLast? = some 13 := by
  obtain ⟨before, spelled⟩ := suffix
  rw [lineEnd, List.append_cons before 13 [10]] at spelled
  obtain ⟨same, last⟩ := List.append_inj' spelled rfl
  cases last
  rw [← same]
  simp

/-- Whole lines with an empty one behind them are read. -/
theorem exists_readLines
    {row line : Octets}
    (whole : line ++ row = [] ∨ lineEnd <:+ line ++ row)
    (begun : row = [] → line = []) :
    ∃ read, readLines line (row ++ lineEnd) = some read := by
  induction row generalizing line with
  | nil =>
      rw [begun rfl]
      exact ⟨([], []), rfl⟩
  | cons octet rest hypothesis =>
      have suffix : lineEnd <:+ line ++ octet :: rest :=
        whole.resolve_left fun empty => by simp at empty
      rw [List.cons_append, readLines]
      split
      case isTrue ends =>
          split
          case isTrue => exact ⟨_, rfl⟩
          case isFalse =>
              have behind : [] ++ rest = [] ∨ lineEnd <:+ [] ++ rest :=
                suffix_behind_feed (ends.1 ▸ suffix)
              obtain ⟨read, found⟩ := hypothesis behind fun _ => rfl
              exact ⟨_, by rw [found]; rfl⟩
      case isFalse goesOn =>
          refine hypothesis ?_ ?_
          · rw [List.append_assoc]
            exact .inr suffix
          · rintro rfl
            exact absurd (ends_of_suffix suffix) goesOn

/-! ## Searching lines -/

/-- A word that ends no line before is looked for behind it. -/
theorem find_behind_line
    {word row : Octets}
    (wordLine : 10 ∉ word)
    (rowLine : 10 ∉ row)
    (elsewhere : ¬ word <:+ row)
    (rest : Octets) :
    Octets.find (word ++ [10]) (row ++ 10 :: rest) =
      (Octets.find (word ++ [10]) rest).map (· + (row.length + 1)) := by
  have cut : ∀ {line : Octets}, 10 ∉ line → ∀ more : Octets,
      (line ++ 10 :: more).takeWhile (· ≠ 10) = line := by
    intro line noFeed more
    rw [List.takeWhile_append_of_pos, List.takeWhile_cons_of_neg (by simp), List.append_nil]
    intro octet member
    simpa using fun same : octet = 10 => noFeed (same ▸ member)
  have notHere : ∀ line : Octets, 10 ∉ line → ¬ word <:+ line →
      (word ++ [10]).isPrefixOf (line ++ 10 :: rest) = false := by
    intro line noFeed different
    rw [Bool.eq_false_iff, Ne, List.isPrefixOf_iff_prefix]
    rintro ⟨more, same⟩
    rw [List.append_assoc] at same
    have words := congrArg (List.takeWhile (· ≠ 10)) same
    rw [List.singleton_append, cut wordLine, cut noFeed] at words
    exact different (words ▸ List.suffix_rfl)
  induction row with
  | nil =>
      have start := notHere [] List.not_mem_nil elsewhere
      rw [List.nil_append] at start ⊢
      rw [Octets.find, start]
      rfl
  | cons octet row hypothesis =>
      have start := notHere (octet :: row) rowLine elsewhere
      obtain ⟨-, rowLine⟩ := List.ne_and_not_mem_of_not_mem_cons rowLine
      have found := hypothesis rowLine fun suffix =>
        elsewhere (suffix.trans (List.suffix_cons octet row))
      rw [List.cons_append] at start ⊢
      rw [Octets.find, start, found, if_neg (by simp), Option.map_map]
      rfl

/-- No empty line stands in front of a line that begins otherwise. -/
theorem find_emptyLine_behind
    {input : Octets}
    (solid : ∀ octet, input.head? = some octet → octet ≠ 13) :
    Octets.find (lineEnd ++ lineEnd) (lineEnd ++ input) =
      (Octets.find (lineEnd ++ lineEnd) input).map (· + 2) := by
  have notHere : (lineEnd ++ lineEnd).isPrefixOf (13 :: 10 :: input) = false := by
    cases input with
    | nil => rfl
    | cons octet rest =>
        have different : ((13 : UInt8) == octet) = false := by
          rw [beq_eq_false_iff_ne]
          exact (solid octet rfl).symm
        simp [lineEnd, List.isPrefixOf, different]
  have notBehind : (lineEnd ++ lineEnd).isPrefixOf (10 :: input) = false := rfl
  change Octets.find (lineEnd ++ lineEnd) (13 :: 10 :: input) = _
  rw [Octets.find, notHere, if_neg (by simp), Octets.find, notBehind, if_neg (by simp),
    Option.map_map]
  rfl

/-- The first empty line stands behind the lines of the head. -/
theorem find_emptyLine
    {rows : List Octets}
    (clean : ∀ row ∈ rows, 13 ∉ row ∧ row ≠ [])
    (some_line : rows ≠ [])
    (rest : Octets) :
    ∃ position,
      Octets.find (lineEnd ++ lineEnd) (rows.flatMap (· ++ lineEnd) ++ (lineEnd ++ rest)) =
        some position ∧
      position + 2 = (rows.flatMap (· ++ lineEnd)).length := by
  induction rows with
  | nil => exact absurd rfl some_line
  | cons row rows hypothesis =>
      have behind : Octets.find (lineEnd ++ lineEnd)
          ((row :: rows).flatMap (· ++ lineEnd) ++ (lineEnd ++ rest)) =
            (Octets.find (lineEnd ++ lineEnd)
              (lineEnd ++ (rows.flatMap (· ++ lineEnd) ++ (lineEnd ++ rest)))).map
                (· + row.length) := by
        rw [List.flatMap_cons, List.append_assoc, List.append_assoc]
        exact Octets.find_append_of_head_notMem (clean row List.mem_cons_self).1 _
      rw [behind, List.flatMap_cons, List.length_append, List.length_append]
      cases rows with
      | nil =>
          refine ⟨row.length, ?_, rfl⟩
          have here : lineEnd ++ lineEnd <+: lineEnd ++ (lineEnd ++ rest) :=
            ⟨rest, by rw [List.append_assoc]⟩
          rw [List.flatMap_nil, List.nil_append, Octets.find_of_isPrefixOf here (by decide),
            Option.map_some, Nat.zero_add]
      | cons next others =>
          obtain ⟨position, found, length⟩ := hypothesis
            (fun other member => clean other (List.mem_cons_of_mem _ member)) (by simp)
          obtain ⟨nextClean, notEmpty⟩ := clean next (by simp)
          obtain ⟨first, more, rfl⟩ := List.exists_cons_of_ne_nil notEmpty
          have solid : ∀ octet,
              ((((first :: more) :: others).flatMap (· ++ lineEnd)) ++
                (lineEnd ++ rest)).head? = some octet → octet ≠ 13 := by
            rintro octet begins rfl
            cases begins
            exact nextClean List.mem_cons_self
          refine ⟨position + 2 + row.length, ?_, ?_⟩
          · rw [find_emptyLine_behind solid, found, Option.map_some, Option.map_some]
          · rw [← length]
            change _ = row.length + 2 + _
            omega

/-! ## Reading fields -/

theorem trimWith_of_solid
    {value : Octets}
    (solid : ∀ octet ∈ value, isBlank octet = false) :
    Octets.trimWith isBlank value = value := by
  have trimmed : Octets.trimWith isBlank ([] ++ value ++ []) = value :=
    Octets.trimWith_append (by simp) (by simp)
      (fun octet first => solid octet (List.mem_of_head? first))
      (fun octet last => solid octet (List.mem_of_getLast? last))
  simpa using trimmed

/-- Blanks are taken off behind a row that starts with a solid octet. -/
theorem trimWith_cons
    {first : UInt8}
    (solid : isBlank first = false)
    (rest : Octets) :
    Octets.trimWith isBlank (first :: rest) = (first :: rest).rdropWhile isBlank := by
  rw [Octets.trimWith, List.dropWhile_cons_of_neg (by simp [solid])]

/-- What stands behind a solid value changes it unless it is blank. -/
theorem trimWith_append_eq_iff
    {value more : Octets}
    (notEmpty : value ≠ [])
    (solid : ∀ octet ∈ value, isBlank octet = false) :
    Octets.trimWith isBlank (value ++ more) = value ↔ ∀ octet ∈ more, isBlank octet = true := by
  constructor
  · intro trimmed
    obtain ⟨first, rest, rfl⟩ := List.exists_cons_of_ne_nil notEmpty
    rw [List.cons_append, trimWith_cons (solid first List.mem_cons_self)] at trimmed
    by_contra some_solid
    have kept : more.rdropWhile isBlank ≠ [] := by
      rw [Ne, List.rdropWhile_eq_nil_iff]
      exact some_solid
    have whole : (first :: (rest ++ more)).rdropWhile isBlank =
        first :: rest ++ more.rdropWhile isBlank := by
      rw [← List.cons_append, List.rdropWhile, List.reverse_append, List.dropWhile_append, if_neg,
        List.reverse_append, List.reverse_reverse]
      · rfl
      · rw [List.isEmpty_iff, ← List.reverse_eq_nil_iff]
        exact kept
    rw [whole] at trimmed
    exact kept (List.append_right_eq_self.mp trimmed)
  · intro blank
    have trimmed : Octets.trimWith isBlank ([] ++ value ++ more) = value :=
      Octets.trimWith_append (by simp) blank
        (fun octet first => solid octet (List.mem_of_head? first))
        (fun octet last => solid octet (List.mem_of_getLast? last))
    simpa using trimmed

/-- What stands behind a row leaves its first octet. -/
theorem head?_trimWith
    {first : UInt8}
    (solid : isBlank first = false)
    (rest : Octets) :
    (Octets.trimWith isBlank (first :: rest)).head? = some first := by
  rw [trimWith_cons solid]
  have notEmpty : (first :: rest).rdropWhile isBlank ≠ [] := by
    rw [Ne, List.rdropWhile_eq_nil_iff]
    intro blank
    exact absurd (blank first List.mem_cons_self) (by simp [solid])
  obtain ⟨behind, spelled⟩ := List.rdropWhile_prefix isBlank (first :: rest)
  cases trimmed : (first :: rest).rdropWhile isBlank with
  | nil => exact absurd trimmed notEmpty
  | cons octet others =>
      rw [trimmed, List.cons_append, List.cons.injEq] at spelled
      rw [spelled.1, List.head?_cons]

theorem takeWhile_fieldLine
    {name : Octets}
    (noColon : 58 ∉ name)
    (rest : Octets) :
    (name ++ 58 :: rest).takeWhile (· ≠ 58) = name := by
  rw [List.takeWhile_append_of_pos, List.takeWhile_cons_of_neg, List.append_nil]
  · simp
  · intro octet member
    simpa using fun same : octet = 58 => noColon (same ▸ member)

theorem dropWhile_fieldLine
    {name : Octets}
    (noColon : 58 ∉ name)
    (rest : Octets) :
    (name ++ 58 :: rest).dropWhile (· ≠ 58) = 58 :: rest := by
  rw [List.dropWhile_append_of_pos, List.dropWhile_cons_of_neg]
  · simp
  · intro octet member
    simpa using fun same : octet = 58 => noColon (same ▸ member)

theorem isContinuation_fieldLine
    {name : Octets}
    (token : IsToken name)
    (value : Octets) :
    isContinuation (fieldLine name value) = false := by
  obtain ⟨first, rest, rfl⟩ := List.exists_cons_of_ne_nil token.notEmpty
  exact token.solid first List.mem_cons_self

theorem isFieldNamed_fieldLine
    {name : Octets}
    (token : IsToken name)
    (other value : Octets) :
    isFieldNamed other (fieldLine name value) = Octets.eqIgnoreAsciiCase name other := by
  have spelled : fieldLine name value = name ++ 58 :: (32 :: value) := rfl
  have named : fieldName (fieldLine name value) = name := by
    rw [fieldName, spelled, takeWhile_fieldLine token.noColon, trimWith_of_solid token.solid]
  have colon : (fieldLine name value).contains 58 = true := by
    rw [spelled, List.contains_iff_mem]
    simp
  rw [isFieldNamed, isContinuation_fieldLine token, colon, named]
  rfl

theorem fieldValue_fieldLine_append
    {name : Octets}
    (token : IsToken name)
    (value more : Octets) :
    fieldValue (fieldLine name value ++ more) = Octets.trimWith isBlank (value ++ more) := by
  have spelled : fieldLine name value ++ more = name ++ 58 :: (32 :: (value ++ more)) := by
    change (name ++ 58 :: 32 :: value) ++ more = _
    rw [List.append_assoc]
    rfl
  rw [fieldValue, spelled, dropWhile_fieldLine token.noColon, List.tail_cons, Octets.trimWith,
    List.dropWhile_cons_of_pos (by decide)]
  rfl

/-- The value of a field with a solid value, and what continues it. -/
theorem fieldValue_fieldLine_eq_iff
    {name value more : Octets}
    (token : IsToken name)
    (notEmpty : value ≠ [])
    (solid : ∀ octet ∈ value, isBlank octet = false) :
    fieldValue (fieldLine name value ++ more) = value ↔ ∀ octet ∈ more, isBlank octet = true := by
  rw [fieldValue_fieldLine_append token, trimWith_append_eq_iff notEmpty solid]

theorem fieldValue_fieldLine
    {name value : Octets}
    (token : IsToken name)
    (notEmpty : value ≠ [])
    (solid : ∀ octet ∈ value, isBlank octet = false) :
    fieldValue (fieldLine name value) = value := by
  have read : fieldValue (fieldLine name value ++ []) = value :=
    (fieldValue_fieldLine_eq_iff token notEmpty solid).mpr (by simp)
  rwa [List.append_nil] at read

theorem continuation_cons
    {line : Octets}
    (own : isContinuation line = false)
    (lines : List Octets) :
    continuation (line :: lines) = [] := by
  rw [continuation, List.takeWhile_cons_of_neg (by simp [own])]
  rfl

theorem valuesOf_cons_other
    {name line : Octets}
    (other : isFieldNamed name line = false)
    (lines : List Octets) :
    valuesOf name (line :: lines) = valuesOf name lines := by
  rw [valuesOf, other]
  rfl

theorem valuesOf_cons_named
    {name line : Octets}
    (named : isFieldNamed name line = true)
    (lines : List Octets) :
    valuesOf name (line :: lines) =
      fieldValue (line ++ continuation lines) :: valuesOf name lines := by
  rw [valuesOf, if_pos named]

theorem valuesOf_eq_nil_iff
    {name : Octets} {lines : List Octets} :
    valuesOf name lines = [] ↔ ∀ line ∈ lines, isFieldNamed name line = false := by
  induction lines with
  | nil => simp [valuesOf]
  | cons line lines hypothesis =>
      cases named : isFieldNamed name line with
      | true => simp [valuesOf_cons_named named, named]
      | false => simp [valuesOf_cons_other named, named, hypothesis]

theorem continuation_append
    {more : List Octets}
    (own : ∀ line ∈ more.head?, isContinuation line = false)
    (lines : List Octets) :
    continuation (lines ++ more) = continuation lines := by
  induction lines with
  | nil =>
      cases more with
      | nil => rfl
      | cons line more => exact continuation_cons (own line rfl) more
  | cons line lines hypothesis =>
      cases continues : isContinuation line with
      | false => rw [List.cons_append, continuation_cons continues, continuation_cons continues]
      | true =>
          rw [continuation, continuation] at hypothesis
          rw [continuation, continuation, List.cons_append, List.takeWhile_cons_of_pos continues,
            List.takeWhile_cons_of_pos continues, List.flatten_cons, List.flatten_cons, hypothesis]

/-- The values of lines in front of others that do not continue them. -/
theorem valuesOf_append
    {more : List Octets}
    (own : ∀ line ∈ more.head?, isContinuation line = false)
    (name : Octets)
    (lines : List Octets) :
    valuesOf name (lines ++ more) = valuesOf name lines ++ valuesOf name more := by
  induction lines with
  | nil => rfl
  | cons line lines hypothesis =>
      cases named : isFieldNamed name line with
      | true =>
          rw [List.cons_append, valuesOf_cons_named named, valuesOf_cons_named named,
            continuation_append own, hypothesis, List.cons_append]
      | false =>
          rw [List.cons_append, valuesOf_cons_other named, valuesOf_cons_other named, hypothesis]

end MessageHead
end HttpNative
