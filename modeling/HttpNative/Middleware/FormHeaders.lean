import HttpNative.Library.Utf8Ascii
import HttpNative.Middleware.Multipart

/-!
# The header lines of a form

A form is encoded part by part, each behind the boundary and with its names between
quotes. Of the header lines of a part the parser reads the names as they were encoded.
-/

namespace HttpNative
namespace Multipart

open Bridge (isBoundary isWordChar)
open MessageHead (lineEnd)

/-! ## The encoding -/

def boundaryChars : Text :=
  text "0123456789ABCDEFGHIJKLMNOPQRSTUVWXYZabcdefghijklmnopqrstuvwxyz'()+_,-./:=? "

structure Boundary where
  chars : Text
  legal : ∀ char ∈ chars, char ∈ boundaryChars
  bounds : 1 ≤ chars.length ∧ chars.length ≤ 70
  noBlank : chars.getLast? ≠ some ' '

/-- The value of a `Content-Type` line. -/
structure ContentType where
  value : Text
  noReturn : '\r' ∉ value
  noFeed : '\n' ∉ value

inductive FormPart where
  | field (name value : Text) (contentType : Option ContentType)
  | file (name filename : Text) (contentType : Option ContentType) (content : Octets)

/-- A name between quotes: quotes and line ends are percent-encoded. -/
def escapeName (name : Text) : Text :=
  name.flatMap fun char =>
    if char = '"' then text "%22" else if char = '\r' then text "%0D"
    else if char = '\n' then text "%0A" else [char]

namespace FormPart

def content : FormPart → Octets
  | .field _ value _ => Utf8.encode value
  | .file _ _ _ content => content

def contentType : FormPart → Option ContentType
  | .field _ _ contentType => contentType
  | .file _ _ contentType _ => contentType

def disposition : FormPart → Text
  | .field name _ _ => text "form-data; name=\"" ++ (escapeName name ++ ['"'])
  | .file name filename _ _ =>
      text "form-data; name=\"" ++
        (escapeName name ++ '"' :: (text "; filename=\"" ++ (escapeName filename ++ ['"'])))

/-- The header lines of a part. -/
def lines (part : FormPart) : List Text :=
  (text "Content-Disposition: " ++ part.disposition) ::
    (part.contentType.map fun type => text "Content-Type: " ++ type.value).toList

end FormPart

/-- The encoding of a form: every part behind a boundary and in front of a line end. -/
def encodeForm (boundary : Boundary) : List FormPart → Octets
  | [] => delimiterOf boundary.chars ++ (octets "--" ++ lineEnd)
  | part :: rest =>
      delimiterOf boundary.chars ++
        (lineEnd ++ ((part.lines.map Utf8.encode).flatMap (· ++ lineEnd) ++
          (lineEnd ++ (part.content ++ (lineEnd ++ encodeForm boundary rest)))))

/-! ## What a form stands for -/

namespace FormPart

/-- The name and the value of a text field; one without a name is none. -/
def textField : FormPart → Option (Text × Text)
  | .field name value _ => if name = [] then none else some (escapeName name, value)
  | .file .. => none

def sentFile : FormPart → Option MultipartFile
  | .field .. => none
  | .file name filename contentType content =>
      some
        { name := escapeName filename
          fieldName := if name = [] then none else some (escapeName name)
          mimetype :=
            (contentType.map fun type => Text.trim type.value).getD
              (text "application/octet-stream")
          size := content.length
          data := content }

def FitsIn (limits : Limits) : FormPart → Prop
  | .field _ value _ => (Utf8.encode value).length ≤ limits.maxFieldSize
  | .file _ _ _ content => content.length ≤ limits.maxFileSize

end FormPart

/-- The value of the last text field of a name. -/
def lastValue (parts : List FormPart) (name : Text) : Option Text :=
  (((parts.filterMap FormPart.textField).filter fun field => field.1 = name).getLast?).map Prod.snd

structure Admits (limits : Limits) (parts : List FormPart) : Prop where
  files : (parts.filterMap FormPart.sentFile).length ≤ limits.maxFiles
  sizes : ∀ part ∈ parts, part.FitsIn limits

/-- A name ends in what begins the file name of a part. -/
def EndsInParameter (name : Text) : Prop :=
  ∃ front, name = front ++ text "filename=" ∧ ∀ char ∈ front.getLast?, isWordChar char = false

/-- The parser can tell the part from what is around it. -/
def FormPart.ToldApart (boundary : Boundary) : FormPart → Prop
  | .field _ value _ => ¬ delimiterOf boundary.chars <:+: Utf8.encode value
  | .file name filename _ content =>
      ¬ delimiterOf boundary.chars <:+: content ∧ filename ≠ [] ∧
        ¬ EndsInParameter (escapeName name)

/-! ## Names between quotes -/

theorem notMem_escapeName
    {char : Char}
    (escaped : char ∈ ['"', '\r', '\n'])
    (name : Text) :
    char ∉ escapeName name := by
  intro member
  obtain ⟨original, -, written⟩ := List.mem_flatMap.mp member
  have notWritten : ∀ char ∈ ['"', '\r', '\n'],
      char ∉ text "%22" ∧ char ∉ text "%0D" ∧ char ∉ text "%0A" := by
    decide
  obtain ⟨notQuote, notReturn, notFeed⟩ := notWritten char escaped
  split_ifs at written with isQuote isReturn isFeed
  · exact notQuote written
  · exact notReturn written
  · exact notFeed written
  · rw [List.mem_singleton] at written
    subst written
    simp [isQuote, isReturn, isFeed] at escaped

theorem escapeName_eq_nil_iff
    {name : Text} :
    escapeName name = [] ↔ name = [] := by
  cases name with
  | nil => simp [escapeName]
  | cons char rest =>
      rw [escapeName, List.flatMap_cons]
      split_ifs <;> simp

/-! ## Parameters -/

theorem takeWhile_quoteless
    {value : Text}
    (noQuote : '"' ∉ value)
    (rest : Text) :
    (value ++ '"' :: rest).takeWhile (· ≠ '"') = value := by
  rw [List.takeWhile_append_of_pos, List.takeWhile_cons_of_neg (by simp), List.append_nil]
  intro char member
  simpa using fun same : char = '"' => noQuote (same ▸ member)

/-- A parameter is read up to the quote behind it, when there is anything in it. -/
theorem parameterHere_append
    (word : Text)
    {value : Text}
    (noQuote : '"' ∉ value)
    (rest : Text) :
    parameterHere word (word ++ text "=\"" ++ (value ++ '"' :: rest)) =
      if value = [] then none else some value := by
  rw [parameterHere, Json.stripPrefix_eq_some_iff.mpr rfl, Option.bind_some]
  simp only [takeWhile_quoteless noQuote, List.drop_left]
  by_cases empty : value = []
  · simp [empty]
  · simp [empty]

/-- Where a parameter is read there are two quotes. -/
theorem exists_of_parameterHere
    {word input value : Text}
    (found : parameterHere word input = some value) :
    ∃ rest, input = word ++ text "=\"" ++ (value ++ '"' :: rest) := by
  obtain ⟨behind, starts, isValue⟩ := Option.bind_eq_some_iff.mp found
  dsimp only at isValue
  split at isValue
  · rename_i quoted
    cases isValue
    obtain ⟨tail, whole⟩ := List.takeWhile_prefix (l := behind) (· ≠ '"')
    have dropped := congrArg (List.drop (behind.takeWhile (· ≠ '"')).length) whole
    rw [List.drop_left] at dropped
    rw [← dropped] at quoted
    obtain ⟨rest, rfl⟩ := List.head?_eq_some_iff.mp quoted.2
    exact ⟨rest, (Json.stripPrefix_eq_some_iff.mp starts).trans (congrArg _ whole.symm)⟩
  · cases isValue

/-- A text with one quote has no parameter. -/
theorem parameterFrom_of_count
    (word : Text)
    {input : Text}
    (few : input.count '"' ≤ 1)
    (before : Option Char) :
    parameterFrom word before input = none := by
  induction input generalizing before with
  | nil => rfl
  | cons char rest hypothesis =>
      have fewer : rest.count '"' ≤ 1 := (List.count_le_count_cons).trans few
      have notHere : parameterHere word (char :: rest) = none := by
        rw [Option.eq_none_iff_forall_ne_some]
        intro value found
        obtain ⟨behind, same⟩ := exists_of_parameterHere found
        have count := congrArg (List.count '"') same
        have equals : (text "=\"").count '"' = 1 := by decide
        rw [List.count_append, List.count_append, List.count_append, List.count_cons_self, equals]
          at count
        omega
      rw [parameterFrom, notHere, ite_self, hypothesis fewer]
      rfl

/-- The character before the end of a text, or what stands before the text. -/
def lastOr : Option Char → Text → Option Char
  | before, [] => before
  | _, char :: rest => lastOr (some char) rest

/-- Characters that the word does not start with are passed. -/
theorem parameterFrom_pass
    {first : Char} {word front : Text}
    (noStart : first ∉ front)
    (before : Option Char)
    (rest : Text) :
    parameterFrom (first :: word) before (front ++ rest) =
      parameterFrom (first :: word) (lastOr before front) rest := by
  induction front generalizing before with
  | nil => rfl
  | cons char front hypothesis =>
      obtain ⟨different, noStart⟩ := List.ne_and_not_mem_of_not_mem_cons noStart
      have notHere : parameterHere (first :: word) (char :: (front ++ rest)) = none := by
        rw [parameterHere, List.cons_append, Json.stripPrefix, if_neg (Ne.symm different),
          Option.bind_none]
      rw [List.cons_append, parameterFrom, notHere, ite_self]
      exact hypothesis noStart (some char)

/-- At its word, behind a blank, a parameter is read. -/
theorem parameterFrom_at
    {first : Char} {word value : Text}
    (letter : isWordChar first = true)
    (noQuote : '"' ∉ value)
    (rest : Text) :
    parameterFrom (first :: word) (some ' ') (first :: word ++ text "=\"" ++ (value ++ '"' :: rest)) =
      if value = [] then
        parameterFrom (first :: word) (some first) (word ++ text "=\"" ++ (value ++ '"' :: rest))
      else
        some value := by
  have boundary : isBoundary (some ' ') (some first) = true := by
    simp only [isBoundary, Option.any_some, letter]
    rfl
  have here := parameterHere_append (first :: word) noQuote rest
  rw [List.cons_append, List.cons_append] at here ⊢
  rw [parameterFrom, if_pos boundary, here]
  split <;> rfl

/-- A name with a quote behind it is passed, unless it ends in the word of the parameter
and an equals sign. -/
theorem parameterFrom_append
    {word name : Text}
    (noQuoteWord : '"' ∉ word)
    (noQuote : '"' ∉ name)
    (before : Option Char)
    (elsewhere : ∀ front behind, name = front ++ behind → behind = word ++ ['='] →
      isBoundary (lastOr before front) behind.head? = false)
    (rest : Text) :
    parameterFrom word before (name ++ '"' :: rest) =
      parameterFrom word (lastOr before name) ('"' :: rest) := by
  induction name generalizing before with
  | nil => rfl
  | cons char name hypothesis =>
      obtain ⟨-, noQuoteName⟩ := List.ne_and_not_mem_of_not_mem_cons noQuote
      have notHere : (if isBoundary before (some char) then
          parameterHere word (char :: (name ++ '"' :: rest)) else none) = none := by
        cases found : parameterHere word (char :: (name ++ '"' :: rest)) with
        | none => rw [ite_self]
        | some value =>
            obtain ⟨behind, same⟩ := exists_of_parameterHere found
            have first := congrArg (fun input => (Text.cut '"' input).1) same
            have wordEquals : '"' ∉ word ++ ['='] := by simpa using noQuoteWord
            have spelled : word ++ text "=\"" ++ (value ++ '"' :: behind) =
                (word ++ ['=']) ++ '"' :: (value ++ '"' :: behind) := by
              rw [List.append_assoc, List.append_assoc]
              rfl
            rw [spelled, ← List.cons_append] at first
            simp only [Text.cut_append_cons noQuote, Text.cut_append_cons wordEquals] at first
            have boundary : isBoundary before (some char) = false :=
              elsewhere [] (char :: name) rfl first
            rw [if_neg (by simp [boundary])]
      rw [List.cons_append, parameterFrom, notHere]
      refine hypothesis noQuoteName (some char) fun front behind same isWord => ?_
      exact elsewhere (char :: front) behind (by rw [same, List.cons_append]) isWord

theorem lastOr_append_singleton
    (before : Option Char)
    (front : Text)
    (last : Char) :
    lastOr before (front ++ [last]) = some last := by
  induction front generalizing before with
  | nil => rfl
  | cons char front hypothesis => exact hypothesis (some char)

theorem isBoundary_eq_false_of_word
    {before : Option Char}
    (inWord : ∃ char ∈ before, isWordChar char = true) :
    isBoundary before (some 'f') = false := by
  obtain ⟨char, isBefore, isWord⟩ := inWord
  rw [Option.mem_def.mp isBefore]
  simp only [isBoundary, Option.any_some, isWord]
  rfl

/-- The parameter of a file name is not seen in the name before it. -/
theorem elsewhere_of_not_endsInParameter
    {name : Text}
    (plain : ¬ EndsInParameter name) :
    ∀ front behind, name = front ++ behind → behind = text "filename" ++ ['='] →
      isBoundary (lastOr (some '"') front) behind.head? = false := by
  intro front behind same isWord
  rw [isWord]
  apply isBoundary_eq_false_of_word
  by_contra noWord
  refine plain ⟨front, by rw [same, isWord]; rfl, ?_⟩
  intro char isLast
  obtain ⟨others, rfl⟩ := List.getLast?_eq_some_iff.mp isLast
  rw [lastOr_append_singleton] at noWord
  by_contra isWordChar
  exact noWord ⟨char, rfl, by simpa using isWordChar⟩

/-! ## The header of a part -/

theorem quote_notMem_escapeName
    (name : Text) :
    '"' ∉ escapeName name :=
  notMem_escapeName (by simp) name

theorem count_escapeName
    (name : Text) :
    (escapeName name ++ ['"']).count '"' ≤ 1 := by
  rw [List.count_append, List.count_eq_zero.mpr (quote_notMem_escapeName name)]
  decide

/-- What stands in front of the name between its quotes. -/
theorem parameterFrom_front
    (rest : Text) :
    parameterFrom (text "name") none (text "form-data; name=\"" ++ rest) =
        parameterFrom (text "name") (some ' ') (text "name=\"" ++ rest) ∧
      parameterFrom (text "filename") none (text "form-data; name=\"" ++ rest) =
        parameterFrom (text "filename") (some '"') rest := by
  constructor
  · exact @parameterFrom_pass 'n' (text "ame") (text "form-data; ") (by decide) none _
  · have first : parameterFrom (text "filename") none (text "form-data; name=\"" ++ rest) =
        parameterFrom (text "filename") (some 'f') (text "orm-data; name=\"" ++ rest) := by
      rfl
    rw [first]
    exact @parameterFrom_pass 'f' (text "ilename") (text "orm-data; name=\"") (by decide) _ _

/-- The name of a file name is not taken for the name of the part. -/
theorem parameterFrom_nameless
    (filename : Text) :
    parameterFrom (text "name") (some 'n')
        (text "ame=\"\"; filename=\"" ++ (escapeName filename ++ ['"'])) = none := by
  have inWord : ∀ rest, parameterFrom (text "name") (some 'e') ('n' :: rest) =
      parameterFrom (text "name") (some 'n') rest :=
    fun rest => rfl
  refine (@parameterFrom_pass 'n' (text "ame") (text "ame=\"\"; file") (by decide) _
    ('n' :: (text "ame=\"" ++ (escapeName filename ++ ['"'])))).trans ?_
  refine (inWord _).trans ?_
  refine (@parameterFrom_pass 'n' (text "ame") (text "ame=\"") (by decide) _ _).trans ?_
  exact parameterFrom_of_count _ (count_escapeName filename) _

theorem parse_field_disposition
    (name value : Text)
    (contentType : Option ContentType) :
    parseContentDisposition (FormPart.field name value contentType).disposition =
      { name := if name = [] then none else some (escapeName name), filename := none } := by
  obtain ⟨isName, isFilename⟩ := parameterFrom_front (escapeName name ++ ['"'])
  unfold FormPart.disposition parseContentDisposition
  rw [isName, isFilename, parameterFrom_of_count _ (count_escapeName name)]
  congr 1
  refine (parameterFrom_at (by decide) (quote_notMem_escapeName name) []).trans ?_
  by_cases nameless : name = []
  · subst nameless
    decide
  · rw [if_neg (mt escapeName_eq_nil_iff.mp nameless), if_neg nameless]

theorem parse_file_disposition
    {name filename : Text}
    (named : filename ≠ [])
    (plain : ¬ EndsInParameter (escapeName name))
    (contentType : Option ContentType)
    (content : Octets) :
    parseContentDisposition (FormPart.file name filename contentType content).disposition =
      { name := if name = [] then none else some (escapeName name)
        filename := some (escapeName filename) } := by
  obtain ⟨isName, isFilename⟩ := parameterFrom_front
    (escapeName name ++ '"' :: (text "; filename=\"" ++ (escapeName filename ++ ['"'])))
  unfold FormPart.disposition parseContentDisposition
  rw [isName, isFilename]
  congr 1
  · refine (parameterFrom_at (by decide) (quote_notMem_escapeName name) _).trans ?_
    by_cases nameless : name = []
    · subst nameless
      exact parameterFrom_nameless filename
    · rw [if_neg (mt escapeName_eq_nil_iff.mp nameless), if_neg nameless]
  · rw [parameterFrom_append (by decide) (quote_notMem_escapeName name) _
      (elsewhere_of_not_endsInParameter plain)]
    refine (@parameterFrom_pass 'f' (text "ilename") (text "\"; ") (by decide) _ _).trans ?_
    refine (parameterFrom_at (by decide) (quote_notMem_escapeName filename) []).trans ?_
    rw [if_neg (mt escapeName_eq_nil_iff.mp named)]

/-! ## The lines of a part -/

theorem splitLineEnds_of_noReturn
    {line : Text}
    (noReturn : '\r' ∉ line) :
    splitLineEnds line = [line] := by
  induction line with
  | nil => rfl
  | cons char rest hypothesis =>
      obtain ⟨different, noReturn⟩ := List.ne_and_not_mem_of_not_mem_cons noReturn
      rw [splitLineEnds, hypothesis noReturn]
      · rfl
      · exact fun _ same _ => absurd same (Ne.symm different)

theorem splitLineEnds_append
    {line : Text}
    (noReturn : '\r' ∉ line)
    (rest : Text) :
    splitLineEnds (line ++ '\r' :: '\n' :: rest) = line :: splitLineEnds rest := by
  induction line with
  | nil => rfl
  | cons char line hypothesis =>
      obtain ⟨different, noReturn⟩ := List.ne_and_not_mem_of_not_mem_cons noReturn
      rw [List.cons_append, splitLineEnds, hypothesis noReturn]
      · rfl
      · exact fun _ same _ => absurd same (Ne.symm different)

namespace FormPart

/-- The header lines with the line ends between them. -/
def headerSection (part : FormPart) : Text :=
  match part.contentType with
  | none => text "Content-Disposition: " ++ part.disposition
  | some type =>
      (text "Content-Disposition: " ++ part.disposition) ++
        '\r' :: '\n' :: (text "Content-Type: " ++ type.value)

theorem notMem_disposition
    {char : Char}
    (lineChar : char ∈ ['\r', '\n'])
    (part : FormPart) :
    char ∉ part.disposition := by
  have escaped : char ∈ ['"', '\r', '\n'] := List.mem_cons_of_mem _ lineChar
  have literal : ∀ char ∈ ['\r', '\n'], char ∉ text "form-data; name=\"" ∧
      char ∉ text "; filename=\"" ∧ char ≠ '"' := by
    decide
  obtain ⟨notFront, notBetween, notQuote⟩ := literal char lineChar
  cases part with
  | field name value contentType =>
      unfold disposition
      simp [notFront, notQuote, notMem_escapeName escaped name]
  | file name filename contentType content =>
      unfold disposition
      simp [notFront, notBetween, notQuote, notMem_escapeName escaped]

theorem noReturn_dispositionLine
    (part : FormPart) :
    '\r' ∉ text "Content-Disposition: " ++ part.disposition := by
  have notFront : '\r' ∉ text "Content-Disposition: " := by decide
  rw [List.mem_append, not_or]
  exact ⟨notFront, part.notMem_disposition (by simp)⟩

theorem noReturn_typeLine
    (type : ContentType) :
    '\r' ∉ text "Content-Type: " ++ type.value := by
  have notFront : '\r' ∉ text "Content-Type: " := by decide
  rw [List.mem_append, not_or]
  exact ⟨notFront, type.noReturn⟩

theorem splitLineEnds_headerSection
    (part : FormPart) :
    splitLineEnds part.headerSection = part.lines := by
  unfold headerSection lines
  cases part.contentType with
  | none => exact splitLineEnds_of_noReturn part.noReturn_dispositionLine
  | some type =>
      refine (splitLineEnds_append part.noReturn_dispositionLine _).trans ?_
      rw [splitLineEnds_of_noReturn (noReturn_typeLine type)]
      rfl

end FormPart

/-- One header line. -/
theorem trim_blank
    (value : Text) :
    Text.trim (' ' :: value) = Text.trim value := by
  have blank : Text.isSpace ' ' = true := by decide
  rw [Text.trim, Text.trimWith, List.dropWhile_cons_of_pos blank]
  rfl

theorem trim_disposition
    (part : FormPart) :
    Text.trim part.disposition = part.disposition := by
  have quote : Text.isSpace '"' = false := by decide
  have ends : ∃ inner, part.disposition = 'f' :: (inner ++ ['"']) := by
    cases part with
    | field name value contentType =>
        exact ⟨text "orm-data; name=\"" ++ escapeName name, by
          unfold FormPart.disposition
          simp only [List.append_assoc]
          rfl⟩
    | file name filename contentType content =>
        exact ⟨text "orm-data; name=\"" ++ (escapeName name ++ '"' ::
          (text "; filename=\"" ++ escapeName filename)), by
          unfold FormPart.disposition
          simp only [List.append_assoc, List.cons_append]
          rfl⟩
  obtain ⟨inner, same⟩ := ends
  have letter : Text.isSpace 'f' = false := by decide
  rw [same, Text.trim, Text.trimWith, List.dropWhile_cons_of_neg (by simp [letter]),
    ← List.cons_append, Text.rdropWhile_append_cons quote]
  rfl

/-- The headers that are read of a part. -/
theorem parsePartHeaders_headerSection
    (part : FormPart) :
    (parsePartHeaders part.headerSection).get (text "content-disposition") =
        some part.disposition ∧
      (parsePartHeaders part.headerSection).get (text "content-type") =
        part.contentType.map fun type => Text.trim type.value := by
  have dispositionCut : Text.cut ':' (text "Content-Disposition: " ++ part.disposition) =
      (text "Content-Disposition", some (' ' :: part.disposition)) :=
    @Text.cut_append_cons ':' (text "Content-Disposition") (by decide) _
  have typeCut : ∀ value, Text.cut ':' (text "Content-Type: " ++ value) =
      (text "Content-Type", some (' ' :: value)) :=
    fun _ => @Text.cut_append_cons ':' (text "Content-Type") (by decide) _
  have dispositionName : Bridge.toLowerCase (Text.trim (text "Content-Disposition")) =
      text "content-disposition" := by decide
  have typeName : Bridge.toLowerCase (Text.trim (text "Content-Type")) =
      text "content-type" := by decide
  unfold parsePartHeaders
  rw [part.splitLineEnds_headerSection, FormPart.lines]
  cases part.contentType with
  | none =>
      simp only [Option.map_none, Option.toList_none, List.foldl_cons, List.foldl_nil,
        dispositionCut, dispositionName, trim_blank, trim_disposition]
      exact ⟨rfl, rfl⟩
  | some type =>
      simp only [Option.map_some, Option.toList_some, List.foldl_cons, List.foldl_nil,
        dispositionCut, dispositionName, typeCut, typeName, trim_blank, trim_disposition]
      exact ⟨rfl, rfl⟩

end Multipart
end HttpNative
