import HttpNative.Middleware.FormHeaders

/-!
# Forms as they are sent

Parsed back, a form comes out with every file and its octets, and with the value of every
text field that was sent last under its name, as long as no content has the boundary with
its dashes in it.
-/

namespace HttpNative
namespace Multipart

open MessageHead (lineEnd)

/-! ## One part -/

theorem encode_append
    (left right : Text) :
    Utf8.encode (left ++ right) = Utf8.encode left ++ Utf8.encode right :=
  List.flatMap_append

/-- The header lines with the line ends behind them. -/
theorem encoded_lines
    (part : FormPart) :
    (part.lines.map Utf8.encode).flatMap (· ++ lineEnd) =
      Utf8.encode part.headerSection ++ lineEnd := by
  have ends : ∀ rest, Utf8.encode ('\r' :: '\n' :: rest) = lineEnd ++ Utf8.encode rest :=
    fun rest => rfl
  unfold FormPart.lines FormPart.headerSection
  cases part.contentType with
  | none => simp
  | some type => simp [encode_append, ends]

theorem return_notMem_encode
    {input : Text}
    (noReturn : '\r' ∉ input) :
    13 ∉ Utf8.encode input := by
  intro member
  obtain ⟨char, inInput, code⟩ := (Utf8.mem_encode_iff (by decide)).mp member
  have same : char = '\r' := by
    apply Char.ext
    apply UInt32.toNat_inj.mp
    exact code
  exact noReturn (same ▸ inInput)

theorem clean_lines
    (part : FormPart) :
    ∀ row ∈ part.lines.map Utf8.encode, 13 ∉ row ∧ row ≠ [] := by
  intro row member
  obtain ⟨line, isLine, rfl⟩ := List.mem_map.mp member
  rcases List.mem_cons.mp isLine with rfl | isType
  · exact ⟨return_notMem_encode part.noReturn_dispositionLine, List.cons_ne_nil _ _⟩
  · rw [Option.mem_toList] at isType
    obtain ⟨type, -, rfl⟩ := Option.map_eq_some_iff.mp isType
    exact ⟨return_notMem_encode (FormPart.noReturn_typeLine type), List.cons_ne_nil _ _⟩

/-- The header of a part ends where its lines do. -/
theorem find_headerEnd
    (part : FormPart)
    (rest : Octets) :
    Octets.find (lineEnd ++ lineEnd)
        ((part.lines.map Utf8.encode).flatMap (· ++ lineEnd) ++ (lineEnd ++ rest)) =
      some (Utf8.encode part.headerSection).length := by
  obtain ⟨position, found, length⟩ :=
    MessageHead.find_emptyLine (clean_lines part) (by simp [FormPart.lines]) rest
  rw [found, Option.some_inj]
  rw [encoded_lines, List.length_append] at length
  exact Nat.add_right_cancel length

theorem return_notMem_delimiterOf
    (boundary : Boundary) :
    13 ∉ delimiterOf boundary.chars := by
  apply return_notMem_encode
  have notDashes : '\r' ∉ text "--" := by decide
  have notLegal : '\r' ∉ boundaryChars := by decide
  rw [List.mem_append, not_or]
  exact ⟨notDashes, fun member => notLegal (boundary.legal _ member)⟩

/-- The content of a part ends where the next boundary stands. -/
theorem find_nextBoundary
    {boundary : Boundary} {content : Octets}
    (told : ¬ delimiterOf boundary.chars <:+: content)
    (rest : Octets) :
    Octets.find (delimiterOf boundary.chars)
        (content ++ (lineEnd ++ (delimiterOf boundary.chars ++ rest))) =
      some (content.length + 2) := by
  have begins : delimiterOf boundary.chars = 45 :: 45 :: Utf8.encode boundary.chars := rfl
  have behindEnd : Octets.find (delimiterOf boundary.chars)
      (lineEnd ++ (delimiterOf boundary.chars ++ rest)) = some 2 := by
    have found := Octets.find_of_isPrefixOf (List.prefix_append (delimiterOf boundary.chars) rest)
      (by rw [begins]; exact List.cons_ne_nil _ _)
    rw [begins] at found ⊢
    rw [Octets.find_append_of_head_notMem (by decide), found]
    rfl
  refine (Octets.find_append_of_notInfix told (return_notMem_delimiterOf boundary) _).trans ?_
  refine (congrArg _ behindEnd).trans ?_
  rw [Option.map_some, Nat.add_comm]

/-! ## All parts -/

/-- What a part that is sent adds to the form. -/
def FormPart.addTo (form : ParsedForm) (part : FormPart) : ParsedForm where
  fields :=
    match part.textField with
    | some named => form.fields.set named.1 named.2
    | none => form.fields
  files := form.files ++ part.sentFile.toList

theorem addPart_sent
    {boundary : Boundary} {limits : Limits} {form : ParsedForm} {part : FormPart}
    (told : part.ToldApart boundary)
    (room : form.files.length + part.sentFile.toList.length ≤ limits.maxFiles)
    (fits : part.FitsIn limits) :
    addPart limits form (parsePartHeaders part.headerSection) part.content =
      .ok (part.addTo form) := by
  obtain ⟨disposition, type⟩ := parsePartHeaders_headerSection part
  unfold addPart
  rw [disposition, Option.getD_some]
  cases part with
  | field name value contentType =>
      have small : ¬ (Utf8.encode value).length > limits.maxFieldSize := Nat.not_lt.mpr fits
      rw [parse_field_disposition]
      by_cases nameless : name = []
      · simp [nameless, FormPart.addTo, FormPart.textField, FormPart.sentFile]
      · simp [nameless, FormPart.addTo, FormPart.textField, FormPart.sentFile, FormPart.content,
          small, Utf8.decodeLossy_encode]
  | file name filename contentType content =>
      obtain ⟨-, named, plain⟩ := told
      have some_room : ¬ form.files.length ≥ limits.maxFiles := Nat.not_le.mpr room
      have small : ¬ content.length > limits.maxFileSize := Nat.not_lt.mpr fits
      rw [parse_file_disposition named plain, type]
      simp [FormPart.addTo, FormPart.textField, FormPart.sentFile, FormPart.content,
        FormPart.contentType, some_room, small]

/-- What stands behind the first boundary of a form. -/
def behindBoundary (boundary : Boundary) (parts : List FormPart) : Octets :=
  (encodeForm boundary parts).drop (delimiterOf boundary.chars).length

theorem encodeForm_eq
    (boundary : Boundary)
    (parts : List FormPart) :
    encodeForm boundary parts = delimiterOf boundary.chars ++ behindBoundary boundary parts := by
  unfold behindBoundary
  cases parts <;> rw [encodeForm, List.drop_left]

theorem behindBoundary_nil
    (boundary : Boundary) :
    behindBoundary boundary [] = octets "--" ++ lineEnd :=
  List.drop_left

theorem behindBoundary_cons
    (boundary : Boundary)
    (part : FormPart)
    (rest : List FormPart) :
    behindBoundary boundary (part :: rest) =
      lineEnd ++ ((part.lines.map Utf8.encode).flatMap (· ++ lineEnd) ++
        (lineEnd ++ (part.content ++ (lineEnd ++
          (delimiterOf boundary.chars ++ behindBoundary boundary rest))))) := by
  rw [← encodeForm_eq]
  exact List.drop_left

/-- One round of the loop takes one part. -/
theorem parseParts_cons
    {boundary : Boundary} {limits : Limits} {form : ParsedForm} {part : FormPart}
    (told : part.ToldApart boundary)
    (room : form.files.length + part.sentFile.toList.length ≤ limits.maxFiles)
    (fits : part.FitsIn limits)
    (rest : List FormPart)
    (fuel : Nat) :
    parseParts (delimiterOf boundary.chars) limits (fuel + 1) form
        (behindBoundary boundary (part :: rest)) =
      parseParts (delimiterOf boundary.chars) limits fuel (part.addTo form)
        (behindBoundary boundary rest) := by
  have toldContent : ¬ delimiterOf boundary.chars <:+: part.content := by
    cases part with
    | field name value contentType => exact told
    | file name filename contentType content => exact told.1
  have notDone : ∀ behind : Octets, (octets "--").isPrefixOf
      ((part.lines.map Utf8.encode).flatMap (· ++ lineEnd) ++ behind) = false :=
    fun behind => rfl
  have skipped : ∀ behind : Octets, (lineEnd ++ behind).drop 2 = behind := fun behind => rfl
  have isEnd : ∀ behind : Octets, lineEnd.isPrefixOf (lineEnd ++ behind) = true := fun behind => rfl
  rw [behindBoundary_cons, parseParts, if_neg (by simp [lineEnd])]
  simp only [isEnd, if_true, skipped, notDone, Bool.false_eq_true, if_false, find_headerEnd]
  have header : ∀ behind : Octets,
      ((part.lines.map Utf8.encode).flatMap (· ++ lineEnd) ++ (lineEnd ++ behind)).take
        (Utf8.encode part.headerSection).length = Utf8.encode part.headerSection := by
    intro behind
    rw [encoded_lines, List.append_assoc, List.take_left]
  have content : ∀ behind : Octets,
      ((part.lines.map Utf8.encode).flatMap (· ++ lineEnd) ++ (lineEnd ++ behind)).drop
        ((Utf8.encode part.headerSection).length + 4) = behind := by
    intro behind
    rw [encoded_lines, List.append_assoc, ← List.drop_drop, List.drop_left]
    rfl
  have cut : (part.content ++ (lineEnd ++ (delimiterOf boundary.chars ++
      behindBoundary boundary rest))).take (part.content.length + 2 - 2) = part.content := by
    rw [Nat.add_sub_cancel, List.take_left]
  have others : (part.content ++ (lineEnd ++ (delimiterOf boundary.chars ++
      behindBoundary boundary rest))).drop
        (part.content.length + 2 + (delimiterOf boundary.chars).length) =
      behindBoundary boundary rest := by
    rw [← List.drop_drop, ← List.drop_drop, List.drop_left, skipped, List.drop_left]
  simp only [header, content, find_nextBoundary toldContent, cut, others, Utf8.decodeLossy_encode,
    addPart_sent told room fits]
  rfl

/-- The loop takes the parts one by one. -/
theorem parseParts_all
    {boundary : Boundary} {limits : Limits} {parts : List FormPart}
    (told : ∀ part ∈ parts, part.ToldApart boundary)
    (fits : ∀ part ∈ parts, part.FitsIn limits)
    {form : ParsedForm}
    (room : form.files.length + (parts.filterMap FormPart.sentFile).length ≤ limits.maxFiles)
    {fuel : Nat}
    (enough : parts.length < fuel) :
    parseParts (delimiterOf boundary.chars) limits fuel form (behindBoundary boundary parts) =
      .ok (parts.foldl FormPart.addTo form) := by
  induction parts generalizing form fuel with
  | nil =>
      obtain ⟨fuel, rfl⟩ := Nat.exists_eq_succ_of_ne_zero (Nat.ne_of_gt enough)
      rw [behindBoundary_nil]
      rfl
  | cons part rest hypothesis =>
      obtain ⟨fuel, rfl⟩ := Nat.exists_eq_succ_of_ne_zero (Nat.ne_of_gt (Nat.zero_lt_of_lt enough))
      have files : ((part :: rest).filterMap FormPart.sentFile).length =
          part.sentFile.toList.length + (rest.filterMap FormPart.sentFile).length := by
        rw [List.filterMap_cons]
        cases part.sentFile with
        | none => simp
        | some file => simp [Nat.add_comm]
      have added : (part.addTo form).files.length =
          form.files.length + part.sentFile.toList.length := by
        simp [FormPart.addTo]
      rw [parseParts_cons (told part List.mem_cons_self) (by omega)
        (fits part List.mem_cons_self)]
      exact hypothesis (fun other member => told other (List.mem_cons_of_mem _ member))
        (fun other member => fits other (List.mem_cons_of_mem _ member)) (by omega)
        (Nat.lt_of_succ_lt_succ enough)

theorem length_lt_behindBoundary
    (boundary : Boundary)
    (parts : List FormPart) :
    parts.length < (behindBoundary boundary parts).length := by
  induction parts with
  | nil =>
      rw [behindBoundary_nil]
      decide
  | cons part rest hypothesis =>
      rw [behindBoundary_cons]
      simp only [List.length_append, List.length_cons, lineEnd]
      omega

/-! ## The form that comes out -/

theorem files_foldl_addTo
    (parts : List FormPart)
    (form : ParsedForm) :
    (parts.foldl FormPart.addTo form).files =
      form.files ++ parts.filterMap FormPart.sentFile := by
  induction parts generalizing form with
  | nil => simp
  | cons part rest hypothesis =>
      rw [List.foldl_cons, hypothesis, List.filterMap_cons, FormPart.addTo]
      cases part.sentFile with
      | none => simp
      | some file => simp

theorem fields_foldl_addTo
    (parts : List FormPart)
    (form : ParsedForm) :
    (parts.foldl FormPart.addTo form).fields =
      (parts.filterMap FormPart.textField).foldl
        (fun fields named => fields.set named.1 named.2) form.fields := by
  induction parts generalizing form with
  | nil => rfl
  | cons part rest hypothesis =>
      rw [List.foldl_cons, hypothesis, List.filterMap_cons, FormPart.addTo]
      cases part.textField with
      | none => rfl
      | some named => rfl

/-- A form that is sent comes out with every file as it was and, under every name, the
value of the last text field that has it. -/
theorem parseMultipartBody_encodeForm
    {boundary : Boundary} {limits : Limits} {parts : List FormPart}
    (told : ∀ part ∈ parts, part.ToldApart boundary)
    (admits : Admits limits parts) :
    ∃ form, parseMultipartBody (encodeForm boundary parts) boundary.chars limits = .ok form ∧
      form.files = parts.filterMap FormPart.sentFile ∧
      ∀ name, form.fields.get name = lastValue parts name := by
  have starts : Octets.find (delimiterOf boundary.chars) (encodeForm boundary parts) = some 0 := by
    rw [encodeForm_eq]
    exact Octets.find_of_isPrefixOf (List.prefix_append _ _) (List.cons_ne_nil _ _)
  have parsed := @parseParts_all boundary limits parts told admits.sizes ⟨[], []⟩
    (by simpa using admits.files) _ (length_lt_behindBoundary boundary parts)
  refine ⟨parts.foldl FormPart.addTo ⟨[], []⟩, ?_, ?_, ?_⟩
  · unfold parseMultipartBody
    rw [starts]
    dsimp only
    rw [Nat.zero_add]
    exact parsed
  · rw [files_foldl_addTo, List.nil_append]
  · intro name
    rw [fields_foldl_addTo, Dictionary.get_foldl_set Prod.fst fun named : Text × Text => named.2]
    unfold lastValue
    cases ((parts.filterMap FormPart.textField).filter fun field => field.1 = name).getLast? with
    | none => rfl
    | some named => rfl

def shortBoundary : Boundary where
  chars := text "X"
  legal := by decide
  bounds := by decide
  noBlank := by decide

def roomyLimits : Limits where
  maxFileSize := 100
  maxFiles := 5
  maxFieldSize := 100

def plainType : ContentType where
  value := text "text/plain"
  noReturn := by decide
  noFeed := by decide

/-- The content of the file almost has the boundary in it. -/
def uploadParts : List FormPart :=
  [.field (text "a") (text "1") none,
    .file (text "f") (text "x y.txt") (some plainType) (octets "\r\n-X\r\n\r\n"),
    .field (text "a") (text "") none]

theorem parseMultipartBody_encodeForm_upload :
    ∃ form,
      parseMultipartBody (encodeForm shortBoundary uploadParts) (text "X") roomyLimits = .ok form ∧
        form.files = uploadParts.filterMap FormPart.sentFile ∧
        ∀ name, form.fields.get name = lastValue uploadParts name :=
  parseMultipartBody_encodeForm
    (by
      have noDashes : ¬ delimiterOf shortBoundary.chars <:+: octets "\r\n-X\r\n\r\n" := by
        decide +kernel
      intro part member
      simp only [uploadParts, List.mem_cons, List.not_mem_nil, or_false] at member
      rcases member with rfl | rfl | rfl
      · exact (by decide : ¬ delimiterOf shortBoundary.chars <:+: Utf8.encode (text "1"))
      · refine ⟨noDashes, by decide, ?_⟩
        rintro ⟨front, same, -⟩
        have short : (escapeName (text "f")).length = 1 := by decide
        have long : (text "filename=").length = 9 := by decide
        rw [same, List.length_append] at short
        omega
      · exact (by decide : ¬ delimiterOf shortBoundary.chars <:+: Utf8.encode (text "")))
    ⟨by decide, by
      intro part member
      simp only [uploadParts, List.mem_cons, List.not_mem_nil, or_false] at member
      rcases member with rfl | rfl | rfl
      · exact (by decide : (Utf8.encode (text "1")).length ≤ 100)
      · exact (by decide : (octets "\r\n-X\r\n\r\n").length ≤ 100)
      · exact (by decide : (Utf8.encode (text "")).length ≤ 100)⟩

/-- Of two fields of a name the last is left and escaped names stay escaped; an empty file
name makes a field of a file, and a boundary with its dashes ends a content anywhere. -/
theorem not_every_part_returned :
    parseMultipartBody
        (encodeForm shortBoundary
          [.field (text "a") (text "1") none, .field (text "a") (text "2") none])
        (text "X") roomyLimits = .ok ⟨[(text "a", text "2")], []⟩ ∧
      parseMultipartBody (encodeForm shortBoundary [.field (text "a\"") (text "1") none])
        (text "X") roomyLimits = .ok ⟨[(text "a%22", text "1")], []⟩ ∧
      parseMultipartBody (encodeForm shortBoundary [.field (text "") (text "1") none])
        (text "X") roomyLimits = .ok ⟨[], []⟩ ∧
      parseMultipartBody (encodeForm shortBoundary [.file (text "f") (text "") none []])
        (text "X") roomyLimits = .ok ⟨[(text "f", [])], []⟩ ∧
      parseMultipartBody (encodeForm shortBoundary [.field (text "a") (text "1  --X") none])
        (text "X") roomyLimits = .ok ⟨[(text "a", text "1")], []⟩ ∧
      parseMultipartBody
        (encodeForm shortBoundary [.file (text "filename=") (text "x") none []])
        (text "X") roomyLimits =
          .ok ⟨[], [⟨text "; filename=", some (text "filename="), text "application/octet-stream",
            0, []⟩]⟩ := by
  decide

end Multipart
end HttpNative
