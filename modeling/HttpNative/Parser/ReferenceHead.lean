import HttpNative.Parser.FieldLines

/-!
# A reader of heads

A reader that does what is relied on of the HTTP parser: lines end in LF with or
without CR, names are tokens, values hold no control characters but tabs, and a
head has at most 64 fields.
-/

namespace HttpNative
namespace Parser

/-- The first line, without its LF, and what follows it. -/
def cutLine : Octets → Option (Octets × Octets)
  | [] => none
  | octet :: rest =>
      if octet = 10 then some ([], rest)
      else (cutLine rest).map fun cut => (octet :: cut.1, cut.2)

def stripReturn (line : Octets) : Octets :=
  if line.getLast? = some 13 then line.dropLast else line

/-- A field line, cut at its colon. -/
def readField (line : Octets) : Option RawHeader :=
  let name := line.takeWhile (· ≠ 58)
  match line.dropWhile (· ≠ 58) with
  | [] => none
  | _ :: tail =>
      if named : name ≠ [] then
        if name.all isTokenOctet && tail.all isValueOctet then
          some {
            name := name
            value := Octets.trimWith isBlankOctet tail
            named := named }
        else
          none
      else
        none

/-- The field lines up to the empty line, fewer than the limit. -/
def readFields : Nat → Octets → Option (List RawHeader × Octets)
  | 0, _ => none
  | limit + 1, input =>
      match cutLine input with
      | none => none
      | some (line, rest) =>
          if stripReturn line = [] then
            some ([], rest)
          else
            match readField (stripReturn line), readFields limit rest with
            | some header, some (headers, remaining) => some (header :: headers, remaining)
            | _, _ => none

/-- Method, target and minor version. -/
def readRequestLine (line : Octets) : Option (Octets × Octets × Nat) :=
  match line.splitOn 32 with
  | [method, target, version] =>
      if method ≠ [] ∧ method.all isTokenOctet ∧ target ≠ [] then
        if version = octets "HTTP/1.1" then some (method, target, 1)
        else if version = octets "HTTP/1.0" then some (method, target, 0)
        else none
      else
        none
  | _ => none

def readHead (bytes : Octets) : Option RawRequest :=
  match cutLine bytes with
  | none => none
  | some (line, rest) =>
      match readRequestLine (stripReturn line), readFields (maxHeaderCount + 1) rest with
      | some (method, target, minor), some (headers, remaining) =>
          if few : headers.length ≤ maxHeaderCount then
            some {
              method := method
              target := target
              version := minor
              headers := headers
              headerLength := bytes.length - remaining.length
              fewHeaders := few }
          else
            none
      | _, _ => none

theorem cutLine_append
    {row : Octets}
    (absent : (10 : UInt8) ∉ row)
    (rest : Octets) :
    cutLine (row ++ 10 :: rest) = some (row, rest) := by
  induction row with
  | nil => simp [cutLine]
  | cons octet row hypothesis =>
      obtain ⟨different, absent⟩ := List.ne_and_not_mem_of_not_mem_cons absent
      rw [List.cons_append, cutLine, if_neg (Ne.symm different), hypothesis absent, Option.map_some]

/-- A line that ends in CR LF. -/
theorem cutLine_lineEnd
    {row : Octets}
    (absent : (10 : UInt8) ∉ row)
    (rest : Octets) :
    cutLine (row ++ (lineEnd ++ rest)) = some (row ++ [13], rest) := by
  rw [lineEnd, show row ++ ([13, 10] ++ rest) = (row ++ [13]) ++ 10 :: rest by simp]
  apply cutLine_append
  simp [absent]

theorem stripReturn_append
    (row : Octets) :
    stripReturn (row ++ [13]) = row := by
  simp [stripReturn]

theorem ten_notMem_spelling
    (line : FieldLine) :
    (10 : UInt8) ∉ line.spelling := by
  intro member
  exact (FieldLine.mem_spelling_bounds member).1 rfl

theorem readField_spelling
    (line : FieldLine) :
    readField line.spelling = some line.header := by
  have notColon : ∀ octet ∈ line.name, decide (octet ≠ 58) = true := by
    intro octet member
    rw [decide_eq_true_eq]
    rintro rfl
    exact (FieldLine.token_bounds (line.token 58 member)).2.2 rfl
  have name : line.spelling.takeWhile (· ≠ 58) = line.name := by
    rw [FieldLine.spelling, List.takeWhile_append_of_pos notColon,
      List.takeWhile_cons_of_neg (by simp), List.append_nil]
  have rest : line.spelling.dropWhile (· ≠ 58) = 58 :: line.tail := by
    rw [FieldLine.spelling, List.dropWhile_append_of_pos notColon,
      List.dropWhile_cons_of_neg (by simp)]
  have admitted : line.tail.all isValueOctet = true := by
    rw [List.all_eq_true]
    intro octet member
    have blank : ∀ {octet : UInt8}, isBlankOctet octet = true → isValueOctet octet = true := by
      intro octet blank
      simp only [isBlankOctet, Bool.or_eq_true, beq_iff_eq] at blank
      simp only [isValueOctet, Bool.or_eq_true, beq_iff_eq, Bool.and_eq_true, decide_eq_true_eq,
        bne_iff_ne, ne_eq]
      omega
    rw [FieldLine.tail, List.append_assoc] at member
    rcases List.mem_append.mp member with inBefore | others
    · exact blank (line.blankBefore octet inBefore)
    · rcases List.mem_append.mp others with inValue | inAfter
      · exact line.admitted octet inValue
      · exact blank (line.blankAfter octet inAfter)
  have value : Octets.trimWith isBlankOctet line.tail = line.value :=
    Octets.trimWith_append line.blankBefore line.blankAfter line.solidStart line.solidEnd
  have valid : (line.name.all isTokenOctet && line.tail.all isValueOctet) = true := by
    rw [Bool.and_eq_true]
    exact ⟨List.all_eq_true.mpr line.token, admitted⟩
  simp only [readField, name, rest, dif_pos line.named, if_pos valid, value]
  rfl

theorem readFields_fieldBlock
    {limit : Nat} {lines : List FieldLine}
    (few : lines.length < limit)
    (rest : Octets) :
    readFields limit (fieldBlock lines ++ (lineEnd ++ rest)) =
      some (lines.map FieldLine.header, rest) := by
  induction lines generalizing limit with
  | nil =>
      cases limit with
      | zero => simp at few
      | succ limit =>
          have noLine : (10 : UInt8) ∉ ([] : Octets) := by simp
          have empty : cutLine (fieldBlock [] ++ (lineEnd ++ rest)) = some ([13], rest) :=
            cutLine_lineEnd noLine rest
          rw [readFields, empty]
          rfl
  | cons line lines hypothesis =>
      cases limit with
      | zero => simp at few
      | succ limit =>
          have notEmpty : line.spelling ≠ [] := by
            intro empty
            have long := line.two_le_length_spelling
            simp [empty] at long
          have block : fieldBlock (line :: lines) = line.spelling ++ (lineEnd ++ fieldBlock lines) := by
            rw [fieldBlock, List.flatMap_cons, List.append_assoc]
            rfl
          rw [block, List.append_assoc, List.append_assoc, readFields,
            cutLine_lineEnd (ten_notMem_spelling line)]
          simp only [stripReturn_append, if_neg notEmpty, readField_spelling,
            hypothesis (Nat.lt_of_succ_lt_succ few), List.map_cons]

/-- The reader does what is relied on. -/
theorem httparseReads_readHead : HttparseReads readHead := by
  refine ⟨?_⟩
  intro minor lines rest few known
  have cut : cutLine (headOctets minor lines ++ rest) =
      some (octets "GET / HTTP/1." ++ [48 + UInt8.ofNat minor] ++ [13],
        fieldBlock lines ++ (lineEnd ++ rest)) := by
    rw [headOctets, requestLine_eq known, List.append_assoc, List.append_assoc, List.append_assoc]
    apply cutLine_lineEnd
    have cases_ : minor = 0 ∨ minor = 1 := by omega
    rcases cases_ with rfl | rfl <;> decide
  have line : readRequestLine (octets "GET / HTTP/1." ++ [48 + UInt8.ofNat minor]) =
      some (octets "GET", octets "/", minor) := by
    have cases_ : minor = 0 ∨ minor = 1 := by omega
    rcases cases_ with rfl | rfl <;> decide
  have fields : readFields (maxHeaderCount + 1) (fieldBlock lines ++ (lineEnd ++ rest)) =
      some (lines.map FieldLine.header, rest) := by
    apply readFields_fieldBlock
    rw [List.length_map] at few
    exact Nat.lt_succ_of_le few
  have consumed : (headOctets minor lines ++ rest).length - rest.length =
      (headOctets minor lines).length := by
    rw [List.length_append, Nat.add_sub_cancel]
  simp only [readHead, cut, stripReturn_append, line, fields, dif_pos few, consumed]

end Parser
end HttpNative
