import HttpNative.Parser.HotRootAgreement

/-!
# Request heads in a stream

The heads of requests with any method and target, as they are written. Both
scanners read such a head whatever follows it, and read nothing of a head that
is not complete.
-/

namespace HttpNative
namespace Parser

/-- A printable ASCII octet. -/
def isVisibleOctet (octet : UInt8) : Bool :=
  33 ≤ octet.toNat && octet.toNat ≤ 126

structure RequestLine where
  method : Octets
  target : Octets
  /-- The minor version. -/
  minor : Nat
  methodNamed : method ≠ []
  methodToken : ∀ octet ∈ method, isTokenOctet octet = true
  targetNamed : target ≠ []
  targetVisible : ∀ octet ∈ target, isVisibleOctet octet = true
  known : minor ≤ 1

def versionOctets (minor : Nat) : Octets :=
  octets "HTTP/1." ++ [48 + UInt8.ofNat minor]

namespace RequestLine

/-- The line without its end. -/
def spelling (line : RequestLine) : Octets :=
  line.method ++ 32 :: (line.target ++ 32 :: versionOctets line.minor)

end RequestLine

/-- A request line and field lines. -/
structure RequestHead where
  line : RequestLine
  fields : List FieldLine

namespace RequestHead

/-- The head as it is sent, with its closing empty line. -/
def octets (head : RequestHead) : Octets :=
  head.line.spelling ++ (lineEnd ++ (fieldBlock head.fields ++ lineEnd))

/-- What a head holds; nothing when it has too many fields. -/
def raw (head : RequestHead) : Option RawRequest :=
  if few : (head.fields.map FieldLine.header).length ≤ maxHeaderCount then
    some {
      method := head.line.method
      target := head.line.target
      version := head.line.minor
      headers := head.fields.map FieldLine.header
      headerLength := head.octets.length
      fewHeaders := few }
  else
    none

end RequestHead

/-- What is relied on of the HTTP parser: a well-formed head is complete at its
empty line, whatever follows it, and yields its fields unless there are more
than 64; a head that has not arrived whole is not complete. -/
structure HttparseReadsHeads (httparse : Octets → Option RawRequest) : Prop where
  complete : ∀ (head : RequestHead) (rest : Octets), httparse (head.octets ++ rest) = head.raw
  incomplete : ∀ (head : RequestHead) (before : Octets),
    before <+: head.octets → before ≠ head.octets → httparse before = none

/-! ## The octets of a head -/

theorem versionOctets_cases
    {minor : Nat}
    (known : minor ≤ 1) :
    versionOctets minor = HttpNative.octets "HTTP/1.0" ∨
      versionOctets minor = HttpNative.octets "HTTP/1.1" := by
  have cases_ : minor = 0 ∨ minor = 1 := by omega
  rcases cases_ with rfl | rfl
  · exact .inl (by decide)
  · exact .inr (by decide)

theorem toNat_of_mem_versionOctets
    {minor : Nat} {octet : UInt8}
    (known : minor ≤ 1)
    (member : octet ∈ versionOctets minor) :
    33 ≤ octet.toNat := by
  have visible : ∀ octet ∈ HttpNative.octets "HTTP/1.0" ++ HttpNative.octets "HTTP/1.1",
      33 ≤ octet.toNat := by
    decide
  apply visible octet
  rcases versionOctets_cases known with spelled | spelled
  · exact List.mem_append.mpr (.inl (spelled ▸ member))
  · exact List.mem_append.mpr (.inr (spelled ▸ member))

theorem toNat_of_isTokenOctet
    {octet : UInt8}
    (token : isTokenOctet octet = true) :
    33 ≤ octet.toNat := by
  simp only [isTokenOctet, Bool.or_eq_true, Bool.and_eq_true, decide_eq_true_eq,
    List.contains_eq_mem, List.mem_cons, List.not_mem_nil, or_false] at token
  omega

theorem toNat_of_isVisibleOctet
    {octet : UInt8}
    (visible : isVisibleOctet octet = true) :
    33 ≤ octet.toNat := by
  simp only [isVisibleOctet, Bool.and_eq_true, decide_eq_true_eq] at visible
  exact visible.1

/-- Octets without blanks and control characters. -/
theorem ne_of_toNat_le
    {row : Octets} {octet : UInt8}
    (visible : ∀ other ∈ row, 33 ≤ other.toNat)
    (low : octet.toNat < 33) :
    octet ∉ row := by
  intro member
  have high := visible octet member
  omega

namespace RequestLine

variable (line : RequestLine)

theorem method_visible :
    ∀ octet ∈ line.method, 33 ≤ octet.toNat :=
  fun octet member => toNat_of_isTokenOctet (line.methodToken octet member)

theorem target_visible :
    ∀ octet ∈ line.target, 33 ≤ octet.toNat :=
  fun octet member => toNat_of_isVisibleOctet (line.targetVisible octet member)

/-- No octet below the space stands in the line. -/
theorem notMem_spelling
    {octet : UInt8}
    (low : octet.toNat < 32) :
    octet ∉ line.spelling := by
  intro member
  have space : octet ≠ 32 := by
    rintro rfl
    exact absurd low (by decide)
  rcases List.mem_append.mp member with inMethod | others
  · exact ne_of_toNat_le line.method_visible (by omega) inMethod
  · rcases List.mem_append.mp ((List.mem_cons.mp others).resolve_left space) with
      inTarget | behind
    · exact ne_of_toNat_le line.target_visible (by omega) inTarget
    · have inVersion := (List.mem_cons.mp behind).resolve_left space
      have high := toNat_of_mem_versionOctets line.known inVersion
      omega

end RequestLine

namespace RequestHead

variable (head : RequestHead)

/-- The empty line is the first place where two line ends meet. -/
theorem findHeaderEnd_octets
    (rest : Octets) :
    findHeaderEnd (head.octets ++ rest) =
      some (head.line.spelling.length + (fieldBlock head.fields).length) := by
  have spelled : head.octets ++ rest = head.line.spelling ++
      (lineEnd ++ (fieldBlock head.fields ++ (lineEnd ++ rest))) := by
    simp [octets]
  rw [spelled]
  exact findHeaderEnd_block (head.line.notMem_spelling (by decide)) head.fields rest

theorem length_octets :
    head.octets.length = head.line.spelling.length + (fieldBlock head.fields).length + 4 := by
  simp only [octets, lineEnd, List.length_append, List.length_cons, List.length_nil]
  omega

/-- The end of a head is not seen before the head is complete. -/
theorem findHeaderEnd_of_proper
    {before : Octets}
    (within : before <+: head.octets)
    (proper : before ≠ head.octets) :
    findHeaderEnd before = none := by
  obtain ⟨missing, completed⟩ := within
  cases found : findHeaderEnd before with
  | none => rfl
  | some position =>
      have sameEnd := Octets.find_append found missing
      have bound := Octets.find_add_length_le found
      rw [completed] at sameEnd
      have whole := head.findHeaderEnd_octets []
      rw [List.append_nil, findHeaderEnd, sameEnd] at whole
      cases whole
      have lengths := congrArg List.length completed
      rw [List.length_append, head.length_octets] at lengths
      have nothing : missing = [] := by
        apply List.length_eq_zero_iff.mp
        simp only [List.length_cons, List.length_nil] at bound
        omega
      rw [nothing, List.append_nil] at completed
      exact absurd completed proper

end RequestHead

/-! ## The two scanners on a head -/

/-- The head is that of a `GET /` request. -/
def RequestLine.isGetRoot (line : RequestLine) : Prop :=
  line.method = octets "GET" ∧ line.target = octets "/"

theorem octets_of_isGetRoot
    {head : RequestHead}
    (getRoot : head.line.isGetRoot) :
    head.octets = headOctets head.line.minor head.fields := by
  have start : octets "GET / HTTP/1." =
      octets "GET" ++ 32 :: (octets "/" ++ 32 :: octets "HTTP/1.") := by
    decide
  rw [headOctets, requestLine_eq head.line.known, RequestHead.octets, RequestLine.spelling,
    getRoot.1, getRoot.2, start]
  simp [versionOctets]

/-- The word before the first space. -/
theorem takeWhile_word
    {word : Octets}
    (solid : (32 : UInt8) ∉ word)
    (rest : Octets) :
    (word ++ 32 :: rest).takeWhile (· ≠ 32) = word := by
  have kept : ∀ octet ∈ word, decide (octet ≠ 32) = true := by
    intro octet member
    rw [decide_eq_true_eq]
    rintro rfl
    exact solid member
  rw [List.takeWhile_append_of_pos kept, List.takeWhile_cons_of_neg (by simp), List.append_nil]

/-- Two rows of words begin with the same word. -/
theorem word_inj
    {word other rest others : Octets}
    (solid : (32 : UInt8) ∉ word)
    (otherSolid : (32 : UInt8) ∉ other)
    (same : word ++ 32 :: rest = other ++ 32 :: others) :
    word = other ∧ rest = others := by
  have words := congrArg (List.takeWhile (· ≠ 32)) same
  rw [takeWhile_word solid, takeWhile_word otherSolid] at words
  subst words
  have behind := List.append_cancel_left same
  cases behind
  exact ⟨rfl, rfl⟩

/-- A request line that begins like `GET /` is one. -/
theorem isGetRoot_of_isPrefix
    {line : RequestLine} {version rest : Octets}
    (starts : octets "GET / " ++ version <+: line.spelling ++ rest) :
    line.isGetRoot := by
  obtain ⟨behind, spelled⟩ := starts
  have words : octets "GET" ++ 32 :: (octets "/" ++ 32 :: (version ++ behind)) =
      line.method ++ 32 :: (line.target ++ 32 :: (versionOctets line.minor ++ rest)) := by
    have left : octets "GET / " = octets "GET" ++ 32 :: (octets "/" ++ [32]) := by decide
    rw [left] at spelled
    simpa [RequestLine.spelling] using spelled
  obtain ⟨method, others⟩ := word_inj (by decide)
    (ne_of_toNat_le line.method_visible (by decide)) words
  obtain ⟨target, _⟩ := word_inj (by decide)
    (ne_of_toNat_le line.target_visible (by decide)) others
  exact ⟨method.symm, target.symm⟩

theorem hotKeepAlive_eq_none
    {head : RequestHead}
    (other : ¬ head.line.isGetRoot)
    (rest : Octets) :
    hotKeepAlive defaultHotConfig (head.octets ++ rest) = none := by
  have spelled : head.octets ++ rest = head.line.spelling ++
      (lineEnd ++ (fieldBlock head.fields ++ lineEnd) ++ rest) := by
    simp [RequestHead.octets]
  have http11 : defaultHotConfig.hotGetRootHttp11 =
      octets "GET / " ++ octets "HTTP/1.1\r\n" := by
    decide
  have http10 : defaultHotConfig.hotGetRootHttp10 =
      octets "GET / " ++ octets "HTTP/1.0\r\n" := by
    decide
  rw [hotKeepAlive, http11, http10, spelled, if_neg, if_neg]
  · intro starts
    exact other (isGetRoot_of_isPrefix (List.isPrefixOf_iff_prefix.mp starts))
  · intro starts
    exact other (isGetRoot_of_isPrefix (List.isPrefixOf_iff_prefix.mp starts))

/-- The hot path reads a head alike whatever follows it. -/
theorem parseHotRootRequest_octets
    (head : RequestHead)
    (rest : Octets) :
    parseHotRootRequest defaultHotConfig (head.octets ++ rest) =
      parseHotRootRequest defaultHotConfig head.octets := by
  by_cases getRoot : head.line.isGetRoot
  · have alone := parseHotRootRequest_headOctets head.line.known head.fields []
    rw [List.append_nil] at alone
    rw [octets_of_isGetRoot getRoot, alone,
      parseHotRootRequest_headOctets head.line.known]
  · have alone := hotKeepAlive_eq_none getRoot []
    rw [List.append_nil] at alone
    simp [parseHotRootRequest, alone, hotKeepAlive_eq_none getRoot]

theorem headerBytes_foldl_scanLine
    (lines : List FieldLine)
    (request : ParsedRequest) :
    (lines.foldl (fun request line => scanLine defaultHotConfig request line.spelling)
      request).headerBytes = request.headerBytes := by
  induction lines generalizing request with
  | nil => rfl
  | cons line lines hypothesis =>
      have step : (scanLine defaultHotConfig request line.spelling).headerBytes =
          request.headerBytes := by
        unfold scanLine
        simp only [apply_ite ParsedRequest.headerBytes, ite_self]
      rw [List.foldl_cons, hypothesis, step]

theorem headerBytes_of_parseHotRootRequest
    {head : RequestHead} {request : ParsedRequest}
    (parsed : parseHotRootRequest defaultHotConfig head.octets = some request) :
    request.headerBytes = head.octets.length := by
  by_cases getRoot : head.line.isGetRoot
  · have alone := parseHotRootRequest_headOctets head.line.known head.fields []
    rw [List.append_nil, ← octets_of_isGetRoot getRoot, parsed] at alone
    cases alone
    exact headerBytes_foldl_scanLine head.fields _
  · have alone := hotKeepAlive_eq_none getRoot []
    rw [List.append_nil] at alone
    simp [parseHotRootRequest, alone] at parsed

/-- The full parser measures the head. -/
theorem headerBytes_of_parseRequestHttparse
    {httparse : Octets → Option RawRequest} {head : RequestHead} {request : ParsedRequest}
    (reads : HttparseReadsHeads httparse)
    (parsed : parseRequestHttparse httparse head.octets = some request) :
    request.headerBytes = head.octets.length := by
  obtain ⟨raw, complete, fields⟩ := Option.bind_eq_some_iff.mp parsed
  have alone := reads.complete head []
  rw [List.append_nil, complete] at alone
  rw [(line_of_parseRawRequest fields).2.2.2]
  unfold RequestHead.raw at alone
  split at alone
  case isTrue =>
      cases alone
      rfl
  case isFalse => cases alone

/-! ## The reader of heads -/

theorem cutLine_more
    {input line rest : Octets}
    (cut : cutLine input = some (line, rest))
    (more : Octets) :
    cutLine (input ++ more) = some (line, rest ++ more) := by
  induction input generalizing line with
  | nil => cases cut
  | cons octet input hypothesis =>
      rw [cutLine] at cut
      rw [List.cons_append, cutLine]
      split at cut
      case isTrue ends =>
          cases cut
          rw [if_pos ends]
      case isFalse within =>
          obtain ⟨⟨others, behind⟩, later, same⟩ := Option.map_eq_some_iff.mp cut
          cases same
          rw [if_neg within, hypothesis later, Option.map_some]

theorem readFields_more
    {limit : Nat} {input rest : Octets} {headers : List RawHeader}
    (read : readFields limit input = some (headers, rest))
    (more : Octets) :
    readFields limit (input ++ more) = some (headers, rest ++ more) := by
  induction limit generalizing input headers with
  | zero => cases read
  | succ limit hypothesis =>
      rw [readFields] at read ⊢
      cases cut : cutLine input with
      | none =>
          rw [cut] at read
          cases read
      | some parts =>
          obtain ⟨line, behind⟩ := parts
          rw [cut] at read
          rw [cutLine_more cut more]
          simp only at read ⊢
          split at read
          case isTrue empty =>
              cases read
              rw [if_pos empty]
          case isFalse filled =>
              rw [if_neg filled]
              cases field : readField (stripReturn line) with
              | none =>
                  rw [field] at read
                  cases read
              | some header =>
                  cases others : readFields limit behind with
                  | none =>
                      rw [field, others] at read
                      cases read
                  | some found =>
                      obtain ⟨remaining, after⟩ := found
                      rw [field, others] at read
                      cases read
                      rw [hypothesis others]

/-- A complete head is read alike whatever follows it, and lies within what was
read. -/
theorem readHead_more
    {bytes : Octets} {raw : RawRequest}
    (read : readHead bytes = some raw)
    (more : Octets) :
    readHead (bytes ++ more) = some raw ∧ raw.headerLength ≤ bytes.length := by
  unfold readHead at read ⊢
  cases cut : cutLine bytes with
  | none =>
      rw [cut] at read
      cases read
  | some parts =>
      obtain ⟨line, rest⟩ := parts
      rw [cut] at read
      rw [cutLine_more cut more]
      simp only at read ⊢
      cases words : readRequestLine (stripReturn line) with
      | none =>
          rw [words] at read
          cases read
      | some request =>
          obtain ⟨method, target, minor⟩ := request
          cases fields : readFields (maxHeaderCount + 1) rest with
          | none =>
              rw [words, fields] at read
              cases read
          | some found =>
              obtain ⟨headers, remaining⟩ := found
              rw [words, fields] at read
              rw [readFields_more fields more]
              simp only at read ⊢
              split at read
              case isTrue few =>
                  cases read
                  rw [dif_pos few]
                  refine ⟨?_, Nat.sub_le _ _⟩
                  simp only [List.length_append, Nat.add_sub_add_right]
              case isFalse => cases read

theorem readRequestLine_spelling
    (line : RequestLine) :
    readRequestLine line.spelling = some (line.method, line.target, line.minor) := by
  have words : line.spelling.splitOn 32 =
      [line.method, line.target, versionOctets line.minor] := by
    rw [RequestLine.spelling, List.splitOn_append_cons_self_of_not_mem
      (ne_of_toNat_le line.method_visible (by decide)),
      List.splitOn_append_cons_self_of_not_mem
      (ne_of_toNat_le line.target_visible (by decide)),
      List.splitOn_eq_singleton]
    intro member
    exact absurd (toNat_of_mem_versionOctets line.known member) (by decide)
  have token : line.method.all isTokenOctet = true := List.all_eq_true.mpr line.methodToken
  rw [readRequestLine, words]
  simp only [if_pos (And.intro line.methodNamed (And.intro token line.targetNamed))]
  have cases_ : line.minor = 0 ∨ line.minor = 1 := by
    have known := line.known
    omega
  rcases cases_ with minor | minor
  · rw [minor, if_neg (by decide), if_pos (by decide)]
  · rw [minor, if_pos (by decide)]

/-- More fields than the limit are not read. -/
theorem readFields_of_many
    {limit : Nat} {lines : List FieldLine}
    (many : limit ≤ lines.length)
    (rest : Octets) :
    readFields limit (fieldBlock lines ++ rest) = none := by
  induction limit generalizing lines with
  | zero => rfl
  | succ limit hypothesis =>
      cases lines with
      | nil => simp at many
      | cons line lines =>
          have notEmpty : line.spelling ≠ [] := by
            intro empty
            have long := line.two_le_length_spelling
            simp [empty] at long
          rw [fieldBlock_cons, List.append_assoc, List.append_assoc, readFields,
            cutLine_lineEnd (ten_notMem_spelling line)]
          simp only [stripReturn_append, if_neg notEmpty, readField_spelling,
            hypothesis (Nat.le_of_succ_le_succ many)]

theorem readHead_octets
    (head : RequestHead)
    (rest : Octets) :
    readHead (head.octets ++ rest) = head.raw := by
  have spelled : head.octets ++ rest = head.line.spelling ++
      (lineEnd ++ (fieldBlock head.fields ++ (lineEnd ++ rest))) := by
    simp [RequestHead.octets]
  have cut : cutLine (head.octets ++ rest) = some (head.line.spelling ++ [13],
      fieldBlock head.fields ++ (lineEnd ++ rest)) := by
    rw [spelled]
    exact cutLine_lineEnd (head.line.notMem_spelling (by decide)) _
  have consumed : (head.octets ++ rest).length - rest.length = head.octets.length := by
    rw [List.length_append, Nat.add_sub_cancel]
  unfold RequestHead.raw
  by_cases few : head.fields.length ≤ maxHeaderCount
  · have fields := readFields_fieldBlock (Nat.lt_succ_of_le few) rest
    have fewHeaders : (head.fields.map FieldLine.header).length ≤ maxHeaderCount := by
      rwa [List.length_map]
    simp only [readHead, cut, stripReturn_append, readRequestLine_spelling, fields,
      dif_pos fewHeaders, consumed]
  · have fields : readFields (maxHeaderCount + 1)
        (fieldBlock head.fields ++ (lineEnd ++ rest)) = none :=
      readFields_of_many (Nat.lt_of_not_le few) (lineEnd ++ rest)
    have many : ¬ (head.fields.map FieldLine.header).length ≤ maxHeaderCount := by
      rwa [List.length_map]
    simp only [readHead, cut, stripReturn_append, readRequestLine_spelling, fields, dif_neg many]

/-- The reader does what is relied on. -/
theorem httparseReadsHeads_readHead : HttparseReadsHeads readHead := by
  refine ⟨readHead_octets, ?_⟩
  intro head before within proper
  obtain ⟨missing, completed⟩ := within
  cases read : readHead before with
  | none => rfl
  | some raw =>
      obtain ⟨whole, bound⟩ := readHead_more read missing
      have alone := readHead_octets head []
      rw [List.append_nil, ← completed, whole] at alone
      unfold RequestHead.raw at alone
      split at alone
      case isFalse => cases alone
      case isTrue =>
          cases alone
          simp only at bound
          rw [← completed, List.length_append] at bound
          have nothing : missing = [] := by
            apply List.length_eq_zero_iff.mp
            omega
          rw [nothing, List.append_nil] at completed
          exact absurd completed proper

end Parser
end HttpNative
