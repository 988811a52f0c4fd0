import HttpNative.Library.WeightedLists
import HttpNative.Parser.HotRoot

/-!
# Accepted codings

The coding that a parser of heads chooses for a request is one that its
`Accept-Encoding` field lists with a weight that is not zero. Both parsers are
looked at: the one on top of the HTTP parser and the hot path for `GET /`.
-/

namespace HttpNative
namespace Parser

open WeightedList

/-- The name of a coding in a field. -/
def AcceptedEncoding.coding : AcceptedEncoding → Octets
  | .identity => octets "identity"
  | .gzip => octets "gzip"
  | .brotli => octets "br"

/-- Where a parsed request comes from. -/
inductive RequestSource where
  | head (raw : RawRequest)
  | hotRoot (config : HotConfig) (bytes : Octets)

/-- The lines that `scanLines` goes over. -/
def headLines : Nat → Octets → List Octets
  | 0, _ => []
  | fuel + 1, remaining =>
      if remaining.length < 4 then
        []
      else
        match Octets.find lineEnd remaining with
        | none => []
        | some nextEnd =>
            if nextEnd = 0 then []
            else remaining.take nextEnd :: headLines fuel (remaining.drop (nextEnd + 2))

/-- The lines of a head behind its first one. -/
def hotLines (bytes : Octets) : List Octets :=
  match findHeaderEnd bytes, bytes.findIdx? (· = 10) with
  | some headerEnd, some newline =>
      headLines bytes.length ((bytes.take (headerEnd + 2)).drop (newline + 1))
  | _, _ => []

namespace RequestSource

def parsed : RequestSource → Option ParsedRequest
  | head raw => parseRawRequest raw
  | hotRoot config bytes => parseHotRootRequest config bytes

/-- The values of the `Accept-Encoding` fields. -/
def acceptEncodings : RequestSource → List Octets
  | head raw => (raw.headers.filter (·.isNamed "accept-encoding")).map (·.value)
  | hotRoot _ bytes =>
      ((hotLines bytes).filter fun line =>
        Octets.eqIgnoreAsciiCase (line.take 16) (octets "accept-encoding:")).map fun line =>
          Octets.trimAscii (line.drop 16)

/-- A field of the request lists the coding with a weight that is not zero. -/
def Accepts (source : RequestSource) (coding : Octets) : Prop :=
  ∃ value ∈ source.acceptEncodings, Lists value coding

end RequestSource

/-! ## One field -/

/-- A parameter that is not taken as a rejection has not the weight zero. -/
theorem parameterWeight_ne_zero
    {segment : Octets}
    (kept : rejectsEncoding segment = false) :
    parameterWeight segment ≠ some 0 := by
  intro zero
  obtain ⟨letter, weight, trimmed, named, written⟩ := parameterWeight_eq_zero zero
  have same : (Octets.lower letter == 113) = true := beq_iff_eq.mpr named
  rw [rejectsEncoding, trimmed] at kept
  simp only [same, beq_self_eq_true, Bool.true_and, List.contains_iff_mem.mpr written] at kept
  exact Bool.false_ne_true kept.symm

/-- What is chosen behind an element was chosen before or is offered by it. -/
theorem offers_of_addEncoding
    (best : AcceptedEncoding)
    (part : Octets) :
    addEncoding best part = best ∨ Offers part (addEncoding best part).coding := by
  unfold addEncoding
  dsimp only
  split
  · exact .inl rfl
  · rename_i kept
    have weights : ∀ parameter ∈ (parts part).tail, parameterWeight parameter ≠ some 0 := by
      intro parameter member
      refine parameterWeight_ne_zero ?_
      rw [List.any_eq_true, not_exists] at kept
      exact Bool.eq_false_iff.mpr fun rejected => kept parameter ⟨member, rejected⟩
    split
    · rename_i named
      exact .inr ⟨named, weights⟩
    · split
      · rename_i named
        exact .inr ⟨named.1, weights⟩
      · exact .inl rfl

/-- What the parser chooses is listed with a weight that is not zero. -/
theorem lists_of_parseAcceptEncoding
    {value : Octets}
    (chosen : parseAcceptEncoding value ≠ .identity) :
    Lists value (parseAcceptEncoding value).coding := by
  have folded : ∀ (elements : List Octets) (best : AcceptedEncoding),
      elements.foldl addEncoding best = best ∨
        ∃ element ∈ elements, Offers element (elements.foldl addEncoding best).coding := by
    intro elements
    induction elements with
    | nil => exact fun _ => .inl rfl
    | cons element rest hypothesis =>
        intro best
        rw [List.foldl_cons]
        rcases hypothesis (addEncoding best element) with same | ⟨other, member, offers⟩
        · rw [same]
          rcases offers_of_addEncoding best element with kept | offers
          · exact .inl kept
          · exact .inr ⟨element, List.mem_cons_self, offers⟩
        · exact .inr ⟨other, List.mem_cons_of_mem _ member, offers⟩
  exact (folded (value.splitOn 44) .identity).resolve_left chosen

/-! ## All fields -/

/-- Behind a field, the coding is the one from before or one that the field lists. -/
theorem acceptedEncoding_of_parseHeader
    {request next : ParsedRequest} {header : RawHeader}
    (parsed : parseHeader request header = some next) :
    next.acceptedEncoding = request.acceptedEncoding ∨
      (header.isNamed "accept-encoding" = true ∧
        next.acceptedEncoding = parseAcceptEncoding header.value) := by
  unfold parseHeader at parsed
  split at parsed
  · cases parsed
  · split at parsed
    · cases parsed
      exact .inl rfl
    · cases parsed
      unfold recordHeader
      dsimp only
      split
      · rename_i named
        exact .inr ⟨named.2, rfl⟩
      · exact .inl rfl

theorem accepts_of_foldlM
    {headers : List RawHeader} {request parsed : ParsedRequest}
    (folded : headers.foldlM parseHeader request = some parsed)
    (chosen : parsed.acceptedEncoding ≠ .identity) :
    request.acceptedEncoding = parsed.acceptedEncoding ∨
      ∃ header ∈ headers, header.isNamed "accept-encoding" = true ∧
        Lists header.value parsed.acceptedEncoding.coding := by
  induction headers generalizing request with
  | nil =>
      cases folded
      exact .inl rfl
  | cons header rest hypothesis =>
      rw [List.foldlM_cons] at folded
      obtain ⟨next, first, others⟩ := Option.bind_eq_some_iff.mp folded
      rcases hypothesis others with same | ⟨other, member, listed⟩
      · rcases acceptedEncoding_of_parseHeader first with kept | ⟨named, value⟩
        · exact .inl (kept.symm.trans same)
        · refine .inr ⟨header, List.mem_cons_self, named, ?_⟩
          rw [← same, value] at chosen ⊢
          exact lists_of_parseAcceptEncoding chosen
      · exact .inr ⟨other, List.mem_cons_of_mem _ member, listed⟩

/-! ## The hot path -/

theorem scanLines_eq
    {config : HotConfig} {fuel : Nat} {request parsed : ParsedRequest} {remaining : Octets}
    (scanned : scanLines config fuel request remaining = some parsed) :
    parsed = (headLines fuel remaining).foldl (scanLine config) request := by
  induction fuel generalizing request remaining with
  | zero =>
      cases scanned
      rfl
  | succ fuel hypothesis =>
      rw [scanLines] at scanned
      rw [headLines]
      split at scanned
      · rename_i short
        cases scanned
        rw [if_pos short]
        rfl
      · rename_i long
        rw [if_neg long]
        cases found : lineEnd.find remaining with
        | none =>
            rw [found] at scanned
            cases scanned
        | some nextEnd =>
            rw [found] at scanned
            dsimp only at scanned ⊢
            split at scanned
            · rename_i atEnd
              cases scanned
              rw [if_pos atEnd]
              rfl
            · rename_i inside
              rw [if_neg inside, List.foldl_cons]
              exact hypothesis scanned

/-- Behind a line, the coding is the one from before or one that the line lists. -/
theorem acceptedEncoding_of_scanLine
    (config : HotConfig)
    (request : ParsedRequest)
    (line : Octets) :
    (scanLine config request line).acceptedEncoding = request.acceptedEncoding ∨
      (Octets.eqIgnoreAsciiCase (line.take 16) (octets "accept-encoding:") = true ∧
        (scanLine config request line).acceptedEncoding =
          parseAcceptEncoding (Octets.trimAscii (line.drop 16))) := by
  unfold scanLine
  split
  · exact .inl rfl
  split
  · exact .inl rfl
  split
  · exact .inl rfl
  split
  · rename_i named
    exact .inr ⟨named.2.2, rfl⟩
  · exact .inl rfl

theorem accepts_of_foldl
    (config : HotConfig)
    (lines : List Octets)
    (request : ParsedRequest)
    (chosen : (lines.foldl (scanLine config) request).acceptedEncoding ≠ .identity) :
    request.acceptedEncoding = (lines.foldl (scanLine config) request).acceptedEncoding ∨
      ∃ line ∈ lines,
        Octets.eqIgnoreAsciiCase (line.take 16) (octets "accept-encoding:") = true ∧
          Lists (Octets.trimAscii (line.drop 16))
            (lines.foldl (scanLine config) request).acceptedEncoding.coding := by
  induction lines generalizing request with
  | nil => exact .inl rfl
  | cons line rest hypothesis =>
      rw [List.foldl_cons] at chosen ⊢
      rcases hypothesis _ chosen with same | ⟨other, member, listed⟩
      · rcases acceptedEncoding_of_scanLine config request line with kept | ⟨named, value⟩
        · exact .inl (kept.symm.trans same)
        · refine .inr ⟨line, List.mem_cons_self, named, ?_⟩
          rw [← same, value] at chosen ⊢
          exact lists_of_parseAcceptEncoding chosen
      · exact .inr ⟨other, List.mem_cons_of_mem _ member, listed⟩

/-- A request is parsed with a coding that it accepts. -/
theorem accepts_of_parsed
    {source : RequestSource} {parsed : ParsedRequest}
    (read : source.parsed = some parsed)
    (chosen : parsed.acceptedEncoding ≠ .identity) :
    source.Accepts parsed.acceptedEncoding.coding := by
  cases source with
  | head raw =>
      change parseRawRequest raw = some parsed at read
      rw [parseRawRequest] at read
      split at read
      · cases read
      · rcases accepts_of_foldlM read chosen with same | ⟨header, member, named, listed⟩
        · exact absurd same.symm chosen
        · exact ⟨header.value, List.mem_map.mpr
            ⟨header, List.mem_filter.mpr ⟨member, named⟩, rfl⟩, listed⟩
  | hotRoot config bytes =>
      obtain ⟨keepAlive, -, rest⟩ := Option.bind_eq_some_iff.mp read
      obtain ⟨headerEnd, foundEnd, rest⟩ := Option.bind_eq_some_iff.mp rest
      obtain ⟨newline, foundLine, scanned⟩ := Option.bind_eq_some_iff.mp rest
      have same := scanLines_eq scanned
      have lines : hotLines bytes =
          headLines bytes.length ((bytes.take (headerEnd + 2)).drop (newline + 1)) := by
        rw [hotLines, foundEnd, foundLine]
      rw [← lines] at same
      subst same
      rcases accepts_of_foldl config (hotLines bytes) _ chosen with same | ⟨line, member, named, listed⟩
      · exact absurd same.symm chosen
      · exact ⟨_, List.mem_map.mpr ⟨line, List.mem_filter.mpr ⟨member, named⟩, rfl⟩, listed⟩

end Parser
end HttpNative
