import HttpNative.Library.Text

/-!
# Path prefixes of middlewares

How prefixes and route paths are normalised, when a path falls under a prefix,
and what the pattern of a route says about it: only what stands before the
first parameter of the pattern can be compared with a literal prefix.
-/

namespace HttpNative
namespace Routing

/-- The root path. -/
def root : Text := ['/']

def normalizePathPrefix (path : Text) : Text :=
  if path = root then
    root
  else
    let trimmed := path.rdropWhile (· = '/')
    if trimmed.head? = some '/' then trimmed else '/' :: trimmed

def combinePathPrefixes (basePrefix nextPrefix : Text) : Text :=
  if basePrefix = root then nextPrefix
  else if nextPrefix = root then basePrefix
  else basePrefix ++ nextPrefix

def applyGroupPrefixToRoutePath (routePath groupPrefix : Text) : Text :=
  if groupPrefix = root then routePath
  else if routePath = root then groupPrefix
  else groupPrefix ++ routePath

/-- `pathPrefixMatches` of the compiler and `path_prefix_matches` of the
analyzer. -/
def pathPrefixMatches (pathPrefix requestPath : Text) : Bool :=
  if pathPrefix = root then
    true
  else
    requestPath == pathPrefix || (pathPrefix ++ ['/']).isPrefixOf requestPath

/-- Some segment of the path is a parameter. -/
def hasParameter : Text → Bool
  | [] => false
  | char :: rest => (char == '/' && rest.head? == some ':') || hasParameter rest

/-- What a pattern spells before its first parameter, closed by a slash. -/
def literalStart : Text → Text
  | [] => ['/']
  | char :: rest =>
      if char = '/' ∧ rest.head? = some ':' then ['/'] else char :: literalStart rest

/-- A prefix of the pattern's literal start or of the request path lies within
what the two have in common. -/
def StaysShared (pathPrefix pattern requestPath : Text) : Prop :=
  (pathPrefix ++ ['/'] <+: literalStart pattern ∨ pathPrefix ++ ['/'] <+: requestPath ++ ['/']) →
    (pathPrefix ++ ['/']).length ≤
      (Text.commonStart (literalStart pattern) (requestPath ++ ['/'])).length

instance (pathPrefix pattern requestPath : Text) :
    Decidable (StaysShared pathPrefix pattern requestPath) := by
  unfold StaysShared
  infer_instance

/-! ## Prefixes and paths -/

theorem pathPrefixMatches_root
    (requestPath : Text) :
    pathPrefixMatches root requestPath = true := by
  simp [pathPrefixMatches]

/-- Away from the root a path falls under a prefix when, both closed by a
slash, it begins with it. -/
theorem pathPrefixMatches_iff
    {pathPrefix : Text}
    (notRoot : pathPrefix ≠ root)
    (requestPath : Text) :
    pathPrefixMatches pathPrefix requestPath = true ↔
      pathPrefix ++ ['/'] <+: requestPath ++ ['/'] := by
  rw [pathPrefixMatches, if_neg notRoot, Bool.or_eq_true, beq_iff_eq, List.isPrefixOf_iff_prefix,
    List.prefix_concat_iff, List.append_cancel_right_eq]
  apply or_congr_left
  exact eq_comm

theorem literalStart_isPrefix
    (pattern : Text) :
    literalStart pattern <+: pattern ++ ['/'] := by
  induction pattern with
  | nil => exact List.prefix_refl _
  | cons char rest hypothesis =>
      rw [literalStart]
      split
      · rename_i parameter
        rw [parameter.1, List.cons_append]
        exact List.cons_prefix_cons.mpr ⟨rfl, List.nil_prefix⟩
      · exact List.cons_prefix_cons.mpr ⟨rfl, hypothesis⟩

theorem slash_prefix_literalStart
    (rest : Text) :
    ['/'] <+: literalStart ('/' :: rest) := by
  rw [literalStart]
  split
  · exact List.prefix_refl _
  · exact List.cons_prefix_cons.mpr ⟨rfl, List.nil_prefix⟩

theorem not_parameter_of_literal
    {char : Char} {rest : Text}
    (literal : hasParameter (char :: rest) = false) :
    ¬ (char = '/' ∧ rest.head? = some ':') ∧ hasParameter rest = false := by
  rw [hasParameter, Bool.or_eq_false_iff] at literal
  refine ⟨?_, literal.2⟩
  rintro ⟨slash, colon⟩
  simp [slash, colon] at literal

theorem literalStart_of_literal
    {path : Text}
    (literal : hasParameter path = false) :
    literalStart path = path ++ ['/'] := by
  induction path with
  | nil => rfl
  | cons char rest hypothesis =>
      obtain ⟨notParameter, restLiteral⟩ := not_parameter_of_literal literal
      rw [literalStart, if_neg notParameter, hypothesis restLiteral, List.cons_append]

/-- Reading past a literal prefix that ends in a slash. -/
theorem literalStart_append
    {path : Text}
    (literal : hasParameter path = false)
    (rest : Text) :
    literalStart (path ++ '/' :: rest) = path ++ literalStart ('/' :: rest) := by
  induction path with
  | nil => rfl
  | cons char tail hypothesis =>
      obtain ⟨notParameter, tailLiteral⟩ := not_parameter_of_literal literal
      rw [List.cons_append, literalStart, if_neg, hypothesis tailLiteral, List.cons_append]
      rintro ⟨slash, colon⟩
      cases tail with
      | nil => simp at colon
      | cons next others => exact notParameter ⟨slash, colon⟩

/-- A pattern falls under a literal prefix by its literal start. -/
theorem pathPrefixMatches_pattern_iff
    {pathPrefix : Text}
    (notRoot : pathPrefix ≠ root)
    (literal : hasParameter pathPrefix = false)
    (pattern : Text) :
    pathPrefixMatches pathPrefix pattern = true ↔
      pathPrefix ++ ['/'] <+: literalStart pattern := by
  rw [pathPrefixMatches_iff notRoot]
  constructor
  · intro falls
    rcases List.prefix_concat_iff.mp falls with same | ⟨rest, spelled⟩
    · rw [List.append_cancel_right_eq] at same
      have start : literalStart pattern = pathPrefix ++ ['/'] := by
        rw [← same, literalStart_of_literal literal]
      exact start ▸ List.prefix_rfl
    · rw [← spelled, List.append_assoc, List.singleton_append, literalStart_append literal]
      exact (List.prefix_append_right_inj pathPrefix).mpr (slash_prefix_literalStart rest)
  · intro within
    exact within.trans (literalStart_isPrefix pattern)

/-- A literal prefix covers the pattern and the request path alike exactly when
it stays within what they share. -/
theorem staysShared_iff
    {pathPrefix : Text}
    (notRoot : pathPrefix ≠ root)
    (literal : hasParameter pathPrefix = false)
    (pattern requestPath : Text) :
    StaysShared pathPrefix pattern requestPath ↔
      pathPrefixMatches pathPrefix pattern = pathPrefixMatches pathPrefix requestPath := by
  rw [Bool.eq_iff_iff, pathPrefixMatches_pattern_iff notRoot literal, pathPrefixMatches_iff notRoot]
  constructor
  · intro stays
    have common : pathPrefix ++ ['/'] <+:
        Text.commonStart (literalStart pattern) (requestPath ++ ['/']) ↔
          pathPrefix ++ ['/'] <+: literalStart pattern ∧
            pathPrefix ++ ['/'] <+: requestPath ++ ['/'] :=
      Text.prefix_commonStart_iff
    have commonLeft := (Text.prefix_commonStart_iff.mp
      (List.prefix_refl (Text.commonStart (literalStart pattern) (requestPath ++ ['/'])))).1
    have commonRight := (Text.prefix_commonStart_iff.mp
      (List.prefix_refl (Text.commonStart (literalStart pattern) (requestPath ++ ['/'])))).2
    constructor
    · intro inPattern
      have bounded := stays (.inl inPattern)
      exact (common.mp (List.prefix_of_prefix_length_le inPattern commonLeft bounded)).2
    · intro inRequest
      have bounded := stays (.inr inRequest)
      exact (common.mp (List.prefix_of_prefix_length_le inRequest commonRight bounded)).1
  · intro same within
    apply List.IsPrefix.length_le
    rw [Text.prefix_commonStart_iff]
    rcases within with inPattern | inRequest
    · exact ⟨inPattern, same.mp inPattern⟩
    · exact ⟨same.mpr inRequest, inRequest⟩

/-- When the request path spells the literal start, a prefix stays shared
unless it covers the request path beyond that start. -/
theorem staysShared_of_spelled_iff
    {pathPrefix pattern requestPath : Text}
    (notRoot : pathPrefix ≠ root)
    (spelled : literalStart pattern <+: requestPath ++ ['/']) :
    StaysShared pathPrefix pattern requestPath ↔
      (pathPrefixMatches pathPrefix requestPath = true →
        pathPrefix.length < (literalStart pattern).length) := by
  have common : Text.commonStart (literalStart pattern) (requestPath ++ ['/']) =
      literalStart pattern := by
    apply List.IsPrefix.eq_of_length_le (Text.commonStart_prefix_left _ _)
    apply List.IsPrefix.length_le
    exact Text.prefix_commonStart_iff.mpr ⟨List.prefix_refl _, spelled⟩
  rw [pathPrefixMatches_iff notRoot, StaysShared, common, List.length_append,
    List.length_singleton, Nat.add_one_le_iff]
  constructor
  · intro stays inRequest
    exact stays (.inr inRequest)
  · rintro stays (inPattern | inRequest)
    · have bounded := inPattern.length_le
      rw [List.length_append, List.length_singleton] at bounded
      omega
    · exact stays inRequest

end Routing
end HttpNative
