import HttpNative.OpenApi.Documents
import HttpNative.Router.TakenPaths

/-!
# The paths that a template stands for

With values in its holes, the template of a route's path spells the paths whose segments
fit the route's pattern, and the values are the segments at its captures.
-/

namespace HttpNative
namespace OpenApi

open Router
open TextTemplate

/-! ## The parts of a path -/

/-- The segment has no braces, and a colon only in front of a name. -/
structure PlainSegment (segment : Text) : Prop where
  noBraces : '{' ∉ segment ∧ '}' ∉ segment
  named : ':' ∈ segment → segment.head? = some ':' ∧ 2 ≤ segment.length

instance (segment : Text) : Decidable (PlainSegment segment) :=
  decidable_of_iff
    (('{' ∉ segment ∧ '}' ∉ segment) ∧
      (':' ∈ segment → segment.head? = some ':' ∧ 2 ≤ segment.length))
    ⟨fun both => ⟨both.1, both.2⟩, fun plain => ⟨plain.noBraces, plain.named⟩⟩

def segmentParts (segment : Text) : List Part :=
  match paramName segment with
  | some name => [.hole name]
  | none => segment.map .literal

def patternSegment (segment : Text) : PatternSegment Text :=
  if segment.head? = some ':' then .capture else .fixed segment

theorem PlainSegment.cases_
    {segment : Text}
    (plain : PlainSegment segment) :
    (∃ name, name ≠ [] ∧ segment = ':' :: name) ∨ ':' ∉ segment := by
  by_cases colon : ':' ∈ segment
  · obtain ⟨starts, long⟩ := plain.named colon
    cases segment with
    | nil => cases starts
    | cons char name =>
        cases starts
        refine .inl ⟨name, ?_, rfl⟩
        rintro rfl
        simp at long
  · exact .inr colon

theorem head?_ne_colon
    {segment : Text}
    (noColon : ':' ∉ segment) :
    segment.head? ≠ some ':' :=
  fun starts => noColon (List.mem_of_head? starts)

theorem segmentParts_of_fixed
    {segment : Text}
    (noColon : ':' ∉ segment) :
    segmentParts segment = segment.map .literal := by
  rw [segmentParts, paramName_eq_none (head?_ne_colon noColon)]

theorem colonName_of_ne
    {char : Char}
    (noColon : char ≠ ':')
    (rest : Text) :
    colonName char rest = none :=
  if_neg fun starts => noColon starts.1

theorem scan_fixed
    {segment : Text}
    (noColon : ':' ∉ segment)
    (rest : Text) :
    scan colonName (segment ++ rest) = segment.map .literal ++ scan colonName rest := by
  induction segment with
  | nil => rfl
  | cons char segment hypothesis =>
      have first : char ≠ ':' := fun same => noColon (same ▸ List.mem_cons_self)
      rw [List.cons_append, scan_of_none (colonName_of_ne first _),
        hypothesis fun member => noColon (List.mem_cons_of_mem _ member)]
      rfl

/-- A name reaches to the end of its segment. -/
theorem scan_named
    {name rest : Text}
    (filled : name ≠ [])
    (noSlash : '/' ∉ name)
    (stops : rest = [] ∨ rest.head? = some '/') :
    scan colonName (':' :: (name ++ rest)) = .hole name :: scan colonName rest := by
  have name_eq : (name ++ rest).takeWhile (· ≠ '/') = name := by
    rw [List.takeWhile_append_of_pos]
    · rcases stops with rfl | starts
      · simp
      · cases rest with
        | nil => simp
        | cons char rest =>
            cases starts
            simp
    · intro char member
      exact decide_eq_true (ne_of_mem_of_not_mem member noSlash)
  have starts : colonName ':' (name ++ rest) = some (name, name.length) := by
    simp only [colonName, name_eq]
    exact if_pos ⟨trivial, filled⟩
  rw [scan_of_some starts, List.drop_left]

theorem scan_segment
    {segment rest : Text}
    (plain : PlainSegment segment)
    (noSlash : '/' ∉ segment)
    (stops : rest = [] ∨ rest.head? = some '/') :
    scan colonName (segment ++ rest) = segmentParts segment ++ scan colonName rest := by
  rcases plain.cases_ with ⟨name, filled, rfl⟩ | noColon
  · exact scan_named filled (fun member => noSlash (List.mem_cons_of_mem _ member)) stops
  · rw [segmentParts_of_fixed noColon, scan_fixed noColon]

theorem scan_intercalate
    {segments : List Text}
    (plain : ∀ segment ∈ segments, PlainSegment segment)
    (noSlash : ∀ segment ∈ segments, '/' ∉ segment) :
    scan colonName (['/'].intercalate segments) =
      [.literal '/'].intercalate (segments.map segmentParts) := by
  induction segments with
  | nil => rfl
  | cons segment segments hypothesis =>
      have later := hypothesis (fun other member => plain other (List.mem_cons_of_mem _ member))
        fun other member => noSlash other (List.mem_cons_of_mem _ member)
      have first := plain segment List.mem_cons_self
      have here := noSlash segment List.mem_cons_self
      cases segments with
      | nil =>
          rw [List.intercalate_singleton, List.map_singleton, List.intercalate_singleton]
          have whole := scan_segment first here (.inl rfl)
          rwa [List.append_nil, scan_nil, List.append_nil] at whole
      | cons next segments =>
          rw [List.map_cons] at later
          rw [List.intercalate_cons_cons, List.map_cons, List.map_cons,
            List.intercalate_cons_cons, List.append_assoc, scan_segment first here (.inr rfl),
            List.append_assoc, ← later]
          exact congrArg _ (scan_of_none (colonName_of_ne (by decide) _))

theorem of_mem_intercalate
    {Entry : Type} {separator entry : Entry} {lists : List (List Entry)}
    (member : entry ∈ [separator].intercalate lists) :
    entry = separator ∨ ∃ list ∈ lists, entry ∈ list := by
  induction lists with
  | nil => cases member
  | cons list lists hypothesis =>
      cases lists with
      | nil =>
          rw [List.intercalate_singleton] at member
          exact .inr ⟨list, List.mem_cons_self, member⟩
      | cons next lists =>
          rw [List.intercalate_cons_cons, List.append_assoc] at member
          rcases List.mem_append.mp member with here | later
          · exact .inr ⟨list, List.mem_cons_self, here⟩
          · rcases List.mem_cons.mp later with same | behind
            · exact .inl same
            · refine (hypothesis behind).imp id ?_
              rintro ⟨other, inLists, inOther⟩
              exact ⟨other, List.mem_cons_of_mem _ inLists, inOther⟩

theorem names_append
    (left right : List Part) :
    names (left ++ right) = names left ++ names right :=
  List.filterMap_append

theorem names_segmentParts
    (segment : Text) :
    names (segmentParts segment) = (paramName segment).toList := by
  unfold segmentParts
  cases paramName segment with
  | some name => rfl
  | none =>
      induction segment with
      | nil => rfl
      | cons char segment hypothesis => exact hypothesis

theorem names_intercalate
    (segments : List Text) :
    names ([.literal '/'].intercalate (segments.map segmentParts)) =
      segments.filterMap paramName := by
  induction segments with
  | nil => rfl
  | cons segment segments hypothesis =>
      have first : (segment :: segments).filterMap paramName =
          (paramName segment).toList ++ segments.filterMap paramName := by
        rw [List.filterMap_cons]
        cases paramName segment <;> rfl
      rw [first, ← hypothesis, ← names_segmentParts]
      cases segments with
      | nil =>
          rw [List.map_singleton, List.intercalate_singleton, List.map_nil,
            List.intercalate_nil, names, names, List.filterMap_nil, List.append_nil]
      | cons next segments =>
          rw [List.map_cons, List.map_cons, List.intercalate_cons_cons, List.append_assoc,
            names_append]
          rfl

/-! ## Filled templates -/

section Patterns

variable {first : PatternSegment Text} {pattern : List (PatternSegment Text)}

theorem fits_cons_iff
    {labels : List Text} :
    Fits (first :: pattern) labels ↔
      ∃ label later, labels = label :: later ∧ Fits [first] [label] ∧ Fits pattern later := by
  constructor
  · intro fits
    cases fits with
    | fixed later => exact ⟨_, _, rfl, .fixed .nil, later⟩
    | capture later => exact ⟨_, _, rfl, .capture .nil, later⟩
  · rintro ⟨label, later, rfl, one, fits⟩
    cases one with
    | fixed => exact .fixed fits
    | capture => exact .capture fits

theorem capturesOf_cons
    (label : Text)
    (later : List Text) :
    capturesOf (first :: pattern) (label :: later) =
      capturesOf [first] [label] ++ capturesOf pattern later := by
  cases first with
  | fixed => rfl
  | capture => rfl

end Patterns

theorem expand_literal_iff
    {char : Char} {parts : List Part} {values : List Text} {filled : Text} :
    expand (.literal char :: parts) values = some filled ↔
      ∃ later, expand parts values = some later ∧ char :: later = filled := by
  rw [expand, Option.map_eq_some_iff]

/-- A segment takes the values at its captures from the front. -/
theorem expand_segment_iff
    {segment : Text}
    (plain : PlainSegment segment)
    {parts : List Part} {values : List Text} {filled : Text} :
    expand (segmentParts segment ++ parts) values = some filled ↔
      ∃ label remaining later, Fits [patternSegment segment] [label] ∧
        capturesOf [patternSegment segment] [label] ++ remaining = values ∧
        expand parts remaining = some later ∧ label ++ later = filled := by
  rcases plain.cases_ with ⟨name, _, rfl⟩ | noColon
  · change expand (.hole name :: parts) values = some filled ↔ _
    have isCapture : patternSegment (':' :: name) = .capture := rfl
    rw [isCapture]
    constructor
    · intro expanded
      cases values with
      | nil => cases expanded
      | cons value values =>
          obtain ⟨later, behind, rfl⟩ := Option.map_eq_some_iff.mp expanded
          exact ⟨value, values, later, .capture .nil, rfl, behind, rfl⟩
    · rintro ⟨label, remaining, later, _, rfl, expanded, rfl⟩
      exact Option.map_eq_some_iff.mpr ⟨later, expanded, rfl⟩
  · rw [segmentParts_of_fixed noColon, expand_literals, Option.map_eq_some_iff]
    have isFixed : patternSegment segment = .fixed segment := if_neg (head?_ne_colon noColon)
    rw [isFixed]
    constructor
    · rintro ⟨later, expanded, rfl⟩
      exact ⟨segment, values, later, .fixed .nil, rfl, expanded, rfl⟩
    · rintro ⟨label, remaining, later, fits, rfl, expanded, rfl⟩
      cases fits
      exact ⟨later, expanded, rfl⟩

/-- The text is filled segment by segment: a fixed segment stands for itself, a capture
takes the next value. -/
theorem expand_intercalate_iff
    {segments : List Text}
    (plain : ∀ segment ∈ segments, PlainSegment segment)
    (some_ : segments ≠ [])
    {values : List Text} {filled : Text} :
    expand ([.literal '/'].intercalate (segments.map segmentParts)) values = some filled ↔
      ∃ labels, Fits (segments.map patternSegment) labels ∧
        capturesOf (segments.map patternSegment) labels = values ∧
        ['/'].intercalate labels = filled := by
  induction segments generalizing values filled with
  | nil => exact absurd rfl some_
  | cons segment segments hypothesis =>
      have first := plain segment List.mem_cons_self
      cases segments with
      | nil =>
          rw [List.map_singleton, List.intercalate_singleton, List.map_singleton,
            ← List.append_nil (segmentParts segment), expand_segment_iff first]
          constructor
          · rintro ⟨label, remaining, later, fits, rfl, ended, rfl⟩
            cases remaining with
            | cons value remaining => cases ended
            | nil =>
                cases ended
                exact ⟨[label], fits, (List.append_nil _).symm, by simp⟩
          · rintro ⟨labels, fits, rfl, rfl⟩
            obtain ⟨label, later, rfl, one, none⟩ := fits_cons_iff.mp fits
            cases none
            exact ⟨label, [], [], one, List.append_nil _, rfl, by simp⟩
      | cons next segments =>
          have others := @hypothesis
            (fun other member => plain other (List.mem_cons_of_mem _ member)) (by simp)
          rw [List.map_cons, List.map_cons, List.intercalate_cons_cons, List.append_assoc,
            expand_segment_iff first]
          constructor
          · rintro ⟨label, remaining, later, one, rfl, expanded, rfl⟩
            obtain ⟨behind, rest, rfl⟩ := expand_literal_iff.mp expanded
            obtain ⟨labels, fits, rfl, rfl⟩ := others.mp rest
            refine ⟨label :: labels, fits_cons_iff.mpr ⟨label, labels, rfl, one, fits⟩,
              capturesOf_cons label labels, ?_⟩
            obtain ⟨second, labels, rfl, _⟩ := fits_cons_iff.mp fits
            rw [List.intercalate_cons_cons, List.append_assoc]
            rfl
          · rintro ⟨labels, fits, rfl, rfl⟩
            obtain ⟨label, later, rfl, one, fits⟩ := fits_cons_iff.mp fits
            obtain ⟨second, labels, rfl, _⟩ := id (fits_cons_iff.mp fits)
            refine ⟨label, _, '/' :: ['/'].intercalate (second :: labels), one,
              (capturesOf_cons label _).symm, ?_, ?_⟩
            · exact expand_literal_iff.mpr
                ⟨_, others.mpr ⟨second :: labels, fits, rfl, rfl⟩, rfl⟩
            · rw [List.intercalate_cons_cons, List.append_assoc]
              rfl

/-! ## Empty segments -/

/-- Without the empty segments the pattern fits what is left of the labels. -/
theorem fits_filter
    {segments labels : List Text}
    (fits : Fits (segments.map patternSegment) labels)
    (filled : ∀ value ∈ capturesOf (segments.map patternSegment) labels, value ≠ []) :
    Fits ((segments.filter (· ≠ [])).map patternSegment) (labels.filter (· ≠ [])) ∧
      capturesOf ((segments.filter (· ≠ [])).map patternSegment) (labels.filter (· ≠ [])) =
        capturesOf (segments.map patternSegment) labels := by
  induction segments generalizing labels with
  | nil =>
      cases fits
      exact ⟨.nil, rfl⟩
  | cons segment segments hypothesis =>
      rw [List.map_cons] at fits filled ⊢
      obtain ⟨label, labels, rfl, one, later⟩ := fits_cons_iff.mp fits
      rw [capturesOf_cons] at filled ⊢
      obtain ⟨kept, captures⟩ := hypothesis later
        fun value member => filled value (List.mem_append_right _ member)
      by_cases blank : segment = []
      · subst blank
        cases one with
        | fixed => exact ⟨kept, captures⟩
      · have label_filled : label ≠ [] := by
          unfold patternSegment at one filled
          split at one
          · rename_i isCapture
            rw [if_pos isCapture] at filled
            exact filled label List.mem_cons_self
          · cases one
            exact blank
        rw [List.filter_cons_of_pos (by simpa using blank),
          List.filter_cons_of_pos (by simpa using label_filled), List.map_cons, capturesOf_cons,
          captures]
        exact ⟨fits_cons_iff.mpr ⟨label, _, rfl, one, kept⟩, rfl⟩

/-- Labels for the segments that are not empty leave labels for all of them. -/
theorem exists_labels
    {segments kept : List Text}
    (fits : Fits ((segments.filter (· ≠ [])).map patternSegment) kept)
    (filled : ∀ label ∈ kept, label ≠ []) :
    ∃ labels, Fits (segments.map patternSegment) labels ∧ labels.filter (· ≠ []) = kept ∧
      capturesOf (segments.map patternSegment) labels =
        capturesOf ((segments.filter (· ≠ [])).map patternSegment) kept := by
  induction segments generalizing kept with
  | nil =>
      cases fits
      exact ⟨[], .nil, rfl, rfl⟩
  | cons segment segments hypothesis =>
      by_cases blank : segment = []
      · subst blank
        obtain ⟨labels, whole, rest, captures⟩ := hypothesis fits filled
        refine ⟨[] :: labels, fits_cons_iff.mpr ⟨[], labels, rfl, .fixed .nil, whole⟩, rest, ?_⟩
        exact captures
      · rw [List.filter_cons_of_pos (by simpa using blank), List.map_cons] at fits ⊢
        obtain ⟨label, kept, rfl, one, later⟩ := fits_cons_iff.mp fits
        obtain ⟨labels, whole, rest, captures⟩ := hypothesis later
          fun other member => filled other (List.mem_cons_of_mem _ member)
        have label_filled := filled label List.mem_cons_self
        refine ⟨label :: labels, fits_cons_iff.mpr ⟨label, labels, rfl, one, whole⟩, ?_, ?_⟩
        · rw [List.filter_cons_of_pos (by simpa using label_filled), rest]
        · rw [List.map_cons, capturesOf_cons label labels, capturesOf_cons label kept, captures]

/-- A label is a fixed segment or a value. -/
theorem mem_of_fits
    {pattern : List (PatternSegment Text)} {labels : List Text} {label : Text}
    (fits : Fits pattern labels)
    (member : label ∈ labels) :
    .fixed label ∈ pattern ∨ label ∈ capturesOf pattern labels := by
  induction fits with
  | nil => cases member
  | fixed _ hypothesis =>
      rcases List.mem_cons.mp member with rfl | later
      · exact .inl List.mem_cons_self
      · exact (hypothesis later).imp (List.mem_cons_of_mem _) id
  | capture _ hypothesis =>
      rcases List.mem_cons.mp member with rfl | later
      · exact .inr List.mem_cons_self
      · exact (hypothesis later).imp (List.mem_cons_of_mem _) (List.mem_cons_of_mem _)

theorem mem_of_mem_capturesOf
    {pattern : List (PatternSegment Text)} {labels : List Text} {value : Text}
    (member : value ∈ capturesOf pattern labels) :
    value ∈ labels := by
  induction pattern generalizing labels with
  | nil => simp [capturesOf] at member
  | cons first pattern hypothesis =>
      cases labels with
      | nil => cases first <;> simp [capturesOf] at member
      | cons label labels =>
          rw [capturesOf_cons] at member
          rcases List.mem_append.mp member with here | later
          · cases first with
            | fixed => cases here
            | capture => exact List.mem_cons.mpr (.inl (List.mem_singleton.mp here))
          · exact List.mem_cons_of_mem _ (hypothesis later)

theorem nonEmptySegments_of_labels
    {labels : List Text}
    (some_ : labels ≠ [])
    (noSlash : ∀ label ∈ labels, '/' ∉ label) :
    nonEmptySegments (['/'].intercalate labels) = labels.filter (· ≠ []) := by
  rw [nonEmptySegments, List.splitOn_intercalate '/' noSlash some_]

/-! ## Documentable paths -/

/-- The template of the path says what the router does with it. -/
structure Documentable (path : Text) : Prop where
  starts : path.head? = some '/'
  segments : ∀ segment ∈ path.splitOn '/', PlainSegment segment

/-- What a template may be filled with. -/
def IsValue (value : Text) : Prop :=
  value ≠ [] ∧ '/' ∉ value

instance (value : Text) : Decidable (IsValue value) :=
  inferInstanceAs (Decidable (_ ∧ _))

section Paths

variable {path : Text}

theorem Documentable.pathParts_eq
    (documentable : Documentable path) :
    pathParts path = [.literal '/'].intercalate ((path.splitOn '/').map segmentParts) := by
  rw [← scan_intercalate documentable.segments
    fun segment member => Text.separator_notMem_of_mem_splitOn member, List.intercalate_splitOn]
  rfl

theorem Documentable.expand_iff
    (documentable : Documentable path)
    {values : List Text} {filled : Text} :
    expand (pathParts path) values = some filled ↔
      ∃ labels, Fits ((path.splitOn '/').map patternSegment) labels ∧
        capturesOf ((path.splitOn '/').map patternSegment) labels = values ∧
        ['/'].intercalate labels = filled := by
  rw [documentable.pathParts_eq, expand_intercalate_iff documentable.segments
    (List.splitOn_ne_nil _ _)]

theorem shapeSegments_eq
    (slash : path.head? = some '/') :
    shapeSegments path = nonEmptySegments path := by
  cases path with
  | nil => cases slash
  | cons char rest =>
      cases slash
      rw [nonEmptySegments_cons_slash]
      unfold shapeSegments
      split
      · rename_i isRoot
        cases isRoot
        exact nonEmptySegments_nil.symm
      · rfl

/-- The names in the template are those that the router knows. -/
theorem Documentable.names_pathParts
    (documentable : Documentable path) :
    names (pathParts path) = shapeParamNames path := by
  have blanks : ∀ segments : List Text,
      (segments.filter (· ≠ [])).filterMap paramName = segments.filterMap paramName := by
    intro segments
    rw [List.filterMap_filter]
    apply List.filterMap_congr
    intro segment _
    by_cases blank : segment = []
    · rw [blank]
      rfl
    · simp [blank]
  rw [documentable.pathParts_eq, names_intercalate, shapeParamNames,
    shapeSegments_eq documentable.starts, nonEmptySegments, blanks]

/-- The template is read back as the parts of the path. -/
theorem Documentable.scan_toOpenApiPath
    (documentable : Documentable path) :
    scan braced (toOpenApiPath path) = pathParts path := by
  apply scan_write
  rw [documentable.pathParts_eq]
  intro part member
  rcases of_mem_intercalate member with rfl | ⟨parts, inPath, inParts⟩
  · exact (by decide : '/' ≠ '{')
  · obtain ⟨segment, inSegments, rfl⟩ := List.mem_map.mp inPath
    have plain := documentable.segments segment inSegments
    rcases plain.cases_ with ⟨name, _, rfl⟩ | noColon
    · cases List.mem_singleton.mp inParts
      exact fun brace => plain.noBraces.2 (List.mem_cons_of_mem _ brace)
    · rw [segmentParts_of_fixed noColon] at inParts
      obtain ⟨char, inSegment, rfl⟩ := List.mem_map.mp inParts
      exact ne_of_mem_of_not_mem inSegment plain.noBraces.1

/-- A path of an exact route has no colon. -/
theorem Documentable.noColon
    (documentable : Documentable path)
    (exact_ : shapeRouteKind path = routeKindExact) :
    ':' ∉ path := by
  intro colon
  have noNames : shapeParamNames path = [] := by
    unfold shapeRouteKind at exact_
    split at exact_
    · rename_i none
      exact List.length_eq_zero_iff.mp none
    · cases exact_
  rw [← documentable.names_pathParts, documentable.pathParts_eq, names_intercalate,
    List.filterMap_eq_nil_iff] at noNames
  have whole : ['/'].intercalate (path.splitOn '/') = path := List.intercalate_splitOn '/'
  rw [← whole] at colon
  rcases of_mem_intercalate colon with same | ⟨segment, inPath, inSegment⟩
  · cases same
  · rcases (documentable.segments segment inPath).cases_ with ⟨name, _, rfl⟩ | noColon
    · cases noNames _ inPath
    · exact noColon inSegment

/-- The template of a path without a colon is the path. -/
theorem expand_pathParts_of_noColon
    (noColon : ':' ∉ path)
    {values : List Text} {filled : Text} :
    expand (pathParts path) values = some filled ↔ values = [] ∧ filled = path := by
  have parts : pathParts path = path.map .literal ++ [] := by
    have scanned := scan_fixed noColon []
    rwa [List.append_nil, scan_nil] at scanned
  rw [parts, expand_literals]
  cases values with
  | nil => simp [expand, eq_comm]
  | cons value values => simp [expand]

theorem labels_of_fits
    {labels : List Text}
    (fits : Fits ((path.splitOn '/').map patternSegment) labels)
    (values : ∀ value ∈ capturesOf ((path.splitOn '/').map patternSegment) labels,
      '/' ∉ value) :
    labels ≠ [] ∧ ∀ label ∈ labels, '/' ∉ label := by
  constructor
  · rintro rfl
    have blank : ∀ {pattern : List (PatternSegment Text)}, Fits pattern [] → pattern = [] := by
      intro pattern fits
      cases fits
      rfl
    exact List.splitOn_ne_nil _ _ (List.map_eq_nil_iff.mp (blank fits))
  · intro label member
    rcases mem_of_fits fits member with isFixed | isValue
    · obtain ⟨segment, inPath, same⟩ := List.mem_map.mp isFixed
      unfold patternSegment at same
      split at same
      · cases same
      · cases same
        exact Text.separator_notMem_of_mem_splitOn inPath
    · exact values label isValue

/-- A filled template fits the pattern, and the values are what is captured. -/
theorem Documentable.fits_of_expand
    (documentable : Documentable path)
    {values : List Text} {filled : Text}
    (proper : ∀ value ∈ values, IsValue value)
    (expanded : expand (pathParts path) values = some filled) :
    Fits (patternOf path) (nonEmptySegments filled) ∧
      capturesOf (patternOf path) (nonEmptySegments filled) = values := by
  obtain ⟨labels, fits, rfl, rfl⟩ := documentable.expand_iff.mp expanded
  obtain ⟨some_, noSlash⟩ := labels_of_fits fits fun value member => (proper value member).2
  rw [nonEmptySegments_of_labels some_ noSlash]
  exact fits_filter fits fun value member => (proper value member).1

/-- A path that fits the pattern is, but for empty segments, a filled template. -/
theorem Documentable.exists_expand
    (documentable : Documentable path)
    {request : Text}
    (fits : Fits (patternOf path) (nonEmptySegments request)) :
    ∃ filled, expand (pathParts path) (capturesOf (patternOf path) (nonEmptySegments request)) =
        some filled ∧
      nonEmptySegments filled = nonEmptySegments request := by
  obtain ⟨labels, whole, kept, captures⟩ := exists_labels fits
    fun label member => (of_mem_nonEmptySegments member).1
  refine ⟨['/'].intercalate labels, documentable.expand_iff.mpr ⟨labels, whole, captures, rfl⟩,
    ?_⟩
  have noSlash : ∀ value ∈ capturesOf ((path.splitOn '/').map patternSegment) labels,
      '/' ∉ value := by
    rw [captures]
    intro value member
    exact (of_mem_nonEmptySegments (mem_of_mem_capturesOf member)).2
  obtain ⟨some_, noSlash⟩ := labels_of_fits whole noSlash
  rw [nonEmptySegments_of_labels some_ noSlash, kept]

end Paths

end OpenApi
end HttpNative
