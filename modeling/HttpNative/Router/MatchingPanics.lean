import HttpNative.Router.RouteMatching
import Mathlib.Algebra.Order.BigOperators.Group.List

/-!
# When a match panics

The array of captures has room for sixteen. A match panics for some request
exactly when some parameterised route has more parameters than that: a request
along its path with new names at the parameters meets no fixed segment first.
-/

namespace HttpNative
namespace Router

open Routing

/-- No request makes a match panic. -/
def NeverPanics (router : Router) : Prop :=
  ∀ (methodCode : Nat) (path : Text), router.matchRoute methodCode path ≠ .error {}

/-- The parameterised routes of the trees have at most as many parameters as
the array has room for. -/
def FewParameters (analysis : SourceAnalysis) (manifest : ManifestInput) : Prop :=
  ∀ route ∈ manifest.routes, ∀ method,
    isDynamic analysis manifest.middlewares method routeKindParam route = true →
      captureCount (patternOf route.path) ≤ RouteTable.maxStackSegments

theorem FewParameters.neverPanics
    {analysis : SourceAnalysis} {manifest : ManifestInput}
    (few : FewParameters analysis manifest) :
    NeverPanics (fromManifest analysis manifest) := by
  intro methodCode path
  rw [matchRoute_eq]
  cases Method.fromCode methodCode with
  | none => simp
  | some method =>
      simp only [radixTree_fromManifest]
      split
      · simp
      · have bounded := radixTree_capturesLE analysis manifest.middlewares
          fun route member isParam => few route member method isParam
        have room : ([] : List Text).length + RouteTable.maxStackSegments ≤
            RouteTable.maxStackSegments :=
          Nat.le_of_eq (Nat.zero_add _)
        rcases PatternTree.search_spec (radixTree_distinct analysis manifest.middlewares
            manifest.routes method) ⟨_, room, bounded⟩ with
          ⟨_, _, _, found⟩ | ⟨_, missed⟩
        · rw [found]
          simp
        · rw [missed]
          simp

/-! ## A request with new names -/

/-- A name for a segment that is none of the known ones. -/
theorem exists_fresh
    (known : List Text) :
    ∃ fresh : Text, fresh ≠ [] ∧ '/' ∉ fresh ∧ fresh ∉ known := by
  refine ⟨List.replicate ((known.map List.length).sum + 1) 'a', by simp, by simp, ?_⟩
  intro member
  have short : (List.replicate ((known.map List.length).sum + 1) 'a').length ≤
      (known.map List.length).sum :=
    List.le_sum_of_mem (List.mem_map.mpr ⟨_, member, rfl⟩)
  rw [List.length_replicate] at short
  omega

theorem of_mem_nonEmptySegments
    {path segment : Text}
    (member : segment ∈ nonEmptySegments path) :
    segment ≠ [] ∧ '/' ∉ segment := by
  obtain ⟨piece, filled⟩ := List.mem_filter.mp member
  exact ⟨of_decide_eq_true filled, Text.separator_notMem_of_mem_splitOn piece⟩

/-- A path of given segments. -/
theorem nonEmptySegments_intercalate
    {segments : List Text}
    (some : segments ≠ [])
    (proper : ∀ segment ∈ segments, segment ≠ [] ∧ '/' ∉ segment) :
    nonEmptySegments (['/'].intercalate segments) = segments := by
  unfold nonEmptySegments
  rw [List.splitOn_intercalate '/' (fun segment member => (proper segment member).2) some,
    List.filter_eq_self]
  intro segment member
  exact decide_eq_true (proper segment member).1

theorem mem_nonEmptySegments_of_fixed
    {label path : Text}
    (member : .fixed label ∈ patternOf path) :
    label ∈ nonEmptySegments path := by
  obtain ⟨segment, inPath, spelled⟩ := List.mem_map.mp member
  split at spelled
  · cases spelled
  · cases spelled
    exact inPath

theorem mem_fillCaptures
    {fresh path segment : Text}
    (member : segment ∈ fillCaptures fresh (patternOf path)) :
    segment = fresh ∨ segment ∈ nonEmptySegments path := by
  obtain ⟨part, inPattern, same⟩ := List.mem_map.mp member
  cases part with
  | fixed label =>
      cases same
      exact .inr (mem_nonEmptySegments_of_fixed inPattern)
  | capture => exact .inl same.symm

/-- A route with too many parameters lets some request of its method panic. -/
theorem exists_panic
    {analysis : SourceAnalysis} {manifest : ManifestInput} {route : RouteInput}
    {method : Method}
    (member : route ∈ manifest.routes)
    (isParam : isDynamic analysis manifest.middlewares method routeKindParam route = true)
    (deep : RouteTable.maxStackSegments < captureCount (patternOf route.path)) :
    ∃ path, (fromManifest analysis manifest).matchRoute route.methodCode path = .error {} := by
  obtain ⟨fresh, filled, noSlash, unknown⟩ :=
    exists_fresh (manifest.routes.flatMap fun route => nonEmptySegments route.path)
  have notSegment : ∀ other ∈ manifest.routes, fresh ∉ nonEmptySegments other.path := by
    intro other inRoutes inSegments
    exact unknown (List.mem_flatMap.mpr ⟨other, inRoutes, inSegments⟩)
  have inSegments : fresh ∈ fillCaptures fresh (patternOf route.path) := by
    have inPattern : PatternSegment.capture ∈ patternOf route.path := by
      rw [← List.count_pos_iff]
      exact Nat.zero_lt_of_lt deep
    exact List.mem_map.mpr ⟨.capture, inPattern, rfl⟩
  have segments : nonEmptySegments
      (['/'].intercalate (fillCaptures fresh (patternOf route.path))) =
      fillCaptures fresh (patternOf route.path) := by
    refine nonEmptySegments_intercalate (List.ne_nil_of_mem inSegments) ?_
    intro segment inPath
    rcases mem_fillCaptures inPath with rfl | inRoute
    · exact ⟨filled, noSlash⟩
    · exact of_mem_nonEmptySegments inRoute
  have avoids : PatternTree.EveryNode (fresh ∉ ·)
      ((addRoutes analysis manifest.middlewares manifest.routes).radixTree method) := by
    refine radixTree_induction analysis manifest.middlewares (.empty (by simp)) ?_
    intro other inRoutes _ tree avoids
    refine avoids.insert (by simp) ?_
    intro labels label inPattern _ absent inLabels
    rcases List.mem_append.mp inLabels with old | new
    · exact absent old
    · rw [List.mem_singleton] at new
      exact notSegment other inRoutes (new ▸ mem_nonEmptySegments_of_fixed inPattern)
  have ofMethod : Method.fromCode route.methodCode = some method := by
    simp only [isDynamic, Bool.and_eq_true, decide_eq_true_eq] at isParam
    exact isParam.1.2
  refine ⟨['/'].intercalate (fillCaptures fresh (patternOf route.path)), ?_⟩
  rw [matchRoute_eq, ofMethod]
  simp only [radixTree_fromManifest, dynamicExactRoutes_fromManifest]
  -- no exact route has a new name in its path
  have notExact : lastRoute (isExactAt analysis manifest.middlewares method
      (Utf8.encode (['/'].intercalate (fillCaptures fresh (patternOf route.path)))))
      manifest.routes = none := by
    rw [lastRoute_eq_none_iff]
    intro other inRoutes
    rw [Bool.eq_false_iff]
    intro selected
    simp only [isExactAt, Bool.and_eq_true, decide_eq_true_eq, Utf8.encode_inj] at selected
    apply notSegment other inRoutes
    rw [← nonEmptySegments_normalizePath, selected.2, segments]
    exact inSegments
  rw [dynamicExactRoutes_addRoutes, notExact, segments]
  simp only [Option.map_none]
  rw [PatternTree.search_overflow avoids (lookup_ne_none analysis manifest.middlewares member isParam)
    (Nat.zero_le _) (by rw [List.length_nil, Nat.zero_add]; exact deep)]

/-- No request panics exactly when every parameterised route that is looked up
has at most sixteen parameters. -/
theorem neverPanics_iff
    (analysis : SourceAnalysis)
    (manifest : ManifestInput) :
    NeverPanics (fromManifest analysis manifest) ↔ FewParameters analysis manifest := by
  constructor
  · intro never route member method isParam
    by_contra many
    obtain ⟨path, panics⟩ := exists_panic member isParam (by omega)
    exact never _ _ panics
  · exact FewParameters.neverPanics

/-- Seventeen parameters in an accepted manifest, and a request with as many
segments. -/
theorem not_neverPanics :
    ¬ ∀ (analysis : SourceAnalysis) (manifest : ManifestInput),
      validateManifest manifest = .ok () → NeverPanics (fromManifest analysis manifest) := by
  intro everywhere
  have never := everywhere nothingFound
    (shapedManifest [(List.replicate 17 (text "/:a")).flatten]) rfl
  exact never 1 (List.replicate 17 (text "/a")).flatten (by decide)

end Router
end HttpNative
