import HttpNative.Router.PathPrefixes
import Mathlib.Data.List.Chain

/-!
# Paths of several parts

The path that a prefix, or several prefixes, and a path below them come to: each part loses
the slashes at its end and gets one at its front, and parts that are nothing but slashes
leave nothing behind. What the router does with prefixes one at a time comes to that.
-/

namespace HttpNative
namespace Routing

/-- A part without the slashes at its end, and with one at its front. -/
def pathPart (part : Text) : Text :=
  let trimmed := part.rdropWhile (· = '/')
  if trimmed = [] then [] else if trimmed.head? = some '/' then trimmed else '/' :: trimmed

/-- The parts one behind the other; the root when nothing is in them. -/
def joinParts (parts : List Text) : Text :=
  let joined := parts.flatMap pathPart
  if joined = [] then root else joined

theorem trimmed_of_solid
    {before after : Text}
    (solid : before.rdropWhile (· = '/') = before) :
    (before ++ after).rdropWhile (· = '/') = before ++ after.rdropWhile (· = '/') := by
  induction after using List.reverseRecOn with
  | nil => rw [List.append_nil, List.rdropWhile_nil, List.append_nil, solid]
  | append_singleton after last hypothesis =>
      rw [← List.append_assoc, List.rdropWhile_concat, List.rdropWhile_concat]
      split
      · exact hypothesis
      · rw [List.append_assoc]

/-- A part ends with no slash. -/
theorem pathPart_solid
    (part : Text) :
    (pathPart part).rdropWhile (· = '/') = pathPart part := by
  have trimmed := List.rdropWhile_idempotent (fun char => decide (char = '/')) part
  unfold pathPart
  simp only
  split
  · exact List.rdropWhile_nil _
  · rename_i nonempty
    split
    · exact trimmed
    · have last := List.rdropWhile_eq_self_iff.mp trimmed nonempty
      refine List.rdropWhile_eq_self_iff.mpr fun notEmpty => ?_
      rwa [List.getLast_cons nonempty]

theorem pathPart_starts
    {part : Text}
    (nonempty : pathPart part ≠ []) :
    (pathPart part).head? = some '/' := by
  unfold pathPart at nonempty ⊢
  simp only at nonempty ⊢
  split
  · rename_i empty
    rw [if_pos empty] at nonempty
    exact absurd rfl nonempty
  · split
    · assumption
    · rfl

/-- Of a part that begins with a slash only slashes at the end are lost. -/
theorem pathPart_of_slash
    {part : Text}
    (slash : part.head? = some '/') :
    pathPart part = part.rdropWhile (· = '/') := by
  unfold pathPart
  simp only
  split
  · rename_i empty
    exact empty.symm
  · rename_i nonempty
    refine if_pos ?_
    obtain ⟨rest, whole⟩ := List.rdropWhile_prefix (fun char => decide (char = '/')) part
    cases trimmed : part.rdropWhile (· = '/') with
    | nil => exact absurd trimmed nonempty
    | cons char others =>
        rw [trimmed] at whole
        rw [← whole] at slash
        exact slash

theorem flatMap_pathPart_solid
    (parts : List Text) :
    (parts.flatMap pathPart).rdropWhile (· = '/') = parts.flatMap pathPart := by
  induction parts with
  | nil => exact List.rdropWhile_nil _
  | cons part parts hypothesis =>
      rw [List.flatMap_cons, trimmed_of_solid (pathPart_solid part), hypothesis]

theorem flatMap_pathPart_starts
    {parts : List Text}
    (nonempty : parts.flatMap pathPart ≠ []) :
    (parts.flatMap pathPart).head? = some '/' := by
  induction parts with
  | nil => exact absurd rfl nonempty
  | cons part parts hypothesis =>
      rw [List.flatMap_cons] at nonempty ⊢
      cases found : pathPart part with
      | nil =>
          rw [found, List.nil_append] at nonempty
          exact hypothesis nonempty
      | cons char others =>
          have starts := @pathPart_starts part (by simp [found])
          rw [found] at starts
          exact starts

theorem flatMap_pathPart_ne_root
    (parts : List Text) :
    parts.flatMap pathPart ≠ root := by
  intro isRoot
  have solid := flatMap_pathPart_solid parts
  rw [isRoot] at solid
  cases solid

theorem joinParts_of_nil
    {parts : List Text}
    (empty : parts.flatMap pathPart = []) :
    joinParts parts = root :=
  if_pos empty

theorem joinParts_of_ne_nil
    {parts : List Text}
    (nonempty : parts.flatMap pathPart ≠ []) :
    joinParts parts = parts.flatMap pathPart :=
  if_neg nonempty

theorem joinParts_append
    (first second : List Text) :
    joinParts (first ++ second) = combinePathPrefixes (joinParts first) (joinParts second) := by
  unfold combinePathPrefixes
  by_cases firstEmpty : first.flatMap pathPart = []
  · have joined : joinParts (first ++ second) = joinParts second := by
      rw [joinParts, List.flatMap_append, firstEmpty, List.nil_append]
      rfl
    rw [if_pos (joinParts_of_nil firstEmpty), joined]
  · have notRoot : joinParts first ≠ root := by
      rw [joinParts_of_ne_nil firstEmpty]
      exact flatMap_pathPart_ne_root first
    rw [if_neg notRoot]
    by_cases secondEmpty : second.flatMap pathPart = []
    · rw [if_pos (joinParts_of_nil secondEmpty), joinParts, List.flatMap_append, secondEmpty,
        List.append_nil]
      rfl
    · have otherRoot : joinParts second ≠ root := by
        rw [joinParts_of_ne_nil secondEmpty]
        exact flatMap_pathPart_ne_root second
      have nonempty : (first ++ second).flatMap pathPart ≠ [] := by
        rw [List.flatMap_append]
        exact List.append_ne_nil_of_left_ne_nil firstEmpty _
      rw [if_neg otherRoot, joinParts_of_ne_nil nonempty, joinParts_of_ne_nil firstEmpty,
        joinParts_of_ne_nil secondEmpty, List.flatMap_append]

theorem normalizePathPrefix_eq
    (path : Text) :
    normalizePathPrefix path = joinParts [path] := by
  unfold normalizePathPrefix
  split
  · rename_i isRoot
    subst isRoot
    rfl
  · rw [joinParts, List.flatMap_singleton, pathPart]
    simp only
    by_cases empty : path.rdropWhile (· = '/') = []
    · rw [if_pos empty, if_pos rfl, empty]
      rfl
    · rw [if_neg empty]
      by_cases slash : (path.rdropWhile (· = '/')).head? = some '/'
      · rw [if_pos slash, if_neg empty]
      · rw [if_neg slash, if_neg (List.cons_ne_nil _ _)]

/-- Below a prefix a route gets the path of both. -/
theorem normalizePathPrefix_applyGroupPrefix
    {path : Text}
    (slash : path.head? = some '/')
    (parts : List Text) :
    normalizePathPrefix (applyGroupPrefixToRoutePath path (joinParts parts)) =
      joinParts (parts ++ [path]) := by
  unfold applyGroupPrefixToRoutePath
  by_cases empty : parts.flatMap pathPart = []
  · rw [if_pos (joinParts_of_nil empty), normalizePathPrefix_eq, joinParts, joinParts,
      List.flatMap_append, empty, List.nil_append]
  · have notRoot : joinParts parts ≠ root := by
      rw [joinParts_of_ne_nil empty]
      exact flatMap_pathPart_ne_root parts
    have nonempty : (parts ++ [path]).flatMap pathPart ≠ [] := by
      rw [List.flatMap_append]
      exact List.append_ne_nil_of_left_ne_nil empty _
    have solid := flatMap_pathPart_solid parts
    have starts := flatMap_pathPart_starts empty
    have isPart : pathPart (parts.flatMap pathPart) = parts.flatMap pathPart := by
      rw [pathPart_of_slash starts, solid]
    rw [if_neg notRoot, joinParts_of_ne_nil nonempty, List.flatMap_append, List.flatMap_singleton,
      joinParts_of_ne_nil empty]
    by_cases isRoot : path = root
    · subst isRoot
      have rootPart : pathPart root = [] := rfl
      rw [if_pos rfl, normalizePathPrefix_eq, joinParts, List.flatMap_singleton, isPart,
        if_neg empty, rootPart, List.append_nil]
    · have headAppend : (parts.flatMap pathPart ++ path).head? = some '/' := by
        rw [List.head?_append, starts]
        rfl
      rw [if_neg isRoot, normalizePathPrefix_eq, joinParts, List.flatMap_singleton,
        pathPart_of_slash headAppend, trimmed_of_solid solid, pathPart_of_slash slash,
        if_neg (List.append_ne_nil_of_left_ne_nil empty _)]

/-- A joined path falls under the path of its first parts. -/
theorem pathPrefixMatches_joinParts
    (first second : List Text) :
    pathPrefixMatches (joinParts first) (joinParts (first ++ second)) = true := by
  by_cases empty : first.flatMap pathPart = []
  · rw [joinParts_of_nil empty, pathPrefixMatches_root]
  · have notRoot : joinParts first ≠ root := by
      rw [joinParts_of_ne_nil empty]
      exact flatMap_pathPart_ne_root first
    have nonempty : (first ++ second).flatMap pathPart ≠ [] := by
      rw [List.flatMap_append]
      exact List.append_ne_nil_of_left_ne_nil empty _
    rw [pathPrefixMatches_iff notRoot, joinParts_of_ne_nil empty, joinParts_of_ne_nil nonempty,
      List.flatMap_append]
    by_cases others : second.flatMap pathPart = []
    · have same : first.flatMap pathPart ++ second.flatMap pathPart = first.flatMap pathPart := by
        rw [others, List.append_nil]
      exact same.symm ▸ List.prefix_refl _
    · obtain ⟨rest, starts⟩ : ∃ rest, second.flatMap pathPart = '/' :: rest := by
        have head := flatMap_pathPart_starts others
        cases found : second.flatMap pathPart with
        | nil => exact absurd found others
        | cons char rest =>
            rw [found] at head
            cases head
            exact ⟨rest, rfl⟩
      rw [starts]
      exact ⟨rest ++ ['/'], by simp⟩

/-- A joined path begins with a slash, and ends with none unless it is the root. -/
structure IsNormalised (path : Text) : Prop where
  starts : path.head? = some '/'
  ends : path = root ∨ path.getLast? ≠ some '/'

theorem isNormalised_joinParts
    (parts : List Text) :
    IsNormalised (joinParts parts) := by
  by_cases empty : parts.flatMap pathPart = []
  · rw [joinParts_of_nil empty]
    exact ⟨rfl, .inl rfl⟩
  · rw [joinParts_of_ne_nil empty]
    refine ⟨flatMap_pathPart_starts empty, .inr fun last => ?_⟩
    have solid := List.rdropWhile_eq_self_iff.mp (flatMap_pathPart_solid parts) empty
    rw [List.getLast?_eq_some_getLast empty, Option.some_inj] at last
    exact solid (decide_eq_true last)

/-- No slash follows a slash. -/
def SingleSlashes (path : Text) : Prop :=
  path.IsChain fun left right => ¬ (left = '/' ∧ right = '/')

/-- Between two parts there is one slash. -/
theorem singleSlashes_joinParts
    {parts : List Text}
    (single : ∀ part ∈ parts, SingleSlashes (pathPart part)) :
    SingleSlashes (joinParts parts) := by
  have joined : SingleSlashes (parts.flatMap pathPart) := by
    induction parts with
    | nil => exact .nil
    | cons part parts hypothesis =>
        rw [List.flatMap_cons, SingleSlashes, List.isChain_append]
        refine ⟨single part List.mem_cons_self,
          hypothesis fun other member => single other (List.mem_cons_of_mem _ member), ?_⟩
        rintro last isLast next _ ⟨rfl, _⟩
        have nonempty : pathPart part ≠ [] := by
          intro empty
          rw [empty] at isLast
          cases isLast
        have solid := List.rdropWhile_eq_self_iff.mp (pathPart_solid part) nonempty
        rw [List.getLast?_eq_some_getLast nonempty, Option.mem_some_iff] at isLast
        exact solid (decide_eq_true isLast)
  unfold joinParts
  simp only
  split
  · exact .singleton _
  · exact joined

end Routing
end HttpNative
