import Mathlib.Data.Option.Basic
import Mathlib.Data.List.Basic

/-!
# Trees of patterns

A pattern is a row of fixed labels and captures. A tree stores values at the
ends of patterns; a search prefers fixed labels, backtracks into captures and
collects what was captured, up to a capacity. What a search finds was inserted
under a pattern that fits the labels searched for.
-/

namespace HttpNative

/-- One segment of a pattern. -/
inductive PatternSegment (Label : Type) where
  | fixed (label : Label)
  | capture
deriving DecidableEq, Repr

/-- The labels have as many segments as the pattern and agree with its fixed
ones. -/
inductive Fits {Label : Type} : List (PatternSegment Label) → List Label → Prop
  | nil : Fits [] []
  | fixed {label : Label} {pattern : List (PatternSegment Label)} {labels : List Label} :
      Fits pattern labels → Fits (.fixed label :: pattern) (label :: labels)
  | capture {label : Label} {pattern : List (PatternSegment Label)} {labels : List Label} :
      Fits pattern labels → Fits (.capture :: pattern) (label :: labels)

inductive PatternTree (Label Value : Type) where
  | node
      (children : List (Label × PatternTree Label Value))
      (value : Option Value)
      (captureChild : Option (PatternTree Label Value))

namespace PatternTree

variable {Label Value : Type} [DecidableEq Label]

def empty : PatternTree Label Value :=
  .node [] none none

/-- Change the first child under a label; a new one starts empty. -/
def updateChild
    (label : Label)
    (update : PatternTree Label Value → PatternTree Label Value) :
    List (Label × PatternTree Label Value) → List (Label × PatternTree Label Value)
  | [] => [(label, update empty)]
  | (other, child) :: rest =>
      if other = label then (other, update child) :: rest
      else (other, child) :: updateChild label update rest

/-- Store a value at the end of a pattern, in place of one stored before. -/
def insert (value : Value) :
    List (PatternSegment Label) → PatternTree Label Value → PatternTree Label Value
  | [], .node children _ captureChild => .node children (some value) captureChild
  | .fixed label :: pattern, .node children stored captureChild =>
      .node (updateChild label (insert value pattern) children) stored captureChild
  | .capture :: pattern, .node children stored captureChild =>
      .node children stored (some (insert value pattern (captureChild.getD empty)))

/-- A search ends with a value and its captures, with nothing, or where a
capture finds no room. -/
inductive Search (Label Value : Type) where
  | found (value : Value) (captured : List Label)
  | missed
  | overflow
deriving DecidableEq, Repr

/-- Search the children under a label, one after the other. -/
def searchChildren
    (label : Label)
    (search : PatternTree Label Value → Search Label Value) :
    List (Label × PatternTree Label Value) → Search Label Value
  | [] => .missed
  | (other, child) :: rest =>
      if other = label then
        match search child with
        | .missed => searchChildren label search rest
        | .found value captured => .found value captured
        | .overflow => .overflow
      else
        searchChildren label search rest

/-- Search with what was captured on the way to this node. -/
def search (capacity : Nat) :
    List Label → List Label → PatternTree Label Value → Search Label Value
  | [], captured, .node _ value _ =>
      match value with
      | some value => .found value captured
      | none => .missed
  | label :: labels, captured, .node children _ captureChild =>
      match searchChildren label (search capacity labels captured) children with
      | .found value captures => .found value captures
      | .overflow => .overflow
      | .missed =>
          match captureChild with
          | none => .missed
          | some child =>
              if captured.length < capacity then
                search capacity labels (captured ++ [label]) child
              else
                .overflow

/-- The value stands at the end of the pattern. -/
def Stored : List (PatternSegment Label) → PatternTree Label Value → Value → Prop
  | [], .node _ stored _, value => stored = some value
  | .fixed label :: pattern, .node children _ _, value =>
      ∃ child, (label, child) ∈ children ∧ Stored pattern child value
  | .capture :: pattern, .node _ _ captureChild, value =>
      ∃ child, captureChild = some child ∧ Stored pattern child value

omit [DecidableEq Label] in
theorem not_stored_empty
    (pattern : List (PatternSegment Label))
    (value : Value) :
    ¬ Stored pattern empty value := by
  cases pattern with
  | nil => simp [Stored, empty]
  | cons segment pattern =>
      cases segment with
      | fixed label => simp [Stored, empty]
      | capture => simp [Stored, empty]

/-- A child after an update is an old child or the updated one. -/
theorem mem_updateChild
    {label other : Label} {update : PatternTree Label Value → PatternTree Label Value}
    {children : List (Label × PatternTree Label Value)} {child : PatternTree Label Value}
    (member : (other, child) ∈ updateChild label update children) :
    (other, child) ∈ children ∨
      (other = label ∧ ∃ before, child = update before ∧
        (before = empty ∨ (label, before) ∈ children)) := by
  induction children with
  | nil =>
      simp only [updateChild, List.mem_singleton, Prod.mk.injEq] at member
      exact .inr ⟨member.1, empty, member.2, .inl rfl⟩
  | cons first rest hypothesis =>
      obtain ⟨firstLabel, firstChild⟩ := first
      rw [updateChild] at member
      split at member
      · rename_i same
        rcases List.mem_cons.mp member with here | inRest
        · cases here
          exact .inr ⟨same, firstChild, rfl, .inr (by simp [same])⟩
        · exact .inl (List.mem_cons_of_mem _ inRest)
      · rcases List.mem_cons.mp member with here | inRest
        · exact .inl (by simp [here])
        · rcases hypothesis inRest with old | ⟨same, before, updated, from_⟩
          · exact .inl (List.mem_cons_of_mem _ old)
          · refine .inr ⟨same, before, updated, ?_⟩
            exact from_.imp_right (List.mem_cons_of_mem _)

/-- After an insertion the tree stores the new value and what it stored
before. -/
theorem stored_of_insert
    {value stored : Value} {inserted pattern : List (PatternSegment Label)}
    {tree : PatternTree Label Value}
    (holds : Stored pattern (tree.insert value inserted) stored) :
    (pattern = inserted ∧ stored = value) ∨ Stored pattern tree stored := by
  induction inserted generalizing pattern tree with
  | nil =>
      obtain ⟨children, before, captureChild⟩ := tree
      cases pattern with
      | nil =>
          simp only [insert, Stored, Option.some.injEq] at holds
          exact .inl ⟨rfl, holds.symm⟩
      | cons segment pattern =>
          right
          cases segment with
          | fixed label => exact holds
          | capture => exact holds
  | cons segment inserted hypothesis =>
      obtain ⟨children, before, captureChild⟩ := tree
      cases segment with
      | fixed label =>
          cases pattern with
          | nil => exact .inr holds
          | cons other pattern =>
              cases other with
              | capture => exact .inr holds
              | fixed other =>
                  obtain ⟨child, member, inChild⟩ := holds
                  rcases mem_updateChild member with old | ⟨rfl, source, rfl, origin⟩
                  · exact .inr ⟨child, old, inChild⟩
                  · rcases hypothesis inChild with ⟨rfl, rfl⟩ | inSource
                    · exact .inl ⟨rfl, rfl⟩
                    · rcases origin with rfl | inChildren
                      · exact absurd inSource (not_stored_empty _ _)
                      · exact .inr ⟨source, inChildren, inSource⟩
      | capture =>
          cases pattern with
          | nil => exact .inr holds
          | cons other pattern =>
              cases other with
              | fixed other => exact .inr holds
              | capture =>
                  obtain ⟨child, same, inChild⟩ := holds
                  cases same
                  rcases hypothesis inChild with ⟨rfl, rfl⟩ | inSource
                  · exact .inl ⟨rfl, rfl⟩
                  · cases captureChild with
                    | none => exact absurd inSource (not_stored_empty _ _)
                    | some source => exact .inr ⟨source, rfl, inSource⟩

theorem found_of_searchChildren
    {label : Label} {search : PatternTree Label Value → Search Label Value}
    {children : List (Label × PatternTree Label Value)} {value : Value} {captured : List Label}
    (found : searchChildren label search children = .found value captured) :
    ∃ child, (label, child) ∈ children ∧ search child = .found value captured := by
  induction children with
  | nil => cases found
  | cons first rest hypothesis =>
      obtain ⟨other, child⟩ := first
      rw [searchChildren] at found
      split at found
      · rename_i same
        split at found
        · obtain ⟨child, member, inChild⟩ := hypothesis found
          exact ⟨child, List.mem_cons_of_mem _ member, inChild⟩
        · rename_i childFound
          cases found
          exact ⟨child, by simp [same], childFound⟩
        · cases found
      · obtain ⟨child, member, inChild⟩ := hypothesis found
        exact ⟨child, List.mem_cons_of_mem _ member, inChild⟩

/-- What a search finds is stored under a pattern that fits. -/
theorem stored_of_search
    {capacity : Nat} {labels captured captures : List Label} {tree : PatternTree Label Value}
    {value : Value}
    (found : search capacity labels captured tree = .found value captures) :
    ∃ pattern, Fits pattern labels ∧ Stored pattern tree value := by
  induction labels generalizing captured tree with
  | nil =>
      obtain ⟨children, stored, captureChild⟩ := tree
      refine ⟨[], .nil, ?_⟩
      cases stored with
      | none => simp [search] at found
      | some stored =>
          simp only [search, Search.found.injEq] at found
          simp [Stored, found.1]
  | cons label labels hypothesis =>
      obtain ⟨children, stored, captureChild⟩ := tree
      unfold search at found
      split at found
      · rename_i childFound
        cases found
        obtain ⟨child, member, inChild⟩ := found_of_searchChildren childFound
        obtain ⟨pattern, fits, inside⟩ := hypothesis inChild
        exact ⟨.fixed label :: pattern, .fixed fits, child, member, inside⟩
      · cases found
      · split at found
        · cases found
        · rename_i child
          split at found
          · obtain ⟨pattern, fits, inside⟩ := hypothesis found
            exact ⟨.capture :: pattern, .capture fits, child, rfl, inside⟩
          · cases found

/-- What is captured are labels, and no more of them than there is room for. -/
theorem captured_of_search
    {capacity : Nat} {labels captured captures : List Label} {tree : PatternTree Label Value}
    {value : Value}
    (room : captured.length ≤ capacity)
    (found : search capacity labels captured tree = .found value captures) :
    captures.length ≤ capacity ∧ ∀ capture ∈ captures, capture ∈ captured ∨ capture ∈ labels := by
  induction labels generalizing captured tree with
  | nil =>
      obtain ⟨children, stored, captureChild⟩ := tree
      cases stored with
      | none => cases found
      | some own =>
          cases found
          exact ⟨room, fun capture member => .inl member⟩
  | cons label labels hypothesis =>
      obtain ⟨children, stored, captureChild⟩ := tree
      have later {before : List Label} {child : PatternTree Label Value}
          (room : before.length ≤ capacity)
          (known : ∀ capture ∈ before, capture ∈ captured ∨ capture = label)
          (searched : search capacity labels before child = .found value captures) :
          captures.length ≤ capacity ∧
            ∀ capture ∈ captures, capture ∈ captured ∨ capture ∈ label :: labels := by
        obtain ⟨few, origins⟩ := hypothesis room searched
        refine ⟨few, fun capture member => ?_⟩
        rcases origins capture member with early | late
        · rcases known capture early with first | rfl
          · exact .inl first
          · exact .inr List.mem_cons_self
        · exact .inr (List.mem_cons_of_mem _ late)
      unfold search at found
      split at found
      · rename_i own ownCaptures searched
        cases found
        obtain ⟨child, _, inside⟩ := found_of_searchChildren searched
        exact later room (fun capture member => .inl member) inside
      · cases found
      · split at found
        · cases found
        · split at found
          · rename_i child free
            refine later (by rw [List.length_append]; exact free) (fun capture member => ?_) found
            simpa using member
          · cases found

end PatternTree
end HttpNative
