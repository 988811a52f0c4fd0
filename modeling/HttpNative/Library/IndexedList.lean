import Mathlib.Data.List.Induction
import Mathlib.Data.List.Nodup

/-!
# Doubly linked lists over indices

A doubly linked list is stored as two partial maps `prev` and `next` between
indices together with a head and a tail index. The predicate `Threads` states
that such links spell out a given sequence of distinct indices from head to
tail. Pushing at the head and unlinking an arbitrary member are the only two
edits; each keeps the links threading the expected sequence.
-/

namespace HttpNative
namespace IndexedList

/-- Links of a doubly linked list whose cells are named by `ι`. -/
@[ext] structure Links (ι : Type) where
  prev : ι → Option ι
  next : ι → Option ι
  head : Option ι
  tail : Option ι

namespace Links

variable {ι : Type} [DecidableEq ι]

/-- Overwrite the successor of a cell, or the head when there is no cell. -/
def setNext (links : Links ι) : Option ι → Option ι → Links ι
  | none, target => { links with head := target }
  | some cell, target =>
      { links with next := Function.update links.next cell target }

/-- Overwrite the predecessor of a cell, or the tail when there is no cell. -/
def setPrev (links : Links ι) : Option ι → Option ι → Links ι
  | none, target => { links with tail := target }
  | some cell, target =>
      { links with prev := Function.update links.prev cell target }

/-- Take a cell out of the list by joining its two neighbours. -/
def unlink (links : Links ι) (cell : ι) : Links ι :=
  (links.setNext (links.prev cell) (links.next cell)).setPrev
    (links.next cell) (links.prev cell)

/-- Put a cell in front of the current head. -/
def pushFront (links : Links ι) (cell : ι) : Links ι :=
  let opened := (links.setPrev (some cell) none).setNext (some cell) links.head
  let joined :=
    match links.head with
    | some first => opened.setPrev (some first) (some cell)
    | none => opened
  { joined with
    head := some cell
    tail := if links.tail = none then some cell else links.tail }

/-- The cells `order` are linked one after the other, entered from `before`
and left towards `after`. -/
def Segment (links : Links ι) : Option ι → List ι → Option ι → Prop
  | _, [], _ => True
  | before, cell :: rest, after =>
      links.prev cell = before ∧
        links.next cell = rest.head?.or after ∧
        links.Segment (some cell) rest after

/-- The links visit exactly the cells of `order`, each once, from the head to
the tail. -/
structure Threads (links : Links ι) (order : List ι) : Prop where
  nodup : order.Nodup
  head_eq : links.head = order.head?
  tail_eq : links.tail = order.getLast?
  segment : links.Segment none order none

/-! ## Segments -/

omit [DecidableEq ι] in
/-- A segment splits at any point of its sequence. -/
theorem segment_append
    (links : Links ι)
    (before after : Option ι)
    (left right : List ι) :
    links.Segment before (left ++ right) after ↔
      links.Segment before left (right.head?.or after) ∧
        links.Segment (left.getLast?.or before) right after := by
  induction left generalizing before with
  | nil => simp [Segment]
  | cons cell rest inductionHypothesis =>
      have lastEquality :
          (cell :: rest).getLast?.or before = rest.getLast?.or (some cell) := by
        cases rest with
        | nil => simp
        | cons second others =>
            rw [List.getLast?_cons_cons]
            cases found : (second :: others).getLast? with
            | none => simp at found
            | some last => simp
      have headEquality :
          (rest ++ right).head?.or after =
            rest.head?.or (right.head?.or after) := by
        cases rest <;> simp
      simp only [List.cons_append, Segment, lastEquality, headEquality,
        inductionHypothesis, and_assoc]

omit [DecidableEq ι] in
/-- A segment only depends on the links of its own cells. -/
theorem segment_congr
    {links other : Links ι}
    {before after : Option ι}
    {order : List ι}
    (samePrev : ∀ cell ∈ order, other.prev cell = links.prev cell)
    (sameNext : ∀ cell ∈ order, other.next cell = links.next cell)
    (segment : links.Segment before order after) :
    other.Segment before order after := by
  induction order generalizing before with
  | nil => trivial
  | cons cell rest inductionHypothesis =>
      obtain ⟨prevEq, nextEq, restSegment⟩ := segment
      refine ⟨?_, ?_, ?_⟩
      · rw [samePrev cell (by simp), prevEq]
      · rw [sameNext cell (by simp), nextEq]
      · exact inductionHypothesis
          (fun other member => samePrev other (by simp [member]))
          (fun other member => sameNext other (by simp [member]))
          restSegment

/-- Redirecting the successor of the last cell moves the exit of a segment. -/
theorem segment_setNext_last
    {links : Links ι}
    {before after target : Option ι}
    {order : List ι}
    (nodup : order.Nodup)
    (segment : links.Segment before order after) :
    (links.setNext order.getLast? target).Segment before order target := by
  cases order using List.reverseRecOn with
  | nil => trivial
  | append_singleton initial last =>
      have lastFresh : last ∉ initial := by
        intro member
        have := List.nodup_append.mp nodup
        exact this.2.2 last member last (by simp) rfl
      rw [segment_append] at segment ⊢
      obtain ⟨initialSegment, lastSegment⟩ := segment
      simp only [List.getLast?_append, List.getLast?_singleton, List.head?_cons,
        Option.some_or, setNext] at initialSegment ⊢
      constructor
      · refine segment_congr ?_ ?_ initialSegment
        · exact fun _ _ => rfl
        · intro cell member
          have different : cell ≠ last := fun equal => lastFresh (equal ▸ member)
          simp [Function.update_of_ne different]
      · exact ⟨lastSegment.1, by simp, trivial⟩

/-- Redirecting the predecessor of the first cell moves the entry of a
segment. -/
theorem segment_setPrev_head
    {links : Links ι}
    {before after target : Option ι}
    {order : List ι}
    (nodup : order.Nodup)
    (segment : links.Segment before order after) :
    (links.setPrev order.head? target).Segment target order after := by
  cases order with
  | nil => trivial
  | cons first rest =>
      have firstFresh : first ∉ rest := (List.nodup_cons.mp nodup).1
      obtain ⟨-, nextEq, restSegment⟩ := segment
      simp only [List.head?_cons]
      refine ⟨by simp [setPrev], nextEq, ?_⟩
      refine segment_congr ?_ ?_ restSegment
      · intro cell member
        have different : cell ≠ first := fun equal =>
          firstFresh (equal ▸ member)
        simp [setPrev, Function.update_of_ne different]
      · exact fun _ _ => rfl

/-- Writes of a predecessor outside a sequence leave its segment alone. -/
theorem segment_setPrev_outside
    {links : Links ι}
    {before after source target : Option ι}
    {order : List ι}
    (outside : ∀ cell ∈ order, source ≠ some cell)
    (segment : links.Segment before order after) :
    (links.setPrev source target).Segment before order after := by
  refine segment_congr (fun cell member => ?_) (fun cell _ => ?_) segment
  · cases source with
    | none => rfl
    | some written =>
        have different : cell ≠ written := fun equal =>
          outside cell member (by rw [equal])
        simp [setPrev, Function.update_of_ne different]
  · cases source <;> rfl

/-- Writes of a successor outside a sequence leave its segment alone. -/
theorem segment_setNext_outside
    {links : Links ι}
    {before after source target : Option ι}
    {order : List ι}
    (outside : ∀ cell ∈ order, source ≠ some cell)
    (segment : links.Segment before order after) :
    (links.setNext source target).Segment before order after := by
  refine segment_congr (fun cell _ => ?_) (fun cell member => ?_) segment
  · cases source <;> rfl
  · cases source with
    | none => rfl
    | some written =>
        have different : cell ≠ written := fun equal =>
          outside cell member (by rw [equal])
        simp [setNext, Function.update_of_ne different]

@[simp] theorem setNext_head (links : Links ι) (source target : Option ι) :
    (links.setNext source target).head =
      if source = none then target else links.head := by
  cases source <;> simp [setNext]

@[simp] theorem setNext_tail (links : Links ι) (source target : Option ι) :
    (links.setNext source target).tail = links.tail := by
  cases source <;> rfl

@[simp] theorem setPrev_head (links : Links ι) (source target : Option ι) :
    (links.setPrev source target).head = links.head := by
  cases source <;> rfl

@[simp] theorem setPrev_tail (links : Links ι) (source target : Option ι) :
    (links.setPrev source target).tail =
      if source = none then target else links.tail := by
  cases source <;> simp [setPrev]

/-! ## The two edits -/

omit [DecidableEq ι] in
/-- Links around a member of a threaded sequence. -/
theorem Threads.neighbours
    {links : Links ι}
    {left right : List ι}
    {cell : ι}
    (threads : links.Threads (left ++ cell :: right)) :
    links.prev cell = left.getLast? ∧ links.next cell = right.head? := by
  have segment := threads.segment
  rw [segment_append] at segment
  obtain ⟨-, prevEq, nextEq, -⟩ := segment
  exact ⟨by simpa using prevEq, by simpa using nextEq⟩

/-- Unlinking a member leaves the other members threaded in order. -/
theorem Threads.unlink
    {links : Links ι}
    {left right : List ι}
    {cell : ι}
    (threads : links.Threads (left ++ cell :: right)) :
    (links.unlink cell).Threads (left ++ right) := by
  obtain ⟨prevEq, nextEq⟩ := threads.neighbours
  have split := List.nodup_append.mp threads.nodup
  have leftNodup : left.Nodup := split.1
  have rightNodup : right.Nodup := (List.nodup_cons.mp split.2.1).2
  have apart : ∀ one ∈ left, ∀ two ∈ right, one ≠ two :=
    fun one oneMember two twoMember =>
      split.2.2 one oneMember two (by simp [twoMember])
  have segment := threads.segment
  rw [segment_append] at segment
  obtain ⟨leftSegment, -, -, rightSegment⟩ := segment
  rw [Links.unlink, prevEq, nextEq]
  refine ⟨?_, ?_, ?_, ?_⟩
  · exact List.nodup_append.mpr ⟨leftNodup, rightNodup, apart⟩
  · rw [setPrev_head, setNext_head, threads.head_eq]
    cases left with
    | nil => simp
    | cons first rest => simp [List.getLast?_cons]
  · rw [setPrev_tail, setNext_tail, threads.tail_eq]
    cases right with
    | nil => simp
    | cons first rest => simp [List.getLast?_append, List.getLast?_cons]
  · rw [segment_append]
    constructor
    · have redirected : (links.setNext left.getLast? right.head?).Segment
          none left right.head? :=
        segment_setNext_last leftNodup leftSegment
      rw [Option.or_none]
      refine segment_setPrev_outside (fun one member equal => ?_) redirected
      exact apart one member one (List.mem_of_mem_head? equal) rfl
    · have untouched : (links.setNext left.getLast? right.head?).Segment
          (some cell) right none := by
        refine segment_setNext_outside (fun one member equal => ?_)
          rightSegment
        exact apart one (List.mem_of_getLast? equal) one member rfl
      rw [Option.or_none]
      exact segment_setPrev_head rightNodup untouched

/-- Pushing a fresh cell prepends it to the threaded sequence. -/
theorem Threads.pushFront
    {links : Links ι}
    {order : List ι}
    {cell : ι}
    (threads : links.Threads order)
    (fresh : cell ∉ order) :
    (links.pushFront cell).Threads (cell :: order) := by
  refine ⟨List.nodup_cons.mpr ⟨fresh, threads.nodup⟩, rfl, ?_, ?_⟩
  · simp only [Links.pushFront, threads.tail_eq]
    cases order with
    | nil => rfl
    | cons first rest => simp [List.getLast?_cons]
  · have segment := threads.segment
    cases order with
    | nil =>
        have empty : links.head = none := threads.head_eq
        simp [Links.pushFront, setPrev, setNext, Segment, empty]
    | cons first rest =>
        have headEq : links.head = some first := threads.head_eq
        have cellFirst : cell ≠ first := fun equal =>
          fresh (by simp [equal])
        have restFresh : cell ∉ rest := fun member =>
          fresh (by simp [member])
        have firstFresh : first ∉ rest :=
          (List.nodup_cons.mp threads.nodup).1
        obtain ⟨-, nextEq, restSegment⟩ := segment
        refine ⟨?_, ?_, ?_, ?_, ?_⟩
        · simp [Links.pushFront, setPrev, setNext, headEq,
            Function.update_of_ne cellFirst]
        · simp [Links.pushFront, setPrev, setNext, headEq]
        · simp [Links.pushFront, setPrev, setNext, headEq]
        · simpa [Links.pushFront, setPrev, setNext, headEq,
            Function.update_of_ne cellFirst.symm] using nextEq
        · refine segment_congr (fun one member => ?_) (fun one member => ?_)
            restSegment
          · have oneFirst : one ≠ first := fun equal =>
              firstFresh (equal ▸ member)
            have oneCell : one ≠ cell := fun equal =>
              restFresh (equal ▸ member)
            simp [Links.pushFront, setPrev, setNext, headEq,
              Function.update_of_ne oneFirst, Function.update_of_ne oneCell]
          · have oneCell : one ≠ cell := fun equal =>
              restFresh (equal ▸ member)
            simp [Links.pushFront, setPrev, setNext, headEq,
              Function.update_of_ne oneCell]

omit [DecidableEq ι] in
/-- The first cell of a threaded sequence is the head. -/
theorem Threads.mem_of_head
    {links : Links ι}
    {order : List ι}
    {cell : ι}
    (threads : links.Threads order)
    (headEq : links.head = some cell) :
    ∃ rest, order = cell :: rest := by
  rw [threads.head_eq] at headEq
  exact List.head?_eq_some_iff.mp headEq

end Links
end IndexedList
end HttpNative
