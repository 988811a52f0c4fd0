import HttpNative.Library.OctetReader
import Mathlib.Algebra.Group.Nat.Defs

/-!
# Readers that can panic

Code that walks over a row of octets by an offset of 64 bits: an index or a slice
beyond the row panics, and so does an offset that overflows. A walk that looks for
room first, in whatever portions, refines a reader that looks at each step; the
rules say how walks are put together and what is known between two of them.
-/

namespace HttpNative

/-- What comes of code that may panic. -/
inductive WalkResult (Error Value : Type) where
  | returned (value : Value)
  | refused (error : Error)
  | panicked

namespace WalkResult

variable {Error Other Value Result : Type}

instance : Monad (WalkResult Error) where
  pure := returned
  bind outcome next :=
    match outcome with
    | returned value => next value
    | refused error => refused error
    | panicked => panicked

def ofExcept : Except Error Value → WalkResult Error Value
  | .ok value => returned value
  | .error error => refused error

/-- Nothing in the place of an error; a panic goes on. -/
def optional : WalkResult Error Value → WalkResult Other (Option Value)
  | returned value => returned (some value)
  | refused _ => returned none
  | panicked => panicked

theorem optional_ofExcept
    (result : Except Error Value) :
    ((ofExcept result).optional : WalkResult Other (Option Value)) = returned result.toOption := by
  cases result with
  | ok value => rfl
  | error error => rfl

end WalkResult

/-- From a row and an offset to a value and the offset that is reached. -/
def CheckedReader (Error Value : Type) :=
  Octets → Nat → WalkResult Error (Value × Nat)

namespace CheckedReader

open WalkResult (returned refused panicked ofExcept)

variable {Error Value Result : Type}

instance : Monad (CheckedReader Error) where
  pure value := fun _ offset => returned (value, offset)
  bind reader next := fun row offset =>
    match reader row offset with
    | returned (value, behind) => next value row behind
    | refused error => refused error
    | panicked => panicked

/-- An offset is below this number. -/
def wordLimit : Nat := 2 ^ 64

/-- A row is no longer than this. -/
def rowLimit : Nat := 2 ^ 63

/-! ## Steps of a walk -/

def refuse (error : Error) : CheckedReader Error Value :=
  fun _ _ => refused error

/-- Whether there is a number of octets from the offset on. -/
def enough (length : Nat) : CheckedReader Error Bool :=
  fun row offset =>
    if offset + length < wordLimit then
      returned (decide (offset + length ≤ row.length), offset)
    else
      panicked

/-- Give up when there is no room. -/
def room (error : Error) (length : Nat) : CheckedReader Error Unit := do
  if ← enough length then
    pure ()
  else
    refuse error

/-- The octet at a distance from the offset. -/
def octet (distance : Nat) : CheckedReader Error UInt8 :=
  fun row offset =>
    match row[offset + distance]? with
    | some octet => returned (octet, offset)
    | none => panicked

/-- The octets from a distance on, one by one. -/
def octetsFrom (distance : Nat) : Nat → CheckedReader Error Octets
  | 0 => pure []
  | width + 1 => do
      let first ← octet distance
      let rest ← octetsFrom (distance + 1) width
      pure (first :: rest)

def slice (length : Nat) : CheckedReader Error Octets :=
  fun row offset =>
    if offset + length ≤ row.length then
      returned ((row.drop offset).take length, offset)
    else
      panicked

def advance (length : Nat) : CheckedReader Error Unit :=
  fun _ offset =>
    if offset + length < wordLimit then
      returned ((), offset + length)
    else
      panicked

/-- A number from its octets, without a look at the room. -/
def indexed (width : Nat) : CheckedReader Error Nat := do
  let taken ← octetsFrom 0 width
  advance width
  pure (LittleEndian.value taken)

/-- A number, after a look at the room. -/
def number (error : Error) (width : Nat) : CheckedReader Error Nat := do
  room error width
  indexed width

/-- Octets, without a look at the room. -/
def sliced (length : Nat) : CheckedReader Error Octets := do
  let taken ← slice length
  advance length
  pure taken

/-- Whether the next two octets are given ones; the second is only looked at when
the first is right. -/
def startsWith (first second : UInt8) : CheckedReader Error Bool := do
  let found ← octet 0
  if found ≠ first then
    pure false
  else
    let next ← octet 1
    pure (decide (next = second))

/-- The same walk over and over. -/
def times (reader : CheckedReader Error Value) : Nat → CheckedReader Error (List Value)
  | 0 => pure []
  | count + 1 => do
      let value ← reader
      let values ← times reader count
      pure (value :: values)

/-! ## Refinement -/

/-- From where the condition holds, the walk comes to what the reader reads, and it
does not panic; behind what is read the other condition holds. -/
structure Refines
    (before : Octets → Nat → Prop)
    (walk : CheckedReader Error Value)
    (reader : OctetReader Error Value)
    (after : Value → Octets → Nat → Prop) :
    Prop where
  same : ∀ row offset, before row offset → walk row offset = ofExcept (reader row offset)
  holds : ∀ row offset, before row offset → ∀ value behind,
    reader row offset = .ok (value, behind) → after value row behind

/-- A row with a number of octets from the offset on. -/
def Ahead (length : Nat) (row : Octets) (offset : Nat) : Prop :=
  row.length < rowLimit ∧ offset + length ≤ row.length

/-- An offset that is beyond the row by no more than a number. -/
def Within (slack : Nat) (row : Octets) (offset : Nat) : Prop :=
  row.length < rowLimit ∧ offset ≤ row.length + slack

theorem Ahead.within
    {length : Nat} {row : Octets} {offset : Nat}
    (ahead : Ahead length row offset) :
    Within 0 row offset :=
  ⟨ahead.1, by have := ahead.2; omega⟩

variable {before : Octets → Nat → Prop} {walk : CheckedReader Error Value}
  {reader : OctetReader Error Value} {after : Value → Octets → Nat → Prop}

theorem Refines.mono
    {earlier : Octets → Nat → Prop} {later : Value → Octets → Nat → Prop}
    (refines : Refines before walk reader after)
    (stronger : ∀ row offset, earlier row offset → before row offset)
    (weaker : ∀ value row offset, after value row offset → later value row offset) :
    Refines earlier walk reader later where
  same row offset holds := refines.same row offset (stronger row offset holds)
  holds row offset holds value behind read :=
    weaker value row behind (refines.holds row offset (stronger row offset holds) value behind read)

theorem refines_pure
    (value : Value)
    (after : Value → Octets → Nat → Prop) :
    Refines (after value) (pure value : CheckedReader Error Value)
      (pure value : OctetReader Error Value) after where
  same _ _ _ := rfl
  holds row offset holds := by
    intro _ _ read
    cases read
    exact holds

theorem refines_refuse
    (error : Error) :
    Refines before (refuse error : CheckedReader Error Value) (OctetReader.fail error) after where
  same _ _ _ := rfl
  holds row offset holds := by
    intro _ _ read
    cases read

/-- A fact that does not depend on the row may be used as such. -/
theorem refines_of_fact
    {fact : Prop}
    (refines : fact → Refines before walk reader after) :
    Refines (fun row offset => fact ∧ before row offset) walk reader after where
  same row offset holds := (refines holds.1).same row offset holds.2
  holds row offset holds := (refines holds.1).holds row offset holds.2

theorem Refines.bind
    {next : Value → CheckedReader Error Result} {readNext : Value → OctetReader Error Result}
    {behindAll : Result → Octets → Nat → Prop}
    (first : Refines before walk reader after)
    (second : ∀ value, Refines (after value) (next value) (readNext value) behindAll) :
    Refines before (walk >>= next) (reader >>= readNext) behindAll where
  same row offset holds := by
    have same := first.same row offset holds
    change (match walk row offset with
      | returned (value, behind) => next value row behind
      | refused error => refused error
      | panicked => panicked) = _
    rw [same]
    cases read : reader row offset with
    | error error =>
        rw [OctetReader.bind_of_error read]
        rfl
    | ok result =>
        obtain ⟨value, behind⟩ := result
        rw [OctetReader.bind_of_ok read]
        exact (second value).same row behind (first.holds row offset holds value behind read)
  holds row offset holds result behind read := by
    obtain ⟨value, middle, readFirst, readSecond⟩ := OctetReader.bind_eq_ok.mp read
    exact (second value).holds row middle (first.holds row offset holds value middle readFirst)
      result behind readSecond

/-- What holds before a walk and behind it holds behind all its rounds. -/
theorem Refines.times
    {steady : Octets → Nat → Prop}
    (round : Refines steady walk reader fun _ => steady)
    (count : Nat) :
    Refines steady (times walk count) (OctetReader.times reader count) fun _ => steady := by
  induction count with
  | zero => exact refines_pure [] fun _ => steady
  | succ count hypothesis =>
      exact round.bind fun value => hypothesis.bind fun values =>
        refines_pure (value :: values) fun _ => steady

/-! ## Walks without a look at the room -/

theorem bind_of_returned
    {next : Value → CheckedReader Error Result} {row : Octets} {offset behind : Nat}
    {value : Value}
    (walked : walk row offset = returned (value, behind)) :
    (walk >>= next) row offset = next value row behind := by
  change (match walk row offset with
    | returned (value, behind) => next value row behind
    | refused error => refused error
    | panicked => panicked) = _
  rw [walked]

theorem bind_of_refused
    {next : Value → CheckedReader Error Result} {row : Octets} {offset : Nat} {error : Error}
    (walked : walk row offset = refused error) :
    (walk >>= next) row offset = refused error := by
  change (match walk row offset with
    | returned (value, behind) => next value row behind
    | refused error => refused error
    | panicked => panicked) = _
  rw [walked]

theorem octetsFrom_of_ahead
    (distance : Nat)
    {width : Nat} {row : Octets} {offset : Nat}
    (enough : offset + distance + width ≤ row.length) :
    (octetsFrom distance width : CheckedReader Error Octets) row offset =
      returned ((row.drop (offset + distance)).take width, offset) := by
  induction width generalizing distance with
  | zero => rfl
  | succ width hypothesis =>
      have inside : offset + distance < row.length := by omega
      have first : (octet distance : CheckedReader Error UInt8) row offset =
          returned (row[offset + distance], offset) := by
        rw [octet, List.getElem?_eq_getElem inside]
      have rest := hypothesis (distance + 1) (by omega)
      rw [octetsFrom, bind_of_returned first, bind_of_returned rest, ← Nat.add_assoc,
        List.drop_eq_getElem_cons inside, List.take_succ_cons]
      rfl

theorem advance_of_small
    {length : Nat} {row : Octets} {offset : Nat}
    (small : offset + length < wordLimit) :
    (advance length : CheckedReader Error Unit) row offset = returned ((), offset + length) :=
  if_pos small

theorem wordLimit_of_ahead
    {length : Nat} {row : Octets} {offset : Nat}
    (ahead : Ahead length row offset) :
    offset + length < wordLimit := by
  have limits : rowLimit < wordLimit := by decide
  have := ahead.1
  have := ahead.2
  omega

theorem refines_indexed
    (error : Error)
    (width rest : Nat) :
    Refines (Ahead (width + rest)) (indexed width) (OctetReader.number error width)
      fun value row offset => value < LittleEndian.limit width ∧ Ahead rest row offset where
  same row offset ahead := by
    have enough : offset + width ≤ row.length := by
      have := ahead.2
      omega
    have read : OctetReader.number error width row offset =
        .ok (LittleEndian.value ((row.drop offset).take width), offset + width) :=
      OctetReader.number_eq_ok.mpr ⟨enough, rfl, rfl⟩
    rw [indexed, bind_of_returned (octetsFrom_of_ahead 0 enough),
      bind_of_returned (advance_of_small (wordLimit_of_ahead ⟨ahead.1, enough⟩)), read]
    rfl
  holds row offset ahead value behind read := by
    obtain ⟨_, rfl, rfl⟩ := OctetReader.number_eq_ok.mp read
    refine ⟨?_, ahead.1, by have := ahead.2; omega⟩
    exact lt_of_lt_of_le (LittleEndian.value_lt _)
      (LittleEndian.limit_mono (List.length_take_le _ _))

theorem refines_sliced
    (error : Error)
    (length rest : Nat) :
    Refines (Ahead (length + rest)) (sliced length) (OctetReader.take error length)
      fun _ => Ahead rest where
  same row offset ahead := by
    have enough : offset + length ≤ row.length := by
      have := ahead.2
      omega
    have taken : (slice length : CheckedReader Error Octets) row offset =
        returned ((row.drop offset).take length, offset) :=
      if_pos enough
    have read : OctetReader.take error length row offset =
        .ok ((row.drop offset).take length, offset + length) :=
      OctetReader.take_eq_ok.mpr ⟨enough, rfl, rfl⟩
    rw [sliced, bind_of_returned taken,
      bind_of_returned (advance_of_small (wordLimit_of_ahead ⟨ahead.1, enough⟩)), read]
    rfl
  holds row offset ahead value behind read := by
    obtain ⟨_, _, rfl⟩ := OctetReader.take_eq_ok.mp read
    exact ⟨ahead.1, by have := ahead.2; omega⟩

theorem refines_advance
    {length slack : Nat}
    (small : rowLimit + slack + length ≤ wordLimit) :
    Refines (Within slack) (advance length : CheckedReader Error Unit) (OctetReader.skip length)
      fun _ => Within (slack + length) where
  same row offset within := by
    have := within.1
    have := within.2
    exact advance_of_small (by omega)
  holds row offset within value behind read := by
    cases read
    exact ⟨within.1, by have := within.2; omega⟩

theorem refines_advance_ahead
    (length rest : Nat) :
    Refines (Ahead (length + rest)) (advance length : CheckedReader Error Unit)
      (OctetReader.skip length) fun _ => Ahead rest where
  same row offset ahead :=
    advance_of_small (wordLimit_of_ahead ⟨ahead.1, by have := ahead.2; omega⟩)
  holds row offset ahead value behind read := by
    cases read
    exact ⟨ahead.1, by have := ahead.2; omega⟩

/-! ## Looks at the room -/

theorem room_of_ahead
    {error : Error} {length : Nat} {row : Octets} {offset : Nat}
    (ahead : Ahead length row offset) :
    room error length row offset = returned ((), offset) := by
  have looked : (enough length : CheckedReader Error Bool) row offset =
      returned (true, offset) := by
    rw [enough, if_pos (wordLimit_of_ahead ahead), decide_eq_true ahead.2]
  rw [room, bind_of_returned looked]
  rfl

theorem room_of_short
    (error : Error)
    {length : Nat} {row : Octets} {offset : Nat}
    (small : offset + length < wordLimit)
    (short : row.length < offset + length) :
    room error length row offset = refused error := by
  have looked : (enough length : CheckedReader Error Bool) row offset =
      returned (false, offset) := by
    rw [enough, if_pos small, decide_eq_false (Nat.not_le_of_lt short)]
  rw [room, bind_of_returned looked]
  rfl

/-- A walk that looks for the room of several steps at once: the reader has to fail
in the same way wherever there is less. -/
theorem refines_room
    {error : Error} {length slack : Nat}
    (small : rowLimit + slack + length ≤ wordLimit)
    (short : ∀ row offset, row.length < offset + length → reader row offset = .error error)
    (rest : Refines (Ahead length) walk reader after) :
    Refines (Within slack) (room error length >>= fun _ => walk) reader after where
  same row offset within := by
    by_cases enough : offset + length ≤ row.length
    · rw [bind_of_returned (room_of_ahead ⟨within.1, enough⟩)]
      exact rest.same row offset ⟨within.1, enough⟩
    · have less := Nat.lt_of_not_le enough
      have looked := room_of_short error (by have := within.1; have := within.2; omega) less
      rw [bind_of_refused looked, short row offset less]
      rfl
  holds row offset within value behind read := by
    by_cases enough : offset + length ≤ row.length
    · exact rest.holds row offset ⟨within.1, enough⟩ value behind read
    · rw [short row offset (Nat.lt_of_not_le enough)] at read
      cases read

theorem take_of_short
    {error : Error} {length : Nat} {row : Octets} {offset : Nat}
    (short : row.length < offset + length) :
    OctetReader.take error length row offset = .error error :=
  if_neg (Nat.not_le_of_lt short)

theorem number_of_short
    {error : Error} {width : Nat} {row : Octets} {offset : Nat}
    (short : row.length < offset + width) :
    OctetReader.number error width row offset = .error error := by
  rw [OctetReader.number, OctetReader.bind_of_error (take_of_short short)]

theorem refines_number
    (error : Error)
    {width slack : Nat}
    (small : rowLimit + slack + width ≤ wordLimit) :
    Refines (Within slack) (number error width) (OctetReader.number error width)
      fun value row offset => value < LittleEndian.limit width ∧ Ahead 0 row offset :=
  refines_room small (fun _ _ => number_of_short) (refines_indexed error width 0)

theorem startsWith_of_ahead
    {first second : UInt8} {row : Octets} {offset : Nat}
    (ahead : Ahead 2 row offset) :
    (startsWith first second : CheckedReader Error Bool) row offset =
      returned (decide (row[offset]? = some first ∧ row[offset + 1]? = some second), offset) := by
  have inside : offset + 1 < row.length := by
    have := ahead.2
    omega
  have here : row[offset]? = some row[offset] := List.getElem?_eq_getElem (by omega)
  have behind : row[offset + 1]? = some row[offset + 1] := List.getElem?_eq_getElem inside
  have found : (octet 0 : CheckedReader Error UInt8) row offset = returned (row[offset], offset) := by
    rw [octet, Nat.add_zero, here]
  have next : (octet 1 : CheckedReader Error UInt8) row offset = returned (row[offset + 1], offset) := by
    rw [octet, behind]
  rw [startsWith, bind_of_returned found, here, behind]
  by_cases same : row[offset] = first
  · rw [if_neg (not_not_intro same), bind_of_returned next, same]
    simp only [Option.some.injEq, true_and]
    rfl
  · rw [if_pos same]
    simp only [Option.some.injEq, same, false_and, decide_false]
    rfl

/-- A row of octets of a length that was read. -/
theorem refines_take
    (error : Error)
    {length slack : Nat}
    (small : rowLimit + slack + length ≤ wordLimit)
    {next : Octets → CheckedReader Error Value} {readNext : Octets → OctetReader Error Value}
    (second : ∀ taken, Refines (Ahead 0) (next taken) (readNext taken) after) :
    Refines (Within slack)
      (do
        room error length
        let taken ← sliced length
        next taken)
      (do
        let taken ← OctetReader.take error length
        readNext taken)
      after :=
  refines_room small (fun _ _ short => OctetReader.bind_of_error (take_of_short short))
    ((refines_sliced error length 0).bind second)

/-- The octets that a format starts with, looked at before the walk goes on. -/
theorem refines_startsWith
    (rest : Nat)
    {error : Error} {first second : UInt8}
    (inside : Refines (Ahead rest) walk reader after) :
    Refines (Ahead (2 + rest))
      (do
        if ← startsWith first second then
          advance 2
          walk
        else
          refuse error)
      (do
        let found ← OctetReader.number error 1
        let next ← OctetReader.number error 1
        if found ≠ first.toNat ∨ next ≠ second.toNat then
          OctetReader.fail error
        else
          reader)
      after := by
  have looked {row : Octets} {offset : Nat} (ahead : Ahead (2 + rest) row offset) :
      Ahead 2 row offset ∧ Ahead rest row (offset + 2) := by
    have enough := ahead.2
    exact ⟨⟨ahead.1, by omega⟩, ahead.1, by omega⟩
  have single {row : Octets} {offset : Nat} (here : offset < row.length) :
      OctetReader.number error 1 row offset = .ok (row[offset].toNat, offset + 1) := by
    refine OctetReader.number_eq_ok.mpr ⟨here, ?_, rfl⟩
    rw [List.drop_eq_getElem_cons here]
    rfl
  have pair {row : Octets} {offset : Nat} (ahead : Ahead (2 + rest) row offset) :
      (do
        let found ← OctetReader.number error 1
        let next ← OctetReader.number error 1
        if found ≠ first.toNat ∨ next ≠ second.toNat then
          OctetReader.fail error
        else
          reader : OctetReader Error Value) row offset =
        if row[offset]? = some first ∧ row[offset + 1]? = some second then
          reader row (offset + 2)
        else
          .error error := by
    have enough := ahead.2
    have here : offset < row.length := by omega
    have next : offset + 1 < row.length := by omega
    rw [OctetReader.bind_of_ok (single here), OctetReader.bind_of_ok (single next),
      List.getElem?_eq_getElem here, List.getElem?_eq_getElem next]
    simp only [Option.some.injEq, UInt8.toNat_inj, ← not_and_or, ite_not, ne_eq]
    split
    · rfl
    · rfl
  constructor
  · intro row offset ahead
    rw [bind_of_returned (startsWith_of_ahead (looked ahead).1), pair ahead]
    by_cases found : row[offset]? = some first ∧ row[offset + 1]? = some second
    · rw [if_pos found, decide_eq_true found, if_pos rfl,
        bind_of_returned (advance_of_small (wordLimit_of_ahead (looked ahead).1))]
      exact inside.same row (offset + 2) (looked ahead).2
    · rw [if_neg found, decide_eq_false found, if_neg Bool.false_ne_true]
      rfl
  · intro row offset ahead value behind read
    rw [pair ahead] at read
    split at read
    · exact inside.holds row (offset + 2) (looked ahead).2 value behind read
    · cases read

end CheckedReader
end HttpNative
