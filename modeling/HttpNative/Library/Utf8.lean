import HttpNative.Library.Text
import Mathlib.Tactic.IntervalCases

/-!
# UTF-8 decoding, one octet at a time

A decoder reads octets into a pending character. An octet completes a
character, extends the pending one, or fits nowhere. The lossy decoder answers
the last case with U+FFFD and reads the octet again as a first octet; a strict
reader fails there.
-/

namespace HttpNative
namespace Utf8

/-- What the decoder is owed: how many octets are missing, the bounds of the
next one, and the bits collected so far. -/
structure Pending where
  missing : Nat
  lower : Nat
  upper : Nat
  codePoint : Nat
deriving DecidableEq, Repr

/-- Between two characters. -/
def Pending.idle : Pending where
  missing := 0
  lower := 0x80
  upper := 0xBF
  codePoint := 0

/-- What reading an octet leads to. -/
inductive Reading where
  | complete (char : Char)
  | more (pending : Pending)
  | invalid
deriving DecidableEq, Repr

/-- Read the first octet of a character. -/
def readFirst (octet : Nat) : Reading :=
  if octet ≤ 0x7F then .complete (Char.ofNat octet)
  else if octet ≤ 0xC1 then .invalid
  else if octet ≤ 0xDF then .more ⟨1, 0x80, 0xBF, octet - 0xC0⟩
  else if octet = 0xE0 then .more ⟨2, 0xA0, 0xBF, 0⟩
  else if octet = 0xED then .more ⟨2, 0x80, 0x9F, 0xD⟩
  else if octet ≤ 0xEF then .more ⟨2, 0x80, 0xBF, octet - 0xE0⟩
  else if octet = 0xF0 then .more ⟨3, 0x90, 0xBF, 0⟩
  else if octet ≤ 0xF3 then .more ⟨3, 0x80, 0xBF, octet - 0xF0⟩
  else if octet = 0xF4 then .more ⟨3, 0x80, 0x8F, 4⟩
  else .invalid

/-- Read an octet that continues a pending character. -/
def readNext (pending : Pending) (octet : Nat) : Reading :=
  if pending.lower ≤ octet ∧ octet ≤ pending.upper then
    let codePoint := pending.codePoint * 64 + (octet - 0x80)
    if pending.missing = 1 then
      .complete (Char.ofNat codePoint)
    else
      .more ⟨pending.missing - 1, 0x80, 0xBF, codePoint⟩
  else
    .invalid

def read (pending : Pending) (octet : Nat) : Reading :=
  if pending.missing = 0 then readFirst octet else readNext pending octet

def replacement : Char := '\uFFFD'

/-- What a reading writes, and what it leaves pending, when an octet that fits
nowhere is replaced. -/
def replaceInvalid : Reading → Text × Pending
  | .complete char => ([char], .idle)
  | .more pending => ([], pending)
  | .invalid => ([replacement], .idle)

/-- Read an octet; one that does not continue the pending character replaces
that character and is read again as a first octet. -/
def stepLossy (pending : Pending) (octet : Nat) : Text × Pending :=
  match read pending octet with
  | .invalid =>
      if pending.missing = 0 then
        ([replacement], .idle)
      else
        (replacement :: (replaceInvalid (readFirst octet)).1,
          (replaceInvalid (readFirst octet)).2)
  | reading => replaceInvalid reading

/-- Decode with replacement from a pending character on. -/
def decodeLossyFrom : Pending → List UInt8 → Text
  | pending, [] => if pending.missing = 0 then [] else [replacement]
  | pending, octet :: octets =>
      (stepLossy pending octet.toNat).1 ++
        decodeLossyFrom (stepLossy pending octet.toNat).2 octets

def decodeLossy (octets : List UInt8) : Text :=
  decodeLossyFrom .idle octets

/-- Decode octets that are all well formed, from a pending character on. -/
def decodeFrom : Pending → List UInt8 → Option Text
  | pending, [] => if pending.missing = 0 then some [] else none
  | pending, octet :: octets =>
      match read pending octet.toNat with
      | .complete char => (decodeFrom .idle octets).map (char :: ·)
      | .more next => decodeFrom next octets
      | .invalid => none

/-- The text of well-formed octets. -/
def decode (octets : List UInt8) : Option Text :=
  decodeFrom .idle octets

/-- The octets of a text. -/
def encode (input : Text) : List UInt8 :=
  input.flatMap String.utf8EncodeChar

theorem decodeLossyFrom_cons_complete
    {pending : Pending} {octet : UInt8} {char : Char}
    (completes : read pending octet.toNat = .complete char)
    (octets : List UInt8) :
    decodeLossyFrom pending (octet :: octets) =
      char :: decodeLossyFrom .idle octets := by
  rw [decodeLossyFrom]
  simp [stepLossy, completes, replaceInvalid]

theorem decodeLossyFrom_cons_more
    {pending next : Pending} {octet : UInt8}
    (extends_ : read pending octet.toNat = .more next)
    (octets : List UInt8) :
    decodeLossyFrom pending (octet :: octets) = decodeLossyFrom next octets := by
  rw [decodeLossyFrom]
  simp [stepLossy, extends_, replaceInvalid]

/-- Between characters the bounds and the bits collected do not matter. -/
theorem decodeLossyFrom_of_missing_eq_zero
    {pending : Pending}
    (between : pending.missing = 0)
    (octets : List UInt8) :
    decodeLossyFrom pending octets = decodeLossyFrom .idle octets := by
  cases octets with
  | nil => simp [decodeLossyFrom, between, Pending.idle]
  | cons octet rest =>
      simp [decodeLossyFrom, stepLossy, read, between, Pending.idle]

/-- What the strict decoder returns, the lossy one returns. -/
theorem decodeLossyFrom_of_decodeFrom
    {pending : Pending} {octets : List UInt8} {output : Text}
    (decodes : decodeFrom pending octets = some output) :
    decodeLossyFrom pending octets = output := by
  induction octets generalizing pending output with
  | nil =>
      rw [decodeFrom] at decodes
      rw [decodeLossyFrom]
      split at decodes
      · rename_i complete
        rw [if_pos complete, Option.some.inj decodes]
      · cases decodes
  | cons octet rest hypothesis =>
      rw [decodeFrom] at decodes
      split at decodes
      · rename_i completes
        obtain ⟨tail, tailDecodes, rfl⟩ := Option.map_eq_some_iff.mp decodes
        rw [decodeLossyFrom_cons_complete completes, hypothesis tailDecodes]
      · rename_i continues
        rw [decodeLossyFrom_cons_more continues, hypothesis decodes]
      · cases decodes

theorem decodeLossy_of_decode
    {octets : List UInt8} {output : Text}
    (decodes : decode octets = some output) :
    decodeLossy octets = output :=
  decodeLossyFrom_of_decodeFrom decodes

theorem replacement_mem_of_invalid
    {pending : Pending} {octet : UInt8}
    (invalid : read pending octet.toNat = .invalid)
    (octets : List UInt8) :
    replacement ∈ decodeLossyFrom pending (octet :: octets) := by
  rw [decodeLossyFrom, stepLossy, invalid, List.mem_append]
  apply Or.inl
  by_cases between : pending.missing = 0 <;> simp [between]

/-! ## The octets of a character read back as that character -/

theorem toNat_ofNat_of_lt
    {octet : Nat}
    (small : octet < 256) :
    (UInt8.ofNat octet).toNat = octet := by
  simp [Nat.mod_eq_of_lt small]

theorem readNext_more
    {missing lower upper codePoint low : Nat}
    (several : 2 ≤ missing)
    (above : lower ≤ low + 128)
    (below : low + 128 ≤ upper)
    (small : low < 64) :
    read ⟨missing, lower, upper, codePoint⟩ (UInt8.ofNat (low + 128)).toNat =
      .more ⟨missing - 1, 0x80, 0xBF, codePoint * 64 + low⟩ := by
  rw [toNat_ofNat_of_lt (by omega), read, if_neg (by simp; omega), readNext]
  simp only [above, below, and_self, if_true]
  rw [if_neg (by omega), Nat.add_sub_cancel]

theorem readNext_complete
    {lower upper codePoint low : Nat}
    (above : lower ≤ low + 128)
    (below : low + 128 ≤ upper)
    (small : low < 64) :
    read ⟨1, lower, upper, codePoint⟩ (UInt8.ofNat (low + 128)).toNat =
      .complete (Char.ofNat (codePoint * 64 + low)) := by
  rw [toNat_ofNat_of_lt (by omega), read, if_neg (by simp), readNext]
  simp only [above, below, and_self, if_true, Nat.add_sub_cancel]

theorem read_idle
    (octet : Nat) :
    read .idle octet = readFirst octet := by
  rw [read, if_pos (by simp [Pending.idle])]

theorem readFirst_two
    {high : Nat}
    (above : 2 ≤ high)
    (below : high < 32) :
    read .idle (UInt8.ofNat (high + 192)).toNat = .more ⟨1, 0x80, 0xBF, high⟩ := by
  rw [toNat_ofNat_of_lt (by omega), read_idle, readFirst,
    if_neg (by omega), if_neg (by omega), if_pos (by omega), Nat.add_sub_cancel]

theorem readFirst_three
    {high : Nat}
    (below : high < 16) :
    read .idle (UInt8.ofNat (high + 224)).toNat =
      .more ⟨2, if high = 0 then 0xA0 else 0x80, if high = 13 then 0x9F else 0xBF, high⟩ := by
  rw [toNat_ofNat_of_lt (by omega), read_idle, readFirst,
    if_neg (by omega), if_neg (by omega), if_neg (by omega)]
  by_cases first : high = 0
  · simp [first]
  by_cases surrogates : high = 13
  · simp [surrogates]
  rw [if_neg (by omega), if_neg (by omega), if_pos (by omega), if_neg first,
    if_neg surrogates, Nat.add_sub_cancel]

theorem readFirst_four
    {high : Nat}
    (below : high < 5) :
    read .idle (UInt8.ofNat (high + 240)).toNat =
      .more ⟨3, if high = 0 then 0x90 else 0x80, if high = 4 then 0x8F else 0xBF, high⟩ := by
  rw [toNat_ofNat_of_lt (by omega), read_idle]
  interval_cases high <;> rfl

/-- A character is no surrogate and lies in the range of Unicode. -/
theorem toNat_valid
    (char : Char) :
    char.val.toNat < 0xD800 ∨ 0xDFFF < char.val.toNat ∧ char.val.toNat < 0x110000 :=
  char.valid

/-- Reading the octets from a pending character on completes the character. -/
inductive Completes : Pending → List UInt8 → Char → Prop
  | last {pending : Pending} {octet : UInt8} {char : Char} :
      read pending octet.toNat = .complete char →
      Completes pending [octet] char
  | more {pending next : Pending} {octet : UInt8} {octets : List UInt8} {char : Char} :
      read pending octet.toNat = .more next →
      Completes next octets char →
      Completes pending (octet :: octets) char

/-- The octets of a character complete it. -/
theorem completes_utf8EncodeChar
    (char : Char) :
    Completes .idle (String.utf8EncodeChar char) char := by
  have valid := toNat_valid char
  have self : Char.ofNat char.val.toNat = char := Char.ofNat_toNat char
  generalize codePoint : char.val.toNat = point at valid self
  unfold String.utf8EncodeChar
  simp only [codePoint]
  split
  · rename_i one
    apply Completes.last
    rw [toNat_ofNat_of_lt (by omega), read_idle, readFirst, if_pos one, self]
  split
  · rename_i notOne two
    refine .more (readFirst_two (by omega) (by omega)) (.last ?_)
    rw [readNext_complete (by omega) (by omega) (by omega), ← self]
    congr 2
    omega
  split
  · rename_i notTwo three
    refine .more (readFirst_three (by omega)) (.more
      (readNext_more (by omega) (by split <;> omega) (by split <;> omega) (by omega)) (.last ?_))
    rw [readNext_complete (by omega) (by omega) (by omega), ← self]
    congr 2
    omega
  · rename_i notThree
    refine .more (readFirst_four (by omega)) (.more
      (readNext_more (by omega) (by split <;> omega) (by split <;> omega) (by omega)) (.more
        (readNext_more (by omega) (by omega) (by omega) (by omega)) (.last ?_)))
    rw [readNext_complete (by omega) (by omega) (by omega), ← self]
    congr 2
    omega

theorem decodeLossyFrom_of_completes
    {pending : Pending} {start : List UInt8} {char : Char}
    (completes : Completes pending start char)
    (octets : List UInt8) :
    decodeLossyFrom pending (start ++ octets) = char :: decodeLossyFrom .idle octets := by
  induction completes with
  | last reads => exact decodeLossyFrom_cons_complete reads octets
  | more reads _ hypothesis =>
      rw [List.cons_append, decodeLossyFrom_cons_more reads, hypothesis]

theorem decodeFrom_of_completes
    {pending : Pending} {start : List UInt8} {char : Char}
    (completes : Completes pending start char)
    (octets : List UInt8) :
    decodeFrom pending (start ++ octets) = (decodeFrom .idle octets).map (char :: ·) := by
  induction completes with
  | last reads =>
      rw [List.singleton_append, decodeFrom, reads]
  | more reads _ hypothesis =>
      rw [List.cons_append, decodeFrom, reads]
      exact hypothesis

/-- Decoding starts with the character whose octets come first. -/
theorem decodeLossyFrom_utf8EncodeChar
    (char : Char)
    (octets : List UInt8) :
    decodeLossyFrom .idle (String.utf8EncodeChar char ++ octets) =
      char :: decodeLossyFrom .idle octets :=
  decodeLossyFrom_of_completes (completes_utf8EncodeChar char) octets

/-- The octets of a text are well formed. -/
theorem decode_encode
    (input : Text) :
    decode (encode input) = some input := by
  unfold decode
  induction input with
  | nil => rfl
  | cons char rest hypothesis =>
      unfold encode at hypothesis ⊢
      rw [List.flatMap_cons, decodeFrom_of_completes (completes_utf8EncodeChar char), hypothesis]
      rfl

/-- Different texts have different octets. -/
theorem encode_inj
    {left right : Text} :
    encode left = encode right ↔ left = right := by
  constructor
  · intro same
    have decoded := congrArg decode same
    rwa [decode_encode, decode_encode, Option.some.injEq] at decoded
  · rintro rfl
    rfl

/-- Decoding undoes encoding. -/
theorem decodeLossy_encode
    (input : Text) :
    decodeLossy (encode input) = input := by
  unfold decodeLossy
  induction input with
  | nil => rfl
  | cons char rest hypothesis =>
      unfold encode at hypothesis ⊢
      rw [List.flatMap_cons, decodeLossyFrom_utf8EncodeChar, hypothesis]

/-! ## How much decoding writes -/

/-- The next octet is bounded by the continuation octets. -/
def Pending.Bounded (pending : Pending) : Prop :=
  0x80 ≤ pending.lower ∧ pending.upper ≤ 0xBF

/-- The replacement character that is due if nothing follows. -/
def Pending.owed (pending : Pending) : Nat :=
  if pending.missing = 0 then 0 else 1

theorem Pending.bounded_idle : Pending.idle.Bounded := by
  simp [Pending.Bounded, Pending.idle]

theorem bounded_of_readFirst_eq_more
    {octet : Nat} {next : Pending}
    (continues : readFirst octet = .more next) :
    next.Bounded := by
  revert continues
  unfold readFirst
  repeat' split
  all_goals
    intro continues
    cases continues
    try simp [Pending.Bounded]

theorem bounded_of_read_eq_more
    {pending next : Pending} {octet : Nat}
    (continues : read pending octet = .more next) :
    next.Bounded := by
  unfold read at continues
  split at continues
  · exact bounded_of_readFirst_eq_more continues
  · unfold readNext at continues
    split at continues
    · split at continues
      · cases continues
      · cases continues
        simp [Pending.Bounded]
    · cases continues

theorem bounded_replaceInvalid
    {reading : Reading}
    (bounded : ∀ next, reading = .more next → next.Bounded) :
    (replaceInvalid reading).2.Bounded := by
  cases reading with
  | complete char => exact Pending.bounded_idle
  | more next => exact bounded next rfl
  | invalid => exact Pending.bounded_idle

theorem bounded_stepLossy
    (pending : Pending)
    (octet : Nat) :
    (stepLossy pending octet).2.Bounded := by
  unfold stepLossy
  split
  · split
    · exact Pending.bounded_idle
    · exact bounded_replaceInvalid fun _ => bounded_of_readFirst_eq_more
  · exact bounded_replaceInvalid fun _ => bounded_of_read_eq_more

theorem length_replaceInvalid
    (reading : Reading) :
    (replaceInvalid reading).1.length + (replaceInvalid reading).2.owed ≤ 1 := by
  cases reading with
  | complete char => simp [replaceInvalid, Pending.owed, Pending.idle]
  | more next =>
      by_cases between : next.missing = 0 <;> simp [replaceInvalid, Pending.owed, between]
  | invalid => simp [replaceInvalid, Pending.owed, Pending.idle]

/-- An octet writes at most one character, apart from the one that was due. -/
theorem length_stepLossy
    (pending : Pending)
    (octet : Nat) :
    (stepLossy pending octet).1.length + (stepLossy pending octet).2.owed ≤
      1 + pending.owed := by
  unfold stepLossy
  split
  · split
    · simp [Pending.owed, Pending.idle]
    · rename_i pendingOctets
      have bound := length_replaceInvalid (readFirst octet)
      rw [show pending.owed = 1 from if_neg pendingOctets]
      simp only [List.length_cons]
      omega
  · exact (length_replaceInvalid _).trans (by omega)

theorem length_decodeLossyFrom
    (pending : Pending)
    (octets : List UInt8) :
    (decodeLossyFrom pending octets).length ≤ octets.length + pending.owed := by
  induction octets generalizing pending with
  | nil =>
      rw [decodeLossyFrom, Pending.owed]
      split <;> simp
  | cons octet rest hypothesis =>
      have written := length_stepLossy pending octet.toNat
      have others := hypothesis (stepLossy pending octet.toNat).2
      rw [decodeLossyFrom, List.length_append, List.length_cons]
      omega

/-- Decoding writes at most one character for an octet. -/
theorem length_decodeLossy
    (octets : List UInt8) :
    (decodeLossy octets).length ≤ octets.length :=
  length_decodeLossyFrom .idle octets

theorem length_decodeFrom
    {pending : Pending} {octets : List UInt8} {input : Text}
    (decoded : decodeFrom pending octets = some input) :
    input.length ≤ octets.length := by
  induction octets generalizing pending input with
  | nil =>
      rw [decodeFrom] at decoded
      split at decoded
      · cases decoded
        exact Nat.le_refl 0
      · cases decoded
  | cons octet rest hypothesis =>
      rw [decodeFrom] at decoded
      split at decoded
      · obtain ⟨others, read, rfl⟩ := Option.map_eq_some_iff.mp decoded
        exact Nat.succ_le_succ (hypothesis read)
      · exact Nat.le_succ_of_le (hypothesis decoded)
      · cases decoded

/-- A character takes at most four octets. -/
theorem length_encode
    (input : Text) :
    (encode input).length ≤ 4 * input.length := by
  induction input with
  | nil => exact Nat.le_refl 0
  | cons char rest hypothesis =>
      have size := Char.utf8Size_le_four char
      unfold encode at hypothesis ⊢
      rw [List.flatMap_cons, List.length_append, String.length_utf8EncodeChar, List.length_cons]
      omega

/-- An octet that continues nothing completes the pending character with a
replacement and is read as a first octet. -/
theorem decodeLossyFrom_cons_of_not_continuation
    {pending : Pending} {octet : UInt8}
    (bounded : pending.Bounded)
    (outside : octet.toNat < 0x80 ∨ 0xBF < octet.toNat)
    (octets : List UInt8) :
    decodeLossyFrom pending (octet :: octets) =
      List.replicate pending.owed replacement ++ decodeLossyFrom .idle (octet :: octets) := by
  by_cases between : pending.missing = 0
  · rw [decodeLossyFrom_of_missing_eq_zero between]
    simp [Pending.owed, between]
  · have invalid : read pending octet.toNat = .invalid := by
      rw [read, if_neg between, readNext, if_neg (by
        obtain ⟨above, below⟩ := bounded
        omega)]
    have again : stepLossy .idle octet.toNat = replaceInvalid (readFirst octet.toNat) := by
      rw [stepLossy, read_idle]
      cases readFirst octet.toNat <;> rfl
    rw [decodeLossyFrom, decodeLossyFrom, again, stepLossy, invalid]
    simp [Pending.owed, between]

/-- The first octet of a character continues nothing. -/
theorem utf8EncodeChar_eq_cons
    (char : Char) :
    ∃ octet octets, String.utf8EncodeChar char = octet :: octets ∧
      (octet.toNat < 0x80 ∨ 0xBF < octet.toNat) := by
  have valid := toNat_valid char
  unfold String.utf8EncodeChar
  generalize char.val.toNat = point at valid
  simp only
  split
  · exact ⟨_, _, rfl, .inl (by rw [toNat_ofNat_of_lt (by omega)]; omega)⟩
  split
  · exact ⟨_, _, rfl, .inr (by rw [toNat_ofNat_of_lt (by omega)]; omega)⟩
  split
  · exact ⟨_, _, rfl, .inr (by rw [toNat_ofNat_of_lt (by omega)]; omega)⟩
  · exact ⟨_, _, rfl, .inr (by rw [toNat_ofNat_of_lt (by omega)]; omega)⟩

theorem decodeLossyFrom_pending_utf8EncodeChar
    {pending : Pending}
    (bounded : pending.Bounded)
    (char : Char)
    (octets : List UInt8) :
    decodeLossyFrom pending (String.utf8EncodeChar char ++ octets) =
      List.replicate pending.owed replacement ++ char :: decodeLossyFrom .idle octets := by
  rw [← decodeLossyFrom_utf8EncodeChar]
  obtain ⟨octet, others, encoded, outside⟩ := utf8EncodeChar_eq_cons char
  rw [encoded, List.cons_append, decodeLossyFrom_cons_of_not_continuation bounded outside]

end Utf8
end HttpNative
