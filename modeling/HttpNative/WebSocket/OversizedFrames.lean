import HttpNative.WebSocket.Connections
import HttpNative.WebSocket.FrameStream

/-!
# Oversized frames

The frame reader has one answer for a frame that has not come whole and for one that
it will never take, and the message loop reads on for both. A buffer can be completed
just when the octets of its length, with those that are missing taken as zero, do not
come to more than a payload may have.
-/

namespace HttpNative
namespace WebSocket

/-- The octets that have come are the front of a frame. -/
def Completable (buf : Octets) : Prop :=
  ∃ more, (parseFrame (buf ++ more)).isSome

/-- The octets of a long length that have come are more than is allowed. -/
def declaresTooMuch : Octets → Bool
  | _ :: second :: rest =>
      (second &&& 0x7F).toNat = 127 &&
        maxPayloadSize < ofBigEndian ((rest ++ List.replicate 8 0).take 8)
  | _ => false

/-- The reader asks for more only of what more can complete, and the message loop does
not read on behind anything else. -/
def WaitsForMore (buf : Octets) : Prop :=
  (parseFrame buf = none → Completable buf) ∧
    ∀ (connection : Connection) (hasSender accepted : Bool), connection.buffer = buf →
      ¬ Completable buf → (connection.turn hasSender accepted).task ≠ .reading

/-! ## What the reader makes of a length -/

/-- A length that is allowed, and the octets for it. -/
theorem isSome_parseFrame
    {first second : UInt8} {rest : Octets} {payloadLength lengthEnd : Nat}
    (readLen : readLength (first :: second :: rest) (second &&& 0x7F).toNat =
      some (payloadLength, lengthEnd))
    (allowed : payloadLength ≤ maxPayloadSize)
    (enough : lengthEnd + 4 + payloadLength ≤ (first :: second :: rest).length) :
    (parseFrame (first :: second :: rest)).isSome := by
  unfold parseFrame readMaskKey
  dsimp only
  rw [readLen, Option.bind_some]
  dsimp only
  rw [if_neg (Nat.not_lt.mpr allowed)]
  split
  · rw [if_neg (by omega), Option.bind_some, if_neg (by dsimp only; omega)]
    rfl
  · rw [Option.bind_some, if_neg (by dsimp only; omega)]
    rfl

theorem marker_le
    (second : UInt8) :
    (second &&& 0x7F).toNat ≤ 127 := by
  rw [UInt8.toNat_and]
  exact Nat.and_le_right

/-- What is not too much is completed by enough octets. -/
theorem completable_of_not_declaresTooMuch
    {buf : Octets}
    (fits : declaresTooMuch buf = false) :
    Completable buf := by
  match buf, fits with
  | [], _ => exact ⟨[0, 0], rfl⟩
  | [first], _ => exact ⟨[0], by unfold parseFrame; rfl⟩
  | first :: second :: rest, fits =>
      let zeros : Octets := List.replicate (12 + maxPayloadSize) 0
      refine ⟨zeros, ?_⟩
      rw [List.cons_append, List.cons_append]
      have many : zeros.length = 12 + maxPayloadSize := List.length_replicate
      have total : (first :: second :: (rest ++ zeros)).length =
          14 + rest.length + maxPayloadSize := by
        rw [List.length_cons, List.length_cons, List.length_append, many]
        omega
      have short := marker_le second
      have wide : (65536 : Nat) ≤ maxPayloadSize := by decide
      by_cases medium : (second &&& 0x7F).toNat = 126
      · have two : ((rest ++ zeros).take 2).length = 2 := by
          rw [List.length_take, List.length_append, many]
          omega
        have bound := ofBigEndian_lt ((rest ++ zeros).take 2)
        rw [two] at bound
        have allowed : ofBigEndian ((rest ++ zeros).take 2) ≤ maxPayloadSize :=
          Nat.le_of_lt (Nat.lt_of_lt_of_le bound wide)
        have readLen : readLength (first :: second :: (rest ++ zeros)) (second &&& 0x7F).toNat =
            some (ofBigEndian ((rest ++ zeros).take 2), 4) := by
          rw [readLength, if_pos medium, if_neg (by omega)]
          rfl
        exact isSome_parseFrame readLen allowed (by omega)
      · by_cases long : (second &&& 0x7F).toNat = 127
        · have padded : (rest ++ zeros).take 8 = (rest ++ List.replicate 8 0).take 8 := by
            rw [List.take_append, List.take_append, List.take_replicate, List.take_replicate]
            congr 2
            omega
          rw [declaresTooMuch, decide_eq_true long, Bool.true_and, decide_eq_false_iff_not,
            Nat.not_lt, ← padded] at fits
          have readLen : readLength (first :: second :: (rest ++ zeros))
              (second &&& 0x7F).toNat = some (ofBigEndian ((rest ++ zeros).take 8), 10) := by
            rw [readLength, if_neg medium, if_pos long, if_neg (by omega)]
            rfl
          exact isSome_parseFrame readLen fits (by omega)
        · have readLen : readLength (first :: second :: (rest ++ zeros))
              (second &&& 0x7F).toNat = some ((second &&& 0x7F).toNat, 2) := by
            rw [readLength, if_neg medium, if_neg long]
          exact isSome_parseFrame readLen (by omega) (by omega)

/-- No octets complete what is too much. -/
theorem not_completable_of_declaresTooMuch
    {buf : Octets}
    (tooMuch : declaresTooMuch buf = true) :
    ¬ Completable buf := by
  rintro ⟨more, parsed⟩
  match buf, tooMuch with
  | first :: second :: rest, tooMuch =>
      rw [declaresTooMuch, Bool.and_eq_true, decide_eq_true_eq, decide_eq_true_eq] at tooMuch
      obtain ⟨long, large⟩ := tooMuch
      have not126 : (127 : Nat) ≠ 126 := by decide
      rw [List.cons_append, List.cons_append] at parsed
      unfold parseFrame at parsed
      dsimp only at parsed
      rw [long, readLength, if_neg not126, if_pos rfl] at parsed
      split at parsed
      case isTrue => cases parsed
      case isFalse enough =>
          have eight : 8 ≤ (rest ++ more).length := by
            rw [List.length_cons, List.length_cons] at enough
            omega
          have declared : maxPayloadSize <
              ofBigEndian (((first :: second :: (rest ++ more)).drop 2).take 8) :=
            Nat.lt_of_lt_of_le large (ofBigEndian_zeros_le eight)
          rw [Option.bind_some] at parsed
          dsimp only at parsed
          rw [if_pos declared] at parsed
          cases parsed

/-- More is waited for just when the length does not declare too much. -/
theorem waitsForMore_iff
    (buf : Octets) :
    WaitsForMore buf ↔ declaresTooMuch buf = false := by
  constructor
  · rintro ⟨completes, -⟩
    by_contra tooMuch
    have hopeless := not_completable_of_declaresTooMuch (Bool.eq_true_of_not_eq_false tooMuch)
    refine hopeless (completes ?_)
    cases parsed : parseFrame buf with
    | none => rfl
    | some result =>
        refine absurd ⟨[], ?_⟩ hopeless
        rw [List.append_nil, parsed]
        rfl
  · intro fits
    have completable := completable_of_not_declaresTooMuch fits
    exact ⟨fun _ => completable, fun _ _ _ _ hopeless => absurd completable hopeless⟩

/-- On what declares too much the loop waits for the client, once it has nothing to
send. -/
theorem reading_of_declaresTooMuch
    {connection : Connection}
    (tooMuch : declaresTooMuch connection.buffer = true)
    (nothing : connection.channel.receive = none)
    (accepted : Bool) :
    (connection.turn true accepted).task = .reading := by
  have silent : parseFrame connection.buffer = none := by
    cases parsed : parseFrame connection.buffer with
    | none => rfl
    | some result =>
        refine absurd ⟨[], ?_⟩ (not_completable_of_declaresTooMuch tooMuch)
        rw [List.append_nil, parsed]
        rfl
  rw [Connection.turn, silent, nothing]
  rfl

/-- The header of a masked binary frame of one octet more than is allowed. -/
def oversizedHeader : Octets :=
  [0x82, 0xFF, 0, 0, 0, 0, 1, 0, 0, 1, 0, 0, 0, 0]

theorem not_waitsForMore :
    ¬ ∀ buf, WaitsForMore buf := by
  intro waits
  have fits := (waitsForMore_iff oversizedHeader).mp (waits oversizedHeader)
  exact absurd fits (by decide)

end WebSocket
end HttpNative
