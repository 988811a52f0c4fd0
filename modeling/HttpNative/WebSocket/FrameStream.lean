import HttpNative.WebSocket.FrameCoding

/-!
# Rows of frames

The frames of either side stand one after the other in a buffer, masked or not and with
any of the three ways to write a length, and behind them a frame that has not come whole.
The reader of the native layer takes them out one by one and leaves the rest.
-/

namespace HttpNative
namespace WebSocket

/-! ## Parts of frames -/

theorem readLength_append
    {buf : Octets} {short : Nat} {result : Nat × Nat}
    (read : readLength buf short = some result)
    (more : Octets) :
    readLength (buf ++ more) short = some result := by
  unfold readLength at read ⊢
  split at read
  case isTrue medium =>
      rw [Option.ite_none_left_eq_some] at read
      obtain ⟨enough, same⟩ := read
      cases same
      have atLeast : 2 ≤ (buf.drop 2).length := by
        rw [List.length_drop]
        omega
      rw [if_pos medium, if_neg (by rw [List.length_append]; omega),
        List.drop_append_of_le_length (by omega), List.take_append_of_le_length atLeast]
  case isFalse notMedium =>
      rw [if_neg notMedium]
      split at read
      case isTrue long =>
          rw [Option.ite_none_left_eq_some] at read
          obtain ⟨enough, same⟩ := read
          cases same
          have atLeast : 8 ≤ (buf.drop 2).length := by
            rw [List.length_drop]
            omega
          rw [if_pos long, if_neg (by rw [List.length_append]; omega),
            List.drop_append_of_le_length (by omega), List.take_append_of_le_length atLeast]
      case isFalse notLong =>
          rw [if_neg notLong]
          exact read

theorem readMaskKey_append
    {buf : Octets} {masked : Bool} {offset : Nat} {result : Octets × Nat}
    (read : readMaskKey buf masked offset = some result)
    (more : Octets) :
    readMaskKey (buf ++ more) masked offset = some result := by
  unfold readMaskKey at read ⊢
  split at read
  case isTrue isMasked =>
      rw [Option.ite_none_left_eq_some] at read
      obtain ⟨enough, same⟩ := read
      cases same
      have atLeast : 4 ≤ (buf.drop offset).length := by
        rw [List.length_drop]
        omega
      rw [if_pos isMasked, if_neg (by rw [List.length_append]; omega),
        List.drop_append_of_le_length (by omega), List.take_append_of_le_length atLeast]
  case isFalse notMasked =>
      rw [if_neg notMasked]
      exact read

/-- A frame that is read is read as well when more follows. -/
theorem parseFrame_append
    {buf : Octets} {result : WsFrame × Nat}
    (parsed : parseFrame buf = some result)
    (more : Octets) :
    parseFrame (buf ++ more) = some result := by
  match buf, parsed with
  | first :: second :: rest, parsed =>
      rw [parseFrame] at parsed
      dsimp only at parsed
      obtain ⟨⟨payloadLength, lengthEnd⟩, lengthRead, parsed⟩ := Option.bind_eq_some_iff.mp parsed
      rw [Option.ite_none_left_eq_some] at parsed
      obtain ⟨allowed, parsed⟩ := parsed
      obtain ⟨⟨key, offset⟩, keyRead, parsed⟩ := Option.bind_eq_some_iff.mp parsed
      rw [Option.ite_none_left_eq_some] at parsed
      obtain ⟨enough, same⟩ := parsed
      cases same
      have longer := readLength_append lengthRead more
      have longerKey := readMaskKey_append keyRead more
      have atLeast : payloadLength ≤ ((first :: second :: rest).drop offset).length := by
        rw [List.length_drop]
        omega
      rw [List.cons_append, List.cons_append] at longer longerKey
      rw [List.cons_append, List.cons_append, parseFrame]
      dsimp only
      rw [longer, Option.bind_some]
      dsimp only
      rw [if_neg allowed, longerKey, Option.bind_some]
      dsimp only
      rw [← List.cons_append, ← List.cons_append, if_neg (by rw [List.length_append]; omega),
        List.drop_append_of_le_length (by omega), List.take_append_of_le_length atLeast]

/-- What is not yet the whole frame is not read as one. -/
theorem parseFrame_of_prefix
    {frame : WireFrame} {part : Octets}
    (inside : part <+: frame.encode)
    (notWhole : part ≠ frame.encode) :
    parseFrame part = none := by
  obtain ⟨more, whole⟩ := inside
  cases parsed : parseFrame part with
  | none => rfl
  | some result =>
      obtain ⟨read, consumed⟩ := result
      have longer := parseFrame_append parsed more
      have frameRead := parseFrame_wireFrame frame []
      rw [List.append_nil, ← whole, longer] at frameRead
      have all : consumed = (part ++ more).length := congrArg Prod.snd (Option.some.inj frameRead)
      have bound := (consumed_of_parseFrame parsed).2
      rw [List.length_append] at all
      have nothing : more = [] := List.eq_nil_of_length_eq_zero (by omega)
      rw [nothing, List.append_nil] at whole
      exact absurd whole notWhole

/-! ## Frame after frame -/

/-- The frames in front of a buffer, and what is left behind them. -/
def parseFrames (buf : Octets) : List WsFrame × Octets :=
  match _parsed : parseFrame buf with
  | none => ([], buf)
  | some (frame, consumed) =>
      (frame :: (parseFrames (buf.drop consumed)).1, (parseFrames (buf.drop consumed)).2)
  termination_by buf.length
  decreasing_by
    all_goals
      have consumed := consumed_of_parseFrame _parsed
      rw [List.length_drop]
      omega

theorem parseFrames_of_none
    {buf : Octets}
    (silent : parseFrame buf = none) :
    parseFrames buf = ([], buf) := by
  rw [parseFrames]
  split
  case h_1 => rfl
  case h_2 parsed =>
      rw [silent] at parsed
      cases parsed

theorem parseFrames_cons
    (frame : WireFrame)
    (rest : Octets) :
    parseFrames (frame.encode ++ rest) =
      (frame.read :: (parseFrames rest).1, (parseFrames rest).2) := by
  rw [parseFrames]
  split
  case h_1 parsed =>
      rw [parseFrame_wireFrame] at parsed
      cases parsed
  case h_2 parsed =>
      rw [parseFrame_wireFrame] at parsed
      cases parsed
      rw [List.drop_left]

/-- A message as one frame, unmasked, with the shortest way to write its length. -/
def messageFrame
    (opcode : Fin 16)
    (payload : Octets)
    (small : payload.length ≤ maxPayloadSize) :
    WireFrame where
  fin := true
  opcode := opcode
  form := shortestForm payload.length
  masked := false
  key := []
  payload := payload
  key_length := rfl
  fits := shortestForm_fits payload.length
  small := small

theorem encode_messageFrame
    (opcode : Fin 16)
    {payload : Octets}
    (small : payload.length ≤ maxPayloadSize) :
    (messageFrame opcode payload small).encode = encodeFrame (UInt8.ofNat opcode) payload := by
  have noMask : ∀ octet : UInt8, (if false then 0x80 else 0) ||| octet = octet := by
    intro octet
    exact UInt8.zero_or
  have spelled : (messageFrame opcode payload small).encode =
      (0x80 ||| UInt8.ofNat opcode) ::
        UInt8.ofNat ((shortestForm payload.length).marker payload.length) ::
          ((shortestForm payload.length).octets payload.length ++ payload) := by
    change _ :: ((if false then 0x80 else 0) ||| _) :: (_ ++ ([] ++ mask [] payload)) = _
    rw [noMask, List.nil_append, mask_nil]
    rfl
  rw [spelled, encodeFrame, shortestForm]
  split
  · rfl
  · split
    · rfl
    · rfl

/-- The frames of a buffer come out one by one in their order, and a part of a further
frame is left as it is. What the native layer writes is such a frame. -/
theorem parseFrames_encode
    (frames : List WireFrame)
    {next : WireFrame}
    {part : Octets}
    (inside : part <+: next.encode)
    (notWhole : part ≠ next.encode)
    (opcode : Fin 16)
    {payload : Octets}
    (small : payload.length ≤ maxPayloadSize) :
    parseFrames (frames.flatMap WireFrame.encode ++ part) = (frames.map WireFrame.read, part) ∧
      parseFrame part = none ∧
      parseFrame (encodeFrame (UInt8.ofNat opcode) payload) =
        some (⟨true, UInt8.ofNat opcode, payload⟩,
          (encodeFrame (UInt8.ofNat opcode) payload).length) := by
  have silent := parseFrame_of_prefix inside notWhole
  refine ⟨?_, silent, ?_⟩
  · induction frames with
    | nil => exact parseFrames_of_none silent
    | cons frame frames hypothesis =>
        rw [List.flatMap_cons, List.append_assoc, parseFrames_cons, hypothesis]
        rfl
  · have whole := parseFrame_wireFrame (messageFrame opcode payload small) []
    rw [List.append_nil, encode_messageFrame] at whole
    exact whole

/-- A masked text frame, its length in eight octets, before the first octet of a
ping: the key is laid along the payload more than once. -/
theorem parseFrames_encode_hello :
    parseFrames ([0x81, 0xFF, 0, 0, 0, 0, 0, 0, 0, 6, 1, 2, 3, 4, 105, 103, 111, 104, 110, 35] ++
        [0x89]) =
      ([⟨true, 1, octets "hello!"⟩], [0x89]) := by
  let hello : WireFrame :=
    { fin := true
      opcode := 1
      form := .long
      masked := true
      key := [1, 2, 3, 4]
      payload := octets "hello!"
      key_length := rfl
      fits := trivial
      small := by decide }
  let ping : WireFrame := messageFrame 9 [] (Nat.zero_le _)
  have inside : [0x89] <+: ping.encode := by decide
  have notWhole : [0x89] ≠ ping.encode := by decide
  have spelled : [hello].flatMap WireFrame.encode =
      [0x81, 0xFF, 0, 0, 0, 0, 0, 0, 0, 6, 1, 2, 3, 4, 105, 103, 111, 104, 110, 35] := by
    decide
  have noPayload : ([] : Octets).length ≤ maxPayloadSize := Nat.zero_le _
  obtain ⟨read, -⟩ := parseFrames_encode [hello] inside notWhole 9 noPayload
  rwa [spelled] at read

end WebSocket
end HttpNative
