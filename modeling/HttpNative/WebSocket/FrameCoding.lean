import HttpNative.Library.LittleEndian
import HttpNative.WebSocket.Frames
import Mathlib.Data.List.Rotate
import Mathlib.Tactic.Ring

/-!
# Frames on the wire

The frames of a client, which are masked, come back from the frame reader of the
native layer. The frames of the native layer come back from a reader that follows
the protocol.
-/

namespace HttpNative
namespace WebSocket

/-! ## Big-endian numbers -/

theorem foldl_bigEndian
    (start : Nat)
    (row : Octets) :
    row.foldl (fun value octet => value * 256 + octet.toNat) start =
      start * LittleEndian.limit row.length + ofBigEndian row := by
  induction row generalizing start with
  | nil => rw [List.foldl_nil, List.length_nil, LittleEndian.limit, Nat.mul_one]; rfl
  | cons octet rest hypothesis =>
      rw [ofBigEndian, List.foldl_cons, List.foldl_cons, hypothesis, hypothesis (0 * 256 + _),
        List.length_cons, LittleEndian.limit]
      ring

theorem ofBigEndian_append
    (front back : Octets) :
    ofBigEndian (front ++ back) =
      ofBigEndian front * LittleEndian.limit back.length + ofBigEndian back := by
  rw [ofBigEndian, List.foldl_append, foldl_bigEndian]
  rfl

theorem ofBigEndian_zeros
    (count : Nat) :
    ofBigEndian (List.replicate count 0) = 0 := by
  induction count with
  | zero => rfl
  | succ count hypothesis =>
      rw [List.replicate_succ', ofBigEndian_append, hypothesis]
      rfl

theorem ofBigEndian_lt
    (row : Octets) :
    ofBigEndian row < LittleEndian.limit row.length := by
  induction row using List.reverseRecOn with
  | nil => exact Nat.one_pos
  | append_singleton front octet hypothesis =>
      have octetBound := octet.toNat_lt
      have single : ofBigEndian [octet] = octet.toNat := Nat.zero_add _
      rw [ofBigEndian_append, single, List.length_append, List.length_singleton]
      change ofBigEndian front * 256 + octet.toNat < 256 * LittleEndian.limit front.length
      omega

/-- The octets that are missing are at least zero. -/
theorem ofBigEndian_zeros_le
    {width : Nat} {row more : Octets}
    (enough : width ≤ (row ++ more).length) :
    ofBigEndian ((row ++ List.replicate width 0).take width) ≤
      ofBigEndian ((row ++ more).take width) := by
  have sameLength : (more.take (width - row.length)).length = width - row.length := by
    rw [List.length_append] at enough
    rw [List.length_take]
    omega
  rw [List.take_append, List.take_append, List.take_replicate, ofBigEndian_append,
    ofBigEndian_append, ofBigEndian_zeros, List.length_replicate, sameLength,
    Nat.min_eq_left (Nat.sub_le _ _)]
  exact Nat.le_add_right _ _

theorem length_bigEndian
    (width number : Nat) :
    (bigEndian width number).length = width := by
  simp [bigEndian]

theorem bigEndian_succ
    (width number : Nat) :
    bigEndian (width + 1) number =
      UInt8.ofNat (number >>> (8 * width)) :: bigEndian width number := by
  rw [bigEndian, List.range_succ, List.reverse_append, List.reverse_singleton, List.singleton_append,
    List.map_cons]
  rfl

theorem ofBigEndian_bigEndian_mod
    (width number : Nat) :
    ofBigEndian (bigEndian width number) = number % LittleEndian.limit width := by
  induction width with
  | zero => rw [LittleEndian.limit, Nat.mod_one]; rfl
  | succ width hypothesis =>
      rw [bigEndian_succ, ofBigEndian, List.foldl_cons, foldl_bigEndian, hypothesis,
        length_bigEndian, LittleEndian.shiftRight_eq_div_limit, LittleEndian.limit, UInt8.toNat_ofNat',
        Nat.mul_comm 256, Nat.mod_mul]
      ring

theorem ofBigEndian_bigEndian
    {width number : Nat}
    (fits : number < LittleEndian.limit width) :
    ofBigEndian (bigEndian width number) = number := by
  rw [ofBigEndian_bigEndian_mod, Nat.mod_eq_of_lt fits]

/-! ## Frames of the native layer -/

/-- The first frame of a row as the protocol has it, and what follows it. Frames of
a server are not masked. -/
def readServerFrame : Octets → Option (WsFrame × Octets)
  | first :: second :: rest =>
      let width := if second = 126 then 2 else if second = 127 then 8 else 0
      let length := if width = 0 then second.toNat else ofBigEndian (rest.take width)
      if second.toNat < 128 ∧ width + length ≤ rest.length then
        some
          ({ fin := first &&& 0x80 != 0
             opcode := first &&& 0x0F
             payload := (rest.drop width).take length },
            rest.drop (width + length))
      else
        none
  | _ => none

theorem first_octet
    (opcode : Fin 16) :
    ((0x80 ||| UInt8.ofNat opcode) &&& 0x80 != 0) = true ∧
      (0x80 ||| UInt8.ofNat opcode) &&& 0x0F = UInt8.ofNat opcode := by
  revert opcode
  decide

theorem ofNat_short
    {length : Nat}
    (short : length < 126) :
    (UInt8.ofNat length).toNat = length ∧ UInt8.ofNat length ≠ 126 ∧
      UInt8.ofNat length ≠ 127 := by
  have back : (UInt8.ofNat length).toNat = length := by
    rw [UInt8.toNat_ofNat', Nat.mod_eq_of_lt (by omega)]
  refine ⟨back, ?_, ?_⟩
  · intro same
    rw [same] at back
    have isNumber : (126 : UInt8).toNat = 126 := rfl
    omega
  · intro same
    rw [same] at back
    have isNumber : (127 : UInt8).toNat = 127 := rfl
    omega

/-- The reader takes a payload behind the octets of its length. -/
theorem readServerFrame_layout
    (first : UInt8)
    {second : UInt8} {lengthOctets payload : Octets}
    (notMasked : second.toNat < 128)
    (width : (if second = 126 then 2 else if second = 127 then 8 else 0) = lengthOctets.length)
    (length : (if lengthOctets.length = 0 then second.toNat else ofBigEndian lengthOctets) =
      payload.length)
    (rest : Octets) :
    readServerFrame (first :: second :: (lengthOctets ++ (payload ++ rest))) =
      some (⟨first &&& 0x80 != 0, first &&& 0x0F, payload⟩, rest) := by
  rw [readServerFrame]
  simp only [width, List.take_left, length, List.drop_left, ← List.drop_drop]
  rw [if_pos]
  refine ⟨notMasked, ?_⟩
  rw [List.length_append, List.length_append]
  omega

/-- A frame that is written comes back, whatever follows it. -/
theorem readServerFrame_encodeFrame
    (opcode : Fin 16)
    {payload : Octets}
    (fits : payload.length < LittleEndian.limit 8)
    (rest : Octets) :
    readServerFrame (encodeFrame (UInt8.ofNat opcode) payload ++ rest) =
      some (⟨true, UInt8.ofNat opcode, payload⟩, rest) := by
  obtain ⟨fin, code⟩ := first_octet opcode
  unfold encodeFrame
  rw [List.cons_append, List.append_assoc]
  by_cases short : payload.length < 126
  · obtain ⟨back, not126, not127⟩ := ofNat_short short
    have width : (if UInt8.ofNat payload.length = 126 then 2
        else if UInt8.ofNat payload.length = 127 then 8 else 0) = ([] : Octets).length := by
      rw [if_neg not126, if_neg not127]
      rfl
    have read := readServerFrame_layout (0x80 ||| UInt8.ofNat opcode) (by omega) width back rest
    rw [fin, code] at read
    rw [if_pos short]
    exact read
  · by_cases medium : payload.length ≤ 65535
    · have value : ofBigEndian (bigEndian 2 payload.length) = payload.length :=
        ofBigEndian_bigEndian (Nat.lt_succ_of_le medium)
      have notMasked : (126 : UInt8).toNat < 128 := by decide
      have read := readServerFrame_layout (0x80 ||| UInt8.ofNat opcode) notMasked
        (length_bigEndian 2 payload.length).symm value rest
      rw [fin, code] at read
      rw [if_neg short, if_pos medium]
      exact read
    · have notMasked : (127 : UInt8).toNat < 128 := by decide
      have read := readServerFrame_layout (0x80 ||| UInt8.ofNat opcode) notMasked
        (length_bigEndian 8 payload.length).symm (ofBigEndian_bigEndian fits) rest
      rw [fin, code] at read
      rw [if_neg short, if_neg medium]
      exact read

/-- A frame that is read is read as well when more follows. -/
theorem readServerFrame_append
    {row rest : Octets} {frame : WsFrame}
    (read : readServerFrame row = some (frame, rest))
    (more : Octets) :
    readServerFrame (row ++ more) = some (frame, rest ++ more) := by
  cases row with
  | nil => cases read
  | cons first row =>
      cases row with
      | nil => cases read
      | cons second tail =>
          rw [readServerFrame, Option.ite_none_right_eq_some] at read
          obtain ⟨⟨notMasked, enough⟩, result⟩ := read
          cases result
          rw [List.cons_append, List.cons_append, readServerFrame]
          have widthFits : (if second = 126 then 2 else if second = 127 then 8 else 0) ≤
              tail.length := by omega
          rw [List.take_append_of_le_length widthFits, if_pos, List.drop_append_of_le_length enough,
            List.drop_append_of_le_length widthFits, List.take_append_of_le_length]
          · rw [List.length_drop]
            omega
          · refine ⟨notMasked, ?_⟩
            rw [List.length_append]
            omega

/-! ## Frames on the wire -/

/-- The three ways to write the length of a payload. -/
inductive LengthForm where
  | short
  | medium
  | long
deriving DecidableEq

namespace LengthForm

/-- The seven bits of the second octet. -/
def marker (form : LengthForm) (length : Nat) : Nat :=
  match form with
  | .short => length
  | .medium => 126
  | .long => 127

/-- The octets behind the second one. -/
def octets (form : LengthForm) (length : Nat) : Octets :=
  match form with
  | .short => []
  | .medium => bigEndian 2 length
  | .long => bigEndian 8 length

/-- The lengths that can be written so; eight octets are enough for every payload. -/
def Fits (form : LengthForm) (length : Nat) : Prop :=
  match form with
  | .short => length < 126
  | .medium => length < 65536
  | .long => True

theorem marker_lt
    {form : LengthForm}
    {length : Nat}
    (fits : form.Fits length) :
    form.marker length < 128 := by
  cases form with
  | short => exact Nat.lt_of_lt_of_le fits (by decide)
  | medium => exact (by decide : 126 < 128)
  | long => exact (by decide : 127 < 128)

theorem readLength_octets
    {form : LengthForm}
    {length : Nat}
    (fits : form.Fits length)
    (small : length ≤ maxPayloadSize)
    (first second : UInt8)
    (more : Octets) :
    readLength (first :: second :: (form.octets length ++ more)) (form.marker length) =
      some (length, 2 + (form.octets length).length) := by
  cases form with
  | short =>
      have below : length < 126 := fits
      have not126 : length ≠ 126 := by omega
      have not127 : length ≠ 127 := by omega
      rw [marker, readLength, if_neg not126, if_neg not127]
      rfl
  | medium =>
      have width := length_bigEndian 2 length
      have value : ofBigEndian (bigEndian 2 length) = length := ofBigEndian_bigEndian fits
      rw [marker, octets, readLength, if_pos rfl, if_neg]
      · simp only [List.drop_succ_cons, List.drop_zero, List.take_left' width, value, width]
      · simp only [List.length_cons, List.length_append, width]
        omega
  | long =>
      have width := length_bigEndian 8 length
      have below : length < LittleEndian.limit 8 := Nat.lt_of_le_of_lt small (by decide)
      have not126 : (127 : Nat) ≠ 126 := by decide
      rw [marker, octets, readLength, if_neg not126, if_pos rfl, if_neg]
      · simp only [List.drop_succ_cons, List.drop_zero, List.take_left' width,
          ofBigEndian_bigEndian below, width]
      · simp only [List.length_cons, List.length_append, width]
        omega

end LengthForm

/-- A payload as it is sent: the key is laid along it over and over, and turns by one
octet with each octet of the payload. No key leaves the payload as it is. -/
def mask : Octets → Octets → Octets
  | first :: key, octet :: payload => (octet ^^^ first) :: mask (key ++ [first]) payload
  | _, payload => payload

/-- A frame on the wire. -/
structure WireFrame where
  fin : Bool
  opcode : Fin 16
  form : LengthForm
  masked : Bool
  key : Octets
  payload : Octets
  key_length : key.length = if masked then 4 else 0
  fits : form.Fits payload.length
  small : payload.length ≤ maxPayloadSize

namespace WireFrame

def encode (frame : WireFrame) : Octets :=
  ((if frame.fin then 0x80 else 0) ||| UInt8.ofNat frame.opcode) ::
    ((if frame.masked then 0x80 else 0) |||
      UInt8.ofNat (frame.form.marker frame.payload.length)) ::
        (frame.form.octets frame.payload.length ++
          (frame.key ++ mask frame.key frame.payload))

/-- The frame as the reader hands it on. -/
def read (frame : WireFrame) : WsFrame where
  fin := frame.fin
  opcode := UInt8.ofNat frame.opcode
  payload := frame.payload

end WireFrame

/-- The shortest way to write a length. -/
def shortestForm (length : Nat) : LengthForm :=
  if length < 126 then .short else if length ≤ 65535 then .medium else .long

theorem shortestForm_fits (length : Nat) :
    (shortestForm length).Fits length := by
  unfold shortestForm
  split
  · assumption
  · split
    · exact Nat.lt_succ_of_le ‹_›
    · trivial

theorem wire_first_octet
    (fin : Bool)
    (opcode : Fin 16) :
    (((if fin then 0x80 else 0) ||| UInt8.ofNat opcode) &&& 0x80 != 0) = fin ∧
      ((if fin then 0x80 else 0) ||| UInt8.ofNat opcode) &&& 0x0F = UInt8.ofNat opcode := by
  revert fin opcode
  decide

theorem wire_second_octet
    (masked : Bool)
    (short : Fin 128) :
    (((if masked then 0x80 else 0) ||| UInt8.ofNat short) &&& 0x7F).toNat = short ∧
      (((if masked then 0x80 else 0) ||| UInt8.ofNat short) &&& 0x80 != 0) = masked := by
  revert masked short
  decide

theorem length_unmask
    (key payload : Octets) :
    (unmask key payload).length = payload.length := by
  rw [unmask, List.length_map, List.length_zipIdx]

/-- Masking twice leaves the payload. -/
theorem unmask_unmask
    (key payload : Octets) :
    unmask key (unmask key payload) = payload := by
  refine List.ext_getElem ?_ fun position within _ => ?_
  · rw [length_unmask, length_unmask]
  · simp only [unmask, List.getElem_map, List.getElem_zipIdx, Nat.zero_add]
    rw [UInt8.xor_assoc, UInt8.xor_self, UInt8.xor_zero]

theorem mask_nil (payload : Octets) :
    mask [] payload = payload := by
  cases payload <;> rfl

theorem unmask_nil (payload : Octets) :
    unmask [] payload = payload := by
  refine List.ext_getElem (length_unmask [] payload) fun position within _ => ?_
  simp only [unmask, List.getElem_map, List.getElem_zipIdx, List.getD_nil, UInt8.xor_zero]

/-- A key of four octets that was turned has the octet of the position in front. -/
theorem mask_rotate
    {key : Octets}
    (four : key.length = 4)
    (payload : Octets)
    (position : Nat) :
    mask (key.rotate position) payload =
      (payload.zipIdx position).map fun (octet, index) => octet ^^^ key.getD (index % 4) 0 := by
  induction payload generalizing position with
  | nil => cases key.rotate position <;> rfl
  | cons octet payload hypothesis =>
      cases turned : key.rotate position with
      | nil =>
          have length := congrArg List.length turned
          rw [List.length_rotate, four] at length
          cases length
      | cons first rest =>
          have next : rest ++ [first] = key.rotate (position + 1) := by
            rw [← List.rotate_rotate, turned, List.rotate_cons_succ, List.rotate_zero]
          have front : key[position % 4]? = some first := by
            have positive : 0 < key.length := by
              rw [four]
              exact Nat.zero_lt_succ 3
            have head := List.getElem?_rotate (n := position) positive
            rw [turned, four, Nat.zero_add] at head
            exact head.symm
          rw [mask, next, hypothesis, List.zipIdx_cons, List.map_cons]
          dsimp only
          rw [List.getD_eq_getElem?_getD, front, Option.getD_some]

/-- Masking is what the reader undoes. -/
theorem mask_eq_unmask
    {key : Octets} {masked : Bool}
    (keyLength : key.length = if masked then 4 else 0)
    (payload : Octets) :
    mask key payload = unmask key payload := by
  cases masked with
  | false =>
      obtain rfl : key = [] := List.eq_nil_of_length_eq_zero keyLength
      rw [mask_nil, unmask_nil]
  | true =>
      have turned := mask_rotate keyLength payload 0
      rwa [List.rotate_zero] at turned

/-- The reader takes a masked or plain payload behind its key, and that behind the
octets of the length. -/
theorem parseFrame_layout
    {first second : UInt8} {short : Nat} {masked : Bool} {lengthOctets key body : Octets}
    (shortEq : (second &&& 0x7F).toNat = short)
    (maskedEq : (second &&& 0x80 != 0) = masked)
    (readLen : ∀ more, readLength (first :: second :: (lengthOctets ++ more)) short =
      some (body.length, 2 + lengthOctets.length))
    (keyLength : key.length = if masked then 4 else 0)
    (small : body.length ≤ maxPayloadSize)
    (rest : Octets) :
    parseFrame (first :: second :: (lengthOctets ++ (key ++ (body ++ rest)))) =
      some (⟨first &&& 0x80 != 0, first &&& 0x0F, unmask key body⟩,
        2 + lengthOctets.length + key.length + body.length) := by
  let buf := first :: second :: (lengthOctets ++ (key ++ (body ++ rest)))
  have total : buf.length =
      2 + lengthOctets.length + key.length + body.length + rest.length := by
    simp only [buf, List.length_cons, List.length_append]
    omega
  have fromKey : buf.drop (2 + lengthOctets.length) = key ++ (body ++ rest) := by
    rw [Nat.add_comm 2, List.drop_succ_cons, List.drop_succ_cons, List.drop_left]
  have fromBody : buf.drop (2 + lengthOctets.length + key.length) = body ++ rest := by
    rw [← List.drop_drop, fromKey, List.drop_left]
  have readKey : readMaskKey buf masked (2 + lengthOctets.length) =
      some (key, 2 + lengthOctets.length + key.length) := by
    unfold readMaskKey
    cases masked with
    | true =>
        have four : key.length = 4 := keyLength
        rw [if_pos rfl, if_neg (by omega), fromKey, List.take_left' four, four]
    | false =>
        obtain rfl : key = [] := List.eq_nil_of_length_eq_zero keyLength
        rfl
  have readBuf : readLength buf short = some (body.length, 2 + lengthOctets.length) :=
    readLen (key ++ (body ++ rest))
  change parseFrame buf = _
  unfold parseFrame
  simp only [buf, shortEq, maskedEq] at readBuf readKey total fromBody ⊢
  rw [readBuf, Option.bind_some]
  dsimp only
  rw [if_neg (Nat.not_lt.mpr small), readKey, Option.bind_some]
  dsimp only
  rw [if_neg (by omega), fromBody, List.take_left]

theorem length_encode
    (frame : WireFrame) :
    frame.encode.length =
      2 + (frame.form.octets frame.payload.length).length + frame.key.length +
        frame.payload.length := by
  simp only [WireFrame.encode, mask_eq_unmask frame.key_length, List.length_cons,
    List.length_append, length_unmask]
  omega

/-- A whole frame is read, whatever follows it. -/
theorem parseFrame_wireFrame
    (frame : WireFrame)
    (rest : Octets) :
    parseFrame (frame.encode ++ rest) = some (frame.read, frame.encode.length) := by
  obtain ⟨fin, opcode⟩ := wire_first_octet frame.fin frame.opcode
  obtain ⟨short, masked⟩ :=
    wire_second_octet frame.masked ⟨_, LengthForm.marker_lt frame.fits⟩
  have bodyLength := length_unmask frame.key frame.payload
  have readLen : ∀ more, readLength
      (((if frame.fin then 0x80 else 0) ||| UInt8.ofNat frame.opcode) ::
        ((if frame.masked then 0x80 else 0) |||
          UInt8.ofNat (frame.form.marker frame.payload.length)) ::
            (frame.form.octets frame.payload.length ++ more))
      (frame.form.marker frame.payload.length) =
      some ((unmask frame.key frame.payload).length,
        2 + (frame.form.octets frame.payload.length).length) := by
    intro more
    rw [bodyLength]
    exact LengthForm.readLength_octets frame.fits frame.small _ _ more
  have parsed := parseFrame_layout short masked readLen frame.key_length
    (bodyLength.trans_le frame.small) rest
  rw [unmask_unmask, fin, opcode, bodyLength] at parsed
  rw [length_encode, WireFrame.encode, mask_eq_unmask frame.key_length, List.cons_append,
    List.cons_append, List.append_assoc, List.append_assoc]
  exact parsed

/-! ## Frames of a client -/

/-- A frame as a client sends it. -/
structure ClientFrame where
  fin : Bool
  opcode : Fin 16
  key : Octets
  key_length : key.length = 4
  payload : Octets

/-- The seven bits of a length, and the octets that follow them. -/
def lengthParts (length : Nat) : Nat × Octets :=
  if length < 126 then (length, [])
  else if length ≤ 65535 then (126, bigEndian 2 length)
  else (127, bigEndian 8 length)

namespace ClientFrame

/-- The octets of a frame, with the payload masked. -/
def encode (frame : ClientFrame) : Octets :=
  ((if frame.fin then 0x80 else 0) ||| UInt8.ofNat frame.opcode) ::
    (0x80 ||| UInt8.ofNat (lengthParts frame.payload.length).1) ::
      ((lengthParts frame.payload.length).2 ++ (frame.key ++ mask frame.key frame.payload))

/-- The frame as the reader hands it on. -/
def read (frame : ClientFrame) : WsFrame where
  fin := frame.fin
  opcode := UInt8.ofNat frame.opcode
  payload := frame.payload

end ClientFrame

theorem lengthParts_eq (length : Nat) :
    lengthParts length =
      ((shortestForm length).marker length, (shortestForm length).octets length) := by
  unfold lengthParts shortestForm
  split
  · rfl
  · split
    · rfl
    · rfl

/-- A frame of a client is masked, with the shortest way to write its length. -/
def ClientFrame.toWire
    (frame : ClientFrame)
    (small : frame.payload.length ≤ maxPayloadSize) :
    WireFrame where
  fin := frame.fin
  opcode := frame.opcode
  form := shortestForm frame.payload.length
  masked := true
  key := frame.key
  payload := frame.payload
  key_length := frame.key_length
  fits := shortestForm_fits frame.payload.length
  small := small

theorem encode_toWire
    (frame : ClientFrame)
    (small : frame.payload.length ≤ maxPayloadSize) :
    (frame.toWire small).encode = frame.encode := by
  rw [ClientFrame.encode, lengthParts_eq]
  rfl

/-- A frame of a client is read when it is not too large, whatever follows it. -/
theorem parseFrame_encode
    (frame : ClientFrame)
    (small : frame.payload.length ≤ maxPayloadSize)
    (rest : Octets) :
    parseFrame (frame.encode ++ rest) = some (frame.read, frame.encode.length) := by
  have parsed := parseFrame_wireFrame (frame.toWire small) rest
  rw [encode_toWire] at parsed
  exact parsed

end WebSocket
end HttpNative
