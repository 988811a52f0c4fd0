import HttpNative.Library.Octets
import Mathlib.Data.List.Basic

/-!
# WebSocket frames

The frame reader and writer of the native layer.
-/

namespace HttpNative
namespace WebSocket

def opcodeText : UInt8 := 0x1

def opcodeBinary : UInt8 := 0x2

def opcodeClose : UInt8 := 0x8

def opcodePing : UInt8 := 0x9

def opcodePong : UInt8 := 0xA

/-- `MAX_PAYLOAD_SIZE`. -/
def maxPayloadSize : Nat := 16 * 1024 * 1024

structure WsFrame where
  fin : Bool
  opcode : UInt8
  payload : Octets
deriving DecidableEq

def ofBigEndian (row : Octets) : Nat :=
  row.foldl (fun value octet => value * 256 + octet.toNat) 0

def bigEndian (width value : Nat) : Octets :=
  (List.range width).reverse.map fun position => UInt8.ofNat (value >>> (8 * position))

/-- The payload length and the offset behind it. -/
def readLength (buf : Octets) (short : Nat) : Option (Nat × Nat) :=
  if short = 126 then
    if buf.length < 4 then none else some (ofBigEndian ((buf.drop 2).take 2), 4)
  else if short = 127 then
    if buf.length < 10 then none else some (ofBigEndian ((buf.drop 2).take 8), 10)
  else
    some (short, 2)

/-- The mask key, empty for an unmasked frame, and the offset behind it. -/
def readMaskKey (buf : Octets) (masked : Bool) (offset : Nat) : Option (Octets × Nat) :=
  if masked then
    if buf.length < offset + 4 then none else some ((buf.drop offset).take 4, offset + 4)
  else
    some ([], offset)

def unmask (key payload : Octets) : Octets :=
  payload.zipIdx.map fun (octet, position) => octet ^^^ key.getD (position % 4) 0

/-- `parse_frame`: the first frame of the buffer and its number of octets, if
the frame is complete. -/
def parseFrame : Octets → Option (WsFrame × Nat)
  | first :: second :: rest =>
      let buf := first :: second :: rest
      (readLength buf (second &&& 0x7F).toNat).bind fun (payloadLength, lengthEnd) =>
        if payloadLength > maxPayloadSize then
          none
        else
          (readMaskKey buf (second &&& 0x80 != 0) lengthEnd).bind fun (key, offset) =>
            if buf.length < offset + payloadLength then
              none
            else
              some
                ({ fin := first &&& 0x80 != 0
                   opcode := first &&& 0x0F
                   payload := unmask key ((buf.drop offset).take payloadLength) },
                  offset + payloadLength)
  | _ => none

/-- `encode_frame`: a whole message, unmasked. -/
def encodeFrame (opcode : UInt8) (payload : Octets) : Octets :=
  (0x80 ||| opcode) ::
    ((if payload.length < 126 then [UInt8.ofNat payload.length]
      else if payload.length ≤ 65535 then 126 :: bigEndian 2 payload.length
      else 127 :: bigEndian 8 payload.length) ++ payload)

/-- `encode_close_frame`. -/
def encodeCloseFrame (code : Nat) (reason : Octets) : Octets :=
  encodeFrame opcodeClose (bigEndian 2 code ++ reason)

/-- The close frame of the worker. -/
def normalClosure : Octets :=
  encodeCloseFrame 1000 []

theorem le_of_readLength
    {buf : Octets} {short payloadLength offset : Nat}
    (read : readLength buf short = some (payloadLength, offset)) :
    2 ≤ offset := by
  unfold readLength at read
  grind

theorem le_of_readMaskKey
    {buf key : Octets} {masked : Bool} {before offset : Nat}
    (read : readMaskKey buf masked before = some (key, offset)) :
    before ≤ offset := by
  unfold readMaskKey at read
  grind

/-- A frame takes at least two octets of the buffer, and no more than there are. -/
theorem consumed_of_parseFrame
    {buf : Octets} {frame : WsFrame} {consumed : Nat}
    (parsed : parseFrame buf = some (frame, consumed)) :
    2 ≤ consumed ∧ consumed ≤ buf.length := by
  unfold parseFrame at parsed
  split at parsed
  · obtain ⟨⟨payloadLength, lengthEnd⟩, lengthRead, parsed⟩ := Option.bind_eq_some_iff.mp parsed
    rw [Option.ite_none_left_eq_some] at parsed
    obtain ⟨⟨key, offset⟩, keyRead, parsed⟩ := Option.bind_eq_some_iff.mp parsed.2
    have lengthBound := le_of_readLength lengthRead
    have keyBound := le_of_readMaskKey keyRead
    rw [Option.ite_none_left_eq_some] at parsed
    obtain ⟨enough, result⟩ := parsed
    cases result
    omega
  · cases parsed

end WebSocket
end HttpNative
