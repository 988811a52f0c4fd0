import HttpNative.Library.Json
import HttpNative.Library.Octets
import Mathlib.Data.Nat.Digits.Defs

/-!
# Chunked transfer coding

A body as a row of chunks, each with its length in hexadecimal, up to a chunk
of length zero.
-/

namespace HttpNative
namespace ChunkedCoding

def lineEnd : Octets := [13, 10]

def hexOctet (digit : Nat) : UInt8 :=
  UInt8.ofNat (Json.hexDigit digit).toNat

/-- A positive number in hexadecimal. -/
def writeSize (size : Nat) : Octets :=
  (Nat.digits 16 size).reverse.map hexOctet

def readSize (row : Octets) : Option Nat :=
  (row.mapM fun octet => Json.hexDigitValue (Char.ofNat octet.toNat)).map
    fun digits => Nat.ofDigits 16 digits.reverse

def encodeChunk (data : Octets) : Octets :=
  writeSize data.length ++ lineEnd ++ data ++ lineEnd

def lastChunk : Octets :=
  octets "0" ++ lineEnd ++ lineEnd

/-- Read chunks up to the last one; the fuel bounds their number. -/
def decode : Nat → Octets → Option (Octets × Octets)
  | 0, _ => none
  | fuel + 1, input => do
      let position ← Octets.find lineEnd input
      let size ← readSize (input.take position)
      let behind := input.drop (position + 2)
      let data := behind.take size
      if (behind.drop size).take 2 = lineEnd then
        let rest := behind.drop (size + 2)
        if size = 0 then
          some ([], rest)
        else
          (decode fuel rest).map fun result => (data ++ result.1, result.2)
      else
        none

/-! ## Sizes -/

theorem hexOctet_spec :
    ∀ digit < 16, Json.hexDigitValue (Char.ofNat (hexOctet digit).toNat) = some digit ∧
      hexOctet digit ≠ 13 := by
  decide

theorem readSize_writeSize
    (size : Nat) :
    readSize (writeSize size) = some size := by
  have read : ∀ digits : List Nat, (∀ digit ∈ digits, digit < 16) →
      (digits.map hexOctet).mapM (fun octet => Json.hexDigitValue (Char.ofNat octet.toNat)) =
        some digits := by
    intro digits small
    induction digits with
    | nil => rfl
    | cons digit rest hypothesis =>
        have first := (hexOctet_spec digit (small digit List.mem_cons_self)).1
        have others := hypothesis fun other member => small other (List.mem_cons_of_mem _ member)
        rw [List.map_cons, List.mapM_cons, first, others]
        rfl
  have small : ∀ digit ∈ (Nat.digits 16 size).reverse, digit < 16 := by
    intro digit member
    exact Nat.digits_lt_base (by decide) (List.mem_reverse.mp member)
  rw [readSize, writeSize, read _ small, Option.map_some, List.reverse_reverse,
    Nat.ofDigits_digits]

theorem return_notMem_writeSize
    (size : Nat) :
    (13 : UInt8) ∉ writeSize size := by
  intro member
  obtain ⟨digit, digits, isReturn⟩ := List.mem_map.mp member
  have small := Nat.digits_lt_base (by decide) (List.mem_reverse.mp digits)
  exact (hexOctet_spec digit small).2 isReturn

/-! ## Decoding undoes encoding -/

/-- A chunk of some size in front of more octets. -/
theorem decode_chunk
    {fuel : Nat} {row data rest : Octets}
    (noReturn : (13 : UInt8) ∉ row)
    (size : readSize row = some data.length) :
    decode (fuel + 1) (row ++ (lineEnd ++ (data ++ (lineEnd ++ rest)))) =
      if data.length = 0 then some ([], rest)
      else (decode fuel rest).map fun result => (data ++ result.1, result.2) := by
  have found : Octets.find lineEnd (row ++ (lineEnd ++ (data ++ (lineEnd ++ rest)))) =
      some row.length := by
    rw [lineEnd, Octets.find_append_of_head_notMem noReturn,
      Octets.find_of_isPrefixOf (List.prefix_append _ _) (by simp)]
    simp
  have behind : (row ++ (lineEnd ++ (data ++ (lineEnd ++ rest)))).drop (row.length + 2) =
      data ++ (lineEnd ++ rest) := by
    rw [← List.drop_drop, List.drop_left]
    rfl
  have ends : ((data ++ (lineEnd ++ rest)).drop data.length).take 2 = lineEnd := by
    rw [List.drop_left]
    rfl
  have others : (data ++ (lineEnd ++ rest)).drop (data.length + 2) = rest := by
    rw [← List.drop_drop, List.drop_left]
    rfl
  simp only [decode, found, Option.bind_eq_bind, Option.bind_some, List.take_left, size, behind,
    ends, if_true, others]

theorem decode_lastChunk
    (fuel : Nat)
    (rest : Octets) :
    decode (fuel + 1) (lastChunk ++ rest) = some ([], rest) := by
  have zero : readSize (octets "0") = some ([] : Octets).length := by decide
  have read : decode (fuel + 1) (octets "0" ++ (lineEnd ++ ([] ++ (lineEnd ++ rest)))) =
      some ([], rest) :=
    decode_chunk (by decide) zero
  simpa [lastChunk] using read

/-- Chunks are read back as the octets they hold. -/
theorem decode_encode
    {chunks : List Octets} {fuel : Nat}
    (filled : ∀ chunk ∈ chunks, chunk ≠ [])
    (enough : chunks.length < fuel)
    (rest : Octets) :
    decode fuel (chunks.flatMap encodeChunk ++ (lastChunk ++ rest)) =
      some (chunks.flatten, rest) := by
  induction chunks generalizing fuel with
  | nil =>
      cases fuel with
      | zero => simp at enough
      | succ fuel => exact decode_lastChunk fuel rest
  | cons chunk chunks hypothesis =>
      cases fuel with
      | zero => simp at enough
      | succ fuel =>
          have notEmpty : chunk.length ≠ 0 := by
            rw [Ne, List.length_eq_zero_iff]
            exact filled chunk List.mem_cons_self
          have spelled : (chunk :: chunks).flatMap encodeChunk ++ (lastChunk ++ rest) =
              writeSize chunk.length ++ (lineEnd ++ (chunk ++ (lineEnd ++
                (chunks.flatMap encodeChunk ++ (lastChunk ++ rest))))) := by
            simp [encodeChunk]
          rw [spelled, decode_chunk (return_notMem_writeSize _) (readSize_writeSize _),
            if_neg notEmpty,
            hypothesis (fun other member => filled other (List.mem_cons_of_mem _ member))
              (Nat.lt_of_succ_lt_succ enough)]
          rfl

end ChunkedCoding
end HttpNative
