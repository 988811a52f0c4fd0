import HttpNative.Library.ChunkedCoding
import HttpNative.Library.Decimal
import HttpNative.Library.MessageHead

/-!
# Reading responses off a connection

A client that knows which requests it has sent reads one response for each: a head,
and a body up to the length or the last chunk that the head declares, or none where
the request or the status has no body.
-/

namespace HttpNative
namespace MessageReader

open MessageHead

def transferEncoding : Octets := octets "transfer-encoding"

def contentLength : Octets := octets "content-length"

def isDigit (octet : UInt8) : Bool :=
  48 ≤ octet.toNat && octet.toNat ≤ 57

/-- A decimal number. -/
def readNumber (row : Octets) : Option Nat :=
  if row ≠ [] ∧ row.all isDigit then some (Decimal.value (Octets.toText row)) else none

/-- The status of three digits in a status line. -/
def readStatus (start : Octets) : Option Nat :=
  let code := (start.drop 9).takeWhile (· ≠ 32)
  if (octets "HTTP/1.1 ").isPrefixOf start ∧ code.length = 3 then readNumber code else none

structure Message where
  status : Nat
  lines : List Octets
  body : Octets
deriving DecidableEq

/-- A response to a `HEAD` request, an interim response and some others end with
their head. -/
def hasNoBody (isHead : Bool) (status : Nat) : Bool :=
  isHead || status / 100 = 1 || status = 204 || status = 304

/-- The coding that is applied last. -/
def finalCoding (codings : List Octets) : Octets :=
  Octets.trimWith isBlank (((codings.getLastD []).splitOn 44).getLastD [])

/-- A transfer coding goes before a length, and equal lengths count once; without
either the body goes on to the end of the connection. -/
def readBody (lines : List Octets) (input : Octets) : Option (Octets × Octets) :=
  match valuesOf transferEncoding lines, valuesOf contentLength lines with
  | [], [] => some (input, [])
  | [], value :: others =>
      (readNumber value).bind fun length =>
        if others.all (· = value) ∧ length ≤ input.length then
          some (input.take length, input.drop length)
        else
          none
  | codings, _ =>
      if Octets.eqIgnoreAsciiCase (finalCoding codings) (octets "chunked") then
        ChunkedCoding.decode (input.length + 1) input
      else
        some (input, [])

/-- The next response, and what follows it. -/
def readMessage (isHead : Bool) (input : Octets) : Option (Message × Octets) :=
  match readLines [] input with
  | some (start :: lines, behind) =>
      (readStatus start).bind fun status =>
        if hasNoBody isHead status then
          some ({ status, lines, body := [] }, behind)
        else
          (readBody lines behind).map fun read => ({ status, lines, body := read.1 }, read.2)
  | _ => none

/-- A response for each request, and what follows them. -/
def readMessages : List Bool → Octets → Option (List Message × Octets)
  | [], input => some ([], input)
  | isHead :: others, input =>
      (readMessage isHead input).bind fun first =>
        (readMessages others first.2).map fun rest => (first.1 :: rest.1, rest.2)

/-- The row is one response, whatever follows it. -/
def IsResponse (isHead : Bool) (message : Message) (row : Octets) : Prop :=
  ∀ more, readMessage isHead (row ++ more) = some (message, more)

/-! ## Single responses -/

/-- A response that ends with its head. -/
theorem isResponse_of_noBody
    {isHead : Bool} {row start : Octets} {lines : List Octets} {status : Nat}
    (read : ∀ more, readLines [] (row ++ more) = some (start :: lines, more))
    (hasStatus : readStatus start = some status)
    (noBody : hasNoBody isHead status = true) :
    IsResponse isHead { status, lines, body := [] } row := by
  intro more
  simp only [readMessage, read, hasStatus, Option.bind_some, noBody, if_true]

/-- A response with the length of its body. -/
theorem isResponse_of_length
    {isHead : Bool} {row start body : Octets} {lines others : List Octets} {status : Nat}
    {value : Octets}
    (read : ∀ more, readLines [] (row ++ more) = some (start :: lines, body ++ more))
    (hasStatus : readStatus start = some status)
    (withBody : hasNoBody isHead status = false)
    (noCoding : valuesOf transferEncoding lines = [])
    (lengths : valuesOf contentLength lines = value :: others)
    (length : readNumber value = some body.length)
    (equal : ∀ other ∈ others, other = value) :
    IsResponse isHead { status, lines, body } row := by
  intro more
  have enough : body.length ≤ (body ++ more).length := by simp
  have all : others.all (· = value) = true := by simpa using equal
  simp only [readMessage, read, hasStatus, Option.bind_some, withBody, Bool.false_eq_true, if_false,
    readBody, noCoding, lengths, length, all, enough, and_self, if_true, List.take_left,
    List.drop_left, Option.map_some]

/-- A response in chunks. -/
theorem isResponse_of_chunks
    {isHead : Bool} {row start : Octets} {lines chunks : List Octets} {status : Nat}
    (read : ∀ more, readLines [] (row ++ more) =
      some (start :: lines,
        chunks.flatMap ChunkedCoding.encodeChunk ++ (ChunkedCoding.lastChunk ++ more)))
    (filled : ∀ chunk ∈ chunks, chunk ≠ [])
    (hasStatus : readStatus start = some status)
    (withBody : hasNoBody isHead status = false)
    (coding : valuesOf transferEncoding lines = [octets "chunked"]) :
    IsResponse isHead { status, lines, body := chunks.flatten } row := by
  intro more
  have final : Octets.eqIgnoreAsciiCase (finalCoding [octets "chunked"]) (octets "chunked") =
      true := by decide
  have many : ∀ chunks : List Octets,
      chunks.length ≤ (chunks.flatMap ChunkedCoding.encodeChunk).length := by
    intro chunks
    induction chunks with
    | nil => simp
    | cons chunk chunks hypothesis =>
        have first : 0 < (ChunkedCoding.encodeChunk chunk).length := by
          simp [ChunkedCoding.encodeChunk, ChunkedCoding.lineEnd]
        rw [List.flatMap_cons, List.length_append, List.length_cons]
        omega
  have enough := many chunks
  have decoded : ChunkedCoding.decode
      ((chunks.flatMap ChunkedCoding.encodeChunk ++ (ChunkedCoding.lastChunk ++ more)).length + 1)
      (chunks.flatMap ChunkedCoding.encodeChunk ++ (ChunkedCoding.lastChunk ++ more)) =
        some (chunks.flatten, more) := by
    refine ChunkedCoding.decode_encode filled ?_ more
    rw [List.length_append]
    omega
  simp only [readMessage, read, hasStatus, Option.bind_some, withBody, Bool.false_eq_true, if_false,
    readBody, coding, final, if_true, decoded, Option.map_some]

/-! ## Rows of responses -/

/-- Responses one behind the other are read one by one. -/
theorem readMessages_flatMap
    {Item : Type} {isHead : Item → Bool} {row : Item → Octets}
    {items : List Item} {messages : List Message}
    (responses : List.Forall₂ (fun item message => IsResponse (isHead item) message (row item))
      items messages)
    (more : Octets) :
    readMessages (items.map isHead) (items.flatMap row ++ more) = some (messages, more) := by
  induction responses with
  | nil => rfl
  | cons first _ hypothesis =>
      rw [List.map_cons, List.flatMap_cons, List.append_assoc, readMessages, first,
        Option.bind_some, hypothesis]
      rfl

end MessageReader
end HttpNative
