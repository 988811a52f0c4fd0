import HttpNative.Library.CheckedReader
import HttpNative.Response.StreamEnvelope

/-!
# The walks over an answer of JavaScript

Five walks go over the octets that a dispatch returns, each with its own looks at
the room. None of them panics, whatever the octets are, and they agree on where the
body ends.
-/

namespace HttpNative
namespace Response

open CheckedReader (Ahead Refines Within)
open Envelope
  (Header SessionAction SessionWriteTrailer Snapshot extractNcacheTrailer extractSessionTrailer
    ncacheMaxBodySize ncacheMaxTtlSecs ofOption plainFrame readKey readMutation readNcacheTrailer
    readResponse readResponseHeader readSessionTrailer responseBodyEndOffset responseTruncated
    sessionScanOffset skipHeader skipResponse)
open WalkResult (returned refused panicked)

/-- The octets of a slice: it is no longer than memory can be. -/
structure DispatchBytes where
  octets : Octets
  isShort : octets.length < CheckedReader.rowLimit

namespace Walk

/-! ## The start of a stream -/

/-- One header, in the start of a stream and in `build_http_response_from_dispatch`
alike; the names of both are looked at behind it. -/
def header : CheckedReader Text Header := do
  let nameLen ← CheckedReader.number responseTruncated 1
  let valueLen ← CheckedReader.number responseTruncated 2
  CheckedReader.room responseTruncated (nameLen + valueLen)
  let name ← CheckedReader.sliced nameLen
  let value ← CheckedReader.sliced valueLen
  pure (name, value)

/-- The loop over the headers of a stream, which ends at a header without room. -/
def streamHeaders (response : Octets) : Nat → Nat → WalkResult Text (List Header)
  | 0, _ => returned []
  | count + 1, offset =>
      match header response offset with
      | returned (header, behind) => do
          let rest ← streamHeaders response count behind
          pure (header :: rest)
      | refused _ => returned []
      | panicked => panicked

/-- The id, the status and the number of headers. -/
def streamNumbers : CheckedReader Text (Nat × Nat × Nat) := do
  CheckedReader.advance 2
  let streamId ← CheckedReader.sliced 8
  let status ← CheckedReader.indexed 2
  let headerCount ← CheckedReader.indexed 2
  pure (LittleEndian.value streamId, status, headerCount)

/-- `response.len() >= 14 && response[0] == 0xFF && response[1] == 0x53`. -/
def isStreamStart : CheckedReader Text Bool := do
  if ← CheckedReader.enough 14 then
    CheckedReader.startsWith 0xff 0x53
  else
    pure false

/-- The start of a stream, if the response is one. -/
def streamStart (response : Octets) : WalkResult Text (Option StreamStart) := do
  let (starts, _) ← isStreamStart response 0
  if starts then
    let ((streamId, status, headerCount), offset) ← streamNumbers response 0
    let headers ← streamHeaders response headerCount offset
    pure (some ⟨streamId, status, headers⟩)
  else
    pure none

/-! ## The HTTP/1.1 response -/

/-- What `build_http_response_from_dispatch` reads. -/
def response : CheckedReader Text (Nat × List Header × Octets) := do
  let status ← CheckedReader.number responseTruncated 2
  let headerCount ← CheckedReader.number responseTruncated 2
  let bodyLength ← CheckedReader.number responseTruncated 4
  let headers ← CheckedReader.times header headerCount
  CheckedReader.room (text "response body truncated") bodyLength
  let body ← CheckedReader.sliced bodyLength
  pure (status, headers, body)

/-! ## Trailers -/

/-- Over a header whose name and value are not looked at. -/
def skipHeader : CheckedReader Unit Unit := do
  CheckedReader.room () 3
  let nameLen ← CheckedReader.indexed 1
  let valueLen ← CheckedReader.indexed 2
  CheckedReader.advance (nameLen + valueLen)

/-- To where the body ends, unless it is too large. -/
def bodyEnd (tooLarge : Nat → Bool) : CheckedReader Unit Unit := do
  CheckedReader.room () 8
  let _ ← CheckedReader.indexed 2
  let headerCount ← CheckedReader.indexed 2
  let bodyLength ← CheckedReader.indexed 4
  if tooLarge bodyLength then
    CheckedReader.refuse ()
  else
    let _ ← CheckedReader.times skipHeader headerCount
    CheckedReader.advance bodyLength

/-- The trailer of `extract_ncache_trailer`; behind its last number, it goes one step
further than the source does. -/
def cacheHint : CheckedReader Unit (Nat × Nat) := do
  CheckedReader.room () 10
  if ← CheckedReader.startsWith 0xca 0xce then
    CheckedReader.advance 2
    let ttlSecs ← CheckedReader.indexed 4
    let maxEntries ← CheckedReader.indexed 4
    pure (min ttlSecs ncacheMaxTtlSecs, maxEntries)
  else
    CheckedReader.refuse ()

def ncacheTrailer : CheckedReader Unit (Nat × Nat) := do
  bodyEnd fun bodyLength => bodyLength > ncacheMaxBodySize
  cacheHint

/-- Over the trailer of the cache, if there is one. -/
def skipCacheHint : CheckedReader Text Unit := do
  if ← CheckedReader.enough 10 then
    if ← CheckedReader.startsWith 0xca 0xce then
      CheckedReader.advance 10
    else
      pure ()
  else
    pure ()

def orRefuse {Value : Type} : Option Value → CheckedReader Unit Value
  | some value => pure value
  | none => CheckedReader.refuse ()

def key : CheckedReader Unit Text := do
  let keyLen ← CheckedReader.number () 2
  CheckedReader.room () keyLen
  let key ← CheckedReader.sliced keyLen
  orRefuse (Utf8.decode key)

def mutation : CheckedReader Unit (Text × Octets) := do
  let key ← key
  let valueLen ← CheckedReader.number () 4
  CheckedReader.room () valueLen
  let value ← CheckedReader.sliced valueLen
  pure (key, value)

/-- `extract_session_trailer`. -/
def sessionTrailer : CheckedReader Unit SessionWriteTrailer := do
  CheckedReader.room () 7
  if ← CheckedReader.startsWith 0x5e 0x57 then
    CheckedReader.advance 2
    let action ← (do
      let byte ← CheckedReader.indexed 1
      orRefuse (SessionAction.fromByte byte))
    let entryCount ← CheckedReader.indexed 2
    let deletedCount ← CheckedReader.indexed 2
    let entries ← CheckedReader.times mutation entryCount
    let deletedKeys ← CheckedReader.times key deletedCount
    pure
      { action, deletedKeys
        mutations := entries.foldl (fun mutations entry => mutations.set entry.1 entry.2) [] }
  else
    CheckedReader.refuse ()

/-! ## In the order of `write_dynamic_dispatch_response` -/

/-- What comes of the walks over a response: it starts a stream, it is answered with
an error, or the HTTP/1.1 response is built and the trailers are looked for. -/
inductive Walked where
  | stream (start : StreamStart)
  | failed
  | answered (status : Nat) (headers : List Header) (body : Octets)
      (cacheHint : Option (Nat × Nat)) (session : Option (Option SessionWriteTrailer))

/-- The trailer of the session, behind the one of the cache. -/
def session (response : Octets) : WalkResult Text (Option (Option SessionWriteTrailer)) := do
  match ← (bodyEnd (fun _ => false) response 0).optional with
  | none => pure none
  | some (_, bodyEnd) =>
      let (_, scanOffset) ← skipCacheHint response bodyEnd
      let trailer ← (sessionTrailer response scanOffset).optional
      pure (some (trailer.map Prod.fst))

/-- The walks over what is no stream; with the insertion of a route cache or for the
handler of missing routes the trailer of the cache is not looked for, and without a
session store that of the session is not. -/
def answer (cacheInsertion knownHandler hasStore : Bool) (octets : Octets) :
    WalkResult Text Walked := do
  match ← (response octets 0).optional with
  | none => pure .failed
  | some ((status, headers, body), _) =>
      let hint ← (if !cacheInsertion && knownHandler then
        (ncacheTrailer octets 0).optional
      else
        pure none)
      let trailer ← (if hasStore then session octets else pure none)
      pure (.answered status headers body (hint.map Prod.fst) trailer)

/-- The walks of `write_dynamic_dispatch_response`. -/
def dispatch (cacheInsertion knownHandler hasStore : Bool) (octets : Octets) :
    WalkResult Text Walked := do
  match ← streamStart octets with
  | some start => pure (.stream start)
  | none => answer cacheInsertion knownHandler hasStore octets

end Walk

/-! ## What the walks read -/

open Walk

/-- What is read, with a look at each step. -/
def walked (cacheInsertion knownHandler hasStore : Bool) (octets : Octets) : Walked :=
  match readStreamStart octets with
  | some start => .stream start
  | none =>
      match readResponse.run octets with
      | .error _ => .failed
      | .ok (status, headers, body) =>
          .answered status headers body
            (if !cacheInsertion && knownHandler then extractNcacheTrailer octets else none)
            (if hasStore then
              (sessionScanOffset octets).map (extractSessionTrailer octets)
            else
              none)

/-- What is behind the body. -/
def readCacheHint : OctetReader Unit (Nat × Nat) := do
  let first ← OctetReader.number () 1
  let second ← OctetReader.number () 1
  if first ≠ 0xca ∨ second ≠ 0xce then
    OctetReader.fail ()
  else
    let ttlSecs ← OctetReader.number () 4
    let maxEntries ← OctetReader.number () 4
    pure (min ttlSecs ncacheMaxTtlSecs, maxEntries)

theorem readNcacheTrailer_eq :
    readNcacheTrailer =
      skipResponse (fun bodyLength => bodyLength > ncacheMaxBodySize) >>= fun _ => readCacheHint :=
  rfl

/-! ## The walks refine the readers -/

/-- Beyond the row by less than this, an offset does not overflow. -/
theorem fitsWord
    {slack length : Nat}
    (small : slack + length ≤ 2 ^ 33) :
    CheckedReader.rowLimit + slack + length ≤ CheckedReader.wordLimit := by
  have most : CheckedReader.rowLimit + 2 ^ 33 ≤ CheckedReader.wordLimit := by decide
  rw [Nat.add_assoc]
  exact Nat.le_trans (Nat.add_le_add_left small _) most

/-- Behind a number, when the walk goes on with a look at the room. -/
theorem refines_number_bind
    {Error Value : Type} {error : Error} {width : Nat}
    {next : Nat → CheckedReader Error Value} {readNext : Nat → OctetReader Error Value}
    {after : Value → Octets → Nat → Prop}
    (small : width ≤ 8)
    (second : ∀ number < LittleEndian.limit width,
      Refines (Within 0) (next number) (readNext number) after) :
    Refines (Within 0) (CheckedReader.number error width >>= next)
      (OctetReader.number error width >>= readNext) after := by
  refine (CheckedReader.refines_number error (fitsWord (by omega))).bind fun number => ?_
  refine CheckedReader.refines_of_fact fun fits => ?_
  exact (second number fits).mono (fun _ _ => Ahead.within) (fun _ _ _ holds => holds)

theorem limit_one : LittleEndian.limit 1 = 256 :=
  rfl

theorem limit_two : LittleEndian.limit 2 = 65536 :=
  rfl

theorem limit_four : LittleEndian.limit 4 = 4294967296 :=
  rfl

theorem refines_header :
    Refines (Within 0) header readResponseHeader fun _ => Ahead 0 := by
  refine refines_number_bind (by decide) fun nameLen shortName => ?_
  refine refines_number_bind (by decide) fun valueLen shortValue => ?_
  rw [limit_one] at shortName
  rw [limit_two] at shortValue
  refine CheckedReader.refines_room (fitsWord (by omega)) ?_ ?_
  · intro row offset short
    by_cases enough : offset + nameLen ≤ row.length
    · rw [OctetReader.bind_of_ok (OctetReader.take_eq_ok.mpr ⟨enough, rfl, rfl⟩)]
      exact OctetReader.bind_of_error (CheckedReader.take_of_short (by omega))
    · exact OctetReader.bind_of_error (CheckedReader.take_of_short (Nat.lt_of_not_le enough))
  · refine (CheckedReader.refines_sliced _ nameLen valueLen).bind fun name => ?_
    exact (CheckedReader.refines_sliced _ valueLen 0).bind fun value =>
      CheckedReader.refines_pure (name, value) fun _ => Ahead 0

theorem refines_response :
    Refines (Within 0) response readResponse fun _ => Ahead 0 := by
  refine refines_number_bind (by decide) fun status _ => ?_
  refine refines_number_bind (by decide) fun headerCount _ => ?_
  refine refines_number_bind (by decide) fun bodyLength shortBody => ?_
  have round : Refines (Within 0) header readResponseHeader fun _ => Within 0 :=
    refines_header.mono (fun _ _ holds => holds) (fun _ _ _ => Ahead.within)
  refine (round.times headerCount).bind fun headers => ?_
  rw [limit_four] at shortBody
  exact CheckedReader.refines_take _ (fitsWord (by omega)) fun body =>
    CheckedReader.refines_pure (status, headers, body) fun _ => Ahead 0

/-- How far the walk over the headers can be behind the end of the row. -/
def headerSlack : Nat := 2 ^ 17

theorem refines_skipHeader :
    Refines (Within headerSlack) skipHeader Envelope.skipHeader fun _ => Within headerSlack := by
  refine CheckedReader.refines_room (fitsWord (by decide)) ?_ ?_
  · intro row offset short
    cases read : Envelope.skipHeader row offset with
    | error error => rfl
    | ok result =>
        obtain ⟨nameLen, _, readName, rest⟩ := OctetReader.bind_eq_ok.mp read
        obtain ⟨valueLen, _, readValue, _⟩ := OctetReader.bind_eq_ok.mp rest
        obtain ⟨_, _, rfl⟩ := OctetReader.number_eq_ok.mp readName
        obtain ⟨enough, _, _⟩ := OctetReader.number_eq_ok.mp readValue
        omega
  · refine (CheckedReader.refines_indexed _ 1 2).bind fun nameLen => ?_
    refine CheckedReader.refines_of_fact fun shortName => ?_
    refine (CheckedReader.refines_indexed _ 2 0).bind fun valueLen => ?_
    refine CheckedReader.refines_of_fact fun shortValue => ?_
    rw [limit_one] at shortName
    rw [limit_two] at shortValue
    have slack : headerSlack = 2 ^ 17 := rfl
    refine (CheckedReader.refines_advance (fitsWord (Nat.le_trans (by omega) (by decide : 2 ^ 17 ≤ 2 ^ 33)))).mono
      (fun _ _ => Ahead.within) ?_
    rintro _ row offset ⟨short, within⟩
    exact ⟨short, by omega⟩

/-- How far the end of the body can be behind the end of the row. -/
def bodySlack : Nat := 2 ^ 32 + 2 ^ 17

theorem refines_bodyEnd
    (tooLarge : Nat → Bool) :
    Refines (Within 0) (bodyEnd tooLarge) (skipResponse tooLarge) fun _ => Within bodySlack := by
  refine CheckedReader.refines_room (fitsWord (by decide)) ?_ ?_
  · intro row offset short
    cases read : skipResponse tooLarge row offset with
    | error error => rfl
    | ok result =>
        obtain ⟨_, _, readStatus, rest⟩ := OctetReader.bind_eq_ok.mp read
        obtain ⟨_, _, readCount, rest⟩ := OctetReader.bind_eq_ok.mp rest
        obtain ⟨_, _, readLength, _⟩ := OctetReader.bind_eq_ok.mp rest
        obtain ⟨_, _, rfl⟩ := OctetReader.number_eq_ok.mp readStatus
        obtain ⟨_, _, rfl⟩ := OctetReader.number_eq_ok.mp readCount
        obtain ⟨enough, _, _⟩ := OctetReader.number_eq_ok.mp readLength
        omega
  · refine (CheckedReader.refines_indexed _ 2 6).bind fun status => ?_
    refine CheckedReader.refines_of_fact fun _ => ?_
    refine (CheckedReader.refines_indexed _ 2 4).bind fun headerCount => ?_
    refine CheckedReader.refines_of_fact fun _ => ?_
    refine (CheckedReader.refines_indexed _ 4 0).bind fun bodyLength => ?_
    refine CheckedReader.refines_of_fact fun shortBody => ?_
    rw [limit_four] at shortBody
    have slack : headerSlack = 2 ^ 17 := rfl
    have slackBody : bodySlack = 2 ^ 32 + 2 ^ 17 := rfl
    by_cases large : tooLarge bodyLength = true
    · rw [if_pos large, if_pos large]
      exact CheckedReader.refines_refuse ()
    · rw [if_neg large, if_neg large]
      have fits : headerSlack + bodyLength ≤ 2 ^ 33 := by omega
      refine Refines.mono ?_ (fun _ _ => Ahead.within) (fun _ _ _ holds => holds)
      have skipped := (refines_skipHeader.times headerCount).mono
        (fun row offset (within : Within 0 row offset) => ⟨within.1, by have := within.2; omega⟩)
        (fun _ _ _ holds => holds)
      refine skipped.bind fun _ => ?_
      refine (CheckedReader.refines_advance (fitsWord fits)).mono (fun _ _ holds => holds) ?_
      rintro _ row offset ⟨short, within⟩
      exact ⟨short, by omega⟩

theorem refines_cacheHint :
    Refines (Within bodySlack) cacheHint readCacheHint fun _ => Ahead 0 := by
  refine CheckedReader.refines_room (fitsWord (by decide)) ?_ ?_
  · intro row offset short
    cases read : readCacheHint row offset with
    | error error => rfl
    | ok result =>
        obtain ⟨first, _, readFirst, rest⟩ := OctetReader.bind_eq_ok.mp read
        obtain ⟨second, _, readSecond, rest⟩ := OctetReader.bind_eq_ok.mp rest
        split at rest
        · cases rest
        · obtain ⟨_, _, readTtl, rest⟩ := OctetReader.bind_eq_ok.mp rest
          obtain ⟨_, _, readMax, _⟩ := OctetReader.bind_eq_ok.mp rest
          obtain ⟨_, _, rfl⟩ := OctetReader.number_eq_ok.mp readFirst
          obtain ⟨_, _, rfl⟩ := OctetReader.number_eq_ok.mp readSecond
          obtain ⟨_, _, rfl⟩ := OctetReader.number_eq_ok.mp readTtl
          obtain ⟨enough, _, _⟩ := OctetReader.number_eq_ok.mp readMax
          omega
  · refine CheckedReader.refines_startsWith 8 ?_
    refine (CheckedReader.refines_indexed _ 4 4).bind fun ttlSecs => ?_
    refine CheckedReader.refines_of_fact fun _ => ?_
    refine (CheckedReader.refines_indexed _ 4 0).bind fun maxEntries => ?_
    refine CheckedReader.refines_of_fact fun _ => ?_
    exact CheckedReader.refines_pure (min ttlSecs ncacheMaxTtlSecs, maxEntries) fun _ => Ahead 0

theorem refines_ncacheTrailer :
    Refines (Within 0) ncacheTrailer readNcacheTrailer fun _ => Ahead 0 := by
  rw [readNcacheTrailer_eq]
  exact (refines_bodyEnd _).bind fun _ => refines_cacheHint

theorem refines_orRefuse
    {Value : Type}
    (value : Option Value)
    (rest : Nat) :
    Refines (Ahead rest) (orRefuse value) (ofOption value) fun _ => Ahead rest := by
  cases value with
  | none => exact CheckedReader.refines_refuse ()
  | some value => exact CheckedReader.refines_pure value fun _ => Ahead rest

theorem refines_key :
    Refines (Within 0) key readKey fun _ => Ahead 0 := by
  refine refines_number_bind (by decide) fun keyLen shortKey => ?_
  rw [limit_two] at shortKey
  exact CheckedReader.refines_take _ (fitsWord (by omega)) fun key => refines_orRefuse _ 0

theorem refines_mutation :
    Refines (Within 0) mutation readMutation fun _ => Ahead 0 := by
  refine refines_key.bind fun key => ?_
  refine Refines.mono ?_ (fun _ _ => Ahead.within) (fun _ _ _ holds => holds)
  refine refines_number_bind (by decide) fun valueLen shortValue => ?_
  rw [limit_four] at shortValue
  exact CheckedReader.refines_take _ (fitsWord (by omega)) fun value =>
    CheckedReader.refines_pure (key, value) fun _ => Ahead 0

theorem offset_of_ofOption
    {Value : Type} {option : Option Value} {value : Value} {row : Octets} {offset behind : Nat}
    (read : ofOption option row offset = .ok (value, behind)) :
    behind = offset := by
  cases option with
  | none => cases read
  | some known =>
      cases read
      rfl

theorem refines_sessionTrailer :
    Refines (Within bodySlack) sessionTrailer readSessionTrailer fun _ => Within 0 := by
  refine CheckedReader.refines_room (fitsWord (by decide)) ?_ ?_
  · intro row offset short
    cases read : readSessionTrailer row offset with
    | error error => rfl
    | ok result =>
        obtain ⟨first, _, readFirst, rest⟩ := OctetReader.bind_eq_ok.mp read
        obtain ⟨second, _, readSecond, rest⟩ := OctetReader.bind_eq_ok.mp rest
        split at rest
        · cases rest
        · obtain ⟨_, behind, readAction, rest⟩ := OctetReader.bind_eq_ok.mp rest
          obtain ⟨_, _, readByte, readKind⟩ := OctetReader.bind_eq_ok.mp readAction
          obtain ⟨_, _, readEntries, rest⟩ := OctetReader.bind_eq_ok.mp rest
          obtain ⟨_, _, readDeleted, _⟩ := OctetReader.bind_eq_ok.mp rest
          have stays := offset_of_ofOption readKind
          obtain ⟨_, _, rfl⟩ := OctetReader.number_eq_ok.mp readFirst
          obtain ⟨_, _, rfl⟩ := OctetReader.number_eq_ok.mp readSecond
          obtain ⟨_, _, rfl⟩ := OctetReader.number_eq_ok.mp readByte
          obtain ⟨_, _, rfl⟩ := OctetReader.number_eq_ok.mp readEntries
          obtain ⟨enough, _, _⟩ := OctetReader.number_eq_ok.mp readDeleted
          omega
  · refine CheckedReader.refines_startsWith 5 ?_
    have action := (CheckedReader.refines_indexed () 1 4).bind fun byte =>
      CheckedReader.refines_of_fact fun (_ : byte < LittleEndian.limit 1) =>
        refines_orRefuse (SessionAction.fromByte byte) 4
    refine action.bind fun action => ?_
    refine (CheckedReader.refines_indexed _ 2 2).bind fun entryCount => ?_
    refine CheckedReader.refines_of_fact fun _ => ?_
    refine (CheckedReader.refines_indexed _ 2 0).bind fun deletedCount => ?_
    refine CheckedReader.refines_of_fact fun _ => ?_
    have entries := (refines_mutation.mono (fun _ _ holds => holds)
      (fun _ _ _ => Ahead.within)).times entryCount
    have deleted := (refines_key.mono (fun _ _ holds => holds)
      (fun _ _ _ => Ahead.within)).times deletedCount
    refine (entries.mono (fun _ _ => Ahead.within) (fun _ _ _ holds => holds)).bind fun entries => ?_
    exact deleted.bind fun deletedKeys =>
      CheckedReader.refines_pure _ fun _ => Within 0

/-! ## The start of a stream -/

def readStreamNumbers : OctetReader Text (Nat × Nat × Nat) := do
  OctetReader.skip 2
  let streamId ← OctetReader.take responseTruncated 8
  let status ← OctetReader.number responseTruncated 2
  let headerCount ← OctetReader.number responseTruncated 2
  pure (LittleEndian.value streamId, status, headerCount)

theorem refines_streamNumbers :
    Refines (Ahead 14) streamNumbers readStreamNumbers fun _ => Ahead 0 := by
  refine (CheckedReader.refines_advance_ahead 2 12).bind fun _ => ?_
  refine (CheckedReader.refines_sliced _ 8 4).bind fun streamId => ?_
  refine (CheckedReader.refines_indexed _ 2 2).bind fun status => ?_
  refine CheckedReader.refines_of_fact fun _ => ?_
  refine (CheckedReader.refines_indexed _ 2 0).bind fun headerCount => ?_
  refine CheckedReader.refines_of_fact fun _ => ?_
  exact CheckedReader.refines_pure _ fun _ => Ahead 0

theorem readStreamNumbers_of_long
    {response : Octets}
    (long : 14 ≤ response.length) :
    readStreamNumbers response 0 =
      .ok ((LittleEndian.value ((response.drop 2).take 8), streamStatus response,
        LittleEndian.value ((response.drop 12).take 2)), 14) := by
  have started : (OctetReader.skip 2 : OctetReader Text Unit) response 0 = .ok ((), 2) := rfl
  have streamId : OctetReader.take responseTruncated 8 response 2 =
      .ok ((response.drop 2).take 8, 10) :=
    OctetReader.take_eq_ok.mpr ⟨by omega, rfl, rfl⟩
  have status : OctetReader.number responseTruncated 2 response 10 =
      .ok (streamStatus response, 12) :=
    OctetReader.number_eq_ok.mpr ⟨by omega, rfl, rfl⟩
  have headerCount : OctetReader.number responseTruncated 2 response 12 =
      .ok (LittleEndian.value ((response.drop 12).take 2), 14) :=
    OctetReader.number_eq_ok.mpr ⟨by omega, rfl, rfl⟩
  rw [readStreamNumbers, OctetReader.bind_of_ok started, OctetReader.bind_of_ok streamId,
    OctetReader.bind_of_ok status, OctetReader.bind_of_ok headerCount]
  rfl

theorem streamHeaders_eq
    {response : Octets}
    (short : response.length < CheckedReader.rowLimit)
    (count : Nat)
    {offset : Nat}
    (inside : offset ≤ response.length) :
    Walk.streamHeaders response count offset =
      returned (readStreamHeaders response count offset) := by
  induction count generalizing offset with
  | zero => rfl
  | succ count hypothesis =>
      rw [Walk.streamHeaders, readStreamHeaders, refines_header.same response offset ⟨short, inside⟩]
      cases read : readResponseHeader response offset with
      | error error => rfl
      | ok result =>
          obtain ⟨header, behind⟩ := result
          have ahead := refines_header.holds response offset ⟨short, inside⟩ header behind read
          change (do
            let rest ← Walk.streamHeaders response count behind
            pure (header :: rest)) = _
          rw [@hypothesis behind ahead.2]
          rfl

theorem isStreamStart_walk
    {response : Octets}
    (short : response.length < CheckedReader.rowLimit) :
    Walk.isStreamStart response 0 = returned (isStreamStart response, 0) := by
  have small : 0 + 14 < CheckedReader.wordLimit := by decide
  have looked : (CheckedReader.enough 14 : CheckedReader Text Bool) response 0 =
      returned (decide (14 ≤ response.length), 0) := by
    rw [CheckedReader.enough, if_pos small, Nat.zero_add]
  rw [Walk.isStreamStart, CheckedReader.bind_of_returned looked, isStreamStart]
  by_cases long : 14 ≤ response.length
  · rw [decide_eq_true long, if_pos rfl, Bool.true_and,
      CheckedReader.startsWith_of_ahead ⟨short, by omega⟩]
    obtain ⟨first, others, rfl⟩ := List.exists_cons_of_length_pos (by omega : 0 < response.length)
    rw [List.length_cons] at long
    obtain ⟨second, rest, rfl⟩ := List.exists_cons_of_length_pos (by omega : 0 < others.length)
    rw [WalkResult.returned.injEq, Prod.mk.injEq, Bool.eq_iff_iff, decide_eq_true_eq,
      List.isPrefixOf_iff_prefix, List.cons_prefix_cons, List.cons_prefix_cons]
    simp only [List.getElem?_cons_zero, List.getElem?_cons_succ, Nat.zero_add,
      Option.some.injEq, List.nil_prefix, and_true, eq_comm]
  · rw [decide_eq_false long]
    rfl

theorem streamStart_walk
    {response : Octets}
    (short : response.length < CheckedReader.rowLimit) :
    Walk.streamStart response = returned (readStreamStart response) := by
  rw [Walk.streamStart, isStreamStart_walk short, readStreamStart]
  by_cases starts : isStreamStart response = true
  · have long : 14 ≤ response.length := by
      rw [isStreamStart, Bool.and_eq_true, decide_eq_true_eq] at starts
      exact starts.1
    have numbers := refines_streamNumbers.same response 0 ⟨short, by omega⟩
    rw [readStreamNumbers_of_long long] at numbers
    rw [if_pos starts]
    change (if isStreamStart response then _ else _) = _
    rw [if_pos starts, numbers]
    change (do
      let headers ← Walk.streamHeaders response _ 14
      pure _) = _
    rw [streamHeaders_eq short _ long]
    rfl
  · rw [if_neg starts]
    change (if isStreamStart response then _ else _) = _
    rw [if_neg starts]
    rfl

/-! ## All walks in their order -/

theorem skipCacheHint_walk
    {response : Octets} {bodyEnd : Nat}
    (within : Within bodySlack response bodyEnd) :
    Walk.skipCacheHint response bodyEnd =
      returned ((), if bodyEnd + 10 ≤ response.length ∧ response[bodyEnd]? = some 0xca ∧
          response[bodyEnd + 1]? = some 0xce then
        bodyEnd + 10
      else
        bodyEnd) := by
  have word : CheckedReader.rowLimit + bodySlack + 10 ≤ CheckedReader.wordLimit :=
    fitsWord (by decide)
  have small : bodyEnd + 10 < CheckedReader.wordLimit := by
    have := within.1
    have := within.2
    omega
  have looked : (CheckedReader.enough 10 : CheckedReader Text Bool) response bodyEnd =
      returned (decide (bodyEnd + 10 ≤ response.length), bodyEnd) :=
    if_pos small
  rw [Walk.skipCacheHint, CheckedReader.bind_of_returned looked]
  by_cases enough : bodyEnd + 10 ≤ response.length
  · rw [decide_eq_true enough, if_pos rfl,
      CheckedReader.bind_of_returned (CheckedReader.startsWith_of_ahead ⟨within.1, by omega⟩)]
    by_cases magic : response[bodyEnd]? = some 0xca ∧ response[bodyEnd + 1]? = some 0xce
    · rw [decide_eq_true magic, if_pos rfl, if_pos ⟨enough, magic⟩]
      exact CheckedReader.advance_of_small small
    · rw [decide_eq_false magic, if_neg Bool.false_ne_true, if_neg fun both => magic both.2]
      rfl
  · rw [decide_eq_false enough, if_neg Bool.false_ne_true, if_neg fun both => enough both.1]
    rfl

theorem bodyEnd_walk
    {octets : Octets}
    (short : octets.length < CheckedReader.rowLimit)
    (tooLarge : Nat → Bool) :
    Walk.bodyEnd tooLarge octets 0 = WalkResult.ofExcept (skipResponse tooLarge octets 0) :=
  (refines_bodyEnd tooLarge).same octets 0 ⟨short, Nat.zero_le _⟩

theorem session_walk
    {octets : Octets}
    (short : octets.length < CheckedReader.rowLimit) :
    Walk.session octets =
      returned ((sessionScanOffset octets).map (extractSessionTrailer octets)) := by
  rw [Walk.session, bodyEnd_walk short, WalkResult.optional_ofExcept, sessionScanOffset,
    responseBodyEndOffset]
  cases read : skipResponse (fun _ => false) octets 0 with
  | error error => rfl
  | ok result =>
      obtain ⟨_, bodyEnd⟩ := result
      have within := (refines_bodyEnd _).holds octets 0 ⟨short, Nat.zero_le _⟩ _ _ read
      change (do
        let (_, scanOffset) ← Walk.skipCacheHint octets bodyEnd
        let trailer ← (Walk.sessionTrailer octets scanOffset).optional
        pure (some (trailer.map Prod.fst))) = _
      have scanned (scanOffset : Nat) (inside : Within bodySlack octets scanOffset) :
          (do
            let trailer ← (Walk.sessionTrailer octets scanOffset).optional
            pure (some (trailer.map Prod.fst)) : WalkResult Text _) =
          returned (some (extractSessionTrailer octets scanOffset)) := by
        rw [refines_sessionTrailer.same octets scanOffset inside, WalkResult.optional_ofExcept]
        rfl
      rw [skipCacheHint_walk within]
      refine scanned _ ?_
      split
      · rename_i magic
        exact ⟨short, Nat.le_trans magic.1 (Nat.le_add_right _ _)⟩
      · exact within

theorem extractNcacheTrailer_eq
    (octets : Octets) :
    extractNcacheTrailer octets = (readNcacheTrailer octets 0).toOption.map Prod.fst := by
  rw [extractNcacheTrailer, OctetReader.run]
  cases readNcacheTrailer octets 0 with
  | error error => rfl
  | ok result => rfl

/-- The walks in their order come to what is read with a look at each step. -/
theorem dispatch_walk
    {octets : Octets}
    (short : octets.length < CheckedReader.rowLimit)
    (cacheInsertion knownHandler hasStore : Bool) :
    Walk.dispatch cacheInsertion knownHandler hasStore octets =
      returned (walked cacheInsertion knownHandler hasStore octets) := by
  rw [Walk.dispatch, streamStart_walk short, walked]
  cases readStreamStart octets with
  | some start => rfl
  | none =>
      have built := refines_response.same octets 0 ⟨short, Nat.zero_le _⟩
      have hinted := refines_ncacheTrailer.same octets 0 ⟨short, Nat.zero_le _⟩
      change Walk.answer cacheInsertion knownHandler hasStore octets = _
      rw [Walk.answer, built, hinted, session_walk short, WalkResult.optional_ofExcept,
        WalkResult.optional_ofExcept, OctetReader.run, extractNcacheTrailer_eq]
      cases read : readResponse octets 0 with
      | error error => rfl
      | ok result =>
          obtain ⟨⟨status, headers, body⟩, bodyEnd⟩ := result
          cases !cacheInsertion && knownHandler with
          | false =>
              cases hasStore with
              | false => rfl
              | true => rfl
          | true =>
              cases hasStore with
              | false => rfl
              | true => rfl

/-! ## Where the body ends -/

theorem skipHeader_of_read
    {row : Octets} {offset behind : Nat} {header : Header}
    (read : readResponseHeader row offset = .ok (header, behind)) :
    Envelope.skipHeader row offset = .ok ((), behind) := by
  obtain ⟨nameLen, afterName, readName, rest⟩ := OctetReader.bind_eq_ok.mp read
  obtain ⟨valueLen, afterValue, readValue, rest⟩ := OctetReader.bind_eq_ok.mp rest
  obtain ⟨name, _, takenName, rest⟩ := OctetReader.bind_eq_ok.mp rest
  obtain ⟨value, _, takenValue, rest⟩ := OctetReader.bind_eq_ok.mp rest
  cases rest
  obtain ⟨_, _, rfl⟩ := OctetReader.take_eq_ok.mp takenName
  obtain ⟨_, _, rfl⟩ := OctetReader.take_eq_ok.mp takenValue
  obtain ⟨enoughName, sameName, rfl⟩ := OctetReader.number_eq_ok.mp readName
  obtain ⟨enoughValue, sameValue, rfl⟩ := OctetReader.number_eq_ok.mp readValue
  have skippedName : OctetReader.number () 1 row offset = .ok (nameLen, offset + 1) :=
    OctetReader.number_eq_ok.mpr ⟨enoughName, sameName, rfl⟩
  have skippedValue : OctetReader.number () 2 row (offset + 1) = .ok (valueLen, offset + 1 + 2) :=
    OctetReader.number_eq_ok.mpr ⟨enoughValue, sameValue, rfl⟩
  rw [Envelope.skipHeader, OctetReader.bind_of_ok skippedName, OctetReader.bind_of_ok skippedValue,
    OctetReader.skip, Nat.add_assoc (offset + 1 + 2)]

theorem skipHeaders_of_read
    {row : Octets} {offset behind count : Nat} {headers : List Header}
    (read : OctetReader.times readResponseHeader count row offset = .ok (headers, behind)) :
    ∃ skipped, OctetReader.times Envelope.skipHeader count row offset = .ok (skipped, behind) := by
  induction count generalizing offset headers with
  | zero =>
      cases read
      exact ⟨[], rfl⟩
  | succ count hypothesis =>
      obtain ⟨header, middle, readHeader, rest⟩ := OctetReader.bind_eq_ok.mp read
      obtain ⟨others, _, readOthers, result⟩ := OctetReader.bind_eq_ok.mp rest
      cases result
      obtain ⟨skipped, skippedOthers⟩ := hypothesis readOthers
      refine ⟨() :: skipped, ?_⟩
      rw [OctetReader.times, OctetReader.bind_of_ok (skipHeader_of_read readHeader),
        OctetReader.bind_of_ok skippedOthers]
      rfl

/-- The walk to the end of the body comes to where the response was read to, unless
it gives up on the length of the body. -/
theorem skipResponse_of_read
    {row : Octets} {bodyEnd status : Nat} {headers : List Header} {body : Octets}
    (read : readResponse row 0 = .ok ((status, headers, body), bodyEnd))
    (tooLarge : Nat → Bool) :
    skipResponse tooLarge row 0 =
      if tooLarge body.length then .error () else .ok ((), bodyEnd) := by
  obtain ⟨_, _, readStatus, rest⟩ := OctetReader.bind_eq_ok.mp read
  obtain ⟨headerCount, _, readCount, rest⟩ := OctetReader.bind_eq_ok.mp rest
  obtain ⟨bodyLength, _, readLength, rest⟩ := OctetReader.bind_eq_ok.mp rest
  obtain ⟨_, headersEnd, readHeaders, rest⟩ := OctetReader.bind_eq_ok.mp rest
  obtain ⟨_, _, readBody, result⟩ := OctetReader.bind_eq_ok.mp rest
  cases result
  obtain ⟨enoughBody, taken, rfl⟩ := OctetReader.take_eq_ok.mp readBody
  have length : body.length = bodyLength := by
    rw [← taken, List.length_take, List.length_drop]
    omega
  obtain ⟨enoughStatus, sameStatus, rfl⟩ := OctetReader.number_eq_ok.mp readStatus
  obtain ⟨enoughCount, sameCount, rfl⟩ := OctetReader.number_eq_ok.mp readCount
  obtain ⟨enoughLength, sameLength, rfl⟩ := OctetReader.number_eq_ok.mp readLength
  obtain ⟨skipped, skippedHeaders⟩ := skipHeaders_of_read readHeaders
  rw [skipResponse,
    OctetReader.bind_of_ok (OctetReader.number_eq_ok.mpr ⟨enoughStatus, sameStatus, rfl⟩),
    OctetReader.bind_of_ok (OctetReader.number_eq_ok.mpr ⟨enoughCount, sameCount, rfl⟩),
    OctetReader.bind_of_ok (OctetReader.number_eq_ok.mpr ⟨enoughLength, sameLength, rfl⟩), length]
  split
  · rfl
  · rw [OctetReader.bind_of_ok skippedHeaders]
    rfl

/-- `extract_ncache_trailer` gives up on a large body, and otherwise looks for its
trailer where the body ends. -/
theorem ncacheTrailer_walk
    {octets : Octets}
    (short : octets.length < CheckedReader.rowLimit)
    {bodyEnd status : Nat} {headers : List Header} {body : Octets}
    (read : readResponse octets 0 = .ok ((status, headers, body), bodyEnd)) :
    Walk.ncacheTrailer octets 0 =
      if ncacheMaxBodySize < body.length then refused () else Walk.cacheHint octets bodyEnd := by
  have skipped := skipResponse_of_read read fun bodyLength => bodyLength > ncacheMaxBodySize
  have walked := bodyEnd_walk short fun bodyLength => bodyLength > ncacheMaxBodySize
  rw [skipped] at walked
  rw [Walk.ncacheTrailer]
  split
  · rename_i large
    rw [if_pos (decide_eq_true large)] at walked
    exact CheckedReader.bind_of_refused walked
  · rename_i fits
    rw [if_neg (by rw [decide_eq_true_eq]; exact fits)] at walked
    exact CheckedReader.bind_of_returned walked

/-- Whatever a dispatch returns, no walk panics; and when the response is built, the
end of its body is where the walk for the session trailer finds it, and where the
trailer of the cache is looked for, unless the body is too large to be cached. -/
theorem walks_agree
    (response : DispatchBytes) :
    (∀ cacheInsertion knownHandler hasStore, ∃ found,
      Walk.dispatch cacheInsertion knownHandler hasStore response.octets = returned found) ∧
    ∀ status headers body bodyEnd,
      Walk.response response.octets 0 = returned ((status, headers, body), bodyEnd) →
      Walk.bodyEnd (fun _ => false) response.octets 0 = returned ((), bodyEnd) ∧
      Walk.ncacheTrailer response.octets 0 =
        if ncacheMaxBodySize < body.length then
          refused ()
        else
          Walk.cacheHint response.octets bodyEnd := by
  refine ⟨fun cacheInsertion knownHandler hasStore => ⟨_, dispatch_walk response.isShort _ _ _⟩, ?_⟩
  intro status headers body bodyEnd built
  rw [refines_response.same response.octets 0 ⟨response.isShort, Nat.zero_le _⟩] at built
  have read : readResponse response.octets 0 = .ok ((status, headers, body), bodyEnd) := by
    cases read : readResponse response.octets 0 with
    | error error =>
        rw [read] at built
        cases built
    | ok result =>
        rw [read] at built
        cases built
        rfl
  refine ⟨?_, ncacheTrailer_walk response.isShort read⟩
  rw [bodyEnd_walk response.isShort, skipResponse_of_read read]
  rfl

/-- A response with a field, a body and the trailer of the cache: no walk panics, the
walks find the same end of the body, and the trailer is read there. -/
theorem walks_agree_cached :
    let frame := [200, 0, 1, 0, 2, 0, 0, 0, 1, 1, 0, 97, 98, 111, 107,
      0xca, 0xce, 60, 0, 0, 0, 5, 0, 0, 0]
    (∀ cacheInsertion knownHandler hasStore, ∃ found,
      Walk.dispatch cacheInsertion knownHandler hasStore frame = returned found) ∧
    Walk.bodyEnd (fun _ => false) frame 0 = returned ((), 15) ∧
    Walk.ncacheTrailer frame 0 = returned ((60, 5), 25) := by
  have agree := walks_agree ⟨[200, 0, 1, 0, 2, 0, 0, 0, 1, 1, 0, 97, 98, 111, 107,
    0xca, 0xce, 60, 0, 0, 0, 5, 0, 0, 0], by decide⟩
  have found := agree.2 200 [([97], [98])] [111, 107] 15 rfl
  exact ⟨agree.1, found.1, found.2.trans rfl⟩

/-! ## A large body -/

theorem reads_readCacheHint
    {ttl maxEntries : Nat}
    (ttlFits : ttl < LittleEndian.limit 4)
    (maxFits : maxEntries < LittleEndian.limit 4) :
    OctetReader.Reads readCacheHint (Envelope.encodeHints (some ⟨ttl, maxEntries⟩))
      (min ttl ncacheMaxTtlSecs, maxEntries) := by
  refine (OctetReader.reads_octet _ 0xca).bind ?_
  refine (OctetReader.reads_octet _ 0xce).bind ?_
  rw [if_neg (by decide)]
  exact (OctetReader.reads_number _ ttlFits).bind
    ((OctetReader.reads_number _ maxFits).bind_pure _)

/-- A response with a body that is too large to be cached, and the trailer. -/
def largeResponse (body : Octets) : Octets :=
  plainFrame 200 [] body ++ Envelope.encodeHints (some ⟨1, 1⟩)

theorem length_largeResponse
    (body : Octets) :
    (largeResponse body).length = body.length + 18 := by
  simp [largeResponse, plainFrame, Envelope.encodeHints]
  omega

/-- The trailer behind a body of more than a megabyte is not looked at. -/
theorem not_walks_agree :
    ¬ ∀ (response : DispatchBytes) status headers body bodyEnd,
      Walk.response response.octets 0 = returned ((status, headers, body), bodyEnd) →
      Walk.bodyEnd (fun _ => false) response.octets 0 = returned ((), bodyEnd) ∧
      Walk.ncacheTrailer response.octets 0 = Walk.cacheHint response.octets bodyEnd := by
  intro everywhere
  obtain ⟨body, bodyLength⟩ : ∃ body : Octets, body.length = ncacheMaxBodySize + 1 :=
    ⟨List.replicate _ 0, List.length_replicate⟩
  have bodyFits : body.length < LittleEndian.limit 4 := by
    rw [bodyLength]
    decide
  have short : (largeResponse body).length < CheckedReader.rowLimit := by
    rw [length_largeResponse, bodyLength]
    decide
  have reads : OctetReader.Reads readResponse (plainFrame 200 [] body) (200, [], body) :=
    Envelope.reads_readResponse (by decide) (by decide) bodyFits (List.forall_mem_nil _)
  have read := reads [] (Envelope.encodeHints (some ⟨1, 1⟩))
  have readsHint : OctetReader.Reads readCacheHint (Envelope.encodeHints (some ⟨1, 1⟩))
      (min 1 ncacheMaxTtlSecs, 1) :=
    reads_readCacheHint (by decide) (by decide)
  have hinted := readsHint (plainFrame 200 [] body) []
  rw [List.append_nil] at hinted
  rw [List.nil_append, List.length_nil, Nat.zero_add] at read
  have built := refines_response.same (largeResponse body) 0 ⟨short, Nat.zero_le _⟩
  have within : Within bodySlack (largeResponse body) (plainFrame 200 [] body).length := by
    refine ⟨short, ?_⟩
    rw [largeResponse, List.length_append]
    omega
  have looked := refines_cacheHint.same _ _ within
  have missed := ncacheTrailer_walk short read
  rw [if_pos (by rw [bodyLength]; exact Nat.lt_succ_self _)] at missed
  have same := (everywhere ⟨largeResponse body, short⟩ 200 [] body _
    (built.trans (congrArg WalkResult.ofExcept read))).2
  change Walk.ncacheTrailer (largeResponse body) 0 = _ at same
  rw [missed, looked] at same
  change _ = WalkResult.ofExcept (readCacheHint (plainFrame 200 [] body ++ _) _) at same
  rw [hinted] at same
  cases same

end Response
end HttpNative
