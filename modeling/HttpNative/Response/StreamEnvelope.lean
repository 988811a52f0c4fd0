import HttpNative.Response.DispatchResponses
import HttpNative.Response.HeaderSetters

/-!
# The envelope of a stream

What the native layer reads from the envelope that starts a stream: the id, the
status and the headers. The writer of ordinary envelopes refuses a header that is
too long for its length field; this one writes it with the lower octets of its
length.
-/

namespace HttpNative
namespace Response

open Envelope
  (Header Snapshot encodeHeader encodeResponseEnvelope readResponseHeader)

/-- What `write_dynamic_dispatch_response` takes from the start of a stream. -/
structure StreamStart where
  streamId : Nat
  status : Nat
  headers : List Header

def readStreamStart (response : Octets) : Option StreamStart :=
  if isStreamStart response then
    some ⟨LittleEndian.value ((response.drop 2).take 8), streamStatus response,
      streamHeaders response⟩
  else
    none

/-- The header block that follows from the start of a stream. -/
def StreamStart.head (start : StreamStart) (keepAlive : Bool) : Octets :=
  assemble start.status (streamFields keepAlive) (streamPassOn start.headers) []

theorem streamHead_eq
    (response : Octets)
    (keepAlive : Bool) :
    streamHead response keepAlive = (readStreamStart response).map (·.head keepAlive) := by
  unfold streamHead readStreamStart
  split
  · rfl
  · rfl

/-! ## What is read of a written envelope -/

/-- The first fields are of fixed places. -/
theorem streamStart_eq
    (streamId : Nat)
    (snapshot : Snapshot) :
    encodeStreamStartEnvelope streamId snapshot =
      [0xff, 0x53] ++ (LittleEndian.write 8 streamId ++
        (LittleEndian.write 2 snapshot.statusCode ++
          (LittleEndian.write 2 snapshot.headers.length ++
            snapshot.headers.flatMap encodeHeader))) := by
  rw [encodeStreamStartEnvelope, streamIdOctets_eq]

theorem readStreamHeaders_encoded
    {headers : List Header}
    (fits : ∀ header ∈ headers, header.1.length < 256 ∧ header.2.length < 65536)
    (before : Octets) :
    readStreamHeaders (before ++ headers.flatMap encodeHeader) headers.length before.length =
      headers := by
  induction headers generalizing before with
  | nil => rfl
  | cons header rest hypothesis =>
      have read := Envelope.reads_readResponseHeader (fits header List.mem_cons_self) before
        (rest.flatMap encodeHeader)
      have others := hypothesis (fun other member => fits other (List.mem_cons_of_mem _ member))
        (before ++ encodeHeader header)
      rw [List.append_assoc, List.length_append] at others
      rw [List.flatMap_cons, List.length_cons, readStreamHeaders, read]
      exact congrArg (header :: ·) others

theorem isStreamStart_encoded
    (streamId : Nat)
    (snapshot : Snapshot) :
    isStreamStart (encodeStreamStartEnvelope streamId snapshot) = true := by
  rw [isStreamStart, Bool.and_eq_true, List.isPrefixOf_iff_prefix, decide_eq_true_eq]
  refine ⟨?_, List.prefix_append _ _⟩
  simp only [encodeStreamStartEnvelope, streamIdOctets_eq, List.length_append,
    LittleEndian.length_write, List.length_cons, List.length_nil]
  omega

theorem streamHeaders_encoded
    {snapshot : Snapshot}
    (count : snapshot.headers.length < 65536)
    (fits : ∀ header ∈ snapshot.headers, header.1.length < 256 ∧ header.2.length < 65536)
    (streamId : Nat) :
    streamHeaders (encodeStreamStartEnvelope streamId snapshot) = snapshot.headers := by
  let front : Octets := [0xff, 0x53] ++ (LittleEndian.write 8 streamId ++
    LittleEndian.write 2 snapshot.statusCode)
  let before := front ++ LittleEndian.write 2 snapshot.headers.length
  have twelve : front.length = 12 := by
    simp [front, LittleEndian.length_write]
  have fourteen : before.length = 14 := by
    rw [List.length_append, twelve, LittleEndian.length_write]
  have whole : encodeStreamStartEnvelope streamId snapshot =
      front ++ (LittleEndian.write 2 snapshot.headers.length ++
        snapshot.headers.flatMap encodeHeader) := by
    simp only [encodeStreamStartEnvelope, streamIdOctets_eq, front, List.append_assoc]
  have counted : ((encodeStreamStartEnvelope streamId snapshot).drop 12).take 2 =
      LittleEndian.write 2 snapshot.headers.length := by
    rw [whole, ← twelve, List.drop_left]
    exact List.take_left' (LittleEndian.length_write _ _)
  have read := readStreamHeaders_encoded fits before
  rw [fourteen] at read
  rw [streamHeaders, counted, LittleEndian.value_write count, whole, ← List.append_assoc]
  exact read

/-- A status that does not look like the start of a stream is not read as one. -/
theorem status_of_isStreamStart
    {snapshot : Snapshot} {response : Octets}
    (encoded : encodeResponseEnvelope snapshot = .ok response)
    (starts : isStreamStart response = true) :
    snapshot.statusCode % 65536 = 0x53ff := by
  rw [isStreamStart, Bool.and_eq_true, List.isPrefixOf_iff_prefix] at starts
  obtain ⟨rest, spelled⟩ := starts.2
  have frame := (Envelope.sent_of_encode encoded).envelope
  have first : response.take 2 = LittleEndian.write 2 snapshot.statusCode := by
    rw [frame, Envelope.responseFrame]
    exact List.take_left' (LittleEndian.length_write _ _)
  have limit : LittleEndian.limit 2 = 65536 := by decide
  have sentinel : LittleEndian.value [0xff, 0x53] = 0x53ff := by decide
  have start : response.take 2 = [0xff, 0x53] := by
    rw [← spelled]
    rfl
  rw [← limit, ← LittleEndian.value_write_mod, ← first, start, sentinel]

/-! ## What a stream start says -/

/-- A number between other octets is read modulo its limit. -/
theorem value_between
    (before behind : Octets)
    (width number : Nat) :
    LittleEndian.value (((before ++ (LittleEndian.write width number ++ behind)).drop
      before.length).take width) = number % LittleEndian.limit width := by
  rw [List.drop_left, List.take_left' (LittleEndian.length_write _ _),
    LittleEndian.value_write_mod]

theorem readStreamStart_encoded
    (streamId : Nat)
    (snapshot : Snapshot) :
    readStreamStart (encodeStreamStartEnvelope streamId snapshot) =
      some ⟨streamId % 2 ^ 64, snapshot.statusCode % 65536,
        streamHeaders (encodeStreamStartEnvelope streamId snapshot)⟩ := by
  have id := value_between [0xff, 0x53] (LittleEndian.write 2 snapshot.statusCode ++
    (LittleEndian.write 2 snapshot.headers.length ++ snapshot.headers.flatMap encodeHeader)) 8
    streamId
  have status := value_between ([0xff, 0x53] ++ LittleEndian.write 8 streamId)
    (LittleEndian.write 2 snapshot.headers.length ++ snapshot.headers.flatMap encodeHeader) 2
    snapshot.statusCode
  rw [List.append_assoc, ← streamStart_eq, List.length_append, LittleEndian.length_write] at status
  rw [← streamStart_eq] at id
  rw [readStreamStart, if_pos (isStreamStart_encoded streamId snapshot)]
  exact congrArg some (congr (congr (congrArg StreamStart.mk id) status) rfl)

/-- The lengths of what is read come from one octet and from two. -/
theorem fits_of_readResponseHeader
    {row : Octets} {offset behind : Nat} {header : Header}
    (read : readResponseHeader row offset = .ok (header, behind)) :
    header.1.length < 256 ∧ header.2.length < 65536 := by
  have below {width start : Nat} :
      LittleEndian.value ((row.drop start).take width) < LittleEndian.limit width := by
    refine lt_of_lt_of_le (LittleEndian.value_lt _) (LittleEndian.limit_mono ?_)
    rw [List.length_take]
    exact Nat.min_le_left _ _
  rw [readResponseHeader] at read
  obtain ⟨nameLen, _, readName, read⟩ := OctetReader.bind_eq_ok.mp read
  obtain ⟨valueLen, _, readValue, read⟩ := OctetReader.bind_eq_ok.mp read
  obtain ⟨name, _, takenName, read⟩ := OctetReader.bind_eq_ok.mp read
  obtain ⟨value, _, takenValue, read⟩ := OctetReader.bind_eq_ok.mp read
  cases read
  obtain ⟨_, rfl, _⟩ := OctetReader.number_eq_ok.mp readName
  obtain ⟨_, rfl, _⟩ := OctetReader.number_eq_ok.mp readValue
  obtain ⟨_, rfl, _⟩ := OctetReader.take_eq_ok.mp takenName
  obtain ⟨_, rfl, _⟩ := OctetReader.take_eq_ok.mp takenValue
  exact ⟨lt_of_le_of_lt (List.length_take_le _ _) below,
    lt_of_le_of_lt (List.length_take_le _ _) below⟩

theorem fits_of_readStreamHeaders
    (response : Octets)
    (count offset : Nat) :
    ∀ header ∈ readStreamHeaders response count offset,
      header.1.length < 256 ∧ header.2.length < 65536 := by
  induction count generalizing offset with
  | zero => exact List.forall_mem_nil _
  | succ count hypothesis =>
      rw [readStreamHeaders]
      cases read : readResponseHeader response offset with
      | error error => exact List.forall_mem_nil _
      | ok result =>
          obtain ⟨header, behind⟩ := result
          exact List.forall_mem_cons.mpr ⟨fits_of_readResponseHeader read, hypothesis behind⟩

/-! ## When it is what was written -/

/-- The native layer takes the envelope for the start of a stream, reads the id, the
status and the headers that were written, and writes the head with these headers but
for the three that it has itself. -/
def ReadsBack (streamId : Nat) (snapshot : Snapshot) : Prop :=
  readStreamStart (encodeStreamStartEnvelope streamId snapshot) =
      some ⟨streamId, snapshot.statusCode, snapshot.headers⟩ ∧
    ∀ keepAlive, streamHead (encodeStreamStartEnvelope streamId snapshot) keepAlive =
      some (assemble snapshot.statusCode (streamFields keepAlive)
        (streamPassOn snapshot.headers) [])

/-- The status is of two octets, and so is the length of each value; the length of
each name is of one. -/
def StreamFits (snapshot : Snapshot) : Prop :=
  snapshot.statusCode < 65536 ∧
    ∀ header ∈ snapshot.headers, header.1.length < 256 ∧ header.2.length < 65536

theorem streamFits_of_readsBack
    {streamId : Nat} {snapshot : Snapshot}
    (back : ReadsBack streamId snapshot) :
    StreamFits snapshot := by
  have read := back.1
  rw [readStreamStart_encoded, Option.some.injEq, StreamStart.mk.injEq] at read
  obtain ⟨_, status, headers⟩ := read
  refine ⟨?_, ?_⟩
  · rw [← status]
    exact Nat.mod_lt _ (by decide)
  · rw [← headers]
    exact fits_of_readStreamHeaders _ _ _

theorem readsBack_of_streamFits
    {streamId : Nat} {snapshot : Snapshot}
    (safe : streamId < 2 ^ 53)
    (count : snapshot.headers.length < 65536)
    (fits : StreamFits snapshot) :
    ReadsBack streamId snapshot := by
  have read : readStreamStart (encodeStreamStartEnvelope streamId snapshot) =
      some ⟨streamId, snapshot.statusCode, snapshot.headers⟩ := by
    rw [readStreamStart_encoded, streamHeaders_encoded count fits.2,
      Nat.mod_eq_of_lt (lt_trans safe (by decide)), Nat.mod_eq_of_lt fits.1]
  refine ⟨read, fun keepAlive => ?_⟩
  rw [streamHead_eq, read]
  rfl

/-- For the ids that a JavaScript number holds, a stream start is read as it was
written just when its fields fit; and an ordinary response with a status of the
protocol is not taken for one. -/
theorem readsBack_iff
    (streamId : Nat)
    (snapshot : Snapshot)
    (safe : streamId < 2 ^ 53)
    (count : snapshot.headers.length < 65536) :
    (ReadsBack streamId snapshot ↔ StreamFits snapshot) ∧
      ∀ ordinary response, encodeResponseEnvelope ordinary = .ok response →
        100 ≤ ordinary.statusCode → ordinary.statusCode ≤ 599 →
        isStreamStart response = false := by
  refine ⟨⟨streamFits_of_readsBack, readsBack_of_streamFits safe count⟩, ?_⟩
  intro ordinary response encoded least most
  rw [Bool.eq_false_iff]
  intro starts
  have status := status_of_isStreamStart encoded starts
  rw [Nat.mod_eq_of_lt (lt_of_le_of_lt most (by decide))] at status
  omega

/-- A stream with a single header without a value. -/
def singleHeader (name : Octets) : Snapshot where
  status := none
  headers := [(name, [])]
  body := []
  ncache := none

/-- A stream with a status of its own and two fields. -/
def eventStream : Snapshot where
  status := some 206
  headers :=
    [(octets "content-type", octets "text/event-stream"), (octets "x-id", octets "7")]
  body := []
  ncache := none

theorem readsBack_iff_eventStream :
    ReadsBack (2 ^ 40 + 1) eventStream ∧
      ∀ ordinary response, encodeResponseEnvelope ordinary = .ok response →
        100 ≤ ordinary.statusCode → ordinary.statusCode ≤ 599 →
        isStreamStart response = false := by
  obtain ⟨readsBack, others⟩ :=
    readsBack_iff (2 ^ 40 + 1) eventStream (by decide) (by decide)
  exact ⟨readsBack.mpr (by unfold StreamFits; decide), others⟩

/-- A name of 256 octets is written with the length zero. -/
theorem not_readsBack :
    ¬ ∀ streamId snapshot, streamId < 2 ^ 53 → snapshot.headers.length < 65536 →
      ReadsBack streamId snapshot := by
  intro everywhere
  have back := everywhere 1 (singleHeader (List.replicate 256 97)) (by decide) (by decide)
  have short : (List.replicate 256 97 : Octets).length < 256 :=
    ((streamFits_of_readsBack back).2 _ List.mem_cons_self).1
  rw [List.length_replicate] at short
  exact Nat.lt_irrefl _ short

end Response
end HttpNative
