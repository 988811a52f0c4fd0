import HttpNative.Envelope.ResponseDelivery

/-!
# Responses over HTTP/2 and HTTP/3

Both handlers read a response envelope with the same loop. It takes the length of
a header name for two octets, where the writer has written one.
-/

namespace HttpNative
namespace Envelope

open LittleEndian (write value)
open OctetReader (Reads)

/-- The types of the HTTP crate that a response is built with. -/
structure HeaderRules extends StatusCodes where
  /-- The form in which a header name is kept, if it is one. -/
  name : Octets → Option Octets
  isValue : Octets → Bool
  /-- A header map takes these fields. -/
  hasRoom : List Header → Bool
  name_nil : name [] = none
  name_of_zero : ∀ row, 0 ∈ row → name row = none
  name_lower : ∀ row form, name row = some form → form = Octets.asciiLower row
  hasRoom_nil : hasRoom [] = true

structure BridgeResponse where
  status : Nat
  headers : List Header
  body : Octets
deriving DecidableEq

inductive DecodeFailure where
  /-- An index out of bounds, which ends the task. -/
  | outOfBounds
  /-- The response cannot be built, and none is sent. -/
  | invalidResponse
deriving DecidableEq

/-- A status, or the one that takes its place. -/
def statusCodeOrOk (rules : HeaderRules) (status : Nat) : Nat :=
  (rules.fromU16 status).getD 200

/-- The fields that only HTTP/1.1 has. -/
def isHopByHop (header : Header) : Bool :=
  Octets.eqIgnoreAsciiCase header.1 (octets "connection") ||
    Octets.eqIgnoreAsciiCase header.1 (octets "transfer-encoding")

def isUtf8 (row : Octets) : Bool :=
  (Utf8.decode row).isSome

variable {Value : Type}

/-- Where so many octets are left, the first reader, and the second one elsewhere. -/
def ifLeft (length : Nat) (reader otherwise : OctetReader DecodeFailure Value) :
    OctetReader DecodeFailure Value :=
  fun row offset =>
    if offset + length ≤ row.length then reader row offset else otherwise row offset

/-- A header field, or nothing where the loop is left. -/
def readBridgeHeader : OctetReader DecodeFailure (Option Header) :=
  ifLeft 4
    (do
      let nameLen ← OctetReader.number .outOfBounds 2
      let valueLen ← OctetReader.number .outOfBounds 2
      ifLeft (nameLen + valueLen)
        (do
          let name ← OctetReader.take .outOfBounds nameLen
          let value ← OctetReader.take .outOfBounds valueLen
          pure (some (name, value)))
        (pure none))
    (pure none)

def readBridgeHeaders : Nat → OctetReader DecodeFailure (List Header)
  | 0 => pure []
  | count + 1 => do
      let first ← readBridgeHeader
      match first with
      | none => pure []
      | some header => do
          let others ← readBridgeHeaders count
          pure (header :: others)

/-- What is left of the row. -/
def takeRest : OctetReader DecodeFailure Octets :=
  fun row offset => .ok (row.drop offset, row.length)

/-- The body, or what there is of it. -/
def readBridgeBody (bodyLen : Nat) : OctetReader DecodeFailure Octets :=
  ifLeft bodyLen (OctetReader.take .outOfBounds bodyLen) takeRest

def isForwarded (header : Header) : Bool :=
  !isHopByHop header && (isUtf8 header.1 && isUtf8 header.2)

/-- The fields that are kept, if all of them are valid. -/
def buildHeaders (rules : HeaderRules) : List Header → Option (List Header)
  | [] => some []
  | header :: rest =>
      (rules.name header.1).bind fun name =>
        if rules.isValue header.2 then (buildHeaders rules rest).map ((name, header.2) :: ·)
        else none

/-- Parse an envelope of at least eight octets. -/
def readBridgeResponse (rules : HeaderRules) : OctetReader DecodeFailure BridgeResponse := do
  let status ← OctetReader.number .outOfBounds 2
  let headerCount ← OctetReader.number .outOfBounds 2
  let bodyLen ← OctetReader.number .outOfBounds 4
  let headers ← readBridgeHeaders headerCount
  let body ← readBridgeBody bodyLen
  pure ⟨statusCodeOrOk rules status, headers.filter isForwarded, body⟩

/-- The response that is sent for an envelope. -/
def sendResponseFromBridge
    (rules : HeaderRules)
    (responseBuf : Octets) :
    Except DecodeFailure BridgeResponse :=
  if responseBuf.length < 8 then
    .ok ⟨500, [], octets "\x7b\"error\":\"Invalid bridge response\"\x7d"⟩
  else do
    let response ← (readBridgeResponse rules).run responseBuf
    match buildHeaders rules response.headers with
    | some headers =>
        if rules.hasRoom headers then pure { response with headers := headers }
        else .error .invalidResponse
    | none => .error .invalidResponse

/-- `send_h2_response_from_bridge`. -/
def sendH2ResponseFromBridge (rules : HeaderRules) (responseBuf : Octets) :
    Except DecodeFailure BridgeResponse :=
  sendResponseFromBridge rules responseBuf

/-- `send_h3_response_from_bridge`. -/
def sendH3ResponseFromBridge (rules : HeaderRules) (responseBuf : Octets) :
    Except DecodeFailure BridgeResponse :=
  sendResponseFromBridge rules responseBuf

/-! ## The loop -/

variable {row : Octets} {offset : Nat}

theorem number_of_le
    {width : Nat}
    (enough : offset + width ≤ row.length) :
    OctetReader.number DecodeFailure.outOfBounds width row offset =
      .ok (value ((row.drop offset).take width), offset + width) :=
  OctetReader.number_eq_ok.mpr ⟨enough, rfl, rfl⟩

theorem take_of_le
    {length : Nat}
    (enough : offset + length ≤ row.length) :
    OctetReader.take DecodeFailure.outOfBounds length row offset =
      .ok ((row.drop offset).take length, offset + length) :=
  OctetReader.take_eq_ok.mpr ⟨enough, rfl, rfl⟩

/-- What stands for the lengths of a field, and the field. -/
theorem readBridgeHeader_eq
    (row : Octets)
    (offset : Nat) :
    readBridgeHeader row offset =
      if offset + 4 ≤ row.length then
        if offset + 4 + (value ((row.drop offset).take 2) +
            value ((row.drop (offset + 2)).take 2)) ≤ row.length then
          .ok (some ((row.drop (offset + 4)).take (value ((row.drop offset).take 2)),
              (row.drop (offset + 4 + value ((row.drop offset).take 2))).take
                (value ((row.drop (offset + 2)).take 2))),
            offset + 4 + value ((row.drop offset).take 2) +
              value ((row.drop (offset + 2)).take 2))
        else
          .ok (none, offset + 4)
      else
        .ok (none, offset) := by
  unfold readBridgeHeader
  by_cases lengths : offset + 4 ≤ row.length
  · rw [ifLeft, if_pos lengths, if_pos lengths, OctetReader.bind_of_ok (number_of_le (by omega)),
      OctetReader.bind_of_ok (number_of_le (by omega))]
    by_cases whole : offset + 4 + (value ((row.drop offset).take 2) +
        value ((row.drop (offset + 2)).take 2)) ≤ row.length
    · rw [ifLeft, if_pos whole, if_pos whole, OctetReader.bind_of_ok (take_of_le (by omega)),
        OctetReader.bind_of_ok (take_of_le (by omega))]
      rfl
    · rw [ifLeft, if_neg whole, if_neg whole]
      rfl
  · rw [ifLeft, if_neg lengths, if_neg lengths]
    rfl

/-- The loop reads within the envelope, and no more fields than it is told. -/
theorem exists_readBridgeHeaders
    (count : Nat)
    (row : Octets)
    (offset : Nat) :
    ∃ headers behind, readBridgeHeaders count row offset = .ok (headers, behind) ∧
      headers.length ≤ count := by
  induction count generalizing offset with
  | zero => exact ⟨[], offset, rfl, Nat.le_refl 0⟩
  | succ count hypothesis =>
      have first : ∃ header behind, readBridgeHeader row offset = .ok (header, behind) := by
        rw [readBridgeHeader_eq]
        split_ifs <;> exact ⟨_, _, rfl⟩
      obtain ⟨header, behind, readFirst⟩ := first
      rw [readBridgeHeaders, OctetReader.bind_of_ok readFirst]
      cases header with
      | none => exact ⟨[], behind, rfl, Nat.zero_le _⟩
      | some header =>
          obtain ⟨others, final, readOthers, bounded⟩ := hypothesis behind
          refine ⟨header :: others, final, ?_, Nat.succ_le_succ bounded⟩
          simp only
          rw [OctetReader.bind_of_ok readOthers]
          rfl

theorem exists_readBridgeBody
    (bodyLen : Nat)
    (row : Octets)
    (offset : Nat) :
    ∃ body behind, readBridgeBody bodyLen row offset = .ok (body, behind) := by
  unfold readBridgeBody
  by_cases whole : offset + bodyLen ≤ row.length
  · rw [ifLeft, if_pos whole]
    exact ⟨_, _, take_of_le whole⟩
  · rw [ifLeft, if_neg whole]
    exact ⟨_, _, rfl⟩

/-- An envelope with a head is read to some response. -/
theorem exists_readBridgeResponse
    (long : 8 ≤ row.length) :
    ∃ headers behind body,
      readBridgeHeaders (value ((row.drop 2).take 2)) row 8 = .ok (headers, behind) ∧
        headers.length ≤ value ((row.drop 2).take 2) ∧
        (readBridgeResponse rules).run row =
          .ok ⟨statusCodeOrOk rules (value (row.take 2)), headers.filter isForwarded, body⟩ := by
  obtain ⟨headers, behind, readHeaders, bounded⟩ :=
    exists_readBridgeHeaders (value ((row.drop 2).take 2)) row 8
  obtain ⟨body, final, readBody⟩ := exists_readBridgeBody (value ((row.drop 4).take 4)) row behind
  refine ⟨headers, behind, body, readHeaders, bounded, ?_⟩
  unfold readBridgeResponse
  rw [OctetReader.run, OctetReader.bind_of_ok (number_of_le (by omega)),
    OctetReader.bind_of_ok (number_of_le (by omega)),
    OctetReader.bind_of_ok (number_of_le (by omega)), OctetReader.bind_of_ok readHeaders,
    OctetReader.bind_of_ok readBody]
  rfl

/-- No envelope makes the decoders index out of bounds. -/
theorem sendResponseFromBridge_ne_outOfBounds
    (rules : HeaderRules)
    (row : Octets) :
    sendResponseFromBridge rules row ≠ .error .outOfBounds := by
  unfold sendResponseFromBridge
  split
  · simp
  · rename_i long
    obtain ⟨headers, behind, body, -, -, read⟩ :=
      exists_readBridgeResponse (Nat.le_of_not_lt long)
    rw [read]
    simp only [bind, Except.bind]
    split
    · split <;> simp [pure, Except.pure]
    · simp

/-! ## Recovered snapshots -/

variable {rules : HeaderRules} {snapshot : Snapshot} {envelope : Octets} {header : Header}
  {headers built : List Header}

/-- The response that a snapshot stands for over HTTP/2 and HTTP/3. -/
def forwardedResponse (snapshot : Snapshot) : BridgeResponse where
  status := snapshot.statusCode
  headers := (snapshot.headers.filter fun header => !isHopByHop header).map fun header =>
    (Octets.asciiLower header.1, header.2)
  body := snapshot.body

def RecoveredBy
    (decoder : Octets → Except DecodeFailure BridgeResponse)
    (snapshot : Snapshot)
    (envelope : Octets) :
    Prop :=
  decoder envelope = .ok (forwardedResponse snapshot)

/-- A snapshot without header fields, and with a status and a body length that
the decoders keep. -/
structure Bare (snapshot : Snapshot) : Prop where
  headers : snapshot.headers = []
  status : 100 ≤ snapshot.statusCode ∧ snapshot.statusCode ≤ 999
  body : snapshot.body.length < 4294967296

theorem reads_readBridgeBody
    (body : Octets) :
    Reads (readBridgeBody body.length) body body := by
  intro before after
  have enough : before.length + body.length ≤ (before ++ (body ++ after)).length := by
    rw [List.length_append, List.length_append]
    omega
  rw [readBridgeBody, ifLeft, if_pos enough]
  exact OctetReader.reads_take _ body before after

/-- Without fields the status and the body are read, as far as their numbers go. -/
theorem run_readBridgeResponse_of_noFields
    (status : Nat)
    (body : Octets)
    (ncache : Option CacheHint) :
    (readBridgeResponse rules).run (responseFrame status [] body ncache) =
      .ok ⟨statusCodeOrOk rules (status % LittleEndian.limit 2), [],
        body.take (body.length % LittleEndian.limit 4)⟩ := by
  have bodyReads := reads_readBridgeBody (body.take (body.length % LittleEndian.limit 4))
  rw [List.length_take, Nat.min_eq_left (Nat.mod_le _ _)] at bodyReads
  have reads : Reads (readBridgeResponse rules)
      (write 2 status ++ (write 2 0 ++ (write 4 body.length ++
        ([] ++ body.take (body.length % LittleEndian.limit 4)))))
      ⟨statusCodeOrOk rules (status % LittleEndian.limit 2), [],
        body.take (body.length % LittleEndian.limit 4)⟩ :=
    (OctetReader.reads_number_mod _ 2 status).bind
      ((OctetReader.reads_number _ (LittleEndian.limit_pos 2)).bind
        ((OctetReader.reads_number_mod _ 4 body.length).bind
          ((OctetReader.reads_pure ([] : List Header)).bind
            (bodyReads.bind_pure
              (BridgeResponse.mk (statusCodeOrOk rules (status % LittleEndian.limit 2)) [])))))
  have read := reads.run_append
    (body.drop (body.length % LittleEndian.limit 4) ++ encodeHints ncache)
  simp only [List.append_assoc, List.nil_append] at read
  rw [← List.append_assoc (body.take _), List.take_append_drop] at read
  exact read

theorem le_length_responseFrame
    (status : Nat)
    (headers : List Header)
    (body : Octets)
    (ncache : Option CacheHint) :
    8 ≤ (responseFrame status headers body ncache).length := by
  simp only [responseFrame, List.length_append, LittleEndian.length_write]
  omega

theorem sendResponseFromBridge_of_noFields
    (rules : HeaderRules)
    (noFields : snapshot.headers = [])
    (encoded : encodeResponseEnvelope snapshot = .ok envelope) :
    sendResponseFromBridge rules envelope =
      .ok ⟨statusCodeOrOk rules (snapshot.statusCode % LittleEndian.limit 2), [],
        snapshot.body.take (snapshot.body.length % LittleEndian.limit 4)⟩ := by
  have isFrame := (sent_of_encode encoded).envelope
  rw [noFields, sentHeaders, List.map_nil] at isFrame
  have long := le_length_responseFrame snapshot.statusCode [] snapshot.body snapshot.ncache
  rw [sendResponseFromBridge, isFrame, if_neg (Nat.not_lt.mpr long),
    run_readBridgeResponse_of_noFields]
  simp only [bind, Except.bind, buildHeaders, rules.hasRoom_nil, if_true]
  rfl

theorem statusCodeOrOk_bounds
    (rules : HeaderRules)
    (status : Nat) :
    100 ≤ statusCodeOrOk rules status ∧ statusCodeOrOk rules status ≤ 999 := by
  rw [statusCodeOrOk, rules.getD_fromU16]
  split <;> omega

theorem recovered_iff_of_noFields
    (rules : HeaderRules)
    (noFields : snapshot.headers = [])
    (encoded : encodeResponseEnvelope snapshot = .ok envelope) :
    RecoveredBy (sendResponseFromBridge rules) snapshot envelope ↔ Bare snapshot := by
  have forwarded : forwardedResponse snapshot = ⟨snapshot.statusCode, [], snapshot.body⟩ := by
    rw [forwardedResponse, noFields, List.filter_nil, List.map_nil]
  rw [RecoveredBy, sendResponseFromBridge_of_noFields rules noFields encoded, forwarded]
  constructor
  · intro same
    have response := Except.ok.inj same
    refine ⟨noFields, ?_, ?_⟩
    · have status : statusCodeOrOk rules (snapshot.statusCode % LittleEndian.limit 2) =
          snapshot.statusCode := congrArg BridgeResponse.status response
      rw [← status]
      exact statusCodeOrOk_bounds rules _
    · have lengths := congrArg (List.length ∘ BridgeResponse.body) response
      simp only [Function.comp_apply, List.length_take] at lengths
      have below := Nat.mod_lt snapshot.body.length (LittleEndian.limit_pos 4)
      change snapshot.body.length < LittleEndian.limit 4
      omega
  · intro bare
    have statusFits : snapshot.statusCode % LittleEndian.limit 2 = snapshot.statusCode :=
      Nat.mod_eq_of_lt (Nat.lt_of_le_of_lt bare.status.2 (by decide))
    have bodyFits : snapshot.body.length % LittleEndian.limit 4 = snapshot.body.length :=
      Nat.mod_eq_of_lt bare.body
    rw [statusFits, bodyFits, List.take_length, statusCodeOrOk, rules.getD_fromU16,
      if_pos ⟨bare.status.1, Nat.lt_succ_of_le bare.status.2⟩]

/-! ## Fields are misread -/

theorem of_buildHeaders
    (isBuilt : buildHeaders rules headers = some built) :
    List.Forall₂ (fun header field => rules.name header.1 = some field.1 ∧ header.2 = field.2)
      headers built := by
  induction headers generalizing built with
  | nil =>
      cases isBuilt
      exact .nil
  | cons header rest hypothesis =>
      obtain ⟨name, isName, isBuilt⟩ := Option.bind_eq_some_iff.mp isBuilt
      rw [Option.ite_none_right_eq_some] at isBuilt
      obtain ⟨others, builtOthers, rfl⟩ := Option.map_eq_some_iff.mp isBuilt.2
      exact .cons ⟨isName, rfl⟩ (hypothesis builtOthers)

/-- A name that is kept in some form has an octet in front, and no zero. -/
theorem exists_cons_of_name
    {name form : Octets}
    (isName : rules.name name = some form) :
    0 ∉ name ∧ name ≠ [] := by
  refine ⟨fun zero => ?_, ?_⟩
  · rw [rules.name_of_zero name zero] at isName
    cases isName
  · rintro rfl
    rw [rules.name_nil] at isName
    cases isName

theorem zero_mem_of_lower
    {left right : Octets}
    (same : Octets.asciiLower left = Octets.asciiLower right)
    (zero : 0 ∈ right) :
    0 ∈ left := by
  have lowered : Octets.lower 0 ∈ Octets.asciiLower left := by
    rw [same]
    exact List.mem_map_of_mem zero
  obtain ⟨octet, member, isZero⟩ := List.mem_map.mp lowered
  have isNat : (Octets.lower octet).toNat = 0 := by
    rw [isZero]
    rfl
  have octetZero : octet = 0 := by
    rcases Octets.toNat_lower octet with low | ⟨above, -, low⟩
    · exact UInt8.toNat_inj.mp (by rw [← low, isNat]; rfl)
    · omega
  rwa [← octetZero]

theorem length_of_lower
    {left right : Octets}
    (same : Octets.asciiLower left = Octets.asciiLower right) :
    left.length = right.length := by
  have lengths := congrArg List.length same
  rwa [Octets.asciiLower, Octets.asciiLower, List.length_map, List.length_map] at lengths

/-- The values that are not sent as they are are short. -/
theorem length_lt_of_valueBytes_ne
    (changed : valueBytes header ≠ some header.2) :
    header.2.length < 256 := by
  have short : ∀ entry ∈ inheritedProperties, entry.1.length < 256 := by decide
  unfold valueBytes at changed
  split at changed
  · split at changed
    · rename_i length inherited
      exact short _ (Dictionary.mem_of_get inherited)
    · exact absurd rfl changed
  · exact absurd rfl changed

/-- The first field of the loop has the lengths that stand at the offset. -/
theorem length_of_readBridgeHeaders
    {count behind : Nat} {first : Header} {others : List Header}
    (read : readBridgeHeaders count row offset = .ok (first :: others, behind)) :
    first.1.length = value ((row.drop offset).take 2) ∧
      first.2.length = value ((row.drop (offset + 2)).take 2) := by
  cases count with
  | zero => cases read
  | succ count =>
      obtain ⟨header, next, readFirst, read⟩ := OctetReader.bind_eq_ok.mp read
      rw [readBridgeHeader_eq] at readFirst
      split_ifs at readFirst with lengths whole
      · cases readFirst
        obtain ⟨rest, final, readRest, result⟩ := OctetReader.bind_eq_ok.mp read
        cases result
        constructor
        · rw [List.length_take, List.length_drop]
          omega
        · rw [List.length_take, List.length_drop]
          omega
      · cases readFirst
        cases read
      · cases readFirst
        cases read

/-- The lengths that the loop sees for the first field of a response. -/
theorem lengths_of_frame
    (status : Nat)
    (octet : UInt8)
    (name sent : Octets)
    (rest : List Header)
    (body : Octets)
    (ncache : Option CacheHint) :
    value (((responseFrame status ((octet :: name, sent) :: rest) body ncache).drop 8).take 2) =
        (name.length + 1) % 256 + 256 * (sent.length % 256) ∧
      value (((responseFrame status ((octet :: name, sent) :: rest) body ncache).drop 10).take 2) =
        sent.length / 256 % 256 + 256 * octet.toNat := by
  have layout : (responseFrame status ((octet :: name, sent) :: rest) body ncache).drop 8 =
      UInt8.ofNat (name.length + 1) :: UInt8.ofNat sent.length ::
        UInt8.ofNat (sent.length / 256) :: octet ::
          (name ++ sent ++ (rest.flatMap encodeHeader ++ (body ++ encodeHints ncache))) := by
    simp [responseFrame, encodeHeader, write]
  have later : (responseFrame status ((octet :: name, sent) :: rest) body ncache).drop 10 =
      ((responseFrame status ((octet :: name, sent) :: rest) body ncache).drop 8).drop 2 := by
    rw [List.drop_drop]
  rw [later, layout]
  simp [value]

theorem count_of_frame
    (status : Nat)
    (headers : List Header)
    (body : Octets)
    (ncache : Option CacheHint) :
    value (((responseFrame status headers body ncache).drop 2).take 2) =
      headers.length % LittleEndian.limit 2 := by
  have afterStatus : (responseFrame status headers body ncache).drop 2 =
      write 2 headers.length ++ (write 4 body.length ++
        (headers.flatMap encodeHeader ++ (body ++ encodeHints ncache))) :=
    List.drop_left' (LittleEndian.length_write 2 status)
  rw [afterStatus, List.take_left' (LittleEndian.length_write 2 _), LittleEndian.value_write_mod]

/-- A response that is sent has the fields that were built. -/
theorem of_sendResponseFromBridge
    {response result : BridgeResponse}
    (long : 8 ≤ row.length)
    (read : (readBridgeResponse rules).run row = .ok response)
    (isSent : sendResponseFromBridge rules row = .ok result) :
    buildHeaders rules response.headers = some result.headers := by
  rw [sendResponseFromBridge, if_neg (Nat.not_lt.mpr long), read] at isSent
  simp only [bind, Except.bind] at isSent
  split at isSent
  · rename_i built isBuilt
    split at isSent
    · cases isSent
      exact isBuilt
    · cases isSent
  · cases isSent

/-- The first field of a snapshot does not come back: the second octet of its
lengths is that of its value, and the first octet of its name counts for a length. -/
theorem first_field_misread
    {first : Header} {form : Octets} {rest : List Header} {body : Octets}
    {ncache : Option CacheHint} {status : Nat}
    (nameFits : header.1.length < 256)
    (valueFits : ((valueBytes header).getD []).length < 65536)
    (nameLength : first.1.length = value (((responseFrame status
      ((header.1, (valueBytes header).getD []) :: rest) body ncache).drop 8).take 2))
    (valueLength : first.2.length = value (((responseFrame status
      ((header.1, (valueBytes header).getD []) :: rest) body ncache).drop 10).take 2))
    (isName : rules.name first.1 = some form)
    (sameName : form = Octets.asciiLower header.1)
    (sameValue : first.2 = header.2) :
    False := by
  have lowered : Octets.asciiLower first.1 = Octets.asciiLower header.1 := by
    rw [← rules.name_lower _ _ isName, sameName]
  obtain ⟨noZero, notEmpty⟩ := exists_cons_of_name isName
  have lengths := length_of_lower lowered
  obtain ⟨name, headerValue⟩ := header
  cases name with
  | nil => exact notEmpty (List.eq_nil_of_length_eq_zero lengths)
  | cons octet name =>
      have positive : 0 < octet.toNat := by
        rw [Nat.pos_iff_ne_zero]
        intro zero
        refine noZero (zero_mem_of_lower lowered ?_)
        rw [UInt8.toNat_inj.mp (zero.trans UInt8.toNat_zero.symm)]
        exact List.mem_cons_self
      obtain ⟨shortName, shortValue⟩ := lengths_of_frame status octet name
        ((valueBytes (octet :: name, headerValue)).getD []) rest body ncache
      rw [shortName] at nameLength
      rw [shortValue, sameValue] at valueLength
      rw [List.length_cons] at nameFits lengths
      by_cases plain : valueBytes (octet :: name, headerValue) = some headerValue
      · rw [plain, Option.getD_some] at nameLength valueLength valueFits
        dsimp only at *
        omega
      · have short := length_lt_of_valueBytes_ne plain
        dsimp only at *
        omega

/-- A response with fields comes out otherwise, unless some of them are dropped. -/
theorem noFields_of_recovered
    (encoded : encodeResponseEnvelope snapshot = .ok envelope)
    (forwarded : ∀ header ∈ snapshot.headers, isHopByHop header = false)
    (recovered : RecoveredBy (sendResponseFromBridge rules) snapshot envelope) :
    snapshot.headers = [] := by
  have sent := sent_of_encode encoded
  have long : 8 ≤ envelope.length := by
    rw [sent.envelope]
    exact le_length_responseFrame _ _ _ _
  obtain ⟨fields, behind, body, readFields, bounded, read⟩ := exists_readBridgeResponse long
  have isBuilt : buildHeaders rules (fields.filter isForwarded) =
      some (forwardedResponse snapshot).headers :=
    of_sendResponseFromBridge long read recovered
  have kept : (forwardedResponse snapshot).headers =
      snapshot.headers.map fun header => (Octets.asciiLower header.1, header.2) := by
    rw [forwardedResponse, List.filter_eq_self.mpr]
    intro header member
    rw [forwarded header member, Bool.not_false]
  rw [kept] at isBuilt
  have built := of_buildHeaders isBuilt
  have isCount := count_of_frame snapshot.statusCode (sentHeaders snapshot.headers) snapshot.body
    snapshot.ncache
  rw [← sent.envelope, sentHeaders, List.length_map] at isCount
  have all : fields.filter isForwarded = fields := by
    refine List.filter_sublist.eq_of_length ?_
    have sameLength := built.length_eq
    rw [List.length_map] at sameLength
    have atMost := List.length_filter_le isForwarded fields
    have fewer := Nat.mod_le snapshot.headers.length (LittleEndian.limit 2)
    omega
  rw [all] at built
  cases isHeaders : snapshot.headers with
  | nil => rfl
  | cons header rest =>
      rw [isHeaders, List.map_cons] at built
      cases built with
      | cons field others =>
          obtain ⟨nameLength, valueLength⟩ := length_of_readBridgeHeaders readFields
          have fits := sent.headers (header.1, (valueBytes header).getD [])
            (by rw [isHeaders, sentHeaders, List.map_cons]; exact List.mem_cons_self)
          have nameFits : header.1.length < 256 := fits.1
          have valueFits : ((valueBytes header).getD []).length < 65536 := fits.2
          rw [sent.envelope, isHeaders, sentHeaders, List.map_cons] at nameLength valueLength
          exact (first_field_misread nameFits valueFits nameLength valueLength field.1 rfl
            field.2).elim

/-- Both decoders recover a snapshot without header fields whose numbers they keep,
and nothing else, unless some of its fields are dropped; and they never index out
of bounds. -/
theorem bridgeResponses_recovered
    (rules : HeaderRules) :
    (∀ snapshot envelope, encodeResponseEnvelope snapshot = .ok envelope →
      (Bare snapshot →
        RecoveredBy (sendH2ResponseFromBridge rules) snapshot envelope ∧
          RecoveredBy (sendH3ResponseFromBridge rules) snapshot envelope) ∧
      ((∀ header ∈ snapshot.headers, isHopByHop header = false) →
        (RecoveredBy (sendH2ResponseFromBridge rules) snapshot envelope ↔ Bare snapshot) ∧
          (RecoveredBy (sendH3ResponseFromBridge rules) snapshot envelope ↔ Bare snapshot))) ∧
    ∀ row, sendH2ResponseFromBridge rules row ≠ .error .outOfBounds ∧
      sendH3ResponseFromBridge rules row ≠ .error .outOfBounds := by
  refine ⟨fun snapshot envelope encoded => ⟨fun bare => ?_, fun forwarded => ?_⟩, fun row => ?_⟩
  · have recovered := (recovered_iff_of_noFields rules bare.headers encoded).mpr bare
    exact ⟨recovered, recovered⟩
  · have exact : RecoveredBy (sendResponseFromBridge rules) snapshot envelope ↔ Bare snapshot := by
      constructor
      · intro recovered
        have noFields := noFields_of_recovered encoded forwarded recovered
        exact (recovered_iff_of_noFields rules noFields encoded).mp recovered
      · intro bare
        exact (recovered_iff_of_noFields rules bare.headers encoded).mpr bare
    exact ⟨exact, exact⟩
  · have within := sendResponseFromBridge_ne_outOfBounds rules row
    exact ⟨within, within⟩

/-! ## Two snapshots -/

def isTokenOctet (octet : UInt8) : Bool :=
  (octets "!#$%&'*+-.^_|~0123456789").contains octet || octet = 96 ||
    (97 ≤ (Octets.lower octet).toNat && (Octets.lower octet).toNat ≤ 122)

theorem isTokenOctet_zero : isTokenOctet 0 = false := by
  decide

/-- The rules of the crate: tokens in lower case, values without control
characters, and a bounded map. -/
def httpRules : HeaderRules where
  toStatusCodes := statusCodes
  name row := if row ≠ [] ∧ row.all isTokenOctet then some (Octets.asciiLower row) else none
  isValue row := row.all fun octet => (32 ≤ octet.toNat && octet ≠ 127) || octet = 9
  hasRoom headers := headers.length ≤ 24576
  name_nil := rfl
  name_of_zero row zero := by
    rw [if_neg]
    rintro ⟨-, tokens⟩
    have token := List.all_eq_true.mp tokens 0 zero
    rw [isTokenOctet_zero] at token
    cases token
  name_lower row form isName := by
    rw [Option.ite_none_right_eq_some] at isName
    exact (Option.some.inj isName.2).symm
  hasRoom_nil := rfl

def bareSnapshot : Snapshot where
  status := some 200
  headers := []
  body := octets "hello"
  ncache := none

theorem bridgeResponses_recovered_bare :
    ∃ envelope, encodeResponseEnvelope bareSnapshot = .ok envelope ∧
      RecoveredBy (sendH2ResponseFromBridge httpRules) bareSnapshot envelope ∧
        RecoveredBy (sendH3ResponseFromBridge httpRules) bareSnapshot envelope :=
  ⟨_, rfl, ((bridgeResponses_recovered httpRules).1 bareSnapshot _ rfl).1
    ⟨rfl, by decide, by decide⟩⟩

def plainTextSnapshot : Snapshot where
  status := some 200
  headers := [(octets "content-type", octets "text/plain")]
  body := octets "hello"
  ncache := none

/-- With one field, the field is lost and the body starts within the field. -/
theorem not_recovered_of_contentType :
    (¬ ∀ snapshot envelope, encodeResponseEnvelope snapshot = .ok envelope →
        RecoveredBy (sendH2ResponseFromBridge httpRules) snapshot envelope) ∧
      ¬ ∀ snapshot envelope, encodeResponseEnvelope snapshot = .ok envelope →
        RecoveredBy (sendH3ResponseFromBridge httpRules) snapshot envelope := by
  have lost : ¬ ∀ snapshot envelope, encodeResponseEnvelope snapshot = .ok envelope →
      RecoveredBy (sendResponseFromBridge httpRules) snapshot envelope := by
    intro recovered
    have same := recovered plainTextSnapshot _ rfl
    revert same
    unfold RecoveredBy
    decide
  exact ⟨lost, lost⟩

end Envelope
end HttpNative
