import HttpNative.Response.ReadingBack

/-!
# Framing and connection fields of responses

Each builder writes the length of the body, or the chunked coding of a stream, and
the connection field itself. A recipient reads these alone just when no header that
the builder passes on is read as one of them.
-/

namespace HttpNative
namespace Response

open Envelope
  (AcceptedEncoding CompressionConfig Header connectionValue decimalOctets readResponse)
open MessageHead

/-- What a call of one of the builders is given. -/
inductive BuilderCall where
  | responseBytes (status : Nat) (headers : List Header) (body : Octets)
  | compressedResponseBytes (status : Nat) (headers : List Header) (compressedBody : Octets)
      (encoding : AcceptedEncoding)
  | responseBytesFast (status : Nat) (headers : List Header) (body : Octets)
      (encoding : AcceptedEncoding) (compressionConfig : Option CompressionConfig)
  | responseFromDispatch (dispatchBytes : Octets) (encoding : AcceptedEncoding)
      (compressionConfig : Option CompressionConfig)
  | streamStart (response : Octets)

namespace BuilderCall

def isStream : BuilderCall → Bool
  | streamStart _ => true
  | _ => false

/-- What is written; nothing for an envelope that cannot be read. -/
def output (call : BuilderCall) (keepAlive : Bool) : Option Octets :=
  match call with
  | responseBytes status headers body => some (buildResponseBytes status headers body keepAlive)
  | compressedResponseBytes status headers compressedBody encoding =>
      some (buildCompressedResponseBytes status headers compressedBody keepAlive encoding)
  | responseBytesFast status headers body encoding compressionConfig =>
      some (buildResponseBytesFast status headers body keepAlive encoding compressionConfig)
  | responseFromDispatch dispatchBytes encoding compressionConfig =>
      (Envelope.buildHttpResponseFromDispatch dispatchBytes keepAlive encoding
        compressionConfig).toOption
  | streamStart response => streamHead response keepAlive

/-- The lines of the headers that the builder passes on. -/
def userLines : BuilderCall → List Octets
  | responseBytes _ headers _ => (passOn [] headers).map lineOf
  | compressedResponseBytes _ headers _ _ =>
      (passOn [contentLength, connection, octets "content-encoding"] headers).map lineOf
  | responseBytesFast _ headers _ _ _ => (passOn [contentLength, connection] headers).map lineOf
  | responseFromDispatch dispatchBytes _ _ =>
      match readResponse.run dispatchBytes with
      | .ok (_, headers, _) => (passOn [contentLength, connection] headers).map lineOf
      | .error _ => []
  | streamStart response =>
      if isStreamStart response then spelledLines (streamPassOn (streamHeaders response)) else []

/-- The fields of a compressed body stand between the connection field and the
headers that are passed on. -/
def isCompressed : BuilderCall → Bool
  | compressedResponseBytes _ _ _ _ => true
  | responseBytesFast _ headers body encoding compressionConfig =>
      (appliedEncoding headers body encoding compressionConfig).isSome
  | responseFromDispatch dispatchBytes encoding compressionConfig =>
      match readResponse.run dispatchBytes with
      | .ok (_, headers, body) => (appliedEncoding headers body encoding compressionConfig).isSome
      | .error _ => false
  | _ => false

end BuilderCall

/-- The head that is read has the framing of the server alone, and the connection
field of the mode. -/
def HasOwnFraming (isStream keepAlive : Bool) (response : Octets) : Prop :=
  ∃ start lines rest, readLines [] response = some (start :: lines, rest) ∧
    valuesOf contentLength lines = (if isStream then [] else [decimalOctets rest.length]) ∧
    valuesOf transferEncoding lines = (if isStream then [octets "chunked"] else []) ∧
    valuesOf connection lines = [connectionValue keepAlive]

def BuilderCall.OwnFraming (call : BuilderCall) (keepAlive : Bool) : Prop :=
  ∀ response ∈ call.output keepAlive, HasOwnFraming call.isStream keepAlive response

/-- No line is a framing or connection field, and none continues the connection
field in front of them. -/
def LeavesFraming (behindConnection : Bool) (lines : List Octets) : Prop :=
  (∀ name ∈ [contentLength, transferEncoding, connection],
    ∀ line ∈ lines, isFieldNamed name line = false) ∧
  (behindConnection → ∀ octet ∈ continuation lines, isBlank octet = true)

def BuilderCall.LeavesFraming (call : BuilderCall) : Prop :=
  Response.LeavesFraming (!call.isCompressed) call.userLines

/-! ## What the fields of the server are read as -/

theorem valuesOf_cons_fieldLine
    {name : Octets}
    (token : IsToken name)
    (wanted value : Octets)
    (lines : List Octets) :
    valuesOf wanted (fieldLine name value :: lines) =
      if Octets.eqIgnoreAsciiCase name wanted then
        fieldValue (fieldLine name value ++ continuation lines) :: valuesOf wanted lines
      else
        valuesOf wanted lines := by
  rw [valuesOf, isFieldNamed_fieldLine token]

theorem solid_connectionValue :
    ∀ keepAlive, connectionValue keepAlive ≠ [] ∧
      ∀ octet ∈ connectionValue keepAlive, isBlank octet = false := by
  decide

/-- The connection field is read as it was written unless a line continues it. -/
theorem connection_read_iff
    {keepAlive : Bool} {lines others : List Octets} :
    fieldValue (fieldLine connection (connectionValue keepAlive) ++ continuation lines) ::
        others = [connectionValue keepAlive] ↔
      others = [] ∧ ∀ octet ∈ continuation lines, isBlank octet = true := by
  obtain ⟨notEmpty, solid⟩ := solid_connectionValue keepAlive
  rw [List.cons.injEq, fieldValue_fieldLine_eq_iff (by decide) notEmpty solid]
  exact and_comm

theorem tokens_ownFields :
    IsToken contentLength ∧ IsToken transferEncoding ∧ IsToken connection ∧
      IsToken (octets "content-encoding") ∧ IsToken (octets "vary") := by
  decide

/-- The fields of a compressed body are no framing fields, and end what continues
the connection field. -/
theorem valuesOf_compressionFields
    {wanted : Octets}
    (framing : wanted ∈ [contentLength, transferEncoding, connection])
    (applied : Option AcceptedEncoding)
    (lines : List Octets) :
    valuesOf wanted ((compressionFields applied).map lineOf ++ lines) = valuesOf wanted lines := by
  obtain ⟨-, -, -, encodingToken, varyToken⟩ := tokens_ownFields
  cases applied with
  | none => rfl
  | some encoding =>
      have different : Octets.eqIgnoreAsciiCase (octets "content-encoding") wanted = false ∧
          Octets.eqIgnoreAsciiCase (octets "vary") wanted = false := by
        simp only [List.mem_cons, List.not_mem_nil, or_false] at framing
        rcases framing with rfl | rfl | rfl <;> decide
      change valuesOf wanted (fieldLine (octets "content-encoding") _ ::
        fieldLine (octets "vary") _ :: lines) = _
      rw [valuesOf_cons_fieldLine encodingToken, different.1, valuesOf_cons_fieldLine varyToken,
        different.2]
      rfl

theorem continuation_compressionFields
    (applied : Option AcceptedEncoding)
    (lines : List Octets) :
    continuation ((compressionFields applied).map lineOf ++ lines) =
      if applied.isSome then [] else continuation lines := by
  cases applied with
  | none => rfl
  | some encoding =>
      have token : IsToken (octets "content-encoding") := by decide
      exact continuation_cons (isContinuation_fieldLine token _) _

/-- The fields in front of the other lines of a response with a length. -/
theorem values_of_ownFields
    (length : Nat)
    (keepAlive : Bool)
    (lines : List Octets) :
    let all := (ownFields length keepAlive).map lineOf ++ lines
    valuesOf contentLength all = decimalOctets length :: valuesOf contentLength lines ∧
      valuesOf transferEncoding all = valuesOf transferEncoding lines ∧
      valuesOf connection all =
        fieldValue (fieldLine connection (connectionValue keepAlive) ++ continuation lines) ::
          valuesOf connection lines := by
  obtain ⟨lengthToken, -, connectionToken, -, -⟩ := tokens_ownFields
  have all : (ownFields length keepAlive).map lineOf ++ lines =
      fieldLine contentLength (decimalOctets length) ::
        fieldLine connection (connectionValue keepAlive) :: lines := rfl
  have lengthRead : fieldValue (fieldLine contentLength (decimalOctets length)) =
      decimalOctets length :=
    fieldValue_fieldLine lengthToken (decimalOctets_ne_nil length) (solid_decimalOctets length)
  dsimp only
  rw [all]
  refine ⟨?_, ?_, ?_⟩
  · rw [valuesOf_cons_fieldLine lengthToken, if_pos (by decide),
      continuation_cons (isContinuation_fieldLine connectionToken _), List.append_nil, lengthRead,
      valuesOf_cons_fieldLine connectionToken, if_neg (by decide)]
  · rw [valuesOf_cons_fieldLine lengthToken, if_neg (by decide),
      valuesOf_cons_fieldLine connectionToken, if_neg (by decide)]
  · rw [valuesOf_cons_fieldLine lengthToken, if_neg (by decide),
      valuesOf_cons_fieldLine connectionToken, if_pos (by decide)]

theorem values_of_streamFields
    (keepAlive : Bool)
    (lines : List Octets) :
    let all := (streamFields keepAlive).map lineOf ++ lines
    valuesOf contentLength all = valuesOf contentLength lines ∧
      valuesOf transferEncoding all = octets "chunked" :: valuesOf transferEncoding lines ∧
      valuesOf connection all =
        fieldValue (fieldLine connection (connectionValue keepAlive) ++ continuation lines) ::
          valuesOf connection lines := by
  obtain ⟨-, codingToken, connectionToken, -, -⟩ := tokens_ownFields
  have all : (streamFields keepAlive).map lineOf ++ lines =
      fieldLine transferEncoding (octets "chunked") ::
        fieldLine connection (connectionValue keepAlive) :: lines := rfl
  dsimp only
  rw [all]
  refine ⟨?_, ?_, ?_⟩
  · rw [valuesOf_cons_fieldLine codingToken, if_neg (by decide),
      valuesOf_cons_fieldLine connectionToken, if_neg (by decide)]
  · rw [valuesOf_cons_fieldLine codingToken, if_pos (by decide),
      continuation_cons (isContinuation_fieldLine connectionToken _),
      valuesOf_cons_fieldLine connectionToken, if_neg (by decide), List.append_nil,
      fieldValue_fieldLine codingToken (by decide) (by decide)]
  · rw [valuesOf_cons_fieldLine codingToken, if_neg (by decide),
      valuesOf_cons_fieldLine connectionToken, if_pos (by decide)]

/-! ## When the framing is the server's own -/

theorem leavesFraming_iff
    {behindConnection : Bool} {lines : List Octets} :
    LeavesFraming behindConnection lines ↔
      valuesOf contentLength lines = [] ∧ valuesOf transferEncoding lines = [] ∧
        valuesOf connection lines = [] ∧
          (behindConnection → ∀ octet ∈ continuation lines, isBlank octet = true) := by
  simp only [valuesOf_eq_nil_iff, LeavesFraming, List.forall_mem_cons, List.not_mem_nil,
    false_implies, implies_true, and_true, and_assoc]

theorem hasOwnFraming_iff_of_read
    {isStream keepAlive : Bool} {response start rest : Octets} {lines : List Octets}
    (read : readLines [] response = some (start :: lines, rest)) :
    HasOwnFraming isStream keepAlive response ↔
      valuesOf contentLength lines = (if isStream then [] else [decimalOctets rest.length]) ∧
        valuesOf transferEncoding lines = (if isStream then [octets "chunked"] else []) ∧
        valuesOf connection lines = [connectionValue keepAlive] := by
  constructor
  · rintro ⟨start', lines', rest', found, values⟩
    rw [read] at found
    cases found
    exact values
  · intro values
    exact ⟨start, lines, rest, read, values⟩

/-- A response with a length. -/
theorem hasOwnFraming_assemble_iff
    {headers : List Header}
    (unbroken : ∀ header ∈ headers, hasLineBreak header = false)
    (status : Nat)
    (keepAlive : Bool)
    (applied : Option AcceptedEncoding)
    (body : Octets) :
    HasOwnFraming false keepAlive
        (assemble status (ownFields body.length keepAlive ++ compressionFields applied) headers
          body) ↔
      LeavesFraming applied.isNone (headers.map lineOf) := by
  have serverFields : ∀ header ∈ ownFields body.length keepAlive ++ compressionFields applied,
      hasLineBreak header = false := by
    intro header member
    exact (List.mem_append.mp member).elim (unbroken_ownFields keepAlive) unbroken_compressionFields
  obtain ⟨spelled, behind⟩ := spelled_of_unbroken unbroken
  have read := readLines_assemble serverFields status headers body
  rw [spelled, behind, List.nil_append] at read
  obtain ⟨lengths, codings, connections⟩ := values_of_ownFields body.length keepAlive
    ((compressionFields applied).map lineOf ++ headers.map lineOf)
  rw [List.map_append, List.append_assoc] at read
  rw [hasOwnFraming_iff_of_read read, lengths, codings, connections, connection_read_iff,
    continuation_compressionFields, valuesOf_compressionFields (by simp),
    valuesOf_compressionFields (by simp), valuesOf_compressionFields (by simp), leavesFraming_iff]
  cases applied with
  | none => simp
  | some encoding => simp

/-- The head of a stream. -/
theorem hasOwnFraming_streamHead_iff
    (status : Nat)
    (headers : List Header)
    (keepAlive : Bool) :
    HasOwnFraming true keepAlive (assemble status (streamFields keepAlive) headers []) ↔
      LeavesFraming true (spelledLines headers) := by
  have read := readLines_assemble (fun header => unbroken_streamFields keepAlive) status headers []
  obtain ⟨lengths, codings, connections⟩ :=
    values_of_streamFields keepAlive (spelledLines headers)
  rw [hasOwnFraming_iff_of_read read, lengths, codings, connections, connection_read_iff,
    leavesFraming_iff]
  simp

/-- A response of a fast path or a dispatch. -/
theorem hasOwnFraming_fast_iff
    (status : Nat)
    (headers : List Header)
    (body : Octets)
    (keepAlive : Bool)
    (encoding : AcceptedEncoding)
    (compressionConfig : Option CompressionConfig) :
    HasOwnFraming false keepAlive
        (buildResponseBytesFast status headers body keepAlive encoding compressionConfig) ↔
      LeavesFraming (!(appliedEncoding headers body encoding compressionConfig).isSome)
        ((passOn [contentLength, connection] headers).map lineOf) := by
  rw [buildResponseBytesFast_eq, Option.not_isSome]
  exact hasOwnFraming_assemble_iff (fun header => unbroken_of_mem_passOn) _ _ _ _

theorem forall_eq_of_mem_some
    {Value : Type} {value : Value} {property : Value → Prop} :
    (∀ found ∈ some value, property found) ↔ property value := by
  simp

theorem leavesFraming_nil
    (behindConnection : Bool) :
    LeavesFraming behindConnection [] := by
  simp [LeavesFraming, continuation]

/-- The framing and the connection field are the server's own just when no header
that is passed on is read as one of them. -/
theorem ownFraming_iff
    (call : BuilderCall)
    (keepAlive : Bool) :
    call.OwnFraming keepAlive ↔ call.LeavesFraming := by
  cases call with
  | responseBytes status headers body =>
      rw [BuilderCall.OwnFraming, BuilderCall.output, forall_eq_of_mem_some]
      exact hasOwnFraming_assemble_iff (fun header => unbroken_of_mem_passOn) status keepAlive
        none body
  | compressedResponseBytes status headers compressedBody encoding =>
      rw [BuilderCall.OwnFraming, BuilderCall.output, forall_eq_of_mem_some]
      exact hasOwnFraming_assemble_iff (fun header => unbroken_of_mem_passOn) status keepAlive
        (some encoding) compressedBody
  | responseBytesFast status headers body encoding compressionConfig =>
      rw [BuilderCall.OwnFraming, BuilderCall.output, forall_eq_of_mem_some]
      exact hasOwnFraming_fast_iff status headers body keepAlive encoding compressionConfig
  | responseFromDispatch dispatchBytes encoding compressionConfig =>
      rw [BuilderCall.OwnFraming, BuilderCall.output, buildHttpResponseFromDispatch_eq,
        BuilderCall.LeavesFraming, BuilderCall.isCompressed, BuilderCall.userLines]
      cases readResponse.run dispatchBytes with
      | error error => simp [Except.map, Except.toOption, leavesFraming_nil]
      | ok read =>
          obtain ⟨status, headers, body⟩ := read
          dsimp only [Except.map, Except.toOption]
          rw [forall_eq_of_mem_some]
          exact hasOwnFraming_fast_iff status headers body keepAlive encoding compressionConfig
  | streamStart response =>
      rw [BuilderCall.OwnFraming, BuilderCall.output, streamHead, BuilderCall.LeavesFraming,
        BuilderCall.userLines]
      split
      · rw [forall_eq_of_mem_some]
        exact hasOwnFraming_streamHead_iff _ _ keepAlive
      · simp [leavesFraming_nil]

/-- The answer `200` without a body to a handler that has set
`transfer-encoding: chunked`. -/
def chunkedHeaderEnvelope : Octets :=
  [200, 0, 1, 0, 0, 0, 0, 0, 17, 7, 0] ++ (transferEncoding ++ octets "chunked")

/-- Its response has a length and a transfer coding. -/
theorem not_ownFraming :
    ¬ ∀ (call : BuilderCall) (keepAlive : Bool), call.OwnFraming keepAlive := by
  intro own
  have built := own (.responseFromDispatch chunkedHeaderEnvelope .identity none) true
  have read : readResponse.run chunkedHeaderEnvelope =
      .ok (200, [(transferEncoding, octets "chunked")], []) := by
    rfl
  rw [BuilderCall.OwnFraming, BuilderCall.output, buildHttpResponseFromDispatch_eq, read] at built
  have framing : HasOwnFraming false true (buildResponseBytesFast 200
      [(transferEncoding, octets "chunked")] [] true .identity none) := built _ rfl
  rw [hasOwnFraming_fast_iff] at framing
  exact absurd (framing.1 transferEncoding (by decide)) (by decide)

end Response
end HttpNative
