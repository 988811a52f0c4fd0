import HttpNative.Response.ReadingBack
import HttpNative.Router.RouteCache

/-!
# Responses to dispatches

What the worker writes when a dispatch is over, what it stores of it in a cache,
and the common form of both. A response in this form keeps it when a session cookie
is added and when its connection field is patched.
-/

namespace HttpNative
namespace Response

open Envelope
  (AcceptedEncoding CompressionConfig Header applyCompression connectionValue crlf decimalOctets
    field readResponse)
open MessageHead

def internalServerError : Octets :=
  octets "\x7b\"error\":\"Internal Server Error\"\x7d"

def badGateway : Octets :=
  octets "\x7b\"error\":\"Bad Gateway\"\x7d"

/-- The `Set-Cookie` field of a session. -/
def withCookie (httpResponse : Octets) (setCookie : Option Octets) : Octets :=
  match setCookie with
  | some cookie => injectSetCookieHeader httpResponse cookie
  | none => httpResponse

/-- What `write_dynamic_dispatch_response` writes in one go: a response, or the head
of a stream. A rejected dispatch has no response, and the session of a dispatch may
come to a cookie. -/
def writeDynamicDispatchResponse
    (dispatched : Option Octets)
    (keepAlive : Bool)
    (encoding : AcceptedEncoding)
    (compressionConfig : Option CompressionConfig)
    (setCookie : Option Octets) :
    Octets :=
  match dispatched with
  | none => buildErrorResponseBytes 502 badGateway keepAlive
  | some response =>
      match streamHead response keepAlive with
      | some head => head
      | none =>
          match Envelope.buildHttpResponseFromDispatch response keepAlive encoding
              compressionConfig with
          | .ok httpResponse => withCookie httpResponse setCookie
          | .error _ => buildErrorResponseBytes 500 internalServerError keepAlive

/-- The entry that is cached of a response in one of the modes. -/
def cacheEntry (httpResponse : Octets) (keepAlive : Bool) (expiresAt : Nat) : Router.CacheEntry where
  responseBytes := if keepAlive then httpResponse else patchConnectionHeader httpResponse true
  responseBytesClose := if keepAlive then patchConnectionHeader httpResponse false else httpResponse
  expiresAt := expiresAt

/-- What `get_cached_response` takes of an entry. -/
def cachedResponse (entry : Router.CacheEntry) (keepAlive : Bool) : Octets :=
  if keepAlive then entry.responseBytes else entry.responseBytesClose

/-! ## The form of a response -/

/-- The parts of a response: its status, the fields of the server, the headers that
are passed on, the cookie of a session, and the body. -/
structure ResponseForm where
  status : Nat
  serverFields : List Header
  headers : List Header
  cookie : Option Octets := none
  body : Octets

def ResponseForm.cookieFields (form : ResponseForm) : List Header :=
  form.cookie.toList.map fun value => (HttpNative.octets "set-cookie", value)

def ResponseForm.octets (form : ResponseForm) : Octets :=
  assemble form.status form.serverFields (form.headers ++ form.cookieFields) form.body

theorem ResponseForm.octets_of_cookie_none
    {form : ResponseForm}
    (noCookie : form.cookie = none) :
    form.octets = assemble form.status form.serverFields form.headers form.body := by
  rw [octets, cookieFields, noCookie, Option.toList_none, List.map_nil, List.append_nil]

def staticForm (status : Nat) (headers : List Header) (body : Octets) (keepAlive : Bool) :
    ResponseForm where
  status := status
  serverFields := ownFields body.length keepAlive
  headers := passOn [] headers
  body := body

def compressedStaticForm
    (status : Nat)
    (headers : List Header)
    (compressedBody : Octets)
    (keepAlive : Bool)
    (encoding : AcceptedEncoding) :
    ResponseForm where
  status := status
  serverFields := ownFields compressedBody.length keepAlive ++ compressionFields (some encoding)
  headers := passOn [contentLength, connection, octets "content-encoding"] headers
  body := compressedBody

def fastForm
    (status : Nat)
    (headers : List Header)
    (body : Octets)
    (keepAlive : Bool)
    (encoding : AcceptedEncoding)
    (compressionConfig : Option CompressionConfig) :
    ResponseForm where
  status := status
  serverFields :=
    ownFields (applyCompression headers body encoding compressionConfig).1.length keepAlive ++
      compressionFields (appliedEncoding headers body encoding compressionConfig)
  headers := passOn [contentLength, connection] headers
  body := (applyCompression headers body encoding compressionConfig).1

def errorForm (status : Nat) (body : Octets) (keepAlive : Bool) : ResponseForm where
  status := status
  serverFields := ownFields body.length keepAlive ++
    [(octets "content-type", octets "application/json; charset=utf-8")]
  headers := []
  body := body

def streamForm (response : Octets) (keepAlive : Bool) : ResponseForm where
  status := streamStatus response
  serverFields := streamFields keepAlive
  headers := streamPassOn (streamHeaders response)
  body := []

/-- The form of what is written for a dispatch. -/
def dispatchForm
    (dispatched : Option Octets)
    (keepAlive : Bool)
    (encoding : AcceptedEncoding)
    (compressionConfig : Option CompressionConfig)
    (setCookie : Option Octets) :
    ResponseForm :=
  match dispatched with
  | none => errorForm 502 badGateway keepAlive
  | some response =>
      if isStreamStart response then
        streamForm response keepAlive
      else
        match readResponse.run response with
        | .ok (status, headers, body) =>
            { fastForm status headers body keepAlive encoding compressionConfig with
              cookie := setCookie }
        | .error _ => errorForm 500 internalServerError keepAlive

theorem fastForm_octets
    (status : Nat)
    (headers : List Header)
    (body : Octets)
    (keepAlive : Bool)
    (encoding : AcceptedEncoding)
    (compressionConfig : Option CompressionConfig) :
    (fastForm status headers body keepAlive encoding compressionConfig).octets =
      buildResponseBytesFast status headers body keepAlive encoding compressionConfig := by
  rw [buildResponseBytesFast_eq]
  exact ResponseForm.octets_of_cookie_none rfl

theorem buildHttpResponseFromDispatch_form
    (response : Octets)
    (keepAlive : Bool)
    (encoding : AcceptedEncoding)
    (compressionConfig : Option CompressionConfig) :
    Envelope.buildHttpResponseFromDispatch response keepAlive encoding compressionConfig =
      (readResponse.run response).map fun read =>
        (fastForm read.1 read.2.1 read.2.2 keepAlive encoding compressionConfig).octets := by
  simp only [buildHttpResponseFromDispatch_eq, fastForm_octets]

/-- A cookie is added behind the headers of a response without line breaks in
them. -/
theorem injectSetCookieHeader_octets
    {form : ResponseForm}
    (noCookie : form.cookie = none)
    (serverFields : ∀ header ∈ form.serverFields, hasLineBreak header = false)
    (headers : ∀ header ∈ form.headers, hasLineBreak header = false)
    (cookie : Octets) :
    injectSetCookieHeader form.octets cookie = { form with cookie := some cookie }.octets := by
  let rows := statusRow form.status :: (form.serverFields ++ form.headers).map lineOf
  have whole : form.octets = rows.flatMap (· ++ lineEnd) ++ (lineEnd ++ form.body) := by
    rw [List.flatMap_cons, ← writeFields_eq, writeFields_append, ← statusLine_eq,
      List.append_assoc, List.append_assoc, ResponseForm.octets_of_cookie_none noCookie]
    rfl
  have clean : ∀ row ∈ rows, 13 ∉ row ∧ row ≠ [] := by
    refine List.forall_mem_cons.mpr ⟨⟨forall_mem_statusRow (by simp) _, statusRow_ne_nil _⟩, ?_⟩
    intro row member
    obtain ⟨header, given, rfl⟩ := List.mem_map.mp member
    have unbroken := (List.mem_append.mp given).elim (serverFields header) (headers header)
    exact ⟨notMem_lineOf (.inr rfl) unbroken, lineOf_ne_nil header⟩
  obtain ⟨position, found, length⟩ := find_emptyLine clean (List.cons_ne_nil _ _) form.body
  have same : Octets.find (crlf ++ crlf) form.octets = some position := by
    rw [whole]
    exact found
  have front : form.octets.take (position + 2) = rows.flatMap (· ++ lineEnd) := by
    rw [whole, length, List.take_left]
  have behind : form.octets.drop (position + 2) = lineEnd ++ form.body := by
    rw [whole, length, List.drop_left]
  have cookieField : field (octets "set-cookie") cookie =
      writeFields [(octets "set-cookie", cookie)] :=
    (List.append_nil _).symm
  rw [injectSetCookieHeader, same]
  simp only
  rw [front, behind, List.flatMap_cons, ← writeFields_eq, ← statusLine_eq, writeFields_append,
    cookieField, ResponseForm.octets, assemble, writeFields_append]
  simp only [List.append_assoc]
  rfl

theorem unbroken_fastForm
    (status : Nat)
    (headers : List Header)
    (body : Octets)
    (keepAlive : Bool)
    (encoding : AcceptedEncoding)
    (compressionConfig : Option CompressionConfig) :
    (∀ header ∈
        (fastForm status headers body keepAlive encoding compressionConfig).serverFields,
      hasLineBreak header = false) ∧
    ∀ header ∈ (fastForm status headers body keepAlive encoding compressionConfig).headers,
      hasLineBreak header = false := by
  constructor
  · intro header member
    exact (List.mem_append.mp member).elim (unbroken_ownFields keepAlive) unbroken_compressionFields
  · intro header member
    exact unbroken_of_mem_passOn member

/-- What is written for a dispatch has its form. -/
theorem writeDynamicDispatchResponse_eq
    (dispatched : Option Octets)
    (keepAlive : Bool)
    (encoding : AcceptedEncoding)
    (compressionConfig : Option CompressionConfig)
    (setCookie : Option Octets) :
    writeDynamicDispatchResponse dispatched keepAlive encoding compressionConfig setCookie =
      (dispatchForm dispatched keepAlive encoding compressionConfig setCookie).octets := by
  cases dispatched with
  | none => rfl
  | some response =>
      rw [writeDynamicDispatchResponse, dispatchForm, streamHead]
      cases starts : isStreamStart response with
      | true =>
          have noCookie : (streamForm response keepAlive).cookie = none := rfl
          rw [if_pos rfl, if_pos rfl, ResponseForm.octets_of_cookie_none noCookie]
          rfl
      | false =>
          rw [if_neg (by simp), if_neg (by simp), buildHttpResponseFromDispatch_form]
          cases readResponse.run response with
          | error error => rfl
          | ok read =>
              obtain ⟨serverFields, headers⟩ := unbroken_fastForm read.1 read.2.1 read.2.2
                keepAlive encoding compressionConfig
              cases setCookie with
              | none => rfl
              | some cookie => exact injectSetCookieHeader_octets rfl serverFields headers cookie

/-! ## Patches -/

theorem replaceFirst_of_find
    {find replace before after : Octets}
    (found : Octets.find find (before ++ (find ++ after)) = some before.length) :
    replaceFirst find replace (before ++ (find ++ after)) = before ++ (replace ++ after) := by
  have behind : (before ++ (find ++ after)).drop (before.length + find.length) = after := by
    rw [← List.drop_drop, List.drop_left, List.drop_left]
  rw [replaceFirst, found]
  simp only
  rw [List.take_left, behind, List.append_assoc]

/-- The connection field without its line feed. -/
def connectionRow (keepAlive : Bool) : Octets :=
  lineOf (connection, connectionValue keepAlive) ++ [13]

theorem connectionRow_spec :
    ∀ keepAlive, 10 ∉ connectionRow keepAlive ∧ 58 ∈ connectionRow keepAlive ∧
      (connectionRow keepAlive).dropLast.getLast? = some 101 := by
  decide

/-- No number ends as the connection field does. -/
theorem not_suffix_contentLength
    (keepAlive : Bool)
    (length : Nat) :
    ¬ connectionRow keepAlive <:+ lineOf (contentLength, decimalOctets length) ++ [13] := by
  rintro ⟨before, same⟩
  obtain ⟨-, -, last⟩ := connectionRow_spec keepAlive
  have rows := congrArg List.dropLast same
  have long : connectionRow keepAlive ≠ [] := by cases keepAlive <;> decide
  rw [List.dropLast_append_of_ne_nil long, List.dropLast_concat] at rows
  have ends := congrArg List.getLast? rows
  have spelled : lineOf (contentLength, decimalOctets length) =
      (contentLength ++ octets ": ") ++ decimalOctets length := by
    rw [lineOf, fieldLine, List.append_assoc]
  have shorter : (connectionRow keepAlive).dropLast ≠ [] := by cases keepAlive <;> decide
  rw [spelled, List.getLast?_append_of_ne_nil _ shorter, last,
    List.getLast?_append_of_ne_nil _ (decimalOctets_ne_nil length)] at ends
  have digit := isDigit_of_mem_decimalOctets (List.mem_of_getLast? ends.symm)
  exact absurd digit.2 (by decide)

/-- A patched response is the response of the other mode. -/
theorem patchConnectionHeader_assemble
    (status length : Nat)
    (keepAlive : Bool)
    (others headers : List Header)
    (body : Octets) :
    patchConnectionHeader
        (assemble status (ownFields length keepAlive ++ others) headers body) (!keepAlive) =
      assemble status (ownFields length (!keepAlive) ++ others) headers body := by
  let statusPart := statusRow status ++ [13]
  let lengthPart := lineOf (contentLength, decimalOctets length) ++ [13]
  let before := statusPart ++ 10 :: (lengthPart ++ [10])
  let after := writeFields others ++ (writeFields headers ++ (crlf ++ body))
  have spelled : ∀ mode, assemble status (ownFields length mode ++ others) headers body =
      before ++ (field connection (connectionValue mode) ++ after) := by
    intro mode
    have rows : writeFields (ownFields length mode ++ others) =
        field contentLength (decimalOctets length) ++
          (field connection (connectionValue mode) ++ writeFields others) := rfl
    rw [assemble, rows, statusLine_eq, field_eq contentLength]
    simp only [before, statusPart, lengthPart, after, lineOf, lineEnd, List.append_assoc,
      List.cons_append, List.nil_append]
  have word : field connection (connectionValue keepAlive) = connectionRow keepAlive ++ [10] := by
    rw [connectionRow, field_eq, List.append_assoc]
    rfl
  obtain ⟨noFeed, colon, -⟩ := connectionRow_spec keepAlive
  have statusLine : 10 ∉ statusPart := by
    rw [List.mem_append, not_or]
    exact ⟨forall_mem_statusRow (by simp) status, by decide⟩
  have noColon : 58 ∉ statusPart := by
    rw [List.mem_append, not_or]
    exact ⟨forall_mem_statusRow (by simp) status, by decide⟩
  have lengthLine : 10 ∉ lengthPart := by
    have unbroken : hasLineBreak (contentLength, decimalOctets length) = false :=
      unbroken_ownFields keepAlive List.mem_cons_self
    rw [List.mem_append, not_or]
    exact ⟨notMem_lineOf (.inl rfl) unbroken, by decide⟩
  have found : Octets.find (field connection (connectionValue keepAlive))
      (before ++ (field connection (connectionValue keepAlive) ++ after)) = some before.length := by
    have text : before ++ (field connection (connectionValue keepAlive) ++ after) =
        statusPart ++ 10 :: (lengthPart ++ 10 ::
          (field connection (connectionValue keepAlive) ++ after)) := by
      simp [before]
    rw [text, word,
      find_behind_line noFeed statusLine (fun suffix => noColon (suffix.subset colon)),
      find_behind_line noFeed lengthLine (not_suffix_contentLength keepAlive length),
      Octets.find_of_isPrefixOf (List.prefix_append _ _) (by simp), Option.map_some,
      Option.map_some]
    simp only [before, List.length_append, List.length_cons, List.length_nil, Option.some.injEq]
    omega
  rw [spelled, spelled, patchConnectionHeader, Bool.not_not, replaceFirst_of_find found]

/-- Both variants of a cached response are the response built in that mode. -/
theorem cachedResponse_cacheEntry
    (status : Nat)
    (headers : List Header)
    (body : Octets)
    (stored keepAlive : Bool)
    (encoding : AcceptedEncoding)
    (compressionConfig : Option CompressionConfig)
    (expiresAt : Nat) :
    cachedResponse
        (cacheEntry (fastForm status headers body stored encoding compressionConfig).octets stored
          expiresAt) keepAlive =
      (fastForm status headers body keepAlive encoding compressionConfig).octets := by
  have patched := patchConnectionHeader_assemble status
    (applyCompression headers body encoding compressionConfig).1.length stored
    (compressionFields (appliedEncoding headers body encoding compressionConfig))
    (passOn [contentLength, connection] headers)
    (applyCompression headers body encoding compressionConfig).1
  simp only [fastForm_octets, buildResponseBytesFast_eq]
  cases stored <;> cases keepAlive
  · rfl
  · exact patched
  · exact patched
  · rfl

end Response
end HttpNative
