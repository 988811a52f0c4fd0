import HttpNative.Response.CachedCookies

/-!
# Responses that are changed

A response to a dispatch gets its connection field patched before it is cached in both
modes, and the cookie of a session put behind its fields. The first patch comes to the
response that is built in the other mode, the second to one more field.
-/

namespace HttpNative
namespace Response

open Envelope
  (AcceptedEncoding CompressionConfig Header breaksLine buildHttpResponseFromDispatch
    decimalOctets readResponse)
open MessageHead
open Router (CacheEntry)

/-! ## The modes of the connection -/

/-- One dispatch gave the entry: its variants are what is built of it in each mode. -/
def BuiltInBothModes (config : Option CompressionConfig) (entry : CacheEntry) : Prop :=
  ∃ response encoding, ∀ keepAlive,
    buildHttpResponseFromDispatch response keepAlive encoding config =
      .ok (cachedResponse entry keepAlive)

def ConnectionRun.CachesBuilt (config : Option CompressionConfig) (run : ConnectionRun) : Prop :=
  run.caches.AllEntries (BuiltInBothModes config)

/-- The patch of what is built in one mode is what is built in the other. -/
theorem patchConnectionHeader_built
    (response : Octets)
    (keepAlive : Bool)
    (encoding : AcceptedEncoding)
    (compressionConfig : Option CompressionConfig) :
    (buildHttpResponseFromDispatch response keepAlive encoding compressionConfig).map
        (fun built => patchConnectionHeader built (!keepAlive)) =
      buildHttpResponseFromDispatch response (!keepAlive) encoding compressionConfig := by
  rw [buildHttpResponseFromDispatch_eq, buildHttpResponseFromDispatch_eq]
  cases readResponse.run response with
  | error error => rfl
  | ok read =>
      change Except.ok (patchConnectionHeader (buildResponseBytesFast _ _ _ keepAlive _ _) _) =
        Except.ok (buildResponseBytesFast _ _ _ (!keepAlive) _ _)
      rw [buildResponseBytesFast_eq, buildResponseBytesFast_eq, patchConnectionHeader_assemble]

theorem builtInBothModes_of_stores
    {config : Option CompressionConfig} {incoming : Incoming} {route : RouteMatch}
    {response : Octets} {entry : CacheEntry}
    (stores : Stores config incoming route response entry) :
    BuiltInBothModes config entry := by
  obtain ⟨status, headers, body, expiresAt, responds, rfl⟩ := stores.built
  refine ⟨response, incoming.encoding, fun keepAlive => ?_⟩
  rw [buildHttpResponseFromDispatch_form, responds.read, cachedResponse_cacheEntry]
  rfl

/-- Every step keeps what the caches hold. -/
theorem builtInBothModes_of_step
    {config : Option CompressionConfig} {run next : ConnectionRun} {event : ConnectionEvent}
    (held : run.CachesBuilt config)
    (stepped : run.step config event = some next) :
    next.CachesBuilt config := by
  unfold ConnectionRun.CachesBuilt
  rcases caches_of_step stepped with ⟨here, incoming, -, same⟩ | ⟨valid, same⟩ | same
  · rw [same]
    exact allEntries_cachesBehind held fun _ _ _ stores => builtInBothModes_of_stores stores
  · rw [same]
    exact held.retain valid
  · rw [same]
    exact held

/-- The patch comes to the response of the other mode, and in every state of a worker
both variants of what is cached are responses that were built. -/
theorem patched_is_built
    {config : Option CompressionConfig} {run : ConnectionRun}
    (reaches : (connectionMachine config).Reaches run)
    (response : Octets)
    (keepAlive : Bool)
    (encoding : AcceptedEncoding)
    (compressionConfig : Option CompressionConfig) :
    (buildHttpResponseFromDispatch response keepAlive encoding compressionConfig).map
        (fun built => patchConnectionHeader built (!keepAlive)) =
      buildHttpResponseFromDispatch response (!keepAlive) encoding compressionConfig ∧
      run.CachesBuilt config := by
  refine ⟨patchConnectionHeader_built response keepAlive encoding compressionConfig, ?_⟩
  refine reaches.invariant ?_ ?_
  · intro cacheNamespace cache absent
    cases absent
  · intro state event next held _ stepped
    exact builtInBothModes_of_step held stepped

/-- A cached answer to a post, and a header whose value looks like a connection
field. -/
theorem patched_is_built_cachedPost :
    (buildHttpResponseFromDispatch
        ([200, 0, 1, 0, 0, 0, 0, 0, 1, 17, 0, 120] ++ octets "connection: close")
        true .identity none).map (fun built => patchConnectionHeader built false) =
      buildHttpResponseFromDispatch
        ([200, 0, 1, 0, 0, 0, 0, 0, 1, 17, 0, 120] ++ octets "connection: close")
        false .identity none ∧
      afterCachedPost.CachesBuilt none :=
  patched_is_built afterCachedPost_reaches _ true .identity none

/-! ## The cookie of a session -/

/-- A message as a recipient reads it. -/
structure ParsedResponse where
  start : Octets
  fields : List Header
  body : Octets
deriving DecidableEq

/-- The fields that lines come to; a line that starts with a blank belongs to the field
before it. -/
def readFields : List Octets → List Header
  | [] => []
  | line :: rest =>
      if isContinuation line then readFields rest
      else (fieldName line, fieldValue (line ++ continuation rest)) :: readFields rest

/-- The start line, the fields and the body of a message. -/
def parseResponse (input : Octets) : Option ParsedResponse :=
  match readLines [] input with
  | some (start :: lines, body) => some { start := start, fields := readFields lines, body := body }
  | _ => none

theorem readFields_cons_own
    {line : Octets}
    (own : isContinuation line = false)
    (rest : List Octets) :
    readFields (line :: rest) =
      (fieldName line, fieldValue (line ++ continuation rest)) :: readFields rest := by
  rw [readFields, own, if_neg Bool.false_ne_true]

/-- The fields of lines in front of others that do not continue them. -/
theorem readFields_append
    {more : List Octets}
    (own : ∀ line ∈ more.head?, isContinuation line = false)
    (lines : List Octets) :
    readFields (lines ++ more) = readFields lines ++ readFields more := by
  induction lines with
  | nil => rfl
  | cons line lines hypothesis =>
      cases continues : isContinuation line with
      | false =>
          rw [List.cons_append, readFields_cons_own continues, readFields_cons_own continues,
            continuation_append own, hypothesis, List.cons_append]
      | true =>
          rw [List.cons_append, readFields, if_pos continues, hypothesis, readFields,
            if_pos continues]

theorem fieldName_fieldLine
    {name : Octets}
    (token : IsToken name)
    (value : Octets) :
    fieldName (fieldLine name value) = name := by
  have spelled : fieldLine name value = name ++ 58 :: (32 :: value) := rfl
  rw [fieldName, spelled, takeWhile_fieldLine token.noColon, trimWith_of_solid token.solid]

/-- A single field. -/
theorem readFields_fieldLine
    {name : Octets}
    (token : IsToken name)
    (value : Octets) :
    readFields [fieldLine name value] = [(name, Octets.trimWith isBlank value)] := by
  have valueRead := fieldValue_fieldLine_append token value []
  rw [List.append_nil, List.append_nil] at valueRead
  rw [readFields_cons_own (isContinuation_fieldLine token value), fieldName_fieldLine token]
  change [(name, fieldValue (fieldLine name value ++ []))] = _
  rw [List.append_nil, valueRead]

theorem token_setCookieName :
    IsToken setCookieName := by
  decide

/-- The lines of a response without line breaks in its fields. -/
theorem readLines_unbrokenForm
    {form : ResponseForm}
    (serverFields : ∀ header ∈ form.serverFields, hasLineBreak header = false)
    (headers : ∀ header ∈ form.headers, hasLineBreak header = false)
    (clean : ∀ value ∈ form.cookie, breaksLine value = false) :
    readLines [] form.octets =
      some (statusRow form.status :: ((form.serverFields ++ form.headers).map lineOf ++
        form.cookie.toList.map (fieldLine setCookieName)), form.body) := by
  have cookieFields : ∀ header ∈ form.cookieFields, hasLineBreak header = false := by
    intro header member
    obtain ⟨value, given, rfl⟩ := List.mem_map.mp member
    have name : breaksLine setCookieName = false := by decide
    exact Bool.or_eq_false_iff.mpr ⟨name, clean value (Option.mem_toList.mp given)⟩
  have unbroken : ∀ header ∈ form.headers ++ form.cookieFields, hasLineBreak header = false :=
    fun header member =>
      (List.mem_append.mp member).elim (headers header) (cookieFields header)
  obtain ⟨spelled, behind⟩ := spelled_of_unbroken unbroken
  have read := readLines_assemble serverFields form.status (form.headers ++ form.cookieFields)
    form.body
  rw [spelled, behind, List.nil_append] at read
  rw [ResponseForm.octets, read, List.map_append, List.map_append, List.append_assoc,
    ResponseForm.cookieFields, List.map_map]
  rfl

theorem parseResponse_of_readLines
    {input start body : Octets} {lines : List Octets}
    (read : readLines [] input = some (start :: lines, body)) :
    parseResponse input = some ⟨start, readFields lines, body⟩ := by
  rw [parseResponse, read]

/-- The length of the body is the first field of a response that is built. -/
theorem head?_readFields_ownFields
    (length : Nat)
    (keepAlive : Bool)
    (others : List Header) :
    (readFields ((ownFields length keepAlive ++ others).map lineOf)).head? =
      some (contentLength, decimalOctets length) := by
  obtain ⟨lengthToken, -, connectionToken, -, -⟩ := tokens_ownFields
  have read : fieldValue (fieldLine contentLength (decimalOctets length)) = decimalOctets length :=
    fieldValue_fieldLine lengthToken (decimalOctets_ne_nil length) (solid_decimalOctets length)
  have spelled : (ownFields length keepAlive ++ others).map lineOf =
      fieldLine contentLength (decimalOctets length) ::
        fieldLine connection (Envelope.connectionValue keepAlive) :: others.map lineOf := rfl
  rw [spelled, readFields_cons_own (isContinuation_fieldLine lengthToken _),
    continuation_cons (isContinuation_fieldLine connectionToken _), List.append_nil, read,
    fieldName_fieldLine lengthToken, List.head?_cons]

/-- A cookie without line breaks becomes one more field behind the others: its octets
stand in a line of their own, and a recipient reads them without the blanks around
them. The start line, the fields and the body are those of the response, and the length
that stands first is that of the body. -/
theorem parseResponse_injectSetCookieHeader
    {response httpResponse cookie : Octets} {keepAlive : Bool} {encoding : AcceptedEncoding}
    {compressionConfig : Option CompressionConfig}
    (built : buildHttpResponseFromDispatch response keepAlive encoding compressionConfig =
      .ok httpResponse)
    (clean : breaksLine cookie = false) :
    ∃ start lines body,
      readLines [] httpResponse = some (start :: lines, body) ∧
      readLines [] (injectSetCookieHeader httpResponse cookie) =
        some (start :: (lines ++ [fieldLine setCookieName cookie]), body) ∧
      parseResponse httpResponse = some ⟨start, readFields lines, body⟩ ∧
      parseResponse (injectSetCookieHeader httpResponse cookie) =
        some ⟨start, readFields lines ++ [(setCookieName, Octets.trimWith isBlank cookie)], body⟩ ∧
      (readFields lines).head? = some (contentLength, decimalOctets body.length) := by
  rw [buildHttpResponseFromDispatch_form] at built
  cases ran : readResponse.run response with
  | error error =>
      rw [ran] at built
      cases built
  | ok read =>
      obtain ⟨status, headers, content⟩ := read
      rw [ran] at built
      cases built
      let form := fastForm status headers content keepAlive encoding compressionConfig
      obtain ⟨serverFields, passedOn⟩ :
          (∀ header ∈ form.serverFields, hasLineBreak header = false) ∧
            ∀ header ∈ form.headers, hasLineBreak header = false :=
        unbroken_fastForm status headers content keepAlive encoding compressionConfig
      have cleanCookie : ∀ value ∈ some cookie, breaksLine value = false := by
        intro value given
        cases given
        exact clean
      have own : ∀ line ∈ [fieldLine setCookieName cookie].head?, isContinuation line = false := by
        intro line given
        cases given
        exact isContinuation_fieldLine token_setCookieName cookie
      let lines := (form.serverFields ++ form.headers).map lineOf
      have plain : readLines [] form.octets = some (statusRow status :: lines, form.body) := by
        have noCookie : form.cookie = none := rfl
        have read := readLines_unbrokenForm serverFields passedOn nofun
        rw [noCookie, Option.toList_none, List.map_nil, List.append_nil] at read
        exact read
      have added : readLines [] (injectSetCookieHeader form.octets cookie) =
          some (statusRow status :: (lines ++ [fieldLine setCookieName cookie]), form.body) := by
        rw [injectSetCookieHeader_octets rfl serverFields passedOn cookie]
        exact readLines_unbrokenForm serverFields passedOn cleanCookie
      have fields : readFields (lines ++ [fieldLine setCookieName cookie]) =
          readFields lines ++ [(setCookieName, Octets.trimWith isBlank cookie)] := by
        rw [readFields_append own, readFields_fieldLine token_setCookieName]
      have first : (readFields lines).head? =
          some (contentLength, decimalOctets form.body.length) := by
        have spelled : lines = (ownFields form.body.length keepAlive ++
            (compressionFields (appliedEncoding headers content encoding compressionConfig) ++
              form.headers)).map lineOf := by
          rw [← List.append_assoc]
          rfl
        rw [spelled]
        exact head?_readFields_ownFields _ _ _
      have message := parseResponse_of_readLines added
      rw [fields] at message
      exact ⟨_, _, _, plain, added, parseResponse_of_readLines plain, message, first⟩

/-- A cookie on a response whose body looks like the end of a head. -/
theorem parseResponse_injectSetCookieHeader_page :
    parseResponse (injectSetCookieHeader
        (buildResponseBytesFast 200 [] (octets "a\r\n\r\nb: c\r\n\r\n") true .identity none)
        (octets "sid=1")) =
      some ⟨octets "HTTP/1.1 200 OK",
        [(contentLength, octets "13"), (connection, octets "keep-alive"),
          (setCookieName, octets "sid=1")],
        octets "a\r\n\r\nb: c\r\n\r\n"⟩ := by
  have built : buildHttpResponseFromDispatch
      ([200, 0, 0, 0, 13, 0, 0, 0] ++ octets "a\r\n\r\nb: c\r\n\r\n") true .identity none =
      .ok (buildResponseBytesFast 200 [] (octets "a\r\n\r\nb: c\r\n\r\n") true .identity none) := by
    rw [buildHttpResponseFromDispatch_eq]
    rfl
  have clean : breaksLine (octets "sid=1") = false := by decide
  obtain ⟨start, lines, body, -, -, plain, added, -⟩ :=
    parseResponse_injectSetCookieHeader built clean
  have known : parseResponse
      (buildResponseBytesFast 200 [] (octets "a\r\n\r\nb: c\r\n\r\n") true .identity none) =
      some ⟨octets "HTTP/1.1 200 OK", [(contentLength, octets "13"),
        (connection, octets "keep-alive")], octets "a\r\n\r\nb: c\r\n\r\n"⟩ := by
    decide
  injection Option.some.inj (plain.symm.trans known) with sameStart sameFields sameBody
  rw [added, sameStart, sameFields, sameBody]
  decide

end Response
end HttpNative
