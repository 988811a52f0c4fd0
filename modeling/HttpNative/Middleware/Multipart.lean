import HttpNative.Bridge.AccessAnalysis
import HttpNative.Library.Decimal
import HttpNative.Library.Dictionary
import HttpNative.Library.MessageHead
import HttpNative.Library.Utf8

/-!
# Multipart bodies

The parser of `multipart/form-data` bodies. It looks for the boundary with two dashes in
front of it, reads the header lines behind it and takes what comes before the next
boundary, less two octets, for the content of the part.
-/

namespace HttpNative
namespace Multipart

open MessageHead (lineEnd)

structure Limits where
  maxFileSize : Nat
  maxFiles : Nat
  maxFieldSize : Nat

structure MultipartFile where
  name : Text
  fieldName : Option Text
  mimetype : Text
  size : Nat
  data : Octets
deriving DecidableEq

structure ParsedForm where
  fields : Dictionary Text Text
  files : List MultipartFile
deriving DecidableEq

/-- What a body is refused for, with status 413. -/
inductive FormError where
  | tooManyFiles (maxFiles : Nat)
  | fileTooLarge (filename : Text)
  | fieldTooLarge (name : Text)
deriving DecidableEq

def FormError.status (_ : FormError) : Nat := 413

def FormError.message : FormError → Text
  | .tooManyFiles maxFiles => text "Too many files (max " ++ Decimal.write maxFiles ++ text ")"
  | .fileTooLarge filename => text "File \"" ++ filename ++ text "\" exceeds max size"
  | .fieldTooLarge name => text "Field \"" ++ name ++ text "\" exceeds max size"

/-! ## The header lines of a part -/

/-- `split("\r\n")`. -/
def splitLineEnds : Text → List Text
  | [] => [[]]
  | '\r' :: '\n' :: rest => [] :: splitLineEnds rest
  | char :: rest => (splitLineEnds rest).modifyHead (char :: ·)

def parsePartHeaders (headerSection : Text) : Dictionary Text Text :=
  (splitLineEnds headerSection).foldl
    (fun headers line =>
      match Text.cut ':' line with
      | (name, some value) => headers.set (Bridge.toLowerCase (Text.trim name)) (Text.trim value)
      | (_, none) => headers) []

/-- A parameter that stands at the beginning of a text, with a value that is not empty. -/
def parameterHere (word input : Text) : Option Text :=
  (Json.stripPrefix (word ++ text "=\"") input).bind fun behind =>
    let value := behind.takeWhile (· ≠ '"')
    if value ≠ [] ∧ (behind.drop value.length).head? = some '"' then some value else none

/-- The first match of `\bword="([^"]+)"`, behind a character. -/
def parameterFrom (word : Text) : Option Char → Text → Option Text
  | _, [] => none
  | before, char :: rest =>
      (if Bridge.isBoundary before (some char) then parameterHere word (char :: rest) else none) <|>
        parameterFrom word (some char) rest

structure ContentDisposition where
  name : Option Text
  filename : Option Text
deriving DecidableEq

def parseContentDisposition (value : Text) : ContentDisposition where
  name := parameterFrom (text "name") none value
  filename := parameterFrom (text "filename") none value

/-! ## The parts -/

/-- What a part adds to the form. -/
def addPart
    (limits : Limits)
    (form : ParsedForm)
    (headers : Dictionary Text Text)
    (partBody : Octets) :
    Except FormError ParsedForm :=
  let disposition :=
    parseContentDisposition ((headers.get (text "content-disposition")).getD [])
  match disposition.filename with
  | some filename =>
      if form.files.length ≥ limits.maxFiles then .error (.tooManyFiles limits.maxFiles)
      else if partBody.length > limits.maxFileSize then .error (.fileTooLarge filename)
      else
        .ok { form with
          files := form.files ++
            [{ name := filename
               fieldName := disposition.name
               mimetype :=
                (headers.get (text "content-type")).getD (text "application/octet-stream")
               size := partBody.length
               data := partBody }] }
  | none =>
      match disposition.name with
      | some name =>
          if partBody.length > limits.maxFieldSize then .error (.fieldTooLarge name)
          else .ok { form with fields := form.fields.set name (Utf8.decodeLossy partBody) }
      | none => .ok form

/-- The loop over the parts, from behind a delimiter on; every round reads four octets
and more. -/
def parseParts (delimiter : Octets) (limits : Limits) :
    Nat → ParsedForm → Octets → Except FormError ParsedForm
  | 0, form, _ => .ok form
  | fuel + 1, form, input =>
      if input = [] then
        .ok form
      else
        let input := if lineEnd.isPrefixOf input then input.drop 2 else input
        if (octets "--").isPrefixOf input then
          .ok form
        else
          match Octets.find (lineEnd ++ lineEnd) input with
          | none => .ok form
          | some headerEnd =>
              let headers := parsePartHeaders (Utf8.decodeLossy (input.take headerEnd))
              let rest := input.drop (headerEnd + 4)
              match Octets.find delimiter rest with
              | none => .ok form
              | some nextBoundary =>
                  (addPart limits form headers (rest.take (nextBoundary - 2))).bind fun form =>
                    parseParts delimiter limits fuel form
                      (rest.drop (nextBoundary + delimiter.length))

def delimiterOf (boundary : Text) : Octets :=
  Utf8.encode (text "--" ++ boundary)

def parseMultipartBody (body : Octets) (boundary : Text) (limits : Limits) :
    Except FormError ParsedForm :=
  match Octets.find (delimiterOf boundary) body with
  | none => .ok ⟨[], []⟩
  | some firstBoundary =>
      let rest := body.drop (firstBoundary + (delimiterOf boundary).length)
      parseParts (delimiterOf boundary) limits rest.length ⟨[], []⟩ rest

end Multipart
end HttpNative
