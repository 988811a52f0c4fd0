import HttpNative.Library.JsonReading
import HttpNative.Library.JsValue
import HttpNative.Library.Replacements

/-!
# Objects in the page

Objects for the page are written as JSON into a script element before the closing body
tag. The JSON is escaped so that it neither leaves the element nor breaks the script, and
it is still JSON for the same value.
-/

namespace HttpNative
namespace Response

open JsValue (isNullish)
open JsonValue (Respelled parse unitEscape)
open TextPattern (exactly ignoringCase)

/-! ## Escaping -/

/-- The replacements of `escapeInlineScriptJson`, one behind the other. -/
def escapeScriptText (json : Text) : Text :=
  let less := (exactly (text "<")).replaceAll (text "\\u003c") json
  let arrow := (exactly (text "-->")).replaceAll (text "--\\u003e") less
  let line := (exactly ['\u2028']).replaceAll (text "\\u2028") arrow
  let paragraph := (exactly ['\u2029']).replaceAll (text "\\u2029") line
  (ignoringCase (text "</script")).replaceAll (text "<\\/script") paragraph

/-- None where `JSON.stringify` throws, or returns nothing to replace in. -/
def escapeInlineScriptJson (value : JsValue) : Option Text :=
  match value.stringify with
  | some (some json) => some (escapeScriptText json)
  | _ => none

/-! ## Injecting -/

/-- A unit of a tag in lower case. -/
def lowerUnit (unit : UInt16) : Nat :=
  if 0x41 ≤ unit.toNat ∧ unit.toNat ≤ 0x5A then unit.toNat + 0x20 else unit.toNat

/-- What follows a text in lower case, whatever case it stands in. -/
def afterIgnoringCase : Text → JsString → Option JsString
  | [], input => some input
  | _ :: _, [] => none
  | char :: expected, unit :: input =>
      if lowerUnit unit = char.toNat then afterIgnoringCase expected input else none

/-- `\s` -/
def isSpaceUnit (unit : UInt16) : Bool :=
  Text.isSpace (Char.ofNat unit.toNat)

/-- `/<\/body\s*>/i` matches at the front. -/
def closesBody (input : JsString) : Bool :=
  match afterIgnoringCase (text "</body") input with
  | some rest => (rest.dropWhile isSpaceUnit).head? == some 0x3E
  | none => false

/-- The index of the first match. -/
def bodyCloseIndex : JsString → Option Nat
  | [] => none
  | unit :: input =>
      if closesBody (unit :: input) then some 0 else (bodyCloseIndex input).map (· + 1)

/-- What stands between the tags of the script element. -/
def objectsScript (payload : Text) : Text :=
  text "window.hnSSR=window.hnSSR||\x7b\x7d;window.hnSSR.objects=" ++ payload ++ text ";"

def scriptElement (content : Text) : Text :=
  text "<script>" ++ content ++ text "</script>"

def injectHtmlObjectsScript (html : JsString) (objects : JsValue) : Option JsString :=
  if isNullish objects then
    some html
  else
    (escapeInlineScriptJson objects).map fun payload =>
      let script := JsString.ofText (scriptElement (objectsScript payload))
      match bodyCloseIndex html with
      | none => html ++ script
      | some index => html.take index ++ script ++ html.drop index

/-! ## What escaping keeps -/

/-- Writing a character that no token has as an escape, wherever it stands. -/
theorem respelled_replaceAll_exactly
    {char : Char} {replacement : Text}
    (other : JsonValue.isTokenChar char = false)
    (small : char.toNat < 0x10000)
    (escapes : replacement = unitEscape (.ofNat char.toNat))
    (input : Text) :
    Respelled input ((exactly [char]).replaceAll replacement input) := by
  refine TextPattern.replaceAll_induction Respelled .nil ?_ ?_ input
  · intro first input output _ respelled
    exact .keep first respelled
  · intro input output _ found respelled
    rw [TextPattern.exactly_matchesFront_iff] at found
    obtain ⟨rest, rfl⟩ := found
    rw [escapes]
    exact .escape other small respelled

theorem respelled_replaceAll_arrow
    (input : Text) :
    Respelled input ((exactly (text "-->")).replaceAll (text "--\\u003e") input) := by
  refine TextPattern.replaceAll_induction Respelled .nil ?_ ?_ input
  · intro first input output _ respelled
    exact .keep first respelled
  · intro input output _ found respelled
    rw [TextPattern.exactly_matchesFront_iff] at found
    obtain ⟨rest, rfl⟩ := found
    have escaped : Respelled ('>' :: rest) (unitEscape (.ofNat '>'.toNat) ++ output) :=
      .escape rfl (by decide) respelled
    exact .keep '-' (.keep '-' escaped)

theorem notMem_less
    (json : Text) :
    '<' ∉ (exactly (text "<")).replaceAll (text "\\u003c") json :=
  TextPattern.notMem_replaceAll_exactly (by decide) json

/-- The last replacement never finds anything: no less-than sign is left. -/
theorem replaceAll_endTag_eq
    {input : Text}
    (absent : '<' ∉ input) :
    (ignoringCase (text "</script")).replaceAll (text "<\\/script") input = input := by
  refine TextPattern.replaceAll_induction (fun input output => '<' ∉ input → output = input)
    (fun _ => rfl) ?_ ?_ input absent
  · intro first input output _ hypothesis absent
    rw [List.mem_cons, not_or] at absent
    rw [hypothesis absent.2]
  · intro input output nonempty found _ absent
    cases input with
    | nil => exact absurd rfl nonempty
    | cons first input =>
        have isLess : first = '<' := TextPattern.eq_of_ignoringCase (by decide) found
        exact absurd (isLess ▸ List.mem_cons_self) absent

/-- The last replacement leaves what the four before it have written. -/
theorem escapeScriptText_eq
    (json : Text) :
    escapeScriptText json =
      (exactly ['\u2029']).replaceAll (text "\\u2029") ((exactly ['\u2028']).replaceAll
        (text "\\u2028") ((exactly (text "-->")).replaceAll (text "--\\u003e")
          ((exactly (text "<")).replaceAll (text "\\u003c") json))) := by
  refine replaceAll_endTag_eq ?_
  refine TextPattern.notMem_replaceAll (by decide) ?_
  refine TextPattern.notMem_replaceAll (by decide) ?_
  refine TextPattern.notMem_replaceAll (by decide) ?_
  exact notMem_less json

/-- Nothing is left that ends the element or the line. -/
theorem notMem_escapeScriptText
    (json : Text) :
    '<' ∉ escapeScriptText json ∧ '\u2028' ∉ escapeScriptText json ∧
      '\u2029' ∉ escapeScriptText json := by
  rw [escapeScriptText_eq]
  refine ⟨?_, ?_, ?_⟩
  · refine TextPattern.notMem_replaceAll (by decide) ?_
    refine TextPattern.notMem_replaceAll (by decide) ?_
    refine TextPattern.notMem_replaceAll (by decide) ?_
    exact notMem_less json
  · refine TextPattern.notMem_replaceAll (by decide) ?_
    exact TextPattern.notMem_replaceAll_exactly (by decide) _
  · exact TextPattern.notMem_replaceAll_exactly (by decide) _

/-- Every replacement spells the same value. -/
theorem parse_escapeScriptText
    {json : Text} {value : JsonValue}
    (parsed : parse json = some value) :
    parse (escapeScriptText json) = some value := by
  rw [escapeScriptText_eq]
  have less := (respelled_replaceAll_exactly (by decide) (by decide) (by decide) json :
    Respelled json ((exactly ['<']).replaceAll (text "\\u003c") json)).parse_eq parsed
  have arrow := (respelled_replaceAll_arrow _).parse_eq less
  have line := (respelled_replaceAll_exactly (by decide) (by decide) (by decide) _ :
    Respelled _ ((exactly ['\u2028']).replaceAll (text "\\u2028") _)).parse_eq arrow
  exact (respelled_replaceAll_exactly (by decide) (by decide) (by decide) _ :
    Respelled _ ((exactly ['\u2029']).replaceAll (text "\\u2029") _)).parse_eq line

/-- What `JSON.stringify` returns is JSON. -/
theorem exists_parse_of_stringify
    {objects : JsValue} {json : Text}
    (serialized : objects.stringify = some (some json)) :
    ∃ value, parse json = some value := by
  obtain ⟨found, serializes, renders⟩ := Option.map_eq_some_iff.mp serialized
  obtain ⟨value, rfl, rfl⟩ := Option.map_eq_some_iff.mp renders
  exact ⟨value, JsonValue.parse_render value⟩

/-! ## Where the element stands -/

/-- The markup is cut before the first closing tag of the body, or at its end. -/
structure CutsBody (html before after : JsString) : Prop where
  joins : html = before ++ after
  first : ∀ index < before.length, closesBody (html.drop index) = false
  closes : closesBody after = true ∨ after = []

theorem cutsBody_of_some
    {html : JsString} {index : Nat}
    (found : bodyCloseIndex html = some index) :
    CutsBody html (html.take index) (html.drop index) := by
  induction html generalizing index with
  | nil => cases found
  | cons unit input hypothesis =>
      rw [bodyCloseIndex] at found
      split at found
      · rename_i closes
        cases found
        exact ⟨rfl, fun _ before => absurd before (Nat.not_lt_zero _), .inl closes⟩
      · rename_i notClosing
        obtain ⟨later, foundLater, rfl⟩ := Option.map_eq_some_iff.mp found
        have cuts := hypothesis foundLater
        refine ⟨(List.take_append_drop _ _).symm, ?_, cuts.closes⟩
        intro position before
        cases position with
        | zero => exact Bool.eq_false_iff.mpr notClosing
        | succ position =>
            refine cuts.first position ?_
            rw [List.take_succ_cons, List.length_cons] at before
            exact Nat.lt_of_succ_lt_succ before

theorem cutsBody_of_none
    {html : JsString}
    (missing : bodyCloseIndex html = none) :
    CutsBody html html [] := by
  refine ⟨(List.append_nil html).symm, ?_, .inr rfl⟩
  induction html with
  | nil => exact fun _ before => absurd before (Nat.not_lt_zero _)
  | cons unit input hypothesis =>
      rw [bodyCloseIndex] at missing
      split at missing
      · cases missing
      · rename_i notClosing
        intro position before
        cases position with
        | zero => exact Bool.eq_false_iff.mpr notClosing
        | succ position =>
            exact hypothesis (Option.map_eq_none_iff.mp missing) position
              (Nat.lt_of_succ_lt_succ before)

/-! ## The page -/

/-- An end tag of a script begins at the front. -/
def endsScript (input : JsString) : Bool :=
  (afterIgnoringCase (text "</script") input).isSome

/-- The page is the markup with one script element in it, and the first end tag behind
the start tag is the one that belongs to it. -/
structure InsertsScript (html page : JsString) (content : Text) : Prop where
  inserts : ∃ before after, CutsBody html before after ∧
    page = before ++ JsString.ofText (scriptElement content) ++ after ∧
    ∀ index < (JsString.ofText content).length,
      endsScript ((JsString.ofText (content ++ text "</script>") ++ after).drop index) = false

/-- Objects with a text are written into the page as JSON that stays in its element. -/
def InjectsSafely (html : JsString) (objects : JsValue) (json : Text) : Prop :=
  ∃ payload page,
    escapeInlineScriptJson objects = some payload ∧
    ('<' ∉ payload ∧ '\u2028' ∉ payload ∧ '\u2029' ∉ payload) ∧
    (∃ value, parse json = some value ∧ parse payload = some value) ∧
    injectHtmlObjectsScript html objects = some page ∧
    InsertsScript html page (objectsScript payload)

/-- Only a less-than sign begins an end tag. -/
theorem endsScript_eq_false
    {content : Text}
    (absent : '<' ∉ content)
    (after : JsString)
    {index : Nat}
    (inside : index < (JsString.ofText content).length) :
    endsScript ((JsString.ofText content ++ after).drop index) = false := by
  rw [List.drop_append_of_le_length inside.le, List.drop_eq_getElem_cons inside,
    List.cons_append]
  have isInside := List.getElem_mem inside
  generalize (JsString.ofText content)[index] = unit at isInside
  have different : lowerUnit unit ≠ '<'.toNat := by
    intro same
    unfold lowerUnit at same
    have isLess : unit = .ofNat '<'.toNat := by
      apply UInt16.toNat_inj.mp
      split at same
      · have sign : '<'.toNat = 60 := rfl
        omega
      · exact same
    rw [isLess] at isInside
    exact absent (JsString.mem_of_mem_ofText (by decide) isInside)
  have front : text "</script" = '<' :: text "/script" := rfl
  rw [endsScript, front, afterIgnoringCase, if_neg different]
  rfl

theorem insertsScript_of_cutsBody
    {html before after : JsString} {content : Text}
    (cuts : CutsBody html before after)
    (absent : '<' ∉ content) :
    InsertsScript html (before ++ JsString.ofText (scriptElement content) ++ after) content := by
  refine ⟨before, after, cuts, rfl, fun index inside => ?_⟩
  have joined : JsString.ofText (content ++ text "</script>") ++ after =
      JsString.ofText content ++ (JsString.ofText (text "</script>") ++ after) := by
    rw [JsString.ofText, List.flatMap_append, List.append_assoc]
    rfl
  rw [joined]
  exact endsScript_eq_false absent _ inside

theorem notMem_objectsScript
    {payload : Text}
    (absent : '<' ∉ payload) :
    '<' ∉ objectsScript payload := by
  have assignment : '<' ∉ text "window.hnSSR=window.hnSSR||\x7b\x7d;window.hnSSR.objects=" := by
    decide
  have semicolon : '<' ∉ text ";" := by decide
  unfold objectsScript
  simp only [List.mem_append, not_or]
  exact ⟨⟨assignment, absent⟩, semicolon⟩

theorem injectsSafely_of_present
    (html : JsString)
    {objects : JsValue} {json : Text}
    (present : isNullish objects = false)
    (serialized : objects.stringify = some (some json)) :
    InjectsSafely html objects json := by
  obtain ⟨value, parsed⟩ := exists_parse_of_stringify serialized
  have escaped : escapeInlineScriptJson objects = some (escapeScriptText json) := by
    rw [escapeInlineScriptJson, serialized]
  have absent := notMem_escapeScriptText json
  have contentAbsent := notMem_objectsScript absent.1
  have injected : ∃ before after, CutsBody html before after ∧
      injectHtmlObjectsScript html objects =
        some (before ++ JsString.ofText (scriptElement (objectsScript (escapeScriptText json))) ++
          after) := by
    unfold injectHtmlObjectsScript
    rw [present, if_neg Bool.false_ne_true, escaped, Option.map_some]
    cases found : bodyCloseIndex html with
    | none => exact ⟨html, [], cutsBody_of_none found, by rw [List.append_nil]⟩
    | some index => exact ⟨_, _, cutsBody_of_some found, rfl⟩
  obtain ⟨before, after, cuts, injects⟩ := injected
  exact ⟨escapeScriptText json, _, escaped, absent,
    ⟨value, parsed, parse_escapeScriptText parsed⟩, injects,
    insertsScript_of_cutsBody cuts contentAbsent⟩

/-- Null and undefined leave the page as it is; other objects that have a text are
written into it as JSON for the same value, and their element ends where it was meant
to. -/
theorem injectsSafely_of_stringify
    (html : JsString)
    (objects : JsValue) :
    (isNullish objects = true → injectHtmlObjectsScript html objects = some html) ∧
      ∀ json, isNullish objects = false → objects.stringify = some (some json) →
        InjectsSafely html objects json :=
  ⟨fun nullish => if_pos nullish, fun _ present => injectsSafely_of_present html present⟩

/-- Markup with a body, without objects, and with an object that has an end tag in a
string. -/
theorem injectsSafely_endTag :
    injectHtmlObjectsScript (JsString.ofText (text "<p></BODY >")) .null =
        some (JsString.ofText (text "<p></BODY >")) ∧
      isNullish (.object [(JsString.ofText (text "a"),
        .primitive (.string (JsString.ofText (text "</script>"))))]) = false ∧
      InjectsSafely (JsString.ofText (text "<p></BODY >"))
        (.object [(JsString.ofText (text "a"),
          .primitive (.string (JsString.ofText (text "</script>"))))])
        (text "\x7b\"a\":\"</script>\"\x7d") :=
  ⟨(injectsSafely_of_stringify _ _).1 rfl, rfl,
    (injectsSafely_of_stringify _ _).2 _ rfl (by decide)⟩

theorem ofText_scriptElement_ne_nil
    (content : Text) :
    JsString.ofText (scriptElement content) ≠ [] := by
  have start : JsString.ofText (text "<script>") ≠ [] := by decide
  unfold scriptElement JsString.ofText
  simp only [List.flatMap_append, ne_eq, List.append_eq_nil_iff]
  exact fun empty => start empty.1.1

/-- Null has a text, but there is no script element for it. -/
theorem not_injectsSafely :
    ¬ ∀ (html : JsString) (objects : JsValue) (json : Text),
      objects.stringify = some (some json) → InjectsSafely html objects json := by
  intro safe
  obtain ⟨_, page, _, _, _, injects, ⟨before, after, _, isPage, _⟩⟩ :=
    safe [] .null (text "null") (by decide)
  have same : ([] : JsString) = page := Option.some.inj injects
  rw [← same] at isPage
  have noScript := (List.append_eq_nil_iff.mp (List.append_eq_nil_iff.mp isPage.symm).1).2
  exact ofText_scriptElement_ne_nil _ noScript

end Response
end HttpNative
