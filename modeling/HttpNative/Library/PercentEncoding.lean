import HttpNative.Library.Utf8

/-!
# Percent decoding, strict and lenient

A text is read as literal characters and escaped octets. The strict decoder
fails on a stray percent sign and on octets that are not UTF-8; the lenient one
keeps the sign and replaces the octets. Where the strict decoder succeeds both
give the same text, and where it fails they agree only on texts without escapes.
-/

namespace HttpNative
namespace PercentEncoding

/-- A literal character or an escaped octet. -/
inductive Token where
  | literal (char : Char)
  | octet (value : UInt8)
deriving DecidableEq, Repr

def hexValue (char : Char) : Option Nat :=
  if '0' ≤ char ∧ char ≤ '9' then some (char.toNat - '0'.toNat)
  else if 'a' ≤ char ∧ char ≤ 'f' then some (char.toNat - 'a'.toNat + 10)
  else if 'A' ≤ char ∧ char ≤ 'F' then some (char.toNat - 'A'.toNat + 10)
  else none

/-- The octet two hexadecimal digits stand for. -/
def hexPair (high low : Char) : Option UInt8 :=
  match hexValue high, hexValue low with
  | some high, some low => some (UInt8.ofNat (16 * high + low))
  | _, _ => none

/-- Read the escapes of a text; a percent sign without two hexadecimal digits
stays a literal. -/
def tokens : Text → List Token
  | '%' :: high :: low :: rest =>
      match hexPair high low with
      | some value => .octet value :: tokens rest
      | none => .literal '%' :: tokens (high :: low :: rest)
  | char :: rest => .literal char :: tokens rest
  | [] => []

def Token.octets : Token → List UInt8
  | .literal char => String.utf8EncodeChar char
  | .octet value => [value]

def Token.isOctet : Token → Bool
  | .literal _ => false
  | .octet _ => true

/-- Decode escapes and replace what is not UTF-8. -/
def decodeLenient (input : Text) : Text :=
  Utf8.decodeLossy ((tokens input).flatMap Token.octets)

/-- Decode tokens from a pending character on, failing on a stray percent sign
and on an octet that fits nowhere. -/
def decodeStrictFrom : Utf8.Pending → List Token → Option Text
  | pending, [] => if pending.missing = 0 then some [] else none
  | pending, .literal char :: rest =>
      if pending.missing = 0 ∧ char ≠ '%' then
        (decodeStrictFrom .idle rest).map (char :: ·)
      else
        none
  | pending, .octet value :: rest =>
      match Utf8.read pending value.toNat with
      | .complete char => (decodeStrictFrom .idle rest).map (char :: ·)
      | .more next => decodeStrictFrom next rest
      | .invalid => none

def decodeStrict (input : Text) : Option Text :=
  decodeStrictFrom .idle (tokens input)

/-- No percent sign of the text starts an escape. -/
def Unescaped (input : Text) : Prop :=
  ∀ token ∈ tokens input, token.isOctet = false

instance (input : Text) : Decidable (Unescaped input) :=
  inferInstanceAs (Decidable (∀ token ∈ tokens input, token.isOctet = false))

/-! ## Where the two decoders agree -/

/-- What the strict decoder returns, the lenient one returns. -/
theorem decodeLossyFrom_of_decodeStrictFrom
    {pending : Utf8.Pending} {read : List Token} {output : Text}
    (decodes : decodeStrictFrom pending read = some output) :
    Utf8.decodeLossyFrom pending (read.flatMap Token.octets) = output := by
  induction read generalizing pending output with
  | nil =>
      rw [decodeStrictFrom] at decodes
      split at decodes
      · rename_i complete
        cases decodes
        rw [List.flatMap_nil, Utf8.decodeLossyFrom, if_pos complete]
      · cases decodes
  | cons token rest hypothesis =>
      rw [List.flatMap_cons]
      cases token with
      | literal char =>
          rw [decodeStrictFrom] at decodes
          split at decodes
          · rename_i plain
            obtain ⟨tail, tailDecodes, rfl⟩ := Option.map_eq_some_iff.mp decodes
            rw [Utf8.decodeLossyFrom_of_missing_eq_zero plain.1, Token.octets,
              Utf8.decodeLossyFrom_utf8EncodeChar, hypothesis tailDecodes]
          · cases decodes
      | octet value =>
          rw [decodeStrictFrom] at decodes
          rw [Token.octets, List.singleton_append]
          split at decodes
          · rename_i completes
            obtain ⟨tail, tailDecodes, rfl⟩ := Option.map_eq_some_iff.mp decodes
            rw [Utf8.decodeLossyFrom_cons_complete completes, hypothesis tailDecodes]
          · rename_i continues
            rw [Utf8.decodeLossyFrom_cons_more continues, hypothesis decodes]
          · cases decodes

theorem decodeLenient_of_decodeStrict
    {input output : Text}
    (decodes : decodeStrict input = some output) :
    decodeLenient input = output :=
  decodeLossyFrom_of_decodeStrictFrom decodes

/-- A text without escapes reads as itself. -/
theorem tokens_of_unescaped
    {input : Text}
    (unescaped : Unescaped input) :
    tokens input = input.map .literal := by
  fun_induction tokens input with
  | case1 high low rest value pair hypothesis =>
      have escaped := unescaped (.octet value) (by simp [tokens, pair])
      cases escaped
  | case2 high low rest pair hypothesis =>
      rw [hypothesis fun token member => unescaped token (by
        rw [tokens, pair]
        exact List.mem_cons_of_mem _ member)]
      rfl
  | case3 char rest different hypothesis =>
      rw [hypothesis fun token member => unescaped token (by
        rw [tokens]
        · exact List.mem_cons_of_mem _ member
        · exact different)]
      rfl
  | case4 => rfl

theorem decodeLenient_of_unescaped
    {input : Text}
    (unescaped : Unescaped input) :
    decodeLenient input = input := by
  rw [decodeLenient, tokens_of_unescaped unescaped, List.flatMap_map]
  exact Utf8.decodeLossy_encode input

/-! ## Where they differ -/

theorem length_tokens_le
    (input : Text) :
    (tokens input).length ≤ input.length := by
  fun_induction tokens input with
  | case1 high low rest value pair hypothesis =>
      simp only [List.length_cons]
      omega
  | case2 high low rest pair hypothesis =>
      simp only [List.length_cons] at hypothesis ⊢
      omega
  | case3 char rest different hypothesis =>
      simp only [List.length_cons]
      omega
  | case4 => simp

/-- An escape takes three characters and gives one token. -/
theorem length_tokens_lt
    {input : Text}
    (escaped : ¬ Unescaped input) :
    (tokens input).length < input.length := by
  unfold Unescaped at escaped
  fun_induction tokens input with
  | case1 high low rest value pair hypothesis =>
      have bound := length_tokens_le rest
      simp only [List.length_cons]
      omega
  | case2 high low rest pair hypothesis =>
      have bound := hypothesis fun unescaped => escaped fun token member => by
        rcases List.mem_cons.mp member with rfl | inRest
        · rfl
        · exact unescaped token inRest
      simp only [List.length_cons] at bound ⊢
      omega
  | case3 char rest different hypothesis =>
      have bound := hypothesis fun unescaped => escaped fun token member => by
        rcases List.mem_cons.mp member with rfl | inRest
        · rfl
        · exact unescaped token inRest
      simp only [List.length_cons]
      omega
  | case4 => exact absurd (by simp) escaped

/-- Decoding writes at most one character for a token, and the one that was
due. -/
theorem length_decodeLossyFrom_le
    {pending : Utf8.Pending}
    (bounded : pending.Bounded)
    (read : List Token) :
    (Utf8.decodeLossyFrom pending (read.flatMap Token.octets)).length ≤
      read.length + pending.owed := by
  induction read generalizing pending with
  | nil =>
      rw [List.flatMap_nil, Utf8.decodeLossyFrom, Utf8.Pending.owed]
      split <;> simp
  | cons token rest hypothesis =>
      rw [List.flatMap_cons]
      cases token with
      | literal char =>
          have bound := hypothesis Utf8.Pending.bounded_idle
          rw [Token.octets, Utf8.decodeLossyFrom_pending_utf8EncodeChar bounded,
            List.length_append, List.length_replicate, List.length_cons, List.length_cons]
          rw [show Utf8.Pending.idle.owed = 0 from rfl] at bound
          omega
      | octet value =>
          have bound := hypothesis (Utf8.bounded_stepLossy pending value.toNat)
          have written := Utf8.length_stepLossy pending value.toNat
          rw [Token.octets, List.singleton_append, Utf8.decodeLossyFrom, List.length_append,
            List.length_cons]
          omega

theorem length_decodeLenient_le
    (input : Text) :
    (decodeLenient input).length ≤ input.length :=
  (length_decodeLossyFrom_le Utf8.Pending.bounded_idle (tokens input)).trans
    (length_tokens_le input)

theorem length_decodeLenient_lt
    {input : Text}
    (escaped : ¬ Unescaped input) :
    (decodeLenient input).length < input.length :=
  (length_decodeLossyFrom_le Utf8.Pending.bounded_idle (tokens input)).trans_lt
    (length_tokens_lt escaped)

/-- Escapes never decode to themselves. -/
theorem decodeLenient_ne_self
    {input : Text}
    (escaped : ¬ Unescaped input) :
    decodeLenient input ≠ input := by
  intro same
  have shorter := length_decodeLenient_lt escaped
  rw [same] at shorter
  exact absurd shorter (Nat.lt_irrefl _)

/-- Falling back to the text itself where strict decoding fails gives what
lenient decoding gives exactly when strict decoding succeeds or there is
nothing to decode. -/
theorem getD_decodeStrict_eq_decodeLenient_iff
    (input : Text) :
    (decodeStrict input).getD input = decodeLenient input ↔
      (decodeStrict input).isSome = true ∨ Unescaped input := by
  cases decodes : decodeStrict input with
  | some output => simp [decodeLenient_of_decodeStrict decodes]
  | none =>
      simp only [Option.getD_none, Option.isSome_none, Bool.false_eq_true, false_or]
      constructor
      · intro same
        by_contra escaped
        exact decodeLenient_ne_self escaped same.symm
      · intro unescaped
        rw [decodeLenient_of_unescaped unescaped]

/-! ## Where the lenient decoder kept everything -/

/-- Where lenient decoding leaves no percent sign and no replacement character,
strict decoding succeeds. -/
theorem isSome_decodeStrictFrom
    {pending : Utf8.Pending}
    (bounded : pending.Bounded)
    (read : List Token)
    (noPercent : '%' ∉ Utf8.decodeLossyFrom pending (read.flatMap Token.octets))
    (noReplacement :
      Utf8.replacement ∉ Utf8.decodeLossyFrom pending (read.flatMap Token.octets)) :
    (decodeStrictFrom pending read).isSome = true := by
  induction read generalizing pending with
  | nil =>
      rw [List.flatMap_nil, Utf8.decodeLossyFrom] at noReplacement
      rw [decodeStrictFrom]
      split
      · rfl
      · rename_i incomplete
        simp [incomplete] at noReplacement
  | cons token rest hypothesis =>
      rw [List.flatMap_cons] at noPercent noReplacement
      cases token with
      | literal char =>
          rw [Token.octets, Utf8.decodeLossyFrom_pending_utf8EncodeChar bounded,
            List.mem_append, List.mem_cons, not_or, not_or] at noPercent noReplacement
          have between : pending.missing = 0 := by
            by_contra incomplete
            exact noReplacement.1 (by simp [Utf8.Pending.owed, incomplete])
          rw [decodeStrictFrom, if_pos ⟨between, Ne.symm noPercent.2.1⟩, Option.isSome_map]
          exact hypothesis Utf8.Pending.bounded_idle noPercent.2.2 noReplacement.2.2
      | octet value =>
          rw [Token.octets, List.singleton_append] at noPercent noReplacement
          rw [decodeStrictFrom]
          split
          · rename_i char completes
            rw [Utf8.decodeLossyFrom_cons_complete completes, List.mem_cons, not_or]
              at noPercent noReplacement
            rw [Option.isSome_map]
            exact hypothesis Utf8.Pending.bounded_idle noPercent.2 noReplacement.2
          · rename_i next continues
            rw [Utf8.decodeLossyFrom_cons_more continues] at noPercent noReplacement
            exact hypothesis (Utf8.bounded_of_read_eq_more continues) noPercent noReplacement
          · rename_i invalid
            exact absurd (Utf8.replacement_mem_of_invalid invalid _) noReplacement

theorem isSome_decodeStrict
    {input : Text}
    (noPercent : '%' ∉ decodeLenient input)
    (noReplacement : Utf8.replacement ∉ decodeLenient input) :
    (decodeStrict input).isSome = true :=
  isSome_decodeStrictFrom Utf8.Pending.bounded_idle (tokens input) noPercent noReplacement

/-- A text without percent signs reads as itself. -/
theorem tokens_of_percent_notMem
    {input : Text}
    (absent : '%' ∉ input) :
    tokens input = input.map .literal := by
  fun_induction tokens input with
  | case1 high low rest value pair hypothesis => simp at absent
  | case2 high low rest pair hypothesis => simp at absent
  | case3 char rest different hypothesis =>
      rw [hypothesis fun member => absent (List.mem_cons_of_mem _ member)]
      rfl
  | case4 => rfl

/-- Without a percent sign strict decoding succeeds. -/
theorem decodeStrict_of_percent_notMem
    {input : Text}
    (absent : '%' ∉ input) :
    decodeStrict input = some input := by
  rw [decodeStrict, tokens_of_percent_notMem absent]
  induction input with
  | nil => rfl
  | cons char rest hypothesis =>
      rw [List.mem_cons, not_or] at absent
      rw [List.map_cons, decodeStrictFrom, if_pos ⟨rfl, Ne.symm absent.1⟩,
        hypothesis absent.2]
      rfl

end PercentEncoding
end HttpNative
