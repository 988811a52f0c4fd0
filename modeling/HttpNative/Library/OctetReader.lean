import HttpNative.Library.LittleEndian

/-!
# Readers of binary formats

A reader looks at a whole row of octets from an offset, and comes to a value and
the offset behind it or to an error. Readers are put together with `do`, and
what they read off an encoding is put together in the same way.
-/

namespace HttpNative

/-- From a row and an offset to a value and the offset behind it. -/
def OctetReader (Error Value : Type) :=
  Octets → Nat → Except Error (Value × Nat)

namespace OctetReader

variable {Error Value Result : Type}

instance : Monad (OctetReader Error) where
  pure value := fun _ offset => .ok (value, offset)
  bind reader next := fun row offset =>
    match reader row offset with
    | .ok (value, behind) => next value row behind
    | .error error => .error error

def fail (error : Error) : OctetReader Error Value :=
  fun _ _ => .error error

/-- The next octets, as many as asked for. -/
def take (truncated : Error) (length : Nat) : OctetReader Error Octets :=
  fun row offset =>
    if offset + length ≤ row.length then
      .ok ((row.drop offset).take length, offset + length)
    else
      .error truncated

/-- A little-endian number. -/
def number (truncated : Error) (width : Nat) : OctetReader Error Nat := do
  let taken ← take truncated width
  pure (LittleEndian.value taken)

/-- Go on without looking, also past the end of the row. -/
def skip (length : Nat) : OctetReader Error Unit :=
  fun _ offset => .ok ((), offset + length)

/-- The offset that has been reached. -/
def position : OctetReader Error Nat :=
  fun _ offset => .ok (offset, offset)

/-- The same reader over and over. -/
def times (reader : OctetReader Error Value) : Nat → OctetReader Error (List Value)
  | 0 => pure []
  | count + 1 => do
      let value ← reader
      let values ← times reader count
      pure (value :: values)

/-- The value that is read from the start of a row. -/
def run (reader : OctetReader Error Value) (row : Octets) : Except Error Value :=
  (reader row 0).map Prod.fst

/-! ## What readers come to -/

theorem except_bind_eq_ok
    {first : Except Error Value} {next : Value → Except Error Result} {result : Result} :
    (first >>= next) = .ok result ↔ ∃ value, first = .ok value ∧ next value = .ok result := by
  cases first with
  | error error => simp [bind, Except.bind]
  | ok value => simp [bind, Except.bind]

theorem bind_eq_ok
    {reader : OctetReader Error Value} {next : Value → OctetReader Error Result}
    {row : Octets} {offset : Nat} {result : Result × Nat} :
    (reader >>= next) row offset = .ok result ↔
      ∃ value behind, reader row offset = .ok (value, behind) ∧
        next value row behind = .ok result := by
  change (match reader row offset with
    | .ok (value, behind) => next value row behind
    | .error error => .error error) = .ok result ↔ _
  cases reader row offset with
  | error error => simp
  | ok read =>
      constructor
      · intro result
        exact ⟨read.1, read.2, rfl, result⟩
      · rintro ⟨value, behind, same, result⟩
        cases same
        exact result

theorem take_eq_ok
    {truncated : Error} {length : Nat} {row taken : Octets} {offset behind : Nat} :
    take truncated length row offset = .ok (taken, behind) ↔
      offset + length ≤ row.length ∧ (row.drop offset).take length = taken ∧
        offset + length = behind := by
  unfold take
  split
  · rename_i enough
    simp only [Except.ok.injEq, Prod.mk.injEq, enough, true_and]
  · rename_i short
    simp only [reduceCtorEq, short, false_and]

theorem number_eq_ok
    {truncated : Error} {width value : Nat} {row : Octets} {offset behind : Nat} :
    number truncated width row offset = .ok (value, behind) ↔
      offset + width ≤ row.length ∧
        LittleEndian.value ((row.drop offset).take width) = value ∧ offset + width = behind := by
  rw [number, bind_eq_ok]
  constructor
  · rintro ⟨taken, reached, read, result⟩
    cases result
    obtain ⟨enough, rfl, rfl⟩ := take_eq_ok.mp read
    exact ⟨enough, rfl, rfl⟩
  · rintro ⟨enough, rfl, rfl⟩
    exact ⟨_, _, take_eq_ok.mpr ⟨enough, rfl, rfl⟩, rfl⟩

theorem bind_of_ok
    {reader : OctetReader Error Value} {next : Value → OctetReader Error Result}
    {row : Octets} {offset behind : Nat} {value : Value}
    (read : reader row offset = .ok (value, behind)) :
    (reader >>= next) row offset = next value row behind := by
  change (match reader row offset with
    | .ok (value, behind) => next value row behind
    | .error error => .error error) = _
  rw [read]

theorem bind_of_error
    {reader : OctetReader Error Value} {next : Value → OctetReader Error Result}
    {row : Octets} {offset : Nat} {error : Error}
    (failed : reader row offset = .error error) :
    (reader >>= next) row offset = .error error := by
  change (match reader row offset with
    | .ok (value, behind) => next value row behind
    | .error error => .error error) = _
  rw [failed]

theorem run_eq_ok
    {reader : OctetReader Error Value} {row : Octets} {value : Value} :
    reader.run row = .ok value ↔ ∃ behind, reader row 0 = .ok (value, behind) := by
  unfold run
  cases reader row 0 with
  | error error => simp [Except.map]
  | ok read =>
      obtain ⟨found, behind⟩ := read
      simp [Except.map]

/-- Nothing can be read at the end of a row. -/
theorem number_at_end
    (truncated : Error)
    {width : Nat}
    (positive : 0 < width)
    (row : Octets) :
    number truncated width row row.length = .error truncated := by
  refine bind_of_error ?_
  rw [take, if_neg (by omega)]

/-! ## Round trips -/

/-- Wherever the encoding stands, the reader comes to the value and to the end of
the encoding. -/
def Reads (reader : OctetReader Error Value) (encoding : Octets) (value : Value) : Prop :=
  ∀ before after, reader (before ++ (encoding ++ after)) before.length =
    .ok (value, before.length + encoding.length)

theorem reads_pure
    (value : Value) :
    Reads (pure value : OctetReader Error Value) [] value :=
  fun _ _ => rfl

theorem Reads.bind
    {reader : OctetReader Error Value} {next : Value → OctetReader Error Result}
    {first second : Octets} {value : Value} {result : Result}
    (reads : Reads reader first value)
    (readsNext : Reads (next value) second result) :
    Reads (reader >>= next) (first ++ second) result := by
  intro before after
  refine bind_eq_ok.mpr ⟨value, before.length + first.length, ?_, ?_⟩
  · rw [List.append_assoc]
    exact reads before (second ++ after)
  · have later := readsNext (before ++ first) after
    rw [List.append_assoc, List.length_append] at later
    rw [List.append_assoc, List.length_append, later, Nat.add_assoc]

/-- The last step of a reader that only puts its result together. -/
theorem Reads.bind_pure
    {reader : OctetReader Error Value} {encoding : Octets} {value : Value}
    (reads : Reads reader encoding value)
    (build : Value → Result) :
    Reads (reader >>= fun read => pure (build read)) encoding (build value) := by
  have built : Reads (reader >>= fun read => pure (build read)) (encoding ++ []) (build value) :=
    reads.bind (reads_pure (build value))
  rwa [List.append_nil] at built

theorem reads_take
    (truncated : Error)
    (encoding : Octets) :
    Reads (take truncated encoding.length) encoding encoding := by
  intro before after
  refine take_eq_ok.mpr ⟨?_, ?_, rfl⟩
  · rw [List.length_append, List.length_append]
    omega
  · rw [List.drop_left, List.take_left]

theorem reads_number_mod
    (truncated : Error)
    (width value : Nat) :
    Reads (number truncated width) (LittleEndian.write width value)
      (value % LittleEndian.limit width) := by
  have taken := reads_take truncated (LittleEndian.write width value)
  have read := taken.bind_pure LittleEndian.value
  rwa [LittleEndian.length_write, LittleEndian.value_write_mod] at read

theorem reads_number
    (truncated : Error)
    {width value : Nat}
    (fits : value < LittleEndian.limit width) :
    Reads (number truncated width) (LittleEndian.write width value) value := by
  have read := reads_number_mod truncated width value
  rwa [Nat.mod_eq_of_lt fits] at read

theorem reads_octet
    (truncated : Error)
    (octet : UInt8) :
    Reads (number truncated 1) [octet] octet.toNat := by
  have read : Reads (number truncated 1) (LittleEndian.write 1 octet.toNat) octet.toNat :=
    reads_number truncated octet.toNat_lt
  rwa [LittleEndian.write, LittleEndian.write, UInt8.ofNat_toNat] at read

/-- One value after the other. -/
theorem reads_times
    {Source : Type}
    {reader : OctetReader Error Value}
    {encode : Source → Octets}
    {read : Source → Value}
    {sources : List Source}
    (reads : ∀ source ∈ sources, Reads reader (encode source) (read source)) :
    Reads (times reader sources.length) (sources.flatMap encode) (sources.map read) := by
  induction sources with
  | nil => exact reads_pure []
  | cons source rest hypothesis =>
      have readsRest := hypothesis fun other member => reads other (List.mem_cons_of_mem _ member)
      rw [List.flatMap_cons]
      exact (reads source List.mem_cons_self).bind (readsRest.bind_pure (read source :: ·))

theorem reads_skip
    (row : Octets) :
    Reads (skip row.length : OctetReader Error Unit) row () :=
  fun _ _ => rfl

/-- An encoding at the start of a row. -/
theorem Reads.run_append
    {reader : OctetReader Error Value} {encoding : Octets} {value : Value}
    (reads : Reads reader encoding value)
    (after : Octets) :
    reader.run (encoding ++ after) = .ok value := by
  have read := reads [] after
  rw [List.nil_append, List.length_nil] at read
  rw [OctetReader.run, read]
  rfl

theorem Reads.run
    {reader : OctetReader Error Value} {encoding : Octets} {value : Value}
    (reads : Reads reader encoding value) :
    reader.run encoding = .ok value := by
  have read := reads.run_append []
  rwa [List.append_nil] at read

end OctetReader
end HttpNative
