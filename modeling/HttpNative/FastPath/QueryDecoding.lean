import HttpNative.FastPath.TemplateHandler
import Mathlib.Algebra.BigOperators.Group.List.Basic
import Mathlib.Algebra.Order.BigOperators.Group.List

/-!
# Two decoders of one query

The bridge decodes a component strictly and falls back to its text; the native
side decodes leniently. They read a component alike when it is well escaped or
has no escape, and a query alike when they read its components alike.
-/

namespace HttpNative
namespace FastPath

open Bridge QueryString

/-- The component is well escaped, or has no escape at all. -/
def DecodesAlike (component : Text) : Prop :=
  (PercentEncoding.decodeStrict (plusToSpace component)).isSome = true ∨
    PercentEncoding.Unescaped (plusToSpace component)

instance (component : Text) : Decidable (DecodesAlike component) :=
  inferInstanceAs (Decidable (_ ∨ _))

theorem decodesAlike_iff
    {component : Text} :
    DecodesAlike component ↔ decodeUriComponentFast component = formDecode component :=
  (PercentEncoding.getD_decodeStrict_eq_decodeLenient_iff (plusToSpace component)).symm

/-- Lenient decoding gives nothing longer, and something shorter where the
decoders differ. -/
theorem length_formDecode_le
    (component : Text) :
    (formDecode component).length ≤ (decodeUriComponentFast component).length := by
  by_cases alike : DecodesAlike component
  · rw [decodesAlike_iff.mp alike]
  · have fails := not_or.mp alike
    rw [decodeUriComponentFast, Option.not_isSome_iff_eq_none.mp fails.1]
    exact PercentEncoding.length_decodeLenient_le _

theorem decodesAlike_of_length
    {component : Text}
    (same : (decodeUriComponentFast component).length ≤ (formDecode component).length) :
    DecodesAlike component := by
  by_contra different
  have fails := not_or.mp different
  rw [decodeUriComponentFast, Option.not_isSome_iff_eq_none.mp fails.1] at same
  exact absurd (PercentEncoding.length_decodeLenient_lt fails.2) (Nat.not_lt.mpr same)

/-- A key without percent signs and replacement characters. -/
def OrdinaryKey (key : Text) : Prop :=
  '%' ∉ key ∧ Utf8.replacement ∉ key

instance (key : Text) : Decidable (OrdinaryKey key) :=
  inferInstanceAs (Decidable (_ ∧ _))

theorem decodesAlike_of_formDecode
    {component : Text}
    (ordinary : OrdinaryKey (formDecode component)) :
    DecodesAlike component :=
  .inl (PercentEncoding.isSome_decodeStrict ordinary.1 ordinary.2)

theorem decodesAlike_of_decodeUriComponentFast
    {component : Text}
    (noPercent : '%' ∉ decodeUriComponentFast component) :
    DecodesAlike component := by
  by_cases decodes : (PercentEncoding.decodeStrict (plusToSpace component)).isSome = true
  · exact .inl decodes
  · rw [decodeUriComponentFast, Option.not_isSome_iff_eq_none.mp decodes,
      Option.getD_none] at noPercent
    rw [PercentEncoding.decodeStrict_of_percent_notMem noPercent] at decodes
    exact absurd rfl decodes

/-- Both decoders give an ordinary key for the same components. -/
theorem decodes_to_ordinary_iff
    {key : Text}
    (ordinary : OrdinaryKey key)
    (component : Text) :
    decodeUriComponentFast component = key ↔ formDecode component = key := by
  constructor
  · rintro rfl
    exact (decodesAlike_iff.mp (decodesAlike_of_decodeUriComponentFast ordinary.1)).symm
  · rintro rfl
    exact decodesAlike_iff.mp (decodesAlike_of_formDecode ordinary)

theorem ordinaryKey_of_dangerous
    {key : Text}
    (dangerous : isDangerousKey key = true) :
    OrdinaryKey key := by
  have all : ∀ key ∈ dangerousKeys, OrdinaryKey key := by decide
  exact all key (by simpa [isDangerousKey] using dangerous)

/-- A pair whose name and value the decoders read alike. -/
def PairDecodesAlike (pair : Text × Option Text) : Prop :=
  DecodesAlike pair.1 ∧ ∀ value ∈ pair.2, DecodesAlike value

instance (pair : Text × Option Text) : Decidable (PairDecodesAlike pair) :=
  inferInstanceAs (Decidable (_ ∧ _))

theorem decodePair_eq_of_alike
    {pair : Text × Option Text}
    (alike : PairDecodesAlike pair) :
    decodePair decodeUriComponentFast pair = decodePair formDecode pair := by
  obtain ⟨name, value⟩ := pair
  obtain ⟨nameAlike, valueAlike⟩ := alike
  cases value with
  | none => rw [decodePair, decodePair, decodesAlike_iff.mp nameAlike]; rfl
  | some value =>
      simp [decodePair, decodesAlike_iff.mp nameAlike, decodesAlike_iff.mp (valueAlike value rfl)]

/-! ## One key -/

/-- The query is read alike under a key: a dangerous key does not occur, and
the pairs either decoder files under another key decode alike. -/
def QueryAgrees (key url : Text) : Prop :=
  if isDangerousKey key then
    hits formDecode key url = []
  else
    ∀ pair ∈ pairs url,
      decodeUriComponentFast pair.1 = key ∨ formDecode pair.1 = key → PairDecodesAlike pair

instance (key url : Text) : Decidable (QueryAgrees key url) := by
  unfold QueryAgrees
  infer_instance

theorem values_eq_of_queryAgrees
    {key url : Text}
    (safe : isDangerousKey key = false)
    (agrees : QueryAgrees key url) :
    values decodeUriComponentFast key url = values formDecode key url := by
  rw [QueryAgrees, if_neg (by simp [safe])] at agrees
  have sameHits : hits decodeUriComponentFast key url = hits formDecode key url := by
    apply List.filter_congr
    intro pair member
    have same : decodeUriComponentFast pair.1 = key ↔ formDecode pair.1 = key := by
      constructor
      · intro named
        rw [← decodesAlike_iff.mp (agrees pair member (.inl named)).1, named]
      · intro named
        rw [decodesAlike_iff.mp (agrees pair member (.inr named)).1, named]
    simp [same]
  unfold values
  rw [sameHits]
  apply List.map_congr_left
  intro pair member
  obtain ⟨inPairs, named⟩ := mem_hits_iff.mp member
  rw [decodePair_eq_of_alike (agrees pair inPairs (.inr named))]

theorem queryAgrees_of_values_eq
    {key url : Text}
    (ordinary : OrdinaryKey key)
    (safe : isDangerousKey key = false)
    (same : values decodeUriComponentFast key url = values formDecode key url) :
    QueryAgrees key url := by
  rw [QueryAgrees, if_neg (by simp [safe])]
  intro pair member named
  have formNamed : formDecode pair.1 = key :=
    named.elim (decodes_to_ordinary_iff ordinary pair.1).mp id
  have sameHits : hits decodeUriComponentFast key url = hits formDecode key url := by
    apply List.filter_congr
    intro pair _
    simp [decodes_to_ordinary_iff ordinary pair.1]
  unfold values at same
  rw [sameHits, List.map_inj_left] at same
  have samePair := same pair (mem_hits_iff.mpr ⟨member, formNamed⟩)
  constructor
  · exact decodesAlike_of_formDecode (formNamed.symm ▸ ordinary)
  · intro value isValue
    rw [Option.mem_def] at isValue
    simp only [decodePair, isValue, Option.map_some, Option.getD_some] at samePair
    exact decodesAlike_iff.mpr samePair

/-! ## The whole query object -/

/-- The query object is read alike: every name decodes alike, and every value
that is kept. -/
def QueryObjectAgrees (url : Text) : Prop :=
  ∀ pair ∈ pairs url, DecodesAlike pair.1 ∧
    (isDangerousKey (formDecode pair.1) = false → ∀ value ∈ pair.2, DecodesAlike value)

instance (url : Text) : Decidable (QueryObjectAgrees url) := by
  unfold QueryObjectAgrees
  infer_instance

theorem values_eq_of_queryObjectAgrees
    {url : Text}
    (agrees : QueryObjectAgrees url)
    {key : Text}
    (safe : isDangerousKey key = false) :
    values decodeUriComponentFast key url = values formDecode key url := by
  apply values_eq_of_queryAgrees safe
  rw [QueryAgrees, if_neg (by simp [safe])]
  intro pair member named
  obtain ⟨nameAlike, valueAlike⟩ := agrees pair member
  refine ⟨nameAlike, valueAlike ?_⟩
  rcases named with named | named
  · rw [← decodesAlike_iff.mp nameAlike, named, safe]
  · rw [named, safe]

/-- Lists of entries with the same values under every key are permutations of
each other. -/
theorem perm_of_values
    {entries others : List (Text × Text)}
    (same : ∀ key, (entries.filter fun entry => entry.1 = key).map Prod.snd =
      (others.filter fun entry => entry.1 = key).map Prod.snd) :
    entries.Perm others := by
  have count : ∀ (list : List (Text × Text)) (entry : Text × Text),
      list.count entry =
        ((list.filter fun other => other.1 = entry.1).map Prod.snd).count entry.2 := by
    intro list entry
    induction list with
    | nil => rfl
    | cons first rest hypothesis =>
        rw [List.count_cons, hypothesis]
        by_cases key : first.1 = entry.1
        · rw [List.filter_cons_of_pos (by simpa using key), List.map_cons, List.count_cons]
          congr 1
          simp only [beq_iff_eq, Prod.ext_iff, key, true_and]
        · have different : first ≠ entry := fun same => key (by rw [same])
          rw [List.filter_cons_of_neg (by simpa using key), if_neg (by simpa using different),
            Nat.add_zero]
  rw [List.perm_iff_count]
  intro entry
  rw [count, count, same]

/-- The entries a decoder keeps in the query object. -/
def keptEntries (decode : Text → Text) (url : Text) : List (Text × Text) :=
  (entries decode url).filter fun entry => !isDangerousKey entry.1

theorem filter_keptEntries
    (decode : Text → Text)
    (url key : Text) :
    ((keptEntries decode url).filter fun entry => entry.1 = key).map Prod.snd =
      if isDangerousKey key then [] else values decode key url := by
  rw [values_eq_filter_entries, keptEntries]
  by_cases dangerous : isDangerousKey key = true
  · rw [if_pos dangerous,
      filter_dropped (fun key => !isDangerousKey key) key (by simp [dangerous])]
    rfl
  · rw [if_neg dangerous,
      filter_kept (fun key => !isDangerousKey key) key (by simp [dangerous])]

def entryLength (entry : Text × Text) : Nat :=
  entry.1.length + entry.2.length

theorem isDangerousKey_decode
    (component : Text) :
    isDangerousKey (decodeUriComponentFast component) =
      isDangerousKey (formDecode component) := by
  rw [Bool.eq_iff_iff]
  constructor
  · intro dangerous
    have ordinary := ordinaryKey_of_dangerous dangerous
    rw [(decodes_to_ordinary_iff ordinary component).mp rfl]
    exact dangerous
  · intro dangerous
    have ordinary := ordinaryKey_of_dangerous dangerous
    rw [(decodes_to_ordinary_iff ordinary component).mpr rfl]
    exact dangerous

/-- A decoded pair gets no longer under lenient decoding. -/
theorem entryLength_le
    (pair : Text × Option Text) :
    entryLength (decodePair formDecode pair) ≤
      entryLength (decodePair decodeUriComponentFast pair) := by
  obtain ⟨name, value⟩ := pair
  have nameBound := length_formDecode_le name
  cases value with
  | none => simpa [entryLength, decodePair] using nameBound
  | some value => exact Nat.add_le_add nameBound (length_formDecode_le value)

theorem pairDecodesAlike_of_entryLength
    {pair : Text × Option Text}
    (same : entryLength (decodePair decodeUriComponentFast pair) ≤
      entryLength (decodePair formDecode pair)) :
    PairDecodesAlike pair := by
  obtain ⟨name, value⟩ := pair
  have nameBound := length_formDecode_le name
  cases value with
  | none =>
      simp only [entryLength, decodePair, Option.map_none, Option.getD_none,
        List.length_nil] at same
      exact ⟨decodesAlike_of_length (by omega), by simp⟩
  | some value =>
      have valueBound := length_formDecode_le value
      simp only [entryLength, decodePair, Option.map_some, Option.getD_some] at same
      have nameAlike : DecodesAlike name := decodesAlike_of_length (by omega)
      refine ⟨nameAlike, ?_⟩
      intro other isValue
      obtain rfl : value = other := by simpa using isValue
      exact decodesAlike_of_length (by omega)

/-- Where nothing gets longer and the sums agree, nothing gets shorter. -/
theorem le_of_sum_eq
    {Item : Type}
    {items : List Item} {small large : Item → Nat}
    (bound : ∀ item ∈ items, small item ≤ large item)
    (same : (items.map large).sum = (items.map small).sum) :
    ∀ item ∈ items, large item ≤ small item := by
  induction items with
  | nil => simp
  | cons first rest hypothesis =>
      have sums : (rest.map small).sum ≤ (rest.map large).sum :=
        List.sum_le_sum fun item member => bound item (List.mem_cons_of_mem _ member)
      have firstBound := bound first List.mem_cons_self
      simp only [List.map_cons, List.sum_cons] at same
      intro item member
      rcases List.mem_cons.mp member with rfl | inRest
      · omega
      · exact hypothesis (fun item member => bound item (List.mem_cons_of_mem _ member))
          (by omega) item inRest

theorem queryObjectAgrees_of_values_eq
    {url : Text}
    (same : ∀ key, isDangerousKey key = false →
      values decodeUriComponentFast key url = values formDecode key url) :
    QueryObjectAgrees url := by
  have permuted : (keptEntries decodeUriComponentFast url).Perm (keptEntries formDecode url) := by
    apply perm_of_values
    intro key
    rw [filter_keptEntries, filter_keptEntries]
    by_cases dangerous : isDangerousKey key = true
    · rw [if_pos dangerous, if_pos dangerous]
    · rw [if_neg dangerous, if_neg dangerous, same key (by simpa using dangerous)]
  have kept : ∀ decode, (∀ pair : Text × Option Text,
      isDangerousKey (decode pair.1) = isDangerousKey (formDecode pair.1)) →
      (keptEntries decode url).map entryLength =
        ((pairs url).filter fun pair => !isDangerousKey (formDecode pair.1)).map
          fun pair => entryLength (decodePair decode pair) := by
    intro decode agrees
    unfold keptEntries entries
    rw [List.filter_map, List.map_map]
    congr 1
    apply List.filter_congr
    intro pair _
    exact congrArg (!·) (agrees pair)
  have lengths := (permuted.map entryLength).sum_eq
  rw [kept decodeUriComponentFast fun pair => isDangerousKey_decode pair.1,
    kept formDecode fun _ => rfl] at lengths
  have alike := le_of_sum_eq (fun pair _ => entryLength_le pair) lengths
  intro pair member
  by_cases dangerous : isDangerousKey (formDecode pair.1) = true
  · exact ⟨decodesAlike_of_formDecode (ordinaryKey_of_dangerous dangerous), by simp [dangerous]⟩
  · have pairAlike := pairDecodesAlike_of_entryLength
      (alike pair (List.mem_filter.mpr ⟨member, by simpa using dangerous⟩))
    exact ⟨pairAlike.1, fun _ => pairAlike.2⟩

end FastPath
end HttpNative
