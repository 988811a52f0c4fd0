import Mathlib.Data.List.Basic
import Mathlib.Data.List.Induction
import Mathlib.Data.List.Nodup

/-!
# Ordered dictionaries

Association lists that keep one entry for each key, in the order in which the
keys were first written: the own properties of a prototype-free object.
-/

namespace HttpNative

/-- Entries in the order in which their keys were first written. -/
abbrev Dictionary (Key Value : Type) := List (Key × Value)

namespace Dictionary

variable {Key Value : Type} [DecidableEq Key]

/-- The value stored under a key. -/
def get (key : Key) : Dictionary Key Value → Option Value
  | [] => none
  | (stored, value) :: rest => if stored = key then some value else get key rest

/-- Overwrite a key in place, or append it. -/
def set (key : Key) (value : Value) : Dictionary Key Value → Dictionary Key Value
  | [] => [(key, value)]
  | (stored, current) :: rest =>
      if stored = key then
        (key, value) :: rest
      else
        (stored, current) :: set key value rest

@[simp] theorem get_nil (key : Key) :
    get key ([] : Dictionary Key Value) = none := rfl

@[simp] theorem get_set_self
    (dictionary : Dictionary Key Value)
    (key : Key)
    (value : Value) :
    get key (set key value dictionary) = some value := by
  induction dictionary with
  | nil => simp [set, get]
  | cons entry rest hypothesis =>
      unfold set
      split
      · simp [get]
      · rename_i different
        rw [get, if_neg different, hypothesis]

theorem get_set_of_ne
    (dictionary : Dictionary Key Value)
    {key other : Key}
    (value : Value)
    (different : key ≠ other) :
    get other (set key value dictionary) = get other dictionary := by
  induction dictionary with
  | nil => simp [set, get, different]
  | cons entry rest hypothesis =>
      unfold set
      split
      · rename_i same
        rw [get, get, if_neg different, if_neg (by rw [same]; exact different)]
      · rw [get, get, hypothesis]

/-- A lookup after a write. -/
theorem get_set
    (dictionary : Dictionary Key Value)
    (key other : Key)
    (value : Value) :
    get other (set key value dictionary) =
      if key = other then some value else get other dictionary := by
  split
  · rename_i same
    rw [same, get_set_self]
  · rename_i different
    exact get_set_of_ne dictionary value different

/-- Writing items one after the other leaves, under a key, the value of the
last item written there. -/
theorem get_foldl_set
    {Item : Type}
    (keyOf : Item → Key)
    (valueOf : Item → Value)
    (items : List Item)
    (dictionary : Dictionary Key Value)
    (key : Key) :
    get key (items.foldl (fun result item => set (keyOf item) (valueOf item) result) dictionary) =
      (((items.filter fun item => keyOf item = key).getLast?).map valueOf).or
        (get key dictionary) := by
  induction items generalizing dictionary with
  | nil => simp
  | cons item rest hypothesis =>
      rw [List.foldl_cons, hypothesis, get_set, List.filter_cons]
      by_cases same : keyOf item = key
      · rw [if_pos same, if_pos (by simp [same]), List.getLast?_cons]
        cases (rest.filter fun item => keyOf item = key).getLast? <;> simp
      · rw [if_neg same, if_neg (by simp [same])]

/-- Copy one key of a source, where the source has it. -/
def copyKey
    (source result : Dictionary Key Value)
    (key : Key) :
    Dictionary Key Value :=
  match get key source with
  | some value => set key value result
  | none => result

/-- Copying keys of a source leaves, under a copied key, the value of the
source. -/
theorem get_foldl_copyKey
    (source : Dictionary Key Value)
    (selected : List Key)
    (dictionary : Dictionary Key Value)
    (key : Key) :
    get key (selected.foldl (copyKey source) dictionary) =
      if key ∈ selected then
        (get key source).or (get key dictionary)
      else
        get key dictionary := by
  induction selected generalizing dictionary with
  | nil => simp
  | cons candidate rest hypothesis =>
      rw [List.foldl_cons, hypothesis, copyKey]
      by_cases same : candidate = key
      · subst same
        cases stored : get candidate source <;> simp
      · have notHead : key ≠ candidate := fun equal => same equal.symm
        cases stored : get candidate source with
        | none => simp [notHead]
        | some value => simp [notHead, get_set_of_ne dictionary value same]

/-- An entry after a write is the one written or was there before. -/
theorem eq_or_mem_of_mem_set
    {dictionary : Dictionary Key Value} {key : Key} {value : Value} {entry : Key × Value}
    (member : entry ∈ set key value dictionary) :
    entry = (key, value) ∨ entry ∈ dictionary := by
  induction dictionary with
  | nil => exact .inl (List.mem_singleton.mp member)
  | cons first rest hypothesis =>
      unfold set at member
      split at member
      · exact (List.mem_cons.mp member).imp_right (List.mem_cons_of_mem first)
      · rcases List.mem_cons.mp member with isFirst | inRest
        · exact .inr (by simp [isFirst])
        · exact (hypothesis inRest).imp_right (List.mem_cons_of_mem first)

/-- What a lookup finds is an entry. -/
theorem mem_of_get
    {dictionary : Dictionary Key Value} {key : Key} {value : Value}
    (found : get key dictionary = some value) :
    (key, value) ∈ dictionary := by
  induction dictionary with
  | nil => cases found
  | cons entry rest hypothesis =>
      rw [get] at found
      split at found
      · rename_i same
        cases found
        rw [← same]
        exact List.mem_cons_self
      · exact List.mem_cons_of_mem entry (hypothesis found)

/-- Take a key out. -/
def erase (key : Key) (dictionary : Dictionary Key Value) : Dictionary Key Value :=
  dictionary.filter fun entry => entry.1 ≠ key

/-- A lookup after a key was taken out. -/
theorem get_erase
    (dictionary : Dictionary Key Value)
    (key other : Key) :
    get other (erase key dictionary) = if key = other then none else get other dictionary := by
  induction dictionary with
  | nil => simp [erase]
  | cons entry rest hypothesis =>
      rw [erase] at hypothesis ⊢
      rw [List.filter_cons, get]
      by_cases own : entry.1 = key
      · rw [if_neg (by simp [own]), hypothesis]
        by_cases same : key = other
        · rw [if_pos same, if_pos same]
        · rw [if_neg same, if_neg same, if_neg (by rw [own]; exact same)]
      · rw [if_pos (by simp [own]), get, hypothesis]
        by_cases found : entry.1 = other
        · rw [if_pos found, if_neg (by rw [← found]; exact Ne.symm own), if_pos found]
        · rw [if_neg found, if_neg found]

/-! ## Keys occur once -/

/-- No key has two entries. -/
def Distinct (dictionary : Dictionary Key Value) : Prop :=
  (dictionary.map Prod.fst).Nodup

omit [DecidableEq Key] in
theorem distinct_nil : Distinct ([] : Dictionary Key Value) :=
  List.nodup_nil

theorem mem_keys_set
    {dictionary : Dictionary Key Value} {key other : Key} {value : Value} :
    other ∈ (set key value dictionary).map Prod.fst ↔
      other = key ∨ other ∈ dictionary.map Prod.fst := by
  induction dictionary with
  | nil => simp [set]
  | cons entry rest hypothesis =>
      unfold set
      split
      · rename_i same
        simp [← same]
      · rw [List.map_cons, List.mem_cons, hypothesis, List.map_cons, List.mem_cons]
        exact or_left_comm

theorem Distinct.set
    {dictionary : Dictionary Key Value}
    (distinct : Distinct dictionary)
    (key : Key)
    (value : Value) :
    Distinct (set key value dictionary) := by
  induction dictionary with
  | nil => simp [Dictionary.set, Distinct]
  | cons entry rest hypothesis =>
      obtain ⟨absent, distinctRest⟩ := List.nodup_cons.mp distinct
      unfold Dictionary.set
      split
      · rename_i same
        exact List.nodup_cons.mpr ⟨same ▸ absent, distinctRest⟩
      · rename_i different
        refine List.nodup_cons.mpr ⟨?_, hypothesis distinctRest⟩
        rw [mem_keys_set, not_or]
        exact ⟨different, absent⟩

theorem Distinct.foldl_set
    {Item : Type}
    (keyOf : Item → Key)
    (valueOf : Dictionary Key Value → Item → Value)
    (items : List Item)
    {dictionary : Dictionary Key Value}
    (distinct : Distinct dictionary) :
    Distinct (items.foldl
      (fun result item => Dictionary.set (keyOf item) (valueOf result item) result)
      dictionary) := by
  induction items generalizing dictionary with
  | nil => exact distinct
  | cons item rest hypothesis => exact hypothesis (distinct.set _ _)

theorem get_eq_none_of_notMem
    {dictionary : Dictionary Key Value} {key : Key}
    (absent : key ∉ dictionary.map Prod.fst) :
    get key dictionary = none := by
  induction dictionary with
  | nil => rfl
  | cons entry rest hypothesis =>
      rw [List.map_cons, List.mem_cons, not_or] at absent
      rw [get, if_neg (Ne.symm absent.1), hypothesis absent.2]

/-- The entries of a key, when keys occur once. -/
theorem Distinct.filter_key
    {dictionary : Dictionary Key Value}
    (distinct : Distinct dictionary)
    (key : Key) :
    (dictionary.filter fun entry => entry.1 = key) =
      ((get key dictionary).map fun value => (key, value)).toList := by
  induction dictionary with
  | nil => rfl
  | cons entry rest hypothesis =>
      obtain ⟨absent, distinctRest⟩ := List.nodup_cons.mp distinct
      rw [List.filter_cons, get, hypothesis distinctRest]
      by_cases same : entry.1 = key
      · rw [if_pos (by simp [same]), if_pos same, get_eq_none_of_notMem (same ▸ absent)]
        simp [← same]
      · rw [if_neg (by simp [same]), if_neg same]

theorem Distinct.get_of_mem
    {dictionary : Dictionary Key Value}
    (distinct : Distinct dictionary)
    {entry : Key × Value}
    (member : entry ∈ dictionary) :
    get entry.1 dictionary = some entry.2 := by
  have filtered : entry ∈ dictionary.filter fun other => other.1 = entry.1 := by
    simp [member]
  rw [distinct.filter_key, Option.mem_toList, Option.map_eq_some_iff] at filtered
  obtain ⟨value, stored, same⟩ := filtered
  rw [stored, ← same]

/-! ## Dictionaries with the same lookups -/

omit [DecidableEq Key] in
theorem Distinct.filter
    {dictionary : Dictionary Key Value}
    (distinct : Distinct dictionary)
    (keeps : Key × Value → Bool) :
    Distinct (dictionary.filter keeps) :=
  List.Nodup.sublist (List.Sublist.map Prod.fst List.filter_sublist) distinct

theorem Distinct.erase
    {dictionary : Dictionary Key Value}
    (distinct : Distinct dictionary)
    (key : Key) :
    Distinct (erase key dictionary) :=
  distinct.filter _

/-- A lookup in the first of two dictionaries goes on in the second one. -/
theorem get_append
    (dictionary other : Dictionary Key Value)
    (key : Key) :
    get key (dictionary ++ other) = (get key dictionary).or (get key other) := by
  induction dictionary with
  | nil => rfl
  | cons entry rest hypothesis =>
      rw [List.cons_append, get, get, hypothesis]
      split <;> rfl

/-- A lookup among the entries of the keys that are kept. -/
theorem get_filter_keys
    (dictionary : Dictionary Key Value)
    (keeps : Key → Bool)
    (key : Key) :
    get key (dictionary.filter fun entry => keeps entry.1) =
      if keeps key then get key dictionary else none := by
  induction dictionary with
  | nil => simp
  | cons entry rest hypothesis =>
      rw [List.filter_cons, get]
      by_cases same : entry.1 = key
      · rw [if_pos same, same]
        split
        · rw [get, if_pos same]
        · rename_i dropped
          rw [hypothesis, if_neg dropped]
      · rw [if_neg same]
        split
        · rw [get, if_neg same, hypothesis]
        · exact hypothesis

/-- A lookup after some keys were taken out. -/
theorem get_foldl_erase
    (keys : List Key)
    (dictionary : Dictionary Key Value)
    (key : Key) :
    get key (keys.foldl (fun result taken => erase taken result) dictionary) =
      if key ∈ keys then none else get key dictionary := by
  induction keys generalizing dictionary with
  | nil => simp
  | cons taken rest hypothesis =>
      rw [List.foldl_cons, hypothesis, get_erase]
      by_cases inRest : key ∈ rest
      · rw [if_pos inRest, if_pos (List.mem_cons_of_mem taken inRest)]
      · rw [if_neg inRest]
        by_cases same : taken = key
        · rw [if_pos same, if_pos (by simp [same])]
        · rw [if_neg same, if_neg (by simp [Ne.symm same, inRest])]

theorem Distinct.foldl_erase
    (keys : List Key)
    {dictionary : Dictionary Key Value}
    (distinct : Distinct dictionary) :
    Distinct (keys.foldl (fun result taken => Dictionary.erase taken result) dictionary) := by
  induction keys generalizing dictionary with
  | nil => exact distinct
  | cons taken rest hypothesis => exact hypothesis (distinct.erase taken)

/-- Dictionaries with the same lookups have the same entries. -/
theorem Distinct.perm
    {dictionary other : Dictionary Key Value}
    (distinct : Distinct dictionary)
    (otherDistinct : Distinct other)
    (same : ∀ key, get key dictionary = get key other) :
    dictionary.Perm other := by
  rw [List.perm_ext_iff_of_nodup (List.Nodup.of_map _ distinct) (List.Nodup.of_map _ otherDistinct)]
  intro entry
  constructor
  · intro member
    have stored := distinct.get_of_mem member
    rw [same] at stored
    exact mem_of_get stored
  · intro member
    have stored := otherDistinct.get_of_mem member
    rw [← same] at stored
    exact mem_of_get stored

/-! ## Taking several keys out -/

/-- What is left are the entries of the other keys. -/
theorem foldl_erase_eq_filter
    (keys : List Key)
    (dictionary : Dictionary Key Value) :
    keys.foldl (fun result taken => erase taken result) dictionary =
      dictionary.filter fun entry => entry.1 ∉ keys := by
  induction keys generalizing dictionary with
  | nil => simp
  | cons taken rest hypothesis =>
      rw [List.foldl_cons, hypothesis, erase, List.filter_filter]
      refine List.filter_congr fun entry _ => ?_
      simp only [List.mem_cons, not_or, Bool.decide_and, Bool.and_comm]

omit [DecidableEq Key] in
/-- Entries with the same key are the same. -/
theorem Distinct.eq_of_key_eq
    {dictionary : Dictionary Key Value}
    (distinct : Distinct dictionary)
    {entry other : Key × Value}
    (member : entry ∈ dictionary)
    (otherMember : other ∈ dictionary)
    (same : entry.1 = other.1) :
    entry = other :=
  List.inj_on_of_nodup_map distinct member otherMember same

/-- Taking out the keys of a part of the entries leaves the other part. -/
theorem Distinct.foldl_erase_filter
    {dictionary : Dictionary Key Value}
    (distinct : Distinct dictionary)
    (takes : Key × Value → Bool) :
    ((dictionary.filter takes).map Prod.fst).foldl
        (fun result taken => Dictionary.erase taken result)
        dictionary =
      dictionary.filter fun entry => !takes entry := by
  rw [foldl_erase_eq_filter]
  refine List.filter_congr fun entry member => ?_
  have taken : entry.1 ∈ (dictionary.filter takes).map Prod.fst ↔ takes entry = true := by
    constructor
    · intro inKeys
      obtain ⟨other, inPart, same⟩ := List.mem_map.mp inKeys
      obtain ⟨otherMember, isTaken⟩ := List.mem_filter.mp inPart
      exact distinct.eq_of_key_eq otherMember member same ▸ isTaken
    · intro isTaken
      exact List.mem_map_of_mem (List.mem_filter.mpr ⟨member, isTaken⟩)
  by_cases isTaken : takes entry = true
  · rw [decide_eq_false (not_not_intro (taken.mpr isTaken)), isTaken]
    rfl
  · rw [decide_eq_true (mt taken.mp isTaken), eq_false_of_ne_true isTaken]
    rfl

/-- Taking out the keys of the first entries, in some order, leaves the others. -/
theorem Distinct.foldl_erase_take
    {dictionary ordered : Dictionary Key Value}
    (distinct : Distinct dictionary)
    (same : ordered.Perm dictionary)
    (count : Nat) :
    (((ordered.take count).map Prod.fst).foldl
      (fun result taken => Dictionary.erase taken result) dictionary).Perm (ordered.drop count) := by
  rw [foldl_erase_eq_filter]
  refine (same.symm.filter _).trans ?_
  have distinctOrdered : Distinct (ordered.take count ++ ordered.drop count) := by
    rw [List.take_append_drop]
    exact (same.map Prod.fst).nodup_iff.mpr distinct
  rw [Distinct, List.map_append, List.nodup_append] at distinctOrdered
  have parts : (ordered.filter fun entry => entry.1 ∉ (ordered.take count).map Prod.fst) =
      ((ordered.take count).filter fun entry => entry.1 ∉ (ordered.take count).map Prod.fst) ++
        (ordered.drop count).filter fun entry => entry.1 ∉ (ordered.take count).map Prod.fst := by
    rw [← List.filter_append, List.take_append_drop]
  rw [parts, List.filter_eq_nil_iff.mpr, List.nil_append, List.filter_eq_self.mpr]
  · intro entry member
    rw [decide_eq_true_eq]
    intro inKeys
    exact distinctOrdered.2.2 _ inKeys _ (List.mem_map_of_mem member) rfl
  · intro entry member
    simp only [decide_eq_true_eq, not_not]
    exact List.mem_map_of_mem member

/-! ## Keys in the order in which they were first written -/

theorem map_fst_set
    (dictionary : Dictionary Key Value)
    (key : Key)
    (value : Value) :
    (set key value dictionary).map Prod.fst =
      if key ∈ dictionary.map Prod.fst then dictionary.map Prod.fst
      else dictionary.map Prod.fst ++ [key] := by
  induction dictionary with
  | nil => rfl
  | cons entry rest hypothesis =>
      unfold set
      by_cases same : entry.1 = key
      · rw [if_pos same, if_pos (by simp [same]), List.map_cons, List.map_cons, same]
      · rw [if_neg same, List.map_cons, hypothesis, List.map_cons]
        by_cases member : key ∈ rest.map Prod.fst
        · rw [if_pos member, if_pos (List.mem_cons_of_mem _ member)]
        · rw [if_neg member, if_neg (by simp_all [Ne.symm same]), List.cons_append]

/-- Writing items one after the other leaves their keys, each where it first came up. -/
theorem map_fst_foldl_set
    {Item : Type} [BEq Key] [LawfulBEq Key]
    (keyOf : Item → Key)
    (valueOf : Dictionary Key Value → Item → Value)
    (items : List Item) :
    (items.foldl
      (fun result item => Dictionary.set (keyOf item) (valueOf result item) result)
      ([] : Dictionary Key Value)).map Prod.fst = (items.map keyOf).eraseDups := by
  induction items using List.reverseRecOn with
  | nil => rfl
  | append_singleton items item hypothesis =>
      rw [List.foldl_append, List.foldl_cons, List.foldl_nil, map_fst_set, hypothesis,
        List.map_append, List.map_singleton, List.eraseDups_append]
      by_cases member : keyOf item ∈ items.map keyOf
      · rw [if_pos (List.mem_eraseDups.mpr member), List.removeAll, List.filter_eq_nil_iff.mpr, List.eraseDups_nil,
          List.append_nil]
        intro key inLast
        rw [List.mem_singleton.mp inLast]
        simpa using member
      · rw [if_neg (mt List.mem_eraseDups.mp member), List.removeAll, List.filter_eq_self.mpr]
        · rfl
        · intro key inLast
          rw [List.mem_singleton.mp inLast]
          simpa using member

/-- Going through the entries is going through the keys and looking each up. -/
theorem Distinct.filterMap_eq
    {Result : Type}
    {dictionary : Dictionary Key Value}
    (distinct : Distinct dictionary)
    (convert : Key × Value → Option Result) :
    dictionary.filterMap convert =
      (dictionary.map Prod.fst).filterMap fun key =>
        (get key dictionary).bind fun value => convert (key, value) := by
  rw [List.filterMap_map]
  apply List.filterMap_congr
  intro entry member
  rw [Function.comp_apply, distinct.get_of_mem member, Option.bind_some]

end Dictionary
end HttpNative
