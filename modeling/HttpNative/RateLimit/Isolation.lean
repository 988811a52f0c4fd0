import HttpNative.Library.Machine
import HttpNative.RateLimit.Limiter
import Mathlib.Data.Set.Basic

/-!
# Buckets of their own

The limiter keeps all buckets under storage keys. A caller sees a bucket for each
pair of a namespace and a key. The two agree when no namespace is another one with a
separator and more behind it, and when the keys of JavaScript's `reset` are trimmed,
as those of its `check` are.
-/

namespace HttpNative
namespace RateLimit

/-! ## Calls -/

inductive LimiterCall where
  | check (call : CheckCall)
  | reset (namespaceName : Text) (key : Option Text)
  | resetAll
  | limiterCheck (namespaceName : Text) (key : Option Text) (policy : Policy) (cost nowMs : Nat)
  | limiterReset (namespaceName : Text) (key : Option Text)

/-- What a check comes to; none when it throws in JavaScript, and for a reset. -/
abbrev CheckResult := Option (Except LimiterError RateLimitDecision)

/-- What a call does with the buckets under their storage keys. -/
def perform (buckets : Buckets) : LimiterCall → CheckResult × Buckets
  | .check call => (some (rateLimitCheck call buckets).1, (rateLimitCheck call buckets).2)
  | .reset namespaceName key => (none, (rateLimitReset (some namespaceName) key buckets).2)
  | .resetAll => (none, (rateLimitReset none none buckets).2)
  | .limiterCheck namespaceName key policy cost nowMs =>
      limiterCheck namespaceName key policy cost nowMs buckets
  | .limiterReset namespaceName key => (none, (limiterReset namespaceName key buckets).2)

/-! ## What a caller is promised -/

/-- A bucket for each namespace and key. -/
abbrev PairStore := Text → Text → Option SlidingWindowState

namespace PairStore

/-- Change the bucket of one pair. -/
def replace
    (store : PairStore)
    (namespaceName key : Text)
    (bucket : Option SlidingWindowState) :
    PairStore :=
  fun other otherKey =>
    if namespaceName = other ∧ key = otherKey then bucket else store other otherKey

/-- A check reads and changes the bucket of its pair. -/
def check
    (call : CheckCall)
    (store : PairStore) :
    Except LimiterError RateLimitDecision × PairStore :=
  match refusal call with
  | some error => (.error error, store)
  | none =>
      let result := hit call.policy (Nat.max call.cost 1) call.nowMs
        ((store call.namespaceName call.key).getD .empty)
      (.ok result.1, store.replace call.namespaceName call.key result.2)

/-- A reset removes the buckets of its namespace, or that of its pair. -/
def reset (namespaceName : Text) (key : Option Text) (store : PairStore) : PairStore :=
  match key with
  | none => fun other otherKey => if namespaceName = other then none else store other otherKey
  | some key => store.replace namespaceName key none

/-- What a call does with the buckets of all pairs: the keys of a limiter are those
of its check. -/
def perform (store : PairStore) : LimiterCall → CheckResult × PairStore
  | .check call => (some (store.check call).1, (store.check call).2)
  | .reset namespaceName key => (none, store.reset namespaceName key)
  | .resetAll => (none, fun _ _ => none)
  | .limiterCheck namespaceName key policy cost nowMs =>
      match limiterKey key with
      | none => (none, store)
      | some key =>
          let result := store.check { namespaceName, key, policy, cost, nowMs }
          (some result.1, result.2)
  | .limiterReset namespaceName none => (none, store.reset namespaceName none)
  | .limiterReset namespaceName (some key) =>
      match limiterKey (some key) with
      | none => (none, store)
      | some key => (none, store.reset namespaceName (some key))

end PairStore

/-- The same calls on both, with what the checks have come to, the last first. -/
structure SharedRun where
  buckets : Buckets
  results : List CheckResult
  store : PairStore
  expected : List CheckResult

def sharedMachine : Machine SharedRun LimiterCall where
  start := { buckets := [], results := [], store := fun _ _ => none, expected := [] }
  step := fun run call =>
    some
      { buckets := (perform run.buckets call).2
        results := (perform run.buckets call).1 :: run.results
        store := (run.store.perform call).2
        expected := (run.store.perform call).1 :: run.expected }

/-- The buckets of all pairs with the namespaces. -/
def SameBuckets (names : Set Text) (buckets : Buckets) (store : PairStore) : Prop :=
  ∀ namespaceName ∈ names, ∀ key,
    buckets.get (makeStorageKey namespaceName key) = store namespaceName key

/-- All checks have come to what they should, and the buckets of all pairs with the
namespaces are what they should be. -/
structure SharedRun.Isolated (names : Set Text) (run : SharedRun) : Prop where
  results : run.results = run.expected
  buckets : SameBuckets names run.buckets run.store

/-! ## The conditions -/

/-- No namespace is another one with the separator and more behind it. -/
def Apart (names : Set Text) : Prop :=
  ∀ namespaceName ∈ names, ∀ rest, makeStorageKey namespaceName rest ∉ names

/-- There is room for the bucket of the check. -/
def HasRoom (buckets : Buckets) (call : CheckCall) : Prop :=
  (checkBuckets call.policy (Nat.max call.cost 1) call.nowMs call.storageKey buckets).length ≤
    maxRateLimitEntries

/-- The call uses one of the namespaces, there is room for its bucket, and the key of
a limiter's reset is trimmed and not empty. -/
def Fits (names : Set Text) (run : SharedRun) : LimiterCall → Prop
  | .check call => call.namespaceName ∈ names ∧ HasRoom run.buckets call
  | .reset namespaceName _ => namespaceName ∈ names
  | .resetAll => True
  | .limiterCheck namespaceName key policy cost nowMs =>
      namespaceName ∈ names ∧ ∀ used ∈ limiterKey key,
        HasRoom run.buckets { namespaceName, key := used, policy, cost, nowMs }
  | .limiterReset namespaceName key => namespaceName ∈ names ∧ ∀ given ∈ key,
      limiterKey key = some given

/-! ## Storage keys -/

section StorageKeys

variable {names : Set Text} {namespaceName other key otherKey : Text}

theorem makeStorageKey_eq_iff
    (apart : Apart names)
    (isName : namespaceName ∈ names)
    (otherIsName : other ∈ names) :
    makeStorageKey namespaceName key = makeStorageKey other otherKey ↔
      namespaceName = other ∧ key = otherKey := by
  constructor
  · intro same
    rcases List.append_eq_append_iff.mp same with
      ⟨rest, longer, behind⟩ | ⟨rest, longer, behind⟩
    · cases rest with
      | nil =>
          rw [List.append_nil] at longer
          exact ⟨longer.symm, (List.cons_eq_cons.mp behind).2⟩
      | cons char rest =>
          have first := (List.cons_eq_cons.mp behind).1
          rw [← first] at longer
          exact absurd otherIsName (longer ▸ apart namespaceName isName rest)
    · cases rest with
      | nil =>
          rw [List.append_nil] at longer
          exact ⟨longer, (List.cons_eq_cons.mp behind).2.symm⟩
      | cons char rest =>
          have first := (List.cons_eq_cons.mp behind).1
          rw [← first] at longer
          exact absurd isName (longer ▸ apart other otherIsName rest)
  · rintro ⟨rfl, rfl⟩
    rfl

/-- The prefix of a namespace is that of its own storage keys. -/
theorem isPrefixOf_makeStorageKey_iff
    (apart : Apart names)
    (isName : namespaceName ∈ names)
    (otherIsName : other ∈ names) :
    (namespaceName ++ [namespaceSeparator]).isPrefixOf (makeStorageKey other key) = true ↔
      namespaceName = other := by
  rw [List.isPrefixOf_iff_prefix]
  constructor
  · rintro ⟨rest, same⟩
    rw [List.append_assoc] at same
    exact ((makeStorageKey_eq_iff apart isName otherIsName).mp same).1
  · rintro rfl
    exact ⟨key, by rw [List.append_assoc]; rfl⟩

end StorageKeys

/-! ## Steps -/

section Steps

variable {names : Set Text} {buckets : Buckets} {store : PairStore}

/-- A check changes the bucket under its storage key. -/
theorem get_checkBuckets
    (policy : Policy)
    (cost nowMs : Nat)
    (storageKey other : Text)
    (buckets : Buckets) :
    (checkBuckets policy cost nowMs storageKey buckets).get other =
      if storageKey = other then
        (hit policy cost nowMs ((buckets.get storageKey).getD .empty)).2
      else
        buckets.get other := by
  unfold checkBuckets
  by_cases same : storageKey = other
  · subst same
    rw [if_pos rfl]
    split
    · rename_i bucket left
      rw [Dictionary.get_set_self, left]
    · rename_i left
      rw [Dictionary.get_erase, if_pos rfl, left]
  · rw [if_neg same]
    split
    · exact Dictionary.get_set_of_ne _ _ same
    · rw [Dictionary.get_erase, if_neg same]

theorem SameBuckets.replace
    (same : SameBuckets names buckets store)
    (apart : Apart names)
    {namespaceName key : Text}
    (isName : namespaceName ∈ names)
    {changed : Buckets} {bucket : Option SlidingWindowState}
    (get : ∀ other, changed.get other =
      if makeStorageKey namespaceName key = other then bucket else buckets.get other) :
    SameBuckets names changed (store.replace namespaceName key bucket) := by
  intro other otherIsName otherKey
  rw [get, PairStore.replace]
  by_cases own : namespaceName = other ∧ key = otherKey
  · rw [if_pos own, if_pos ((makeStorageKey_eq_iff apart isName otherIsName).mpr own)]
  · rw [if_neg own, if_neg fun equal =>
      own ((makeStorageKey_eq_iff apart isName otherIsName).mp equal)]
    exact same other otherIsName otherKey

theorem sameBuckets_check
    (same : SameBuckets names buckets store)
    (apart : Apart names)
    {call : CheckCall}
    (isName : call.namespaceName ∈ names)
    (room : HasRoom buckets call) :
    (rateLimitCheck call buckets).1 = (store.check call).1 ∧
      SameBuckets names (rateLimitCheck call buckets).2 (store.check call).2 := by
  unfold rateLimitCheck PairStore.check
  cases refusal call with
  | some error => exact ⟨rfl, same⟩
  | none =>
      have own : buckets.get call.storageKey = store call.namespaceName call.key :=
        same call.namespaceName isName call.key
      have kept : maybeEvict call.nowMs (checkBuckets call.policy (Nat.max call.cost 1) call.nowMs
          call.storageKey buckets) =
            checkBuckets call.policy (Nat.max call.cost 1) call.nowMs call.storageKey buckets :=
        if_pos room
      refine ⟨?_, ?_⟩
      · rw [← own]
        rfl
      · change SameBuckets names (maybeEvict call.nowMs (checkBuckets call.policy
          (Nat.max call.cost 1) call.nowMs call.storageKey buckets)) _
        rw [kept, ← own]
        exact same.replace apart isName fun other => get_checkBuckets _ _ _ _ other _

/-- A reset removes the buckets of its namespace, or the one of its pair. -/
theorem sameBuckets_reset
    (same : SameBuckets names buckets store)
    (apart : Apart names)
    {namespaceName : Text}
    (isName : namespaceName ∈ names)
    (key : Option Text) :
    SameBuckets names (rateLimitReset (some namespaceName) key buckets).2
      (store.reset namespaceName key) := by
  cases key with
  | some key => exact same.replace apart isName fun other => Dictionary.get_erase _ _ other
  | none =>
      intro other otherIsName otherKey
      have removed := Dictionary.get_foldl_erase ((buckets.filter fun entry =>
        (namespaceName ++ [namespaceSeparator]).isPrefixOf entry.1).map Prod.fst) buckets
        (makeStorageKey other otherKey)
      refine removed.trans ?_
      change _ = if namespaceName = other then none else store other otherKey
      rw [same other otherIsName otherKey]
      have prefixed : (namespaceName ++ [namespaceSeparator]).isPrefixOf
          (makeStorageKey other otherKey) = true ↔ namespaceName = other :=
        isPrefixOf_makeStorageKey_iff apart isName otherIsName
      by_cases own : namespaceName = other
      · rw [if_pos own]
        cases found : store other otherKey with
        | none => exact ite_self none
        | some bucket =>
            rw [if_pos]
            have stored := same other otherIsName otherKey
            rw [found] at stored
            exact List.mem_map_of_mem (List.mem_filter.mpr
              ⟨Dictionary.mem_of_get stored, prefixed.mpr own⟩)
      · rw [if_neg own, if_neg]
        intro member
        obtain ⟨entry, filtered, isKey⟩ := List.mem_map.mp member
        have kept := (List.mem_filter.mp filtered).2
        rw [isKey] at kept
        exact own (prefixed.mp kept)

end Steps

/-- A call that meets the conditions does with the buckets under their storage keys
what it does with those of the pairs. -/
theorem isolated_step
    {names : Set Text} {run next : SharedRun} {call : LimiterCall}
    (apart : Apart names)
    (isolated : run.Isolated names)
    (fits : Fits names run call)
    (stepEq : sharedMachine.step run call = some next) :
    next.Isolated names := by
  obtain ⟨results, same⟩ := isolated
  have performed : (perform run.buckets call).1 = (run.store.perform call).1 ∧
      SameBuckets names (perform run.buckets call).2 (run.store.perform call).2 := by
    cases call with
    | check call =>
        obtain ⟨result, buckets⟩ := sameBuckets_check same apart fits.1 fits.2
        exact ⟨congrArg some result, buckets⟩
    | reset namespaceName key => exact ⟨rfl, sameBuckets_reset same apart fits key⟩
    | resetAll => exact ⟨rfl, fun _ _ _ => rfl⟩
    | limiterCheck namespaceName key policy cost nowMs =>
        simp only [perform, PairStore.perform, limiterCheck]
        cases used : limiterKey key with
        | none => exact ⟨rfl, same⟩
        | some key =>
            let call : CheckCall := { namespaceName, key, policy, cost, nowMs }
            have isName : call.namespaceName ∈ names := fits.1
            obtain ⟨result, buckets⟩ := sameBuckets_check same apart isName (fits.2 key used)
            exact ⟨congrArg some result, buckets⟩
    | limiterReset namespaceName key =>
        cases key with
        | none => exact ⟨rfl, sameBuckets_reset same apart fits.1 none⟩
        | some key =>
            have own := fits.2 key rfl
            simp only [perform, PairStore.perform, own]
            exact ⟨trivial, sameBuckets_reset same apart fits.1 (some key)⟩
  cases stepEq
  exact ⟨by rw [performed.1, results], performed.2⟩

theorem isolated_of_reaches
    {names : Set Text} {run : SharedRun}
    (apart : Apart names)
    (reaches : sharedMachine.ReachesUnder (Fits names) run) :
    run.Isolated names :=
  reaches.invariant ⟨rfl, fun _ _ _ => rfl⟩
    fun _ _ _ isolated fits stepEq => isolated_step apart isolated fits stepEq

/-! ## When calls keep to their buckets -/

/-- One call in a window of a second. -/
def onceCall (namespaceName key : Text) : CheckCall where
  namespaceName := namespaceName
  key := key
  policy := { max := 1, windowSecs := 1 }
  cost := 1
  nowMs := 1

theorem checkBuckets_onceCall
    (namespaceName key : Text) :
    ∃ bucket, checkBuckets { max := 1, windowSecs := 1 } 1 1 (makeStorageKey namespaceName key) [] =
      [(makeStorageKey namespaceName key, bucket)] :=
  ⟨_, rfl⟩

theorem rateLimitCheck_onceCall
    {namespaceName key : Text}
    (nameGiven : Parser.trim namespaceName ≠ [])
    (keyGiven : Parser.trim key ≠ []) :
    ∃ bucket, (rateLimitCheck (onceCall namespaceName key) []).2 =
        [(makeStorageKey namespaceName key, bucket)] := by
  have accepted : refusal (onceCall namespaceName key) = none := by
    simp [refusal, onceCall, nameGiven, keyGiven]
  obtain ⟨bucket, single⟩ := checkBuckets_onceCall namespaceName key
  refine ⟨bucket, ?_⟩
  unfold rateLimitCheck
  rw [accepted]
  change maybeEvict 1 (checkBuckets { max := 1, windowSecs := 1 } 1 1
    (makeStorageKey namespaceName key) []) = _
  rw [single, maybeEvict, if_pos (by simp [maxRateLimitEntries])]

theorem hasRoom_onceCall
    (namespaceName key : Text) :
    HasRoom [] (onceCall namespaceName key) := by
  obtain ⟨bucket, single⟩ := checkBuckets_onceCall namespaceName key
  have same : checkBuckets (onceCall namespaceName key).policy
      (Nat.max (onceCall namespaceName key).cost 1) (onceCall namespaceName key).nowMs
      (onceCall namespaceName key).storageKey [] =
        [(makeStorageKey namespaceName key, bucket)] := single
  rw [HasRoom, same]
  simp [maxRateLimitEntries]

/-- A check leaves the buckets of other pairs alone. -/
theorem PairStore.check_of_ne
    {call : CheckCall} {namespaceName key : Text}
    (other : ¬ (call.namespaceName = namespaceName ∧ call.key = key))
    (store : PairStore) :
    (store.check call).2 namespaceName key = store namespaceName key := by
  unfold PairStore.check
  cases refusal call with
  | some error => rfl
  | none => exact if_neg other

/-- The run of one check. -/
def afterCheck (call : CheckCall) : SharedRun where
  buckets := (rateLimitCheck call []).2
  results := [some (rateLimitCheck call []).1]
  store := (PairStore.check call fun _ _ => none).2
  expected := [some (PairStore.check call fun _ _ => none).1]

theorem afterCheck_reaches
    {names : Set Text} {namespaceName key : Text}
    (isName : namespaceName ∈ names) :
    sharedMachine.ReachesUnder (Fits names) (afterCheck (onceCall namespaceName key)) := by
  have fits : Fits names sharedMachine.start (.check (onceCall namespaceName key)) :=
    ⟨isName, hasRoom_onceCall namespaceName key⟩
  exact .step .start fits rfl

/-- A namespace that is another one with a separator and more shares its buckets. -/
theorem not_isolated_of_extended
    {names : Set Text} {namespaceName rest : Text}
    (isName : namespaceName ∈ names)
    (otherIsName : makeStorageKey namespaceName rest ∈ names)
    (given : Parser.trim (makeStorageKey namespaceName rest) ≠ []) :
    ∃ run, sharedMachine.ReachesUnder (Fits names) run ∧ ¬ run.Isolated names := by
  let call := onceCall (makeStorageKey namespaceName rest) (text "x")
  let shared := rest ++ namespaceSeparator :: text "x"
  refine ⟨afterCheck call, afterCheck_reaches otherIsName, ?_⟩
  rintro ⟨-, same⟩
  have wrong : (rateLimitCheck call []).2.get (makeStorageKey namespaceName shared) =
      (PairStore.check call fun _ _ => none).2 namespaceName shared :=
    same namespaceName isName shared
  obtain ⟨bucket, single⟩ := rateLimitCheck_onceCall given (by decide : Parser.trim (text "x") ≠ [])
  have storageKey : makeStorageKey namespaceName shared =
      makeStorageKey (makeStorageKey namespaceName rest) (text "x") := by
    simp [makeStorageKey, shared]
  have other : ¬ (call.namespaceName = namespaceName ∧ call.key = shared) := by
    rintro ⟨sameName, -⟩
    have length := congrArg List.length sameName
    simp [call, onceCall, makeStorageKey] at length
  rw [single, storageKey, Dictionary.get, if_pos rfl, PairStore.check_of_ne other] at wrong
  cases wrong

theorem limiterKey_eq
    {key : Text}
    (given : Parser.trim (Text.trim key) ≠ []) :
    limiterKey (some key) = some (Text.trim key) := by
  have notBlank : Text.trim key ≠ [] := by
    intro blank
    rw [blank] at given
    exact given rfl
  exact if_neg notBlank

/-- A limiter's reset of a key that is not trimmed misses the bucket of its check. -/
theorem not_isolated_of_untrimmed
    {names : Set Text} {namespaceName key : Text}
    (isName : namespaceName ∈ names)
    (nameGiven : Parser.trim namespaceName ≠ [])
    (keyGiven : Parser.trim (Text.trim key) ≠ [])
    (untrimmed : Text.trim key ≠ key) :
    ∃ run next, sharedMachine.ReachesUnder (Fits names) run ∧
      sharedMachine.step run (.limiterReset namespaceName (some key)) = some next ∧
      ¬ next.Isolated names := by
  let call := onceCall namespaceName (Text.trim key)
  refine ⟨afterCheck call, _, afterCheck_reaches isName, rfl, ?_⟩
  rintro ⟨-, same⟩
  have kept := same namespaceName isName (Text.trim key)
  obtain ⟨bucket, single⟩ := rateLimitCheck_onceCall nameGiven keyGiven
  have different : makeStorageKey namespaceName key ≠
      makeStorageKey namespaceName (Text.trim key) := by
    intro equal
    exact untrimmed (List.cons_eq_cons.mp (List.append_cancel_left equal)).2.symm
  have left : (perform (afterCheck call).buckets (.limiterReset namespaceName (some key))).2.get
      (makeStorageKey namespaceName (Text.trim key)) = some bucket := by
    change Dictionary.get _ (Dictionary.erase (makeStorageKey namespaceName key)
      (rateLimitCheck call []).2) = _
    rw [single, Dictionary.get_erase, if_neg different, Dictionary.get, if_pos rfl]
  have removed : ((afterCheck call).store.perform (.limiterReset namespaceName (some key))).2
      namespaceName (Text.trim key) = none := by
    simp only [PairStore.perform, limiterKey_eq keyGiven]
    exact if_pos ⟨rfl, rfl⟩
  change (perform (afterCheck call).buckets (.limiterReset namespaceName (some key))).2.get _ =
    ((afterCheck call).store.perform (.limiterReset namespaceName (some key))).2 _ _ at kept
  rw [left, removed] at kept
  cases kept

/-- With room for all buckets, calls for the namespaces keep to the buckets of their
pairs in every run exactly when no namespace is another one with the separator and
more; and then the reset of a limiter removes the bucket of its check exactly when
the key is trimmed. -/
theorem isolated_iff
    (names : Set Text)
    (given : ∀ namespaceName ∈ names, Parser.trim namespaceName ≠ []) :
    ((∀ run, sharedMachine.ReachesUnder (Fits names) run → run.Isolated names) ↔ Apart names) ∧
    (Apart names → ∀ namespaceName ∈ names, ∀ key, Parser.trim (Text.trim key) ≠ [] →
      ((∀ run next, sharedMachine.ReachesUnder (Fits names) run →
          sharedMachine.step run (.limiterReset namespaceName (some key)) = some next →
          next.Isolated names) ↔
        Text.trim key = key)) := by
  refine ⟨⟨?_, fun apart run => isolated_of_reaches apart⟩, ?_⟩
  · intro isolated namespaceName isName rest otherIsName
    obtain ⟨run, reaches, shared⟩ :=
      not_isolated_of_extended isName otherIsName (given _ otherIsName)
    exact shared (isolated run reaches)
  · intro apart namespaceName isName key keyGiven
    constructor
    · intro isolated
      by_contra untrimmed
      obtain ⟨run, next, reaches, stepEq, missed⟩ :=
        not_isolated_of_untrimmed isName (given namespaceName isName) keyGiven untrimmed
      exact missed (isolated run next reaches stepEq)
    · intro trimmed run next reaches stepEq
      have used := limiterKey_eq keyGiven
      rw [trimmed] at used
      have fits : Fits names run (.limiterReset namespaceName (some key)) := by
        refine ⟨isName, ?_⟩
        rintro other same
        cases same
        exact used
      exact isolated_step apart (isolated_of_reaches apart reaches) fits stepEq

/-- Two namespaces, one with more letters behind the other; and a key with a blank
behind it. -/
theorem isolated_iff_api :
    (∀ run, sharedMachine.ReachesUnder (Fits {text "api", text "apikeys"}) run →
      run.Isolated {text "api", text "apikeys"}) ∧
    ¬ ∀ run next, sharedMachine.ReachesUnder (Fits {text "api", text "apikeys"}) run →
      sharedMachine.step run (.limiterReset (text "apikeys") (some (text "client "))) =
        some next →
      next.Isolated {text "api", text "apikeys"} := by
  have given : ∀ namespaceName ∈ ({text "api", text "apikeys"} : Set Text),
      Parser.trim namespaceName ≠ [] := by
    rintro namespaceName (rfl | rfl)
    · decide
    · decide
  have apart : Apart {text "api", text "apikeys"} := by
    rintro namespaceName (rfl | rfl) rest (longer | longer)
    · simp [makeStorageKey, text] at longer
    · simp [makeStorageKey, text, namespaceSeparator] at longer
    · simp [makeStorageKey, text] at longer
    · simp [makeStorageKey, text] at longer
  obtain ⟨spread, trimmed⟩ := isolated_iff {text "api", text "apikeys"} given
  refine ⟨spread.mpr apart, ?_⟩
  have keyGiven : Parser.trim (Text.trim (text "client ")) ≠ [] := by decide
  rw [trimmed apart (text "apikeys") (.inr rfl) (text "client ") keyGiven]
  decide

/-- A limiter is reset for a key with a blank behind it, and its next check is
denied. -/
theorem not_isolated :
    ¬ ∀ run, sharedMachine.Reaches run → run.results = run.expected := by
  intro all
  have untrimmed : (sharedMachine.runFrom (fun _ _ => True) sharedMachine.start
      [.limiterCheck (text "api") (some (text "client ")) { max := 1, windowSecs := 60 } 1 1,
        .limiterReset (text "api") (some (text "client ")),
        .limiterCheck (text "api") (some (text "client ")) { max := 1, windowSecs := 60 } 1 2]).map
      (fun run => (run.results.map fun result => result.map fun decision =>
          decision.toOption.map RateLimitDecision.allowed,
        run.expected.map fun result => result.map fun decision =>
          decision.toOption.map RateLimitDecision.allowed)) =
      some ([some (some false), none, some (some true)],
        [some (some true), none, some (some true)]) := by
    decide
  obtain ⟨run, runEq, decisions⟩ := Option.map_eq_some_iff.mp untrimmed
  have same := all run (Machine.reachesUnder_of_run _ runEq)
  rw [same] at decisions
  have first := (congrArg Prod.fst decisions).symm.trans (congrArg Prod.snd decisions)
  exact absurd first (by decide)

end RateLimit
end HttpNative
