import HttpNative.Library.Machine
import HttpNative.Library.SlidingWindow
import HttpNative.RateLimit.Limiter

/-!
# Runs of the rate limiter

Calls of the limiter in the order of their times. What a key may spend within its
window is never exceeded, wherever the window ends; a call is denied only when it
does not fit; and what remains is what the limit leaves.
-/

namespace HttpNative
namespace RateLimit

open SlidingWindow (Fitting InWindow Increasing Spending spent)

/-! ## Runs -/

/-- A call that was decided. -/
structure CheckRecord where
  call : CheckCall
  decision : RateLimitDecision

structure LimiterState where
  buckets : Buckets
  /-- When the limiter was last called. -/
  now : Nat
  /-- The calls of `check` so far, the last of them first. -/
  history : List CheckRecord

inductive LimiterEvent where
  | check (call : CheckCall)
  | reset (namespaceName key : Option Text)

def limiterMachine : Machine LimiterState LimiterEvent where
  start := { buckets := [], now := 0, history := [] }
  step := fun state event =>
    match event with
    | .check call =>
        some
          { buckets := (RateLimit.check call state.buckets).2
            now := call.nowMs
            history := ⟨call, (RateLimit.check call state.buckets).1⟩ :: state.history }
    | .reset namespaceName key =>
        some { state with buckets := (RateLimit.reset namespaceName key state.buckets).2 }

/-! ## What a caller is promised -/

/-- The cost of a call; none counts as one. -/
def CheckCall.price (call : CheckCall) : Nat :=
  Nat.max call.cost 1

/-- The allowed calls for a key, the last of them first. -/
def spendings (namespaceName key : Text) : List CheckRecord → List Spending
  | [] => []
  | record :: earlier =>
      if record.call.namespaceName = namespaceName ∧ record.call.key = key ∧
          record.decision.allowed = true then
        (record.call.nowMs, record.call.price) :: spendings namespaceName key earlier
      else
        spendings namespaceName key earlier

/-- A denied call does not fit with the allowed calls still in its window; with an
allowed one the remaining cost is what the limit leaves. -/
def Decided : List CheckRecord → Prop
  | [] => True
  | record :: earlier =>
      Decided earlier ∧
        let call := record.call
        let spentIn (history : List CheckRecord) : Nat :=
          spent call.policy.windowMs call.nowMs (spendings call.namespaceName call.key history)
        (record.decision.allowed = false → call.policy.max < call.price + spentIn earlier) ∧
          (record.decision.allowed = true →
            record.decision.remaining + spentIn (record :: earlier) = call.policy.max)

/-- What holds of every key with its policy. -/
structure LimiterState.Exact
    (policies : Text → Text → Policy)
    (state : LimiterState) : Prop where
  limited : ∀ namespaceName key time,
    spent (policies namespaceName key).windowMs time
      (spendings namespaceName key state.history) ≤ (policies namespaceName key).max
  decided : Decided state.history
  total : ∀ storageKey bucket, state.buckets.get storageKey = some bucket →
    bucket.total = (bucket.events.map Prod.snd).sum
  increasing : ∀ storageKey bucket, state.buckets.get storageKey = some bucket →
    Increasing bucket.events

/-- The call comes no earlier than the one before it, under the policy of its key;
separators are nowhere in its namespace and key, and the map does not grow too
large. -/
def Regular (policies : Text → Text → Policy) (state : LimiterState) : LimiterEvent → Prop
  | .check call =>
      call.policy = policies call.namespaceName call.key ∧
        (1 ≤ call.policy.max ∧ call.policy.max < u32Max) ∧
        (namespaceSeparator ∉ call.namespaceName ∧ namespaceSeparator ∉ call.key) ∧
        (0 < call.nowMs ∧ state.now ≤ call.nowMs) ∧
        (checkBuckets call.policy call.cost call.nowMs call.storageKey state.buckets).length ≤
          maxRateLimitEntries
  | .reset _ _ => False

instance (policies : Text → Text → Policy) (state : LimiterState) :
    (event : LimiterEvent) → Decidable (Regular policies state event)
  | .check call =>
      inferInstanceAs (Decidable (
        call.policy = policies call.namespaceName call.key ∧
        (1 ≤ call.policy.max ∧ call.policy.max < u32Max) ∧
        (namespaceSeparator ∉ call.namespaceName ∧ namespaceSeparator ∉ call.key) ∧
        (0 < call.nowMs ∧ state.now ≤ call.nowMs) ∧
        (checkBuckets call.policy call.cost call.nowMs call.storageKey state.buckets).length ≤
          maxRateLimitEntries))
  | .reset _ _ => isFalse fun never => never

/-! ## A bucket and its log -/

/-- What a bucket holds of the allowed calls of its key. -/
structure BucketExact
    (policy : Policy)
    (now : Nat)
    (log : List Spending)
    (bucket : SlidingWindowState) : Prop where
  total : bucket.total = (bucket.events.map Prod.snd).sum
  increasing : Increasing bucket.events
  past : ∀ event ∈ bucket.events, 0 < event.1 ∧ event.1 ≤ now
  within : bucket.total ≤ policy.max
  spent_eq : ∀ time, now ≤ time →
    spent policy.windowMs time bucket.events = spent policy.windowMs time log

section Buckets

variable {policy : Policy} {now nowMs cost : Nat} {log : List Spending}
variable {bucket : SlidingWindowState}

theorem bucketExact_empty
    (policy : Policy)
    (now : Nat) :
    BucketExact policy now [] .empty where
  total := rfl
  increasing := List.Pairwise.nil
  past := fun _ member => absurd member (List.not_mem_nil)
  within := Nat.zero_le _
  spent_eq := fun _ _ => rfl

theorem prune_fst
    (cutoff : Nat)
    (events : List Spending)
    (total : Nat) :
    (SlidingWindowState.prune cutoff events total).1 = events.dropWhile (·.1 ≤ cutoff) := by
  induction events generalizing total with
  | nil => rfl
  | cons event events hypothesis =>
      rw [SlidingWindowState.prune]
      by_cases kept : event.1 > cutoff
      · rw [if_pos kept, List.dropWhile_cons_of_neg (by simpa using kept)]
      · rw [if_neg kept, hypothesis, List.dropWhile_cons_of_pos (by simpa using kept)]

/-- The total follows what is pruned. -/
theorem prune_snd
    {cutoff total : Nat} {events : List Spending}
    (sum : total = (events.map Prod.snd).sum) :
    (SlidingWindowState.prune cutoff events total).2 =
      ((SlidingWindowState.prune cutoff events total).1.map Prod.snd).sum := by
  induction events generalizing total with
  | nil => exact sum
  | cons event events hypothesis =>
      rw [SlidingWindowState.prune]
      by_cases kept : event.1 > cutoff
      · rw [if_pos kept]
        exact sum
      · rw [if_neg kept]
        refine hypothesis ?_
        rw [sum, List.map_cons, List.sum_cons, Nat.add_sub_cancel_left]

theorem prune_snd_le
    (cutoff total : Nat)
    (events : List Spending) :
    (SlidingWindowState.prune cutoff events total).2 ≤ total := by
  induction events generalizing total with
  | nil => exact Nat.le_refl _
  | cons event events hypothesis =>
      rw [SlidingWindowState.prune]
      split
      · exact Nat.le_refl _
      · exact Nat.le_trans (hypothesis _) (Nat.sub_le _ _)

/-- What is pruned at a later time is out of every window from then on. -/
theorem BucketExact.pruneExpired
    (exact : BucketExact policy now log bucket)
    (later : now ≤ nowMs) :
    BucketExact policy nowMs log
      { bucket.pruneExpired nowMs policy.windowMs with lastSeenMs := nowMs } := by
  have kept : (bucket.pruneExpired nowMs policy.windowMs).events =
      bucket.events.filter (nowMs - policy.windowMs < ·.1) := by
    rw [← SlidingWindow.dropWhile_eq_filter exact.increasing]
    exact prune_fst _ _ _
  have total := @prune_snd (nowMs - policy.windowMs) _ _ exact.total
  constructor
  · exact total
  · change Increasing (bucket.pruneExpired nowMs policy.windowMs).events
    rw [kept]
    exact exact.increasing.sublist List.filter_sublist
  · intro event member
    change event ∈ (bucket.pruneExpired nowMs policy.windowMs).events at member
    rw [kept] at member
    obtain ⟨positive, before⟩ := exact.past event (List.mem_of_mem_filter member)
    exact ⟨positive, Nat.le_trans before later⟩
  · exact Nat.le_trans (prune_snd_le _ _ _) exact.within
  · intro time after
    change spent policy.windowMs time (bucket.pruneExpired nowMs policy.windowMs).events = _
    rw [kept, SlidingWindow.spent_filter after fun event member => (exact.past event member).1]
    exact exact.spent_eq time (Nat.le_trans later after)

/-- The total of a pruned bucket is what was spent in the window. -/
theorem BucketExact.total_eq_spent
    (exact : BucketExact policy nowMs log bucket)
    (pruned : ∀ event ∈ bucket.events, nowMs - policy.windowMs < event.1) :
    bucket.total = spent policy.windowMs nowMs log := by
  rw [← exact.spent_eq nowMs (Nat.le_refl _), exact.total, SlidingWindow.spent_eq_sum]
  intro event member
  have kept := pruned event member
  refine ⟨(exact.past event member).2, ?_⟩
  omega

/-- A cost behind all others. -/
theorem BucketExact.append
    (exact : BucketExact policy nowMs log bucket)
    (positive : 0 < nowMs)
    (fits : bucket.total + cost ≤ policy.max)
    (before : ∀ event ∈ bucket.events, event.1 < nowMs) :
    BucketExact policy nowMs ((nowMs, cost) :: log)
      { bucket with events := bucket.events ++ [(nowMs, cost)], total := bucket.total + cost } := by
  constructor
  · simp only [List.map_append, List.sum_append, ← exact.total]
    rfl
  · exact SlidingWindow.increasing_append_singleton exact.increasing before
  · intro event member
    rcases List.mem_append.mp member with earlier | isLast
    · exact exact.past event earlier
    · rw [List.mem_singleton.mp isLast]
      exact ⟨positive, Nat.le_refl _⟩
  · exact fits
  · intro time after
    rw [SlidingWindow.spent_append_singleton, SlidingWindow.spent_cons, exact.spent_eq time after,
      Nat.add_comm]

/-- A cost that is spent at the time of the last one. -/
theorem BucketExact.merge
    (exact : BucketExact policy nowMs log bucket)
    (fits : bucket.total + cost ≤ policy.max)
    {front : List Spending} {count : Nat}
    (spelled : bucket.events = front ++ [(nowMs, count)]) :
    BucketExact policy nowMs ((nowMs, cost) :: log)
      { bucket with
        events := front ++ [(nowMs, count + cost)], total := bucket.total + cost } := by
  have ordered := exact.increasing
  have past := exact.past
  have total := exact.total
  have spentEq := exact.spent_eq
  rw [spelled] at ordered past total spentEq
  have ends := List.pairwise_append.mp ordered
  constructor
  · rw [total]
    simp only [List.map_append, List.sum_append, List.map_singleton, List.sum_singleton]
    exact Nat.add_assoc _ _ _
  · exact SlidingWindow.increasing_append_singleton ends.1
      fun earlier member => ends.2.2 earlier member (nowMs, count) List.mem_cons_self
  · intro event member
    rcases List.mem_append.mp member with inFront | isLast
    · exact past event (List.mem_append_left _ inFront)
    · rw [List.mem_singleton.mp isLast]
      exact past (nowMs, count) (List.mem_append_right _ List.mem_cons_self)
  · exact fits
  · intro time after
    rw [SlidingWindow.spent_cons, ← spentEq time after, SlidingWindow.spent_append_singleton,
      SlidingWindow.spent_append_singleton]
    by_cases inside : InWindow policy.windowMs time (nowMs, cost)
    · have other : InWindow policy.windowMs time (nowMs, count) := inside
      have both : InWindow policy.windowMs time (nowMs, count + cost) := inside
      rw [if_pos inside, if_pos other, if_pos both]
      simp only
      omega
    · have other : ¬ InWindow policy.windowMs time (nowMs, count) := inside
      have both : ¬ InWindow policy.windowMs time (nowMs, count + cost) := inside
      rw [if_neg inside, if_neg other, if_neg both, Nat.zero_add]

/-- A cost that fits is added to the bucket and to the log. -/
theorem BucketExact.pushHit
    (exact : BucketExact policy nowMs log bucket)
    (positive : 0 < nowMs)
    (limit : policy.max ≤ u32Max)
    (fits : bucket.total + cost ≤ policy.max) :
    BucketExact policy nowMs ((nowMs, cost) :: log) (bucket.pushHit nowMs cost) ∧
      (bucket.pushHit nowMs cost).total = bucket.total + cost ∧
      (bucket.pushHit nowMs cost).lastSeenMs = bucket.lastSeenMs := by
  have small : bucket.total + cost ≤ u32Max := Nat.le_trans fits limit
  have total : saturatingAdd32 bucket.total cost = bucket.total + cost := Nat.min_eq_left small
  unfold SlidingWindowState.pushHit
  rw [total]
  cases last : bucket.events.getLast? with
  | none =>
      have empty := List.getLast?_eq_none_iff.mp last
      refine ⟨exact.append positive fits ?_, rfl, rfl⟩
      rw [empty]
      simp
  | some event =>
      obtain ⟨front, spelled⟩ := List.getLast?_eq_some_iff.mp last
      obtain ⟨ts, count⟩ := event
      simp only
      by_cases same : ts = nowMs
      · subst same
        have part : count ≤ bucket.total := by
          rw [exact.total, spelled, List.map_append, List.sum_append]
          exact Nat.le_add_left _ _
        have count' : saturatingAdd32 count cost = count + cost :=
          Nat.min_eq_left (Nat.le_trans (Nat.add_le_add_right part cost) small)
        have others : bucket.events.dropLast = front := by
          rw [spelled, List.dropLast_concat]
        rw [if_pos rfl, count', others]
        exact ⟨exact.merge fits spelled, rfl, rfl⟩
      · rw [if_neg same]
        refine ⟨exact.append positive fits ?_, rfl, rfl⟩
        have lastPast : ts ≤ nowMs := (exact.past (ts, count) (List.mem_of_getLast? last)).2
        have ordered := exact.increasing
        rw [Increasing, spelled, List.pairwise_append] at ordered
        intro earlier member
        rw [spelled] at member
        rcases List.mem_append.mp member with inFront | isLast
        · have before := ordered.2.2 earlier inFront (ts, count) List.mem_cons_self
          exact Nat.lt_of_lt_of_le before lastPast
        · rw [List.mem_singleton.mp isLast]
          exact Nat.lt_of_le_of_ne lastPast same

/-- What a hit does with a bucket and its log. -/
theorem hit_spec
    (exact : BucketExact policy now log bucket)
    (limit : 1 ≤ policy.max ∧ policy.max < u32Max)
    (positive : 0 < nowMs)
    (later : now ≤ nowMs)
    (cost : Nat) :
    ∃ left, (hit policy cost nowMs bucket).2 = some left ∧
      (((hit policy cost nowMs bucket).1.allowed = false ∧
          policy.max < Nat.max cost 1 + spent policy.windowMs nowMs log ∧
          BucketExact policy nowMs log left) ∨
        ((hit policy cost nowMs bucket).1.allowed = true ∧
          (hit policy cost nowMs bucket).1.remaining +
            spent policy.windowMs nowMs ((nowMs, Nat.max cost 1) :: log) = policy.max ∧
          BucketExact policy nowMs ((nowMs, Nat.max cost 1) :: log) left)) := by
  let pruned := { bucket.pruneExpired nowMs policy.windowMs with lastSeenMs := nowMs }
  have prunedExact : BucketExact policy nowMs log pruned := exact.pruneExpired later
  have events : pruned.events = bucket.events.filter (nowMs - policy.windowMs < ·.1) := by
    rw [← SlidingWindow.dropWhile_eq_filter exact.increasing]
    exact prune_fst _ _ _
  have total : pruned.total = spent policy.windowMs nowMs log := by
    refine prunedExact.total_eq_spent fun event member => ?_
    rw [events] at member
    simpa using (List.mem_filter.mp member).2
  have max : Nat.max policy.max 1 = policy.max := Nat.max_eq_left limit.1
  have kept : ∀ state : SlidingWindowState, state.lastSeenMs = nowMs →
      state.canCollect nowMs policy.windowMs = false := by
    intro state seen
    rw [SlidingWindowState.canCollect, seen, Nat.sub_self]
    simp
  by_cases denied : saturatingAdd32 pruned.total (Nat.max cost 1) > policy.max
  · have exceeds : policy.max < Nat.max cost 1 + spent policy.windowMs nowMs log := by
      rw [← total, Nat.add_comm]
      exact Nat.lt_of_lt_of_le denied (Nat.min_le_left _ _)
    have collected := kept pruned rfl
    refine ⟨pruned, ?_, .inl ⟨?_, exceeds, prunedExact⟩⟩
    · rw [hit, max, if_pos denied]
      exact if_neg (by rw [collected]; decide)
    · rw [hit, max, if_pos denied]
  · have fits : pruned.total + Nat.max cost 1 ≤ policy.max := by
      have within := Nat.not_lt.mp denied
      rw [saturatingAdd32] at within
      omega
    obtain ⟨pushedExact, pushedTotal, seen⟩ :=
      prunedExact.pushHit positive (Nat.le_of_lt limit.2) fits
    have collected := kept (pruned.pushHit nowMs (Nat.max cost 1)) seen
    refine ⟨pruned.pushHit nowMs (Nat.max cost 1), ?_, .inr ⟨?_, ?_, pushedExact⟩⟩
    · rw [hit, max, if_neg denied]
      exact if_neg (by rw [collected]; decide)
    · rw [hit, max, if_neg denied]
    · have spentEq : spent policy.windowMs nowMs ((nowMs, Nat.max cost 1) :: log) =
          (pruned.pushHit nowMs (Nat.max cost 1)).total := by
        have window : 1 ≤ policy.windowMs := Nat.le_max_right _ _
        have inside : InWindow policy.windowMs nowMs (nowMs, Nat.max cost 1) :=
          ⟨Nat.le_refl _, Nat.lt_add_of_pos_right window⟩
        rw [SlidingWindow.spent_cons, if_pos inside, ← total, pushedTotal, Nat.add_comm]
      rw [hit, max, if_neg denied, spentEq]
      exact Nat.sub_add_cancel (pushedTotal ▸ fits)

theorem BucketExact.mono
    (exact : BucketExact policy now log bucket)
    (later : now ≤ nowMs) :
    BucketExact policy nowMs log bucket where
  total := exact.total
  increasing := exact.increasing
  past := fun event member =>
    ⟨(exact.past event member).1, Nat.le_trans (exact.past event member).2 later⟩
  within := exact.within
  spent_eq := fun time after => exact.spent_eq time (Nat.le_trans later after)

end Buckets

/-! ## Keys -/

/-- A namespace without the separator and a key are found again in the storage key. -/
theorem cut_makeStorageKey
    {namespaceName : Text}
    (plain : namespaceSeparator ∉ namespaceName)
    (key : Text) :
    Text.cut namespaceSeparator (makeStorageKey namespaceName key) = (namespaceName, some key) :=
  Text.cut_append_cons plain key

theorem makeStorageKey_inj
    {namespaceName other key otherKey : Text}
    (plain : namespaceSeparator ∉ namespaceName)
    (otherPlain : namespaceSeparator ∉ other) :
    makeStorageKey namespaceName key = makeStorageKey other otherKey ↔
      namespaceName = other ∧ key = otherKey := by
  constructor
  · intro same
    have parts := congrArg (Text.cut namespaceSeparator) same
    rw [cut_makeStorageKey plain, cut_makeStorageKey otherPlain] at parts
    exact ⟨congrArg Prod.fst parts, Option.some.inj (congrArg Prod.snd parts)⟩
  · rintro ⟨rfl, rfl⟩
    rfl

/-! ## The invariant -/

def LimiterState.bucket (state : LimiterState) (namespaceName key : Text) : SlidingWindowState :=
  (state.buckets.get (makeStorageKey namespaceName key)).getD .empty

/-- The invariant of a run. -/
structure LimiterState.Kept
    (policies : Text → Text → Policy)
    (state : LimiterState) : Prop where
  buckets : ∀ namespaceName key, namespaceSeparator ∉ namespaceName →
    BucketExact (policies namespaceName key) state.now
      (spendings namespaceName key state.history) (state.bucket namespaceName key)
  keys : ∀ storageKey bucket, state.buckets.get storageKey = some bucket →
    ∃ namespaceName key, namespaceSeparator ∉ namespaceName ∧
      storageKey = makeStorageKey namespaceName key
  past : ∀ namespaceName key, ∀ spending ∈ spendings namespaceName key state.history,
    spending.1 ≤ state.now
  fitting : ∀ namespaceName key,
    Fitting (policies namespaceName key).windowMs (policies namespaceName key).max
      (spendings namespaceName key state.history)
  decided : Decided state.history

section Steps

variable {policies : Text → Text → Policy} {state : LimiterState} {call : CheckCall}

theorem spendings_cons_other
    {namespaceName key : Text} {record : CheckRecord}
    (other : ¬ (record.call.namespaceName = namespaceName ∧ record.call.key = key))
    (history : List CheckRecord) :
    spendings namespaceName key (record :: history) = spendings namespaceName key history := by
  rw [spendings, if_neg]
  rintro ⟨sameName, sameKey, -⟩
  exact other ⟨sameName, sameKey⟩

theorem spendings_cons_own
    (record : CheckRecord)
    (history : List CheckRecord) :
    spendings record.call.namespaceName record.call.key (record :: history) =
      if record.decision.allowed = true then
        (record.call.nowMs, record.call.price) ::
          spendings record.call.namespaceName record.call.key history
      else
        spendings record.call.namespaceName record.call.key history := by
  rw [spendings]
  by_cases allowed : record.decision.allowed = true
  · rw [if_pos ⟨rfl, rfl, allowed⟩, if_pos allowed]
  · rw [if_neg fun given => allowed given.2.2, if_neg allowed]

/-- A regular call hits the bucket of its key and evicts none. -/
theorem check_of_regular
    (kept : state.Kept policies)
    (regular : Regular policies state (.check call)) :
    ∃ left, (check call state.buckets).2 = state.buckets.set call.storageKey left ∧
      let decision := (check call state.buckets).1
      let log := spendings call.namespaceName call.key state.history
      ((decision.allowed = false ∧
          call.policy.max < call.price + spent call.policy.windowMs call.nowMs log ∧
          BucketExact call.policy call.nowMs log left) ∨
        (decision.allowed = true ∧
          decision.remaining +
            spent call.policy.windowMs call.nowMs ((call.nowMs, call.price) :: log) =
              call.policy.max ∧
          BucketExact call.policy call.nowMs ((call.nowMs, call.price) :: log) left)) := by
  obtain ⟨own, limit, ⟨plain, -⟩, ⟨positive, later⟩, small⟩ := regular
  have exact := kept.buckets call.namespaceName call.key plain
  rw [← own] at exact
  obtain ⟨left, hits, decided⟩ := hit_spec exact limit positive later call.cost
  refine ⟨left, ?_, decided⟩
  have set : checkBuckets call.policy call.cost call.nowMs call.storageKey state.buckets =
      state.buckets.set call.storageKey left := by
    have taken : (hit call.policy call.cost call.nowMs
        ((state.buckets.get call.storageKey).getD .empty)).2 = some left := hits
    rw [checkBuckets, taken]
  rw [set] at small
  rw [check, set, maybeEvict, if_pos small]

/-- What a regular call adds to the log of a key. -/
theorem kept_check
    (kept : state.Kept policies)
    (regular : Regular policies state (.check call)) :
    LimiterState.Kept policies
      { buckets := (check call state.buckets).2
        now := call.nowMs
        history := ⟨call, (check call state.buckets).1⟩ :: state.history } := by
  obtain ⟨left, set, decided⟩ := check_of_regular kept regular
  obtain ⟨own, -, ⟨plain, -⟩, ⟨-, later⟩, -⟩ := regular
  let record : CheckRecord := ⟨call, (check call state.buckets).1⟩
  let log := spendings call.namespaceName call.key state.history
  have ownLog := spendings_cons_own record state.history
  have pastLog : ∀ spending ∈ log, spending.1 ≤ call.nowMs :=
    fun spending member => Nat.le_trans (kept.past _ _ spending member) later
  have ownFitting := kept.fitting call.namespaceName call.key
  rw [← own] at ownFitting
  -- what the call comes to for its own key
  have ownKept : BucketExact call.policy call.nowMs
        (spendings call.namespaceName call.key (record :: state.history)) left ∧
      (∀ spending ∈ spendings call.namespaceName call.key (record :: state.history),
        spending.1 ≤ call.nowMs) ∧
      Fitting call.policy.windowMs call.policy.max
        (spendings call.namespaceName call.key (record :: state.history)) := by
    rcases decided with ⟨denied, -, exact⟩ | ⟨allowed, remaining, exact⟩
    · have same : spendings call.namespaceName call.key (record :: state.history) = log := by
        rw [ownLog, if_neg (by rw [denied]; decide)]
      rw [same]
      exact ⟨exact, pastLog, ownFitting⟩
    · have more : spendings call.namespaceName call.key (record :: state.history) =
          (call.nowMs, call.price) :: log := by
        rw [ownLog, if_pos allowed]
      rw [more]
      refine ⟨exact, List.forall_mem_cons.mpr ⟨Nat.le_refl _, pastLog⟩, ownFitting, pastLog, ?_⟩
      exact Nat.le_trans (Nat.le_add_left _ _) (Nat.le_of_eq remaining)
  have otherLog : ∀ namespaceName key,
      ¬ (call.namespaceName = namespaceName ∧ call.key = key) →
        spendings namespaceName key (record :: state.history) =
          spendings namespaceName key state.history :=
    fun namespaceName key other => spendings_cons_other other state.history
  constructor
  · intro namespaceName key otherPlain
    rw [LimiterState.bucket, set]
    by_cases same : call.namespaceName = namespaceName ∧ call.key = key
    · obtain ⟨rfl, rfl⟩ := same
      rw [CheckCall.storageKey, Dictionary.get_set_self, ← own]
      exact ownKept.1
    · have different : call.storageKey ≠ makeStorageKey namespaceName key :=
        fun equal => same ((makeStorageKey_inj plain otherPlain).mp equal)
      rw [Dictionary.get_set_of_ne _ _ different, otherLog namespaceName key same]
      exact (kept.buckets namespaceName key otherPlain).mono later
  · intro storageKey bucket found
    rw [set] at found
    by_cases same : call.storageKey = storageKey
    · exact ⟨call.namespaceName, call.key, plain, same.symm⟩
    · rw [Dictionary.get_set_of_ne _ _ same] at found
      exact kept.keys storageKey bucket found
  · intro namespaceName key
    by_cases same : call.namespaceName = namespaceName ∧ call.key = key
    · obtain ⟨rfl, rfl⟩ := same
      exact ownKept.2.1
    · rw [otherLog namespaceName key same]
      exact fun spending member => Nat.le_trans (kept.past _ _ spending member) later
  · intro namespaceName key
    by_cases same : call.namespaceName = namespaceName ∧ call.key = key
    · obtain ⟨rfl, rfl⟩ := same
      rw [← own]
      exact ownKept.2.2
    · rw [otherLog namespaceName key same]
      exact kept.fitting namespaceName key
  · refine ⟨kept.decided, ?_, ?_⟩
    · intro denied
      rcases decided with ⟨-, exceeds, -⟩ | ⟨allowed, -, -⟩
      · exact exceeds
      · exact absurd (denied.symm.trans allowed) (by decide)
    · intro allowed
      rcases decided with ⟨denied, -, -⟩ | ⟨-, remaining, -⟩
      · exact absurd (denied.symm.trans allowed) (by decide)
      · have more := ownLog
        rw [if_pos allowed] at more
        change record.decision.remaining + spent call.policy.windowMs call.nowMs
          (spendings call.namespaceName call.key (record :: state.history)) = call.policy.max
        rw [more]
        exact remaining

end Steps

theorem kept_of_reaches
    {policies : Text → Text → Policy} {state : LimiterState}
    (reaches : limiterMachine.ReachesUnder (Regular policies) state) :
    state.Kept policies := by
  refine reaches.invariant ?_ ?_
  · constructor
    · exact fun namespaceName key _ => bucketExact_empty _ _
    · intro storageKey bucket found
      cases found
    · exact fun namespaceName key spending member => absurd member List.not_mem_nil
    · exact fun namespaceName key => trivial
    · trivial
  · intro before event next kept regular stepEq
    cases event with
    | check call =>
        cases stepEq
        exact kept_check kept regular
    | reset namespaceName key => exact regular.elim

/-- In every run of regular calls the limits hold in every window, calls are denied
only when they do not fit, and the buckets are exact. -/
theorem exact_of_reaches
    {policies : Text → Text → Policy} {state : LimiterState}
    (reaches : limiterMachine.ReachesUnder (Regular policies) state) :
    state.Exact policies := by
  have kept := kept_of_reaches reaches
  have stored : ∀ storageKey bucket, state.buckets.get storageKey = some bucket →
      ∃ policy log, BucketExact policy state.now log bucket := by
    intro storageKey bucket found
    obtain ⟨namespaceName, key, plain, rfl⟩ := kept.keys storageKey bucket found
    have exact := kept.buckets namespaceName key plain
    rw [LimiterState.bucket, found] at exact
    exact ⟨_, _, exact⟩
  constructor
  · exact fun namespaceName key time =>
      SlidingWindow.spent_le_limit (kept.fitting namespaceName key) time
  · exact kept.decided
  · intro storageKey bucket found
    obtain ⟨policy, log, exact⟩ := stored storageKey bucket found
    exact exact.total
  · intro storageKey bucket found
    obtain ⟨policy, log, exact⟩ := stored storageKey bucket found
    exact exact.increasing

/-- Two calls a minute, and a client that calls three times and once more later. -/
def clientCall (nowMs : Nat) : CheckCall where
  namespaceName := text "api"
  key := text "client-a"
  policy := { max := 2, windowSecs := 60 }
  cost := 0
  nowMs := nowMs

def clientRun : Option LimiterState :=
  limiterMachine.runFrom (Regular fun _ _ => { max := 2, windowSecs := 60 }) limiterMachine.start
    [.check (clientCall 1), .check (clientCall 1), .check (clientCall 60000),
      .check (clientCall 60001)]

theorem exact_of_reaches_client :
    ∃ state, clientRun = some state ∧
      state.history.map (fun record => (record.decision.allowed, record.decision.remaining)) =
        [(true, 1), (false, 0), (true, 0), (true, 1)] ∧
      state.Exact fun _ _ => { max := 2, windowSecs := 60 } := by
  have decisions : clientRun.map (fun state => state.history.map fun record =>
      (record.decision.allowed, record.decision.remaining)) =
        some [(true, 1), (false, 0), (true, 0), (true, 1)] := by
    decide
  obtain ⟨state, runEq, history⟩ := Option.map_eq_some_iff.mp decisions
  exact ⟨state, runEq, history, exact_of_reaches (Machine.reachesUnder_of_run _ runEq)⟩

end RateLimit
end HttpNative
