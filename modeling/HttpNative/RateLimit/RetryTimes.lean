import HttpNative.RateLimit.Isolation
import HttpNative.RateLimit.WindowRuns

/-!
# When a denied call may be repeated

A denied call is told when the window resets and how many seconds to wait. Both
come from the oldest hit of its bucket alone. The same call is denied until the
reset as long as the bucket is there; after the wait it is allowed if the hits that
are left by then make room for its cost.
-/

namespace HttpNative
namespace RateLimit

namespace CheckCall

/-- The same check at another time. -/
def repeatedAt (call : CheckCall) (time : Nat) : CheckCall :=
  { call with nowMs := time }

/-- The bucket of a check without the hits that have left its window. -/
def pruned (call : CheckCall) (buckets : Buckets) : SlidingWindowState :=
  ((buckets.get call.storageKey).getD .empty).pruneExpired call.nowMs call.policy.windowMs

/-- The cost fits into the limit together with a total. -/
def Fits (call : CheckCall) (total : Nat) : Prop :=
  saturatingAdd32 total call.price ≤ Nat.max call.policy.max 1

instance (call : CheckCall) (total : Nat) : Decidable (call.Fits total) :=
  inferInstanceAs (Decidable (_ ≤ _))

/-- When the client is told to come again. -/
def retryTime (call : CheckCall) (buckets : Buckets) : Nat :=
  call.nowMs + 1000 *
    retryAfterSecs call.nowMs ((call.pruned buckets).resetAtMs call.nowMs call.policy.windowMs)

end CheckCall

/-! ## What a client is told -/

/-- The check is denied at all times before the reset, and allowed at all times from
the end of the wait on. -/
structure TellsClient
    (call : CheckCall)
    (decision : RateLimitDecision)
    (buckets : Buckets) : Prop where
  denied : ∀ time, time < decision.resetAtMs →
    (check (call.repeatedAt time) buckets).1.allowed = false
  allowed : ∀ time, call.nowMs + 1000 * decision.retryAfterSecs ≤ time → time ≤ u64Max →
    (check (call.repeatedAt time) buckets).1.allowed = true

/-- No other hit for the key: other keys are checked, buckets are reset, and the same
check is denied again. -/
def Between (call : CheckCall) (state : LimiterState) : LimiterEvent → Prop
  | .check other =>
      other.storageKey ≠ call.storageKey ∨
        ∃ time, other = call.repeatedAt time ∧ (check other state.buckets).1.allowed = false
  | .reset _ _ => True

/-- The limiter after a check. -/
def LimiterState.afterCheck (state : LimiterState) (call : CheckCall) : LimiterState where
  buckets := (check call state.buckets).2
  now := call.nowMs
  history := ⟨call, (check call state.buckets).1⟩ :: state.history

/-- The bucket is neither evicted nor reset, and what the denied check found in it
makes room for the cost until the end of the wait. -/
def MakesRoom (call : CheckCall) (before later : Buckets) : Prop :=
  (later.get call.storageKey).isSome = true ∧
    (call.retryTime before ≤ u64Max →
      call.Fits
        ((call.pruned before).pruneExpired (call.retryTime before) call.policy.windowMs).total)

/-! ## Pruning -/

namespace SlidingWindowState

/-- Pruning twice prunes up to the later one of the cutoffs. -/
theorem prune_prune
    (cutoff later total : Nat)
    (events : List (Nat × Nat)) :
    prune later (prune cutoff events total).1 (prune cutoff events total).2 =
      prune (max cutoff later) events total := by
  induction events generalizing total with
  | nil => rfl
  | cons event events hypothesis =>
      obtain ⟨ts, count⟩ := event
      by_cases kept : ts > cutoff
      · have first : prune cutoff ((ts, count) :: events) total = ((ts, count) :: events, total) :=
          if_pos kept
        rw [first, prune, prune]
        by_cases keptLater : ts > later
        · rw [if_pos keptLater, if_pos (max_lt kept keptLater)]
        · have order : max cutoff later = later := by omega
          rw [if_neg keptLater, if_neg (by omega), order]
      · have first : prune cutoff ((ts, count) :: events) total =
            prune cutoff events (total - count) := if_neg kept
        have both : prune (max cutoff later) ((ts, count) :: events) total =
            prune (max cutoff later) events (total - count) := if_neg (by omega)
        rw [first, both, hypothesis]

/-- A later cutoff leaves less. -/
theorem prune_snd_antitone
    {cutoff later : Nat}
    (order : cutoff ≤ later)
    (total : Nat)
    (events : List (Nat × Nat)) :
    (prune later events total).2 ≤ (prune cutoff events total).2 := by
  rw [← max_eq_right order, ← prune_prune]
  exact prune_snd_le _ _ _

end SlidingWindowState

/-! ## Hits -/

/-- A hit is allowed when its cost fits with what pruning leaves. -/
theorem hit_allowed
    (policy : Policy)
    (cost nowMs : Nat)
    (bucket : SlidingWindowState) :
    (hit policy cost nowMs bucket).1.allowed =
      decide (saturatingAdd32 (bucket.pruneExpired nowMs policy.windowMs).total (Nat.max cost 1) ≤
        Nat.max policy.max 1) := by
  unfold hit
  by_cases exceeds :
      saturatingAdd32 (bucket.pruneExpired nowMs policy.windowMs).total (Nat.max cost 1) >
        Nat.max policy.max 1
  · rw [decide_eq_false (Nat.not_le_of_lt exceeds)]
    exact congrArg (fun result : RateLimitDecision × Option SlidingWindowState =>
      result.1.allowed) (if_pos exceeds)
  · rw [decide_eq_true (Nat.le_of_not_lt exceeds)]
    exact congrArg (fun result : RateLimitDecision × Option SlidingWindowState =>
      result.1.allowed) (if_neg exceeds)

/-- A denied hit leaves the pruned bucket, and is told the reset of its oldest hit. -/
theorem hit_of_denied
    {policy : Policy} {cost nowMs : Nat} {bucket : SlidingWindowState}
    (denied : (hit policy cost nowMs bucket).1.allowed = false) :
    let pruned := bucket.pruneExpired nowMs policy.windowMs
    (hit policy cost nowMs bucket).1.resetAtMs = pruned.resetAtMs nowMs policy.windowMs ∧
      (hit policy cost nowMs bucket).1.retryAfterSecs =
        retryAfterSecs nowMs (pruned.resetAtMs nowMs policy.windowMs) ∧
      (hit policy cost nowMs bucket).2 = some { pruned with lastSeenMs := nowMs } := by
  rw [hit_allowed, decide_eq_false_iff_not, Nat.not_le] at denied
  have exceeds :
      saturatingAdd32 (bucket.pruneExpired nowMs policy.windowMs).total (Nat.max cost 1) >
        Nat.max policy.max 1 := denied
  have kept : SlidingWindowState.canCollect nowMs policy.windowMs
      { bucket.pruneExpired nowMs policy.windowMs with lastSeenMs := nowMs } = false := by
    simp [SlidingWindowState.canCollect]
  unfold hit
  simp only [if_pos exceeds, kept]
  exact ⟨rfl, rfl, rfl⟩

/-! ## One bucket among the others -/

/-- The bucket of a key is as before, or it is gone. -/
def KeptOrGone (key : Text) (before after : Buckets) : Prop :=
  after.get key = before.get key ∨ after.get key = none

theorem KeptOrGone.trans
    {key : Text} {first second third : Buckets}
    (earlier : KeptOrGone key first second)
    (later : KeptOrGone key second third) :
    KeptOrGone key first third := by
  cases later with
  | inl same =>
      rw [KeptOrGone, same]
      exact earlier
  | inr gone => exact .inr gone

theorem keptOrGone_removeAll
    (keys : List Text)
    (buckets : Buckets)
    (key : Text) :
    KeptOrGone key buckets (removeAll keys buckets) := by
  rw [KeptOrGone, removeAll, Dictionary.get_foldl_erase]
  split
  · exact .inr rfl
  · exact .inl rfl

theorem keptOrGone_maybeEvict
    (nowMs : Nat)
    (buckets : Buckets)
    (key : Text) :
    KeptOrGone key buckets (maybeEvict nowMs buckets) := by
  unfold maybeEvict
  split
  · exact .inl rfl
  · simp only
    split
    · exact keptOrGone_removeAll _ _ key
    · exact (keptOrGone_removeAll _ _ key).trans (keptOrGone_removeAll _ _ key)

theorem keptOrGone_reset
    (namespaceName resetKey : Option Text)
    (buckets : Buckets)
    (key : Text) :
    KeptOrGone key buckets (reset namespaceName resetKey buckets).2 := by
  cases namespaceName with
  | none =>
      cases resetKey with
      | none => exact .inr rfl
      | some resetKey => exact .inl rfl
  | some namespaceName =>
      cases resetKey with
      | none => exact keptOrGone_removeAll _ _ key
      | some resetKey =>
          change KeptOrGone key buckets (buckets.erase (makeStorageKey namespaceName resetKey))
          rw [KeptOrGone, Dictionary.get_erase]
          split
          · exact .inr rfl
          · exact .inl rfl

/-- A check of another key leaves the bucket or evicts it. -/
theorem keptOrGone_check
    {call : CheckCall} {key : Text}
    (other : call.storageKey ≠ key)
    (buckets : Buckets) :
    KeptOrGone key buckets (check call buckets).2 := by
  have kept : KeptOrGone key buckets
      (checkBuckets call.policy call.cost call.nowMs call.storageKey buckets) := by
    rw [KeptOrGone, get_checkBuckets, if_neg other]
    exact .inl rfl
  exact kept.trans (keptOrGone_maybeEvict _ _ _)

/-- A check is allowed when its cost fits with what pruning leaves of its bucket. -/
theorem check_allowed
    (call : CheckCall)
    (buckets : Buckets) :
    (check call buckets).1.allowed = decide (call.Fits (call.pruned buckets).total) :=
  hit_allowed _ _ _ _

/-- A denied check leaves its bucket pruned, or evicts it. -/
theorem get_check_of_denied
    {call : CheckCall} {buckets : Buckets} {bucket : SlidingWindowState}
    (denied : (check call buckets).1.allowed = false)
    (found : (check call buckets).2.get call.storageKey = some bucket) :
    bucket = { call.pruned buckets with lastSeenMs := call.nowMs } := by
  have own : (checkBuckets call.policy call.cost call.nowMs call.storageKey buckets).get
      call.storageKey = some { call.pruned buckets with lastSeenMs := call.nowMs } := by
    rw [get_checkBuckets, if_pos rfl]
    exact (hit_of_denied denied).2.2
  cases keptOrGone_maybeEvict call.nowMs
      (checkBuckets call.policy call.cost call.nowMs call.storageKey buckets) call.storageKey with
  | inl same =>
      rw [own] at same
      exact Option.some.inj (found.symm.trans same)
  | inr gone => cases found.symm.trans gone

/-! ## Until the reset and after the wait -/

/-- What is left of the bucket that a check was denied with: it was pruned further,
and the cost does not fit with it yet. -/
def StillFull (call : CheckCall) (denied : SlidingWindowState) (buckets : Buckets) : Prop :=
  ∀ bucket, buckets.get call.storageKey = some bucket →
    ¬ call.Fits bucket.total ∧
      ∃ cutoff, (bucket.events, bucket.total) =
        SlidingWindowState.prune cutoff denied.events denied.total

section Repetitions

variable {call : CheckCall} {denied : SlidingWindowState} {buckets : Buckets}

theorem Fits.mono
    {total less : Nat}
    (fits : call.Fits total)
    (order : less ≤ total) :
    call.Fits less :=
  Nat.le_trans (min_le_min_right _ (Nat.add_le_add_right order _)) fits

/-- The bucket is pruned up to what was pruned before or what has left the window. -/
theorem StillFull.pruned_eq
    (full : StillFull call denied buckets)
    {bucket : SlidingWindowState}
    (found : buckets.get call.storageKey = some bucket)
    (time : Nat) :
    ∃ cutoff, bucket.total = (SlidingWindowState.prune cutoff denied.events denied.total).2 ∧
      (((call.repeatedAt time).pruned buckets).events,
        ((call.repeatedAt time).pruned buckets).total) =
          SlidingWindowState.prune (max cutoff (time - call.policy.windowMs)) denied.events
            denied.total := by
  obtain ⟨_, cutoff, spelled⟩ := full bucket found
  have events : bucket.events = (SlidingWindowState.prune cutoff denied.events denied.total).1 :=
    congrArg Prod.fst spelled
  have total : bucket.total = (SlidingWindowState.prune cutoff denied.events denied.total).2 :=
    congrArg Prod.snd spelled
  have again : (call.repeatedAt time).pruned buckets =
      bucket.pruneExpired time call.policy.windowMs := by
    change ((buckets.get call.storageKey).getD .empty).pruneExpired time call.policy.windowMs = _
    rw [found, Option.getD_some]
  refine ⟨cutoff, total, ?_⟩
  rw [again, ← SlidingWindowState.prune_prune, ← events, ← total]
  rfl

/-- The same check is allowed when its cost fits with what is left at its time. -/
theorem StillFull.allowed
    (full : StillFull call denied buckets)
    {bucket : SlidingWindowState}
    (found : buckets.get call.storageKey = some bucket)
    (time : Nat) :
    ∃ cutoff, ¬ call.Fits (SlidingWindowState.prune cutoff denied.events denied.total).2 ∧
      (check (call.repeatedAt time) buckets).1.allowed =
        decide (call.Fits
          (SlidingWindowState.prune (max cutoff (time - call.policy.windowMs)) denied.events
            denied.total).2) := by
  obtain ⟨cutoff, total, spelled⟩ := full.pruned_eq found time
  have sum : ((call.repeatedAt time).pruned buckets).total =
      (SlidingWindowState.prune (max cutoff (time - call.policy.windowMs)) denied.events
        denied.total).2 := congrArg Prod.snd spelled
  refine ⟨cutoff, total ▸ (full bucket found).1, ?_⟩
  rw [check_allowed, sum]
  rfl

/-- A check of a key without a bucket is allowed when its cost fits at all. -/
theorem allowed_of_gone
    (fits : call.price ≤ Nat.max call.policy.max 1)
    (gone : buckets.get call.storageKey = none)
    (time : Nat) :
    (check (call.repeatedAt time) buckets).1.allowed = true := by
  have empty : ((call.repeatedAt time).pruned buckets).total = 0 := by
    change (((buckets.get call.storageKey).getD .empty).pruneExpired _ _).total = 0
    rw [gone]
    rfl
  rw [check_allowed, empty, decide_eq_true_eq]
  refine Nat.le_trans (Nat.min_le_left _ _) ?_
  rw [Nat.zero_add]
  exact fits

/-- The bucket is still full after an event in between. -/
theorem stillFull_step
    (fits : call.price ≤ Nat.max call.policy.max 1)
    {state next : LimiterState} {event : LimiterEvent}
    (full : StillFull call denied state.buckets)
    (between : Between call state event)
    (stepped : limiterMachine.step state event = some next) :
    StillFull call denied next.buckets := by
  have ofKept : ∀ {after : Buckets}, KeptOrGone call.storageKey state.buckets after →
      StillFull call denied after := by
    intro after kept bucket found
    cases kept with
    | inl same => exact full bucket (same ▸ found)
    | inr gone => cases gone.symm.trans found
  cases event with
  | reset namespaceName key =>
      cases stepped
      exact ofKept (keptOrGone_reset namespaceName key state.buckets call.storageKey)
  | check other =>
      cases stepped
      cases between with
      | inl different => exact ofKept (keptOrGone_check different state.buckets)
      | inr again =>
          obtain ⟨time, rfl, deniedAgain⟩ := again
          intro bucket found
          have left := get_check_of_denied deniedAgain found
          cases before : state.buckets.get call.storageKey with
          | none =>
              rw [allowed_of_gone fits before] at deniedAgain
              cases deniedAgain
          | some earlier =>
              obtain ⟨cutoff, _, spelled⟩ := full.pruned_eq before time
              rw [check_allowed, decide_eq_false_iff_not] at deniedAgain
              rw [left]
              exact ⟨deniedAgain, _, spelled⟩

/-- The bucket of a denied check is full when the check is done. -/
theorem stillFull_of_denied
    (deniedNow : (check call buckets).1.allowed = false) :
    StillFull call (call.pruned buckets) (check call buckets).2 := by
  intro bucket found
  have left := get_check_of_denied deniedNow found
  rw [check_allowed, decide_eq_false_iff_not] at deniedNow
  rw [left]
  refine ⟨deniedNow, call.nowMs - call.policy.windowMs, ?_⟩
  have again := SlidingWindowState.prune_prune (call.nowMs - call.policy.windowMs)
    (call.nowMs - call.policy.windowMs) ((buckets.get call.storageKey).getD .empty).total
    ((buckets.get call.storageKey).getD .empty).events
  rw [max_self] at again
  exact again.symm

/-- What pruning leaves first is inside the window. -/
theorem head_pruned
    {event : Nat × Nat} {events : List (Nat × Nat)}
    (spelled : (call.pruned buckets).events = event :: events) :
    call.nowMs - call.policy.windowMs < event.1 := by
  have dropped : (call.pruned buckets).events =
      ((buckets.get call.storageKey).getD .empty).events.dropWhile
        (·.1 ≤ call.nowMs - call.policy.windowMs) := prune_fst _ _ _
  have first := List.head?_dropWhile_not (·.1 ≤ call.nowMs - call.policy.windowMs)
    ((buckets.get call.storageKey).getD .empty).events
  rw [← dropped, spelled] at first
  simpa using first

/-- Nothing more of a denied check's bucket leaves the window before the reset. -/
theorem not_fits_before_reset
    {time cutoff : Nat}
    (before : time < (call.pruned buckets).resetAtMs call.nowMs call.policy.windowMs)
    (full : ¬ call.Fits (call.pruned buckets).total)
    (left : ¬ call.Fits
      (SlidingWindowState.prune cutoff (call.pruned buckets).events
        (call.pruned buckets).total).2) :
    ¬ call.Fits
      (SlidingWindowState.prune (max cutoff (time - call.policy.windowMs))
        (call.pruned buckets).events (call.pruned buckets).total).2 := by
  by_cases order : time - call.policy.windowMs ≤ cutoff
  · rw [max_eq_left order]
    exact left
  · rw [max_eq_right (Nat.le_of_not_le order)]
    cases spelled : (call.pruned buckets).events with
    | nil => exact full
    | cons event events =>
        have inside := head_pruned spelled
        rw [SlidingWindowState.resetAtMs, spelled] at before
        have bound : time < event.1 + call.policy.windowMs :=
          Nat.lt_of_lt_of_le before (Nat.min_le_left _ _)
        have kept : event.1 > time - call.policy.windowMs := by omega
        rw [SlidingWindowState.prune, if_pos kept]
        exact full

end Repetitions

theorem resetAtMs_pos
    (call : CheckCall)
    (bucket : SlidingWindowState) :
    0 < bucket.resetAtMs call.nowMs call.policy.windowMs := by
  have positive : 0 < call.policy.windowMs := Nat.lt_of_lt_of_le Nat.one_pos (Nat.le_max_right _ _)
  have bound : 0 < u64Max := by decide
  unfold SlidingWindowState.resetAtMs
  split
  · exact lt_min (Nat.add_pos_right _ positive) bound
  · exact lt_min (Nat.add_pos_right _ positive) bound

/-- After a denied check and any events without another hit for its key, what the
client was told is right exactly if the bucket is still there and makes room in time. -/
theorem tellsClient_iff
    {state later : LimiterState} {call : CheckCall}
    (fits : call.price ≤ Nat.max call.policy.max 1)
    (denied : (check call state.buckets).1.allowed = false)
    (reaches :
      { limiterMachine with start := state.afterCheck call }.ReachesUnder (Between call) later) :
    TellsClient call (check call state.buckets).1 later.buckets ↔
      MakesRoom call state.buckets later.buckets := by
  have full : StillFull call (call.pruned state.buckets) later.buckets :=
    reaches.invariant (stillFull_of_denied denied)
      fun _ _ _ full between stepped => stillFull_step fits full between stepped
  obtain ⟨reset, wait, _⟩ := hit_of_denied denied
  have retry : call.nowMs + 1000 * (check call state.buckets).1.retryAfterSecs =
      call.retryTime state.buckets := congrArg (call.nowMs + 1000 * ·) wait
  constructor
  · intro tells
    cases found : later.buckets.get call.storageKey with
    | none =>
        have early := tells.denied 0 (reset ▸ resetAtMs_pos call _)
        rw [allowed_of_gone fits found] at early
        cases early
    | some bucket =>
        refine ⟨by rw [found]; rfl, fun bounded => ?_⟩
        have allowed := tells.allowed _ (Nat.le_of_eq retry) bounded
        obtain ⟨cutoff, left, again⟩ := full.allowed found (call.retryTime state.buckets)
        rw [again, decide_eq_true_eq] at allowed
        by_cases order : call.retryTime state.buckets - call.policy.windowMs ≤ cutoff
        · rw [max_eq_left order] at allowed
          exact absurd allowed left
        · rw [max_eq_right (Nat.le_of_not_le order)] at allowed
          exact allowed
  · intro room
    obtain ⟨bucket, found⟩ := Option.isSome_iff_exists.mp room.1
    constructor
    · intro time before
      obtain ⟨cutoff, left, again⟩ := full.allowed found time
      rw [again, decide_eq_false_iff_not]
      rw [check_allowed, decide_eq_false_iff_not] at denied
      exact not_fits_before_reset (reset ▸ before) denied left
    · intro time after bounded
      rw [retry] at after
      obtain ⟨cutoff, left, again⟩ := full.allowed found time
      rw [again, decide_eq_true_eq]
      have fitsThen := room.2 (Nat.le_trans after bounded)
      exact Fits.mono fitsThen (SlidingWindowState.prune_snd_antitone
        (Nat.le_trans (Nat.sub_le_sub_right after _) (Nat.le_max_right _ _)) _ _)

/-! ## Two clients -/

/-- A client that may spend three a minute. -/
def spendingCall (cost nowMs : Nat) : CheckCall where
  namespaceName := text "api"
  key := text "client-a"
  policy := { max := 3, windowSecs := 60 }
  cost := cost
  nowMs := nowMs

/-- The limiter after some checks, none of them before. -/
def afterCalls (calls : List CheckCall) : LimiterState :=
  calls.foldl LimiterState.afterCheck limiterMachine.start

/-- Three at once are allowed again when all of them have left the window. -/
theorem tellsClient_iff_atOnce :
    let state := afterCalls [spendingCall 3 1000]
    let call := spendingCall 1 31000
    (check call state.buckets).1.allowed = false ∧
      (check call state.buckets).1.retryAfterSecs = 30 ∧
      TellsClient call (check call state.buckets).1 (state.afterCheck call).buckets := by
  refine ⟨by decide, by decide, ?_⟩
  exact (tellsClient_iff (by decide) (by decide) .start).mpr
    ⟨by decide, fun _ => by decide⟩

/-- One was spent early and two late: three do not fit when the first one has left the
window, although the client is told so. -/
theorem not_tellsClient :
    let state := afterCalls [spendingCall 1 1000, spendingCall 2 31000]
    let call := spendingCall 3 31000
    call.price ≤ call.policy.max ∧
      (check call state.buckets).1.allowed = false ∧
      (check call state.buckets).1.resetAtMs = 61000 ∧
      (check call state.buckets).1.retryAfterSecs = 30 ∧
      (check (call.repeatedAt 61000) (state.afterCheck call).buckets).1.allowed = false ∧
      ¬ TellsClient call (check call state.buckets).1 (state.afterCheck call).buckets := by
  have again : (check ((spendingCall 3 31000).repeatedAt 61000)
      ((afterCalls [spendingCall 1 1000, spendingCall 2 31000]).afterCheck
        (spendingCall 3 31000)).buckets).1.allowed = false := by decide
  refine ⟨by decide, by decide, by decide, by decide, again, ?_⟩
  intro tells
  have promised := tells.allowed 61000 (by decide) (by decide)
  rw [again] at promised
  cases promised

end RateLimit
end HttpNative
