import HttpNative.RateLimit.Limiter

/-!
# Evictions from the rate limiter

A map with too many buckets first loses those that were not seen for an hour, and
then those that were seen the longest ago. The age of an hour is the same for all
buckets, however long their windows are. What the eviction promises holds exactly if
no bucket that is older still has a hit in its window.
-/

namespace HttpNative
namespace RateLimit

/-- The bucket was not seen for too long. -/
def isStale (nowMs : Nat) (bucket : SlidingWindowState) : Bool :=
  evictStaleThresholdMs < nowMs - bucket.lastSeenMs

/-- Some hit of the bucket is still in a window. -/
def HoldsHit (windowMs nowMs : Nat) (bucket : SlidingWindowState) : Prop :=
  ∃ event ∈ bucket.events, nowMs - windowMs < event.1

/-- The first pass of `maybe_evict`. -/
def afterFirstPass (nowMs : Nat) (buckets : Buckets) : Buckets :=
  removeAll ((buckets.filter fun entry => isStale nowMs entry.2).map Prod.fst) buckets

/-- The second pass of `maybe_evict`. -/
def afterSecondPass (fresh : Buckets) : Buckets :=
  let entries := fresh.mergeSort fun left right => left.2.lastSeenMs ≤ right.2.lastSeenMs
  removeAll ((entries.take (fresh.length - evictionTarget)).map Prod.fst) fresh

theorem maybeEvict_eq
    (nowMs : Nat)
    (buckets : Buckets) :
    maybeEvict nowMs buckets =
      if buckets.length ≤ maxRateLimitEntries then buckets
      else
        let fresh := afterFirstPass nowMs buckets
        if fresh.length ≤ evictionTarget then fresh else afterSecondPass fresh :=
  rfl

/-! ## What eviction promises -/

/-- Nothing is removed from a map that is not too large. A larger one loses in the
first pass only buckets without a hit in their windows; it is not too large
afterwards, and has come down to the target when more than stale buckets were
evicted, none of which was seen later than one that survives. A hit in its window is
forgotten only when more buckets than the target are not stale. -/
structure EvictsFairly
    (windowMs : Text → Nat)
    (nowMs : Nat)
    (buckets : Buckets) : Prop where
  unchanged : buckets.length ≤ maxRateLimitEntries → maybeEvict nowMs buckets = buckets
  firstPass : maxRateLimitEntries < buckets.length →
    ∀ entry ∈ buckets, entry ∉ afterFirstPass nowMs buckets →
      ¬ HoldsHit (windowMs entry.1) nowMs entry.2
  bounded : (maybeEvict nowMs buckets).length ≤ maxRateLimitEntries
  target : maxRateLimitEntries < buckets.length →
    maybeEvict nowMs buckets ≠ afterFirstPass nowMs buckets →
      (maybeEvict nowMs buckets).length ≤ evictionTarget
  oldest : maxRateLimitEntries < buckets.length →
    ∀ victim ∈ afterFirstPass nowMs buckets, victim ∉ maybeEvict nowMs buckets →
      ∀ survivor ∈ maybeEvict nowMs buckets, victim.2.lastSeenMs ≤ survivor.2.lastSeenMs
  forgotten : ∀ entry ∈ buckets, entry ∉ maybeEvict nowMs buckets →
    HoldsHit (windowMs entry.1) nowMs entry.2 →
      evictionTarget < (buckets.filter fun entry => !isStale nowMs entry.2).length

/-- No bucket that was not seen for an hour has a hit in its own window. -/
def StaleHoldNothing (windowMs : Text → Nat) (nowMs : Nat) (buckets : Buckets) : Prop :=
  ∀ entry ∈ buckets, isStale nowMs entry.2 = true → ¬ HoldsHit (windowMs entry.1) nowMs entry.2

theorem target_le_max : evictionTarget ≤ maxRateLimitEntries := by
  rw [evictionTarget, maxRateLimitEntries]
  omega

section Passes

variable {nowMs : Nat} {buckets : Buckets}

/-- The first pass leaves the buckets that are not stale. -/
theorem afterFirstPass_eq
    (distinct : buckets.Distinct)
    (nowMs : Nat) :
    afterFirstPass nowMs buckets = buckets.filter fun entry => !isStale nowMs entry.2 :=
  distinct.foldl_erase_filter fun entry => isStale nowMs entry.2

/-- The second pass leaves the entries behind the victims, the longest unseen first. -/
theorem afterSecondPass_perm
    (distinct : buckets.Distinct) :
    (afterSecondPass buckets).Perm
      ((buckets.mergeSort fun left right => left.2.lastSeenMs ≤ right.2.lastSeenMs).drop
        (buckets.length - evictionTarget)) :=
  distinct.foldl_erase_take (List.mergeSort_perm _ _) _

theorem length_afterSecondPass
    (distinct : buckets.Distinct)
    (large : evictionTarget < buckets.length) :
    (afterSecondPass buckets).length = evictionTarget := by
  rw [(afterSecondPass_perm distinct).length_eq, List.length_drop, List.length_mergeSort]
  exact Nat.sub_sub_self (Nat.le_of_lt large)

/-- The victims of the second pass were seen no later than what it leaves. -/
theorem lastSeenMs_le_of_afterSecondPass
    (distinct : buckets.Distinct)
    {victim survivor : Text × SlidingWindowState}
    (member : victim ∈ buckets)
    (evicted : victim ∉ afterSecondPass buckets)
    (left : survivor ∈ afterSecondPass buckets) :
    victim.2.lastSeenMs ≤ survivor.2.lastSeenMs := by
  have sorted : (buckets.mergeSort fun left right =>
      left.2.lastSeenMs ≤ right.2.lastSeenMs).Pairwise
        fun left right => left.2.lastSeenMs ≤ right.2.lastSeenMs := by
    refine (List.pairwise_mergeSort ?_ ?_ buckets).imp fun order => of_decide_eq_true order
    · intro first second third before after
      exact decide_eq_true (Nat.le_trans (of_decide_eq_true before) (of_decide_eq_true after))
    · intro first second
      rw [Bool.or_eq_true, decide_eq_true_eq, decide_eq_true_eq]
      exact Nat.le_total _ _
  rw [(afterSecondPass_perm distinct).mem_iff] at evicted left
  rw [← (List.mergeSort_perm buckets _).mem_iff,
    ← List.take_append_drop (buckets.length - evictionTarget) (buckets.mergeSort _),
    List.mem_append] at member
  rw [← List.take_append_drop (buckets.length - evictionTarget) (buckets.mergeSort _),
    List.pairwise_append] at sorted
  exact sorted.2.2 victim (member.resolve_right evicted) survivor left

theorem maybeEvict_of_large
    (large : maxRateLimitEntries < buckets.length) :
    maybeEvict nowMs buckets =
      if (afterFirstPass nowMs buckets).length ≤ evictionTarget then
        afterFirstPass nowMs buckets
      else
        afterSecondPass (afterFirstPass nowMs buckets) := by
  rw [maybeEvict_eq, if_neg (Nat.not_le_of_lt large)]

/-- A map that is too large comes down to the target. -/
theorem length_maybeEvict_of_large
    (distinct : buckets.Distinct)
    (large : maxRateLimitEntries < buckets.length) :
    (maybeEvict nowMs buckets).length ≤ evictionTarget := by
  have freshDistinct : (afterFirstPass nowMs buckets).Distinct := distinct.foldl_erase _
  rw [maybeEvict_of_large large]
  split
  case isTrue few => exact few
  case isFalse many =>
      exact Nat.le_of_eq (length_afterSecondPass freshDistinct (Nat.lt_of_not_le many))

/-- What is evicted though it is not stale is evicted by the second pass. -/
theorem many_of_evicted
    {entry : Text × SlidingWindowState}
    (large : maxRateLimitEntries < buckets.length)
    (fresh : entry ∈ afterFirstPass nowMs buckets)
    (evicted : entry ∉ maybeEvict nowMs buckets) :
    evictionTarget < (afterFirstPass nowMs buckets).length ∧
      maybeEvict nowMs buckets = afterSecondPass (afterFirstPass nowMs buckets) := by
  rw [maybeEvict_of_large large] at evicted ⊢
  by_cases few : (afterFirstPass nowMs buckets).length ≤ evictionTarget
  · rw [if_pos few] at evicted
    exact absurd fresh evicted
  · exact ⟨Nat.lt_of_not_le few, if_neg few⟩

theorem evictsFairly_of_small
    (small : buckets.length ≤ maxRateLimitEntries)
    (windowMs : Text → Nat)
    (nowMs : Nat) :
    EvictsFairly windowMs nowMs buckets := by
  have same : maybeEvict nowMs buckets = buckets := if_pos small
  have notLarge : ¬ maxRateLimitEntries < buckets.length := Nat.not_lt_of_le small
  constructor
  · exact fun _ => same
  · exact fun large => absurd large notLarge
  · rw [same]
    exact small
  · exact fun large => absurd large notLarge
  · exact fun large => absurd large notLarge
  · intro entry member evicted
    rw [same] at evicted
    exact absurd member evicted

theorem evictsFairly_of_staleHoldNothing
    (distinct : buckets.Distinct)
    (large : maxRateLimitEntries < buckets.length)
    {windowMs : Text → Nat}
    (holdNothing : StaleHoldNothing windowMs nowMs buckets) :
    EvictsFairly windowMs nowMs buckets := by
  have staleOnly : ∀ entry ∈ buckets, entry ∉ afterFirstPass nowMs buckets →
      ¬ HoldsHit (windowMs entry.1) nowMs entry.2 := by
    intro entry member evicted
    rw [afterFirstPass_eq distinct, List.mem_filter, not_and] at evicted
    exact holdNothing entry member (by simpa using evicted member)
  constructor
  · intro small
    exact absurd large (Nat.not_lt_of_le small)
  · intro _
    exact staleOnly
  · exact Nat.le_trans (length_maybeEvict_of_large distinct large) target_le_max
  · intro _ _
    exact length_maybeEvict_of_large distinct large
  · intro _ victim fresh evicted survivor left
    have second : maybeEvict nowMs buckets = afterSecondPass (afterFirstPass nowMs buckets) :=
      (many_of_evicted large fresh evicted).2
    rw [second] at evicted left
    exact lastSeenMs_le_of_afterSecondPass (distinct.foldl_erase _) fresh evicted left
  · intro entry member evicted holds
    by_cases fresh : entry ∈ afterFirstPass nowMs buckets
    · rw [← afterFirstPass_eq distinct]
      exact (many_of_evicted large fresh evicted).1
    · exact absurd holds (staleOnly entry member fresh)

end Passes

/-- Eviction keeps its promises exactly if the map is not too large or no stale bucket
has a hit in its own window. -/
theorem evictsFairly_iff
    {buckets : Buckets}
    (distinct : buckets.Distinct)
    (windowMs : Text → Nat)
    (nowMs : Nat) :
    EvictsFairly windowMs nowMs buckets ↔
      buckets.length ≤ maxRateLimitEntries ∨ StaleHoldNothing windowMs nowMs buckets := by
  constructor
  · intro fair
    refine (Nat.lt_or_ge maxRateLimitEntries buckets.length).symm.imp id fun large => ?_
    intro entry member stale
    refine fair.firstPass large entry member ?_
    rw [afterFirstPass_eq distinct, List.mem_filter, stale]
    exact fun left => absurd left.2 Bool.false_ne_true
  · intro condition
    by_cases small : buckets.length ≤ maxRateLimitEntries
    · exact evictsFairly_of_small small windowMs nowMs
    · exact evictsFairly_of_staleHoldNothing distinct (Nat.lt_of_not_le small)
        (condition.resolve_left small)

/-! ## A daily quota -/

/-- A bucket with one hit. -/
def seenAt (time : Nat) : SlidingWindowState where
  events := [(time, 1)]
  total := 1
  lastSeenMs := time

/-- A client with a hit at 1000, and as many others as the map may hold that were seen
a little more than an hour later. -/
def crowdedMap : Buckets :=
  ([], seenAt 1000) ::
    (List.range maxRateLimitEntries).map fun index =>
      (List.replicate (index + 1) 'x', seenAt 3601001)

theorem crowdedMap_distinct : crowdedMap.Distinct := by
  refine List.nodup_cons.mpr ⟨?_, ?_⟩
  · intro member
    obtain ⟨entry, inMap, empty⟩ := List.mem_map.mp member
    obtain ⟨index, _, rfl⟩ := List.mem_map.mp inMap
    cases empty
  · rw [List.map_map]
    refine List.nodup_range.map fun index other same => ?_
    have lengths := congrArg List.length same
    simpa using lengths

/-- With windows of an hour the client is evicted after its hit has left the window. -/
theorem evictsFairly_iff_hourly :
    crowdedMap.Distinct ∧ EvictsFairly (fun _ => 3600000) 3601001 crowdedMap := by
  refine ⟨crowdedMap_distinct, (evictsFairly_iff crowdedMap_distinct _ _).mpr (.inr ?_)⟩
  refine List.forall_mem_cons.mpr ⟨fun _ => ?_, ?_⟩
  · rintro ⟨event, member, inside⟩
    rw [List.mem_singleton.mp member] at inside
    exact absurd inside (by decide)
  · intro entry inMap stale
    obtain ⟨index, _, rfl⟩ := List.mem_map.mp inMap
    cases stale

/-- With windows of a day the hit of the client is forgotten, although it is the only
stale bucket and its window has most of the day to go. -/
theorem not_evictsFairly :
    crowdedMap.Distinct ∧ ¬ EvictsFairly (fun _ => 86400000) 3601001 crowdedMap := by
  refine ⟨crowdedMap_distinct, fun fair => ?_⟩
  have large : maxRateLimitEntries < crowdedMap.length := by
    rw [crowdedMap, List.length_cons, List.length_map, List.length_range]
    exact Nat.lt_succ_self _
  have gone : ([], seenAt 1000) ∉ afterFirstPass 3601001 crowdedMap := by
    rw [afterFirstPass_eq crowdedMap_distinct, List.mem_filter]
    exact fun left => Bool.false_ne_true left.2
  exact fair.firstPass large _ List.mem_cons_self gone
    ⟨(1000, 1), List.mem_cons_self, by decide⟩

end RateLimit
end HttpNative
