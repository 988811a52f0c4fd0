import HttpNative.Library.TrailingRuns
import HttpNative.Opt.RuntimeOptimizer

/-!
# Recommendations

The optimizer keeps for a hot route the last response key and how often it came in
succession. Over every run this is enough: a route is recommended exactly when its responses
had the same key so many times in succession.
-/

namespace HttpNative
namespace Opt

/-- The keys of the responses of one route, in order. -/
def responseKeys (handlerId : Nat) (events : List OptimizerEvent) : List Text :=
  events.filterMap fun event =>
    match event with
    | .dispatch dispatched _ snapshot =>
        if dispatched = handlerId then some (buildResponseKey snapshot) else none
    | .tick => none

/-- The dispatches until a route is hot. -/
def Thresholds.warmUp (thresholds : Thresholds) : Nat :=
  (max 1 thresholds.hotHits).toNat

/-- The equal responses in succession until a route is recommended. -/
def Thresholds.stable (thresholds : Thresholds) : Nat :=
  (max 1 thresholds.stableResponses).toNat

theorem Thresholds.stable_pos (thresholds : Thresholds) : 0 < thresholds.stable := by
  unfold stable
  omega

theorem Thresholds.warmUp_le_succ_iff
    (thresholds : Thresholds)
    (hits : Nat) :
    thresholds.warmUp ≤ hits + 1 ↔ thresholds.hotHits ≤ (hits + 1 : Nat) := by
  unfold warmUp
  omega

theorem Thresholds.stable_le_iff
    (thresholds : Thresholds)
    {responses : Nat}
    (some : 0 < responses) :
    thresholds.stable ≤ responses ↔ thresholds.stableResponses ≤ responses := by
  unfold stable
  omega

open TrailingRuns

/-- What an entry has kept of the responses since its route was hot. -/
structure Watches (length : Nat) (responses : List Text) (entry : RouteEntry) : Prop where
  unsettled : entry.settled = false
  noneYet : ¬ HasRun length responses
  last : entry.lastResponseKey = responses.getLast?
  run : ∀ key, responses.getLast? = some key → EndsWithRun entry.stableResponses key responses

/-- What an entry has kept of the responses of its route. -/
inductive Follows (thresholds : Thresholds) (keys : List Text) (entry : RouteEntry) : Prop
  | cold :
      keys.length < thresholds.warmUp →
      entry.stage = .cold → entry.hits = keys.length → entry.recommendation = none →
      entry.settled = false → entry.lastResponseKey = none →
      Follows thresholds keys entry
  | unsuitable :
      thresholds.warmUp ≤ keys.length →
      entry.info.cacheCandidate = false → entry.settled = true → entry.recommendation = none →
      Follows thresholds keys entry
  | watching :
      thresholds.warmUp ≤ keys.length →
      entry.info.cacheCandidate = true → entry.stage = .hot → entry.recommendation = none →
      Watches thresholds.stable (keys.drop thresholds.warmUp) entry →
      Follows thresholds keys entry
  | recommended :
      thresholds.warmUp ≤ keys.length →
      entry.info.cacheCandidate = true → entry.settled = true → entry.recommendation ≠ none →
      HasRun thresholds.stable (keys.drop thresholds.warmUp) →
      Follows thresholds keys entry

theorem follows_create
    (thresholds : Thresholds)
    (info : RouteInfo) :
    Follows thresholds [] (.create info) := by
  refine .cold ?_ rfl rfl rfl rfl rfl
  unfold Thresholds.warmUp
  rw [List.length_nil]
  omega

/-- A response of a hot route that may be cached. -/
theorem Watches.observe
    {length : Nat} {responses : List Text} {entry : RouteEntry}
    (some : 0 < length)
    (watches : Watches length responses entry)
    (key : Text) :
    EndsWithRun (entry.observe key).stableResponses key (responses ++ [key]) ∧
      (HasRun length (responses ++ [key]) ↔ length ≤ (entry.observe key).stableResponses) := by
  have ends : EndsWithRun (entry.observe key).stableResponses key (responses ++ [key]) := by
    unfold RouteEntry.observe
    split
    case isTrue same =>
        exact (watches.run key (watches.last.symm.trans same)).concat_same
    case isFalse other =>
        apply endsWithRun_one
        intro isSuffix
        apply other
        obtain ⟨front, rfl⟩ := isSuffix
        rw [watches.last, List.getLast?_append]
        rfl
  refine ⟨ends, ?_⟩
  rw [hasRun_concat_iff some ends]
  exact or_iff_right watches.noneYet

/-- One more response. -/
theorem Follows.recordDispatch
    {thresholds : Thresholds} {keys : List Text} {entry : RouteEntry}
    (follows : Follows thresholds keys entry)
    (now : Nat)
    (snapshot : ResponseSnapshot) :
    Follows thresholds (keys ++ [buildResponseKey snapshot])
      (entry.recordDispatch thresholds now snapshot) := by
  cases follows with
  | cold early stage hits noneYet unsettled unseen =>
      have counted : entry.recordDispatch thresholds now snapshot =
          entry.countHit.warm thresholds now := by
        rw [RouteEntry.recordDispatch, if_neg (by simp [unsettled]), if_pos stage]
      have length : (keys ++ [buildResponseKey snapshot]).length = keys.length + 1 :=
        List.length_append
      have counts : entry.countHit.hits = keys.length + 1 := congrArg Nat.succ hits
      rw [counted, RouteEntry.warm, counts]
      split
      case isTrue hot =>
          have warmed : thresholds.warmUp = keys.length + 1 :=
            Nat.le_antisymm ((thresholds.warmUp_le_succ_iff keys.length).mpr hot) early
          have rest : (keys ++ [buildResponseKey snapshot]).drop thresholds.warmUp = [] := by
            rw [warmed, ← length, List.drop_length]
          cases fit : entry.info.cacheCandidate with
          | false =>
              refine .unsuitable (by rw [warmed, length]) fit ?_ noneYet
              simp [RouteEntry.countHit, fit]
          | true =>
              refine .watching (by rw [warmed, length]) fit rfl noneYet ?_
              rw [rest]
              exact
                { unsettled := by simp [RouteEntry.countHit, fit, unsettled]
                  noneYet := not_hasRun_nil thresholds.stable_pos
                  last := unseen
                  run := fun key last => by cases last }
      case isFalse cold =>
          refine .cold ?_ stage ?_ noneYet unsettled unseen
          · rw [length]
            apply Nat.lt_of_not_le
            intro warmed
            exact cold ((thresholds.warmUp_le_succ_iff keys.length).mp warmed)
          · rw [length, ← counts]
  | unsuitable warmed unfit settled noneYet =>
      have same : entry.recordDispatch thresholds now snapshot = entry := if_pos settled
      rw [same]
      refine .unsuitable ?_ unfit settled noneYet
      rw [List.length_append]
      exact Nat.le_add_right_of_le warmed
  | watching warmed fit stage noneYet watches =>
      have counted : entry.recordDispatch thresholds now snapshot =
          (entry.countHit.observe (buildResponseKey snapshot)).recommend thresholds now := by
        rw [RouteEntry.recordDispatch, if_neg (by simp [watches.unsettled]),
          if_neg (by rw [stage]; decide), if_neg (by simp [fit])]
      have watchesHit : Watches thresholds.stable (keys.drop thresholds.warmUp) entry.countHit :=
        { watches with }
      have hot : thresholds.warmUp ≤ (keys ++ [buildResponseKey snapshot]).length := by
        rw [List.length_append]
        exact Nat.le_add_right_of_le warmed
      have rest : (keys ++ [buildResponseKey snapshot]).drop thresholds.warmUp =
          keys.drop thresholds.warmUp ++ [buildResponseKey snapshot] :=
        List.drop_append_of_le_length warmed
      obtain ⟨ends, completes⟩ := watchesHit.observe thresholds.stable_pos (buildResponseKey snapshot)
      rw [counted, RouteEntry.recommend]
      split
      case isTrue enough =>
          refine .recommended hot ?_ rfl (Option.some_ne_none _) ?_
          · rw [RouteEntry.info_observe]
            exact fit
          rw [rest, completes]
          exact (thresholds.stable_le_iff (entry.countHit.stableResponses_observe_pos _)).mpr enough.2
      case isFalse short =>
          have unrecommended :
              (entry.countHit.observe (buildResponseKey snapshot)).recommendation = none := by
            rw [RouteEntry.recommendation_observe]
            exact noneYet
          refine .watching hot ?_ ?_ unrecommended ?_
          · rw [RouteEntry.info_observe]
            exact fit
          · rw [RouteEntry.stage_observe]
            exact stage
          rw [rest]
          refine
            { unsettled := ?_
              noneYet := ?_
              last := ?_
              run := ?_ }
          · rw [RouteEntry.settled_observe]
            exact watches.unsettled
          · rw [completes,
              thresholds.stable_le_iff (entry.countHit.stableResponses_observe_pos _)]
            intro enough
            exact short ⟨unrecommended, enough⟩
          · rw [RouteEntry.lastResponseKey_observe, List.getLast?_concat]
          · intro key last
            rw [List.getLast?_concat, Option.some.injEq] at last
            rw [← last]
            exact ends
  | recommended warmed fit settled given has =>
      have same : entry.recordDispatch thresholds now snapshot = entry := if_pos settled
      rw [same]
      refine .recommended ?_ fit settled given ?_
      · rw [List.length_append]
        exact Nat.le_add_right_of_le warmed
      · rw [List.drop_append_of_le_length warmed]
        obtain ⟨key, isInfix⟩ := has
        exact ⟨key, isInfix.trans (List.prefix_append _ _).isInfix⟩

/-! ## Runs -/

theorem responseKeys_append
    (handlerId : Nat)
    (before after : List OptimizerEvent) :
    responseKeys handlerId (before ++ after) =
      responseKeys handlerId before ++ responseKeys handlerId after :=
  List.filterMap_append

/-- Each entry has kept what the responses of its route come to. -/
def FollowsAll (events : List OptimizerEvent) (optimizer : RuntimeOptimizer) : Prop :=
  ∀ entry ∈ optimizer.entries,
    Follows optimizer.thresholds (responseKeys entry.info.handlerId events) entry

theorem Follows.closeInterval
    {thresholds : Thresholds} {keys : List Text} {entry : RouteEntry}
    (follows : Follows thresholds keys entry) :
    Follows thresholds keys entry.closeInterval := by
  unfold RouteEntry.closeInterval
  split
  case isTrue =>
      cases follows with
      | cold early stage hits noneYet unsettled unseen =>
          exact .cold early stage hits noneYet unsettled unseen
      | unsuitable warmed unfit settled noneYet => exact .unsuitable warmed unfit settled noneYet
      | watching warmed fit stage noneYet watches =>
          exact .watching warmed fit stage noneYet { watches with }
      | recommended warmed fit settled given has =>
          exact .recommended warmed fit settled given has
  case isFalse => exact follows

theorem FollowsAll.recordDispatch
    {events : List OptimizerEvent} {optimizer : RuntimeOptimizer}
    (follows : FollowsAll events optimizer)
    (handlerId now : Nat)
    (snapshot : ResponseSnapshot) :
    FollowsAll (events ++ [.dispatch handlerId now snapshot])
      (optimizer.recordDispatch handlerId now snapshot) := by
  intro changed member
  rw [entries_recordDispatch] at member
  obtain ⟨entry, isEntry, rfl⟩ := List.mem_map.mp member
  rw [(sameOptions_recordDispatch _ _ _ _).1, responseKeys_append,
    RouteEntry.info_changeAt fun _ => RouteEntry.info_recordDispatch _ _ _ _]
  have before := follows entry isEntry
  by_cases isRoute : entry.info.handlerId = handlerId
  · have keys : responseKeys entry.info.handlerId [.dispatch handlerId now snapshot] =
        [buildResponseKey snapshot] := by
      rw [isRoute]
      simp [responseKeys]
    rw [keys, RouteEntry.changeAt, if_pos isRoute]
    exact before.recordDispatch now snapshot
  · have keys : responseKeys entry.info.handlerId [.dispatch handlerId now snapshot] = [] := by
      simp [responseKeys, Ne.symm isRoute]
    rw [keys, List.append_nil, RouteEntry.changeAt, if_neg isRoute]
    exact before

theorem FollowsAll.tick
    {events : List OptimizerEvent} {optimizer : RuntimeOptimizer}
    (follows : FollowsAll events optimizer) :
    FollowsAll events optimizer.tick := by
  unfold RuntimeOptimizer.tick
  split
  case isTrue =>
      intro changed member
      obtain ⟨entry, isEntry, rfl⟩ := List.mem_map.mp member
      rw [RouteEntry.info_closeInterval]
      exact (follows entry isEntry).closeInterval
  case isFalse => exact follows

/-- Every event keeps what the entries follow. -/
theorem FollowsAll.handle
    {events : List OptimizerEvent} {optimizer : RuntimeOptimizer}
    (follows : FollowsAll events optimizer)
    (event : OptimizerEvent) :
    FollowsAll (events ++ [event]) (optimizer.handle event) := by
  cases event with
  | dispatch handlerId now snapshot => exact follows.recordDispatch handlerId now snapshot
  | tick =>
      have keys : ∀ handlerId,
          responseKeys handlerId (events ++ [.tick]) = responseKeys handlerId events := by
        intro handlerId
        rw [responseKeys_append]
        exact List.append_nil _
      have same : FollowsAll (events ++ [.tick]) = FollowsAll events := by
        funext other
        simp only [FollowsAll, keys]
      rw [same]
      change FollowsAll events (if optimizer.notifyEnabled then optimizer.tick else optimizer)
      split
      · exact follows.tick
      · exact follows

theorem FollowsAll.foldl_handle
    {before : List OptimizerEvent} {optimizer : RuntimeOptimizer}
    (follows : FollowsAll before optimizer)
    (events : List OptimizerEvent) :
    FollowsAll (before ++ events) (events.foldl RuntimeOptimizer.handle optimizer) := by
  induction events generalizing before optimizer with
  | nil =>
      rw [List.append_nil]
      exact follows
  | cons event events hypothesis =>
      have rest := hypothesis (follows.handle event)
      rw [List.append_assoc] at rest
      exact rest

theorem followsAll_create
    (thresholds : Thresholds)
    (notifyEnabled : Bool)
    (routes : List RouteInfo)
    (distinct : (routes.map RouteInfo.handlerId).Nodup) :
    FollowsAll [] (createRuntimeOptimizer thresholds notifyEnabled routes distinct) := by
  intro entry member
  obtain ⟨info, -, rfl⟩ := List.mem_map.mp member
  exact follows_create thresholds info

theorem Follows.recommendation_iff
    {thresholds : Thresholds} {keys : List Text} {entry : RouteEntry}
    (follows : Follows thresholds keys entry) :
    entry.recommendation ≠ none ↔
      entry.info.cacheCandidate = true ∧
        HasRun thresholds.stable (keys.drop thresholds.warmUp) := by
  cases follows with
  | cold early stage hits noneYet unsettled unseen =>
      refine iff_of_false (not_not_intro noneYet) ?_
      rw [List.drop_eq_nil_of_le (Nat.le_of_lt early)]
      exact fun has => not_hasRun_nil thresholds.stable_pos has.2
  | unsuitable warmed unfit settled noneYet =>
      refine iff_of_false (not_not_intro noneYet) ?_
      rw [unfit]
      exact fun has => Bool.false_ne_true has.1
  | watching warmed fit stage noneYet watches =>
      exact iff_of_false (not_not_intro noneYet) fun has => watches.noneYet has.2
  | recommended warmed fit settled given has => exact iff_of_true given ⟨fit, has⟩

/-- Over every run a route is recommended exactly when it may be cached and, once it was hot,
its responses had the same key so many times in succession. -/
theorem recommended_iff_hasRun
    (thresholds : Thresholds)
    (notifyEnabled : Bool)
    {routes : List RouteInfo}
    (distinct : (routes.map RouteInfo.handlerId).Nodup)
    (events : List OptimizerEvent)
    {entry : RouteEntry}
    (member : entry ∈ (events.foldl RuntimeOptimizer.handle
      (createRuntimeOptimizer thresholds notifyEnabled routes distinct)).entries) :
    entry.recommendation ≠ none ↔
      entry.info.cacheCandidate = true ∧
        HasRun thresholds.stable
          ((responseKeys entry.info.handlerId events).drop thresholds.warmUp) := by
  have follows := (followsAll_create thresholds notifyEnabled routes distinct).foldl_handle events
  have ofEntry := (follows entry member).recommendation_iff
  rw [(sameOptions_foldl_handle _ events).1] at ofEntry
  exact ofEntry

/-- Responses of two routes, of which one is to be cached: the first one is before the
route is hot, the second one differs, and the next two agree. -/
def alternatingEvents : List OptimizerEvent :=
  [.dispatch 1 0 ⟨200, [], []⟩, .dispatch 2 1 ⟨200, [], []⟩, .dispatch 1 2 ⟨404, [], []⟩,
    .dispatch 1 3 ⟨200, [], []⟩, .dispatch 2 4 ⟨200, [], []⟩, .dispatch 1 5 ⟨200, [], []⟩]

theorem recommended_iff_hasRun_alternating :
    ∃ cached uncached, (alternatingEvents.foldl RuntimeOptimizer.handle
        (createRuntimeOptimizer ⟨1, 2⟩ true
          [⟨1, text "GET /", false, true⟩, ⟨2, text "POST /", false, false⟩]
          (by decide))).entries = [cached, uncached] ∧
      cached.recommendation ≠ none ∧ uncached.recommendation = none := by
  have decided := @recommended_iff_hasRun ⟨1, 2⟩ true
    [⟨1, text "GET /", false, true⟩, ⟨2, text "POST /", false, false⟩] (by decide)
    alternatingEvents
  refine ⟨_, _, rfl, ?_, ?_⟩
  · exact (decided (.head _)).mpr ⟨rfl, _, [_], [], rfl⟩
  · by_contra given
    exact Bool.false_ne_true ((decided (.tail _ (.head _))).mp given).1

end Opt
end HttpNative
