import HttpNative.Opt.RuntimeOptimizer
import Mathlib.Algebra.GroupWithZero.Nat

/-!
# Printed hits

The hits of a route that the notifier prints interval by interval add up to all its hits.
-/

namespace HttpNative
namespace Opt

/-- The hits of a route that a line prints. -/
def LogLine.hitsOf (handlerId : Nat) : LogLine → Nat
  | .live printed _ _ intervalHits => if printed = handlerId then intervalHits else 0
  | .info _ => 0
  | .noHits => 0

def printedHits (handlerId : Nat) (log : List LogLine) : Nat :=
  (log.map (LogLine.hitsOf handlerId)).sum

theorem printedHits_append
    (handlerId : Nat)
    (before after : List LogLine) :
    printedHits handlerId (before ++ after) =
      printedHits handlerId before + printedHits handlerId after := by
  rw [printedHits, List.map_append, List.sum_append]
  rfl

/-- A row of entries without a route prints nothing of it. -/
theorem printedHits_eq_zero
    {entries : List RouteEntry} {handlerId : Nat}
    (absent : ∀ entry ∈ entries, entry.info.handlerId ≠ handlerId) :
    printedHits handlerId (entries.map RouteEntry.liveLine) = 0 := by
  induction entries with
  | nil => rfl
  | cons entry entries hypothesis =>
      rw [List.forall_mem_cons] at absent
      rw [printedHits, List.map_cons, List.map_cons, List.sum_cons]
      have own : LogLine.hitsOf handlerId entry.liveLine = 0 := if_neg absent.1
      rw [own, Nat.zero_add]
      exact hypothesis absent.2

/-- Entries of different routes print the hits of each once. -/
theorem printedHits_liveLine
    {entries : List RouteEntry}
    (distinct : (entries.map fun entry => entry.info.handlerId).Nodup)
    {entry : RouteEntry}
    (member : entry ∈ entries) :
    printedHits entry.info.handlerId (entries.map RouteEntry.liveLine) =
      entry.hits - entry.lastIntervalHits := by
  induction entries with
  | nil => cases member
  | cons first entries hypothesis =>
      obtain ⟨absent, distinctRest⟩ := List.nodup_cons.mp distinct
      rw [printedHits, List.map_cons, List.map_cons, List.sum_cons]
      rcases List.mem_cons.mp member with rfl | inRest
      · have own : LogLine.hitsOf entry.info.handlerId entry.liveLine =
            entry.hits - entry.lastIntervalHits := if_pos rfl
        have others : printedHits entry.info.handlerId (entries.map RouteEntry.liveLine) = 0 := by
          apply printedHits_eq_zero
          intro other isOther same
          exact absent (List.mem_map.mpr ⟨other, isOther, same⟩)
        rw [own]
        exact congrArg (_ + ·) others
      · have other : LogLine.hitsOf entry.info.handlerId first.liveLine = 0 := by
          apply if_neg
          intro same
          exact absent (List.mem_map.mpr ⟨entry, inRest, same.symm⟩)
        rw [other, Nat.zero_add]
        exact hypothesis distinctRest inRest

/-- The hits that are printed at the end of an interval are those since the last one. -/
theorem printedHits_printLiveRouteHits
    {entries : List RouteEntry}
    (distinct : (entries.map fun entry => entry.info.handlerId).Nodup)
    {entry : RouteEntry}
    (member : entry ∈ entries) :
    printedHits entry.info.handlerId (printLiveRouteHits entries) =
      entry.hits - entry.lastIntervalHits := by
  have isActive : ∀ other : RouteEntry,
      (other ∈ entries.filter fun entry => 0 < entry.hits) ↔ other ∈ entries ∧ 0 < other.hits := by
    intro other
    rw [List.mem_filter, decide_eq_true_iff]
  have distinctActive : ((entries.filter fun entry => 0 < entry.hits).map
      fun entry => entry.info.handlerId).Nodup :=
    List.Nodup.sublist (List.Sublist.map _ List.filter_sublist) distinct
  unfold printLiveRouteHits
  dsimp only
  split
  case isTrue empty =>
      rw [List.isEmpty_iff] at empty
      have idle : ¬ 0 < entry.hits := by
        intro active
        have found := (isActive entry).mpr ⟨member, active⟩
        rw [empty] at found
        cases found
      rw [Nat.eq_zero_of_not_pos idle, Nat.zero_sub]
      rfl
  case isFalse =>
      have sorted : printedHits entry.info.handlerId
            (((entries.filter fun entry => 0 < entry.hits).mergeSort
              fun first second => second.hits ≤ first.hits).map RouteEntry.liveLine) =
          printedHits entry.info.handlerId
            ((entries.filter fun entry => 0 < entry.hits).map RouteEntry.liveLine) :=
        (((List.mergeSort_perm _ _).map _).map _).sum_nat
      rw [sorted]
      by_cases active : 0 < entry.hits
      · exact printedHits_liveLine distinctActive ((isActive entry).mpr ⟨member, active⟩)
      · rw [Nat.eq_zero_of_not_pos active, Nat.zero_sub]
        apply printedHits_eq_zero
        intro other isOther same
        obtain ⟨found, hits⟩ := (isActive other).mp isOther
        rw [List.inj_on_of_nodup_map distinct found member same] at hits
        exact active hits

/-- What was printed of a route, and what is still to be printed. -/
structure Accounts (optimizer : RuntimeOptimizer) (entry : RouteEntry) : Prop where
  printed : printedHits entry.info.handlerId optimizer.log = entry.lastIntervalHits
  within : entry.lastIntervalHits ≤ entry.hits
  clean : optimizer.notifyEnabled = true → optimizer.dirty = false →
    entry.lastIntervalHits = entry.hits

def AccountsAll (optimizer : RuntimeOptimizer) : Prop :=
  ∀ entry ∈ optimizer.entries, Accounts optimizer entry

theorem accountsAll_create
    (thresholds : Thresholds)
    (notifyEnabled : Bool)
    (routes : List RouteInfo)
    (distinct : (routes.map RouteInfo.handlerId).Nodup) :
    AccountsAll (createRuntimeOptimizer thresholds notifyEnabled routes distinct) := by
  intro entry member
  obtain ⟨info, -, rfl⟩ := List.mem_map.mp member
  exact ⟨rfl, Nat.le_refl _, fun _ _ => rfl⟩

/-- The hits of an entry and those that were printed of it. -/
theorem hits_recordDispatch
    (entry : RouteEntry)
    (thresholds : Thresholds)
    (now : Nat)
    (snapshot : ResponseSnapshot) :
    entry.hits ≤ (entry.recordDispatch thresholds now snapshot).hits ∧
      (entry.recordDispatch thresholds now snapshot).lastIntervalHits = entry.lastIntervalHits := by
  unfold RouteEntry.recordDispatch RouteEntry.warm RouteEntry.recommend RouteEntry.observe
    RouteEntry.countHit
  split_ifs <;> exact ⟨by simp, rfl⟩

theorem AccountsAll.recordDispatch
    {optimizer : RuntimeOptimizer}
    (accounts : AccountsAll optimizer)
    (handlerId now : Nat)
    (snapshot : ResponseSnapshot) :
    AccountsAll (optimizer.recordDispatch handlerId now snapshot) := by
  unfold RuntimeOptimizer.recordDispatch
  cases opened : optimizer.openEntry handlerId with
  | none => exact accounts
  | some dispatched =>
      intro changed member
      obtain ⟨entry, isEntry, rfl⟩ := List.mem_map.mp member
      have before := accounts entry isEntry
      have kept : entry.hits ≤ (entry.changeAt handlerId fun entry =>
            entry.recordDispatch optimizer.thresholds now snapshot).hits ∧
          (entry.changeAt handlerId fun entry =>
            entry.recordDispatch optimizer.thresholds now snapshot).lastIntervalHits =
              entry.lastIntervalHits := by
        unfold RouteEntry.changeAt
        split
        · exact hits_recordDispatch _ _ _ _
        · exact ⟨Nat.le_refl _, rfl⟩
      refine
        { printed := ?_
          within := ?_
          clean := ?_ }
      · rw [kept.2, RouteEntry.info_changeAt fun _ => RouteEntry.info_recordDispatch _ _ _ _,
          printedHits_append, before.printed]
        split
        · cases RouteEntry.message dispatched
            (dispatched.recordDispatch optimizer.thresholds now snapshot) with
          | none => rfl
          | some message => rfl
        · rfl
      · rw [kept.2]
        exact before.within.trans kept.1
      · intro enabled clean
        rw [show optimizer.notifyEnabled = true from enabled] at clean
        rw [Bool.or_true] at clean
        cases clean

theorem AccountsAll.tick
    {optimizer : RuntimeOptimizer}
    (accounts : AccountsAll optimizer) :
    AccountsAll optimizer.tick := by
  unfold RuntimeOptimizer.tick
  split
  case isFalse => exact accounts
  case isTrue =>
      intro changed member
      obtain ⟨entry, isEntry, rfl⟩ := List.mem_map.mp member
      have before := accounts entry isEntry
      have closed : entry.closeInterval.lastIntervalHits = entry.hits ∧
          entry.closeInterval.hits = entry.hits := by
        unfold RouteEntry.closeInterval
        split
        case isTrue => exact ⟨rfl, rfl⟩
        case isFalse idle =>
            have within := before.within
            rw [Nat.eq_zero_of_not_pos idle] at within ⊢
            exact ⟨Nat.le_zero.mp within, rfl⟩
      refine
        { printed := ?_
          within := ?_
          clean := ?_ }
      · rw [closed.1, RouteEntry.info_closeInterval, printedHits_append, before.printed,
          printedHits_printLiveRouteHits optimizer.distinct isEntry]
        exact Nat.add_sub_cancel' before.within
      · rw [closed.1, closed.2]
      · intro _ _
        rw [closed.1, closed.2]

theorem AccountsAll.handle
    {optimizer : RuntimeOptimizer}
    (accounts : AccountsAll optimizer)
    (event : OptimizerEvent) :
    AccountsAll (optimizer.handle event) := by
  cases event with
  | dispatch handlerId now snapshot => exact accounts.recordDispatch handlerId now snapshot
  | tick =>
      change AccountsAll (if optimizer.notifyEnabled then optimizer.tick else optimizer)
      split
      · exact accounts.tick
      · exact accounts

theorem AccountsAll.foldl_handle
    {optimizer : RuntimeOptimizer}
    (accounts : AccountsAll optimizer)
    (events : List OptimizerEvent) :
    AccountsAll (events.foldl RuntimeOptimizer.handle optimizer) := by
  induction events generalizing optimizer with
  | nil => exact accounts
  | cons event events hypothesis =>
      apply hypothesis
      exact accounts.handle event

theorem dirty_tick (optimizer : RuntimeOptimizer) : optimizer.tick.dirty = false := by
  unfold RuntimeOptimizer.tick
  split
  case isTrue => rfl
  case isFalse clean => exact Bool.not_eq_true _ ▸ clean

end Opt
end HttpNative
