import HttpNative.Library.Decimal
import HttpNative.Library.Dictionary
import HttpNative.Library.FnvHash
import HttpNative.Library.JsString

/-!
# The runtime optimizer

The optimizer counts the dispatches of each route. A route that was dispatched often enough
is hot, and one whose responses then stay the same for long enough is recommended for a
cache. With notifications on, the hits since the last print are printed from time to time.
-/

namespace HttpNative
namespace Opt

/-! ## Response keys -/

structure ResponseSnapshot where
  status : Nat
  headers : Dictionary JsString JsString
  body : List (BitVec 8)

/-- The hash goes on with the code units of a string. -/
def fnv1aString (seed : BitVec 32) (value : JsString) : BitVec 32 :=
  FnvHash.hashFrom seed (value.map fun unit => unit.toBitVec.setWidth 32)

def fnv1aBytes (seed : BitVec 32) (bytes : List (BitVec 8)) : BitVec 32 :=
  FnvHash.hashFrom seed (bytes.map (BitVec.setWidth 32))

/-- The hash of the status and the headers. -/
def hashHead (snapshot : ResponseSnapshot) : BitVec 32 :=
  snapshot.headers.foldl
    (fun hash header => fnv1aString (fnv1aString hash header.1) header.2)
    (fnv1aString FnvHash.offset (JsString.ofText (Decimal.write snapshot.status)))

def buildResponseKey (snapshot : ResponseSnapshot) : Text :=
  let hash := fnv1aBytes (hashHead snapshot) snapshot.body
  Decimal.write hash.toNat ++
    (':' :: Decimal.write snapshot.body.length ++ ':' :: Decimal.write snapshot.headers.length)

/-- A byte of the body that is replaced changes the key. -/
theorem buildResponseKey_replace_ne
    (status : Nat)
    (headers : Dictionary JsString JsString)
    (front back : List (BitVec 8))
    {byte other : BitVec 8}
    (different : byte ≠ other) :
    buildResponseKey ⟨status, headers, front ++ byte :: back⟩ ≠
      buildResponseKey ⟨status, headers, front ++ other :: back⟩ := by
  intro same
  have lengths : (front ++ byte :: back).length = (front ++ other :: back).length := by
    rw [List.length_append, List.length_append, List.length_cons, List.length_cons]
  unfold buildResponseKey at same
  dsimp only at same
  rw [lengths] at same
  have hashes := congrArg Decimal.value (List.append_cancel_right same)
  rw [Decimal.value_write, Decimal.value_write] at hashes
  have units := BitVec.eq_of_toNat_eq hashes
  unfold fnv1aBytes at units
  rw [List.map_append, List.map_append, List.map_cons, List.map_cons] at units
  refine FnvHash.hashFrom_replace_ne _ _ _ ?_ units
  intro widened
  exact different (FnvHash.setWidth_inj widened)

/-! ## Routes -/

/-- The thresholds as the environment gives them. -/
structure Thresholds where
  hotHits : Int
  stableResponses : Int

inductive Stage where
  | cold
  | hot
deriving DecidableEq

/-- What the optimizer is told of a route. -/
structure RouteInfo where
  handlerId : Nat
  label : Text
  staticFastPath : Bool
  cacheCandidate : Bool

structure RouteEntry where
  info : RouteInfo
  stage : Stage
  hits : Nat
  lastHitAt : Option Nat
  bridgeObserved : Bool
  recommendation : Option Text
  stableResponses : Nat
  lastResponseKey : Option Text
  settled : Bool
  lastIntervalHits : Nat

def RouteEntry.create (info : RouteInfo) : RouteEntry :=
  { info
    stage := .cold
    hits := 0
    lastHitAt := none
    bridgeObserved := false
    recommendation := none
    stableResponses := 0
    lastResponseKey := none
    settled := false
    lastIntervalHits := 0 }

namespace RouteEntry

def countHit (entry : RouteEntry) : RouteEntry :=
  { entry with hits := entry.hits + 1, bridgeObserved := true }

def observe (entry : RouteEntry) (responseKey : Text) : RouteEntry :=
  if entry.lastResponseKey = some responseKey then
    { entry with stableResponses := entry.stableResponses + 1 }
  else
    { entry with lastResponseKey := some responseKey, stableResponses := 1 }

def warm (entry : RouteEntry) (thresholds : Thresholds) (now : Nat) : RouteEntry :=
  if thresholds.hotHits ≤ entry.hits then
    { entry with
      stage := .hot
      lastHitAt := some now
      settled := entry.settled || !entry.info.cacheCandidate }
  else
    entry

def recommend (entry : RouteEntry) (thresholds : Thresholds) (now : Nat) : RouteEntry :=
  if entry.recommendation = none ∧ thresholds.stableResponses ≤ entry.stableResponses then
    { entry with
      recommendation := some (text "cache-candidate")
      settled := true
      lastHitAt := some now }
  else
    entry

/-- `recordDispatch` for the entry of the route. -/
def recordDispatch
    (entry : RouteEntry)
    (thresholds : Thresholds)
    (now : Nat)
    (snapshot : ResponseSnapshot) : RouteEntry :=
  if entry.settled then
    entry
  else if entry.stage = .cold then
    entry.countHit.warm thresholds now
  else if !entry.info.cacheCandidate then
    { entry.countHit with settled := true }
  else
    (entry.countHit.observe (buildResponseKey snapshot)).recommend thresholds now

/-- What `recordDispatch` tells of an entry that it changed. -/
def message (before after : RouteEntry) : Option Text :=
  if before.stage = .cold ∧ after.stage = .hot then
    some (if after.info.staticFastPath then
      after.info.label ++ text " is serving from the static fast path"
    else
      after.info.label ++ text " is hot on bridge dispatch")
  else if before.recommendation = none ∧ after.recommendation ≠ none then
    some (after.info.label ++ text " looks stable at runtime; cached values may be safe")
  else
    none

end RouteEntry

/-! ## The optimizer -/

/-- What is logged: a message, or the hits of a route since the last print. -/
inductive LogLine where
  | info (message : Text)
  | live (handlerId : Nat) (label : Text) (hits intervalHits : Nat)
  | noHits

/-- The entries by their handler ids, which are all different. -/
structure RuntimeOptimizer where
  thresholds : Thresholds
  notifyEnabled : Bool
  entries : List RouteEntry
  distinct : (entries.map fun entry => entry.info.handlerId).Nodup
  dirty : Bool
  log : List LogLine

theorem nodup_map
    {change : RouteEntry → RouteEntry} {entries : List RouteEntry}
    (keeps : ∀ entry, (change entry).info = entry.info)
    (distinct : (entries.map fun entry => entry.info.handlerId).Nodup) :
    ((entries.map change).map fun entry => entry.info.handlerId).Nodup := by
  have same : (entries.map change).map (fun entry => entry.info.handlerId) =
      entries.map fun entry => entry.info.handlerId := by
    rw [List.map_map]
    apply List.map_congr_left
    intro entry _
    exact congrArg RouteInfo.handlerId (keeps entry)
  rw [same]
  exact distinct

namespace RouteEntry

theorem info_observe
    (entry : RouteEntry)
    (key : Text) :
    (entry.observe key).info = entry.info := by
  unfold observe
  split <;> rfl

theorem stage_observe
    (entry : RouteEntry)
    (key : Text) :
    (entry.observe key).stage = entry.stage := by
  unfold observe
  split <;> rfl

theorem recommendation_observe
    (entry : RouteEntry)
    (key : Text) :
    (entry.observe key).recommendation = entry.recommendation := by
  unfold observe
  split <;> rfl

theorem settled_observe
    (entry : RouteEntry)
    (key : Text) :
    (entry.observe key).settled = entry.settled := by
  unfold observe
  split <;> rfl

theorem lastResponseKey_observe
    (entry : RouteEntry)
    (key : Text) :
    (entry.observe key).lastResponseKey = some key := by
  unfold observe
  split
  case isTrue same => exact same
  case isFalse => rfl

theorem stableResponses_observe_pos
    (entry : RouteEntry)
    (key : Text) :
    0 < (entry.observe key).stableResponses := by
  unfold observe
  split
  · exact Nat.succ_pos _
  · exact Nat.one_pos

theorem info_recordDispatch
    (entry : RouteEntry)
    (thresholds : Thresholds)
    (now : Nat)
    (snapshot : ResponseSnapshot) :
    (entry.recordDispatch thresholds now snapshot).info = entry.info := by
  unfold recordDispatch warm recommend observe
  split_ifs <;> rfl

/-- Change the entry of one route. -/
def changeAt
    (handlerId : Nat)
    (change : RouteEntry → RouteEntry)
    (entry : RouteEntry) : RouteEntry :=
  if entry.info.handlerId = handlerId then change entry else entry

theorem info_changeAt
    {handlerId : Nat} {change : RouteEntry → RouteEntry}
    (keeps : ∀ entry, (change entry).info = entry.info)
    (entry : RouteEntry) :
    (entry.changeAt handlerId change).info = entry.info := by
  unfold changeAt
  split
  · exact keeps entry
  · rfl

/-- The hits that were printed are those of the last interval from now on. -/
def closeInterval (entry : RouteEntry) : RouteEntry :=
  if 0 < entry.hits then { entry with lastIntervalHits := entry.hits } else entry

theorem info_closeInterval (entry : RouteEntry) : entry.closeInterval.info = entry.info := by
  unfold closeInterval
  split
  · rfl
  · rfl

def liveLine (entry : RouteEntry) : LogLine :=
  .live entry.info.handlerId entry.info.label entry.hits (entry.hits - entry.lastIntervalHits)

end RouteEntry

theorem nodup_create
    {routes : List RouteInfo}
    (distinct : (routes.map RouteInfo.handlerId).Nodup) :
    ((routes.map RouteEntry.create).map fun entry => entry.info.handlerId).Nodup := by
  rw [List.map_map]
  exact distinct

/-- The entries of routes whose handler ids are all different. -/
def createRuntimeOptimizer
    (thresholds : Thresholds)
    (notifyEnabled : Bool)
    (routes : List RouteInfo)
    (distinct : (routes.map RouteInfo.handlerId).Nodup) : RuntimeOptimizer where
  thresholds := thresholds
  notifyEnabled := notifyEnabled
  entries := routes.map RouteEntry.create
  distinct := nodup_create distinct
  dirty := false
  log := []

/-- `printLiveRouteHits`; the routes with the most hits come first. -/
def printLiveRouteHits (entries : List RouteEntry) : List LogLine :=
  let active := entries.filter fun entry => 0 < entry.hits
  if active.isEmpty then
    [.noHits]
  else
    (active.mergeSort fun first second => second.hits ≤ first.hits).map RouteEntry.liveLine

namespace RuntimeOptimizer

/-- The entry that a dispatch is counted for. -/
def openEntry (optimizer : RuntimeOptimizer) (handlerId : Nat) : Option RouteEntry :=
  (optimizer.entries.find? fun entry => entry.info.handlerId == handlerId).filter
    fun entry => !entry.settled

def recordDispatch
    (optimizer : RuntimeOptimizer)
    (handlerId now : Nat)
    (snapshot : ResponseSnapshot) : RuntimeOptimizer :=
  match optimizer.openEntry handlerId with
  | none => optimizer
  | some entry =>
      let recorded := entry.recordDispatch optimizer.thresholds now snapshot
      { optimizer with
        entries := optimizer.entries.map (RouteEntry.changeAt handlerId fun entry =>
          entry.recordDispatch optimizer.thresholds now snapshot)
        distinct := nodup_map
          (RouteEntry.info_changeAt fun _ => RouteEntry.info_recordDispatch _ _ _ _)
          optimizer.distinct
        dirty := optimizer.dirty || optimizer.notifyEnabled
        log := optimizer.log ++
          if optimizer.notifyEnabled then
            ((RouteEntry.message entry recorded).map LogLine.info).toList
          else
            [] }

/-- The callback of the interval, which is set only when notifications are on. -/
def tick (optimizer : RuntimeOptimizer) : RuntimeOptimizer :=
  if optimizer.dirty then
    { optimizer with
      dirty := false
      log := optimizer.log ++ printLiveRouteHits optimizer.entries
      entries := optimizer.entries.map RouteEntry.closeInterval
      distinct := nodup_map RouteEntry.info_closeInterval optimizer.distinct }
  else
    optimizer

end RuntimeOptimizer

/-- A dispatch of a route at a time, or the end of an interval. -/
inductive OptimizerEvent where
  | dispatch (handlerId now : Nat) (snapshot : ResponseSnapshot)
  | tick

def RuntimeOptimizer.handle (optimizer : RuntimeOptimizer) : OptimizerEvent → RuntimeOptimizer
  | .dispatch handlerId now snapshot => optimizer.recordDispatch handlerId now snapshot
  | .tick => if optimizer.notifyEnabled then optimizer.tick else optimizer

/-! ## What an event changes -/

/-- An entry that no dispatch is counted for is not there or settled. -/
theorem settled_of_openEntry_eq_none
    {optimizer : RuntimeOptimizer} {handlerId : Nat}
    (closed : optimizer.openEntry handlerId = none)
    {entry : RouteEntry}
    (member : entry ∈ optimizer.entries)
    (isRoute : entry.info.handlerId = handlerId) :
    entry.settled = true := by
  unfold RuntimeOptimizer.openEntry at closed
  cases found : optimizer.entries.find? fun entry => entry.info.handlerId == handlerId with
  | none =>
      have other := List.find?_eq_none.mp found entry member
      exact absurd (beq_iff_eq.mpr isRoute) other
  | some first =>
      have isFirst := List.find?_some found
      rw [beq_iff_eq] at isFirst
      have same : first = entry :=
        List.inj_on_of_nodup_map optimizer.distinct (List.mem_of_find?_eq_some found) member
          (isFirst.trans isRoute.symm)
      rw [found, Option.filter_some, same] at closed
      by_contra unsettled
      rw [Bool.not_eq_true] at unsettled
      rw [unsettled] at closed
      cases closed

/-- A dispatch is recorded for the entry of its route. -/
theorem entries_recordDispatch
    (optimizer : RuntimeOptimizer)
    (handlerId now : Nat)
    (snapshot : ResponseSnapshot) :
    (optimizer.recordDispatch handlerId now snapshot).entries =
      optimizer.entries.map (RouteEntry.changeAt handlerId fun entry =>
        entry.recordDispatch optimizer.thresholds now snapshot) := by
  unfold RuntimeOptimizer.recordDispatch
  cases opened : optimizer.openEntry handlerId with
  | some entry => rfl
  | none =>
      symm
      apply (List.map_congr_left ?_).trans (List.map_id _)
      intro entry member
      unfold RouteEntry.changeAt
      split
      case isTrue isRoute => exact if_pos (settled_of_openEntry_eq_none opened member isRoute)
      case isFalse => rfl

/-- The options stay as they are. -/
def SameOptions (left right : RuntimeOptimizer) : Prop :=
  left.thresholds = right.thresholds ∧ left.notifyEnabled = right.notifyEnabled

theorem sameOptions_recordDispatch
    (optimizer : RuntimeOptimizer)
    (handlerId now : Nat)
    (snapshot : ResponseSnapshot) :
    SameOptions (optimizer.recordDispatch handlerId now snapshot) optimizer := by
  unfold RuntimeOptimizer.recordDispatch
  cases optimizer.openEntry handlerId with
  | none => exact ⟨rfl, rfl⟩
  | some entry => exact ⟨rfl, rfl⟩

theorem sameOptions_handle
    (optimizer : RuntimeOptimizer)
    (event : OptimizerEvent) :
    SameOptions (optimizer.handle event) optimizer := by
  cases event with
  | dispatch handlerId now snapshot => exact sameOptions_recordDispatch _ _ _ _
  | tick =>
      unfold RuntimeOptimizer.handle RuntimeOptimizer.tick
      dsimp only
      split_ifs <;> exact ⟨rfl, rfl⟩

theorem sameOptions_foldl_handle
    (optimizer : RuntimeOptimizer)
    (events : List OptimizerEvent) :
    SameOptions (events.foldl RuntimeOptimizer.handle optimizer) optimizer := by
  induction events generalizing optimizer with
  | nil => exact ⟨rfl, rfl⟩
  | cons event events hypothesis =>
      have first := sameOptions_handle optimizer event
      have rest := hypothesis (optimizer.handle event)
      exact ⟨rest.1.trans first.1, rest.2.trans first.2⟩

end Opt
end HttpNative
