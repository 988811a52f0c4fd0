import HttpNative.Library.Dictionary
import HttpNative.Library.Text
import HttpNative.Parser.RequestHead

/-!
# The rate limiter

The sliding-window limiter of the native layer: buckets under keys that are put
together of a namespace and a key, and the limiter that JavaScript makes of it for
one namespace.
-/

namespace HttpNative
namespace RateLimit

def namespaceSeparator : Char := '\x1f'

def maxRateLimitEntries : Nat := 100000

/-- `MAX_RATE_LIMIT_ENTRIES` times `EVICTION_TARGET_RATIO`. -/
def evictionTarget : Nat := 80000

def evictStaleThresholdMs : Nat := 3600000

def u32Max : Nat := 2 ^ 32 - 1

def u64Max : Nat := 2 ^ 64 - 1

def saturatingAdd32 (left right : Nat) : Nat := min (left + right) u32Max

def saturatingAdd64 (left right : Nat) : Nat := min (left + right) u64Max

structure RateLimitDecision where
  allowed : Bool
  limit : Nat
  remaining : Nat
  resetAtMs : Nat
  retryAfterSecs : Nat
  nowMs : Nat
deriving DecidableEq

/-- Costs with their times, the earliest at the front. -/
structure SlidingWindowState where
  events : List (Nat × Nat)
  total : Nat
  lastSeenMs : Nat
deriving DecidableEq

namespace SlidingWindowState

def empty : SlidingWindowState where
  events := []
  total := 0
  lastSeenMs := 0

/-- The loop of `prune_expired`. -/
def prune (cutoff : Nat) : List (Nat × Nat) → Nat → List (Nat × Nat) × Nat
  | [], total => ([], total)
  | (ts, count) :: events, total =>
      if ts > cutoff then ((ts, count) :: events, total) else prune cutoff events (total - count)

def pruneExpired (nowMs windowMs : Nat) (state : SlidingWindowState) : SlidingWindowState :=
  let pruned := prune (nowMs - windowMs) state.events state.total
  { state with events := pruned.1, total := pruned.2 }

def pushHit (nowMs cost : Nat) (state : SlidingWindowState) : SlidingWindowState :=
  let total := saturatingAdd32 state.total cost
  match state.events.getLast? with
  | some (ts, count) =>
      if ts = nowMs then
        { state with events := state.events.dropLast ++ [(ts, saturatingAdd32 count cost)], total }
      else
        { state with events := state.events ++ [(nowMs, cost)], total }
  | none => { state with events := state.events ++ [(nowMs, cost)], total }

def resetAtMs (nowMs windowMs : Nat) (state : SlidingWindowState) : Nat :=
  match state.events.head? with
  | some (ts, _) => saturatingAdd64 ts windowMs
  | none => saturatingAdd64 nowMs windowMs

def canCollect (nowMs windowMs : Nat) (state : SlidingWindowState) : Bool :=
  state.total = 0 && windowMs < nowMs - state.lastSeenMs

end SlidingWindowState

/-- The buckets of all namespaces. -/
abbrev Buckets := Dictionary Text SlidingWindowState

def makeStorageKey (namespaceName key : Text) : Text :=
  namespaceName ++ namespaceSeparator :: key

def retryAfterSecs (nowMs resetAtMs : Nat) : Nat :=
  if resetAtMs - nowMs = 0 then 1 else (resetAtMs - nowMs + 999) / 1000

def removeAll (keys : List Text) (buckets : Buckets) : Buckets :=
  keys.foldl (fun rest key => rest.erase key) buckets

/-- Too many buckets lose the stale ones, and then those that were seen the longest
ago. -/
def maybeEvict (nowMs : Nat) (buckets : Buckets) : Buckets :=
  if buckets.length ≤ maxRateLimitEntries then buckets
  else
    let staleKeys := (buckets.filter fun entry =>
      evictStaleThresholdMs < nowMs - entry.2.lastSeenMs).map Prod.fst
    let fresh := removeAll staleKeys buckets
    if fresh.length ≤ evictionTarget then fresh
    else
      let entries := fresh.mergeSort fun left right => left.2.lastSeenMs ≤ right.2.lastSeenMs
      removeAll ((entries.take (fresh.length - evictionTarget)).map Prod.fst) fresh

/-- The limit of a call. -/
structure Policy where
  max : Nat
  windowSecs : Nat
deriving DecidableEq

/-- The length of the window in milliseconds. -/
def Policy.windowMs (policy : Policy) : Nat :=
  Nat.max (policy.windowSecs * 1000) 1

/-- What `check` does with the bucket of its key: the decision, and the bucket
unless it is collected. -/
def hit
    (policy : Policy)
    (cost nowMs : Nat)
    (bucket : SlidingWindowState) :
    RateLimitDecision × Option SlidingWindowState :=
  let max := Nat.max policy.max 1
  let cost := Nat.max cost 1
  let windowMs := policy.windowMs
  let pruned := { bucket.pruneExpired nowMs windowMs with lastSeenMs := nowMs }
  let keep (state : SlidingWindowState) : Option SlidingWindowState :=
    if state.canCollect nowMs windowMs then none else some state
  if saturatingAdd32 pruned.total cost > max then
    let resetAtMs := pruned.resetAtMs nowMs windowMs
    ({ allowed := false, limit := max, remaining := 0, resetAtMs
       retryAfterSecs := retryAfterSecs nowMs resetAtMs, nowMs },
      keep pruned)
  else
    let pushed := pruned.pushHit nowMs cost
    ({ allowed := true, limit := max, remaining := max - pushed.total
       resetAtMs := pushed.resetAtMs nowMs windowMs, retryAfterSecs := 0, nowMs },
      keep pushed)

/-- The buckets with a hit under a storage key, before any are evicted. -/
def checkBuckets
    (policy : Policy)
    (cost nowMs : Nat)
    (storageKey : Text)
    (buckets : Buckets) :
    Buckets :=
  match (hit policy cost nowMs ((buckets.get storageKey).getD .empty)).2 with
  | some bucket => buckets.set storageKey bucket
  | none => buckets.erase storageKey

/-- A call of `check`. -/
structure CheckCall where
  namespaceName : Text
  key : Text
  policy : Policy
  cost : Nat
  nowMs : Nat

def CheckCall.storageKey (call : CheckCall) : Text :=
  makeStorageKey call.namespaceName call.key

def check (call : CheckCall) (buckets : Buckets) : RateLimitDecision × Buckets :=
  ((hit call.policy call.cost call.nowMs ((buckets.get call.storageKey).getD .empty)).1,
    maybeEvict call.nowMs
      (checkBuckets call.policy call.cost call.nowMs call.storageKey buckets))

/-- The number of buckets removed, and the buckets left. -/
def reset (namespaceName key : Option Text) (buckets : Buckets) : Nat × Buckets :=
  let left :=
    match namespaceName, key with
    | none, none => []
    | some namespaceName, none =>
        removeAll ((buckets.filter fun entry =>
          (namespaceName ++ [namespaceSeparator]).isPrefixOf entry.1).map Prod.fst) buckets
    | some namespaceName, some key => buckets.erase (makeStorageKey namespaceName key)
    | none, some _ => buckets
  (buckets.length - left.length, left)

/-! ## The native functions -/

inductive LimiterError where
  | blankNamespace
  | blankKey
  | noMax
  | noWindow

/-- What `rate_limit_check` refuses. -/
def refusal (call : CheckCall) : Option LimiterError :=
  if Parser.trim call.namespaceName = [] then some .blankNamespace
  else if Parser.trim call.key = [] then some .blankKey
  else if call.policy.max = 0 then some .noMax
  else if call.policy.windowSecs = 0 then some .noWindow
  else none

/-- `rate_limit_check` -/
def rateLimitCheck
    (call : CheckCall)
    (buckets : Buckets) :
    Except LimiterError RateLimitDecision × Buckets :=
  match refusal call with
  | some error => (.error error, buckets)
  | none =>
      let (decision, buckets) := check { call with cost := Nat.max call.cost 1 } buckets
      (.ok decision, buckets)

/-- `rate_limit_reset` -/
def rateLimitReset (namespaceName key : Option Text) (buckets : Buckets) : Nat × Buckets :=
  if namespaceName.isNone && key.isSome then (0, buckets) else reset namespaceName key buckets

/-! ## The limiter of a namespace -/

/-- `check` of a limiter: the key is trimmed; `none` when there is no key or nothing
is left of it, and the call throws. -/
def limiterKey (key : Option Text) : Option Text :=
  match key with
  | none => none
  | some key => if Text.trim key = [] then none else some (Text.trim key)

def limiterCheck
    (namespaceName : Text)
    (key : Option Text)
    (policy : Policy)
    (cost nowMs : Nat)
    (buckets : Buckets) :
    Option (Except LimiterError RateLimitDecision) × Buckets :=
  match limiterKey key with
  | none => (none, buckets)
  | some key =>
      let (result, buckets) := rateLimitCheck { namespaceName, key, policy, cost, nowMs } buckets
      (some result, buckets)

/-- `reset` of a limiter: the key is taken as it is. -/
def limiterReset (namespaceName : Text) (key : Option Text) (buckets : Buckets) : Nat × Buckets :=
  rateLimitReset (some namespaceName) key buckets

end RateLimit
end HttpNative
