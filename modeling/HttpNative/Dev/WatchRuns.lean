import HttpNative.Dev.WatchedFiles
import HttpNative.Library.JsNumber
import HttpNative.Library.Machine

/-!
# Runs of the watcher

Files change at any time. The watcher looks from time to time, remembers a change as
pending and sets a timer anew; the program is called when the timer runs out. Each call
has one detection of its own before it, and whatever has changed is known to the program
once a look finds nothing new and no timer is set.
-/

namespace HttpNative
namespace DevWatch

/-! ## Options -/

def normalizeDebounceMs : JsNumber → Nat
  | .finite value => if value ≤ 0 then 120 else ⌊value⌋.toNat
  | _ => 120

def normalizeDelayMs (fallback : Nat) : JsNumber → Nat
  | .finite value => if value < 0 then fallback else ⌊value⌋.toNat
  | _ => fallback

/-- The time after which `setTimeout` runs its callback at the earliest; what does not fit
is one millisecond. -/
def timeoutMs (delay : Nat) : Nat :=
  if 1 ≤ delay ∧ delay ≤ 2147483647 then delay else 1

/-- The options of a watcher, the time of its creation, and what the files are after each
number of changes. The roots are resolved paths. -/
structure WatchSetup where
  roots : List Text
  resolved : ∀ root ∈ roots, root ≠ []
  debounceMs : JsNumber
  startupIgnoreMs : JsNumber
  createdAt : Nat
  history : Nat → Files

namespace WatchSetup

variable (setup : WatchSetup)

def snapshotAt (version : Nat) : Snapshot :=
  snapshotWatchedFiles setup.roots (setup.history version)

def debounce : Nat :=
  timeoutMs (normalizeDebounceMs setup.debounceMs)

def startupIgnore : Nat :=
  normalizeDelayMs 250 setup.startupIgnoreMs

theorem distinct_snapshotAt (version : Nat) : Dictionary.Distinct (setup.snapshotAt version) :=
  distinct_snapshotWatchedFiles _ _

end WatchSetup

/-! ## The watcher -/

/-- What the watcher finds and does. Files are compared between two numbers of changes, and
the program sees them as they are when it is called. -/
inductive WatchEntry where
  | detected (file : Text) (time since version : Nat)
  | called (file : Option Text) (time version : Nat)
  | refreshed (time : Nat)
  | disposed

/-- The variables of the watcher; the timers by when they are due. The last four fields
record the run: how often the files have changed, what number of changes the watcher last
looked at, and which one the program was last told of; at the start it knows the files. -/
structure WatchState where
  now : Nat
  watchReadyAt : Nat
  restartTimer : Option Nat
  pendingFile : Option Text
  previousSnapshot : Snapshot
  polling : Bool
  version : Nat
  lookedAt : Nat
  known : Nat
  log : List WatchEntry

def createDevWatchController (setup : WatchSetup) : WatchState :=
  { now := setup.createdAt
    watchReadyAt := setup.createdAt + setup.startupIgnore
    restartTimer := none
    pendingFile := none
    previousSnapshot := setup.snapshotAt 0
    polling := true
    version := 0
    lookedAt := 0
    known := 0
    log := [] }

/-- A path is found, which is no empty string. -/
def foundFile (changedFile : Option Text) : Option Text :=
  changedFile.filter fun file => !file.isEmpty

/-- Keep the new snapshot, and set the timer anew when a file has changed. -/
def WatchState.look
    (setup : WatchSetup)
    (state : WatchState)
    (nextSnapshot : Snapshot) :
    Option Text → WatchState
  | none =>
      { state with
        previousSnapshot := nextSnapshot
        lookedAt := state.version }
  | some changedFile =>
      { state with
        previousSnapshot := nextSnapshot
        lookedAt := state.version
        pendingFile := some changedFile
        restartTimer := some (state.now + setup.debounce)
        log := .detected changedFile state.now state.lookedAt state.version :: state.log }

/-- The callback of the interval. -/
def WatchState.poll (setup : WatchSetup) (state : WatchState) : WatchState :=
  if state.now < state.watchReadyAt then
    state
  else
    let nextSnapshot := setup.snapshotAt state.version
    state.look setup nextSnapshot (foundFile (diffSnapshots state.previousSnapshot nextSnapshot))

/-- The callback of the timer. -/
def WatchState.fire (state : WatchState) : WatchState :=
  { state with
    pendingFile := none
    restartTimer := none
    known := state.version
    log := .called state.pendingFile state.now state.version :: state.log }

def WatchState.refresh (setup : WatchSetup) (state : WatchState) : WatchState :=
  { state with
    watchReadyAt := state.now + setup.startupIgnore
    previousSnapshot := setup.snapshotAt state.version
    lookedAt := state.version
    log := .refreshed state.now :: state.log }

def WatchState.dispose (state : WatchState) : WatchState :=
  { state with
    restartTimer := none
    polling := false
    log := .disposed :: state.log }

/-- What may come next; time passes between callbacks. -/
inductive WatchEvent where
  | change
  | pass (ms : Nat)
  | poll
  | fire
  | refresh
  | dispose

def WatchState.step (setup : WatchSetup) (state : WatchState) : WatchEvent → Option WatchState
  | .change => some { state with version := state.version + 1 }
  | .pass ms => some { state with now := state.now + ms }
  | .poll => if state.polling then some (state.poll setup) else none
  | .fire => if state.restartTimer.any (· ≤ state.now) then some state.fire else none
  | .refresh => some (state.refresh setup)
  | .dispose => some state.dispose

def watcher (setup : WatchSetup) : Machine WatchState WatchEvent where
  start := createDevWatchController setup
  step := WatchState.step setup

/-! ## What one step can do -/

/-- A look finds the files as they were or changed. -/
theorem poll_cases
    (setup : WatchSetup)
    {state : WatchState}
    (previous : state.previousSnapshot = setup.snapshotAt state.lookedAt)
    (ready : state.watchReadyAt ≤ state.now) :
    (SameFiles (setup.snapshotAt state.lookedAt) (setup.snapshotAt state.version) ∧
        state.poll setup =
          { state with
            previousSnapshot := setup.snapshotAt state.version
            lookedAt := state.version }) ∨
      ∃ file,
        (setup.snapshotAt state.lookedAt).get file ≠ (setup.snapshotAt state.version).get file ∧
          state.poll setup =
            { state with
              previousSnapshot := setup.snapshotAt state.version
              lookedAt := state.version
              pendingFile := some file
              restartTimer := some (state.now + setup.debounce)
              log := .detected file state.now state.lookedAt state.version :: state.log } := by
  have looked : state.poll setup =
      state.look setup (setup.snapshotAt state.version)
        (foundFile (diffSnapshots (setup.snapshotAt state.lookedAt)
          (setup.snapshotAt state.version))) := by
    rw [WatchState.poll, if_neg (Nat.not_lt.mpr ready), previous]
  cases found : diffSnapshots (setup.snapshotAt state.lookedAt)
      (setup.snapshotAt state.version) with
  | none =>
      rw [found] at looked
      refine .inl ⟨?_, looked⟩
      exact (diffSnapshots_eq_none_iff (setup.distinct_snapshotAt _)
        (setup.distinct_snapshotAt _)).mp found
  | some file =>
      have named : file ≠ [] := by
        rcases mem_of_diffSnapshots found with ⟨value, member | member⟩
        · exact ne_nil_of_mem_snapshot setup.resolved member
        · exact ne_nil_of_mem_snapshot setup.resolved member
      refine .inr ⟨file, ?_, ?_⟩
      · exact ne_of_diffSnapshots (setup.distinct_snapshotAt _) (setup.distinct_snapshotAt _) found
      · have truthy : foundFile (some file) = some file := by
          rw [foundFile, Option.filter_some, if_pos]
          rw [List.isEmpty_eq_false_iff.mpr named]
          rfl
        rw [looked, found, truthy]
        rfl

/-! ## Calls -/

/-- Each call follows a detection, by the debounce time at least and with nothing but
refreshes in between, and has its file; each detection is of a file that has changed, and
there is none within the start-up time, neither after the creation nor after a refresh, and
none after the watcher is disposed. The newest entry stands first. -/
inductive Justified (setup : WatchSetup) : List WatchEntry → Prop
  | nil : Justified setup []
  | detected {file : Text} {time since version : Nat} {log : List WatchEntry} :
      Justified setup log →
      .disposed ∉ log →
      setup.createdAt + setup.startupIgnore ≤ time →
      (∀ refreshedAt, .refreshed refreshedAt ∈ log → refreshedAt + setup.startupIgnore ≤ time) →
      since ≤ version →
      (setup.snapshotAt since).get file ≠ (setup.snapshotAt version).get file →
      Justified setup (.detected file time since version :: log)
  | called {file : Text} {time since version calledAt seen : Nat} {log : List WatchEntry}
      (refreshes : List Nat) :
      Justified setup
        (refreshes.map .refreshed ++ .detected file time since version :: log) →
      time + setup.debounce ≤ calledAt →
      version ≤ seen →
      Justified setup (.called (some file) calledAt seen ::
        (refreshes.map .refreshed ++ .detected file time since version :: log))
  | refreshed {time : Nat} {log : List WatchEntry} :
      Justified setup log →
      Justified setup (.refreshed time :: log)
  | disposed {log : List WatchEntry} :
      Justified setup log →
      Justified setup (.disposed :: log)

/-- What holds between the steps. -/
structure Tracks (setup : WatchSetup) (state : WatchState) : Prop where
  later : setup.createdAt ≤ state.now
  ready : setup.createdAt + setup.startupIgnore ≤ state.watchReadyAt
  refreshed : ∀ time, .refreshed time ∈ state.log →
    time ≤ state.now ∧ time + setup.startupIgnore ≤ state.watchReadyAt
  previous : state.previousSnapshot = setup.snapshotAt state.lookedAt
  looked : state.lookedAt ≤ state.version
  told : state.known ≤ state.version
  armed : ∀ due, state.restartTimer = some due →
    ∃ file time since version log, ∃ refreshes : List Nat,
      state.log = refreshes.map .refreshed ++ .detected file time since version :: log ∧
        state.pendingFile = some file ∧
        due = time + setup.debounce ∧
        time ≤ state.now ∧
        version ≤ state.version
  undisposed : state.polling = true → .disposed ∉ state.log
  justified : Justified setup state.log

theorem tracks_create
    (setup : WatchSetup) :
    Tracks setup (createDevWatchController setup) where
  later := Nat.le_refl _
  ready := Nat.le_refl _
  refreshed _ absent := absurd absent List.not_mem_nil
  previous := rfl
  looked := Nat.le_refl _
  told := Nat.le_refl _
  armed due set := by cases set
  undisposed _ := List.not_mem_nil
  justified := .nil

namespace Tracks

variable {setup : WatchSetup} {state : WatchState}

theorem change
    (tracks : Tracks setup state) :
    Tracks setup { state with version := state.version + 1 } :=
  { tracks with
    looked := Nat.le_succ_of_le tracks.looked
    told := Nat.le_succ_of_le tracks.told
    armed := fun due set => by
      obtain ⟨file, time, since, version, log, refreshes, isLog, pending, isDue, past, seen⟩ :=
        tracks.armed due set
      exact ⟨file, time, since, version, log, refreshes, isLog, pending, isDue, past,
        Nat.le_succ_of_le seen⟩ }

theorem pass
    (tracks : Tracks setup state)
    (ms : Nat) :
    Tracks setup { state with now := state.now + ms } :=
  { tracks with
    later := Nat.le_add_right_of_le tracks.later
    refreshed := fun time member =>
      ⟨Nat.le_add_right_of_le (tracks.refreshed time member).1, (tracks.refreshed time member).2⟩
    armed := fun due set => by
      obtain ⟨file, time, since, version, log, refreshes, isLog, pending, isDue, past, seen⟩ :=
        tracks.armed due set
      exact ⟨file, time, since, version, log, refreshes, isLog, pending, isDue,
        Nat.le_add_right_of_le past, seen⟩ }

theorem poll
    (tracks : Tracks setup state)
    (polling : state.polling = true) :
    Tracks setup (state.poll setup) := by
  by_cases ready : state.watchReadyAt ≤ state.now
  · rcases poll_cases setup tracks.previous ready with ⟨-, looked⟩ | ⟨file, changed, looked⟩
    · rw [looked]
      exact { tracks with previous := rfl, looked := Nat.le_refl _ }
    · rw [looked]
      exact
        { later := tracks.later
          ready := tracks.ready
          refreshed := fun time member =>
            tracks.refreshed time ((List.mem_cons.mp member).resolve_left (by simp))
          previous := rfl
          looked := Nat.le_refl _
          told := tracks.told
          armed := fun due set => by
            cases set
            exact ⟨file, _, _, _, _, [], rfl, rfl, rfl, Nat.le_refl _, Nat.le_refl _⟩
          undisposed := fun polls disposed => by
            rcases List.mem_cons.mp disposed with isHead | before
            · cases isHead
            · exact tracks.undisposed polls before
          justified := .detected tracks.justified (tracks.undisposed polling)
            (tracks.ready.trans ready)
            (fun time member => (tracks.refreshed time member).2.trans ready)
            tracks.looked changed }
  · rw [WatchState.poll, if_pos (Nat.not_le.mp ready)]
    exact tracks

theorem fire
    (tracks : Tracks setup state)
    (due : state.restartTimer.any (· ≤ state.now) = true) :
    Tracks setup state.fire := by
  obtain ⟨set, isSet, reached⟩ := (Option.any_eq_true _ _).mp due
  obtain ⟨file, time, since, version, log, refreshes, isLog, pending, rfl, -, seen⟩ :=
    tracks.armed set isSet
  have justified := tracks.justified
  rw [isLog] at justified
  exact
    { later := tracks.later
      ready := tracks.ready
      refreshed := fun time member =>
        tracks.refreshed time ((List.mem_cons.mp member).resolve_left (by simp))
      previous := tracks.previous
      looked := tracks.looked
      told := Nat.le_refl _
      armed := fun due unset => by cases unset
      undisposed := fun polls disposed => by
        rcases List.mem_cons.mp disposed with isHead | before
        · cases isHead
        · exact tracks.undisposed polls before
      justified := by
        rw [WatchState.fire, pending, isLog]
        exact .called refreshes justified (of_decide_eq_true reached) seen }

theorem refresh
    (tracks : Tracks setup state) :
    Tracks setup (state.refresh setup) where
  later := tracks.later
  ready := Nat.add_le_add_right tracks.later _
  refreshed time member := by
    rcases List.mem_cons.mp member with isHead | before
    · cases isHead
      exact ⟨Nat.le_refl _, Nat.le_refl _⟩
    · have past := (tracks.refreshed time before).1
      exact ⟨past, Nat.add_le_add_right past _⟩
  previous := rfl
  looked := Nat.le_refl _
  told := tracks.told
  armed due set := by
    obtain ⟨file, time, since, version, log, refreshes, isLog, pending, isDue, past, seen⟩ :=
      tracks.armed due set
    refine ⟨file, time, since, version, log, state.now :: refreshes, ?_, pending, isDue, past,
      seen⟩
    rw [WatchState.refresh, isLog, List.map_cons, List.cons_append]
  undisposed polls disposed := by
    rcases List.mem_cons.mp disposed with isHead | before
    · cases isHead
    · exact tracks.undisposed polls before
  justified := .refreshed tracks.justified

theorem dispose
    (tracks : Tracks setup state) :
    Tracks setup state.dispose where
  later := tracks.later
  ready := tracks.ready
  refreshed time member :=
    tracks.refreshed time ((List.mem_cons.mp member).resolve_left (by simp))
  previous := tracks.previous
  looked := tracks.looked
  told := tracks.told
  armed due unset := by cases unset
  undisposed polls := by cases polls
  justified := .disposed tracks.justified

/-- Every step keeps what holds between the steps. -/
theorem step
    {next : WatchState} {event : WatchEvent}
    (tracks : Tracks setup state)
    (stepEq : state.step setup event = some next) :
    Tracks setup next := by
  cases event with
  | change =>
      cases stepEq
      exact tracks.change
  | pass ms =>
      cases stepEq
      exact tracks.pass ms
  | poll =>
      rw [WatchState.step] at stepEq
      split at stepEq
      case isTrue polling =>
          cases stepEq
          exact tracks.poll polling
      case isFalse => cases stepEq
  | fire =>
      rw [WatchState.step] at stepEq
      split at stepEq
      case isTrue due =>
          cases stepEq
          exact tracks.fire due
      case isFalse => cases stepEq
  | refresh =>
      cases stepEq
      exact tracks.refresh
  | dispose =>
      cases stepEq
      exact tracks.dispose

end Tracks

theorem tracks_of_reaches
    {setup : WatchSetup} {state : WatchState}
    (reaches : (watcher setup).Reaches state) :
    Tracks setup state :=
  reaches.invariant (tracks_create setup) fun _ _ _ tracks _ stepEq => tracks.step stepEq

/-- A directory whose one file has one byte, which is another one after each change. -/
def oneFileSetup : WatchSetup where
  roots := [text "/app"]
  resolved := by decide
  debounceMs := .finite 100
  startupIgnoreMs := .finite 0
  createdAt := 0
  history version _ :=
    .directory [text "a.js"] fun _ => .file ⟨text "7", [BitVec.ofNat 8 version]⟩

/-- In every run each call follows a detection of its own, and each detection a change. -/
theorem justified_of_reaches
    {setup : WatchSetup} {state : WatchState}
    (reaches : (watcher setup).Reaches state) :
    Justified setup state.log :=
  (tracks_of_reaches reaches).justified

/-- The program is called for a change. -/
theorem justified_of_reaches_call :
    ∃ state,
      (watcher oneFileSetup).runFrom (fun _ _ => True) (watcher oneFileSetup).start
          [.change, .poll, .pass 100, .fire] = some state ∧
        Justified oneFileSetup state.log :=
  ⟨_, rfl, justified_of_reaches
    (Machine.reachesUnder_of_run [.change, .poll, .pass 100, .fire] rfl)⟩

/-! ## Changes that become known -/

/-- Up to a number of changes the files have new fingerprints after each change. -/
def Fresh (setup : WatchSetup) (version : Nat) : Prop :=
  ∀ earlier later, earlier < later → later ≤ version →
    ¬ SameFiles (setup.snapshotAt earlier) (setup.snapshotAt later)

/-- The watcher is refreshed only when the program knows the files as they are. -/
def RefreshesKnown (state : WatchState) : WatchEvent → Prop
  | .refresh => state.known = state.version
  | _ => True

instance (state : WatchState) : (event : WatchEvent) → Decidable (RefreshesKnown state event)
  | .refresh => inferInstanceAs (Decidable (state.known = state.version))
  | .change | .pass _ | .poll | .fire | .dispose => isTrue trivial

/-- Without a timer the program knows what the watcher has looked at. -/
def KnowsLooked (setup : WatchSetup) (state : WatchState) : Prop :=
  Fresh setup state.version → state.restartTimer = none → state.polling = true →
    state.lookedAt ≤ state.known

section Known

variable {setup : WatchSetup} {state : WatchState}

/-- A look that finds nothing has looked at the same number of changes as the last one. -/
theorem Tracks.lookedAt_eq
    (tracks : Tracks setup state)
    (fresh : Fresh setup state.version)
    (same : SameFiles (setup.snapshotAt state.lookedAt) (setup.snapshotAt state.version)) :
    state.lookedAt = state.version := by
  apply Nat.le_antisymm tracks.looked
  apply Nat.le_of_not_lt
  intro changed
  exact fresh _ _ changed (Nat.le_refl _) same

theorem KnowsLooked.poll
    (tracks : Tracks setup state)
    (knows : KnowsLooked setup state) :
    KnowsLooked setup (state.poll setup) := by
  by_cases ready : state.watchReadyAt ≤ state.now
  · rcases poll_cases setup tracks.previous ready with ⟨same, looked⟩ | ⟨file, changed, looked⟩
    · rw [looked]
      intro fresh unset polls
      have quiet := knows fresh unset polls
      rwa [tracks.lookedAt_eq fresh same] at quiet
    · rw [looked]
      intro _ unset
      cases unset
  · rw [WatchState.poll, if_pos (Nat.not_le.mp ready)]
    exact knows

theorem KnowsLooked.step
    {next : WatchState} {event : WatchEvent}
    (tracks : Tracks setup state)
    (knows : KnowsLooked setup state)
    (allowed : RefreshesKnown state event)
    (stepEq : state.step setup event = some next) :
    KnowsLooked setup next := by
  cases event with
  | change =>
      cases stepEq
      intro fresh
      apply knows
      intro earlier later before within
      exact fresh earlier later before (Nat.le_succ_of_le within)
  | pass ms =>
      cases stepEq
      exact knows
  | poll =>
      rw [WatchState.step] at stepEq
      split at stepEq
      case isTrue =>
          cases stepEq
          exact knows.poll tracks
      case isFalse => cases stepEq
  | fire =>
      rw [WatchState.step] at stepEq
      split at stepEq
      case isTrue =>
          cases stepEq
          exact fun _ _ _ => tracks.looked
      case isFalse => cases stepEq
  | refresh =>
      cases stepEq
      exact fun _ _ _ => Nat.le_of_eq allowed.symm
  | dispose =>
      cases stepEq
      intro _ _ polls
      cases polls

theorem knowsLooked_of_reachesUnder
    (reaches : (watcher setup).ReachesUnder RefreshesKnown state) :
    KnowsLooked setup state :=
  reaches.invariant_with (fun _ before => tracks_of_reaches before.reaches)
    (fun _ _ _ => Nat.le_refl _)
    fun _ _ _ tracks knows allowed stepEq => knows.step tracks allowed stepEq

end Known

/-- A timer that is set runs out, and the program then knows the files as they are. -/
theorem exists_fired
    {setup : WatchSetup} {state : WatchState} {due : Nat}
    (set : state.restartTimer = some due)
    {wait : Nat}
    (reached : due ≤ state.now + wait) :
    ∃ final,
      (watcher setup).runFrom (fun _ _ => True) state [.pass wait, .fire] = some final ∧
        final.restartTimer = none ∧ final.known = state.version := by
  refine ⟨{ state with now := state.now + wait }.fire, ?_, rfl, rfl⟩
  have runsOut : (state.restartTimer.any fun due => decide (due ≤ state.now + wait)) = true := by
    rw [set]
    exact decide_eq_true reached
  rw [Machine.runFrom, if_pos trivial]
  change ((watcher setup).step { state with now := state.now + wait } .fire).bind _ = _
  change (if _ then _ else _ : Option WatchState).bind _ = _
  rw [if_pos runsOut]
  rfl

/-- Where the watcher is refreshed only when the program knows the files: after every look
past the first moments either the program knows the files as they are, or a timer is set
that runs out in time and has the program called with them. -/
theorem upToDate_of_poll
    {setup : WatchSetup} {state : WatchState}
    (reaches : (watcher setup).ReachesUnder RefreshesKnown state)
    (fresh : Fresh setup state.version)
    (polling : state.polling = true)
    (ready : state.watchReadyAt ≤ state.now) :
    ∃ next, (watcher setup).step state .poll = some next ∧ next.version = state.version ∧
      (next.restartTimer = none ∧ next.known = state.version ∨
        ∃ due, next.restartTimer = some due ∧ due ≤ next.now + setup.debounce ∧
          ∀ wait, due ≤ next.now + wait →
            ∃ final,
              (watcher setup).runFrom (fun _ _ => True) next [.pass wait, .fire] = some final ∧
                final.restartTimer = none ∧ final.known = state.version) := by
  have tracks := tracks_of_reaches reaches.reaches
  have polled : (watcher setup).step state .poll = some (state.poll setup) := if_pos polling
  have after := tracks.poll polling
  have knows := (knowsLooked_of_reachesUnder reaches).poll tracks
  have same : (state.poll setup).version = state.version ∧
      (state.poll setup).lookedAt = state.version ∧ (state.poll setup).polling = true := by
    rcases poll_cases setup tracks.previous ready with ⟨-, looked⟩ | ⟨_, -, looked⟩
    · rw [looked]
      exact ⟨rfl, rfl, polling⟩
    · rw [looked]
      exact ⟨rfl, rfl, polling⟩
  obtain ⟨same, isLook, polls⟩ := same
  refine ⟨_, polled, same, ?_⟩
  cases set : (state.poll setup).restartTimer with
  | none =>
      have quiet := knows (same.symm ▸ fresh) set polls
      have told := after.told
      rw [isLook] at quiet
      rw [same] at told
      exact .inl ⟨rfl, Nat.le_antisymm told quiet⟩
  | some due =>
      obtain ⟨_, _, _, _, _, _, -, -, rfl, past, -⟩ := after.armed due set
      refine .inr ⟨_, rfl, Nat.add_le_add_right past _, fun wait reached => ?_⟩
      rw [← same]
      exact exists_fired set reached

/-- One change of the file after a refresh. -/
theorem upToDate_of_poll_change :
    ∃ next, (watcher oneFileSetup).step
        { createDevWatchController oneFileSetup with
          version := 1
          log := [.refreshed 0] } .poll = some next ∧
      next.version = 1 ∧
      (next.restartTimer = none ∧ next.known = 1 ∨
        ∃ due, next.restartTimer = some due ∧ due ≤ next.now + oneFileSetup.debounce ∧
          ∀ wait, due ≤ next.now + wait →
            ∃ final,
              (watcher oneFileSetup).runFrom (fun _ _ => True) next [.pass wait, .fire] =
                  some final ∧
                final.restartTimer = none ∧ final.known = 1) := by
  refine upToDate_of_poll (Machine.reachesUnder_of_run [.refresh, .change] rfl) ?_ rfl
    (Nat.le_refl _)
  intro earlier later before within same
  obtain rfl : later = 1 := Nat.le_antisymm within (Nat.one_le_of_lt before)
  obtain rfl : earlier = 0 := Nat.lt_one_iff.mp before
  exact absurd (same (text "/app/a.js")) (by decide)

/-- A byte that is replaced in a watched file is found by the next look past the first
moments, whether the time of the file changes or not. -/
theorem detects_replaced_byte
    {setup : WatchSetup} {state : WatchState}
    (reaches : (watcher setup).Reaches state)
    (polling : state.polling = true)
    (ready : state.watchReadyAt ≤ state.now)
    (oneBefore : OneFileEach (watched setup.roots (setup.history state.lookedAt)))
    (oneAfter : OneFileEach (watched setup.roots (setup.history state.version)))
    {path mtimeMs laterMs : Text} {front back : List (BitVec 8)} {byte other : BitVec 8}
    (before : (path, ⟨mtimeMs, front ++ byte :: back⟩) ∈
      watched setup.roots (setup.history state.lookedAt))
    (after : (path, ⟨laterMs, front ++ other :: back⟩) ∈
      watched setup.roots (setup.history state.version))
    (different : byte ≠ other) :
    ∃ next changedFile, (watcher setup).step state .poll = some next ∧
      next.pendingFile = some changedFile ∧
        next.restartTimer = some (state.now + setup.debounce) := by
  have tracks := tracks_of_reaches reaches
  have polled : (watcher setup).step state .poll = some (state.poll setup) := if_pos polling
  rcases poll_cases setup tracks.previous ready with ⟨same, -⟩ | ⟨file, -, looked⟩
  · have prints := same path
    rw [WatchSetup.snapshotAt, WatchSetup.snapshotAt, get_snapshotWatchedFiles oneBefore before,
      get_snapshotWatchedFiles oneAfter after] at prints
    exact absurd (Option.some.inj prints) 
      (fingerprint_replace_ne mtimeMs laterMs front back different)
  · refine ⟨_, file, polled, ?_, ?_⟩
    · rw [looked]
    · rw [looked]

/-- The one byte of a file. -/
theorem detects_replaced_byte_change :
    ∃ next changedFile, (watcher oneFileSetup).step
        { createDevWatchController oneFileSetup with version := 1 } .poll = some next ∧
      next.pendingFile = some changedFile ∧
        next.restartTimer = some (0 + oneFileSetup.debounce) := by
  have alone : ∀ version, watched oneFileSetup.roots (oneFileSetup.history version) =
      [(text "/app/a.js", ⟨text "7", [BitVec.ofNat 8 version]⟩)] := fun _ => rfl
  have one : ∀ version,
      OneFileEach (watched oneFileSetup.roots (oneFileSetup.history version)) := by
    intro version path left right isLeft isRight
    rw [alone, List.mem_singleton] at isLeft isRight
    exact (Prod.mk.inj (isLeft.trans isRight.symm)).2
  exact @detects_replaced_byte _ _ (Machine.reachesUnder_of_run [.change] rfl) rfl (Nat.le_refl _)
    (one 0) (one 1) (text "/app/a.js") (text "7") (text "7") [] [] 0 1 (List.mem_singleton.mpr rfl)
    (List.mem_singleton.mpr rfl) (by decide)

end DevWatch
end HttpNative
