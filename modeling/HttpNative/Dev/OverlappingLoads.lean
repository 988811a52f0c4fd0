import HttpNative.Dev.LoadEntry
import Mathlib.Data.List.Basic

/-!
# Loads that overlap

Each load puts the context back that it found. The contexts form a stack as long as
the loads end in the reverse order of their start, and only then is the context from
before the first call back in the end. In the same way each of the other shared
variables asks for a condition on the steps, and under these conditions the loads
leave behind what they should.
-/

namespace HttpNative
namespace DevServer

variable {App : Type}

namespace State

/-- An application is taken while the context of its load is in force, no server is
being started, `close` has not been called, and no application of a later load was
taken; one that is not taken is the first one of its load. -/
def MayApply (state : State App) (version : Nat) (accepted : Bool) : Prop :=
  state.context = some version ∧
    if accepted then
      state.starting = [] ∧ state.closed = false ∧
        ∀ entry ∈ state.applied, entry.1 ≤ version
    else
      ∀ entry ∈ state.applied, entry.1 ≠ version

instance (state : State App) (version : Nat) (accepted : Bool) :
    Decidable (state.MayApply version accepted) :=
  inferInstanceAs (Decidable (state.context = some version ∧
    if accepted then
      state.starting = [] ∧ state.closed = false ∧
        ∀ entry ∈ state.applied, entry.1 ≤ version
    else
      ∀ entry ∈ state.applied, entry.1 ≠ version))

/-- The steps that keep out of the way of other loads. -/
def Careful (state : State App) : Event App → Prop
  | .load => True
  | .reload => True
  | .listen caller _ accepted => state.MayApply caller accepted
  | .nativeStart _ succeeds => succeeds = true ∨ state.succeeded = []
  | .assign _ => True
  | .imported version exported accepted =>
      state.observedSelfStart = true ∨ state.MayApply version (exported.isSome && accepted)
  | .succeed version =>
      state.context = some version ∧ ∃ entry ∈ state.applied, version ≤ entry.1
  | .fail version =>
      state.context = some version ∧ ∀ entry ∈ state.applied, entry.1 ≠ version
  | .callbackThrows _ => False
  | .close => state.starting = []
  | .closeServer stops => stops = true

instance (state : State App) : (event : Event App) → Decidable (state.Careful event)
  | .load => inferInstanceAs (Decidable True)
  | .reload => inferInstanceAs (Decidable True)
  | .listen caller _ accepted => inferInstanceAs (Decidable (state.MayApply caller accepted))
  | .nativeStart _ succeeds =>
      have : Decidable (state.succeeded = []) := decidable_of_iff _ List.isEmpty_iff
      inferInstanceAs (Decidable (succeeds = true ∨ state.succeeded = []))
  | .assign _ => inferInstanceAs (Decidable True)
  | .imported version exported accepted =>
      inferInstanceAs (Decidable
        (state.observedSelfStart = true ∨ state.MayApply version (exported.isSome && accepted)))
  | .succeed version =>
      inferInstanceAs (Decidable
        (state.context = some version ∧ ∃ entry ∈ state.applied, version ≤ entry.1))
  | .fail version =>
      inferInstanceAs (Decidable
        (state.context = some version ∧ ∀ entry ∈ state.applied, entry.1 ≠ version))
  | .callbackThrows _ => inferInstanceAs (Decidable False)
  | .close =>
      have : Decidable (state.starting = []) := decidable_of_iff _ List.isEmpty_iff
      inferInstanceAs (Decidable (state.starting = []))
  | .closeServer stops => inferInstanceAs (Decidable (stops = true))

/-! ## The stack of contexts -/

/-- Each load holds the context that was in force before it. -/
def Stacked : Option Nat → List (Load App) → Prop
  | context, [] => context = none
  | context, load :: loads => context = some load.version ∧ Stacked load.previousContext loads

theorem Stacked.map
    {context : Option Nat} {loads : List (Load App)}
    {change : Load App → Load App}
    (stacked : Stacked context loads)
    (version : ∀ load, (change load).version = load.version)
    (previous : ∀ load, (change load).previousContext = load.previousContext) :
    Stacked context (loads.map change) := by
  induction loads generalizing context with
  | nil => exact stacked
  | cons load loads inductionHypothesis =>
      obtain ⟨inForce, rest⟩ := stacked
      refine ⟨inForce.trans (congrArg some (version load).symm), ?_⟩
      rw [previous]
      exact inductionHypothesis rest

/-- The load whose context is in force began last. -/
theorem Stacked.exists_eq_cons
    {version : Nat} {loads : List (Load App)}
    (stacked : Stacked (some version) loads) :
    ∃ load rest, loads = load :: rest ∧ load.version = version ∧
      Stacked load.previousContext rest := by
  cases loads with
  | nil => cases stacked
  | cons load rest =>
      obtain ⟨inForce, below⟩ := stacked
      exact ⟨load, rest, rfl, (Option.some.inj inForce).symm, below⟩

/-! ## What holds in every state -/

/-- The versions of the loads under way, the last one first. -/
def versions (state : State App) : List Nat :=
  state.pending.map Load.version

/-- The loads under way, and the counters. -/
structure LoadsSound (state : State App) : Prop where
  stacked : Stacked state.context state.pending
  decreasing : state.versions.Pairwise fun newer older => older < newer
  known : ∀ version ∈ state.versions, 0 < version ∧ version ≤ state.currentImportVersion
  watched : state.watching = true → 0 < state.currentImportVersion
  returned : state.returned = true → state.watching = true
  initialFirst : ∀ load ∈ state.pending, load.initial = true →
    state.watching = false ∧ state.pending.length = 1
  unwatched : state.watching = false → state.succeeded = []
  counted : state.revision = state.succeeded.length

/-- The applications that were taken, and the loads that succeeded. -/
structure OutcomesSound (state : State App) : Prop where
  newestFirst : state.applied.Pairwise fun newer older => older.1 ≤ newer.1
  known : ∀ entry ∈ state.applied, entry.1 ≤ state.currentImportVersion
  kept : ∀ entry ∈ state.applied,
    entry.1 ∈ state.versions ∨ ∃ success ∈ state.succeeded, success.1 = entry.1
  backed : ∀ success ∈ state.succeeded, ∃ entry ∈ state.applied, success.1 ≤ entry.1
  distinct : ∀ success ∈ state.succeeded, success.1 ∉ state.versions
  loads : ∀ entry ∈ state.applied.head?, ∀ load ∈ state.pending,
    load.version = entry.1 → load.loadedApp = some entry.2
  successes : ∀ entry ∈ state.applied.head?, ∀ success ∈ state.succeeded,
    success.1 = entry.1 → success.2 = some entry.2

end State

/-- The part of a state that concerns the server. -/
structure Service (App : Type) where
  currentServer : Option (Nat × App)
  starting : List (Start App)
  startedServers : Nat
  running : List Nat
  applied : List (Nat × App)
  closed : Bool
  closing : Option (Option Nat)

/-- The server is started once, serves what was taken last, and is closed once. -/
inductive Service.Sound : Service App → Prop
  | idle : Service.Sound ⟨none, [], 0, [], [], false, none⟩
  | starting (version : Nat) (app : App) (own : Bool) :
      Service.Sound
        ⟨none, [⟨some version, app, own, none⟩], 0, [], [(version, app)], false, none⟩
  | started (version : Nat) (app : App) (own : Bool) :
      Service.Sound
        ⟨none, [⟨some version, app, own, some 0⟩], 1, [0], [(version, app)], false, none⟩
  | serving (version : Nat) (app : App) (older : List (Nat × App)) :
      Service.Sound ⟨some (0, app), [], 1, [0], (version, app) :: older, false, none⟩
  | closing (version : Nat) (app : App) (older : List (Nat × App)) :
      Service.Sound ⟨some (0, app), [], 1, [0], (version, app) :: older, true, some (some 0)⟩
  | closed (startedServers : Nat) (applied : List (Nat × App)) (closing : Option (Option Nat)) :
      startedServers ≤ 1 →
      Service.Sound ⟨none, [], startedServers, [], applied, true, closing⟩

/-- At most one server is being started, for the one application that was taken. -/
theorem Service.Sound.exists_of_start
    {service : Service App} {index : Nat} {start : Start App}
    (sound : service.Sound)
    (found : service.starting[index]? = some start) :
    ∃ version app own,
      index = 0 ∧
      (start = ⟨some version, app, own, none⟩ ∧
          service = ⟨none, [start], 0, [], [(version, app)], false, none⟩ ∨
        start = ⟨some version, app, own, some 0⟩ ∧
          service = ⟨none, [start], 1, [0], [(version, app)], false, none⟩) := by
  have single : ∀ {one : Start App}, [one][index]? = some start → index = 0 ∧ one = start := by
    intro one isOne
    obtain ⟨inside, rfl⟩ := List.getElem?_eq_some_iff.mp isOne
    cases Nat.lt_one_iff.mp inside
    exact ⟨rfl, rfl⟩
  cases sound with
  | starting version app own =>
      obtain ⟨isFirst, rfl⟩ := single found
      exact ⟨version, app, own, isFirst, .inl ⟨rfl, rfl⟩⟩
  | started version app own =>
      obtain ⟨isFirst, rfl⟩ := single found
      exact ⟨version, app, own, isFirst, .inr ⟨rfl, rfl⟩⟩
  | idle => cases found
  | serving => cases found
  | closing => cases found
  | closed => cases found

namespace State

def service (state : State App) : Service App where
  currentServer := state.currentServer
  starting := state.starting
  startedServers := state.startedServers
  running := state.running
  applied := state.applied
  closed := state.closed
  closing := state.closing

structure Sound (state : State App) : Prop where
  loads : state.LoadsSound
  outcomes : state.OutcomesSound
  service : state.service.Sound

theorem initial_sound : (initial : State App).Sound where
  loads :=
    { stacked := rfl
      decreasing := .nil
      known := by simp [initial, versions]
      watched := by simp [initial]
      returned := by simp [initial]
      initialFirst := by simp [initial]
      unwatched := fun _ => rfl
      counted := rfl }
  outcomes :=
    { newestFirst := .nil
      known := by simp [initial]
      kept := by simp [initial]
      backed := by simp [initial]
      distinct := by simp [initial]
      loads := by simp [initial]
      successes := by simp [initial] }
  service := .idle

/-! ## Changes to a load -/

/-- A load is still the same call. -/
structure Keeps (change : Load App → Load App) : Prop where
  version : ∀ load, (change load).version = load.version
  initial : ∀ load, (change load).initial = load.initial
  previousContext : ∀ load, (change load).previousContext = load.previousContext

theorem Keeps.only
    {change : Load App → Load App}
    (keeps : Keeps change)
    (version : Nat) :
    Keeps fun load => if load.version = version then change load else load where
  version load := by
    split
    · exact keeps.version load
    · rfl
  initial load := by
    split
    · exact keeps.initial load
    · rfl
  previousContext load := by
    split
    · exact keeps.previousContext load
    · rfl

theorem versions_updateLoad
    (state : State App)
    (version : Nat)
    {change : Load App → Load App}
    (keeps : Keeps change) :
    (state.updateLoad version change).versions = state.versions := by
  unfold versions updateLoad
  rw [List.map_map]
  exact List.map_congr_left fun load _ => (keeps.only version).version load

theorem LoadsSound.updateLoad
    {state : State App} {change : Load App → Load App}
    (sound : state.LoadsSound)
    (version : Nat)
    (keeps : Keeps change) :
    (state.updateLoad version change).LoadsSound := by
  have sameVersions := versions_updateLoad state version keeps
  refine { sound with stacked := ?_, decreasing := ?_, known := ?_, initialFirst := ?_ }
  · exact sound.stacked.map (keeps.only version).version (keeps.only version).previousContext
  · rw [sameVersions]
    exact sound.decreasing
  · rw [sameVersions]
    exact sound.known
  · intro load isLoad isInitial
    obtain ⟨former, isFormer, rfl⟩ := List.mem_map.mp isLoad
    rw [(keeps.only version).initial] at isInitial
    obtain ⟨notWatching, alone⟩ := sound.initialFirst former isFormer isInitial
    exact ⟨notWatching, List.length_map _ |>.trans alone⟩

theorem OutcomesSound.updateLoad
    {state : State App} {change : Load App → Load App} {version : Nat}
    (sound : state.OutcomesSound)
    (keeps : Keeps change)
    (agrees : ∀ entry ∈ state.applied.head?, entry.1 = version → ∀ load ∈ state.pending,
      load.version = version → (change load).loadedApp = some entry.2) :
    (state.updateLoad version change).OutcomesSound := by
  have sameVersions := versions_updateLoad state version keeps
  refine { sound with kept := ?_, distinct := ?_, loads := ?_ }
  · rw [sameVersions]
    exact sound.kept
  · rw [sameVersions]
    exact sound.distinct
  · intro entry isHead load isLoad ofEntry
    obtain ⟨former, isFormer, rfl⟩ := List.mem_map.mp isLoad
    rw [(keeps.only version).version] at ofEntry
    split
    case isTrue changed =>
        exact agrees entry isHead (ofEntry.symm.trans changed) former isFormer changed
    case isFalse => exact sound.loads entry isHead former isFormer ofEntry

theorem keeps_phase (phase : Phase) :
    Keeps fun load : Load App => { load with phase := phase } where
  version _ := rfl
  initial _ := rfl
  previousContext _ := rfl

theorem keeps_loadedApp (app : Option App) :
    Keeps fun load : Load App => { load with loadedApp := app } where
  version _ := rfl
  initial _ := rfl
  previousContext _ := rfl

theorem LoadsSound.setPhase
    {state : State App}
    (sound : state.LoadsSound)
    (version : Nat)
    (phase : Phase) :
    (state.setPhase version phase).LoadsSound :=
  sound.updateLoad version (keeps_phase phase)

theorem OutcomesSound.setPhase
    {state : State App}
    (sound : state.OutcomesSound)
    (version : Nat)
    (phase : Phase) :
    (state.setPhase version phase).OutcomesSound :=
  sound.updateLoad (keeps_phase phase) fun entry isHead ofEntry load isLoad ofLoad =>
    sound.loads entry isHead load isLoad (ofLoad.trans ofEntry.symm)

theorem Sound.setPhase
    {state : State App}
    (sound : state.Sound)
    (version : Nat)
    (phase : Phase) :
    (state.setPhase version phase).Sound where
  loads := sound.loads.setPhase version phase
  outcomes := sound.outcomes.setPhase version phase
  service := sound.service

/-- A load that has not applied an application may forget the one that it has. -/
theorem Sound.setLoadedApp
    {state : State App} {version : Nat}
    (sound : state.Sound)
    (notApplied : ∀ entry ∈ state.applied, entry.1 ≠ version)
    (app : Option App) :
    (state.updateLoad version fun load => { load with loadedApp := app }).Sound where
  loads := sound.loads.updateLoad version (keeps_loadedApp app)
  outcomes := sound.outcomes.updateLoad (keeps_loadedApp app)
    fun entry isHead ofEntry =>
      absurd ofEntry (notApplied entry (List.mem_of_mem_head? isHead))
  service := sound.service

/-! ## The begin and the end of a load -/

theorem LoadsSound.loadEntry
    {state : State App} {initial : Bool}
    (sound : state.LoadsSound)
    (first : initial = true → state.currentImportVersion = 0)
    (later : initial = false → state.watching = true) :
    (state.loadEntry initial).LoadsSound where
  stacked := ⟨rfl, sound.stacked⟩
  decreasing := by
    refine List.pairwise_cons.mpr ⟨?_, sound.decreasing⟩
    intro version isVersion
    exact Nat.lt_succ_of_le (sound.known version isVersion).2
  known := by
    intro version isVersion
    rcases List.mem_cons.mp isVersion with rfl | isOlder
    · exact ⟨Nat.succ_pos _, Nat.le_refl _⟩
    · obtain ⟨positive, bounded⟩ := sound.known version isOlder
      exact ⟨positive, Nat.le_succ_of_le bounded⟩
  watched _ := Nat.succ_pos _
  returned := sound.returned
  initialFirst := by
    -- The first load finds no other one, and no later one finds the first.
    intro load isLoad isInitial
    rcases List.mem_cons.mp isLoad with rfl | isOlder
    · have noLoad := first isInitial
      refine ⟨?_, ?_⟩
      · refine Bool.eq_false_iff.mpr fun isWatching => ?_
        exact Nat.ne_of_gt (sound.watched isWatching) noLoad
      · refine congrArg Nat.succ (List.length_eq_zero_iff.mpr ?_)
        refine List.eq_nil_iff_forall_not_mem.mpr fun load isOlder => ?_
        obtain ⟨positive, bounded⟩ := sound.known load.version (List.mem_map_of_mem isOlder)
        omega
    · obtain ⟨notWatching, alone⟩ := sound.initialFirst load isOlder isInitial
      cases initial with
      | true =>
          obtain ⟨positive, bounded⟩ := sound.known load.version (List.mem_map_of_mem isOlder)
          have noLoad := first rfl
          omega
      | false => exact absurd (later rfl) (Bool.eq_false_iff.mp notWatching)
  unwatched := sound.unwatched
  counted := sound.counted

theorem OutcomesSound.loadEntry
    {state : State App}
    (sound : state.OutcomesSound)
    (initial : Bool) :
    (state.loadEntry initial).OutcomesSound where
  newestFirst := sound.newestFirst
  known entry isEntry := Nat.le_succ_of_le (sound.known entry isEntry)
  kept entry isEntry := (sound.kept entry isEntry).imp_left (List.mem_cons_of_mem _)
  backed := sound.backed
  distinct := by
    intro success isSuccess isVersion
    rcases List.mem_cons.mp isVersion with isNew | isOlder
    · obtain ⟨entry, isEntry, less⟩ := sound.backed success isSuccess
      have bounded := sound.known entry isEntry
      change success.1 = state.currentImportVersion + 1 at isNew
      omega
    · exact sound.distinct success isSuccess isOlder
  loads := by
    intro entry isHead load isLoad ofEntry
    rcases List.mem_cons.mp isLoad with rfl | isOlder
    · have bounded := sound.known entry (List.mem_of_mem_head? isHead)
      change state.currentImportVersion + 1 = entry.1 at ofEntry
      omega
    · exact sound.loads entry isHead load isOlder ofEntry
  successes := sound.successes

theorem Sound.loadEntry
    {state : State App} {initial : Bool}
    (sound : state.Sound)
    (first : initial = true → state.currentImportVersion = 0)
    (later : initial = false → state.watching = true) :
    (state.loadEntry initial).Sound where
  loads := sound.loads.loadEntry first later
  outcomes := sound.outcomes.loadEntry initial
  service := sound.service

/-- A load that ends while its context is in force is the last one that began. -/
theorem LoadsSound.pending_eq
    {state : State App} {version : Nat} {load : Load App}
    (sound : state.LoadsSound)
    (inForce : state.context = some version)
    (found : state.find version = some load) :
    load.version = version ∧ state.pending = load :: (state.endLoad load).pending ∧
      Stacked load.previousContext (state.endLoad load).pending := by
  have stacked := sound.stacked
  rw [inForce] at stacked
  obtain ⟨last, rest, pendingEq, ofVersion, below⟩ := stacked.exists_eq_cons
  have same : last = load := by
    unfold find at found
    rw [pendingEq, List.find?_cons, decide_eq_true ofVersion] at found
    exact Option.some.inj found
  subst same
  have decreasing := sound.decreasing
  unfold versions at decreasing
  rw [pendingEq] at decreasing
  have older := (List.pairwise_cons.mp decreasing).1
  have restEq : (state.endLoad last).pending = rest := by
    unfold endLoad
    rw [pendingEq, List.filter_cons_of_neg (by simp)]
    refine List.filter_eq_self.mpr fun other isOther => ?_
    exact decide_eq_true (Nat.ne_of_lt (older other.version (List.mem_map_of_mem isOther)))
  rw [restEq]
  exact ⟨ofVersion, pendingEq, below⟩

theorem LoadsSound.versions_eq
    {state : State App} {version : Nat} {load : Load App}
    (sound : state.LoadsSound)
    (inForce : state.context = some version)
    (found : state.find version = some load) :
    state.versions = version :: (state.endLoad load).versions := by
  obtain ⟨ofVersion, pendingEq, -⟩ := sound.pending_eq inForce found
  unfold versions
  rw [pendingEq, List.map_cons, ofVersion]

/-- No load is under way besides the first one. -/
theorem LoadsSound.initial_alone
    {state : State App} {version : Nat} {load other : Load App}
    (sound : state.LoadsSound)
    (inForce : state.context = some version)
    (found : state.find version = some load)
    (isOther : other ∈ (state.endLoad load).pending) :
    other.initial = false := by
  obtain ⟨-, pendingEq, -⟩ := sound.pending_eq inForce found
  refine Bool.eq_false_iff.mpr fun isInitial => ?_
  have alone := (sound.initialFirst other
    (pendingEq ▸ List.mem_cons_of_mem _ isOther) isInitial).2
  rw [pendingEq, List.length_cons] at alone
  have others := List.length_pos_of_mem isOther
  omega

theorem LoadsSound.endLoad
    {state : State App} {version : Nat} {load : Load App}
    (sound : state.LoadsSound)
    (inForce : state.context = some version)
    (found : state.find version = some load) :
    (state.endLoad load).LoadsSound := by
  obtain ⟨-, -, below⟩ := sound.pending_eq inForce found
  have versionsEq := sound.versions_eq inForce found
  have decreasing := sound.decreasing
  have known := sound.known
  rw [versionsEq] at decreasing known
  refine { sound with stacked := below, decreasing := ?_, known := ?_, initialFirst := ?_ }
  · exact (List.pairwise_cons.mp decreasing).2
  · exact fun version isVersion => known version (List.mem_cons_of_mem _ isVersion)
  · intro other isOther isInitial
    exact absurd isInitial (Bool.eq_false_iff.mp (sound.initial_alone inForce found isOther))

theorem LoadsSound.succeed
    {state : State App} {version : Nat} {load : Load App}
    (sound : state.LoadsSound)
    (inForce : state.context = some version)
    (found : state.find version = some load) :
    (state.succeed load).LoadsSound := by
  obtain ⟨-, pendingEq, -⟩ := sound.pending_eq inForce found
  refine
    { sound.endLoad inForce found with
      watched := ?_
      returned := fun _ => rfl
      initialFirst := ?_
      unwatched := nofun
      counted := ?_ }
  · intro _
    obtain ⟨positive, bounded⟩ :=
      sound.known version (sound.versions_eq inForce found ▸ List.mem_cons_self)
    exact Nat.lt_of_lt_of_le positive bounded
  · intro other isOther isInitial
    exact absurd isInitial (Bool.eq_false_iff.mp (sound.initial_alone inForce found isOther))
  · change (if load.initial then 1 else state.revision + 1) = state.succeeded.length + 1
    split
    case isTrue isInitial =>
        have isPending : load ∈ state.pending := pendingEq ▸ List.mem_cons_self
        rw [sound.unwatched (sound.initialFirst load isPending isInitial).1]
        rfl
    case isFalse => rw [sound.counted]

theorem LoadsSound.fail
    {state : State App} {version : Nat} {load : Load App}
    (sound : state.LoadsSound)
    (inForce : state.context = some version)
    (found : state.find version = some load) :
    (state.fail load).LoadsSound := by
  refine
    { sound.endLoad inForce found with
      watched := ?_, returned := ?_, initialFirst := ?_, unwatched := ?_ }
  · intro _
    obtain ⟨positive, bounded⟩ :=
      sound.known version (sound.versions_eq inForce found ▸ List.mem_cons_self)
    exact Nat.lt_of_lt_of_le positive bounded
  · intro isReturned
    exact Bool.or_eq_true_iff.mpr (.inl (sound.returned isReturned))
  · intro other isOther isInitial
    exact absurd isInitial (Bool.eq_false_iff.mp (sound.initial_alone inForce found isOther))
  · intro notWatching
    exact sound.unwatched (Bool.or_eq_false_iff.mp notWatching).1

theorem OutcomesSound.succeed
    {state : State App} {version : Nat} {load : Load App}
    (sound : state.OutcomesSound)
    (loadsSound : state.LoadsSound)
    (inForce : state.context = some version)
    (found : state.find version = some load)
    (hasApplied : ∃ entry ∈ state.applied, version ≤ entry.1) :
    (state.succeed load).OutcomesSound := by
  obtain ⟨ofVersion, pendingEq, -⟩ := loadsSound.pending_eq inForce found
  have isPending : load ∈ state.pending := pendingEq ▸ List.mem_cons_self
  have versionsEq := loadsSound.versions_eq inForce found
  have decreasing := loadsSound.decreasing
  rw [versionsEq] at decreasing
  refine
    { sound with
      kept := ?_, backed := ?_, distinct := ?_, loads := ?_, successes := ?_ }
  · intro entry isEntry
    rcases sound.kept entry isEntry with isVersion | ⟨success, isSuccess, ofEntry⟩
    · rw [versionsEq] at isVersion
      rcases List.mem_cons.mp isVersion with same | isOlder
      · refine .inr ⟨(load.version, load.loadedApp), List.mem_cons_self, ?_⟩
        exact ofVersion.trans same.symm
      · exact .inl isOlder
    · exact .inr ⟨success, List.mem_cons_of_mem _ isSuccess, ofEntry⟩
  · intro success isSuccess
    rcases List.mem_cons.mp isSuccess with rfl | isOlder
    · exact ofVersion.symm ▸ hasApplied
    · exact sound.backed success isOlder
  · intro success isSuccess isVersion
    rcases List.mem_cons.mp isSuccess with rfl | isOlder
    · exact Nat.ne_of_lt ((List.pairwise_cons.mp decreasing).1 _ isVersion) ofVersion
    · exact sound.distinct success isOlder (versionsEq ▸ List.mem_cons_of_mem _ isVersion)
  · intro entry isHead other isOther ofEntry
    exact sound.loads entry isHead other (pendingEq ▸ List.mem_cons_of_mem _ isOther) ofEntry
  · intro entry isHead success isSuccess ofEntry
    rcases List.mem_cons.mp isSuccess with rfl | isOlder
    · exact sound.loads entry isHead load isPending ofEntry
    · exact sound.successes entry isHead success isOlder ofEntry

theorem OutcomesSound.fail
    {state : State App} {version : Nat} {load : Load App}
    (sound : state.OutcomesSound)
    (loadsSound : state.LoadsSound)
    (inForce : state.context = some version)
    (found : state.find version = some load)
    (notApplied : ∀ entry ∈ state.applied, entry.1 ≠ version) :
    (state.fail load).OutcomesSound := by
  obtain ⟨-, pendingEq, -⟩ := loadsSound.pending_eq inForce found
  have versionsEq := loadsSound.versions_eq inForce found
  refine { sound with kept := ?_, distinct := ?_, loads := ?_ }
  · intro entry isEntry
    refine (sound.kept entry isEntry).imp_left fun isVersion => ?_
    rw [versionsEq] at isVersion
    exact (List.mem_cons.mp isVersion).resolve_left (notApplied entry isEntry)
  · intro success isSuccess isVersion
    exact sound.distinct success isSuccess (versionsEq ▸ List.mem_cons_of_mem _ isVersion)
  · intro entry isHead other isOther ofEntry
    exact sound.loads entry isHead other (pendingEq ▸ List.mem_cons_of_mem _ isOther) ofEntry

/-! ## The server -/

/-- An application is taken for a load that is under way and the last one so far. -/
theorem OutcomesSound.take
    {state : State App} {version : Nat}
    (sound : state.OutcomesSound)
    (isPending : version ∈ state.versions)
    (bounded : version ≤ state.currentImportVersion)
    (last : ∀ entry ∈ state.applied, entry.1 ≤ version)
    (app : App) :
    State.OutcomesSound
      { state.updateLoad version fun load => { load with loadedApp := some app } with
        applied := (version, app) :: state.applied } := by
  have keeps := keeps_loadedApp (some app)
  have sameVersions := versions_updateLoad state version keeps
  refine
    { newestFirst := List.pairwise_cons.mpr ⟨last, sound.newestFirst⟩
      known := ?_, kept := ?_, backed := ?_, distinct := ?_, loads := ?_, successes := ?_ }
  · exact List.forall_mem_cons.mpr ⟨bounded, sound.known⟩
  · refine List.forall_mem_cons.mpr ⟨.inl (sameVersions.symm ▸ isPending), ?_⟩
    intro entry isOlder
    exact (sound.kept entry isOlder).imp_left fun isVersion => sameVersions.symm ▸ isVersion
  · intro success isSuccess
    obtain ⟨entry, isEntry, less⟩ := sound.backed success isSuccess
    exact ⟨entry, List.mem_cons_of_mem _ isEntry, less⟩
  · intro success isSuccess isVersion
    exact sound.distinct success isSuccess (sameVersions ▸ isVersion)
  · rintro entry ⟨⟩ load isLoad ofEntry
    obtain ⟨former, -, rfl⟩ := List.mem_map.mp isLoad
    rw [(keeps.only version).version] at ofEntry
    exact congrArg Load.loadedApp (if_pos ofEntry)
  · rintro entry ⟨⟩ success isSuccess ofEntry
    exact absurd (ofEntry ▸ isPending) (sound.distinct success isSuccess)

theorem service_applyApplication_none
    {state : State App}
    (noServer : state.service.currentServer = none)
    (version : Nat)
    (app : App)
    (own : Bool) :
    (state.applyApplication version app own).service =
      { state.service with
        starting := state.service.starting ++ [⟨some version, app, own, none⟩]
        applied := (version, app) :: state.service.applied } := by
  change state.currentServer = none at noServer
  unfold applyApplication
  simp only [noServer]
  rw [beginStart, service, service, noServer]

theorem service_applyApplication_some
    {state : State App} {server : Nat} {old : App}
    (hasServer : state.service.currentServer = some (server, old))
    (version : Nat)
    (app : App)
    (own : Bool) :
    (state.applyApplication version app own).service =
      { state.service with
        currentServer := some (server, app)
        applied := (version, app) :: state.service.applied } := by
  change state.currentServer = some (server, old) at hasServer
  unfold applyApplication
  simp only [hasServer]
  cases own with
  | true => rfl
  | false => rfl

/-- The server takes an application, or is started with it. -/
theorem service_applyApplication
    {state : State App}
    (sound : state.service.Sound)
    (noStart : state.service.starting = [])
    (notClosed : state.service.closed = false)
    (version : Nat)
    (app : App)
    (own : Bool) :
    (state.applyApplication version app own).service.Sound := by
  generalize serviceEq : state.service = service at sound noStart notClosed
  have serverEq := congrArg Service.currentServer serviceEq
  cases sound with
  | idle =>
      rw [service_applyApplication_none serverEq, serviceEq]
      exact .starting version app own
  | starting => cases noStart
  | started => cases noStart
  | serving former formerApp older =>
      rw [service_applyApplication_some serverEq, serviceEq]
      exact .serving version app _
  | closing => cases notClosed
  | closed => cases notClosed

theorem Sound.nativeStart
    {state : State App} {index : Nat} {start : Start App}
    (sound : state.Sound)
    (found : state.starting[index]? = some start)
    (notStarted : start.native = none)
    {succeeds : Bool}
    (careful : succeeds = true ∨ state.succeeded = []) :
    (state.nativeStart index start succeeds).Sound := by
  obtain ⟨version, app, own, rfl, ⟨rfl, serviceEq⟩ | ⟨rfl, -⟩⟩ :=
    sound.service.exists_of_start found
  · simp only [State.service, Service.mk.injEq] at serviceEq
    obtain ⟨serverEq, startingEq, startedEq, runningEq, appliedEq, closedEq, closingEq⟩ :=
      serviceEq
    cases succeeds with
    | true =>
        refine ⟨{ sound.loads with }, { sound.outcomes with }, ?_⟩
        have next : (state.nativeStart 0 ⟨some version, app, own, none⟩ true).service =
            ⟨none, [⟨some version, app, own, some 0⟩], 1, [0], [(version, app)], false, none⟩ := by
          simp only [State.nativeStart, if_true, State.service, serverEq, startingEq, startedEq,
            runningEq, appliedEq, closedEq, closingEq, List.set_cons_zero]
        rw [next]
        exact .started version app own
    | false =>
        have noSuccess := careful.resolve_left Bool.false_ne_true
        have without : State.Sound { state with starting := [], applied := [] } := by
          refine ⟨{ sound.loads with }, ?_, ?_⟩
          · refine
              { newestFirst := .nil
                known := ?_
                kept := ?_
                backed := ?_
                distinct := ?_
                loads := ?_
                successes := ?_ }
            all_goals simp [noSuccess]
          · simp only [State.service, serverEq, startedEq, runningEq, closedEq, closingEq]
            exact .idle
        have next : state.nativeStart 0 ⟨some version, app, own, none⟩ false =
            if own then
              State.setPhase { state with starting := [], applied := [] } version .refused
            else
              { state with starting := [], applied := [] } := by
          cases own <;> simp [State.nativeStart, startingEq, appliedEq]
        rw [next]
        split
        · exact without.setPhase version .refused
        · exact without
  · cases notStarted

theorem Sound.assign
    {state : State App} {index server : Nat} {start : Start App}
    (sound : state.Sound)
    (found : state.starting[index]? = some start)
    (isStarted : start.native = some server) :
    (state.assign index start server).Sound := by
  obtain ⟨version, app, own, rfl, ⟨rfl, -⟩ | ⟨rfl, serviceEq⟩⟩ :=
    sound.service.exists_of_start found
  · cases isStarted
  · cases isStarted
    simp only [State.service, Service.mk.injEq] at serviceEq
    obtain ⟨-, startingEq, startedEq, runningEq, appliedEq, closedEq, closingEq⟩ := serviceEq
    have assigned : State.Sound { state with starting := [], currentServer := some (0, app) } := by
      refine ⟨{ sound.loads with }, { sound.outcomes with }, ?_⟩
      simp only [State.service, startedEq, runningEq, appliedEq, closedEq, closingEq]
      exact .serving version app []
    have next : state.assign 0 ⟨some version, app, own, some 0⟩ 0 =
        if own then
          State.setPhase
            { state with starting := [], currentServer := some (0, app) } version .applied
        else
          { state with starting := [], currentServer := some (0, app) } := by
      simp only [State.assign, startingEq, List.eraseIdx_cons_zero]
    rw [next]
    split
    · exact assigned.setPhase version .applied
    · exact assigned

theorem Sound.close
    {state : State App}
    (sound : state.Sound)
    (noStart : state.starting = []) :
    state.close.Sound := by
  unfold State.close
  split
  case isTrue => exact sound
  case isFalse notClosed =>
      refine ⟨{ sound.loads with }, { sound.outcomes with }, ?_⟩
      have serviceSound := sound.service
      generalize serviceEq : state.service = before at serviceSound
      cases serviceSound with
      | idle =>
          simp only [State.service, Service.mk.injEq] at serviceEq
          simp only [State.service, serviceEq]
          exact .closed 0 [] _ (Nat.zero_le _)
      | serving version app older =>
          simp only [State.service, Service.mk.injEq] at serviceEq
          simp only [State.service, serviceEq]
          exact .closing version app older
      | starting => cases (congrArg Service.starting serviceEq).symm.trans noStart
      | started => cases (congrArg Service.starting serviceEq).symm.trans noStart
      | closing => exact absurd (congrArg Service.closed serviceEq) notClosed
      | closed => exact absurd (congrArg Service.closed serviceEq) notClosed

theorem Sound.closeServer
    {state : State App} {server : Option Nat}
    (sound : state.Sound)
    (isClosing : state.closing = some server) :
    (state.closeServer server true).Sound := by
  refine ⟨{ sound.loads with }, { sound.outcomes with }, ?_⟩
  have serviceSound := sound.service
  generalize serviceEq : state.service = before at serviceSound
  have closingEq := (congrArg Service.closing serviceEq).symm.trans isClosing
  cases serviceSound with
  | closing version app older =>
      cases closingEq
      simp only [State.service, Service.mk.injEq] at serviceEq
      simp only [State.service, State.closeServer, serviceEq]
      exact .closed 1 _ none (Nat.le_refl _)
  | closed startedServers applied closing bounded =>
      simp only [State.service, Service.mk.injEq] at serviceEq
      simp only [State.service, State.closeServer, serviceEq]
      exact .closed startedServers applied none bounded
  | idle => cases closingEq
  | serving => cases closingEq
  | starting => cases closingEq
  | started => cases closingEq

/-! ## Applications -/

theorem LoadsSound.applyApplication
    {state : State App}
    (sound : state.LoadsSound)
    (version : Nat)
    (app : App)
    (own : Bool) :
    (state.applyApplication version app own).LoadsSound := by
  unfold State.applyApplication
  dsimp only
  split
  · exact { sound with }
  · split
    · exact { sound.setPhase version .applied with }
    · exact { sound with }

theorem OutcomesSound.applyApplication
    {state : State App} {version : Nat} {app : App}
    (sound : State.OutcomesSound { state with applied := (version, app) :: state.applied })
    (own : Bool) :
    (state.applyApplication version app own).OutcomesSound := by
  unfold State.applyApplication
  dsimp only
  split
  · exact { sound with }
  · split
    · exact { sound.setPhase version .applied with }
    · exact { sound with }

/-- What a load may apply has been taken, with the version known to be pending. -/
theorem Sound.take
    {state : State App} {version : Nat}
    (sound : state.Sound)
    (mayApply : state.MayApply version true)
    (app : App) :
    State.OutcomesSound
      { state.updateLoad version fun load => { load with loadedApp := some app } with
        applied := (version, app) :: state.applied } := by
  obtain ⟨inForce, -, -, last⟩ := mayApply
  have stacked := sound.loads.stacked
  rw [inForce] at stacked
  obtain ⟨load, rest, pendingEq, ofVersion, -⟩ := stacked.exists_eq_cons
  have isPending : version ∈ state.versions := by
    unfold versions
    rw [pendingEq, ← ofVersion]
    exact List.mem_cons_self
  exact sound.outcomes.take isPending (sound.loads.known version isPending).2 last app

theorem Sound.registerAppListen
    {state : State App} {version : Nat} {accepted : Bool}
    (sound : state.Sound)
    (mayApply : state.MayApply version accepted)
    (app : App) :
    (state.registerAppListen version app accepted).Sound := by
  have observed : State.Sound { state with observedSelfStart := true } :=
    ⟨{ sound.loads with }, { sound.outcomes with }, sound.service⟩
  cases accepted with
  | true =>
      refine ⟨?_, ?_, ?_⟩
      · exact (observed.loads.updateLoad version
          (keeps_loadedApp _)).applyApplication version app false
      · apply OutcomesSound.applyApplication
        exact { sound.take mayApply app with }
      · apply service_applyApplication
        · exact sound.service
        · exact mayApply.2.1
        · exact mayApply.2.2.1
  | false => exact observed.setLoadedApp mayApply.2 (some app)

theorem Sound.imported
    {state : State App} {version : Nat} {exported : Option App} {accepted : Bool}
    (sound : state.Sound)
    (careful : state.observedSelfStart = true ∨
      state.MayApply version (exported.isSome && accepted)) :
    (state.imported version exported accepted).Sound := by
  unfold State.imported
  split
  case isTrue => exact sound.setPhase version .applied
  case isFalse notObserved =>
      have mayApply := careful.resolve_left notObserved
      cases exported with
      | none => exact (sound.setLoadedApp mayApply.2 none).setPhase version .refused
      | some app =>
          cases accepted with
          | false => exact (sound.setLoadedApp mayApply.2 (some app)).setPhase version .refused
          | true =>
              refine ⟨?_, ?_, ?_⟩
              · exact ((sound.loads.updateLoad version (keeps_loadedApp _)).setPhase
                  version .applying).applyApplication version app true
              · apply OutcomesSound.applyApplication
                exact { (sound.take mayApply app).setPhase version .applying with }
              · apply service_applyApplication
                · exact sound.service
                · exact mayApply.2.1
                · exact mayApply.2.2.1

/-! ## Runs -/

theorem Sound.step
    {outer : Bool} {state next : State App} {event : Event App}
    (sound : state.Sound)
    (careful : state.Careful event)
    (stepped : state.step outer event = some next) :
    next.Sound := by
  cases event with
  | load =>
      obtain ⟨first, ⟨⟩⟩ := Option.ite_none_right_eq_some.mp stepped
      exact sound.loadEntry (fun _ => first) nofun
  | reload =>
      obtain ⟨allowed, ⟨⟩⟩ := Option.ite_none_right_eq_some.mp stepped
      refine sound.loadEntry nofun fun _ => ?_
      rcases Bool.or_eq_true_iff.mp (Bool.and_eq_true_iff.mp allowed).1 with watching | returned
      · exact watching
      · exact sound.loads.returned returned
  | listen caller app accepted =>
      cases stepped
      unfold listen
      rw [careful.1]
      exact sound.registerAppListen careful app
  | nativeStart index succeeds =>
      obtain ⟨start, found, taken⟩ := Option.bind_eq_some_iff.mp stepped
      obtain ⟨notStarted, ⟨⟩⟩ := Option.ite_none_right_eq_some.mp taken
      exact sound.nativeStart found (Option.isNone_iff_eq_none.mp notStarted) careful
  | assign index =>
      obtain ⟨start, found, taken⟩ := Option.bind_eq_some_iff.mp stepped
      obtain ⟨server, isStarted, rfl⟩ := Option.map_eq_some_iff.mp taken
      exact sound.assign found isStarted
  | imported version exported accepted =>
      obtain ⟨load, -, taken⟩ := Option.bind_eq_some_iff.mp stepped
      obtain ⟨-, ⟨⟩⟩ := Option.ite_none_right_eq_some.mp taken
      exact sound.imported careful
  | succeed version =>
      obtain ⟨load, found, taken⟩ := Option.bind_eq_some_iff.mp stepped
      obtain ⟨-, ⟨⟩⟩ := Option.ite_none_right_eq_some.mp taken
      exact
        { loads := sound.loads.succeed careful.1 found
          outcomes := sound.outcomes.succeed sound.loads careful.1 found careful.2
          service := sound.service }
  | fail version =>
      obtain ⟨load, found, taken⟩ := Option.bind_eq_some_iff.mp stepped
      obtain ⟨-, ⟨⟩⟩ := Option.ite_none_right_eq_some.mp taken
      exact
        { loads := sound.loads.fail careful.1 found
          outcomes := sound.outcomes.fail sound.loads careful.1 found careful.2
          service := sound.service }
  | callbackThrows version => exact careful.elim
  | close =>
      obtain ⟨-, ⟨⟩⟩ := Option.ite_none_right_eq_some.mp stepped
      exact sound.close careful
  | closeServer stops =>
      obtain ⟨server, isClosing, rfl⟩ := Option.map_eq_some_iff.mp stepped
      cases (careful : stops = true)
      exact sound.closeServer isClosing

theorem sound_of_reachesUnder
    {outer : Bool} {state : State App}
    (reaches : (machine outer).ReachesUnder Careful state) :
    state.Sound :=
  reaches.invariant initial_sound fun _ _ _ sound careful stepped => sound.step careful stepped

/-- The load that applied an application last is the newest one that succeeded. -/
theorem Sound.newest_eq
    {state : State App} {entry : Nat × App} {older : List (Nat × App)} {load : Nat × Option App}
    (sound : state.Sound)
    (noLoad : state.pending = [])
    (appliedEq : state.applied = entry :: older)
    (newest : state.IsNewestSuccess load) :
    load.2 = some entry.2 := by
  have isApplied : entry ∈ state.applied := appliedEq ▸ List.mem_cons_self
  have isHead : entry ∈ state.applied.head? := by
    rw [appliedEq]
    exact rfl
  obtain ⟨isSuccess, latest⟩ := newest
  have newestFirst := sound.outcomes.newestFirst
  rw [appliedEq] at newestFirst
  have least : load.1 ≤ entry.1 := by
    obtain ⟨other, isOther, less⟩ := sound.outcomes.backed load isSuccess
    rw [appliedEq] at isOther
    rcases List.mem_cons.mp isOther with rfl | isOlder
    · exact less
    · exact Nat.le_trans less ((List.pairwise_cons.mp newestFirst).1 other isOlder)
  have most : entry.1 ≤ load.1 := by
    rcases sound.outcomes.kept entry isApplied with isVersion | ⟨success, isOne, ofEntry⟩
    · unfold versions at isVersion
      rw [noLoad] at isVersion
      cases isVersion
    · exact ofEntry ▸ latest success isOne
  exact sound.outcomes.successes entry isHead load isSuccess (Nat.le_antisymm least most)

theorem Sound.correct
    {state : State App}
    (sound : state.Sound)
    (settled : state.Settled) :
    state.Correct := by
  obtain ⟨noLoad, noStart, notClosing⟩ := settled
  have stacked := sound.loads.stacked
  rw [noLoad] at stacked
  have serviceSound := sound.service
  generalize serviceEq : state.service = before at serviceSound
  have startEq := (congrArg Service.starting serviceEq).symm.trans noStart
  have closingEq := (congrArg Service.closing serviceEq).symm.trans notClosing
  simp only [State.service] at serviceEq
  cases serviceSound with
  | idle =>
      obtain ⟨-, -, startedEq, -, appliedEq, closedEq, -⟩ := Service.mk.inj serviceEq
      refine ⟨?_, ?_, ?_, stacked, sound.loads.counted⟩
      · intro _ load newest
        obtain ⟨entry, isEntry, -⟩ := sound.outcomes.backed load newest.1
        rw [appliedEq] at isEntry
        cases isEntry
      · rw [startedEq]
        exact Nat.zero_le _
      · intro isClosed
        cases closedEq.symm.trans isClosed
  | serving version app older =>
      obtain ⟨serverEq, -, startedEq, runningEq, appliedEq, closedEq, -⟩ := Service.mk.inj serviceEq
      refine ⟨?_, ?_, ?_, stacked, sound.loads.counted⟩
      · intro _ load newest
        rw [sound.newest_eq noLoad appliedEq newest, runningApp, serverEq, runningEq]
        rfl
      · exact Nat.le_of_eq startedEq
      · intro isClosed
        cases closedEq.symm.trans isClosed
  | closed startedServers applied closing bounded =>
      obtain ⟨-, -, startedEq, runningEq, -, closedEq, -⟩ := Service.mk.inj serviceEq
      refine ⟨?_, ?_, fun _ => runningEq, stacked, sound.loads.counted⟩
      · intro notClosed
        cases closedEq.symm.trans notClosed
      · rw [startedEq]
        exact bounded
  | starting => cases startEq
  | started => cases startEq
  | closing => cases closingEq

/-- Loads that keep out of each other's way leave behind what they should. -/
theorem correct_of_reachesUnder
    (outer : Bool)
    (state : State App)
    (reaches : (machine outer).ReachesUnder Careful state)
    (settled : state.Settled) :
    state.Correct :=
  (sound_of_reachesUnder reaches).correct settled

/-- The first load, and a second and a third one that overlap; the third one ends
first, and the import of the second one fails. -/
def nestedLoads : List (Event Nat) :=
  [.load, .imported 1 (some 10) true, .nativeStart 0 true, .assign 0, .succeed 1,
    .reload, .reload, .listen 3 30 true, .imported 3 none false, .succeed 3, .fail 2]

def afterNested : State Nat where
  currentImportVersion := 3
  context := none
  observedSelfStart := true
  currentServer := some (0, 30)
  closed := false
  closing := none
  revision := 2
  pending := []
  starting := []
  startedServers := 1
  running := [0]
  watching := true
  returned := true
  succeeded := [(3, some 30), (1, some 10)]
  applied := [(3, 30), (1, 10)]

theorem correct_afterNested : afterNested.Correct :=
  correct_of_reachesUnder false afterNested
    (Machine.reachesUnder_of_run nestedLoads
      (by rfl : (machine false).runFrom Careful initial nestedLoads = some afterNested))
    ⟨rfl, rfl, rfl⟩

/-- The same loads, where the second one ends before the third one. -/
def crossedLoads : List (Event Nat) :=
  [.load, .imported 1 (some 10) true, .nativeStart 0 true, .assign 0, .succeed 1,
    .reload, .reload, .imported 2 (some 20) true, .succeed 2,
    .imported 3 (some 30) true, .succeed 3]

def afterCrossed : State Nat where
  currentImportVersion := 3
  context := some 2
  observedSelfStart := false
  currentServer := some (0, 30)
  closed := false
  closing := none
  revision := 3
  pending := []
  starting := []
  startedServers := 1
  running := [0]
  watching := true
  returned := true
  succeeded := [(3, some 30), (2, some 20), (1, some 10)]
  applied := [(3, 30), (2, 20), (1, 10)]

/-- The context of a load that is done is left in force. -/
theorem not_correct :
    ¬ ∀ (outer : Bool) (state : State Nat), (machine outer).Reaches state →
      state.Settled → state.Correct := by
  intro everywhere
  have reaches : (machine false).Reaches afterCrossed :=
    Machine.reachesUnder_of_run crossedLoads
      (by rfl : (machine false).runFrom (fun _ _ => True) initial crossedLoads = some afterCrossed)
  cases (everywhere false afterCrossed reaches ⟨rfl, rfl, rfl⟩).restored

end State

end DevServer
end HttpNative
