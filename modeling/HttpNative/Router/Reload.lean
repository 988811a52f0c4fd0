import HttpNative.Library.Machine
import HttpNative.Router.MiddlewareCoverage

/-!
# Reloading under traffic

A reload swaps two tables one after the other: that of the dispatcher and the
native router. A connection holds the router it loaded before it waited for its
request, and hands over no more than a handler id. What runs is the handler of
the version the request was matched by as long as no request is dispatched
across a swap.
-/

namespace HttpNative
namespace Routing

variable {Handler : Type}

/-! ## The server -/

/-- One compiled application. -/
structure Version (Handler : Type) where
  number : Nat
  application : CompiledApplication Handler
  /-- The handler that was registered under an id. -/
  handlerOf : Nat → Handler

/-- What the dispatcher runs for an id; none is an unknown id, which is answered
with an error. -/
def Version.dispatch (version : Version Handler) (handlerId : Nat) : Option Handler :=
  (version.application.routesById handlerId).map fun route => version.handlerOf route.handlerId

inductive ConnectionPhase (Handler : Type) where
  /-- At the top of the request loop. -/
  | loading
  /-- A router was loaded; the request has not arrived. -/
  | waiting (router : Version Handler)
  /-- The request was matched and is on its way to the dispatcher. -/
  | dispatching (router : Version Handler) (handlerId : Nat)

/-- A dispatched request: the version it was matched by, the id, and the handler
that ran. -/
structure Dispatched (Handler : Type) where
  router : Version Handler
  handlerId : Nat
  ran : Option Handler

structure ServerState (Handler : Type) where
  connections : Dictionary Nat (ConnectionPhase Handler)
  liveRouter : Version Handler
  /-- What the dispatcher looks ids up in. -/
  currentState : Version Handler
  /-- The previous state of the dispatcher, between the two swaps of a reload. -/
  previousState : Option (Version Handler)
  /-- The number of the last version that was compiled. -/
  latest : Nat
  log : List (Dispatched Handler)

inductive ServerEvent (Handler : Type) where
  /-- A connection loads the live router. -/
  | load (connection : Nat)
  /-- A request arrives on a connection and is matched. -/
  | receive (connection : Nat) (request : Request) (stored : StoredResponses)
  /-- The dispatcher takes the request up. -/
  | dispatch (connection : Nat)
  /-- A reload gives the dispatcher a new version. -/
  | replace (application : CompiledApplication Handler) (handlerOf : Nat → Handler)
  /-- The native side stores the router of that version. -/
  | store
  /-- The native side refuses the manifest. -/
  | fail

namespace ServerState

variable (state : ServerState Handler)

def phaseOf (connection : Nat) : ConnectionPhase Handler :=
  (state.connections.get connection).getD .loading

def setPhase (connection : Nat) (phase : ConnectionPhase Handler) : ServerState Handler :=
  { state with connections := state.connections.set connection phase }

/-- Match a request by the router that its connection holds. Only a request for
the bridge is handed to the dispatcher; one without a route has no handler id. -/
def receive
    (analysis : SourceAnalysis)
    (connection : Nat)
    (router : Version Handler)
    (request : Request)
    (stored : StoredResponses) : ServerState Handler :=
  match (RouteTable.fromManifest analysis router.application).serve request stored with
  | some (.bridgeRequest, handlerId) => state.setPhase connection (.dispatching router handlerId)
  | _ => state.setPhase connection .loading

def dispatch
    (connection : Nat)
    (router : Version Handler)
    (handlerId : Nat) : ServerState Handler :=
  { state.setPhase connection .loading with
    log := {
      router := router
      handlerId := handlerId
      ran := state.currentState.dispatch handlerId } :: state.log }

end ServerState

/-- The dispatcher runs on the thread that reloads: it takes up no request
between the two swaps. -/
def serverMachine
    (analysis : SourceAnalysis)
    (initial : Version Handler) : Machine (ServerState Handler) (ServerEvent Handler) where
  start := {
    connections := []
    liveRouter := initial
    currentState := initial
    previousState := none
    latest := initial.number
    log := [] }
  step := fun state event =>
    match event with
    | .load connection =>
        match state.phaseOf connection with
        | .loading => some (state.setPhase connection (.waiting state.liveRouter))
        | _ => none
    | .receive connection request stored =>
        match state.phaseOf connection with
        | .waiting router => some (state.receive analysis connection router request stored)
        | _ => none
    | .dispatch connection =>
        match state.phaseOf connection, state.previousState with
        | .dispatching router handlerId, none => some (state.dispatch connection router handlerId)
        | _, _ => none
    | .replace application handlerOf =>
        match state.previousState with
        | none => some { state with
            currentState := {
              number := state.latest + 1
              application := application
              handlerOf := handlerOf }
            previousState := some state.currentState
            latest := state.latest + 1 }
        | some _ => none
    | .store =>
        match state.previousState with
        | some _ => some { state with liveRouter := state.currentState, previousState := none }
        | none => none
    | .fail =>
        match state.previousState with
        | some previous => some { state with currentState := previous, previousState := none }
        | none => none

/-! ## What is promised -/

/-- Every request that was dispatched ran the handler that the version it was
matched by registered under its id, or was answered with an error. -/
def RunsRegistered (state : ServerState Handler) : Prop :=
  ∀ entry ∈ state.log, ∀ handler, entry.ran = some handler →
    handler = entry.router.handlerOf entry.handlerId ∧
      ∃ route ∈ entry.router.application.routes, route.handlerId = entry.handlerId

/-- A request is taken up by the dispatcher of the version it was matched by. -/
def DispatchedInVersion (state : ServerState Handler) : ServerEvent Handler → Prop
  | .dispatch connection =>
      match state.phaseOf connection with
      | .dispatching router _ => router.number = state.currentState.number
      | _ => True
  | _ => True

instance (state : ServerState Handler) (event : ServerEvent Handler) :
    Decidable (DispatchedInVersion state event) := by
  unfold DispatchedInVersion
  split
  · split <;> infer_instance
  · infer_instance

/-! ## Versions in use -/

/-- The versions that a state refers to. -/
inductive InUse (state : ServerState Handler) : Version Handler → Prop
  | live : InUse state state.liveRouter
  | current : InUse state state.currentState
  | previous {version : Version Handler} :
      state.previousState = some version → InUse state version
  | waiting {connection : Nat} {version : Version Handler} :
      state.phaseOf connection = .waiting version → InUse state version
  | dispatching {connection handlerId : Nat} {version : Version Handler} :
      state.phaseOf connection = .dispatching version handlerId → InUse state version

/-- The numbers of the versions in use tell them apart, and none is above the
last one. -/
def Numbered (state : ServerState Handler) : Prop :=
  ∃ issued : Nat → Version Handler, ∀ version, InUse state version →
    version.number ≤ state.latest ∧ version = issued version.number

theorem phaseOf_setPhase
    (state : ServerState Handler)
    (connection other : Nat)
    (phase : ConnectionPhase Handler) :
    (state.setPhase connection phase).phaseOf other =
      if connection = other then phase else state.phaseOf other := by
  unfold ServerState.phaseOf ServerState.setPhase
  rw [Dictionary.get_set]
  split <;> rfl

/-- A connection that moves on uses the versions that were used before. -/
theorem inUse_setPhase
    {state : ServerState Handler} {connection : Nat} {phase : ConnectionPhase Handler}
    {version : Version Handler}
    (known : ∀ held, (phase = .waiting held ∨ ∃ handlerId, phase = .dispatching held handlerId) →
      InUse state held)
    (inUse : InUse (state.setPhase connection phase) version) :
    InUse state version := by
  cases inUse with
  | live => exact .live
  | current => exact .current
  | previous held => exact .previous held
  | waiting held =>
      rw [phaseOf_setPhase] at held
      split at held
      case isTrue => exact known version (.inl held)
      case isFalse => exact .waiting held
  | dispatching held =>
      rw [phaseOf_setPhase] at held
      split at held
      case isTrue => exact known version (.inr ⟨_, held⟩)
      case isFalse => exact .dispatching held

/-- Fewer versions in use are told apart as well. -/
theorem Numbered.of_inUse
    {state next : ServerState Handler}
    (numbered : Numbered state)
    (same : next.latest = state.latest)
    (fewer : ∀ version, InUse next version → InUse state version) :
    Numbered next := by
  obtain ⟨issued, known⟩ := numbered
  refine ⟨issued, ?_⟩
  intro version inUse
  rw [same]
  exact known version (fewer version inUse)

/-- Versions in use with the same number are the same. -/
theorem Numbered.eq_of_number
    {state : ServerState Handler} {left right : Version Handler}
    (numbered : Numbered state)
    (leftInUse : InUse state left)
    (rightInUse : InUse state right)
    (same : left.number = right.number) :
    left = right := by
  obtain ⟨issued, known⟩ := numbered
  rw [(known left leftInUse).2, (known right rightInUse).2, same]

section Steps

variable {analysis : SourceAnalysis} {initial : Version Handler}
  {state next : ServerState Handler}

/-- What a step can do. -/
theorem serverMachine_step
    {event : ServerEvent Handler}
    (stepEq : (serverMachine analysis initial).step state event = some next) :
    (∃ connection, event = .load connection ∧ state.phaseOf connection = .loading ∧
        next = state.setPhase connection (.waiting state.liveRouter)) ∨
      (∃ connection router request stored, event = .receive connection request stored ∧
        state.phaseOf connection = .waiting router ∧
        next = state.receive analysis connection router request stored) ∨
      (∃ connection router handlerId, event = .dispatch connection ∧
        state.phaseOf connection = .dispatching router handlerId ∧ state.previousState = none ∧
        next = state.dispatch connection router handlerId) ∨
      (∃ application handlerOf, event = .replace application handlerOf ∧
        state.previousState = none ∧
        next = { state with
          currentState := {
            number := state.latest + 1
            application := application
            handlerOf := handlerOf }
          previousState := some state.currentState
          latest := state.latest + 1 }) ∨
      (event = .store ∧ (∃ previous, state.previousState = some previous) ∧
        next = { state with liveRouter := state.currentState, previousState := none }) ∨
      (∃ previous, event = .fail ∧ state.previousState = some previous ∧
        next = { state with currentState := previous, previousState := none }) := by
  cases event with
  | load connection =>
      simp only [serverMachine] at stepEq
      split at stepEq <;> cases stepEq
      rename_i phase
      exact .inl ⟨connection, rfl, phase, rfl⟩
  | receive connection request stored =>
      simp only [serverMachine] at stepEq
      split at stepEq <;> cases stepEq
      rename_i router phase
      exact .inr (.inl ⟨connection, router, request, stored, rfl, phase, rfl⟩)
  | dispatch connection =>
      simp only [serverMachine] at stepEq
      split at stepEq <;> cases stepEq
      rename_i router handlerId phase idle
      exact .inr (.inr (.inl ⟨connection, router, handlerId, rfl, phase, idle, rfl⟩))
  | replace application handlerOf =>
      simp only [serverMachine] at stepEq
      split at stepEq <;> cases stepEq
      rename_i idle
      exact .inr (.inr (.inr (.inl ⟨application, handlerOf, rfl, idle, rfl⟩)))
  | store =>
      simp only [serverMachine] at stepEq
      split at stepEq <;> cases stepEq
      rename_i previous reloading
      exact .inr (.inr (.inr (.inr (.inl ⟨rfl, ⟨previous, reloading⟩, rfl⟩))))
  | fail =>
      simp only [serverMachine] at stepEq
      split at stepEq <;> cases stepEq
      rename_i previous reloading
      exact .inr (.inr (.inr (.inr (.inr ⟨previous, rfl, reloading, rfl⟩))))

/-- What matching a request leaves of the connection. -/
theorem receive_cases
    {connection : Nat} {router : Version Handler} {request : Request} {stored : StoredResponses} :
    (∃ handlerId, (∃ route ∈ router.application.routes, route.handlerId = handlerId) ∧
      state.receive analysis connection router request stored =
        state.setPhase connection (.dispatching router handlerId)) ∨
      state.receive analysis connection router request stored =
        state.setPhase connection .loading := by
  unfold ServerState.receive
  split
  case h_1 handlerId served =>
      obtain ⟨route, member, sameId, _⟩ :=
        (RouteTable.sound_fromManifest router.application).answeredBy_of_serve served
      exact .inl ⟨handlerId, ⟨route, member, sameId⟩, rfl⟩
  case h_2 => exact .inr rfl

theorem numbered_step
    {event : ServerEvent Handler}
    (numbered : Numbered state)
    (stepEq : (serverMachine analysis initial).step state event = some next) :
    Numbered next := by
  rcases serverMachine_step stepEq with
    ⟨connection, rfl, phase, rfl⟩ | ⟨connection, router, request, stored, rfl, phase, rfl⟩ |
    ⟨connection, router, handlerId, rfl, phase, _, rfl⟩ | ⟨application, handlerOf, rfl, _, rfl⟩ |
    ⟨rfl, ⟨previous, _⟩, rfl⟩ | ⟨previous, rfl, reloading, rfl⟩
  · refine numbered.of_inUse rfl fun version => inUse_setPhase ?_
    rintro held (same | ⟨handlerId, same⟩)
    · cases same
      exact .live
    · cases same
  · rcases @receive_cases _ analysis state connection router request stored with
      ⟨handlerId, _, received⟩ | received
    · rw [received]
      refine numbered.of_inUse rfl fun version => inUse_setPhase ?_
      rintro held (same | ⟨handlerId, same⟩)
      · cases same
      · cases same
        exact .waiting phase
    · rw [received]
      refine numbered.of_inUse rfl fun version => inUse_setPhase ?_
      rintro held (same | ⟨handlerId, same⟩) <;> cases same
  · refine numbered.of_inUse rfl fun version inUse => ?_
    have before : InUse (state.setPhase connection .loading) version := by
      cases inUse with
      | live => exact .live
      | current => exact .current
      | previous held => exact .previous held
      | waiting held => exact .waiting held
      | dispatching held => exact .dispatching held
    refine inUse_setPhase ?_ before
    rintro held (same | ⟨handlerId, same⟩) <;> cases same
  · -- the new version takes a number that is not in use
    obtain ⟨issued, known⟩ := numbered
    refine ⟨Function.update issued (state.latest + 1) {
      number := state.latest + 1
      application := application
      handlerOf := handlerOf }, ?_⟩
    have old : ∀ version, InUse state version → version.number ≤ state.latest + 1 ∧
        version = Function.update issued (state.latest + 1) {
          number := state.latest + 1
          application := application
          handlerOf := handlerOf } version.number := by
      intro version inUse
      obtain ⟨bound, same⟩ := known version inUse
      refine ⟨by omega, ?_⟩
      rw [Function.update_of_ne (by omega)]
      exact same
    intro version inUse
    cases inUse with
    | live => exact old _ .live
    | current =>
        refine ⟨Nat.le_refl _, ?_⟩
        simp only [Function.update_self]
    | previous held =>
        cases held
        exact old _ .current
    | waiting held => exact old _ (.waiting held)
    | dispatching held => exact old _ (.dispatching held)
  · refine numbered.of_inUse rfl fun version inUse => ?_
    cases inUse with
    | live => exact .current
    | current => exact .current
    | previous held => cases held
    | waiting held => exact .waiting held
    | dispatching held => exact .dispatching held
  · refine numbered.of_inUse rfl fun version inUse => ?_
    cases inUse with
    | live => exact .live
    | current => exact .previous reloading
    | previous held => cases held
    | waiting held => exact .waiting held
    | dispatching held => exact .dispatching held

theorem numbered_of_reaches
    {allowed : ServerState Handler → ServerEvent Handler → Prop}
    (reaches : (serverMachine analysis initial).ReachesUnder allowed state) :
    Numbered state := by
  refine reaches.invariant ?_ fun _ _ _ numbered _ stepEq => numbered_step numbered stepEq
  refine ⟨fun _ => initial, ?_⟩
  intro version inUse
  have phases : ∀ connection,
      (serverMachine analysis initial).start.phaseOf connection = .loading := fun _ => rfl
  cases inUse with
  | live => exact ⟨Nat.le_refl _, rfl⟩
  | current => exact ⟨Nat.le_refl _, rfl⟩
  | previous held => cases held
  | waiting held =>
      rw [phases] at held
      cases held
  | dispatching held =>
      rw [phases] at held
      cases held

/-! ## What runs -/

/-- A request on its way was matched to a route of its version. -/
def Matched (state : ServerState Handler) : Prop :=
  ∀ connection router handlerId, state.phaseOf connection = .dispatching router handlerId →
    ∃ route ∈ router.application.routes, route.handlerId = handlerId

theorem Matched.setPhase
    {connection : Nat} {phase : ConnectionPhase Handler}
    (matched : Matched state)
    (routed : ∀ router handlerId, phase = .dispatching router handlerId →
      ∃ route ∈ router.application.routes, route.handlerId = handlerId) :
    Matched (state.setPhase connection phase) := by
  intro other router handlerId phaseEq
  rw [phaseOf_setPhase] at phaseEq
  split at phaseEq
  case isTrue => exact routed router handlerId phaseEq
  case isFalse => exact matched other router handlerId phaseEq

theorem matched_step
    {event : ServerEvent Handler}
    (matched : Matched state)
    (stepEq : (serverMachine analysis initial).step state event = some next) :
    Matched next := by
  rcases serverMachine_step stepEq with
    ⟨connection, rfl, phase, rfl⟩ | ⟨connection, router, request, stored, rfl, phase, rfl⟩ |
    ⟨connection, router, handlerId, rfl, phase, _, rfl⟩ | ⟨application, handlerOf, rfl, _, rfl⟩ |
    ⟨rfl, _, rfl⟩ | ⟨previous, rfl, _, rfl⟩
  · exact matched.setPhase fun _ _ same => by cases same
  · rcases @receive_cases _ analysis state connection router request stored with
      ⟨handlerId, routed, received⟩ | received
    · rw [received]
      refine matched.setPhase fun _ _ same => ?_
      cases same
      exact routed
    · rw [received]
      exact matched.setPhase fun _ _ same => by cases same
  · have loading : Matched (state.setPhase connection .loading) :=
      matched.setPhase fun _ _ same => by cases same
    exact loading
  · exact matched
  · exact matched
  · exact matched

theorem matched_of_reaches
    {allowed : ServerState Handler → ServerEvent Handler → Prop}
    (reaches : (serverMachine analysis initial).ReachesUnder allowed state) :
    Matched state := by
  refine reaches.invariant ?_ fun _ _ _ matched _ stepEq => matched_step matched stepEq
  intro connection router handlerId phase
  have loading : (serverMachine analysis initial).start.phaseOf connection = .loading := rfl
  rw [loading] at phase
  cases phase

/-- A version runs the handler that it registered under an id. -/
theorem handlerOf_of_dispatch
    {version : Version Handler} {handlerId : Nat} {handler : Handler}
    (ran : version.dispatch handlerId = some handler) :
    handler = version.handlerOf handlerId := by
  obtain ⟨route, found, rfl⟩ := Option.map_eq_some_iff.mp ran
  have sameId := List.find?_some found
  rw [decide_eq_true_eq] at sameId
  rw [sameId]

theorem runsRegistered_step
    {event : ServerEvent Handler}
    (numbered : Numbered state)
    (matched : Matched state)
    (runs : RunsRegistered state)
    (inVersion : DispatchedInVersion state event)
    (stepEq : (serverMachine analysis initial).step state event = some next) :
    RunsRegistered next := by
  rcases serverMachine_step stepEq with
    ⟨connection, rfl, phase, rfl⟩ | ⟨connection, router, request, stored, rfl, phase, rfl⟩ |
    ⟨connection, router, handlerId, rfl, phase, _, rfl⟩ | ⟨application, handlerOf, rfl, _, rfl⟩ |
    ⟨rfl, _, rfl⟩ | ⟨previous, rfl, _, rfl⟩
  · exact runs
  · rcases @receive_cases _ analysis state connection router request stored with
      ⟨handlerId, _, received⟩ | received
    · rw [received]
      exact runs
    · rw [received]
      exact runs
  · rw [DispatchedInVersion, phase] at inVersion
    have same : router = state.currentState :=
      numbered.eq_of_number (.dispatching phase) .current inVersion
    intro entry member handler ran
    rcases List.mem_cons.mp member with rfl | old
    · refine ⟨?_, matched connection router handlerId phase⟩
      subst same
      exact handlerOf_of_dispatch ran
    · exact runs entry old handler ran
  · exact runs
  · exact runs
  · exact runs

/-- In every run in which no request is dispatched across versions, each runs
the handler that its version registered. -/
theorem runsRegistered_of_inVersion
    (reaches : (serverMachine analysis initial).ReachesUnder DispatchedInVersion state) :
    RunsRegistered state := by
  refine reaches.invariant_with
    (fun _ before => And.intro (numbered_of_reaches before) (matched_of_reaches before)) ?_ ?_
  · intro entry member
    cases member
  · intro before event after known runs inVersion stepEq
    exact runsRegistered_step known.1 known.2 runs inVersion stepEq

/-! ## Quiet reloads -/

/-- A reload starts only while every connection is at the top of its loop, and
no connection loads a router between its two swaps. -/
def Quiet (state : ServerState Handler) : ServerEvent Handler → Prop
  | .replace _ _ => ∀ connection, state.phaseOf connection = .loading
  | .load _ => state.previousState = none
  | _ => True

/-- What quiet reloads keep: a router that is held is the current version, and
none is held between the swaps. -/
def Settled (state : ServerState Handler) : Prop :=
  (state.previousState = none → state.liveRouter = state.currentState) ∧
    (∀ previous, state.previousState = some previous → previous = state.liveRouter) ∧
    ∀ connection router, (state.phaseOf connection = .waiting router ∨
      ∃ handlerId, state.phaseOf connection = .dispatching router handlerId) →
      state.previousState = none ∧ router = state.currentState

theorem settled_setPhase
    {connection : Nat} {phase : ConnectionPhase Handler}
    (settled : Settled state)
    (held : ∀ router, (phase = .waiting router ∨ ∃ handlerId, phase = .dispatching router handlerId) →
      state.previousState = none ∧ router = state.currentState) :
    Settled (state.setPhase connection phase) := by
  refine ⟨settled.1, settled.2.1, ?_⟩
  intro other router holds
  rw [phaseOf_setPhase] at holds
  split at holds
  case isTrue => exact held router holds
  case isFalse => exact settled.2.2 other router holds

theorem settled_step
    {event : ServerEvent Handler}
    (settled : Settled state)
    (quiet : Quiet state event)
    (stepEq : (serverMachine analysis initial).step state event = some next) :
    Settled next := by
  have noRouter : ∀ router : Version Handler,
      (ConnectionPhase.loading = .waiting router ∨
        ∃ handlerId, ConnectionPhase.loading = .dispatching router handlerId) →
      state.previousState = none ∧ router = state.currentState := by
    rintro router (same | ⟨handlerId, same⟩) <;> cases same
  rcases serverMachine_step stepEq with
    ⟨connection, rfl, phase, rfl⟩ | ⟨connection, router, request, stored, rfl, phase, rfl⟩ |
    ⟨connection, router, handlerId, rfl, phase, _, rfl⟩ |
    ⟨application, handlerOf, rfl, idle, rfl⟩ |
    ⟨rfl, ⟨previous, reloading⟩, rfl⟩ | ⟨previous, rfl, reloading, rfl⟩
  · refine settled_setPhase settled ?_
    rintro router (same | ⟨handlerId, same⟩)
    · cases same
      exact ⟨quiet, settled.1 quiet⟩
    · cases same
  · have own := settled.2.2 connection router (.inl phase)
    rcases @receive_cases _ analysis state connection router request stored with
      ⟨handlerId, _, received⟩ | received
    · rw [received]
      refine settled_setPhase settled ?_
      rintro held (same | ⟨id, same⟩)
      · cases same
      · cases same
        exact own
    · rw [received]
      exact settled_setPhase settled noRouter
  · have loading : Settled (state.setPhase connection .loading) := settled_setPhase settled noRouter
    exact loading
  · refine ⟨fun none => (by cases none), ?_, ?_⟩
    · intro previous same
      cases same
      exact (settled.1 idle).symm
    · rintro connection router (holds | ⟨handlerId, holds⟩)
      · exact absurd (holds.symm.trans (quiet connection)) (by simp)
      · exact absurd (holds.symm.trans (quiet connection)) (by simp)
  · refine ⟨fun _ => rfl, fun _ same => (by cases same), ?_⟩
    intro connection router holds
    have none := (settled.2.2 connection router holds).1
    rw [reloading] at none
    cases none
  · refine ⟨fun _ => (settled.2.1 previous reloading).symm, fun _ same => (by cases same), ?_⟩
    intro connection router holds
    have none := (settled.2.2 connection router holds).1
    rw [reloading] at none
    cases none

/-- Under quiet reloads no request is dispatched across versions. -/
theorem inVersion_of_quiet
    (reaches : (serverMachine analysis initial).ReachesUnder Quiet state) :
    (serverMachine analysis initial).ReachesUnder DispatchedInVersion state := by
  refine reaches.weaken Settled ?_ ?_
  · intro reached before
    refine before.invariant ?_ fun _ _ _ settled quiet stepEq => settled_step settled quiet stepEq
    refine ⟨fun _ => rfl, fun _ same => (by cases same), ?_⟩
    rintro connection router (holds | ⟨handlerId, holds⟩) <;> cases holds
  · intro reached event settled _
    unfold DispatchedInVersion
    split
    · split
      · rename_i router handlerId phase
        rw [(settled.2.2 _ router (.inr ⟨handlerId, phase⟩)).2]
      · trivial
    · trivial

end Steps

/-! ## A reload while a connection is idle -/

def plainRoute (path : Text) : CompiledRoute where
  method := .get
  path := path
  handlerId := 1
  cache := none
  staticResponse := false
  handlerSource := text "(req, res) => handle(req, res)"

/-- One route; its handler is told by its path. -/
def singleRoute (number : Nat) (path : Text) : Version Text where
  number := number
  application := {
    middlewares := []
    routes := [plainRoute path]
    distinct := by simp
    staticAlone := by simp [plainRoute] }
  handlerOf := fun _ => path

def listed : Version Text :=
  singleRoute 0 (text "/list")

def purged : Version Text :=
  singleRoute 1 (text "/purge")

/-- A request after a quiet reload. -/
def reloadedState : ServerState Text where
  connections := [(7, .loading)]
  liveRouter := purged
  currentState := purged
  previousState := none
  latest := 1
  log := [{ router := purged, handlerId := 1, ran := some (text "/purge") }]

theorem runsRegistered_of_inVersion_purged :
    RunsRegistered reloadedState := by
  have reaches : (serverMachine noAnalysis listed).ReachesUnder DispatchedInVersion
      reloadedState :=
    Machine.reachesUnder_of_run
      [.replace purged.application purged.handlerOf, .store, .load 7,
        .receive 7 (getRequest (text "/purge")) noStoredResponses, .dispatch 7] rfl
  exact runsRegistered_of_inVersion reaches

/-- A connection waits with the old router; after the reload its request runs
the handler that the new version has under the same id. -/
theorem not_runsRegistered_of_idleConnection :
    ¬ ∀ (analysis : SourceAnalysis) (initial : Version Text) (state : ServerState Text),
      (serverMachine analysis initial).Reaches state → RunsRegistered state := by
  intro everywhere
  have run : ((serverMachine noAnalysis listed).runFrom (fun _ _ => True)
      (serverMachine noAnalysis listed).start
      [.load 7, .replace purged.application purged.handlerOf, .store,
        .receive 7 (getRequest (text "/list")) noStoredResponses, .dispatch 7]).map
        ServerState.log =
      some [{ router := listed, handlerId := 1, ran := some (text "/purge") }] := by
    rfl
  obtain ⟨state, runEq, log⟩ := Option.map_eq_some_iff.mp run
  have registered := everywhere noAnalysis listed state (Machine.reachesUnder_of_run _ runEq)
  have same := (registered _ (by rw [log]; exact List.mem_cons_self) (text "/purge") rfl).1
  exact absurd same (by decide)

end Routing
end HttpNative
