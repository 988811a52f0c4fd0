import HttpNative.Library.Machine

/-!
# The loads of the dev server

`loadEntry` puts a context into `globalThis.__HTTP_NATIVE_DEV_CONTEXT__`, imports
the entry module, applies its application, and puts the former context back. A
load can begin while others are under way, and all of them share the flag of a
self-start, the server, the status and the context.
-/

namespace HttpNative
namespace DevServer

/-- How far a load has come. -/
inductive Phase where
  /-- It awaits `import(moduleUrl)`. -/
  | importing
  /-- It awaits the server that it starts. -/
  | applying
  | applied
  /-- There is no application, or it was not taken; the load is about to fail. -/
  | refused
deriving DecidableEq

/-- A call of `loadEntry` that has not returned. -/
structure Load (App : Type) where
  /-- The value of `++currentImportVersion`. -/
  version : Nat
  /-- `trigger.type === "initial"`. -/
  initial : Bool
  previousContext : Option Nat
  phase : Phase
  loadedApp : Option App

/-- A call of `startCompiledServer` whose result is not stored yet. -/
structure Start (App : Type) where
  /-- The load that applies the application; a module that listens without a
  context starts a server of its own. -/
  load : Option Nat
  app : App
  /-- `loadEntry` awaits it, rather than a module that called `listen`. -/
  own : Bool
  /-- The native server, once it is started. -/
  native : Option Nat

structure State (App : Type) where
  currentImportVersion : Nat
  /-- `globalThis.__HTTP_NATIVE_DEV_CONTEXT__`: the context of a load, or the value
  from before the first call. -/
  context : Option Nat
  observedSelfStart : Bool
  /-- The server, with the application that it was started with or took last. -/
  currentServer : Option (Nat × App)
  closed : Bool
  /-- The server that `close` awaits. -/
  closing : Option (Option Nat)
  /-- `currentStatus.revision`. -/
  revision : Nat
  pending : List (Load App)
  starting : List (Start App)
  startedServers : Nat
  running : List Nat
  /-- There is a watch controller, which calls `loadEntry`. -/
  watching : Bool
  /-- The caller has the controller, with `reload` and `close`. -/
  returned : Bool
  /-- The loads that succeeded, with `loadedApp`. -/
  succeeded : List (Nat × Option App)
  /-- The applications that the server took or is started with, the last one
  first, with their loads. -/
  applied : List (Nat × App)

inductive Event (App : Type) where
  /-- `createDevServer` loads the entry for the first time. -/
  | load
  /-- The watch controller or the caller loads it again. -/
  | reload
  /-- The module of a load awaits the result of `listen`; the application compiles,
  and the server takes it, or not. -/
  | listen (caller : Nat) (app : App) (accepted : Bool)
  /-- The native server starts, or the port is in use. -/
  | nativeStart (index : Nat) (succeeds : Bool)
  /-- `startCompiledServer` returns. -/
  | assign (index : Nat)
  /-- `import` returns a module that exports an application, or not. -/
  | imported (version : Nat) (exported : Option App) (accepted : Bool)
  | succeed (version : Nat)
  /-- An exception up to the update of the status. -/
  | fail (version : Nat)
  /-- `onReload` throws. -/
  | callbackThrows (version : Nat)
  | close
  /-- The workers of the server have exited, or the wait for them has timed out. -/
  | closeServer (stops : Bool)

namespace State

variable {App : Type}

def initial : State App where
  currentImportVersion := 0
  context := none
  observedSelfStart := false
  currentServer := none
  closed := false
  closing := none
  revision := 0
  pending := []
  starting := []
  startedServers := 0
  running := []
  watching := false
  returned := false
  succeeded := []
  applied := []

def find (state : State App) (version : Nat) : Option (Load App) :=
  state.pending.find? fun load => load.version = version

def updateLoad
    (state : State App)
    (version : Nat)
    (change : Load App → Load App) : State App :=
  { state with
    pending := state.pending.map fun load =>
      if load.version = version then change load else load }

def setPhase (state : State App) (version : Nat) (phase : Phase) : State App :=
  state.updateLoad version fun load => { load with phase := phase }

/-- `loadEntry` up to the `import`. -/
def loadEntry (state : State App) (initial : Bool) : State App :=
  { state with
    observedSelfStart := false
    currentImportVersion := state.currentImportVersion + 1
    context := some (state.currentImportVersion + 1)
    pending :=
      { version := state.currentImportVersion + 1
        initial := initial
        previousContext := state.context
        phase := .importing
        loadedApp := none } :: state.pending }

/-- `startCompiledServer` up to its first `await`. -/
def beginStart (state : State App) (start : Start App) : State App :=
  { state with starting := state.starting ++ [start] }

/-- `applyApplication` up to its first `await`, for an application that compiles
and that the server takes. -/
def applyApplication
    (state : State App)
    (version : Nat)
    (app : App)
    (own : Bool) : State App :=
  let state := { state with applied := (version, app) :: state.applied }
  match state.currentServer with
  | none => state.beginStart { load := some version, app := app, own := own, native := none }
  | some (server, _) =>
      let state := { state with currentServer := some (server, app) }
      if own then state.setPhase version .applied else state

/-- `registerAppListen` of the context of a load. -/
def registerAppListen
    (state : State App)
    (version : Nat)
    (app : App)
    (accepted : Bool) : State App :=
  let state := { state with observedSelfStart := true }
  let state := state.updateLoad version fun load => { load with loadedApp := some app }
  if accepted then state.applyApplication version app false else state

/-- `start` of what `listen` returns. Outside of all loads the application starts a
server of its own, or registers with a context from before the first call. -/
def listen (state : State App) (outer : Bool) (app : App) (accepted : Bool) : State App :=
  match state.context with
  | some version => state.registerAppListen version app accepted
  | none =>
      if outer then
        state
      else
        state.beginStart { load := none, app := app, own := false, native := none }

/-- `loadEntry` from the end of the `import` to the next `await`. -/
def imported
    (state : State App)
    (version : Nat)
    (exported : Option App)
    (accepted : Bool) : State App :=
  if state.observedSelfStart then
    state.setPhase version .applied
  else
    let state := state.updateLoad version fun load => { load with loadedApp := exported }
    match exported, accepted with
    | some app, true => (state.setPhase version .applying).applyApplication version app true
    | _, _ => state.setPhase version .refused

/-- `native.startServer` returns, or the start fails. -/
def nativeStart
    (state : State App)
    (index : Nat)
    (start : Start App)
    (succeeds : Bool) : State App :=
  if succeeds then
    { state with
      starting := state.starting.set index { start with native := some state.startedServers }
      startedServers := state.startedServers + 1
      running := state.startedServers :: state.running }
  else
    let state :=
      { state with
        starting := state.starting.eraseIdx index
        applied := state.applied.filter fun entry => start.load ≠ some entry.1 }
    match start.load, start.own with
    | some version, true => state.setPhase version .refused
    | _, _ => state

/-- `currentServer = await _startCompiledServer(…)`. -/
def assign
    (state : State App)
    (index : Nat)
    (start : Start App)
    (server : Nat) : State App :=
  let state := { state with starting := state.starting.eraseIdx index }
  match start.load with
  | none => state
  | some version =>
      let state := { state with currentServer := some (server, start.app) }
      if start.own then state.setPhase version .applied else state

/-- The `finally` of `loadEntry`. -/
def endLoad (state : State App) (load : Load App) : State App :=
  { state with
    pending := state.pending.filter fun other => other.version ≠ load.version
    context := load.previousContext }

/-- The status of a load that is done, with the watch controller from
`ensureWatchController`. -/
def ready (state : State App) (load : Load App) : State App :=
  { state with
    revision := if load.initial then 1 else state.revision + 1
    watching := true }

def succeed (state : State App) (load : Load App) : State App :=
  let state := (state.ready load).endLoad load
  { state with
    returned := state.returned || load.initial
    succeeded := (load.version, load.loadedApp) :: state.succeeded }

/-- A load fails before its application is taken, or in `ensureWatchController`. -/
def fail (state : State App) (load : Load App) : State App :=
  let watching := state.watching || decide (load.phase = .applied)
  { state with watching := watching }.endLoad load

def close (state : State App) : State App :=
  if state.closed then
    state
  else
    { state with
      closed := true
      closing := some (state.currentServer.map Prod.fst) }

def closeServer (state : State App) (server : Option Nat) (stops : Bool) : State App :=
  { state with
    running := state.running.filter fun running => !stops || some running ≠ server
    currentServer := none
    closing := none }

def step (outer : Bool) (state : State App) : Event App → Option (State App)
  | .load => if state.currentImportVersion = 0 then some (state.loadEntry true) else none
  | .reload =>
      if (state.watching || state.returned) && !state.closed then
        some (state.loadEntry false)
      else
        none
  | .listen _ app accepted => some (state.listen outer app accepted)
  | .nativeStart index succeeds =>
      state.starting[index]?.bind fun start =>
        if start.native.isNone then some (state.nativeStart index start succeeds) else none
  | .assign index =>
      state.starting[index]?.bind fun start =>
        start.native.map (state.assign index start)
  | .imported version exported accepted =>
      (state.find version).bind fun load =>
        if load.phase = .importing then some (state.imported version exported accepted) else none
  | .succeed version =>
      (state.find version).bind fun load =>
        if load.phase = .applied then some (state.succeed load) else none
  | .fail version =>
      (state.find version).bind fun load =>
        if load.phase ≠ .applying then some (state.fail load) else none
  | .callbackThrows version =>
      (state.find version).bind fun load =>
        if load.phase = .applied ∧ load.initial = false then
          some ((state.ready load).endLoad load)
        else
          none
  | .close => if state.returned then some state.close else none
  | .closeServer stops => state.closing.map fun server => state.closeServer server stops

/-- The dev server; `outer` tells whether a context was in force before. -/
def machine (outer : Bool) : Machine (State App) (Event App) where
  start := initial
  step := step outer

/-- No call of `loadEntry`, of `close` or of a start is under way. -/
def Settled (state : State App) : Prop :=
  state.pending = [] ∧ state.starting = [] ∧ state.closing = none

/-- The application that the server of the controller serves. -/
def runningApp (state : State App) : Option App :=
  state.currentServer.bind fun server => if server.1 ∈ state.running then some server.2 else none

/-- A load that succeeded, and none that began later did. -/
def IsNewestSuccess (state : State App) (load : Nat × Option App) : Prop :=
  load ∈ state.succeeded ∧ ∀ other ∈ state.succeeded, other.1 ≤ load.1

/-- What overlapping loads are to leave behind. -/
structure Correct (state : State App) : Prop where
  runsNewest : state.closed = false →
    ∀ load, state.IsNewestSuccess load → state.runningApp = load.2
  startedOnce : state.startedServers ≤ 1
  stopped : state.closed = true → state.running = []
  restored : state.context = none
  counted : state.revision = state.succeeded.length

end State

end DevServer
end HttpNative
