import HttpNative.Library.Machine
import HttpNative.Library.Text
import Mathlib.Logic.Relation

/-!
# Workers that exit

The accept loops of the workers, which share one port, and the thread that starts
and closes the server. The kernel gives every connection to the port to the listener
of some worker, and a worker looks at the shutdown flag before and after it accepts.
-/

namespace HttpNative
namespace Lifecycle

/-- Where the thread of a worker is. -/
inductive WorkerPhase where
  /-- It has no listener yet. -/
  | starting
  /-- At the head of its loop, before it looks at the flag. -/
  | checking
  /-- In `accept`. -/
  | accepting
  /-- `accept` has returned, with a connection or an error. -/
  | accepted
  /-- It has sent on its closed channel. -/
  | exited
deriving DecidableEq

structure Worker where
  phase : WorkerPhase
  /-- The connections that its listener has for `accept`. -/
  pending : Nat
deriving DecidableEq

/-- Where `start_server` or `close` is. -/
inductive MainThread where
  /-- It has received some addresses, and waits for the next worker to report. -/
  | starting (received : Nat)
  | serving
  /-- The flag is set, and some wake-up connections are still to be made. -/
  | waking (remaining : Nat)
  /-- It waits on the closed channel of a worker. -/
  | joining (id : Nat)
  | returned
deriving DecidableEq

structure Cluster where
  workers : List Worker
  shutdownFlag : Bool
  /-- What the workers have reported, and whether it was an address. -/
  startup : List Bool
  mainThread : MainThread

inductive ClusterEvent where
  /-- The listener of a worker is bound, or that fails. -/
  | bind (id : Nat) (bound : Bool)
  | check (id : Nat)
  | accept (id : Nat)
  | acceptFails (id : Nat)
  /-- The worker looks at the flag behind `accept`. -/
  | handle (id : Nat)
  /-- The kernel gives the connection of a client to a listener. -/
  | arrive (id : Nat)
  | receive
  | close
  /-- A wake-up connection is made; the kernel gives it to a listener, if it is not
  refused. -/
  | wake (target : Option Nat)
  | join

namespace Worker

def started : Worker where
  phase := .starting
  pending := 0

/-- The thread has ended, and its listener is closed. -/
def exit : Worker where
  phase := .exited
  pending := 0

def isListening (worker : Worker) : Bool :=
  worker.phase ≠ .starting && worker.phase ≠ .exited

def bind (bound : Bool) (worker : Worker) : Option Worker :=
  if worker.phase = .starting then
    some (if bound then { worker with phase := .checking } else exit)
  else
    none

def check (flag : Bool) (worker : Worker) : Option Worker :=
  if worker.phase = .checking then
    some (if flag then exit else { worker with phase := .accepting })
  else
    none

def accept (worker : Worker) : Option Worker :=
  if worker.phase = .accepting ∧ 0 < worker.pending then
    some { phase := .accepted, pending := worker.pending - 1 }
  else
    none

def acceptFails (worker : Worker) : Option Worker :=
  if worker.phase = .accepting then some { worker with phase := .accepted } else none

def handle (flag : Bool) (worker : Worker) : Option Worker :=
  if worker.phase = .accepted then
    some (if flag then exit else { worker with phase := .checking })
  else
    none

def arrive (worker : Worker) : Option Worker :=
  if worker.isListening then some { worker with pending := worker.pending + 1 } else none

/-- It is blocked in `accept`, and nothing is there to accept. -/
def isStuck (worker : Worker) : Bool :=
  worker.phase = .accepting && worker.pending = 0

end Worker

namespace Cluster

def onWorker
    (cluster : Cluster)
    (id : Nat)
    (change : Worker → Option Worker) :
    Option Cluster :=
  (cluster.workers[id]?.bind change).map fun worker =>
    { cluster with workers := cluster.workers.set id worker }

/-- The workers that nothing wakes. -/
def stuck (cluster : Cluster) : Nat :=
  cluster.workers.countP Worker.isStuck

/-- `start_server` receives what a worker has reported: with the last address it
returns a handle, and an error makes it wake the workers whose addresses it has. -/
def receive (cluster : Cluster) : Option Cluster :=
  match cluster.mainThread, cluster.startup with
  | .starting received, true :: rest =>
      some { cluster with
        startup := rest
        mainThread :=
          if received + 1 = cluster.workers.length then .serving else .starting (received + 1) }
  | .starting received, false :: rest =>
      some { cluster with
        startup := rest
        shutdownFlag := true
        mainThread := .waking received }
  | _, _ => none

/-- `close` sets the flag and goes through the addresses of all workers. -/
def close (cluster : Cluster) : Option Cluster :=
  if cluster.mainThread = .serving then
    some { cluster with shutdownFlag := true, mainThread := .waking cluster.workers.length }
  else
    none

def wake (cluster : Cluster) (target : Option Nat) : Option Cluster :=
  match cluster.mainThread, target with
  | .waking (remaining + 1), some id =>
      ({ cluster with mainThread := .waking remaining }).onWorker id Worker.arrive
  | .waking (remaining + 1), none => some { cluster with mainThread := .waking remaining }
  | _, _ => none

/-- `recv` returns when the worker has exited. -/
def join (cluster : Cluster) : Option Cluster :=
  match cluster.mainThread with
  | .waking 0 => some { cluster with mainThread := .joining 0 }
  | .joining id =>
      match cluster.workers[id]? with
      | some worker =>
          if worker.phase = .exited then some { cluster with mainThread := .joining (id + 1) }
          else none
      | none => some { cluster with mainThread := .returned }
  | _ => none

def step (cluster : Cluster) : ClusterEvent → Option Cluster
  | .bind id bound =>
      (cluster.onWorker id (Worker.bind bound)).map fun next =>
        { next with startup := next.startup ++ [bound] }
  | .check id => cluster.onWorker id (Worker.check cluster.shutdownFlag)
  | .accept id => cluster.onWorker id Worker.accept
  | .acceptFails id => cluster.onWorker id Worker.acceptFails
  | .handle id => cluster.onWorker id (Worker.handle cluster.shutdownFlag)
  | .arrive id => cluster.onWorker id Worker.arrive
  | .receive => cluster.receive
  | .close => cluster.close
  | .wake target => cluster.wake target
  | .join => cluster.join

end Cluster

/-- `start_server` has spawned the threads of all workers. -/
def clusterMachine (count : Nat) : Machine Cluster ClusterEvent where
  start :=
    { workers := List.replicate count .started
      shutdownFlag := false
      startup := []
      mainThread := .starting 0 }
  step := Cluster.step

/-! ## Closing -/

/-- It takes no new connection, and no error of a listener. -/
def ClusterEvent.isOwn : ClusterEvent → Bool
  | .acceptFails _ => false
  | .arrive _ => false
  | .wake _ => false
  | _ => true

/-- Steps of the workers, and of the thread that waits for them. -/
def ExitSteps : Cluster → Cluster → Prop :=
  Relation.ReflTransGen fun cluster next =>
    ∃ event, event.isOwn = true ∧ cluster.step event = some next

/-- Whoever waits for a worker waits for one that goes on, and returns once the
workers have gone on. -/
structure ClosesDown (cluster : Cluster) : Prop where
  notStuck : ∀ id worker, cluster.mainThread = .joining id → cluster.workers[id]? = some worker →
    worker.isStuck = false
  returns : ∀ id, cluster.mainThread = .joining id →
    ∃ next, ExitSteps cluster next ∧ next.mainThread = .returned

/-- The listener of a worker that nothing wakes. -/
def Cluster.wakesStuck (cluster : Cluster) (target : Option Nat) : Bool :=
  (target.bind (cluster.workers[·]?)).any Worker.isStuck

/-- The addresses that `start_server` has received so far. -/
def MainThread.received : MainThread → Nat
  | .starting received => received
  | _ => 0

/-- The wake-up connections that are still to be made. -/
def MainThread.remaining : MainThread → Nat
  | .waking remaining => remaining
  | _ => 0

/-- There are as many wake-up connections as workers that nothing wakes: a start that
fails has received enough addresses, and the kernel gives connections to such workers
as long as none may be wasted. -/
def WakesAll (cluster : Cluster) : ClusterEvent → Prop
  | .receive => cluster.startup.head? = some false → cluster.stuck ≤ cluster.mainThread.received
  | .wake target =>
      cluster.wakesStuck target = true ∨ cluster.stuck < cluster.mainThread.remaining
  | _ => True

instance (cluster : Cluster) (event : ClusterEvent) : Decidable (WakesAll cluster event) := by
  cases event <;> unfold WakesAll <;> infer_instance

/-! ## Steps of the workers -/

namespace Worker

variable {worker next : Worker}

/-- Once the flag is set, nothing makes a worker stuck. -/
def KeepsAwake (change : Worker → Option Worker) : Prop :=
  ∀ worker next, change worker = some next → next.isStuck = true → worker.isStuck = true

theorem isStuck_eq_false
    (notAccepting : worker.phase ≠ .accepting) :
    worker.isStuck = false := by
  rw [isStuck, decide_eq_false notAccepting, Bool.false_and]

theorem keepsAwake_bind
    (bound : Bool) :
    KeepsAwake (bind bound) := by
  intro worker next changed isStuckNext
  rw [bind, Option.ite_none_right_eq_some] at changed
  obtain ⟨starting, changed⟩ := changed
  cases bound <;> cases changed <;> cases isStuckNext

theorem keepsAwake_check : KeepsAwake (check true) := by
  intro worker next changed isStuckNext
  rw [check, Option.ite_none_right_eq_some] at changed
  cases changed.2
  cases isStuckNext

theorem keepsAwake_accept : KeepsAwake accept := by
  intro worker next changed isStuckNext
  rw [accept, Option.ite_none_right_eq_some] at changed
  cases changed.2
  cases isStuckNext

theorem keepsAwake_acceptFails : KeepsAwake acceptFails := by
  intro worker next changed isStuckNext
  rw [acceptFails, Option.ite_none_right_eq_some] at changed
  cases changed.2
  cases isStuckNext

theorem keepsAwake_handle : KeepsAwake (handle true) := by
  intro worker next changed isStuckNext
  rw [handle, Option.ite_none_right_eq_some] at changed
  cases changed.2
  cases isStuckNext

/-- A connection wakes the worker that gets it. -/
theorem isStuck_of_arrive
    (changed : worker.arrive = some next) :
    next.isStuck = false := by
  rw [arrive, Option.ite_none_right_eq_some] at changed
  cases changed.2
  simp [isStuck]

theorem keepsAwake_arrive : KeepsAwake arrive := by
  intro worker next changed isStuckNext
  rw [isStuck_of_arrive changed] at isStuckNext
  cases isStuckNext

end Worker

variable {cluster next : Cluster}

theorem exists_of_onWorker
    {id : Nat} {change : Worker → Option Worker}
    (stepEq : cluster.onWorker id change = some next) :
    ∃ worker changed, cluster.workers[id]? = some worker ∧ change worker = some changed ∧
      next = { cluster with workers := cluster.workers.set id changed } := by
  obtain ⟨changed, changeEq, rfl⟩ := Option.map_eq_some_iff.mp stepEq
  obtain ⟨worker, found, workerEq⟩ := Option.bind_eq_some_iff.mp changeEq
  exact ⟨worker, changed, found, workerEq, rfl⟩

/-- How many workers are stuck when one of them changes. -/
theorem countP_set_add
    {workers : List Worker} {id : Nat} {worker : Worker}
    (found : workers[id]? = some worker)
    (changed : Worker) :
    (workers.set id changed).countP Worker.isStuck + (if worker.isStuck then 1 else 0) =
      workers.countP Worker.isStuck + (if changed.isStuck then 1 else 0) := by
  obtain ⟨within, isWorker⟩ := List.getElem?_eq_some_iff.mp found
  rw [List.countP_set within, isWorker]
  by_cases isStuck : worker.isStuck = true
  · have some : 0 < workers.countP Worker.isStuck :=
      List.countP_pos_iff.mpr ⟨worker, List.mem_of_getElem? found, isStuck⟩
    rw [if_pos isStuck]
    omega
  · rw [if_neg isStuck]
    omega

theorem stuck_onWorker
    {id : Nat} {change : Worker → Option Worker}
    (keepsAwake : Worker.KeepsAwake change)
    (stepEq : cluster.onWorker id change = some next) :
    next.mainThread = cluster.mainThread ∧ next.shutdownFlag = cluster.shutdownFlag ∧
      next.stuck ≤ cluster.stuck := by
  obtain ⟨worker, changed, found, changeEq, rfl⟩ := exists_of_onWorker stepEq
  refine ⟨rfl, rfl, ?_⟩
  have count := countP_set_add found changed
  simp only [Cluster.stuck]
  by_cases isStuck : changed.isStuck = true
  · rw [if_pos isStuck, if_pos (keepsAwake worker changed changeEq isStuck)] at count
    omega
  · rw [if_neg isStuck] at count
    omega

/-! ## Runs -/

/-- Once the flag is set, there is a wake-up connection for every worker that is
stuck. -/
def Awake (cluster : Cluster) : Prop :=
  match cluster.mainThread with
  | .starting _ => True
  | .serving => True
  | .waking remaining => cluster.shutdownFlag = true ∧ cluster.stuck ≤ remaining
  | .joining _ => cluster.shutdownFlag = true ∧ cluster.stuck = 0
  | .returned => True

theorem awake_worker
    (awake : Awake cluster)
    (same : cluster.shutdownFlag = true → next.mainThread = cluster.mainThread ∧
      next.shutdownFlag = cluster.shutdownFlag ∧ next.stuck ≤ cluster.stuck)
    (mainThread : next.mainThread = cluster.mainThread) :
    Awake next := by
  unfold Awake at awake ⊢
  rw [mainThread]
  split at awake
  · trivial
  · trivial
  · obtain ⟨flag, enough⟩ := awake
    obtain ⟨mainThread, flagStays, fewer⟩ := same flag
    exact ⟨flagStays.trans flag, Nat.le_trans fewer enough⟩
  · obtain ⟨flag, none⟩ := awake
    obtain ⟨mainThread, flagStays, fewer⟩ := same flag
    exact ⟨flagStays.trans flag, by omega⟩
  · trivial

theorem awake_onWorker
    {id : Nat} {change : Worker → Option Worker}
    (awake : Awake cluster)
    (keepsAwake : cluster.shutdownFlag = true → Worker.KeepsAwake change)
    (stepEq : cluster.onWorker id change = some next) :
    Awake next := by
  refine awake_worker awake (fun flag => stuck_onWorker (keepsAwake flag) stepEq) ?_
  obtain ⟨worker, changed, found, changeEq, rfl⟩ := exists_of_onWorker stepEq
  rfl

theorem awake_receive
    (meets : cluster.startup.head? = some false → cluster.stuck ≤ cluster.mainThread.received)
    (stepEq : cluster.receive = some next) :
    Awake next := by
  unfold Cluster.receive at stepEq
  split at stepEq
  · rename_i received rest isStarting reports
    cases stepEq
    by_cases isLast : received + 1 = cluster.workers.length
    · simp only [Awake, if_pos isLast]
    · simp only [Awake, if_neg isLast]
  · rename_i received rest isStarting reports
    cases stepEq
    rw [isStarting, reports] at meets
    exact ⟨rfl, meets rfl⟩
  · cases stepEq

theorem awake_close
    (stepEq : cluster.close = some next) :
    Awake next := by
  rw [Cluster.close, Option.ite_none_right_eq_some] at stepEq
  cases stepEq.2
  exact ⟨rfl, List.countP_le_length⟩

theorem awake_wake
    {target : Option Nat}
    (awake : Awake cluster)
    (meets : cluster.wakesStuck target = true ∨ cluster.stuck < cluster.mainThread.remaining)
    (stepEq : cluster.wake target = some next) :
    Awake next := by
  unfold Cluster.wake at stepEq
  unfold Awake at awake
  split at stepEq
  · rename_i remaining id isWaking
    rw [isWaking] at awake meets
    obtain ⟨flag, enough⟩ := awake
    obtain ⟨worker, changed, found, changeEq, rfl⟩ := exists_of_onWorker stepEq
    refine ⟨flag, ?_⟩
    have count := countP_set_add found changed
    rw [Worker.isStuck_of_arrive changeEq, if_neg Bool.false_ne_true] at count
    simp only [Cluster.stuck, MainThread.remaining] at count enough meets ⊢
    cases meets with
    | inl isStuck =>
        have wasStuck : worker.isStuck = true := by
          rw [Cluster.wakesStuck, Option.bind_some, found] at isStuck
          exact isStuck
        rw [if_pos wasStuck] at count
        omega
    | inr fewer => omega
  · rename_i remaining isWaking
    rw [isWaking] at awake meets
    cases stepEq
    refine ⟨awake.1, ?_⟩
    cases meets with
    | inl isStuck => cases isStuck
    | inr fewer => exact Nat.le_of_lt_succ fewer
  · cases stepEq

theorem awake_join
    (awake : Awake cluster)
    (stepEq : cluster.join = some next) :
    Awake next := by
  unfold Cluster.join at stepEq
  unfold Awake at awake
  split at stepEq
  · rename_i isWaking
    rw [isWaking] at awake
    cases stepEq
    exact ⟨awake.1, Nat.eq_zero_of_le_zero awake.2⟩
  · rename_i id isJoining
    rw [isJoining] at awake
    split at stepEq
    · split at stepEq <;> cases stepEq
      exact awake
    · cases stepEq
      trivial
  · cases stepEq

theorem awake_step
    {event : ClusterEvent}
    (awake : Awake cluster)
    (meets : WakesAll cluster event)
    (stepEq : cluster.step event = some next) :
    Awake next := by
  cases event with
  | bind id bound =>
      obtain ⟨changed, changedEq, rfl⟩ := Option.map_eq_some_iff.mp stepEq
      have awakeChanged := awake_onWorker awake (fun _ => Worker.keepsAwake_bind bound) changedEq
      exact awakeChanged
  | check id =>
      refine awake_onWorker awake (fun flag => ?_) stepEq
      rw [flag]
      exact Worker.keepsAwake_check
  | accept id => exact awake_onWorker awake (fun _ => Worker.keepsAwake_accept) stepEq
  | acceptFails id => exact awake_onWorker awake (fun _ => Worker.keepsAwake_acceptFails) stepEq
  | handle id =>
      refine awake_onWorker awake (fun flag => ?_) stepEq
      rw [flag]
      exact Worker.keepsAwake_handle
  | arrive id => exact awake_onWorker awake (fun _ => Worker.keepsAwake_arrive) stepEq
  | receive => exact awake_receive meets stepEq
  | close => exact awake_close stepEq
  | wake target => exact awake_wake awake meets stepEq
  | join => exact awake_join awake stepEq

/-! ## Workers exit -/

theorem onWorker_of_found
    {id : Nat} {worker changed : Worker} {change : Worker → Option Worker}
    (found : cluster.workers[id]? = some worker)
    (changeEq : change worker = some changed) :
    cluster.onWorker id change = some { cluster with workers := cluster.workers.set id changed } := by
  rw [Cluster.onWorker, found, Option.bind_some, changeEq, Option.map_some]

/-- A worker with a connection or an error sees the flag. -/
theorem exitSteps_handle
    {id : Nat} {worker : Worker}
    (flag : cluster.shutdownFlag = true)
    (found : cluster.workers[id]? = some worker)
    (accepted : worker.phase = .accepted) :
    ExitSteps cluster { cluster with workers := cluster.workers.set id .exit } := by
  refine .single ⟨.handle id, rfl, onWorker_of_found found ?_⟩
  rw [Worker.handle, if_pos accepted, if_pos flag]

/-- A worker that is not stuck exits. -/
theorem exists_exited
    {id : Nat} {worker : Worker}
    (flag : cluster.shutdownFlag = true)
    (found : cluster.workers[id]? = some worker)
    (awake : worker.isStuck = false) :
    ∃ next changed, ExitSteps cluster next ∧ changed.phase = .exited ∧
      next.workers = cluster.workers.set id changed ∧ next.shutdownFlag = true ∧
      next.mainThread = cluster.mainThread := by
  obtain ⟨within, isWorker⟩ := List.getElem?_eq_some_iff.mp found
  cases phase : worker.phase with
  | starting =>
      refine ⟨{ cluster with
        workers := cluster.workers.set id .exit
        startup := cluster.startup ++ [false] }, .exit, .single ⟨.bind id false, rfl, ?_⟩,
        rfl, rfl, flag, rfl⟩
      have bound : Worker.bind false worker = some .exit := if_pos phase
      rw [Cluster.step, onWorker_of_found found bound, Option.map_some]
  | checking =>
      refine ⟨_, .exit, .single ⟨.check id, rfl, onWorker_of_found found ?_⟩, rfl, rfl, flag, rfl⟩
      rw [Worker.check, if_pos phase, if_pos flag]
  | accepting =>
      have some : 0 < worker.pending := by
        by_contra none
        have isEmpty : worker.pending = 0 := by omega
        rw [Worker.isStuck, phase, isEmpty] at awake
        cases awake
      have accepted : worker.accept = Option.some ⟨.accepted, worker.pending - 1⟩ :=
        if_pos ⟨phase, some⟩
      refine ⟨_, .exit, .trans (.single ⟨.accept id, rfl, onWorker_of_found found accepted⟩)
        (exitSteps_handle flag (List.getElem?_set_self within) rfl), rfl, ?_, flag, rfl⟩
      exact List.set_set ..
  | accepted => exact ⟨_, .exit, exitSteps_handle flag found phase, rfl, rfl, flag, rfl⟩
  | exited =>
      refine ⟨cluster, worker, .refl, phase, ?_, flag, rfl⟩
      rw [← isWorker, List.set_getElem_self]

/-- Whoever waits for the workers from some worker on gets to the end. -/
theorem exists_returned
    {left id : Nat}
    (flag : cluster.shutdownFlag = true)
    (awake : ∀ worker ∈ cluster.workers, worker.isStuck = false)
    (joining : cluster.mainThread = .joining id)
    (leftEq : left = cluster.workers.length - id) :
    ∃ next, ExitSteps cluster next ∧ next.mainThread = .returned := by
  induction left generalizing cluster id with
  | zero =>
      have behind : cluster.workers[id]? = none := List.getElem?_eq_none (by omega)
      refine ⟨{ cluster with mainThread := .returned }, .single ⟨.join, rfl, ?_⟩, rfl⟩
      rw [Cluster.step, Cluster.join, joining]
      simp only [behind]
  | succ left hypothesis =>
      have within : id < cluster.workers.length := by omega
      have found : cluster.workers[id]? = some cluster.workers[id] := List.getElem?_eq_getElem within
      obtain ⟨exited, changed, steps, isExited, workers, exitedFlag, mainThread⟩ :=
        exists_exited flag found (awake _ (List.getElem_mem within))
      have foundExited : exited.workers[id]? = some changed := by
        rw [workers]
        exact List.getElem?_set_self within
      have joined : exited.step .join = some { exited with mainThread := .joining (id + 1) } := by
        rw [Cluster.step, Cluster.join, mainThread, joining]
        simp only [foundExited]
        rw [if_pos isExited]
      have awakeExited : ∀ worker ∈ exited.workers, worker.isStuck = false := by
        intro worker isMember
        rw [workers] at isMember
        cases List.mem_or_eq_of_mem_set isMember with
        | inl isEarlier => exact awake worker isEarlier
        | inr isChanged =>
            rw [isChanged]
            refine Worker.isStuck_eq_false ?_
            rw [isExited]
            exact WorkerPhase.noConfusion
      have lengthEq : exited.workers.length = cluster.workers.length := by
        rw [workers, List.length_set]
      obtain ⟨next, moreSteps, returned⟩ := @hypothesis
        { exited with mainThread := .joining (id + 1) } (id + 1) exitedFlag awakeExited rfl
        (by simp only [lengthEq]; omega)
      exact ⟨next, (steps.tail ⟨.join, rfl, joined⟩).trans moreSteps, returned⟩

theorem closesDown_of_awake
    (awake : Awake cluster) :
    ClosesDown cluster := by
  have noneStuck : ∀ id, cluster.mainThread = .joining id →
      cluster.shutdownFlag = true ∧ ∀ worker ∈ cluster.workers, worker.isStuck = false := by
    intro id joining
    rw [Awake, joining] at awake
    refine ⟨awake.1, ?_⟩
    intro worker isMember
    have none := List.countP_eq_zero.mp awake.2 worker isMember
    exact Bool.eq_false_iff.mpr none
  refine ⟨?_, ?_⟩
  · intro id worker joining found
    exact (noneStuck id joining).2 worker (List.mem_of_getElem? found)
  · intro id joining
    obtain ⟨flag, awakeAll⟩ := noneStuck id joining
    exact exists_returned flag awakeAll joining rfl

/-- In a run in which the wake-up connections are enough for the workers that nothing
wakes, `close` and a start that fails return. -/
theorem closesDown_of_wakesAll
    (count : Nat)
    (reaches : (clusterMachine count).ReachesUnder WakesAll cluster) :
    ClosesDown cluster := by
  refine closesDown_of_awake (reaches.invariant trivial ?_)
  intro state event next awake meets stepEq
  exact awake_step awake meets stepEq

/-! ## Connections that go elsewhere -/

/-- There are more workers that nothing wakes than wake-up connections. -/
structure Skewed (cluster : Cluster) : Prop where
  flag : cluster.shutdownFlag = true
  tooFew : cluster.mainThread.remaining < cluster.stuck
  closing : match cluster.mainThread with
    | .waking _ => True
    | .joining id => ∀ other < id, ∀ worker, cluster.workers[other]? = some worker →
        worker.phase = .exited
    | _ => False

namespace Worker

variable {worker next : Worker}

/-- Without a connection and an error, a stuck worker stays, and so does one that has
exited. -/
def KeepsStuck (change : Worker → Option Worker) : Prop :=
  ∀ worker next, change worker = some next → worker.isStuck = false ∧ worker.phase ≠ .exited

theorem keepsStuck_bind
    (bound : Bool) :
    KeepsStuck (bind bound) := by
  intro worker next changed
  rw [bind, Option.ite_none_right_eq_some] at changed
  refine ⟨isStuck_eq_false ?_, ?_⟩ <;> rw [changed.1] <;> exact WorkerPhase.noConfusion

theorem keepsStuck_check
    (flag : Bool) :
    KeepsStuck (check flag) := by
  intro worker next changed
  rw [check, Option.ite_none_right_eq_some] at changed
  refine ⟨isStuck_eq_false ?_, ?_⟩ <;> rw [changed.1] <;> exact WorkerPhase.noConfusion

theorem keepsStuck_accept : KeepsStuck accept := by
  intro worker next changed
  rw [accept, Option.ite_none_right_eq_some] at changed
  obtain ⟨⟨accepting, some⟩, changed⟩ := changed
  refine ⟨?_, ?_⟩
  · have notEmpty : worker.pending ≠ 0 := by omega
    rw [isStuck, decide_eq_false notEmpty, Bool.and_false]
  · rw [accepting]
    exact WorkerPhase.noConfusion

theorem keepsStuck_handle
    (flag : Bool) :
    KeepsStuck (handle flag) := by
  intro worker next changed
  rw [handle, Option.ite_none_right_eq_some] at changed
  refine ⟨isStuck_eq_false ?_, ?_⟩ <;> rw [changed.1] <;> exact WorkerPhase.noConfusion

end Worker

theorem skewed_onWorker
    {id : Nat} {change : Worker → Option Worker}
    (skewed : Skewed cluster)
    (keepsStuck : Worker.KeepsStuck change)
    (stepEq : cluster.onWorker id change = some next) :
    Skewed next := by
  obtain ⟨worker, changed, found, changeEq, rfl⟩ := exists_of_onWorker stepEq
  obtain ⟨notStuck, notExited⟩ := keepsStuck worker changed changeEq
  refine ⟨skewed.flag, ?_, ?_⟩
  · have count := countP_set_add found changed
    have tooFew := skewed.tooFew
    rw [notStuck, if_neg Bool.false_ne_true] at count
    simp only [Cluster.stuck] at tooFew ⊢
    omega
  · have closing := skewed.closing
    dsimp only
    split
    · trivial
    · rename_i joined joining
      rw [joining] at closing
      intro other before later foundLater
      by_cases same : other = id
      · subst same
        exact absurd (closing other before worker found) notExited
      · rw [List.getElem?_set_ne (Ne.symm same)] at foundLater
        exact closing other before later foundLater
    · rename_i notWaking notJoining
      split at closing
      · rename_i remaining waking
        exact notWaking remaining waking
      · rename_i joined joining
        exact notJoining joined joining
      · exact closing

theorem skewed_wake
    {target : Option Nat}
    (skewed : Skewed cluster)
    (stepEq : cluster.wake target = some next) :
    Skewed next := by
  have tooFew := skewed.tooFew
  unfold Cluster.wake at stepEq
  split at stepEq
  · rename_i remaining id isWaking
    rw [isWaking] at tooFew
    obtain ⟨worker, changed, found, changeEq, rfl⟩ := exists_of_onWorker stepEq
    refine ⟨skewed.flag, ?_, trivial⟩
    have count := countP_set_add found changed
    simp only [Cluster.stuck, MainThread.remaining] at count tooFew ⊢
    split at count <;> omega
  · rename_i remaining isWaking
    rw [isWaking] at tooFew
    cases stepEq
    refine ⟨skewed.flag, ?_, trivial⟩
    simp only [Cluster.stuck, MainThread.remaining] at tooFew ⊢
    omega
  · cases stepEq

theorem skewed_join
    (skewed : Skewed cluster)
    (stepEq : cluster.join = some next) :
    Skewed next := by
  obtain ⟨flag, tooFew, closing⟩ := skewed
  unfold Cluster.join at stepEq
  split at stepEq
  · rename_i isWaking
    rw [isWaking] at tooFew
    cases stepEq
    refine ⟨flag, tooFew, ?_⟩
    intro other before
    exact absurd before (Nat.not_lt_zero other)
  · rename_i id isJoining
    rw [isJoining] at tooFew closing
    split at stepEq
    · rename_i worker found
      rw [Option.ite_none_right_eq_some] at stepEq
      obtain ⟨isExited, stepEq⟩ := stepEq
      cases stepEq
      refine ⟨flag, tooFew, ?_⟩
      intro other before later foundLater
      by_cases same : other = id
      · subst same
        cases found.symm.trans foundLater
        exact isExited
      · exact closing other (by omega) later foundLater
    · rename_i behind
      obtain ⟨worker, isMember, isStuck⟩ := List.countP_pos_iff.mp tooFew
      obtain ⟨other, found⟩ := List.mem_iff_getElem?.mp isMember
      have within := (List.getElem?_eq_some_iff.mp found).1
      have all := List.getElem?_eq_none_iff.mp behind
      have isExited := closing other (by omega) worker found
      rw [Worker.isStuck, isExited] at isStuck
      cases isStuck
  · cases stepEq

/-- Nothing but a connection of a client, or an error of a listener, helps. -/
def ClusterEvent.NoHelp : ClusterEvent → Prop
  | .acceptFails _ => False
  | .arrive _ => False
  | _ => True

theorem skewed_step
    {event : ClusterEvent}
    (skewed : Skewed cluster)
    (noHelp : event.NoHelp)
    (stepEq : cluster.step event = some next) :
    Skewed next := by
  have closing := skewed.closing
  cases event with
  | bind id bound =>
      obtain ⟨changed, changedEq, rfl⟩ := Option.map_eq_some_iff.mp stepEq
      obtain ⟨flag, tooFew, closing⟩ :=
        skewed_onWorker skewed (Worker.keepsStuck_bind bound) changedEq
      exact ⟨flag, tooFew, closing⟩
  | check id => exact skewed_onWorker skewed (Worker.keepsStuck_check _) stepEq
  | accept id => exact skewed_onWorker skewed Worker.keepsStuck_accept stepEq
  | acceptFails id => cases noHelp
  | handle id => exact skewed_onWorker skewed (Worker.keepsStuck_handle _) stepEq
  | arrive id => cases noHelp
  | receive =>
      simp only [Cluster.step, Cluster.receive] at stepEq
      split at stepEq
      · rename_i isStarting reports
        rw [isStarting] at closing
        exact closing.elim
      · rename_i isStarting reports
        rw [isStarting] at closing
        exact closing.elim
      · cases stepEq
  | close =>
      rw [Cluster.step, Cluster.close, Option.ite_none_right_eq_some] at stepEq
      rw [stepEq.1] at closing
      exact closing.elim
  | wake target => exact skewed_wake skewed stepEq
  | join => exact skewed_join skewed stepEq

/-- When the wake-up connections that are left are fewer than the workers that
nothing wakes, `close` does not return, wherever the kernel gives them. -/
theorem not_returned_of_skewed
    (skewed : Skewed cluster)
    (reaches : (Machine.mk cluster Cluster.step).ReachesUnder
      (fun _ event => event.NoHelp) next) :
    next.mainThread ≠ .returned := by
  have stays : Skewed next := by
    refine reaches.invariant skewed ?_
    intro state event later skewed noHelp stepEq
    exact skewed_step skewed noHelp stepEq
  intro returned
  have closing := stays.closing
  rw [returned] at closing
  exact closing

/-! ## Two workers -/

/-- Two workers that accept, and a call of `close`. -/
def closeEvents : List ClusterEvent :=
  [.bind 0 true, .bind 1 true, .receive, .receive, .check 0, .check 1, .close]

/-- Each listener gets a wake-up connection. -/
theorem closesDown_of_wakesAll_evenly :
    ∃ cluster, (clusterMachine 2).ReachesUnder WakesAll cluster ∧
      cluster.mainThread = .joining 1 ∧ cluster.workers = [.exit, ⟨.accepting, 1⟩] ∧
      ClosesDown cluster :=
  have reaches := Machine.reachesUnder_of_run
    (closeEvents ++ [.wake (some 1), .wake (some 0), .join, .accept 0, .handle 0, .join]) rfl
  ⟨_, reaches, rfl, rfl, closesDown_of_wakesAll 2 reaches⟩

/-- Both wake-up connections go to one listener. -/
theorem not_closesDown_of_skewed :
    ¬ ∀ cluster, (clusterMachine 2).Reaches cluster → ClosesDown cluster := by
  intro closesDown
  have reaches : (clusterMachine 2).Reaches
      { workers := [.exit, ⟨.accepting, 0⟩], shutdownFlag := true, startup := [],
        mainThread := .joining 1 } :=
    Machine.reachesUnder_of_run
      (closeEvents ++ [.wake (some 0), .wake (some 0), .join, .accept 0, .handle 0, .join]) rfl
  cases (closesDown _ reaches).notStuck 1 ⟨.accepting, 0⟩ rfl rfl

end Lifecycle
end HttpNative
