import HttpNative.Library.Machine
import Mathlib.Data.List.Count

/-!
# The connections of a worker

The accept loop of a worker counts a connection before it spawns the task, and the
task takes it off the count at its end. A task that returns early, because the
stream cannot be converted, does not get there.
-/

namespace HttpNative
namespace Lifecycle

/-- `MAX_CONNECTIONS_PER_WORKER` -/
def maxConnectionsPerWorker : Nat := 4096

/-- Where the task of a connection is. -/
inductive ConnectionTask where
  /-- With TLS, before the stream is converted to poll I/O. -/
  | converting
  | handshaking
  /-- In the handler of one of the protocols. -/
  | handling
  | ended
deriving DecidableEq

/-- How a task goes on. -/
inductive TaskStep where
  | convert (succeeds : Bool)
  | handshake (succeeds : Bool)
  | handle (succeeds : Bool)
deriving DecidableEq

namespace ConnectionTask

/-- The task has been spawned and has not ended. -/
def isOpen (task : ConnectionTask) : Bool :=
  task ≠ .ended

/-- The block of the task. -/
def advance : ConnectionTask → TaskStep → Option ConnectionTask
  | .converting, .convert true => some .handshaking
  | .converting, .convert false => some .ended
  | .handshaking, .handshake true => some .handling
  | .handshaking, .handshake false => some .ended
  | .handling, .handle _ => some .ended
  | _, _ => none

/-- The task gets to its last line; it returns before it where the conversion
fails. -/
def lowersCount : ConnectionTask → TaskStep → Bool
  | .handshaking, .handshake false => true
  | .handling, .handle _ => true
  | _, _ => false

end ConnectionTask

/-! ## The accept loop -/

/-- `run_server`. -/
structure AcceptLoop where
  running : Bool
  shutdownFlag : Bool
  drainingFlag : Bool
  activeConnections : Nat
  tasks : List ConnectionTask
deriving DecidableEq

inductive AcceptEvent where
  | accept
  | acceptError
  | setShutdown
  | setDraining
  | task (id : Nat) (step : TaskStep)
deriving DecidableEq

/-- What becomes of a socket that is accepted. -/
inductive Admission where
  /-- The loop is left. -/
  | left
  | drained
  | refused
  | spawned
deriving DecidableEq

namespace AcceptLoop

/-- The connections that are open. -/
def openTasks (loop : AcceptLoop) : Nat :=
  loop.tasks.countP ConnectionTask.isOpen

def admission (loop : AcceptLoop) : Admission :=
  if loop.shutdownFlag then .left
  else if loop.drainingFlag then .drained
  else if maxConnectionsPerWorker ≤ loop.activeConnections then .refused
  else .spawned

def accept (tls : Bool) (loop : AcceptLoop) : AcceptLoop :=
  match loop.admission with
  | .left => { loop with running := false }
  | .drained => loop
  | .refused => loop
  | .spawned =>
      { loop with
        activeConnections := loop.activeConnections + 1
        tasks := loop.tasks ++ [if tls then .converting else .handling] }

def advanceTask (loop : AcceptLoop) (id : Nat) (step : TaskStep) : Option AcceptLoop :=
  loop.tasks[id]?.bind fun task =>
    (task.advance step).map fun next =>
      { loop with
        activeConnections :=
          if task.lowersCount step then loop.activeConnections - 1 else loop.activeConnections
        tasks := loop.tasks.set id next }

/-- Nothing runs on the worker any more when the loop has been left. -/
def step (tls : Bool) (loop : AcceptLoop) (event : AcceptEvent) : Option AcceptLoop :=
  if loop.running then
    match event with
    | .accept => some (loop.accept tls)
    | .acceptError => some { loop with running := !loop.shutdownFlag }
    | .setShutdown => some { loop with shutdownFlag := true }
    | .setDraining => some { loop with drainingFlag := true }
    | .task id step => loop.advanceTask id step
  else
    none

end AcceptLoop

def acceptMachine (tls : Bool) : Machine AcceptLoop AcceptEvent where
  start :=
    { running := true, shutdownFlag := false, drainingFlag := false, activeConnections := 0
      tasks := [] }
  step := AcceptLoop.step tls

/-- The conversion of a stream to poll I/O has failed. -/
def AcceptEvent.isFailedConversion : AcceptEvent → Bool
  | .task _ (.convert false) => true
  | _ => false

/-! ## The count -/

/-- The count is the number of open connections, and within the limit, so that a
connection is refused only while that many are open. -/
structure KeepsCount (loop : AcceptLoop) : Prop where
  counted : loop.activeConnections = loop.openTasks
  bounded : loop.activeConnections ≤ maxConnectionsPerWorker
  refuses : loop.admission = .refused → loop.openTasks = maxConnectionsPerWorker

/-- The failed conversions of a history. -/
def failedConversions (history : List AcceptEvent) : Nat :=
  history.countP AcceptEvent.isFailedConversion

/-- Each failed conversion stays on the count. -/
structure CountsFailures (run : AcceptLoop × List AcceptEvent) : Prop where
  counted : run.1.activeConnections = run.1.openTasks + failedConversions run.2
  bounded : run.1.activeConnections ≤ maxConnectionsPerWorker

theorem failedConversions_cons
    (event : AcceptEvent)
    (history : List AcceptEvent) :
    failedConversions (event :: history) =
      failedConversions history + if event.isFailedConversion then 1 else 0 :=
  List.countP_cons

/-- A task that goes on is open; it ends with a lowered count, or through a failed
conversion. -/
theorem ConnectionTask.advance_cases
    {task next : ConnectionTask} {step : TaskStep}
    (advances : task.advance step = some next) :
    task.isOpen = true ∧
      (next.isOpen = true ∧ task.lowersCount step = false ∧ step ≠ .convert false ∨
        next.isOpen = false ∧ task.lowersCount step = true ∧ step ≠ .convert false ∨
        next.isOpen = false ∧ task.lowersCount step = false ∧ step = .convert false) := by
  unfold advance at advances
  split at advances
  · cases advances
    exact ⟨rfl, .inl ⟨rfl, rfl, by decide⟩⟩
  · cases advances
    exact ⟨rfl, .inr (.inr ⟨rfl, rfl, rfl⟩)⟩
  · cases advances
    exact ⟨rfl, .inl ⟨rfl, rfl, by decide⟩⟩
  · cases advances
    exact ⟨rfl, .inr (.inl ⟨rfl, rfl, by decide⟩)⟩
  · cases advances
    exact ⟨rfl, .inr (.inl ⟨rfl, rfl, TaskStep.noConfusion⟩)⟩
  · cases advances

theorem AcceptEvent.isFailedConversion_task
    (id : Nat)
    (step : TaskStep) :
    (AcceptEvent.task id step).isFailedConversion = decide (step = .convert false) := by
  cases step with
  | convert succeeds => cases succeeds <;> rfl
  | handshake succeeds => rfl
  | handle succeeds => rfl

section Steps

variable {tls : Bool} {loop next : AcceptLoop} {history : List AcceptEvent}

theorem countsFailures_accept
    (counts : CountsFailures (loop, history)) :
    CountsFailures (loop.accept tls, .accept :: history) := by
  have failed : failedConversions (.accept :: history) = failedConversions history :=
    failedConversions_cons _ _
  obtain ⟨counted, bounded⟩ := counts
  rw [AcceptLoop.accept]
  cases admission : loop.admission with
  | left => exact ⟨counted.trans (congrArg _ failed.symm), bounded⟩
  | drained => exact ⟨counted.trans (congrArg _ failed.symm), bounded⟩
  | refused => exact ⟨counted.trans (congrArg _ failed.symm), bounded⟩
  | spawned =>
      have room : ¬ maxConnectionsPerWorker ≤ loop.activeConnections := by
        intro full
        unfold AcceptLoop.admission at admission
        split_ifs at admission
      have spawned : (loop.tasks ++ [if tls then ConnectionTask.converting else .handling]).countP
          ConnectionTask.isOpen = loop.openTasks + 1 := by
        rw [List.countP_append]
        cases tls <;> rfl
      refine ⟨?_, Nat.lt_of_not_le room⟩
      have before : loop.activeConnections = loop.openTasks + failedConversions history := counted
      change loop.activeConnections + 1 =
        List.countP ConnectionTask.isOpen
          (loop.tasks ++ [if tls then ConnectionTask.converting else .handling]) +
            failedConversions (.accept :: history)
      rw [spawned, failed]
      omega

theorem countsFailures_task
    {id : Nat} {step : TaskStep}
    (counts : CountsFailures (loop, history))
    (stepped : loop.advanceTask id step = some next) :
    CountsFailures (next, .task id step :: history) := by
  obtain ⟨task, found, advanced⟩ := Option.bind_eq_some_iff.mp stepped
  obtain ⟨nextTask, advances, rfl⟩ := Option.map_eq_some_iff.mp advanced
  obtain ⟨small, here⟩ := List.getElem?_eq_some_iff.mp found
  obtain ⟨isOpen, outcome⟩ := ConnectionTask.advance_cases advances
  have before : loop.activeConnections = loop.openTasks + failedConversions history :=
    counts.counted
  have atLeastOne : 0 < loop.openTasks := by
    refine List.countP_pos_iff.mpr ⟨task, ?_, isOpen⟩
    rw [← here]
    exact List.getElem_mem small
  have after : (loop.tasks.set id nextTask).countP ConnectionTask.isOpen =
      loop.openTasks - 1 + if nextTask.isOpen then 1 else 0 := by
    rw [List.countP_set small, here, if_pos isOpen]
    rfl
  have bounded : loop.activeConnections ≤ maxConnectionsPerWorker := counts.bounded
  constructor
  · change (if task.lowersCount step then loop.activeConnections - 1
        else loop.activeConnections) =
      (loop.tasks.set id nextTask).countP ConnectionTask.isOpen +
        failedConversions (.task id step :: history)
    rw [after, failedConversions_cons, AcceptEvent.isFailedConversion_task]
    rcases outcome with ⟨stays, lowers, converts⟩ | ⟨stays, lowers, converts⟩ |
      ⟨stays, lowers, rfl⟩
    · simp only [stays, lowers, converts, decide_false, if_true, Bool.false_eq_true, if_false]
      omega
    · simp only [stays, lowers, converts, decide_false, if_true, Bool.false_eq_true, if_false]
      omega
    · simp only [stays, lowers, decide_true, if_true, Bool.false_eq_true, if_false]
      omega
  · change (if task.lowersCount step then loop.activeConnections - 1
      else loop.activeConnections) ≤ maxConnectionsPerWorker
    split <;> omega

theorem countsFailures_step
    {event : AcceptEvent}
    (counts : CountsFailures (loop, history))
    (stepped : loop.step tls event = some next) :
    CountsFailures (next, event :: history) := by
  have unchanged : event.isFailedConversion = false →
      loop.openTasks + failedConversions history =
        loop.openTasks + failedConversions (event :: history) := by
    intro succeeds
    rw [failedConversions_cons, succeeds]
    rfl
  unfold AcceptLoop.step at stepped
  split at stepped
  · cases event with
    | accept =>
        cases stepped
        exact countsFailures_accept counts
    | acceptError =>
        cases stepped
        exact ⟨counts.counted.trans (unchanged rfl), counts.bounded⟩
    | setShutdown =>
        cases stepped
        exact ⟨counts.counted.trans (unchanged rfl), counts.bounded⟩
    | setDraining =>
        cases stepped
        exact ⟨counts.counted.trans (unchanged rfl), counts.bounded⟩
    | task id step => exact countsFailures_task counts stepped
  · cases stepped

end Steps

/-! ## Runs -/

theorem countsFailures_of_reaches
    {tls : Bool} {run : AcceptLoop × List AcceptEvent}
    (reaches : (acceptMachine tls).traced.Reaches run) :
    CountsFailures run := by
  refine reaches.invariant ⟨rfl, Nat.zero_le _⟩ fun before event after counts _ stepped => ?_
  obtain ⟨taken, recorded⟩ := Machine.traced_step stepped
  have kept := countsFailures_step counts taken
  rw [← recorded] at kept
  exact kept

/-- The count is right in a state exactly when no conversion has failed on the way
to it. -/
theorem keepsCount_iff
    {tls : Bool} {run : AcceptLoop × List AcceptEvent}
    (reaches : (acceptMachine tls).traced.Reaches run) :
    KeepsCount run.1 ↔ ∀ event ∈ run.2, event.isFailedConversion = false := by
  obtain ⟨counted, bounded⟩ := countsFailures_of_reaches reaches
  have none_iff : failedConversions run.2 = 0 ↔
      ∀ event ∈ run.2, event.isFailedConversion = false := by
    rw [failedConversions, List.countP_eq_zero]
    simp only [Bool.not_eq_true]
  rw [← none_iff]
  constructor
  · intro keeps
    have same := keeps.counted
    omega
  · intro none
    rw [none, Nat.add_zero] at counted
    refine ⟨counted, bounded, fun refused => ?_⟩
    have full : maxConnectionsPerWorker ≤ run.1.activeConnections := by
      unfold AcceptLoop.admission at refused
      split_ifs at refused with _ _ full
      exact full
    omega

/-! ## Failed conversions -/

/-- After that many connections over TLS whose streams are not converted. -/
def afterFailures (count : Nat) : AcceptLoop where
  running := true
  shutdownFlag := false
  drainingFlag := false
  activeConnections := count
  tasks := List.replicate count .ended

/-- The next connection has been accepted. -/
def acceptedAfterFailures (count : Nat) : AcceptLoop where
  running := true
  shutdownFlag := false
  drainingFlag := false
  activeConnections := count + 1
  tasks := List.replicate count .ended ++ [.converting]

theorem step_accept_afterFailures
    {count : Nat}
    (room : count < maxConnectionsPerWorker) :
    (acceptMachine true).step (afterFailures count) .accept =
      some (acceptedAfterFailures count) := by
  have spawned : (afterFailures count).admission = .spawned := if_neg (Nat.not_le.mpr room)
  change some ((afterFailures count).accept true) = _
  rw [AcceptLoop.accept, spawned]
  rfl

theorem step_convert_afterFailures
    (count : Nat) :
    (acceptMachine true).step (acceptedAfterFailures count) (.task count (.convert false)) =
      some (afterFailures (count + 1)) := by
  have last : (acceptedAfterFailures count).tasks[count]? = some .converting := by
    simp [acceptedAfterFailures]
  have ended : (acceptedAfterFailures count).tasks.set count .ended =
      List.replicate (count + 1) .ended := by
    rw [acceptedAfterFailures, List.set_append_right _ _ (by simp)]
    simp [List.replicate_succ']
  change (acceptedAfterFailures count).advanceTask count (.convert false) = _
  rw [AcceptLoop.advanceTask, last, Option.bind_some, ConnectionTask.advance, Option.map_some,
    ended]
  rfl

theorem reaches_afterFailures
    {count : Nat}
    (most : count ≤ maxConnectionsPerWorker) :
    (acceptMachine true).Reaches (afterFailures count) := by
  induction count with
  | zero => exact .start
  | succ count hypothesis =>
      have spawned := (hypothesis (Nat.le_of_succ_le most)).step trivial
        (step_accept_afterFailures most)
      exact spawned.step trivial (step_convert_afterFailures count)

/-- A worker comes to refuse all connections while none is open. -/
theorem exists_refuses_idle :
    ∃ loop, (acceptMachine true).Reaches loop ∧ loop.admission = .refused ∧ loop.openTasks = 0 := by
  refine ⟨afterFailures maxConnectionsPerWorker, reaches_afterFailures (Nat.le_refl _), ?_, ?_⟩
  · simp [AcceptLoop.admission, afterFailures]
  · rw [AcceptLoop.openTasks, afterFailures, List.countP_replicate]
    rfl

/-- A handshake that fails, and a connection that is handled to its end. -/
def handledConnections : List AcceptEvent :=
  [.accept, .accept, .task 0 (.convert true), .task 1 (.convert true),
    .task 0 (.handshake false), .task 1 (.handshake true)]

def handledLoop : AcceptLoop where
  running := true
  shutdownFlag := false
  drainingFlag := false
  activeConnections := 1
  tasks := [.ended, .handling]

theorem keepsCount_handledLoop :
    KeepsCount handledLoop :=
  (keepsCount_iff (Machine.reachesUnder_of_run handledConnections
    (by rfl : (acceptMachine true).traced.runFrom (fun _ _ => True) (acceptMachine true).traced.start
      handledConnections = some (handledLoop, handledConnections.reverse)))).mpr (by decide)

/-- A connection whose stream is not converted stays on the count. -/
theorem not_keepsCount :
    ¬ ∀ (tls : Bool) (loop : AcceptLoop), (acceptMachine tls).Reaches loop → KeepsCount loop := by
  intro everywhere
  have one : 1 ≤ maxConnectionsPerWorker := by decide
  have keeps := everywhere true (afterFailures 1) (reaches_afterFailures one)
  exact absurd keeps.counted (by decide)

end Lifecycle
end HttpNative
