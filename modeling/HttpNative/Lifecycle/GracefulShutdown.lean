import HttpNative.Library.BoundedChannel
import HttpNative.Library.Machine
import HttpNative.Streaming.ResponseStream
import HttpNative.WebSocket.Connections
import Mathlib.Logic.Relation

/-!
# Graceful shutdown

The requests that `INFLIGHT_REQUESTS` counts, and the JavaScript thread. `shutdown`
polls the counter on the JavaScript thread, so that nothing is dispatched until it
returns.
-/

namespace HttpNative
namespace Lifecycle

open Streaming (StreamMessage)
open WebSocket (HandlerEvent)

/-- Where the task of a request is, from the guard that counts it on. -/
inductive Phase where
  /-- The head is parsed, and a route is looked up. -/
  | routing
  | body
  /-- It awaits `JsDispatcher::dispatch`. -/
  | dispatching
  /-- It passes the messages of a stream on. -/
  | streaming (channel : BoundedChannel 16 StreamMessage)
  | writing
  /-- In the frame loop of an upgraded connection. -/
  | socket
  /-- It awaits the handler of a WebSocket event. -/
  | socketEvent (event : HandlerEvent)
  /-- The guard is dropped. -/
  | finished

/-- What a task does without the JavaScript thread. -/
inductive TaskEvent where
  /-- A static, specialized or cached response, or an error. -/
  | respond
  | readBody
  | dispatch
  | upgrade
  /-- A time-out, the end of the input, or a failed write. -/
  | abandon
  | written
  /-- It receives a message of its stream; what it writes is accepted or not. -/
  | receive (accepted : Bool)
  | frame
  | leave

/-- What the JavaScript thread does for a task. -/
inductive JsEvent where
  | answer
  | answerStream
  | write (message : StreamMessage)

inductive JsThread where
  | running
  /-- In the loop of `shutdown`. -/
  | polling
  /-- In `close`, waiting for the workers. -/
  | closing
  | closed
deriving DecidableEq

structure Server where
  requests : List Phase
  jsThread : JsThread

inductive ServerEvent where
  | begin
  | task (id : Nat) (event : TaskEvent)
  | js (id : Nat) (event : JsEvent)
  | shutdown
  /-- `shutdown` reads the counter. -/
  | poll
  | deadline
  | close
  /-- The workers have exited, with the tasks they had. -/
  | joined

namespace Phase

def advance : Phase → TaskEvent → Option Phase
  | .routing, .respond => some .writing
  | .routing, .readBody => some .body
  | .routing, .dispatch => some .dispatching
  | .routing, .upgrade => some (.socketEvent .open)
  | .routing, .abandon => some .finished
  | .body, .respond => some .writing
  | .body, .dispatch => some .dispatching
  | .body, .abandon => some .finished
  | .streaming channel, .receive accepted =>
      match channel.receive with
      | some (.chunk data, rest) =>
          if data.isEmpty || accepted then some (.streaming rest) else some .finished
      | some (.end, _) => some .finished
      | none => none
  | .writing, .written => some .finished
  | .writing, .abandon => some .finished
  | .socket, .frame => some (.socketEvent .message)
  | .socket, .leave => some (.socketEvent .close)
  | _, _ => none

def serve : Phase → JsEvent → Option Phase
  | .dispatching, .answer => some .writing
  | .dispatching, .answerStream => some (.streaming .empty)
  | .streaming channel, .write message => (channel.send message).map .streaming
  | .socketEvent .close, .answer => some .finished
  | .socketEvent _, .answer => some .socket
  | _, _ => none

/-- The guard of the request is alive. -/
def counted : Phase → Bool
  | .finished => false
  | _ => true

end Phase

namespace Server

/-- `INFLIGHT_REQUESTS`. -/
def inflight (server : Server) : Nat :=
  server.requests.countP Phase.counted

def onRequest
    (server : Server)
    (id : Nat)
    (change : Phase → Option Phase) :
    Option Server :=
  (server.requests[id]?.bind change).map fun phase =>
    { server with requests := server.requests.set id phase }

/-- The JavaScript thread is in a native call that waits. -/
def isBlocked (server : Server) : Bool :=
  server.jsThread = .polling || server.jsThread = .closing

def step (server : Server) : ServerEvent → Option Server
  | .begin =>
      if server.jsThread = .closed then none
      else some { server with requests := server.requests ++ [.routing] }
  | .task id event =>
      if server.jsThread = .closed then none else server.onRequest id (·.advance event)
  | .js id event =>
      if server.jsThread = .running then server.onRequest id (·.serve event) else none
  | .shutdown =>
      if server.jsThread = .running then some { server with jsThread := .polling } else none
  | .poll =>
      if server.jsThread = .polling ∧ server.inflight = 0 then
        some { server with jsThread := .closing }
      else
        none
  | .deadline =>
      if server.jsThread = .polling then some { server with jsThread := .closing } else none
  | .close =>
      if server.jsThread = .running then some { server with jsThread := .closing } else none
  | .joined =>
      if server.jsThread = .closing then
        some { requests := server.requests.map fun _ => .finished, jsThread := .closed }
      else
        none

end Server

def serverMachine : Machine Server ServerEvent where
  start := { requests := [], jsThread := .running }
  step := Server.step

/-! ## Draining -/

/-- Steps of the tasks alone. -/
def TaskSteps : Server → Server → Prop :=
  Relation.ReflTransGen fun server next => ∃ id event, server.step (.task id event) = some next

/-- A request comes to its end without the JavaScript thread. -/
def FinishesAlone
    (server : Server)
    (id : Nat) :
    Prop :=
  ∃ next, TaskSteps server next ∧ next.requests[id]? = some .finished

/-- What the JavaScript thread waits for does not wait for it in turn. -/
structure Drains (server : Server) : Prop where
  notStuck : server.isBlocked = true → 0 < server.inflight →
    ∃ id phase, server.requests[id]? = some phase ∧ phase.counted = true ∧
      FinishesAlone server id
  drains : server.isBlocked = true → ∃ next, TaskSteps server next ∧ next.inflight = 0

def isEmptyChunk : StreamMessage → Bool
  | .chunk data => data.isEmpty
  | .end => false

namespace Phase

/-- The request cannot end without the JavaScript thread. -/
def needsJs : Phase → Bool
  | .dispatching => true
  | .streaming channel => channel.queue.all isEmptyChunk
  | .socket => true
  | .socketEvent _ => true
  | _ => false

/-- The task goes on to a place where it needs the JavaScript thread. -/
def comesToJs : Phase → TaskEvent → Bool
  | _, .dispatch => true
  | _, .upgrade => true
  | .streaming channel, .receive accepted =>
      match channel.queue with
      | .chunk _ :: rest => accepted && rest.all isEmptyChunk
      | _ => false
  | _, _ => false

end Phase

/-- No request needs the JavaScript thread when it starts to wait, and none comes to
need it while it waits. -/
def NeedsNoJs (server : Server) : ServerEvent → Prop
  | .shutdown => ∀ phase ∈ server.requests, phase.needsJs = false
  | .close => ∀ phase ∈ server.requests, phase.needsJs = false
  | .task id event => server.isBlocked = true →
      ∀ phase, server.requests[id]? = some phase → phase.comesToJs event = false
  | _ => True

instance (server : Server) (event : ServerEvent) : Decidable (NeedsNoJs server event) := by
  cases event <;> unfold NeedsNoJs <;> infer_instance

/-! ## Requests that end alone -/

namespace Phase

/-- Steps of one task. -/
def Advances : Phase → Phase → Prop :=
  Relation.ReflTransGen fun phase next => ∃ event, phase.advance event = some next

theorem advances_streaming
    {messages : List StreamMessage} {channel : BoundedChannel 16 StreamMessage}
    (queue : channel.queue = messages)
    (some : messages.all isEmptyChunk = false) :
    Advances (.streaming channel) .finished := by
  induction messages generalizing channel with
  | nil => cases some
  | cons message rest hypothesis =>
      obtain ⟨later, received, laterQueue⟩ := BoundedChannel.exists_receive queue
      cases message with
      | «end» => exact .single ⟨.receive true, by simp [advance, received]⟩
      | chunk data =>
          cases data with
          | nil =>
              have goesOn : (Phase.streaming channel).advance (.receive true) =
                  Option.some (.streaming later) := by
                simp [advance, received]
              exact .head ⟨_, goesOn⟩ (hypothesis laterQueue some)
          | cons octet data => exact .single ⟨.receive false, by simp [advance, received]⟩

/-- A request that does not need the JavaScript thread can end. -/
theorem advances_finished
    {phase : Phase}
    (alone : phase.needsJs = false) :
    Advances phase .finished := by
  cases phase with
  | routing => exact .single ⟨.abandon, rfl⟩
  | body => exact .single ⟨.abandon, rfl⟩
  | dispatching => cases alone
  | streaming channel => exact advances_streaming rfl alone
  | writing => exact .single ⟨.written, rfl⟩
  | socket => cases alone
  | socketEvent event => cases alone
  | finished => exact .refl

/-- A request that needs the JavaScript thread needs it whatever its task does. -/
theorem needsJs_advance
    {phase next : Phase} {event : TaskEvent}
    (needs : phase.needsJs = true)
    (advanceEq : phase.advance event = some next) :
    next.needsJs = true := by
  cases phase with
  | routing => cases needs
  | body => cases needs
  | dispatching => cases event <;> cases advanceEq
  | streaming channel =>
      cases event with
      | receive accepted =>
          have empty : channel.queue.all isEmptyChunk = true := needs
          simp only [advance] at advanceEq
          split at advanceEq
          · rename_i data rest received
            rw [BoundedChannel.queue_of_receive received, List.all_cons, Bool.and_eq_true] at empty
            obtain ⟨noData, restEmpty⟩ := empty
            have isEmpty : data.isEmpty = true := noData
            rw [isEmpty, Bool.true_or, if_pos rfl] at advanceEq
            cases advanceEq
            exact restEmpty
          · rename_i rest received
            rw [BoundedChannel.queue_of_receive received, List.all_cons] at empty
            cases empty
          · cases advanceEq
      | _ => cases advanceEq
  | writing => cases needs
  | socket => cases event <;> cases advanceEq <;> rfl
  | socketEvent socketEvent => cases event <;> cases advanceEq
  | finished => cases needs

/-- A request comes to need the JavaScript thread in the ways that are listed. -/
theorem needsJs_of_comesToJs
    {phase next : Phase} {event : TaskEvent}
    (alone : phase.needsJs = false)
    (advanceEq : phase.advance event = some next)
    (staysAlone : phase.comesToJs event = false) :
    next.needsJs = false := by
  cases phase with
  | routing => cases event <;> cases advanceEq <;> first | rfl | cases staysAlone
  | body => cases event <;> cases advanceEq <;> first | rfl | cases staysAlone
  | dispatching => cases alone
  | streaming channel =>
      cases event with
      | receive accepted =>
          have notEmpty : channel.queue.all isEmptyChunk = false := alone
          simp only [advance] at advanceEq
          split at advanceEq
          · rename_i data rest received
            have queue := BoundedChannel.queue_of_receive received
            rw [queue, List.all_cons] at notEmpty
            simp only [comesToJs, queue] at staysAlone
            split at advanceEq
            · rename_i goesOn
              cases advanceEq
              cases accepted with
              | true => rwa [Bool.true_and] at staysAlone
              | false =>
                  rw [Bool.or_false] at goesOn
                  have isEmpty : isEmptyChunk (.chunk data) = true := goesOn
                  rwa [isEmpty, Bool.true_and] at notEmpty
            · cases advanceEq
              rfl
          · cases advanceEq
            rfl
          · cases advanceEq
      | _ => cases advanceEq
  | writing => cases event <;> cases advanceEq <;> rfl
  | socket => cases alone
  | socketEvent socketEvent => cases alone
  | finished => cases event <;> cases advanceEq

end Phase

/-! ## Steps of the tasks -/

variable {server next : Server}

theorem step_task
    {id : Nat} {phase after : Phase} {event : TaskEvent}
    (stillOpen : server.jsThread ≠ .closed)
    (found : server.requests[id]? = some phase)
    (advanceEq : phase.advance event = some after) :
    server.step (.task id event) =
      some { server with requests := server.requests.set id after } := by
  rw [Server.step, if_neg stillOpen, Server.onRequest, found, Option.bind_some, advanceEq,
    Option.map_some]

/-- What one task does by itself is done among the others. -/
theorem taskSteps_set
    {done rest : List Phase} {phase after : Phase}
    (advances : phase.Advances after)
    (stillOpen : server.jsThread ≠ .closed) :
    TaskSteps { server with requests := done ++ phase :: rest }
      { server with requests := done ++ after :: rest } := by
  induction advances with
  | refl => exact .refl
  | @tail middle final steps last hypothesis =>
      obtain ⟨event, advanceEq⟩ := last
      refine hypothesis.tail ⟨done.length, event, ?_⟩
      have found : (done ++ middle :: rest)[done.length]? = some middle := by
        rw [List.getElem?_append_right (Nat.le_refl _), Nat.sub_self]
        rfl
      have stepEq : ({ server with requests := done ++ middle :: rest } : Server).step
          (.task done.length event) =
            some { server with requests := (done ++ middle :: rest).set done.length final } :=
        step_task stillOpen found advanceEq
      rw [stepEq, List.set_append_right _ _ (Nat.le_refl _), Nat.sub_self]
      rfl

/-- The requests that can end alone have ended. -/
def Phase.settle (phase : Phase) : Phase :=
  if phase.needsJs then phase else .finished

theorem advances_settle
    (phase : Phase) :
    phase.Advances phase.settle := by
  unfold Phase.settle
  split
  · exact .refl
  · rename_i alone
    exact Phase.advances_finished (Bool.eq_false_of_not_eq_true alone)

theorem taskSteps_settle
    (stillOpen : server.jsThread ≠ .closed)
    (done rest : List Phase) :
    TaskSteps { server with requests := done ++ rest }
      { server with requests := done ++ rest.map Phase.settle } := by
  induction rest generalizing done with
  | nil => exact .refl
  | cons phase rest hypothesis =>
      have first : TaskSteps { server with requests := done ++ phase :: rest }
          { server with requests := done ++ phase.settle :: rest } :=
        taskSteps_set (advances_settle phase) stillOpen
      have others := hypothesis (done ++ [phase.settle])
      simp only [List.append_assoc, List.singleton_append] at others
      exact first.trans others

/-- All requests that can end alone do so. -/
theorem taskSteps_settled
    (stillOpen : server.jsThread ≠ .closed) :
    TaskSteps server { server with requests := server.requests.map Phase.settle } :=
  taskSteps_settle stillOpen [] server.requests

theorem open_of_isBlocked
    (isBlocked : server.isBlocked = true) :
    server.jsThread ≠ .closed := by
  intro closed
  rw [Server.isBlocked, closed] at isBlocked
  cases isBlocked

/-- A task stays as long as it needs the JavaScript thread. -/
theorem needsJs_of_taskSteps
    {id : Nat} {phase : Phase}
    (steps : TaskSteps server next)
    (found : server.requests[id]? = some phase)
    (needs : phase.needsJs = true) :
    ∃ later, next.requests[id]? = some later ∧ later.needsJs = true := by
  induction steps with
  | refl => exact ⟨phase, found, needs⟩
  | tail _ last hypothesis =>
      obtain ⟨later, foundLater, needsLater⟩ := hypothesis
      obtain ⟨taskId, event, stepEq⟩ := last
      rw [Server.step, Option.ite_none_left_eq_some] at stepEq
      obtain ⟨after, changed, rfl⟩ := Option.map_eq_some_iff.mp stepEq.2
      obtain ⟨before, foundBefore, advanceEq⟩ := Option.bind_eq_some_iff.mp changed
      by_cases same : taskId = id
      · subst same
        cases foundBefore.symm.trans foundLater
        refine ⟨after, ?_, Phase.needsJs_advance needsLater advanceEq⟩
        exact List.getElem?_set_self (List.getElem?_eq_some_iff.mp foundBefore).1
      · refine ⟨later, ?_, needsLater⟩
        rw [List.getElem?_set_ne same]
        exact foundLater

theorem not_finishesAlone
    {id : Nat} {phase : Phase}
    (found : server.requests[id]? = some phase)
    (needs : phase.needsJs = true) :
    ¬ FinishesAlone server id := by
  rintro ⟨next, steps, finished⟩
  obtain ⟨later, foundLater, needsLater⟩ := needsJs_of_taskSteps steps found needs
  cases finished.symm.trans foundLater
  cases needsLater

/-! ## Runs -/

/-- While the JavaScript thread waits, no request needs it. -/
def NoneNeedsJs (server : Server) : Prop :=
  server.isBlocked = true → ∀ phase ∈ server.requests, phase.needsJs = false

theorem noneNeedsJs_step
    {event : ServerEvent}
    (sound : NoneNeedsJs server)
    (meets : NeedsNoJs server event)
    (stepEq : server.step event = some next) :
    NoneNeedsJs next := by
  cases event with
  | begin =>
      rw [Server.step, Option.ite_none_left_eq_some] at stepEq
      obtain ⟨isOpen, stepEq⟩ := stepEq
      cases stepEq
      intro isBlocked phase isMember
      cases List.mem_append.mp isMember with
      | inl isEarlier => exact sound isBlocked phase isEarlier
      | inr isNew =>
          cases List.mem_singleton.mp isNew
          rfl
  | task id event =>
      rw [Server.step, Option.ite_none_left_eq_some] at stepEq
      obtain ⟨after, changed, rfl⟩ := Option.map_eq_some_iff.mp stepEq.2
      obtain ⟨before, found, advanceEq⟩ := Option.bind_eq_some_iff.mp changed
      intro isBlocked phase isMember
      cases List.mem_or_eq_of_mem_set isMember with
      | inl isEarlier => exact sound isBlocked phase isEarlier
      | inr isChanged =>
          rw [isChanged]
          exact Phase.needsJs_of_comesToJs
            (sound isBlocked before (List.mem_of_getElem? found)) advanceEq
            (meets isBlocked before found)
  | js id event =>
      rw [Server.step, Option.ite_none_right_eq_some] at stepEq
      obtain ⟨running, stepEq⟩ := stepEq
      obtain ⟨after, changed, rfl⟩ := Option.map_eq_some_iff.mp stepEq
      intro isBlocked
      rw [Server.isBlocked, running] at isBlocked
      cases isBlocked
  | shutdown =>
      rw [Server.step, Option.ite_none_right_eq_some] at stepEq
      cases stepEq.2
      exact fun _ => meets
  | poll =>
      rw [Server.step, Option.ite_none_right_eq_some] at stepEq
      cases stepEq.2
      refine fun _ => sound ?_
      rw [Server.isBlocked, stepEq.1.1]
      rfl
  | deadline =>
      rw [Server.step, Option.ite_none_right_eq_some] at stepEq
      cases stepEq.2
      refine fun _ => sound ?_
      rw [Server.isBlocked, stepEq.1]
      rfl
  | close =>
      rw [Server.step, Option.ite_none_right_eq_some] at stepEq
      cases stepEq.2
      exact fun _ => meets
  | joined =>
      rw [Server.step, Option.ite_none_right_eq_some] at stepEq
      cases stepEq.2
      intro isBlocked
      cases isBlocked

theorem inflight_settled
    (alone : ∀ phase ∈ server.requests, phase.needsJs = false) :
    { server with requests := server.requests.map Phase.settle }.inflight = 0 := by
  rw [Server.inflight, List.countP_eq_zero]
  intro settled isMember
  obtain ⟨phase, isRequest, rfl⟩ := List.mem_map.mp isMember
  rw [Phase.settle, alone phase isRequest]
  exact Bool.false_ne_true

theorem drains_of_noneNeedsJs
    (sound : NoneNeedsJs server) :
    Drains server where
  notStuck := by
    intro isBlocked some
    obtain ⟨phase, isMember, isCounted⟩ := List.countP_pos_iff.mp some
    obtain ⟨id, found⟩ := List.mem_iff_getElem?.mp isMember
    refine ⟨id, phase, found, isCounted, _, taskSteps_settled (open_of_isBlocked isBlocked), ?_⟩
    rw [List.getElem?_map, found, Option.map_some, Phase.settle, sound isBlocked phase isMember]
    rfl
  drains := by
    intro isBlocked
    exact ⟨_, taskSteps_settled (open_of_isBlocked isBlocked), inflight_settled (sound isBlocked)⟩

/-- In a run in which no request needs the JavaScript thread while that waits, what
it waits for goes on. -/
theorem drains_of_needsNoJs
    (reaches : serverMachine.ReachesUnder NeedsNoJs server) :
    Drains server := by
  refine drains_of_noneNeedsJs (reaches.invariant ?_ ?_)
  · intro isBlocked
    cases isBlocked
  · intro state event next sound meets stepEq
    exact noneNeedsJs_step sound meets stepEq

/-- One request that needs the JavaScript thread while that waits is enough: when
the others have ended, nothing goes on. -/
theorem exists_stuck_of_needsJs
    {phase : Phase}
    (isBlocked : server.isBlocked = true)
    (isMember : phase ∈ server.requests)
    (needs : phase.needsJs = true) :
    ∃ next, TaskSteps server next ∧ ¬ Drains next := by
  refine ⟨_, taskSteps_settled (open_of_isBlocked isBlocked), fun drains => ?_⟩
  have settled : phase.settle = phase := if_pos needs
  have isCounted : phase.counted = true := by
    cases phase with
    | finished => cases needs
    | _ => rfl
  have some : 0 < { server with requests := server.requests.map Phase.settle }.inflight := by
    refine List.countP_pos_iff.mpr ⟨phase, ?_, isCounted⟩
    rw [← settled]
    exact List.mem_map_of_mem isMember
  obtain ⟨id, later, found, laterCounted, alone⟩ := drains.notStuck isBlocked some
  refine not_finishesAlone found ?_ alone
  obtain ⟨before, foundBefore, rfl⟩ := Option.map_eq_some_iff.mp
    ((List.getElem?_map ..).symm.trans found)
  unfold Phase.settle at laterCounted ⊢
  split
  · assumption
  · rename_i ends
    rw [if_neg ends] at laterCounted
    cases laterCounted

/-- A response that is being written when `shutdown` is called. -/
def writingEvents : List ServerEvent :=
  [.begin, .task 0 .dispatch, .js 0 .answer, .shutdown]

theorem drains_of_needsNoJs_writing :
    ∃ server, serverMachine.ReachesUnder NeedsNoJs server ∧ server.jsThread = .polling ∧
      server.inflight = 1 ∧ Drains server :=
  have reaches := Machine.reachesUnder_of_run writingEvents rfl
  ⟨_, reaches, rfl, rfl, drains_of_needsNoJs reaches⟩

/-- A request that waits for its handler when `shutdown` is called. -/
def dispatchedEvents : List ServerEvent :=
  [.begin, .task 0 .dispatch, .shutdown]

theorem not_drains_of_dispatched :
    ¬ ∀ server, serverMachine.Reaches server → Drains server := by
  intro drains
  have reaches : serverMachine.Reaches { requests := [.dispatching], jsThread := .polling } :=
    Machine.reachesUnder_of_run dispatchedEvents rfl
  obtain ⟨id, phase, found, isCounted, alone⟩ := (drains _ reaches).notStuck rfl (by decide)
  refine not_finishesAlone found ?_ alone
  obtain ⟨within, isPhase⟩ := List.getElem?_eq_some_iff.mp found
  cases List.mem_singleton.mp (isPhase ▸ List.getElem_mem within)
  rfl

end Lifecycle
end HttpNative
