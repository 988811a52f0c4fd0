import Mathlib.Data.Option.Basic
import Mathlib.Logic.Function.Basic

/-!
# Machines and their runs

A machine answers an event with its next state or refuses it. A property of
all its runs is proved from one step at a time; the runs may be restricted to
steps that meet a condition on the state and the event.
-/

namespace HttpNative

/-- A start state and a partial step function. -/
structure Machine (State Event : Type) where
  start : State
  step : State → Event → Option State

namespace Machine

variable {State Event : Type} {machine : Machine State Event}

/-- Replay events from a state; `none` when a step is refused or does not meet
the condition. -/
def runFrom
    (machine : Machine State Event)
    (allowed : State → Event → Prop)
    [∀ state event, Decidable (allowed state event)]
    (state : State) :
    List Event → Option State
  | [] => some state
  | event :: events =>
      if allowed state event then
        (machine.step state event).bind (machine.runFrom allowed · events)
      else
        none

/-- The states reached by runs whose steps all meet a condition. -/
inductive ReachesUnder (machine : Machine State Event) (allowed : State → Event → Prop) :
    State → Prop
  | start : ReachesUnder machine allowed machine.start
  | step {state next : State} {event : Event} :
      ReachesUnder machine allowed state →
      allowed state event →
      machine.step state event = some next →
      ReachesUnder machine allowed next

/-- The states reached by any run. -/
def Reaches (machine : Machine State Event) : State → Prop :=
  ReachesUnder machine fun _ _ => True

/-- What holds at the start and is kept by every allowed step holds in every
state reached. -/
theorem ReachesUnder.invariant
    {allowed : State → Event → Prop} {property : State → Prop} {state : State}
    (reaches : machine.ReachesUnder allowed state)
    (start : property machine.start)
    (preserved : ∀ state event next, property state → allowed state event →
      machine.step state event = some next → property next) :
    property state := by
  induction reaches with
  | start => exact start
  | step _ meets stepEq inductionHypothesis =>
      exact preserved _ _ _ inductionHypothesis meets stepEq

/-- A run under a condition is a run. -/
theorem ReachesUnder.reaches
    {allowed : State → Event → Prop} {state : State}
    (reaches : machine.ReachesUnder allowed state) :
    machine.Reaches state := by
  induction reaches with
  | start => exact .start
  | step _ _ stepEq inductionHypothesis => exact .step inductionHypothesis trivial stepEq

/-- Two invariants of which the second may rest on the first. -/
theorem ReachesUnder.invariant_with
    {allowed : State → Event → Prop} {known property : State → Prop} {state : State}
    (reaches : machine.ReachesUnder allowed state)
    (holds : ∀ state, machine.ReachesUnder allowed state → known state)
    (start : property machine.start)
    (preserved : ∀ state event next, known state → property state → allowed state event →
      machine.step state event = some next → property next) :
    property state := by
  induction reaches with
  | start => exact start
  | step before meets stepEq inductionHypothesis =>
      exact preserved _ _ _ (holds _ before) inductionHypothesis meets stepEq

/-- A run under a condition that implies another one, where some invariant
holds, is a run under the other one. -/
theorem ReachesUnder.weaken
    {allowed weaker : State → Event → Prop} {state : State}
    (reaches : machine.ReachesUnder allowed state)
    (known : State → Prop)
    (holds : ∀ state, machine.ReachesUnder allowed state → known state)
    (implies : ∀ state event, known state → allowed state event → weaker state event) :
    machine.ReachesUnder weaker state := by
  induction reaches with
  | start => exact .start
  | step before meets stepEq inductionHypothesis =>
      exact .step inductionHypothesis (implies _ _ (holds _ before) meets) stepEq

theorem ReachesUnder.runFrom
    {allowed : State → Event → Prop} [∀ state event, Decidable (allowed state event)]
    {state final : State} {events : List Event}
    (reaches : machine.ReachesUnder allowed state)
    (runEq : machine.runFrom allowed state events = some final) :
    machine.ReachesUnder allowed final := by
  induction events generalizing state with
  | nil =>
      cases runEq
      exact reaches
  | cons event events inductionHypothesis =>
      unfold Machine.runFrom at runEq
      split at runEq
      case isTrue meets =>
          obtain ⟨next, stepEq, restEq⟩ := Option.bind_eq_some_iff.mp runEq
          exact inductionHypothesis (.step reaches meets stepEq) restEq
      case isFalse => cases runEq

/-- Replaying events from the start ends in a state that is reached. -/
theorem reachesUnder_of_run
    {allowed : State → Event → Prop} [∀ state event, Decidable (allowed state event)]
    (events : List Event) {final : State}
    (runEq : machine.runFrom allowed machine.start events = some final) :
    machine.ReachesUnder allowed final :=
  ReachesUnder.start.runFrom runEq

/-- A step that is taken, whatever stands for one that is not. -/
theorem step_getD
    {state : State} {event : Event}
    (taken : (machine.step state event).isSome = true)
    (other : State) :
    machine.step state event = some ((machine.step state event).getD other) := by
  obtain ⟨next, stepEq⟩ := Option.isSome_iff_exists.mp taken
  rw [stepEq, Option.getD_some]

/-! ## Histories -/

/-- The machine that keeps the events of its run, the last one first. -/
def traced (machine : Machine State Event) : Machine (State × List Event) Event where
  start := (machine.start, [])
  step state event := (machine.step state.1 event).map fun next => (next, event :: state.2)

theorem traced_step
    {state next : State × List Event} {event : Event}
    (stepped : machine.traced.step state event = some next) :
    machine.step state.1 event = some next.1 ∧ next.2 = event :: state.2 := by
  obtain ⟨behind, taken, rfl⟩ := Option.map_eq_some_iff.mp stepped
  exact ⟨taken, rfl⟩

/-! ## Families of states -/

/-- A property of all members of a family is kept when one member changes. -/
theorem forall_update
    {Key Member : Type} [DecidableEq Key]
    {property : Member → Prop} {family : Key → Option Member} {changed : Member}
    (all : ∀ key member, family key = some member → property member)
    (key : Key)
    (one : property changed)
    (other : Key) (member : Member)
    (found : Function.update family key (some changed) other = some member) :
    property member := by
  by_cases same : other = key
  · rw [same, Function.update_self] at found
    cases found
    exact one
  · rw [Function.update_of_ne same] at found
    exact all other member found

end Machine

end HttpNative
