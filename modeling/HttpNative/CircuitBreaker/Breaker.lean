import HttpNative.Library.Machine

/-!
# The circuit breaker

The closed, open and half-open states of the breaker around a downstream service, and
the calls that go through it. A call is admitted or rejected at once; when its
function settles, which may be much later, the breaker acts on the state it is in
then. Calls, settlements, manual trips and resets come in any order, and time passes
in between. The callbacks of the options are taken to leave the breaker alone.
-/

namespace HttpNative
namespace CircuitBreaker

inductive CircuitState where
  | stateClosed
  | stateOpen
  | stateHalfOpen
deriving DecidableEq

/-- The options that the breaker reads, with their defaults. -/
structure Options where
  threshold : Nat := 5
  timeout : Nat := 30000
  halfOpenMax : Nat := 1

structure Breaker where
  state : CircuitState := .stateClosed
  failureCount : Nat := 0
  lastFailureTime : Nat := 0
  halfOpenActive : Int := 0
deriving DecidableEq

namespace Breaker

/-- `trip` -/
def trip (now : Nat) (breaker : Breaker) : Breaker :=
  if breaker.state = .stateOpen then breaker
  else { breaker with state := .stateOpen, lastFailureTime := now }

/-- `reset` -/
def reset (breaker : Breaker) : Breaker :=
  { breaker with state := .stateClosed, failureCount := 0, halfOpenActive := 0 }

/-- `tryHalfOpen`; none when it returns false. -/
def tryHalfOpen (options : Options) (now : Nat) (breaker : Breaker) : Option Breaker :=
  if breaker.state ≠ .stateOpen then none
  else if (now : Int) - breaker.lastFailureTime < options.timeout then none
  else if breaker.halfOpenActive ≥ options.halfOpenMax then none
  else
    some { breaker with
      state := .stateHalfOpen, halfOpenActive := breaker.halfOpenActive + 1 }

end Breaker

/-- How a call goes on: its function runs as in the closed state or as a probe, or the
call is rejected with a `CircuitOpenError`. -/
inductive Admission where
  | closed
  | probe
  | rejected
deriving DecidableEq

/-- What the function of a call comes to; whether `isFailure` counts its error. -/
inductive Outcome where
  | returns
  | throws (isFailure : Bool)
deriving DecidableEq

/-- `call`, up to the start of its function. -/
def enter (options : Options) (now : Nat) (breaker : Breaker) : Breaker × Admission :=
  match breaker.state with
  | .stateClosed => (breaker, .closed)
  | .stateOpen =>
      match breaker.tryHalfOpen options now with
      | none => (breaker, .rejected)
      | some breaker => (breaker, .probe)
  | .stateHalfOpen => (breaker, .probe)

/-- `call`, from the end of its function on. -/
def settle
    (options : Options)
    (now : Nat)
    (admission : Admission)
    (outcome : Outcome)
    (breaker : Breaker) :
    Breaker :=
  match admission, outcome with
  | .closed, .returns => { breaker with failureCount := 0 }
  | .closed, .throws false => breaker
  | .closed, .throws true =>
      let counted := { breaker with failureCount := breaker.failureCount + 1 }
      if counted.failureCount ≥ options.threshold then counted.trip now else counted
  | .probe, .returns => breaker.reset
  | .probe, .throws _ => { breaker with halfOpenActive := breaker.halfOpenActive - 1 }.trip now
  | .rejected, _ => breaker

/-! ## Runs -/

/-- A call whose function runs. -/
structure CallInFlight where
  admission : Admission
  /-- How often the breaker had opened when the call was started. -/
  tripsBefore : Nat
  /-- How often the breaker had been reset when the call was started. -/
  resetsBefore : Nat
deriving DecidableEq

structure BreakerRun where
  breaker : Breaker := {}
  now : Nat := 0
  inFlight : List CallInFlight := []
  /-- When the breaker opened, the last time first. -/
  tripTimes : List Nat := []
  resets : Nat := 0
deriving DecidableEq

inductive BreakerEvent where
  | pass (milliseconds : Nat)
  | call
  /-- The function of one of the calls in flight settles. -/
  | settle (index : Nat) (outcome : Outcome)
  | trip
  | reset
deriving DecidableEq

namespace BreakerRun

/-- The times at which the breaker opened, if it has become another one now. -/
def tripTimesAfter (run : BreakerRun) (next : Breaker) : List Nat :=
  if run.breaker.state ≠ .stateOpen ∧ next.state = .stateOpen then run.now :: run.tripTimes
  else run.tripTimes

/-- The breaker has become another one, by some resets. -/
def become (run : BreakerRun) (next : Breaker) (resets : Nat) : BreakerRun :=
  { run with
    breaker := next
    tripTimes := run.tripTimesAfter next
    resets := run.resets + resets }

/-- What a call that is started now is known by. -/
def started (run : BreakerRun) (admission : Admission) : CallInFlight where
  admission := admission
  tripsBefore := run.tripTimes.length
  resetsBefore := run.resets

/-- A call is started. -/
def call (options : Options) (run : BreakerRun) : BreakerRun :=
  let admitted := enter options run.now run.breaker
  match admitted.2 with
  | .rejected => run
  | admission =>
      { run with breaker := admitted.1, inFlight := run.inFlight ++ [run.started admission] }

/-- A call in flight settles. -/
def settled
    (options : Options)
    (run : BreakerRun)
    (index : Nat)
    (call : CallInFlight)
    (outcome : Outcome) :
    BreakerRun :=
  { run with inFlight := run.inFlight.eraseIdx index }.become
    (settle options run.now call.admission outcome run.breaker)
    (if call.admission = Admission.probe ∧ outcome = Outcome.returns then 1 else 0)

end BreakerRun

def breakerMachine (options : Options) : Machine BreakerRun BreakerEvent where
  start := {}
  step := fun run event =>
    match event with
    | .pass milliseconds => some { run with now := run.now + milliseconds }
    | .call => some (run.call options)
    | .settle index outcome =>
        (run.inFlight[index]?).map fun call => run.settled options index call outcome
    | .trip => some (run.become (run.breaker.trip run.now) 0)
    | .reset => some (run.become run.breaker.reset 1)

/-! ## What a step does -/

section Steps

variable {options : Options} {run : BreakerRun}

@[simp] theorem state_trip
    (now : Nat)
    (breaker : Breaker) :
    (breaker.trip now).state = .stateOpen := by
  unfold Breaker.trip
  split
  · assumption
  · rfl

@[simp] theorem halfOpenActive_trip
    (now : Nat)
    (breaker : Breaker) :
    (breaker.trip now).halfOpenActive = breaker.halfOpenActive := by
  unfold Breaker.trip
  split
  · rfl
  · rfl

@[simp] theorem failureCount_trip
    (now : Nat)
    (breaker : Breaker) :
    (breaker.trip now).failureCount = breaker.failureCount := by
  unfold Breaker.trip
  split
  · rfl
  · rfl

/-- A probe is let through by an open breaker when its time has come. -/
theorem tryHalfOpen_eq_some
    {now : Nat} {breaker next : Breaker}
    (opened : breaker.tryHalfOpen options now = some next) :
    breaker.state = .stateOpen ∧ breaker.lastFailureTime + options.timeout ≤ now ∧
      breaker.halfOpenActive < options.halfOpenMax ∧
      next = { breaker with
        state := .stateHalfOpen, halfOpenActive := breaker.halfOpenActive + 1 } := by
  unfold Breaker.tryHalfOpen at opened
  split at opened
  · cases opened
  · rename_i isOpen
    split at opened
    · cases opened
    · rename_i late
      split at opened
      · cases opened
      · rename_i room
        refine ⟨not_not.mp isOpen, by omega, by omega, (Option.some.inj opened).symm⟩

/-- What an admission does: in the closed state nothing, and otherwise the call is
rejected, goes through a half-open breaker, or opens it half. -/
theorem admit_cases
    (options : Options)
    (now : Nat)
    (breaker : Breaker) :
    (breaker.state = .stateClosed ∧ enter options now breaker = (breaker, .closed)) ∨
      (breaker.state = .stateOpen ∧ breaker.tryHalfOpen options now = none ∧
        enter options now breaker = (breaker, .rejected)) ∨
      (∃ next, breaker.tryHalfOpen options now = some next ∧
        enter options now breaker = (next, .probe)) ∨
      (breaker.state = .stateHalfOpen ∧ enter options now breaker = (breaker, .probe)) := by
  unfold enter
  cases state : breaker.state with
  | stateClosed => exact .inl ⟨rfl, rfl⟩
  | stateOpen =>
      cases opened : breaker.tryHalfOpen options now with
      | none => exact .inr (.inl ⟨rfl, rfl, rfl⟩)
      | some next => exact .inr (.inr (.inl ⟨next, rfl, rfl⟩))
  | stateHalfOpen => exact .inr (.inr (.inr ⟨rfl, rfl⟩))

end Steps

end CircuitBreaker
end HttpNative
