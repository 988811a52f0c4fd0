import HttpNative.CircuitBreaker.Breaker

/-!
# The time the breaker stays open

From a trip on the breaker should reject all calls until its timeout is over, and only
a call after that should end the open state. It does, unless a call that was started
before the trip returns after it: what settles late acts on a state that it knows
nothing of.
-/

namespace HttpNative
namespace CircuitBreaker

namespace BreakerRun

/-- What a step should do. A call within the timeout of a trip is rejected; the open
state is left only by a call after it; and a call that was started before a trip, when
it settles, neither closes the circuit nor takes failures from the count. -/
structure Protects
    (options : Options)
    (run : BreakerRun)
    (event : BreakerEvent)
    (next : BreakerRun) : Prop where
  rejects : event = .call → ∀ time ∈ run.tripTimes, run.now < time + options.timeout →
    (enter options run.now run.breaker).2 = .rejected
  leaves : run.breaker.state = .stateOpen → next.breaker.state ≠ .stateOpen →
    event = .call ∧ ∀ time ∈ run.tripTimes, time + options.timeout ≤ run.now
  late : ∀ index outcome call, event = .settle index outcome →
    run.inFlight[index]? = some call → call.tripsBefore < run.tripTimes.length →
      (next.breaker.state = .stateClosed → run.breaker.state = .stateClosed) ∧
        run.breaker.failureCount ≤ next.breaker.failureCount

/-- Nobody resets the breaker, and a call that was started before the last trip does
not return, unless its return changes nothing. -/
def NoLateReturn (run : BreakerRun) : BreakerEvent → Prop
  | .settle index .returns => ∀ call ∈ run.inFlight[index]?,
      call.tripsBefore = run.tripTimes.length ∨
        (run.breaker.failureCount = 0 ∧
          (call.admission = .probe → run.breaker.state = .stateClosed))
  | .reset => False
  | _ => True

instance (run : BreakerRun) :
    (event : BreakerEvent) → Decidable (run.NoLateReturn event)
  | .settle index .returns => inferInstanceAs (Decidable (∀ call ∈ run.inFlight[index]?,
      call.tripsBefore = run.tripTimes.length ∨
        (run.breaker.failureCount = 0 ∧
          (call.admission = .probe → run.breaker.state = .stateClosed))))
  | .settle _ (.throws _) => isTrue trivial
  | .reset => isFalse id
  | .call => isTrue trivial
  | .pass _ => isTrue trivial
  | .trip => isTrue trivial

/-! ## Trips -/

/-- What is known of the trips so far. An open breaker remembers the last of them, and
all calls in flight are older; any other one has seen the end of its timeout. -/
structure Timed (options : Options) (run : BreakerRun) : Prop where
  past : ∀ time ∈ run.tripTimes, time ≤ run.now
  last : run.breaker.state = .stateOpen →
    ∀ time ∈ run.tripTimes, time ≤ run.breaker.lastFailureTime
  elapsed : run.breaker.state ≠ .stateOpen →
    ∀ time ∈ run.tripTimes, time + options.timeout ≤ run.now
  older : ∀ call ∈ run.inFlight, call.tripsBefore ≤ run.tripTimes.length
  before : run.breaker.state = .stateOpen →
    ∀ call ∈ run.inFlight, call.tripsBefore < run.tripTimes.length
  admitted : ∀ call ∈ run.inFlight, call.admission ≠ .rejected

/-- The other breaker is in the same state, and has failed at the same time. -/
def Steady (breaker next : Breaker) : Prop :=
  next.state = breaker.state ∧ next.lastFailureTime = breaker.lastFailureTime

/-- What the end of a call does to the breaker: it stays in its state, it trips, or a
probe that returns resets it. -/
theorem settle_cases
    (options : Options)
    (now : Nat)
    (admission : Admission)
    (outcome : Outcome)
    (breaker : Breaker) :
    Steady breaker (settle options now admission outcome breaker) ∨
      (∃ next, Steady breaker next ∧
        settle options now admission outcome breaker = next.trip now) ∨
      (admission = .probe ∧ outcome = .returns ∧
        settle options now admission outcome breaker = breaker.reset) := by
  cases admission with
  | rejected => exact .inl ⟨rfl, rfl⟩
  | probe =>
      cases outcome with
      | returns => exact .inr (.inr ⟨rfl, rfl, rfl⟩)
      | throws isFailure =>
          exact .inr (.inl ⟨{ breaker with halfOpenActive := breaker.halfOpenActive - 1 },
            ⟨rfl, rfl⟩, rfl⟩)
  | closed =>
      cases outcome with
      | returns => exact .inl ⟨rfl, rfl⟩
      | throws isFailure =>
          cases isFailure with
          | false => exact .inl ⟨rfl, rfl⟩
          | true =>
              unfold settle
              dsimp only
              split
              · exact .inr (.inl ⟨{ breaker with failureCount := breaker.failureCount + 1 },
                  ⟨rfl, rfl⟩, rfl⟩)
              · exact .inl ⟨rfl, rfl⟩

/-- An error neither closes the circuit nor takes failures from the count. -/
theorem settle_throws
    (options : Options)
    (now : Nat)
    (admission : Admission)
    (isFailure : Bool)
    (breaker : Breaker) :
    let next := settle options now admission (.throws isFailure) breaker
    (next.state = .stateClosed → breaker.state = .stateClosed) ∧
      breaker.failureCount ≤ next.failureCount := by
  cases admission with
  | rejected => exact ⟨id, Nat.le_refl _⟩
  | probe =>
      let left := { breaker with halfOpenActive := breaker.halfOpenActive - 1 }
      refine ⟨fun closed => ?_, ?_⟩
      · cases (state_trip now left).symm.trans closed
      · exact Nat.le_of_eq (failureCount_trip now left).symm
  | closed =>
      cases isFailure with
      | false => exact ⟨id, Nat.le_refl _⟩
      | true =>
          unfold settle
          dsimp only
          split
          · refine ⟨fun closed => ?_, ?_⟩
            · rw [state_trip] at closed
              cases closed
            · rw [failureCount_trip]
              exact Nat.le_succ _
          · exact ⟨id, Nat.le_succ _⟩

section Timed

variable {options : Options} {run : BreakerRun}

theorem timed_start (options : Options) :
    (breakerMachine options).start.Timed options where
  past := fun _ member => absurd member List.not_mem_nil
  last := fun _ _ member => absurd member List.not_mem_nil
  elapsed := fun _ _ member => absurd member List.not_mem_nil
  older := fun _ member => absurd member List.not_mem_nil
  before := fun _ _ member => absurd member List.not_mem_nil
  admitted := fun _ member => absurd member List.not_mem_nil

/-- Fewer calls are in flight. -/
theorem Timed.fewer
    (timed : run.Timed options)
    {calls : List CallInFlight}
    (among : calls ⊆ run.inFlight) :
    { run with inFlight := calls }.Timed options where
  past := timed.past
  last := timed.last
  elapsed := timed.elapsed
  older := fun call member => timed.older call (among member)
  before := fun isOpen call member => timed.before isOpen call (among member)
  admitted := fun call member => timed.admitted call (among member)

/-- Nothing is known to have changed when the breaker stays in its state. -/
theorem Timed.steady
    (timed : run.Timed options)
    {next : Breaker}
    (steady : Steady run.breaker next)
    (resets : Nat) :
    (run.become next resets).Timed options := by
  have same : (run.become next resets).tripTimes = run.tripTimes := by
    refine if_neg fun opened => opened.1 ?_
    rw [← steady.1]
    exact opened.2
  constructor
  · rw [same]
    exact timed.past
  · intro isOpen time member
    rw [same] at member
    have last := timed.last (steady.1.symm.trans isOpen) time member
    exact Nat.le_trans last (Nat.le_of_eq steady.2.symm)
  · intro notOpen time member
    rw [same] at member
    exact timed.elapsed (fun isOpen => notOpen (steady.1.trans isOpen)) time member
  · rw [same]
    exact timed.older
  · intro isOpen
    rw [same]
    exact timed.before (steady.1.symm.trans isOpen)
  · exact timed.admitted

/-- A trip is the last one, and all calls in flight are older. -/
theorem Timed.trip
    (timed : run.Timed options)
    (resets : Nat)
    {next : Breaker}
    (steady : Steady run.breaker next) :
    (run.become (next.trip run.now) resets).Timed options := by
  by_cases isOpen : run.breaker.state = .stateOpen
  · have same : next.trip run.now = next := if_pos (steady.1.trans isOpen)
    rw [same]
    exact timed.steady steady resets
  · have times : (run.become (next.trip run.now) resets).tripTimes = run.now :: run.tripTimes :=
      if_pos ⟨isOpen, state_trip run.now next⟩
    have last : (next.trip run.now).lastFailureTime = run.now := by
      rw [Breaker.trip, if_neg fun other => isOpen (steady.1.symm.trans other)]
    have past : ∀ time ∈ run.now :: run.tripTimes, time ≤ run.now :=
      List.forall_mem_cons.mpr ⟨Nat.le_refl _, timed.past⟩
    constructor
    · rw [times]
      exact past
    · intro _
      rw [times]
      exact fun time member => Nat.le_trans (past time member) (Nat.le_of_eq last.symm)
    · exact fun notOpen => absurd (state_trip run.now next) notOpen
    · intro call member
      rw [times]
      exact Nat.le_succ_of_le (timed.older call member)
    · intro _ call member
      rw [times]
      exact Nat.lt_succ_of_le (timed.older call member)
    · exact timed.admitted

/-- A breaker that is not open is reset. -/
theorem Timed.reset
    (timed : run.Timed options)
    (notOpen : run.breaker.state ≠ .stateOpen)
    (resets : Nat) :
    (run.become run.breaker.reset resets).Timed options := by
  have same : (run.become run.breaker.reset resets).tripTimes = run.tripTimes :=
    if_neg fun opened => CircuitState.noConfusion opened.2
  constructor
  · rw [same]
    exact timed.past
  · exact fun isOpen => CircuitState.noConfusion isOpen
  · intro _ time member
    rw [same] at member
    exact timed.elapsed notOpen time member
  · rw [same]
    exact timed.older
  · exact fun isOpen => CircuitState.noConfusion isOpen
  · exact timed.admitted

/-- A call is started, now or in a breaker that was opened half. -/
theorem Timed.started
    (timed : run.Timed options)
    {next : Breaker} {admission : Admission}
    (notOpen : next.state ≠ .stateOpen)
    (elapsed : ∀ time ∈ run.tripTimes, time + options.timeout ≤ run.now)
    (isAdmitted : admission ≠ .rejected) :
    { run with breaker := next, inFlight := run.inFlight ++ [run.started admission] }.Timed
      options where
  past := timed.past
  last := fun isOpen => absurd isOpen notOpen
  elapsed := fun _ => elapsed
  older := List.forall_mem_append.mpr ⟨timed.older, fun call member => by
    rw [List.mem_singleton.mp member]
    exact Nat.le_refl _⟩
  before := fun isOpen => absurd isOpen notOpen
  admitted := List.forall_mem_append.mpr ⟨timed.admitted, fun call member => by
    rw [List.mem_singleton.mp member]
    exact isAdmitted⟩

/-- A call that gets through leaves nothing of the timeouts. -/
theorem Timed.elapsed_of_opened
    (timed : run.Timed options)
    {next : Breaker}
    (opened : run.breaker.tryHalfOpen options run.now = some next) :
    ∀ time ∈ run.tripTimes, time + options.timeout ≤ run.now := by
  obtain ⟨isOpen, late, _, _⟩ := tryHalfOpen_eq_some opened
  intro time member
  have last := timed.last isOpen time member
  omega

theorem timed_call
    (timed : run.Timed options) :
    (run.call options).Timed options := by
  rcases admit_cases options run.now run.breaker with
    ⟨closed, admitted⟩ | ⟨_, _, admitted⟩ | ⟨next, opened, admitted⟩ | ⟨halfOpen, admitted⟩
  · rw [call, admitted]
    have notOpen : run.breaker.state ≠ .stateOpen := fun isOpen => by
      cases closed.symm.trans isOpen
    exact timed.started notOpen (timed.elapsed notOpen) Admission.noConfusion
  · rw [call, admitted]
    exact timed
  · rw [call, admitted]
    obtain ⟨_, _, _, rfl⟩ := tryHalfOpen_eq_some opened
    exact timed.started CircuitState.noConfusion (timed.elapsed_of_opened opened)
      Admission.noConfusion
  · rw [call, admitted]
    have notOpen : run.breaker.state ≠ .stateOpen := fun isOpen => by
      cases halfOpen.symm.trans isOpen
    exact timed.started notOpen (timed.elapsed notOpen) Admission.noConfusion

/-- A probe that may return does so in a breaker that is not open. -/
theorem Timed.not_open_of_returns
    (timed : run.Timed options)
    {index : Nat} {call : CallInFlight}
    (found : run.inFlight[index]? = some call)
    (probe : call.admission = .probe)
    (noLate : run.NoLateReturn (.settle index .returns)) :
    run.breaker.state ≠ .stateOpen := by
  intro isOpen
  have older := timed.before isOpen call (List.mem_of_getElem? found)
  cases noLate call found with
  | inl same => omega
  | inr harmless =>
      cases isOpen.symm.trans (harmless.2 probe)

theorem timed_settled
    (timed : run.Timed options)
    {index : Nat} {call : CallInFlight} {outcome : Outcome}
    (found : run.inFlight[index]? = some call)
    (noLate : run.NoLateReturn (.settle index outcome)) :
    (run.settled options index call outcome).Timed options := by
  have fewer : { run with inFlight := run.inFlight.eraseIdx index }.Timed options :=
    timed.fewer List.eraseIdx_subset
  rw [settled]
  rcases settle_cases options run.now call.admission outcome run.breaker with
    steady | ⟨next, steady, tripped⟩ | ⟨probe, rfl, isReset⟩
  · exact fewer.steady steady _
  · rw [tripped]
    exact fewer.trip _ steady
  · rw [isReset]
    exact fewer.reset (timed.not_open_of_returns found probe noLate) _

theorem timed_step
    (timed : run.Timed options)
    {event : BreakerEvent} {next : BreakerRun}
    (noLate : run.NoLateReturn event)
    (stepped : (breakerMachine options).step run event = some next) :
    next.Timed options := by
  cases event with
  | pass milliseconds =>
      cases stepped
      exact
        { timed with
          past := fun time member => Nat.le_add_right_of_le (timed.past time member)
          elapsed := fun notOpen time member =>
            Nat.le_add_right_of_le (timed.elapsed notOpen time member) }
  | call =>
      cases stepped
      exact timed_call timed
  | settle index outcome =>
      obtain ⟨call, found, rfl⟩ := Option.map_eq_some_iff.mp stepped
      exact timed_settled timed found noLate
  | trip =>
      cases stepped
      exact timed.trip 0 ⟨rfl, rfl⟩
  | reset => exact noLate.elim

/-! ## Steps -/

/-- A call within the timeout of a trip is rejected. -/
theorem Timed.rejects
    (timed : run.Timed options)
    {time : Nat}
    (member : time ∈ run.tripTimes)
    (early : run.now < time + options.timeout) :
    (enter options run.now run.breaker).2 = .rejected := by
  have isOpen : run.breaker.state = .stateOpen := by
    by_contra notOpen
    have elapsed := timed.elapsed notOpen time member
    omega
  rcases admit_cases options run.now run.breaker with
    ⟨closed, _⟩ | ⟨_, _, admitted⟩ | ⟨next, opened, _⟩ | ⟨halfOpen, _⟩
  · cases isOpen.symm.trans closed
  · rw [admitted]
  · have elapsed := timed.elapsed_of_opened opened time member
    omega
  · cases isOpen.symm.trans halfOpen

theorem protects_call
    (timed : run.Timed options) :
    run.Protects options .call (run.call options) where
  rejects := fun _ _ member early => timed.rejects member early
  leaves := by
    intro isOpen left
    refine ⟨rfl, ?_⟩
    rcases admit_cases options run.now run.breaker with
      ⟨closed, _⟩ | ⟨_, _, admitted⟩ | ⟨next, opened, _⟩ | ⟨halfOpen, _⟩
    · cases isOpen.symm.trans closed
    · rw [call, admitted] at left
      exact absurd isOpen left
    · exact timed.elapsed_of_opened opened
    · cases isOpen.symm.trans halfOpen
  late := fun _ _ _ same => by cases same

theorem protects_settled
    (timed : run.Timed options)
    {index : Nat} {call : CallInFlight} {outcome : Outcome}
    (found : run.inFlight[index]? = some call)
    (noLate : run.NoLateReturn (.settle index outcome)) :
    run.Protects options (.settle index outcome) (run.settled options index call outcome) where
  rejects := fun same => by cases same
  leaves := by
    intro isOpen left
    have next_eq : (run.settled options index call outcome).breaker =
        settle options run.now call.admission outcome run.breaker := rfl
    rw [next_eq] at left
    rcases settle_cases options run.now call.admission outcome run.breaker with
      steady | ⟨next, _, tripped⟩ | ⟨probe, rfl, _⟩
    · exact absurd (steady.1.trans isOpen) left
    · rw [tripped, state_trip] at left
      exact absurd rfl left
    · exact absurd isOpen (timed.not_open_of_returns found probe noLate)
  late := by
    intro other otherOutcome otherCall same otherFound older
    cases same
    cases found.symm.trans otherFound
    cases outcome with
    | throws isFailure =>
        exact settle_throws options run.now call.admission isFailure run.breaker
    | returns =>
        cases noLate call found with
        | inl same => omega
        | inr harmless =>
            refine ⟨fun closed => ?_, harmless.1 ▸ Nat.zero_le _⟩
            rcases settle_cases options run.now call.admission .returns run.breaker with
              steady | ⟨next, _, tripped⟩ | ⟨probe, _, _⟩
            · exact steady.1.symm.trans closed
            · have opened : (next.trip run.now).state = .stateClosed := tripped ▸ closed
              rw [state_trip] at opened
              cases opened
            · exact harmless.2 probe

/-- A return that should do nothing and does nothing is no late one. -/
theorem noLateReturn_of_protects
    (timed : run.Timed options)
    {index : Nat} {call : CallInFlight}
    (found : run.inFlight[index]? = some call)
    (protects : run.Protects options (.settle index .returns)
      (run.settled options index call .returns)) :
    run.NoLateReturn (.settle index .returns) := by
  intro other otherFound
  cases found.symm.trans otherFound
  have member : call ∈ run.inFlight := List.mem_of_getElem? found
  refine (Nat.lt_or_eq_of_le (timed.older call member)).symm.imp id fun older => ?_
  obtain ⟨closes, counts⟩ := protects.late index .returns call rfl found older
  have next_eq : (run.settled options index call .returns).breaker =
      settle options run.now call.admission .returns run.breaker := rfl
  rw [next_eq] at closes counts
  cases admission : call.admission with
  | rejected => exact absurd admission (timed.admitted call member)
  | closed =>
      rw [admission] at counts
      exact ⟨Nat.le_zero.mp counts, fun probe => by cases probe⟩
  | probe =>
      rw [admission] at closes counts
      exact ⟨Nat.le_zero.mp counts, fun _ => closes rfl⟩

end Timed

/-- In every run without resets and late returns, one more step does what it should
exactly if it is no late return. -/
theorem protects_iff
    {options : Options} {run next : BreakerRun} {event : BreakerEvent}
    (reaches : (breakerMachine options).ReachesUnder NoLateReturn run)
    (notReset : event ≠ .reset)
    (stepped : (breakerMachine options).step run event = some next) :
    run.Protects options event next ↔ run.NoLateReturn event := by
  have timed : run.Timed options :=
    reaches.invariant (timed_start options)
      fun _ _ _ timed noLate stepped => timed_step timed noLate stepped
  cases event with
  | reset => exact absurd rfl notReset
  | pass milliseconds =>
      cases stepped
      refine iff_of_true ⟨?_, fun isOpen left => absurd isOpen left, ?_⟩ trivial
      · exact fun same => BreakerEvent.noConfusion same
      · exact fun _ _ _ same => BreakerEvent.noConfusion same
  | call =>
      cases stepped
      exact iff_of_true (protects_call timed) trivial
  | trip =>
      cases stepped
      refine iff_of_true ⟨?_, fun _ left => ?_, ?_⟩ trivial
      · exact fun same => BreakerEvent.noConfusion same
      · exact absurd (state_trip run.now run.breaker) left
      · exact fun _ _ _ same => BreakerEvent.noConfusion same
  | settle index outcome =>
      obtain ⟨call, found, rfl⟩ := Option.map_eq_some_iff.mp stepped
      cases outcome with
      | throws isFailure => exact iff_of_true (protects_settled timed found trivial) trivial
      | returns =>
          exact ⟨noLateReturn_of_protects timed found, protects_settled timed found⟩

/-! ## Two runs -/

/-- A breaker that opens at the first failure, for ten milliseconds. -/
def briefOptions : Options where
  threshold := 1
  timeout := 10

/-- Five milliseconds after the first failure a call is rejected. -/
theorem protects_iff_early :
    ∃ run next,
      (breakerMachine briefOptions).runFrom NoLateReturn {}
        [.call, .settle 0 (.throws true), .pass 5] = some run ∧
      (breakerMachine briefOptions).step run .call = some next ∧
      run.breaker.state = .stateOpen ∧ run.tripTimes = [0] ∧ run.now = 5 ∧
      run.Protects briefOptions .call next := by
  have states : ((breakerMachine briefOptions).runFrom NoLateReturn {}
      [.call, .settle 0 (.throws true), .pass 5]).map
        (fun run => (run.breaker.state, run.tripTimes, run.now)) =
          some (.stateOpen, [0], 5) := by
    decide
  obtain ⟨run, runEq, same⟩ := Option.map_eq_some_iff.mp states
  refine ⟨run, _, runEq, rfl, congrArg (·.1) same, congrArg (·.2.1) same,
    congrArg (·.2.2) same, ?_⟩
  exact (protects_iff (Machine.reachesUnder_of_run _ runEq) BreakerEvent.noConfusion rfl).mpr
    trivial

/-- Two calls go through the half-open breaker; one of them fails and opens it again,
and the other one then returns and closes it at once. -/
theorem not_protects :
    ∃ run next,
      (breakerMachine briefOptions).ReachesUnder (fun _ event => event ≠ .reset) run ∧
      (breakerMachine briefOptions).step run (.settle 0 .returns) = some next ∧
      run.breaker.state = .stateOpen ∧ run.tripTimes = [10, 0] ∧ run.now = 10 ∧
      next.breaker.state = .stateClosed ∧
      ¬ run.Protects briefOptions (.settle 0 .returns) next := by
  have states : ((breakerMachine briefOptions).runFrom (fun _ event => event ≠ .reset) {}
      [.call, .settle 0 (.throws true), .pass 10, .call, .call, .settle 0 (.throws true)]).map
        (fun run => (run.breaker.state, run.tripTimes, run.now,
          ((breakerMachine briefOptions).step run (.settle 0 .returns)).map (·.breaker.state))) =
            some (.stateOpen, [10, 0], 10, some .stateClosed) := by
    decide
  obtain ⟨run, runEq, same⟩ := Option.map_eq_some_iff.mp states
  have isOpen : run.breaker.state = .stateOpen := congrArg (·.1) same
  have returned : ((breakerMachine briefOptions).step run (.settle 0 .returns)).map
      (·.breaker.state) = some .stateClosed := congrArg (·.2.2.2) same
  obtain ⟨next, stepped, closed⟩ := Option.map_eq_some_iff.mp returned
  refine ⟨run, next, Machine.reachesUnder_of_run _ runEq, stepped, isOpen,
    congrArg (·.2.1) same, congrArg (·.2.2.1) same, closed, fun protects => ?_⟩
  have left := (protects.leaves isOpen (closed ▸ CircuitState.noConfusion)).1
  cases left

end BreakerRun
end CircuitBreaker
end HttpNative
