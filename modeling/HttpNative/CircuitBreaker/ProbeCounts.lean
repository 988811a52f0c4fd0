import HttpNative.CircuitBreaker.Breaker
import Mathlib.Data.List.Count
import Mathlib.Data.List.Perm.Basic

/-!
# The number of probes

A half-open breaker should have counted the probes in flight, and let no more of them
through than it may. It does as long as no call is started while it is half-open, no
probe is let through or fails while one from before a reset is in flight: a half-open
breaker does not count its calls, and a reset forgets those that were counted.
-/

namespace HttpNative
namespace CircuitBreaker

namespace BreakerRun

/-- The calls in flight that were let through as probes. -/
def probesInFlight (run : BreakerRun) : Nat :=
  run.inFlight.countP fun call => call.admission = .probe

/-- In the half-open state the probes in flight are counted, and they are not too
many; the count is never negative. -/
structure ProbesCounted (options : Options) (run : BreakerRun) : Prop where
  counted : run.breaker.state = .stateHalfOpen →
    (run.probesInFlight : Int) = run.breaker.halfOpenActive ∧
      run.probesInFlight ≤ options.halfOpenMax
  nonneg : 0 ≤ run.breaker.halfOpenActive

/-- The probes in flight were all let through since the last reset. -/
def NoOldProbe (run : BreakerRun) : Prop :=
  ∀ call ∈ run.inFlight, call.admission = .probe → call.resetsBefore = run.resets

/-- No call is started in the half-open state, none is let through as a probe while an
older probe than the last reset is in flight, and none of these fails. -/
def CountsRight (options : Options) (run : BreakerRun) : BreakerEvent → Prop
  | .call =>
      run.breaker.state ≠ .stateHalfOpen ∧
        ((run.breaker.tryHalfOpen options run.now).isSome = true → run.NoOldProbe)
  | .settle index (.throws _) =>
      ∀ call ∈ run.inFlight[index]?, call.admission = .probe → call.resetsBefore = run.resets
  | _ => True

instance (run : BreakerRun) : Decidable run.NoOldProbe :=
  inferInstanceAs (Decidable (∀ call ∈ run.inFlight, _))

instance (options : Options) (run : BreakerRun) :
    (event : BreakerEvent) → Decidable (run.CountsRight options event)
  | .call => inferInstanceAs (Decidable (_ ∧ (_ → _)))
  | .settle index (.throws _) =>
      inferInstanceAs (Decidable (∀ call ∈ run.inFlight[index]?,
        call.admission = .probe → call.resetsBefore = run.resets))
  | .settle _ .returns => isTrue trivial
  | .pass _ => isTrue trivial
  | .trip => isTrue trivial
  | .reset => isTrue trivial

/-! ## The count -/

/-- The call is a probe that was let through since the last reset. -/
def IsCurrent (run : BreakerRun) (call : CallInFlight) : Prop :=
  call.admission = .probe ∧ call.resetsBefore = run.resets

instance (run : BreakerRun) (call : CallInFlight) : Decidable (run.IsCurrent call) :=
  inferInstanceAs (Decidable (_ ∧ _))

/-- What the count is: the probes since the last reset. While older ones are in flight
there are none, and the breaker is not half-open. -/
structure Counting (options : Options) (run : BreakerRun) : Prop where
  active_eq : run.breaker.halfOpenActive = (run.inFlight.countP run.IsCurrent : Nat)
  bounded : run.breaker.state = .stateHalfOpen →
    run.breaker.halfOpenActive ≤ options.halfOpenMax
  separate : run.NoOldProbe ∨
    (run.breaker.halfOpenActive = 0 ∧ run.breaker.state ≠ .stateHalfOpen)
  past : ∀ call ∈ run.inFlight, call.resetsBefore ≤ run.resets

section Counting

variable {options : Options} {run : BreakerRun}

/-- Without older probes the count is that of all probes. -/
theorem countP_isCurrent
    (noOld : run.NoOldProbe) :
    run.inFlight.countP run.IsCurrent = run.probesInFlight := by
  refine List.countP_congr fun call member => ?_
  simp only [decide_eq_true_eq]
  exact ⟨fun current => current.1, fun probe => ⟨probe, noOld call member probe⟩⟩

theorem Counting.probesCounted
    (counting : run.Counting options) :
    run.ProbesCounted options := by
  constructor
  · intro halfOpen
    have noOld := counting.separate.resolve_right fun other => other.2 halfOpen
    have active := counting.active_eq
    have bounded := counting.bounded halfOpen
    rw [countP_isCurrent noOld] at active
    exact ⟨active.symm, by omega⟩
  · rw [counting.active_eq]
    exact Int.natCast_nonneg _

theorem counting_start (options : Options) :
    (breakerMachine options).start.Counting options where
  active_eq := rfl
  bounded := fun halfOpen => by cases halfOpen
  separate := .inl fun _ member => absurd member List.not_mem_nil
  past := fun _ member => absurd member List.not_mem_nil

/-- What holds of the count is about the calls in flight, the resets and the breaker. -/
theorem Counting.of_same
    (counting : run.Counting options)
    {next : BreakerRun}
    (inFlight_eq : next.inFlight = run.inFlight)
    (resets_eq : next.resets = run.resets)
    (active_eq : next.breaker.halfOpenActive = run.breaker.halfOpenActive)
    (state : next.breaker.state = .stateHalfOpen → run.breaker.state = .stateHalfOpen) :
    next.Counting options := by
  have current : next.IsCurrent = run.IsCurrent := by
    funext call
    rw [IsCurrent, IsCurrent, resets_eq]
  constructor
  · rw [active_eq, counting.active_eq, inFlight_eq]
    simp only [current]
  · intro halfOpen
    rw [active_eq]
    exact counting.bounded (state halfOpen)
  · refine counting.separate.imp (fun noOld call member probe => ?_) fun other => ?_
    · rw [inFlight_eq] at member
      rw [resets_eq]
      exact noOld call member probe
    · exact ⟨active_eq.trans other.1, fun halfOpen => other.2 (state halfOpen)⟩
  · intro call member
    rw [inFlight_eq] at member
    rw [resets_eq]
    exact counting.past call member

theorem state_settle
    {admission : Admission}
    (notProbe : admission ≠ .probe)
    (now : Nat)
    (outcome : Outcome)
    (breaker : Breaker) :
    (settle options now admission outcome breaker).halfOpenActive = breaker.halfOpenActive ∧
      ((settle options now admission outcome breaker).state = .stateHalfOpen →
        breaker.state = .stateHalfOpen) := by
  cases admission with
  | probe => exact absurd rfl notProbe
  | rejected => exact ⟨rfl, id⟩
  | closed =>
      cases outcome with
      | returns => exact ⟨rfl, id⟩
      | throws isFailure =>
          cases isFailure with
          | false => exact ⟨rfl, id⟩
          | true =>
              unfold settle
              dsimp only
              split
              · refine ⟨halfOpenActive_trip _ _, fun halfOpen => ?_⟩
                rw [state_trip] at halfOpen
                cases halfOpen
              · exact ⟨rfl, id⟩

/-- A call that settles is one less in flight. -/
theorem countP_eraseIdx
    {calls : List CallInFlight} {index : Nat} {call : CallInFlight}
    (found : calls[index]? = some call)
    (counts : CallInFlight → Bool) :
    calls.countP counts = (calls.eraseIdx index).countP counts + if counts call then 1 else 0 := by

  obtain ⟨inside, rfl⟩ := List.getElem?_eq_some_iff.mp found
  have same := (List.getElem_cons_eraseIdx_perm inside).countP_eq counts
  rw [← same, List.countP_cons]

/-! ## Steps -/

/-- A call that is no probe starts. -/
theorem counting_started
    (counting : run.Counting options)
    {call : CallInFlight}
    (notProbe : call.admission ≠ .probe)
    (resets_eq : call.resetsBefore = run.resets) :
    { run with inFlight := run.inFlight ++ [call] }.Counting options := by
  have notCurrent : ¬ run.IsCurrent call := fun current => notProbe current.1
  constructor
  · change run.breaker.halfOpenActive = ((run.inFlight ++ [call]).countP run.IsCurrent : Nat)
    rw [List.countP_append, List.countP_singleton, decide_eq_false notCurrent]
    exact counting.active_eq
  · exact counting.bounded
  · refine counting.separate.imp_left fun noOld => ?_
    refine List.forall_mem_append.mpr ⟨noOld, fun other member probe => ?_⟩
    rw [List.mem_singleton.mp member] at probe
    exact absurd probe notProbe
  · refine List.forall_mem_append.mpr ⟨counting.past, fun other member => ?_⟩
    rw [List.mem_singleton.mp member]
    exact Nat.le_of_eq resets_eq

/-- A probe is let through, and counted. -/
theorem counting_probe
    (counting : run.Counting options)
    (noOld : run.NoOldProbe)
    (room : run.breaker.halfOpenActive < options.halfOpenMax)
    {call : CallInFlight}
    (probe : call.admission = .probe)
    (resets_eq : call.resetsBefore = run.resets) :
    { run with
      breaker := { run.breaker with
        state := .stateHalfOpen, halfOpenActive := run.breaker.halfOpenActive + 1 }
      inFlight := run.inFlight ++ [call] }.Counting options := by
  have current : run.IsCurrent call := ⟨probe, resets_eq⟩
  constructor
  · change run.breaker.halfOpenActive + 1 =
      ((run.inFlight ++ [call]).countP run.IsCurrent : Nat)
    rw [List.countP_append, List.countP_singleton, decide_eq_true current, counting.active_eq]
    rfl
  · intro _
    exact Int.add_one_le_of_lt room
  · refine .inl (List.forall_mem_append.mpr ⟨noOld, fun other member _ => ?_⟩)
    rw [List.mem_singleton.mp member]
    exact resets_eq
  · refine List.forall_mem_append.mpr ⟨counting.past, fun other member => ?_⟩
    rw [List.mem_singleton.mp member]
    exact Nat.le_of_eq resets_eq

theorem counting_call
    (counting : run.Counting options)
    (right : run.CountsRight options .call) :
    (run.call options).Counting options := by
  rcases admit_cases options run.now run.breaker with
    ⟨_, admitted⟩ | ⟨_, _, admitted⟩ | ⟨next, opened, admitted⟩ | ⟨halfOpen, _⟩
  · rw [call, admitted]
    exact counting_started counting Admission.noConfusion rfl
  · rw [call, admitted]
    exact counting
  · obtain ⟨_, _, room, rfl⟩ := tryHalfOpen_eq_some opened
    rw [call, admitted]
    exact counting_probe counting (right.2 (opened ▸ rfl)) room rfl rfl
  · exact absurd halfOpen right.1

/-- The calls that stay in flight when another one settles. -/
theorem counting_settled_other
    (counting : run.Counting options)
    {index : Nat} {call : CallInFlight}
    (found : run.inFlight[index]? = some call)
    (notProbe : call.admission ≠ .probe)
    (outcome : Outcome) :
    (run.settled options index call outcome).Counting options := by
  have notCurrent : ¬ run.IsCurrent call := fun current => notProbe current.1
  have erased : { run with inFlight := run.inFlight.eraseIdx index }.Counting options := by
    constructor
    · have split := countP_eraseIdx found run.IsCurrent
      rw [decide_eq_false notCurrent] at split
      change run.breaker.halfOpenActive = ((run.inFlight.eraseIdx index).countP run.IsCurrent : Nat)
      rw [counting.active_eq, split]
      rfl
    · exact counting.bounded
    · exact counting.separate.imp_left fun noOld other member =>
        noOld other (List.mem_of_mem_eraseIdx member)
    · exact fun other member => counting.past other (List.mem_of_mem_eraseIdx member)
  obtain ⟨active, state⟩ := @state_settle options _ notProbe run.now outcome run.breaker
  refine erased.of_same rfl ?_ active state
  change run.resets + (if _ then 1 else 0) = run.resets
  rw [if_neg fun both => notProbe both.1, Nat.add_zero]

/-- A reset forgets the probes in flight. -/
theorem counting_reset
    (counting : run.Counting options)
    {calls : List CallInFlight}
    (among : calls ⊆ run.inFlight) :
    ({ run with inFlight := calls }.become run.breaker.reset 1).Counting options := by
  constructor
  · change (0 : Int) = (calls.countP _ : Nat)
    rw [List.countP_eq_zero.mpr]
    · rfl
    · intro call member
      have past := counting.past call (among member)
      rw [decide_eq_true_eq]
      intro current
      have now : call.resetsBefore = run.resets + 1 := current.2
      omega
  · intro halfOpen
    cases halfOpen
  · exact .inr ⟨rfl, CircuitState.noConfusion⟩
  · exact fun call member => Nat.le_succ_of_le (counting.past call (among member))

/-- A counted probe fails. -/
theorem counting_failed
    (counting : run.Counting options)
    {index : Nat} {call : CallInFlight}
    (found : run.inFlight[index]? = some call)
    (current : run.IsCurrent call)
    (isFailure : Bool) :
    (run.settled options index call (.throws isFailure)).Counting options := by
  have split := countP_eraseIdx found run.IsCurrent
  rw [decide_eq_true current, if_pos rfl] at split
  have active := counting.active_eq
  rw [split] at active
  have breaker_eq : (run.settled options index call (.throws isFailure)).breaker =
      { run.breaker with halfOpenActive := run.breaker.halfOpenActive - 1 }.trip run.now := by
    change settle options run.now call.admission (.throws isFailure) run.breaker = _
    rw [current.1]
    rfl
  have resets_eq : (run.settled options index call (.throws isFailure)).resets = run.resets := by
    change run.resets + (if _ then 1 else 0) = run.resets
    rw [if_neg fun both => Outcome.noConfusion both.2, Nat.add_zero]
  have isCurrent : (run.settled options index call (.throws isFailure)).IsCurrent =
      run.IsCurrent := by
    funext other
    rw [IsCurrent, IsCurrent, resets_eq]
  have noOld : run.NoOldProbe := counting.separate.resolve_right fun other => by
    have none_active := other.1
    omega
  constructor
  · rw [breaker_eq, halfOpenActive_trip]
    change run.breaker.halfOpenActive - 1 = ((run.inFlight.eraseIdx index).countP _ : Nat)
    simp only [isCurrent]
    omega
  · intro halfOpen
    rw [breaker_eq, state_trip] at halfOpen
    cases halfOpen
  · refine .inl fun other member probe => ?_
    rw [resets_eq]
    exact noOld other (List.mem_of_mem_eraseIdx member) probe
  · intro other member
    rw [resets_eq]
    exact counting.past other (List.mem_of_mem_eraseIdx member)

theorem counting_settled
    (counting : run.Counting options)
    {index : Nat} {call : CallInFlight} {outcome : Outcome}
    (found : run.inFlight[index]? = some call)
    (right : run.CountsRight options (.settle index outcome)) :
    (run.settled options index call outcome).Counting options := by
  by_cases probe : call.admission = .probe
  · cases outcome with
    | returns =>
        have settled_eq : run.settled options index call .returns =
            { run with inFlight := run.inFlight.eraseIdx index }.become run.breaker.reset 1 := by
          rw [settled, probe]
          rfl
        rw [settled_eq]
        exact counting_reset counting List.eraseIdx_subset
    | throws isFailure =>
        exact counting_failed counting found ⟨probe, right call found probe⟩ isFailure
  · exact counting_settled_other counting found probe outcome

theorem counting_step
    (counting : run.Counting options)
    {event : BreakerEvent} {next : BreakerRun}
    (right : run.CountsRight options event)
    (stepped : (breakerMachine options).step run event = some next) :
    next.Counting options := by
  cases event with
  | pass milliseconds =>
      cases stepped
      exact counting.of_same rfl rfl rfl id
  | call =>
      cases stepped
      exact counting_call counting right
  | settle index outcome =>
      obtain ⟨call, found, rfl⟩ := Option.map_eq_some_iff.mp stepped
      exact counting_settled counting found right
  | trip =>
      cases stepped
      refine counting.of_same rfl rfl (halfOpenActive_trip _ _) fun halfOpen => ?_
      have opened : (run.breaker.trip run.now).state = .stateHalfOpen := halfOpen
      rw [state_trip] at opened
      cases opened
  | reset =>
      cases stepped
      exact counting_reset counting (List.Subset.refl _)

/-! ## Steps that lose count -/

/-- A call through a half-open breaker is not counted. -/
theorem not_probesCounted_call_halfOpen
    (counting : run.Counting options)
    (halfOpen : run.breaker.state = .stateHalfOpen) :
    ¬ (run.call options).ProbesCounted options := by
  intro after
  have before := (counting.probesCounted.counted halfOpen).1
  have admitted : enter options run.now run.breaker = (run.breaker, .probe) := by
    rw [enter, halfOpen]
  rw [call, admitted] at after
  have counted := (after.counted halfOpen).1
  rw [probesInFlight, List.countP_append] at counted
  change ((run.probesInFlight + 1 : Nat) : Int) = run.breaker.halfOpenActive at counted
  omega

/-- A probe that is let through beside an older one is counted alone. -/
theorem not_probesCounted_call_old
    (counting : run.Counting options)
    {opened : Breaker}
    (letThrough : run.breaker.tryHalfOpen options run.now = some opened)
    (old : ¬ run.NoOldProbe) :
    ¬ (run.call options).ProbesCounted options := by
  intro after
  have active := (counting.separate.resolve_left old).1
  obtain ⟨isOpen, _, _, rfl⟩ := tryHalfOpen_eq_some letThrough
  have admitted : enter options run.now run.breaker =
      ({ run.breaker with
        state := .stateHalfOpen, halfOpenActive := run.breaker.halfOpenActive + 1 },
        .probe) := by
    rw [enter, isOpen]
    simp only [letThrough]
  rw [call, admitted] at after
  have counted := (after.counted rfl).1
  have another : 0 < run.probesInFlight := by
    obtain ⟨other, isOld⟩ := not_forall.mp old
    obtain ⟨member, isOld⟩ := Classical.not_imp.mp isOld
    obtain ⟨probe, _⟩ := Classical.not_imp.mp isOld
    exact List.countP_pos_iff.mpr ⟨other, member, decide_eq_true probe⟩
  rw [probesInFlight, List.countP_append] at counted
  change ((run.probesInFlight + 1 : Nat) : Int) = run.breaker.halfOpenActive + 1 at counted
  omega

/-- The failure of a probe that was forgotten counts one too few. -/
theorem not_probesCounted_failed
    (counting : run.Counting options)
    {index : Nat} {call : CallInFlight} {isFailure : Bool}
    (found : run.inFlight[index]? = some call)
    (probe : call.admission = .probe)
    (old : call.resetsBefore ≠ run.resets) :
    ¬ (run.settled options index call (.throws isFailure)).ProbesCounted options := by
  intro after
  have someOld : ¬ run.NoOldProbe := fun noOld =>
    old (noOld call (List.mem_of_getElem? found) probe)
  have active := (counting.separate.resolve_left someOld).1
  have breaker_eq : (run.settled options index call (.throws isFailure)).breaker =
      { run.breaker with halfOpenActive := run.breaker.halfOpenActive - 1 }.trip run.now := by
    change settle options run.now call.admission (.throws isFailure) run.breaker = _
    rw [probe]
    rfl
  have nonneg := after.nonneg
  rw [breaker_eq, halfOpenActive_trip] at nonneg
  change 0 ≤ run.breaker.halfOpenActive - 1 at nonneg
  omega

/-- A step counts right if the probes are counted after it. -/
theorem countsRight_of_probesCounted
    (counting : run.Counting options)
    {event : BreakerEvent} {next : BreakerRun}
    (stepped : (breakerMachine options).step run event = some next)
    (after : next.ProbesCounted options) :
    run.CountsRight options event := by
  cases event with
  | pass milliseconds => trivial
  | trip => trivial
  | reset => trivial
  | call =>
      cases stepped
      refine ⟨fun halfOpen => not_probesCounted_call_halfOpen counting halfOpen after, ?_⟩
      intro letThrough
      obtain ⟨opened, isOpened⟩ := Option.isSome_iff_exists.mp letThrough
      by_contra old
      exact not_probesCounted_call_old counting isOpened old after
  | settle index outcome =>
      obtain ⟨call, found, rfl⟩ := Option.map_eq_some_iff.mp stepped
      cases outcome with
      | returns => trivial
      | throws isFailure =>
          intro other isOther probe
          cases found.symm.trans isOther
          by_contra old
          exact not_probesCounted_failed counting found probe old after

/-- In every run whose steps count right, the probes are counted, and they still are
after one more step exactly if that one counts right. -/
theorem probesCounted_of_reachesUnder
    (reaches : (breakerMachine options).ReachesUnder
      (fun run event => run.CountsRight options event) run) :
    run.ProbesCounted options ∧
      ∀ event next, (breakerMachine options).step run event = some next →
        (next.ProbesCounted options ↔ run.CountsRight options event) := by
  have counting : run.Counting options :=
    reaches.invariant (counting_start options)
      fun _ _ _ counting right stepped => counting_step counting right stepped
  refine ⟨counting.probesCounted, fun event next stepped => ⟨?_, fun right => ?_⟩⟩
  · exact countsRight_of_probesCounted counting stepped
  · exact (counting_step counting right stepped).probesCounted

end Counting

/-! ## Two runs -/

/-- A breaker that opens at the first failure, for ten milliseconds. -/
def quickOptions : Options where
  threshold := 1
  timeout := 10

/-- A failure opens the breaker, and one probe after the timeout closes it. -/
def recoveringEvents : List BreakerEvent :=
  [.call, .settle 0 (.throws true), .pass 10, .call]

theorem probesCounted_of_reachesUnder_recovering :
    ∃ run, (breakerMachine quickOptions).runFrom (fun run event => run.CountsRight quickOptions event)
        {} recoveringEvents = some run ∧
      run.breaker.state = .stateHalfOpen ∧ run.probesInFlight = 1 ∧
      run.ProbesCounted quickOptions := by
  have states : ((breakerMachine quickOptions).runFrom
      (fun run event => run.CountsRight quickOptions event) {} recoveringEvents).map
        (fun run => (run.breaker.state, run.probesInFlight)) = some (.stateHalfOpen, 1) := by
    decide
  obtain ⟨run, runEq, same⟩ := Option.map_eq_some_iff.mp states
  exact ⟨run, runEq, congrArg Prod.fst same, congrArg Prod.snd same,
    (probesCounted_of_reachesUnder (Machine.reachesUnder_of_run _ runEq)).1⟩

/-- Two calls go through the half-open breaker, which counts one of them, and when both
fail it has counted less than none. -/
theorem not_probesCounted :
    (∃ run, (breakerMachine quickOptions).Reaches run ∧ run.breaker.state = .stateHalfOpen ∧
      run.probesInFlight = 2 ∧ run.breaker.halfOpenActive = 1 ∧
      ¬ run.ProbesCounted quickOptions) ∧
    ∃ run, (breakerMachine quickOptions).Reaches run ∧ run.breaker.halfOpenActive = -1 ∧
      ¬ run.ProbesCounted quickOptions := by
  have twoProbes : ((breakerMachine quickOptions).runFrom (fun _ _ => True) {}
      (recoveringEvents ++ [.call])).map
        (fun run => (run.breaker.state, run.probesInFlight, run.breaker.halfOpenActive)) =
          some (.stateHalfOpen, 2, 1) := by
    decide
  have bothFailed : ((breakerMachine quickOptions).runFrom (fun _ _ => True) {}
      (recoveringEvents ++ [.call, .settle 0 (.throws true), .settle 0 (.throws true)])).map
        (fun run => run.breaker.halfOpenActive) = some (-1) := by
    decide
  constructor
  · obtain ⟨run, runEq, same⟩ := Option.map_eq_some_iff.mp twoProbes
    have state : run.breaker.state = .stateHalfOpen := congrArg (·.1) same
    have probes : run.probesInFlight = 2 := congrArg (·.2.1) same
    have active : run.breaker.halfOpenActive = 1 := congrArg (·.2.2) same
    refine ⟨run, Machine.reachesUnder_of_run _ runEq, state, probes, active, fun after => ?_⟩
    have counted := (after.counted state).1
    rw [probes, active] at counted
    exact absurd counted (by decide)
  · obtain ⟨run, runEq, active⟩ := Option.map_eq_some_iff.mp bothFailed
    refine ⟨run, Machine.reachesUnder_of_run _ runEq, active, fun after => ?_⟩
    have nonneg := after.nonneg
    rw [active] at nonneg
    exact absurd nonneg (by decide)

end BreakerRun

end CircuitBreaker
end HttpNative
