import HttpNative.Compile.FastPathProbe

/-!
# What compiling does to the state

The states that compilations go through are all the start state exactly when
no probed handler changes it and no route comment does. The source filter lets
effects through: it looks for a dozen method names and for nothing else.
-/

namespace HttpNative
namespace Compile

variable {World : Type}

/-- Compiling never leaves the state it starts in. -/
def LeavesState
    (commentWriter : Option (Route World → World → World))
    (routes : List (Route World))
    (times : Nat)
    (world : World) :
    Prop :=
  ∀ visited ∈ compileTimes commentWriter routes times world, visited = world

/-- Calling the handler with its placeholders leaves a state as it is. -/
def Harmless (route : Route World) (world : World) : Prop :=
  (route.handler.call (mockRequest route.method route.path) world).1 = world

/-- The probe calls the handler of the route. -/
def Probed (route : Route World) : Prop :=
  route.staticResponse = false ∧ isProbed route.path route.source = true

theorem compileRoute_fst
    (route : Route World)
    (world : World) :
    (compileRoute route world).1 = world ↔ (Probed route → Harmless route world) := by
  unfold compileRoute probeHandlerForFastPath Probed Harmless
  cases route.staticResponse with
  | true => simp
  | false =>
      by_cases probed : isProbed route.path route.source = true
      · simp only [probed, if_true, Bool.false_eq_true, if_false, and_self, true_implies]
        split <;> rfl
      · simp [probed]

theorem compileRoutes_stays_iff
    (routes : List (Route World))
    (world : World) :
    (∀ visited ∈ (compileRoutes routes world).visited, visited = world) ↔
      ∀ route ∈ routes, Probed route → Harmless route world := by
  induction routes with
  | nil => simp [compileRoutes]
  | cons route rest hypothesis =>
      rw [List.forall_mem_cons, ← compileRoute_fst, ← hypothesis]
      simp only [compileRoutes, List.forall_mem_cons]
      constructor
      · rintro ⟨stays, restStays⟩
        rw [stays] at restStays
        exact ⟨stays, restStays⟩
      · rintro ⟨stays, restStays⟩
        rw [stays]
        exact ⟨rfl, restStays⟩

theorem markRoutes_stays_iff
    (markRoute : Route World → World → World)
    (routes : List (Route World))
    (world : World) :
    (∀ visited ∈ markRoutes markRoute routes world, visited = world) ↔
      ∀ route ∈ routes, markRoute route world = world := by
  induction routes with
  | nil => simp [markRoutes]
  | cons route rest hypothesis =>
      rw [List.forall_mem_cons, ← hypothesis, markRoutes, List.forall_mem_cons]
      constructor
      · rintro ⟨stays, restStays⟩
        rw [stays] at restStays
        exact ⟨stays, restStays⟩
      · rintro ⟨stays, restStays⟩
        rw [stays]
        exact ⟨rfl, restStays⟩

theorem lastVisited_eq
    {world : World} {visited : List World}
    (stays : ∀ state ∈ visited, state = world) :
    lastVisited world visited = world := by
  unfold lastVisited
  cases last : visited.getLast? with
  | none => rfl
  | some state => exact stays state (List.mem_of_getLast? last)

/-- No effect of one compilation shows in the state: probed handlers are
harmless there, and route comments change nothing. -/
def Effectless
    (commentWriter : Option (Route World → World → World))
    (routes : List (Route World))
    (world : World) :
    Prop :=
  (∀ route ∈ routes, Probed route → Harmless route world) ∧
    ∀ markRoute ∈ commentWriter, ∀ route ∈ routes, markRoute route world = world

theorem buildCompiledApplication_stays_iff
    (commentWriter : Option (Route World → World → World))
    (routes : List (Route World))
    (world : World) :
    (∀ visited ∈ (buildCompiledApplication commentWriter routes world).visited,
        visited = world) ↔
      Effectless commentWriter routes world := by
  unfold buildCompiledApplication Effectless
  rw [← compileRoutes_stays_iff]
  cases commentWriter with
  | none => simp
  | some markRoute =>
      simp only [List.forall_mem_append, Option.mem_some_iff, forall_eq']
      constructor
      · rintro ⟨stays, marksStay⟩
        rw [lastVisited_eq stays, markRoutes_stays_iff] at marksStay
        exact ⟨stays, marksStay⟩
      · rintro ⟨stays, marksStay⟩
        rw [lastVisited_eq stays, markRoutes_stays_iff]
        exact ⟨stays, marksStay⟩

/-- Any positive number of compilations leaves the state exactly when no probed
handler and no route comment changes it. -/
theorem leavesState_iff
    (commentWriter : Option (Route World → World → World))
    (routes : List (Route World))
    (times : Nat)
    (world : World) :
    LeavesState commentWriter routes times world ↔
      times = 0 ∨ Effectless commentWriter routes world := by
  unfold LeavesState
  induction times with
  | zero => simp [compileTimes]
  | succ times hypothesis =>
      rw [compileTimes]
      simp only [List.forall_mem_append, buildCompiledApplication_stays_iff]
      constructor
      · rintro ⟨effectless, _⟩
        exact .inr effectless
      · rintro (zero | effectless)
        · cases zero
        · rw [lastVisited_eq
            ((buildCompiledApplication_stays_iff commentWriter routes world).mpr effectless)]
          exact ⟨effectless, hypothesis.mpr (.inr effectless)⟩

/-! ## A handler that counts -/

/-- `(req, res) => { hits++; res.json({ hits }); }` over the number of hits. -/
def countingHandler : Handler Nat where
  source := text "(req, res) => \x7b hits++; res.json(\x7b hits \x7d); \x7d"
  call _ hits :=
    (hits + 1, ⟨[.json (.object [(text "hits", .number (.ofNat (hits + 1)))])], .returned⟩)

def countingRoute : Route Nat where
  method := text "POST"
  path := text "/items/:id"
  handler := countingHandler
  staticResponse := false
  syntheticHandlerSource := none

theorem isProbed_countingRoute : isProbed countingRoute.path countingRoute.source = true := by
  decide

/-- One compilation without any request counts a hit. -/
theorem not_leavesState_of_counting :
    ¬ ∀ (routes : List (Route Nat)) (times hits : Nat), LeavesState none routes times hits := by
  intro everywhere
  have stays : ∀ visited ∈ (buildCompiledApplication none [countingRoute] 0).visited,
      visited = 0 := by
    intro visited member
    exact everywhere [countingRoute] 1 0 visited (List.mem_append_left _ member)
  obtain ⟨harmless, _⟩ := (buildCompiledApplication_stays_iff none [countingRoute] 0).mp stays
  have counted := harmless countingRoute List.mem_cons_self ⟨rfl, isProbed_countingRoute⟩
  cases counted

end Compile
end HttpNative
