import Mathlib.Algebra.GroupWithZero.Nat
import Mathlib.Data.List.Basic

/-!
# Sliding windows

A log of costs with the times at which they were spent, and what it comes to within
a window that ends at some time. When every cost fits into the window that ends when
it is spent, every window fits. A queue of costs in the order of their times forgets
those that have left the window from its front on.
-/

namespace HttpNative
namespace SlidingWindow

/-- A time and a cost. -/
abbrev Spending := Nat × Nat

/-- The spending is at most a window old. -/
def InWindow (window time : Nat) (spending : Spending) : Prop :=
  spending.1 ≤ time ∧ time < spending.1 + window

instance (window time : Nat) (spending : Spending) :
    Decidable (InWindow window time spending) :=
  inferInstanceAs (Decidable (_ ∧ _))

/-- What was spent in the window that ends at a time. -/
def spent (window time : Nat) (log : List Spending) : Nat :=
  ((log.filter (InWindow window time)).map Prod.snd).sum

@[simp] theorem spent_nil (window time : Nat) : spent window time [] = 0 := rfl

theorem spent_cons
    (window time : Nat)
    (spending : Spending)
    (log : List Spending) :
    spent window time (spending :: log) =
      (if InWindow window time spending then spending.2 else 0) + spent window time log := by
  rw [spent, spent, List.filter_cons]
  by_cases inside : InWindow window time spending
  · rw [if_pos (decide_eq_true inside), if_pos inside]
    rfl
  · rw [if_neg (by simpa using inside), if_neg inside, Nat.zero_add]

theorem spent_append
    (window time : Nat)
    (log more : List Spending) :
    spent window time (log ++ more) = spent window time log + spent window time more := by
  rw [spent, List.filter_append, List.map_append, List.sum_append]
  rfl

theorem spent_append_singleton
    (window time : Nat)
    (log : List Spending)
    (spending : Spending) :
    spent window time (log ++ [spending]) =
      spent window time log + if InWindow window time spending then spending.2 else 0 := by
  rw [spent_append, spent_cons, spent_nil, Nat.add_zero]

/-- What is in the window of an earlier log is in an earlier window. -/
theorem spent_le_spent
    {window earlier later : Nat} {log : List Spending}
    (order : earlier ≤ later)
    (past : ∀ spending ∈ log, spending.1 ≤ earlier) :
    spent window later log ≤ spent window earlier log := by
  induction log with
  | nil => exact Nat.le_refl _
  | cons spending log hypothesis =>
      obtain ⟨first, others⟩ := List.forall_mem_cons.mp past
      rw [spent_cons, spent_cons]
      refine Nat.add_le_add ?_ (hypothesis others)
      by_cases inside : InWindow window later spending
      · have before : InWindow window earlier spending :=
          ⟨first, Nat.lt_of_le_of_lt order inside.2⟩
        simp only [if_pos inside, if_pos before, Nat.le_refl]
      · rw [if_neg inside]
        exact Nat.zero_le _

/-- All of a log that is in the window counts. -/
theorem spent_eq_sum
    {window time : Nat} {log : List Spending}
    (inside : ∀ spending ∈ log, InWindow window time spending) :
    spent window time log = (log.map Prod.snd).sum := by
  rw [spent, List.filter_eq_self.mpr]
  intro spending member
  exact decide_eq_true (inside spending member)

/-! ## Logs -/

/-- The log, its latest spending first, goes on in time, and each spending fits into
the window that ends with it. -/
def Fitting (window limit : Nat) : List Spending → Prop
  | [] => True
  | spending :: log =>
      Fitting window limit log ∧ (∀ earlier ∈ log, earlier.1 ≤ spending.1) ∧
        spent window spending.1 (spending :: log) ≤ limit

/-- Every window fits when each spending fits into its own. -/
theorem spent_le_limit
    {window limit : Nat} {log : List Spending}
    (fitting : Fitting window limit log)
    (time : Nat) :
    spent window time log ≤ limit := by
  induction log with
  | nil => exact Nat.zero_le _
  | cons spending log hypothesis =>
      obtain ⟨before, past, fits⟩ := fitting
      by_cases inside : InWindow window time spending
      · have all : ∀ earlier ∈ spending :: log, earlier.1 ≤ spending.1 :=
          List.forall_mem_cons.mpr ⟨Nat.le_refl _, past⟩
        exact Nat.le_trans (spent_le_spent inside.1 all) fits
      · rw [spent_cons, if_neg inside, Nat.zero_add]
        exact hypothesis before

/-! ## Queues -/

/-- The spendings stand in the order of their times, no two at one time. -/
def Increasing (queue : List Spending) : Prop :=
  queue.Pairwise fun earlier later => earlier.1 < later.1

/-- In a queue the spendings up to a time are at the front. -/
theorem dropWhile_eq_filter
    {queue : List Spending}
    (increasing : Increasing queue)
    (cutoff : Nat) :
    queue.dropWhile (·.1 ≤ cutoff) = queue.filter (cutoff < ·.1) := by
  induction queue with
  | nil => rfl
  | cons spending queue hypothesis =>
      obtain ⟨first, others⟩ := List.pairwise_cons.mp increasing
      by_cases gone : spending.1 ≤ cutoff
      · rw [List.dropWhile_cons_of_pos (by simpa using gone),
          List.filter_cons_of_neg (by simpa using gone), hypothesis others]
      · have kept : ∀ later ∈ spending :: queue, decide (cutoff < later.1) = true := by
          refine List.forall_mem_cons.mpr ⟨by simpa using gone, fun later member => ?_⟩
          have after := first later member
          simp only [decide_eq_true_eq]
          omega
        rw [List.dropWhile_cons_of_neg (by simpa using gone), List.filter_eq_self.mpr kept]

/-- What is forgotten has left every later window. -/
theorem spent_filter
    {window now time : Nat} {queue : List Spending}
    (later : now ≤ time)
    (positive : ∀ spending ∈ queue, 0 < spending.1) :
    spent window time (queue.filter (now - window < ·.1)) = spent window time queue := by
  rw [spent, spent, List.filter_filter]
  refine congrArg List.sum (congrArg (List.map Prod.snd) (List.filter_congr ?_))
  intro spending member
  have start := positive spending member
  by_cases inside : InWindow window time spending
  · have kept : now - window < spending.1 := by
      have ends := inside.2
      omega
    rw [decide_eq_true inside, decide_eq_true kept]
    rfl
  · rw [decide_eq_false inside]
    rfl

theorem increasing_append_singleton
    {queue : List Spending} {spending : Spending}
    (increasing : Increasing queue)
    (past : ∀ earlier ∈ queue, earlier.1 < spending.1) :
    Increasing (queue ++ [spending]) := by
  refine List.pairwise_append.mpr ⟨increasing, List.pairwise_singleton _ _, ?_⟩
  intro earlier member later isLast
  rw [List.mem_singleton.mp isLast]
  exact past earlier member

end SlidingWindow
end HttpNative
