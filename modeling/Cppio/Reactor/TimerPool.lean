import Cppio.Library.Keyed

/-!
# The timer pool

`timer_pool` keeps its pending deadlines in a `std::set` ordered by
`delay_for::operator<`, which compares deadlines only.  `getDelay` wakes the
entries that are due, in deadline order, and answers how long the caller may
block.  Clock readings and deadlines are counts of nanoseconds; the reading
that `high_resolution_clock::now()` gives is an argument.
-/

namespace Cppio

/-- A pending deadline and the task to wake at it. -/
structure DelayFor (Task : Type) where
  when : Int
  task : Task
  deriving DecidableEq

/-- The pool's set, in the order of `delay_for::operator<`. -/
structure TimerPool (Task : Type) where
  tasks : List (DelayFor Task)
  ordered : Keyed.Strict DelayFor.when tasks

/-- What one call of `get_delay` does: the tasks it wakes, in the order of its
`wake()` calls, the entries it leaves and the delay it returns. -/
structure Poll (Task : Type) where
  woken : List Task
  pool : TimerPool Task
  waitTime : Int

/-- `std::chrono::seconds(1)`. -/
def second : Int := 1000000000

namespace TimerPool

variable {Task : Type}

def empty : TimerPool Task where
  tasks := []
  ordered := List.Pairwise.nil

/-- `timer_pool::add`, with the clock reading `now`. -/
def add (pool : TimerPool Task) (now delay : Int) (task : Task) : TimerPool Task where
  tasks := Keyed.insertUnique DelayFor.when ⟨now + delay, task⟩ pool.tasks
  ordered := pool.ordered.insertUnique ⟨now + delay, task⟩

/-- The loop of `get_delay`: the tasks woken, the entries left, the delay. -/
def getDelayLoop (now : Int) : List (DelayFor Task) → List Task × List (DelayFor Task) × Int
  | [] => ([], [], 0)
  | task :: rest =>
      if task.when ≤ now then
        let (woken, left, waitTime) := getDelayLoop now rest
        (task.task :: woken, left, waitTime)
      else
        ([], task :: rest, task.when - now)

/-- The loop wakes the due prefix of the set and stops at the first entry that
is not due. -/
theorem getDelayLoop_eq (now : Int) (tasks : List (DelayFor Task)) :
    getDelayLoop now tasks =
      ((tasks.takeWhile fun entry => decide (entry.when ≤ now)).map DelayFor.task,
        tasks.dropWhile fun entry => decide (entry.when ≤ now),
        match tasks.dropWhile fun entry => decide (entry.when ≤ now) with
        | [] => 0
        | entry :: _ => entry.when - now) := by
  induction tasks with
  | nil => rfl
  | cons head tail inductionHypothesis =>
      by_cases due : head.when ≤ now
      · simp [getDelayLoop, due, inductionHypothesis]
      · simp [getDelayLoop, due]

/-- The entries of the pool that a clock reading has reached. -/
def due (pool : TimerPool Task) (now : Int) : List (DelayFor Task) :=
  pool.tasks.filter fun entry => decide (entry.when ≤ now)

/-- The entries of the pool that a clock reading has not reached. -/
def later (pool : TimerPool Task) (now : Int) : List (DelayFor Task) :=
  pool.tasks.filter fun entry => !decide (entry.when ≤ now)

theorem getDelayLoop_ordered (pool : TimerPool Task) (now : Int) :
    Keyed.Strict DelayFor.when (getDelayLoop now pool.tasks).2.1 := by
  rw [getDelayLoop_eq]
  exact pool.ordered.sublist (List.dropWhile_sublist _)

/-- `timer_pool::get_delay`, with the clock reading `now`. -/
def getDelay (pool : TimerPool Task) (now : Int) : Poll Task where
  woken := (getDelayLoop now pool.tasks).1
  pool := ⟨(getDelayLoop now pool.tasks).2.1, getDelayLoop_ordered pool now⟩
  waitTime := (getDelayLoop now pool.tasks).2.2

/-- `get_delay` wakes exactly the due entries, in deadline order. -/
theorem getDelay_woken (pool : TimerPool Task) (now : Int) :
    (pool.getDelay now).woken = (pool.due now).map DelayFor.task := by
  change (getDelayLoop now pool.tasks).1 = _
  rw [getDelayLoop_eq, pool.ordered.takeWhile_eq_filter]
  rfl

/-- `get_delay` removes exactly the due entries. -/
theorem getDelay_pool (pool : TimerPool Task) (now : Int) :
    (pool.getDelay now).pool.tasks = pool.later now := by
  change (getDelayLoop now pool.tasks).2.1 = _
  rw [getDelayLoop_eq, pool.ordered.dropWhile_eq_filter]
  rfl

theorem mem_later {pool : TimerPool Task} {now : Int} {entry : DelayFor Task} :
    entry ∈ pool.later now ↔ entry ∈ pool.tasks ∧ now < entry.when := by
  simp [later]

/-- With nothing left, `get_delay` returns zero. -/
theorem getDelay_waitTime_eq_zero
    {pool : TimerPool Task} {now : Int} (noneLater : pool.later now = []) :
    (pool.getDelay now).waitTime = 0 := by
  rw [later, ← pool.ordered.dropWhile_eq_filter] at noneLater
  change (getDelayLoop now pool.tasks).2.2 = _
  rw [getDelayLoop_eq]
  simp only [noneLater]

/-- With an entry left, `get_delay` returns the time to the earliest one. -/
theorem getDelay_waitTime_of_later
    {pool : TimerPool Task} {now : Int} {entry : DelayFor Task}
    {rest : List (DelayFor Task)}
    (left : pool.later now = entry :: rest) :
    (pool.getDelay now).waitTime = entry.when - now := by
  rw [later, ← pool.ordered.dropWhile_eq_filter] at left
  change (getDelayLoop now pool.tasks).2.2 = _
  rw [getDelayLoop_eq]
  simp only [left]

/-- The returned delay is zero exactly when no entry is left. -/
theorem getDelay_waitTime_eq_zero_iff (pool : TimerPool Task) (now : Int) :
    (pool.getDelay now).waitTime = 0 ↔ pool.later now = [] := by
  refine ⟨fun zero => ?_, getDelay_waitTime_eq_zero⟩
  cases left : pool.later now with
  | nil => rfl
  | cons entry rest =>
      have future : now < entry.when :=
        (mem_later.mp (left ▸ List.mem_cons_self)).2
      rw [getDelay_waitTime_of_later left] at zero
      omega

/-- A deadline that no pending entry has joins the set. -/
theorem add_tasks_perm
    {pool : TimerPool Task} {now delay : Int}
    (task : Task)
    (fresh : ∀ entry ∈ pool.tasks, entry.when ≠ now + delay) :
    (pool.add now delay task).tasks.Perm (⟨now + delay, task⟩ :: pool.tasks) :=
  Keyed.insertUnique_perm fresh

/-- A deadline that a pending entry already has is dropped with its task. -/
theorem add_tasks_eq_self
    {pool : TimerPool Task} {now delay : Int} {entry : DelayFor Task}
    (task : Task)
    (present : entry ∈ pool.tasks)
    (same : entry.when = now + delay) :
    (pool.add now delay task).tasks = pool.tasks :=
  Keyed.insertUnique_eq_self pool.ordered present same

/-! ## The entries of one task -/

variable [DecidableEq Task]

/-- How many entries would wake the task. -/
def pending (pool : TimerPool Task) (task : Task) : Nat :=
  pool.tasks.countP fun entry => entry.task = task

/-- A deadline that no pending entry has. -/
theorem pending_add
    {pool : TimerPool Task} {now delay : Int}
    (fresh : ∀ entry ∈ pool.tasks, entry.when ≠ now + delay)
    (task other : Task) :
    (pool.add now delay task).pending other =
      pool.pending other + if task = other then 1 else 0 := by
  rw [pending, (add_tasks_perm task fresh).countP_eq, List.countP_cons, pending]
  simp only [decide_eq_true_eq]

theorem pending_add_le (pool : TimerPool Task) (now delay : Int) (task other : Task) :
    (pool.add now delay task).pending other ≤
      pool.pending other + if task = other then 1 else 0 := by
  unfold pending
  by_cases taken : ∃ entry ∈ pool.tasks, entry.when = now + delay
  · obtain ⟨entry, present, same⟩ := taken
    rw [add_tasks_eq_self task present same]
    exact Nat.le_add_right _ _
  · have fresh : ∀ entry ∈ pool.tasks, entry.when ≠ now + delay := fun entry present same =>
      taken ⟨entry, present, same⟩
    rw [(add_tasks_perm task fresh).countP_eq, List.countP_cons]
    simp

/-- `get_delay` moves entries from the set to the wake-ups. -/
theorem pending_getDelay (pool : TimerPool Task) (now : Int) (task : Task) :
    (pool.getDelay now).woken.count task + (pool.getDelay now).pool.pending task =
      pool.pending task := by
  have split := List.countP_eq_countP_filter_add pool.tasks
    (fun entry => decide (entry.task = task)) (fun entry => decide (entry.when ≤ now))
  rw [pending, getDelay_pool, getDelay_woken, pending, split, List.count_eq_countP,
    List.countP_map]
  rfl

end TimerPool

end Cppio
