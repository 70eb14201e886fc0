import Cppio.Reactor.Discipline

/-!
# The loop of `get_delay` in the reactor

The loop looks at the first entry of the set, wakes its task and erases it, until
the first entry is still to come.  `Reactor.poll` says in one step what the loop
leaves.
-/

namespace Cppio

namespace TimerPool

variable {Task : Type}

/-- `m_tasks.erase(m_tasks.begin())`. -/
def eraseFirst (pool : TimerPool Task) : TimerPool Task where
  tasks := pool.tasks.tail
  ordered := pool.ordered.sublist (List.tail_sublist _)

theorem getDelay_of_empty
    {pool : TimerPool Task} (empty : pool.tasks = []) (now : Int) :
    pool.getDelay now = ⟨[], pool, 0⟩ := by
  obtain ⟨tasks, ordered⟩ := pool
  obtain rfl : tasks = [] := empty
  rfl

theorem getDelay_of_due
    {pool : TimerPool Task} {now : Int} {entry : DelayFor Task} {rest : List (DelayFor Task)}
    (first : pool.tasks = entry :: rest) (due : entry.when ≤ now) :
    pool.getDelay now =
      { pool.eraseFirst.getDelay now with
        woken := entry.task :: (pool.eraseFirst.getDelay now).woken } := by
  obtain ⟨tasks, ordered⟩ := pool
  obtain rfl : tasks = entry :: rest := first
  simp [getDelay, getDelayLoop, eraseFirst, due]

theorem getDelay_of_later
    {pool : TimerPool Task} {now : Int} {entry : DelayFor Task} {rest : List (DelayFor Task)}
    (first : pool.tasks = entry :: rest) (later : ¬entry.when ≤ now) :
    pool.getDelay now = ⟨[], pool, entry.when - now⟩ := by
  obtain ⟨tasks, ordered⟩ := pool
  obtain rfl : tasks = entry :: rest := first
  simp [getDelay, getDelayLoop, later]

end TimerPool

namespace Reactor

variable {User Own Key Outside : Type}

/-- The loop of `timer_pool::get_delay`, with the clock reading `now`: the reactor
and the delay that is returned, if as many iterations are enough. -/
def getDelayLoop (now : Int) :
    Nat → Reactor User Own Key Outside → Option (Reactor User Own Key Outside × Int)
  | 0, _ => none
  | fuel + 1, s =>
      match s.timers.tasks with
      | [] => some (s, 0)
      | entry :: _ =>
          if entry.when ≤ now then
            getDelayLoop now fuel
              { s.wake entry.task with timers := s.timers.eraseFirst }
          else some (s, entry.when - now)

/-- What `get_delay` leaves. -/
def polled (s : Reactor User Own Key Outside) (now : Int) : Reactor User Own Key Outside :=
  (s.timers.getDelay now).woken.foldl wake { s with timers := (s.timers.getDelay now).pool }

theorem poll_eq (s : Reactor User Own Key Outside) (now : Int) :
    s.poll now = (s.polled now).goto (.calling
      (if (s.polled now).tasks = [] ∧ (s.timers.getDelay now).waitTime = 0 then second
      else (s.timers.getDelay now).waitTime)) :=
  rfl

/-- With one iteration more than there are entries, the loop comes to its end. -/
theorem getDelayLoop_eq
    (now : Int) {fuel : Nat} {s : Reactor User Own Key Outside}
    (enough : s.timers.tasks.length < fuel) :
    getDelayLoop now fuel s = some (s.polled now, (s.timers.getDelay now).waitTime) := by
  induction fuel generalizing s with
  | zero => exact absurd enough (Nat.not_lt_zero _)
  | succ fuel inductionHypothesis =>
      rw [getDelayLoop]
      split
      · next empty =>
          rw [polled, TimerPool.getDelay_of_empty empty]
          rfl
      · next entry rest first =>
          split_ifs with due
          · have shorter : s.timers.eraseFirst.tasks.length < fuel := by
              have erased : s.timers.eraseFirst.tasks = rest := congrArg List.tail first
              rw [first] at enough
              rw [erased]
              exact Nat.lt_of_succ_lt_succ enough
            rw [inductionHypothesis shorter, polled, polled, TimerPool.getDelay_of_due first due]
            rfl
          · rw [polled, TimerPool.getDelay_of_later first due]
            rfl

/-! ## What the wake-ups leave -/

theorem foldl_wake_tasks (due : List TaskId) (s : Reactor User Own Key Outside) :
    (due.foldl wake s).tasks = s.tasks ++ due := by
  induction due generalizing s with
  | nil => exact (List.append_nil _).symm
  | cons task due inductionHypothesis =>
      rw [List.foldl_cons, inductionHypothesis]
      exact List.append_assoc s.tasks [task] due

theorem foldl_wake_timers (due : List TaskId) (s : Reactor User Own Key Outside) :
    (due.foldl wake s).timers = s.timers := by
  induction due generalizing s with
  | nil => rfl
  | cons task due inductionHypothesis => exact inductionHypothesis (s.wake task)

theorem foldl_wake_state (due : List TaskId) (s : Reactor User Own Key Outside) (task : TaskId) :
    (due.foldl wake s).state task = if task ∈ due then .run else s.state task := by
  induction due generalizing s with
  | nil => rfl
  | cons first due inductionHypothesis =>
      rw [List.foldl_cons, inductionHypothesis]
      simp only [wake, schedule, setState, Function.update_apply, List.mem_cons]
      split_ifs <;> simp_all

/-- What one call of `get_delay` does: it has woken these entries. -/
structure Woke
    (s : Reactor User Own Key Outside) (now : Int) (woken : List (DelayFor TaskId))
    (left : Reactor User Own Key Outside) (waitTime : Int) : Prop where
  /-- The entries that are due, each once, -/
  once : woken.Nodup
  due : ∀ entry, entry ∈ woken ↔ entry ∈ s.timers.tasks ∧ entry.when ≤ now
  /-- are woken in the order of their deadlines, -/
  ordered : woken.Pairwise fun earlier later => earlier.when ≤ later.when
  /-- so they stand in this order at the end of the ready queue -/
  queued : left.tasks = s.tasks ++ woken.map DelayFor.task
  /-- and run, while no other task is touched. -/
  state : ∀ task, left.state task =
    if task ∈ woken.map DelayFor.task then .run else s.state task
  /-- All other entries, and no others, are kept. -/
  kept : ∀ entry, entry ∈ left.timers.tasks ↔ entry ∈ s.timers.tasks ∧ now < entry.when
  /-- The delay is zero if none is left, -/
  zero : left.timers.tasks = [] → waitTime = 0
  /-- and the time to the earliest otherwise. -/
  delay : left.timers.tasks ≠ [] → 0 < waitTime ∧
    (∃ entry ∈ left.timers.tasks, waitTime = entry.when - now) ∧
      ∀ entry ∈ left.timers.tasks, waitTime ≤ entry.when - now

theorem woke_polled (s : Reactor User Own Key Outside) (now : Int) :
    Woke s now (s.timers.due now) (s.polled now) (s.timers.getDelay now).waitTime := by
  have timers : (s.polled now).timers.tasks = s.timers.later now := by
    rw [polled, foldl_wake_timers, TimerPool.getDelay_pool]
  have ordered : Keyed.Strict DelayFor.when (s.timers.later now) :=
    s.timers.ordered.sublist List.filter_sublist
  constructor
  · refine List.Nodup.filter _ (s.timers.ordered.imp fun less same => ?_)
    exact less.ne (congrArg DelayFor.when same)
  · intro entry
    simp [TimerPool.due]
  · exact (s.timers.ordered.sublist List.filter_sublist).imp le_of_lt
  · rw [polled, foldl_wake_tasks, TimerPool.getDelay_woken]
  · intro task
    rw [polled, foldl_wake_state, TimerPool.getDelay_woken]
  · intro entry
    rw [timers, TimerPool.mem_later]
  · intro none
    exact TimerPool.getDelay_waitTime_eq_zero (timers.symm.trans none)
  · intro some
    rw [timers] at some ⊢
    cases left : s.timers.later now with
    | nil => exact absurd left some
    | cons entry rest =>
        rw [left] at ordered
        have future : now < entry.when :=
          (TimerPool.mem_later.mp (left ▸ List.mem_cons_self)).2
        rw [TimerPool.getDelay_waitTime_of_later left]
        refine ⟨by omega, ⟨entry, List.mem_cons_self, rfl⟩, fun other present => ?_⟩
        rcases List.mem_cons.mp present with rfl | inRest
        · exact le_rfl
        · have earlier := (List.pairwise_cons.mp ordered).1 other inRest
          omega

/-- `get_delay` comes to its end and has done what it is for. -/
theorem getDelay_woke (s : Reactor User Own Key Outside) (now : Int) :
    ∃ woken left waitTime, (∀ fuel > s.timers.tasks.length,
        getDelayLoop now fuel s = some (left, waitTime)) ∧
      Woke s now woken left waitTime :=
  ⟨_, _, _, fun _ enough => getDelayLoop_eq now enough, woke_polled s now⟩

end Reactor
end Cppio
