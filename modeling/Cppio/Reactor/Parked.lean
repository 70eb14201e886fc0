import Cppio.Reactor.Records
import Cppio.Reactor.TimerLoop

/-!
# How long a task is parked

A task that waits stays as it is, whatever the other tasks and other threads do, until
its timer comes due or epoll reports its registration; and then it is in the queue.
-/

namespace Cppio

/-- An entry stays in the set when another one is added. -/
theorem TimerPool.mem_add
    {Task : Type} {pool : TimerPool Task} {entry : DelayFor Task}
    (present : entry ∈ pool.tasks) (now delay : Int) (task : Task) :
    entry ∈ (pool.add now delay task).tasks := by
  by_cases taken : ∃ other ∈ pool.tasks, other.when = now + delay
  · obtain ⟨other, among, same⟩ := taken
    rwa [add_tasks_eq_self task among same]
  · have fresh : ∀ other ∈ pool.tasks, other.when ≠ now + delay :=
      fun other among same => taken ⟨other, among, same⟩
    exact (add_tasks_perm task fresh).mem_iff.mpr (List.mem_cons_of_mem _ present)

/-- Of a task with at most one entry any two are the same. -/
theorem TimerPool.eq_of_pending_le_one
    {Task : Type} [DecidableEq Task] {pool : TimerPool Task} {task : Task}
    {entry other : DelayFor Task} (few : pool.pending task ≤ 1)
    (present : entry ∈ pool.tasks) (same : entry.task = task)
    (present' : other ∈ pool.tasks) (same' : other.task = task) :
    other = entry := by
  rw [pending, List.countP_eq_length_filter] at few
  have among : entry ∈ pool.tasks.filter fun entry => entry.task = task :=
    List.mem_filter.mpr ⟨present, decide_eq_true same⟩
  have among' : other ∈ pool.tasks.filter fun entry => entry.task = task :=
    List.mem_filter.mpr ⟨present', decide_eq_true same'⟩
  obtain ⟨only, isOnly⟩ := List.length_eq_one_iff.mp
    (Nat.le_antisymm few (List.length_pos_of_mem among))
  rw [isOnly] at among among'
  exact (List.mem_singleton.mp among').trans (List.mem_singleton.mp among).symm

namespace Reactor

variable {User Own Local Key Outside : Type}
variable {s next : Reactor User Own Key Outside} {task other : TaskId}
variable {frames : Frames (Code User Own) (Result Own)} {state : ScheduleType}

/-! ## The other tasks -/

theorem Stands.wake (stands : Stands task frames state s) (different : task ≠ other) :
    Stands task frames state (s.wake other) :=
  ⟨stands.born, stands.frames, (Function.update_of_ne different _ _).trans stands.state⟩

theorem Stands.wakes (stands : Stands task frames state s) {due : List TaskId}
    (absent : task ∉ due) : Stands task frames state (due.foldl Reactor.wake s) := by
  induction due generalizing s with
  | nil => exact stands
  | cons first due inductionHypothesis =>
      obtain ⟨different, later⟩ := not_or.mp (mt List.mem_cons.mpr absent)
      exact inductionHypothesis (stands.wake different) later

theorem Stands.poll
    (stands : Stands task frames state s) {now : Int}
    (early : ∀ entry ∈ s.timers.tasks, entry.task = task → now < entry.when) :
    Stands task frames state (s.poll now) := by
  have absent : task ∉ (s.timers.getDelay now).woken := by
    rw [TimerPool.getDelay_woken]
    intro woken
    obtain ⟨entry, due, same⟩ := List.mem_map.mp woken
    obtain ⟨present, reached⟩ := List.mem_filter.mp due
    exact absurd (of_decide_eq_true reached) (not_le.mpr (early entry present same))
  have polled : Stands task frames state { s with timers := (s.timers.getDelay now).pool } :=
    ⟨stands.born, stands.frames, stands.state⟩
  have woken := polled.wakes absent
  exact ⟨woken.born, woken.frames, woken.state⟩

theorem Stands.complete
    (stands : Stands task frames state s) {events : List (Registration Key × Bool)}
    [DecidableEq Key] (silent : ∀ event ∈ events, event.1.task ≠ task) :
    Stands task frames state (s.complete events) := by
  have delivered : ∀ s : Reactor User Own Key Outside, Stands task frames state s →
      Stands task frames state (events.foldl deliver s) := by
    induction events with
    | nil => exact fun _ stands => stands
    | cons event events inductionHypothesis =>
        obtain ⟨here, later⟩ := List.forall_mem_cons.mp silent
        refine fun s stands => inductionHypothesis later _ (Stands.wake ?_ (Ne.symm here))
        exact ⟨stands.born, stands.frames, stands.state⟩
  exact delivered _ ⟨stands.born, stands.frames, stands.state⟩

variable [DecidableEq Key] {surroundings : Surroundings User Own Local Key Outside}

/-! ## The timers -/

theorem foldl_deed_timers (deeds : List (Deed User Key)) (s : Reactor User Own Key Outside) :
    (deeds.foldl deed s).timers = s.timers := by
  induction deeds generalizing s with
  | nil => rfl
  | cons deed deeds inductionHypothesis =>
      rw [List.foldl_cons, inductionHypothesis]
      cases deed with
      | _ => rfl

omit [DecidableEq Key] in
theorem foldl_deliver_timers
    (events : List (Registration Key × Bool)) (s : Reactor User Own Key Outside) :
    (events.foldl deliver s).timers = s.timers := by
  induction events generalizing s with
  | nil => rfl
  | cons event events inductionHypothesis => exact inductionHypothesis (s.deliver event)

/-- No task takes an entry from the timer pool. -/
theorem preserves_timer
    (surroundings : Surroundings User Own Local Key Outside) (task : TaskId)
    (entry : DelayFor TaskId) :
    (system surroundings task).Preserves fun s => entry ∈ s.timers.tasks where
  perform := by
    intro effect s present
    cases effect with
    | syscall call =>
        change entry ∈ (List.foldl deed _ _).timers.tasks
        rw [foldl_deed_timers]
        exact present
    | register interest sock =>
        change entry ∈ (Reactor.perform surroundings task _ s).2.timers.tasks
        simp only [Reactor.perform]
        cases surroundings.epollCtl s.outside sock with
        | _ => exact present
    | startTimer delay => exact TimerPool.mem_add present _ _ _
    | perform effect =>
        change entry ∈ (List.foldl deed _ _).timers.tasks
        rw [foldl_deed_timers]
        exact present
    | _ => exact present
  wait _ present := present
  observe _ _ present := present

theorem process_timer
    {entry : DelayFor TaskId} {fuel : Nat} (present : entry ∈ s.timers.tasks)
    (processed : s.process surroundings fuel other = some next) :
    entry ∈ next.timers.tasks := by
  have settled : ∀ (s : Reactor User Own Key Outside) (result : ScheduleType),
      (s.settle other result).timers = s.timers := by
    intro s result
    cases result with
    | _ => rfl
  unfold Reactor.process at processed
  split_ifs at processed with waiting
  · obtain rfl := Option.some.inj processed
    exact present
  · split at processed
    · next result left s' returned =>
        obtain rfl := Option.some.inj processed
        rw [settled]
        exact ((preserves_timer surroundings other entry).oneStep present returned).1
    · cases processed
    · obtain rfl := Option.some.inj processed
      exact present

/-! ## A parked task -/

/-- In this step a timer or a registration of the task fires. -/
def Fires
    (surroundings : Surroundings User Own Local Key Outside) (task : TaskId)
    (s : Reactor User Own Key Outside) : Label User Key Outside → Prop
  | .test => ∃ entry ∈ s.timers.tasks, entry.task = task ∧ entry.when ≤ surroundings.now s.outside
  | .complete events =>
      s.epoll.CanReport (events.map Prod.fst) ∧ ∃ event ∈ events, event.1.task = task
  | _ => False

instance (surroundings : Surroundings User Own Local Key Outside) (task : TaskId)
    (s : Reactor User Own Key Outside) (label : Label User Key Outside) :
    Decidable (Fires surroundings task s label) :=
  match label with
  | .test => inferInstanceAs (Decidable (∃ entry ∈ s.timers.tasks,
      entry.task = task ∧ entry.when ≤ surroundings.now s.outside))
  | .complete events => inferInstanceAs (Decidable (s.epoll.CanReport (events.map Prod.fst) ∧
      ∃ event ∈ events, event.1.task = task))
  | .call => .isFalse id
  | .proceed => .isFalse id
  | .process _ => .isFalse id
  | .deed _ => .isFalse id
  | .outside _ => .isFalse id

omit [DecidableEq Key] in
theorem pending_of_fires
    {label : Label User Key Outside} (fires : Fires surroundings task s label) :
    0 < s.pending task := by
  cases label with
  | test =>
      obtain ⟨entry, present, same, -⟩ := fires
      exact Nat.add_pos_right _ (List.countP_pos_iff.mpr ⟨entry, present, decide_eq_true same⟩)
  | complete events =>
      obtain ⟨possible, event, among, same⟩ := fires
      have armed : event.1 ∈ s.epoll.armed := possible.2.1 (List.mem_map_of_mem among)
      exact Nat.add_pos_left (List.countP_pos_iff.mpr ⟨event.1, armed, decide_eq_true same⟩) _
  | _ => exact fires.elim

/-- The task waits with these coroutines, and these timers are there to wake it. -/
structure Parked
    (task : TaskId) (frames : Frames (Code User Own) (Result Own))
    (entries : List (DelayFor TaskId)) (s : Reactor User Own Key Outside) : Prop where
  stands : Stands task frames .wait s
  disciplined : Disciplined s
  suspended : frames.SuspendedAt ParkOnce
  timers : ∀ entry ∈ entries, entry.task = task → entry ∈ s.timers.tasks

variable {entries : List (DelayFor TaskId)}

omit [DecidableEq Key] in
/-- A parked task is not in the queue. -/
theorem Parked.absent (parked : Parked task frames entries s) :
    task ∈ s.active ∧ task ∉ s.tasks := by
  obtain ⟨⟨born, isFrames, waits⟩, disciplined, suspended, -⟩ := parked
  cases disciplined.standing task with
  | unborn unborn => exact absurd born (Nat.not_lt_of_le unborn)
  | ready _ _ _ runs =>
      rw [waits] at runs
      cases runs
  | parked _ active _ _ count => exact ⟨active, List.count_eq_zero.mp count⟩
  | done _ _ done =>
      obtain ⟨value, finished⟩ := done
      rw [isFrames] at finished
      exact absurd finished (suspended.unfinished value)

/-- While nothing fires for a task that is not in the queue, a step leaves it as it is. -/
theorem Stands.moves
    {label : Label User Key Outside} (stands : Stands task frames state s)
    (absent : task ∉ s.tasks) (quiet : ¬Fires surroundings task s label)
    (moves : Moves surroundings s label next) :
    Stands task frames state next ∧ part task (passed surroundings s label) = [] := by
  cases moves with
  | poll here =>
      exact ⟨stands.poll fun entry present same =>
        not_le.mp fun due => quiet ⟨entry, present, same, due⟩, rfl⟩
  | @complete _ events here possible =>
      have completed := stands.complete fun event among same =>
        quiet ⟨possible, event, among, same⟩
      exact ⟨⟨completed.born, completed.frames, completed.state⟩, rfl⟩
  | idle here noTask fuel =>
      refine ⟨⟨stands.born, stands.frames, stands.state⟩, ?_⟩
      simp [passed, here, noTask, part]
  | @round other rest fuel _ here first processed =>
      have different : task ≠ other := by
        rintro rfl
        exact absent (first ▸ List.mem_cons_self)
      have popped : Stands task frames state s.popFront :=
        ⟨stands.born, stands.frames, stands.state⟩
      refine ⟨popped.process different processed, ?_⟩
      rw [passed_round here first]
      split
      · exact part_map_of_ne (Ne.symm different) _
      · rfl
  | deed deed => exact ⟨stands.deed deed, rfl⟩
  | _ => exact ⟨⟨stands.born, stands.frames, stands.state⟩, rfl⟩

/-- An entry stays in the timer pool until it is due. -/
theorem timer_moves
    {entry : DelayFor TaskId} {label : Label User Key Outside} (present : entry ∈ s.timers.tasks)
    (early : label = .test → surroundings.now s.outside < entry.when)
    (moves : Moves surroundings s label next) :
    entry ∈ next.timers.tasks := by
  cases moves with
  | poll here =>
      change entry ∈ (List.foldl wake _ _).timers.tasks
      rw [foldl_wake_timers, TimerPool.getDelay_pool]
      exact TimerPool.mem_later.mpr ⟨present, early rfl⟩
  | complete here possible =>
      change entry ∈ (List.foldl deliver _ _).timers.tasks
      rw [foldl_deliver_timers]
      exact present
  | round here first processed => exact process_timer (s := s.popFront) present processed
  | deed deed =>
      cases deed with
      | _ => exact present
  | _ => exact present

/-- While nothing fires for a parked task, a step leaves it parked. -/
theorem Parked.moves
    {label : Label User Key Outside} (parked : Parked task frames entries s)
    (quiet : ¬Fires surroundings task s label) (moves : Moves surroundings s label next) :
    Parked task frames entries next ∧ part task (passed surroundings s label) = [] := by
  obtain ⟨stands, nothing⟩ := parked.stands.moves parked.absent.2 quiet moves
  refine ⟨⟨stands, (parked.disciplined.moves moves).1, parked.suspended, ?_⟩, nothing⟩
  intro entry among same
  have present := parked.timers entry among same
  refine timer_moves present (fun isTest => not_le.mp fun due => quiet ?_) moves
  rw [isTest]
  exact ⟨entry, present, same, due⟩

theorem Parked.run
    {labels : List (Label User Key Outside)} {last : Reactor User Own Key Outside}
    (parked : Parked task frames entries s)
    (quiet : Machine.AllSteps (step surroundings)
      (fun s label => ¬Fires surroundings task s label) s labels)
    (ran : Machine.run (step surroundings) s labels = some last) :
    Parked task frames entries last ∧ part task (log surroundings s labels) = [] := by
  induction labels generalizing s with
  | nil =>
      obtain rfl := Option.some.inj ran
      exact ⟨parked, rfl⟩
  | cons label labels inductionHypothesis =>
      rw [Machine.run_cons, Option.bind_eq_some_iff] at ran
      obtain ⟨next, stepped, later⟩ := ran
      obtain ⟨quietHere, quietLater⟩ := quiet next stepped
      obtain ⟨parkedNext, nothing⟩ := parked.moves quietHere (moves_of_step stepped)
      obtain ⟨parkedLast, nothingLater⟩ := inductionHypothesis parkedNext quietLater later
      refine ⟨parkedLast, ?_⟩
      rw [log, stepped, part_append, nothing, nothingLater, List.append_nil]

omit [DecidableEq Key] in
/-- A task that is active and waits is parked, with all of its timers. -/
theorem parked_of_wait
    (disciplined : Disciplined s) (active : task ∈ s.active) (waits : s.state task = .wait) :
    Parked task (s.frames task) s.timers.tasks s := by
  cases disciplined.standing task with
  | unborn _ inactive => exact absurd active inactive
  | ready _ _ _ runs =>
      rw [waits] at runs
      cases runs
  | parked born _ suspended =>
      exact ⟨⟨born, rfl, waits⟩, disciplined, suspended, fun _ present _ => present⟩
  | done _ inactive => exact absurd active inactive

omit [DecidableEq Key] in
theorem foldl_deliver_state
    (events : List (Registration Key × Bool)) (s : Reactor User Own Key Outside) (task : TaskId) :
    (events.foldl deliver s).state task =
      if task ∈ events.map fun event => event.1.task then .run else s.state task := by
  induction events generalizing s with
  | nil => rfl
  | cons event events inductionHypothesis =>
      rw [List.foldl_cons, inductionHypothesis, List.map_cons]
      change (if _ then _ else Function.update s.state event.1.task .run task) = _
      by_cases same : task = event.1.task
      · rw [same, Function.update_self, ite_self, if_pos List.mem_cons_self]
      · rw [Function.update_of_ne same]
        simp only [List.mem_cons, same, false_or]

/-- What fires for a task makes it run. -/
theorem runs_of_fires
    {label : Label User Key Outside}
    (fires : Fires surroundings task s label) (moves : Moves surroundings s label next)
    (active : task ∈ s.active) :
    next.state task = .run := by
  cases moves with
  | exit here noTask =>
      rw [noTask] at active
      exact absurd active (Finset.notMem_empty task)
  | poll here =>
      obtain ⟨entry, present, rfl, due⟩ := fires
      change (List.foldl wake _ _).state entry.task = .run
      have woken : entry.task ∈ (s.timers.getDelay (surroundings.now s.outside)).woken := by
        rw [TimerPool.getDelay_woken]
        exact List.mem_map.mpr
          ⟨entry, List.mem_filter.mpr ⟨present, decide_eq_true due⟩, rfl⟩
      rw [foldl_wake_state, if_pos woken]
  | @complete _ events here possible =>
      obtain ⟨-, event, among, rfl⟩ := fires
      change (List.foldl deliver _ _).state event.1.task = .run
      rw [foldl_deliver_state, if_pos (List.mem_map_of_mem among)]
  | _ => exact fires.elim

/-- The task is ready: it runs, and is in the queue once. -/
structure Ready (task : TaskId) (s : Reactor User Own Key Outside) : Prop where
  active : task ∈ s.active
  state : s.state task = .run
  once : s.tasks.count task = 1

/-- A parked task for which something fires is ready, with its coroutines as they were. -/
theorem Parked.fires
    {label : Label User Key Outside} (parked : Parked task frames entries s)
    (fires : Fires surroundings task s label) (moves : Moves surroundings s label next) :
    Ready task next ∧ next.frames task = frames := by
  have runs := runs_of_fires fires moves parked.absent.1
  have same : next.frames task = frames := by
    rw [← parked.stands.frames]
    cases moves with
    | poll here => exact congrFun (foldl_wake_frames _ _) task
    | complete here possible => exact congrFun (foldl_deliver_frames _ _) task
    | exit here noTask => rfl
    | _ => exact fires.elim
  refine ⟨?_, same⟩
  obtain ⟨disciplined, spawned⟩ := parked.disciplined.moves moves
  cases disciplined.standing task with
  | unborn unborn => exact absurd (parked.stands.born.trans_le spawned) (Nat.not_lt_of_le unborn)
  | ready _ active _ state once => exact ⟨active, state, once⟩
  | parked _ _ _ waits =>
      rw [runs] at waits
      cases waits
  | done _ _ done =>
      obtain ⟨value, finished⟩ := done
      rw [same] at finished
      exact absurd finished (parked.suspended.unfinished value)

/-- A parked task stays parked, with its coroutines as they are and without an effect,
until one of its timers comes due or epoll reports its registration.  What fires first
makes it ready. -/
theorem parked_until_fired
    {outside : Outside} {labels : List (Label User Key Outside)}
    {last : Reactor User Own Key Outside}
    (reachable : Machine.Reachable (step surroundings) (initial outside) s)
    (active : task ∈ s.active) (waits : s.state task = .wait)
    (quiet : Machine.AllSteps (step surroundings)
      (fun s label => ¬Fires surroundings task s label) s labels)
    (ran : Machine.run (step surroundings) s labels = some last) :
    last.state task = .wait ∧ task ∉ last.tasks ∧ last.frames task = s.frames task ∧
      part task (log surroundings s labels) = [] ∧
      ∀ label next, step surroundings last label = some next → Fires surroundings task last label →
        Ready task next ∧ next.frames task = s.frames task := by
  have parked := parked_of_wait (disciplined_of_reachable reachable) active waits
  obtain ⟨parkedLast, nothing⟩ := parked.run quiet ran
  exact ⟨parkedLast.stands.state, parkedLast.absent.2, parkedLast.stands.frames, nothing,
    fun label next stepped fires => parkedLast.fires fires (moves_of_step stepped)⟩

/-- The reactor where the nap has parked its task. -/
def napped : Reactor Bool Unit Nat Int := (Machine.run (step napping) (initial 0) nap).get rfl

theorem reachable_napped : Machine.Reachable (step napping) (initial 0) napped :=
  ⟨nap, (Option.some_get _).symm⟩

/-- The worker reads the clock before the deadline, has no event and no other task, and
is back at its loop test when the deadline has come. -/
def roundAsleep : List (Label Bool Nat Int) :=
  [.outside 3, .test, .complete [], .proceed, .process 9, .outside 5]

theorem parked_until_fired_napped :
    ∃ last next, Machine.run (step napping) napped roundAsleep = some last ∧
      (last.state 0 = .wait ∧ 0 ∉ last.tasks ∧ last.frames 0 = napped.frames 0 ∧
        part 0 (log napping napped roundAsleep) = []) ∧
      step napping last .test = some next ∧ Ready 0 next ∧ next.frames 0 = napped.frames 0 := by
  obtain ⟨last, next, ran, stepped, fires⟩ : ∃ last next,
      Machine.run (step napping) napped roundAsleep = some last ∧
        step napping last .test = some next ∧ Fires napping 0 last .test :=
    ⟨_, _, rfl, rfl, ⟨5, 0⟩, by decide +kernel⟩
  have active : 0 ∈ napped.active := by decide +kernel
  have waits : napped.state 0 = .wait := by decide +kernel
  have quiet : Machine.AllSteps (step napping)
      (fun s label => ¬Fires napping 0 s label) napped roundAsleep := by
    decide +kernel
  obtain ⟨waitsStill, absent, same, nothing, wakes⟩ :=
    parked_until_fired reachable_napped active waits quiet ran
  exact ⟨last, next, ran, ⟨waitsStill, absent, same, nothing⟩, stepped,
    wakes .test next stepped fires⟩

/-! ## A sleeping task -/

omit [DecidableEq Key] in
/-- A task with a timer is parked. -/
theorem parked_of_timer
    {entry : DelayFor TaskId} (disciplined : Disciplined s) (present : entry ∈ s.timers.tasks) :
    entry.task ∈ s.active ∧ s.state entry.task = .wait ∧ s.pending entry.task ≤ 1 := by
  have some : 0 < s.pending entry.task :=
    Nat.add_pos_right _ (List.countP_pos_iff.mpr ⟨entry, present, decide_eq_true rfl⟩)
  cases disciplined.standing entry.task with
  | unborn _ _ _ _ none => exact absurd some (by simp at none; omega)
  | ready _ _ _ _ _ none => exact absurd some (by simp at none; omega)
  | parked _ active _ waits _ few => exact ⟨active, waits, by simpa using few⟩
  | done _ _ _ _ none => exact absurd some (by simp at none; omega)

omit [DecidableEq Key] in
/-- Only the timer fires for a task that has one. -/
theorem due_of_fires
    {entry : DelayFor TaskId} {label : Label User Key Outside}
    (disciplined : Disciplined s) (present : entry ∈ s.timers.tasks)
    (fires : Fires surroundings entry.task s label) :
    label = .test ∧ entry.when ≤ surroundings.now s.outside := by
  obtain ⟨-, -, few⟩ := parked_of_timer disciplined present
  rw [pending] at few
  have timer : 0 < s.timers.pending entry.task :=
    List.countP_pos_iff.mpr ⟨entry, present, decide_eq_true rfl⟩
  cases label with
  | test =>
      obtain ⟨other, among, same, due⟩ := fires
      obtain rfl := TimerPool.eq_of_pending_le_one
        ((Nat.le_add_left _ _).trans few) present rfl among same
      exact ⟨rfl, due⟩
  | complete events =>
      obtain ⟨possible, event, among, same⟩ := fires
      have armed : event.1 ∈ s.epoll.armed := possible.2.1 (List.mem_map_of_mem among)
      have registration : 0 < s.epoll.pending entry.task :=
        List.countP_pos_iff.mpr ⟨event.1, armed, decide_eq_true same⟩
      omega
  | _ => exact fires.elim

/-- A reading of the clock takes the timers that are due out of the pool. -/
theorem timer_gone
    {entry : DelayFor TaskId} (active : entry.task ∈ s.active)
    (due : entry.when ≤ surroundings.now s.outside) (moves : Moves surroundings s .test next) :
    entry ∉ next.timers.tasks := by
  cases moves with
  | exit here noTask =>
      rw [noTask] at active
      exact absurd active (Finset.notMem_empty _)
  | poll here =>
      change entry ∉ (List.foldl wake _ _).timers.tasks
      rw [foldl_wake_timers, TimerPool.getDelay_pool]
      exact fun left => absurd due (not_le.mpr (TimerPool.mem_later.mp left).2)

/-- A task whose timer is set sleeps until a reading of the clock has come to the deadline:
on every run without such a reading it stays as it is and its timer stays set, whatever
epoll reports and the other tasks do.  The first such reading makes it ready and takes
its timer out of the pool. -/
theorem sleeps_until_deadline
    {outside : Outside} {labels : List (Label User Key Outside)}
    {last : Reactor User Own Key Outside} {entry : DelayFor TaskId}
    (reachable : Machine.Reachable (step surroundings) (initial outside) s)
    (present : entry ∈ s.timers.tasks)
    (early : Machine.AllSteps (step surroundings)
      (fun s label => label = .test → surroundings.now s.outside < entry.when) s labels)
    (ran : Machine.run (step surroundings) s labels = some last) :
    entry ∈ last.timers.tasks ∧ entry.task ∉ last.tasks ∧
      last.frames entry.task = s.frames entry.task ∧
      part entry.task (log surroundings s labels) = [] ∧
      ∀ next, step surroundings last .test = some next →
        entry.when ≤ surroundings.now last.outside →
          Ready entry.task next ∧ entry ∉ next.timers.tasks ∧
            next.frames entry.task = s.frames entry.task := by
  have disciplined := disciplined_of_reachable reachable
  obtain ⟨active, waits, -⟩ := parked_of_timer disciplined present
  have parked := parked_of_wait disciplined active waits
  have silent : ∀ (s : Reactor User Own Key Outside) (label : Label User Key Outside),
      Disciplined s ∧ entry ∈ s.timers.tasks →
        (label = .test → surroundings.now s.outside < entry.when) →
          ¬Fires surroundings entry.task s label := by
    rintro s label ⟨disciplined, present⟩ early fires
    obtain ⟨isTest, due⟩ := due_of_fires disciplined present fires
    exact absurd due (not_le.mpr (early isTest))
  have kept : ∀ (s : Reactor User Own Key Outside) (label : Label User Key Outside) next,
      Disciplined s ∧ entry ∈ s.timers.tasks →
        (label = .test → surroundings.now s.outside < entry.when) →
          step surroundings s label = some next →
            Disciplined next ∧ entry ∈ next.timers.tasks := by
    rintro s label next ⟨disciplined, present⟩ early stepped
    obtain ⟨active, waits, -⟩ := parked_of_timer disciplined present
    have moves := moves_of_step stepped
    obtain ⟨parkedNext, -⟩ := (parked_of_wait disciplined active waits).moves
      (silent s label ⟨disciplined, present⟩ early) moves
    exact ⟨parkedNext.disciplined, parkedNext.timers entry present rfl⟩
  have quiet := early.imp silent kept ⟨disciplined, present⟩
  obtain ⟨parkedLast, nothing⟩ := parked.run quiet ran
  refine ⟨parkedLast.timers entry present rfl, parkedLast.absent.2, parkedLast.stands.frames,
    nothing, fun next stepped due => ?_⟩
  have fires : Fires surroundings entry.task last .test :=
    ⟨entry, parkedLast.timers entry present rfl, rfl, due⟩
  have moves := moves_of_step stepped
  obtain ⟨ready, same⟩ := parkedLast.fires fires moves
  exact ⟨ready, timer_gone parkedLast.absent.1 due moves, same⟩

theorem sleeps_until_deadline_napped :
    ∃ last next, Machine.run (step napping) napped roundAsleep = some last ∧
      (⟨5, 0⟩ ∈ last.timers.tasks ∧ 0 ∉ last.tasks ∧ last.frames 0 = napped.frames 0 ∧
        part 0 (log napping napped roundAsleep) = []) ∧
      step napping last .test = some next ∧ napping.now last.outside = 5 ∧
      Ready 0 next ∧ ⟨5, 0⟩ ∉ next.timers.tasks ∧ next.frames 0 = napped.frames 0 := by
  obtain ⟨last, next, ran, stepped, clock⟩ : ∃ last next,
      Machine.run (step napping) napped roundAsleep = some last ∧
        step napping last .test = some next ∧ napping.now last.outside = 5 :=
    ⟨_, _, rfl, rfl, rfl⟩
  have present : ⟨5, 0⟩ ∈ napped.timers.tasks := by decide +kernel
  have early : Machine.AllSteps (step napping)
      (fun s label => label = .test → napping.now s.outside < 5) napped roundAsleep := by
    intro s clock
    refine ⟨nofun, fun s tested => ⟨fun _ => ?_, fun _ _ => ⟨nofun, fun _ _ =>
      ⟨nofun, fun _ _ => ⟨nofun, fun _ _ => ⟨nofun, trivial⟩⟩⟩⟩⟩⟩
    cases clock
    decide
  obtain ⟨set, absent, same, nothing, wakes⟩ :=
    sleeps_until_deadline reachable_napped present early ran
  exact ⟨last, next, ran, ⟨set, absent, same, nothing⟩, stepped, clock,
    wakes next stepped clock.ge⟩

end Reactor
end Cppio
