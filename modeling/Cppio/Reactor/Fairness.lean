import Cppio.Reactor.Draining

/-!
# The order of `process_tasks`

The tasks on which one call of `process_tasks` calls `one_step`, in order, while
other threads do what they do.  The queue of tasks is served round robin: until
the turn of a task comes again, every other task of the queue has its turn once.
-/

namespace Cppio
namespace Reactor

variable {User Own Local Key Outside : Type} [DecidableEq Key]

/-- The task on which the step calls `one_step`. -/
def called (s : Reactor User Own Key Outside) : Label User Key Outside → Option TaskId
  | .process _ => if s.pc = .processing then s.tasks.head?.filter (s.state · ≠ .wait) else none
  | _ => none

/-- A part of a call of `process_tasks`, with the tasks on which it calls
`one_step`. -/
inductive Calls (surroundings : Surroundings User Own Local Key Outside) :
    Reactor User Own Key Outside → List TaskId → Reactor User Own Key Outside → Prop
  | refl (s : Reactor User Own Key Outside) : Calls surroundings s [] s
  | step {s next last : Reactor User Own Key Outside} {label : Label User Key Outside}
      {tasks : List TaskId}
      (here : s.pc = .processing) (stepped : step surroundings s label = some next)
      (still : next.pc = .processing) (calls : Calls surroundings next tasks last) :
      Calls surroundings s ((s.called label).toList ++ tasks) last

/-- The queue has no duplicates and no waiting tasks; a task that is not spawned
yet is `kRun`, as its constructor leaves it. -/
structure Runnable (s : Reactor User Own Key Outside) : Prop extends Distinct s where
  awake : ∀ task ∈ s.tasks, s.state task ≠ .wait
  fresh : ∀ task, s.spawned ≤ task → s.state task = .run

/-- What a step within `process_tasks` does to the queue. -/
structure Turn
    (s : Reactor User Own Key Outside) (label : Label User Key Outside)
    (next : Reactor User Own Key Outside) (rest arrivals : List TaskId) : Prop where
  runnable : Runnable next
  spawned : s.spawned ≤ next.spawned
  before : s.tasks = (s.called label).toList ++ rest
  after : next.tasks = rest ++ arrivals
  arrived : ∀ task ∈ arrivals, task ∈ s.tasks ∨ s.spawned ≤ task

omit [DecidableEq Key] in
/-- A task that is spawned in between joins the queue. -/
theorem turn_of_spawn
    {s : Reactor User Own Key Outside}
    (runnable : Runnable s) (start : Start User) :
    Turn s (.deed (.spawn start)) (s.spawn start) s.tasks [s.spawned] where
  runnable :=
    { once := by
        apply runnable.once.append (List.nodup_singleton _)
        intro other present new
        obtain rfl := List.mem_singleton.mp new
        exact lt_irrefl _ (runnable.known _ present)
      known := fun other present => by
        rcases List.mem_append.mp present with before | new
        · exact Nat.lt_succ_of_lt (runnable.known other before)
        · obtain rfl := List.mem_singleton.mp new
          exact Nat.lt_succ_self _
      awake := fun other present => by
        rcases List.mem_append.mp present with before | new
        · exact runnable.awake other before
        · obtain rfl := List.mem_singleton.mp new
          simp [spawn, setFrames, runnable.fresh s.spawned le_rfl]
      fresh := fun other above => runnable.fresh other (Nat.le_of_succ_le above) }
  spawned := Nat.le_succ _
  before := rfl
  after := rfl
  arrived other new := Or.inr (List.mem_singleton.mp new).ge

omit [DecidableEq Key] in
/-- A step that touches neither the queue nor the tasks. -/
theorem turn_of_same
    {s next : Reactor User Own Key Outside} {label : Label User Key Outside}
    (runnable : Runnable s)
    (uncalled : s.called label = none)
    (spawned : next.spawned = s.spawned)
    (tasks : next.tasks = s.tasks)
    (state : next.state = s.state) :
    Turn s label next s.tasks [] where
  runnable :=
    { once := by
        rw [tasks]
        exact runnable.once
      known := by
        rw [tasks, spawned]
        exact runnable.known
      awake := by
        rw [tasks, state]
        exact runnable.awake
      fresh := by
        rw [spawned, state]
        exact runnable.fresh }
  spawned := spawned.ge
  before := by rw [uncalled]; rfl
  after := by rw [tasks, List.append_nil]
  arrived := by simp

omit [DecidableEq Key] in
theorem called_process
    {s : Reactor User Own Key Outside} {task : TaskId} {rest : List TaskId}
    (here : s.pc = .processing) (first : s.tasks = task :: rest) (awake : s.state task ≠ .wait)
    (fuel : Nat) :
    s.called (.process fuel) = some task := by
  simp [called, here, first, awake]

omit [DecidableEq Key] in
theorem of_called
    {s : Reactor User Own Key Outside} {label : Label User Key Outside} {task : TaskId}
    (called : s.called label = some task) :
    (∃ fuel, label = .process fuel) ∧ s.pc = .processing ∧ s.state task ≠ .wait ∧
      ∃ rest, s.tasks = task :: rest := by
  cases label with
  | process fuel =>
      simp only [Reactor.called] at called
      split_ifs at called with here
      obtain ⟨first, awake⟩ := Option.filter_eq_some_iff.mp called
      exact ⟨⟨fuel, rfl⟩, here, by simpa using awake, List.head?_eq_some_iff.mp first⟩
  | _ => cases called

/-- A round takes the first task out of the queue; the task may come back at the end. -/
theorem turn_of_round
    {surroundings : Surroundings User Own Local Key Outside}
    {s next : Reactor User Own Key Outside} {task : TaskId} {rest : List TaskId} {fuel : Nat}
    (runnable : Runnable s) (here : s.pc = .processing) (first : s.tasks = task :: rest)
    (processed : s.popFront.process surroundings fuel task = some next) :
    ∃ arrivals, Turn s (.process fuel) next rest arrivals := by
  have queued : task ∈ s.tasks := by simp [first]
  have awake := runnable.awake task queued
  have before : s.tasks = (s.called (.process fuel)).toList ++ rest := by
    rw [called_process here first awake, first]
    rfl
  obtain ⟨⟨once, known⟩, awakeAll, fresh⟩ := runnable
  have distinct : Distinct s := ⟨once, known⟩
  have born := known task queued
  rw [first] at once known awakeAll
  obtain ⟨notInRest, onceRest⟩ := List.nodup_cons.mp once
  rcases stepped_of_process first awake processed with rfl | ⟨result, starts, stepped⟩
  · have popped : s.popFront.tasks = rest := by rw [popFront, first]; rfl
    refine ⟨[], ⟨⟨⟨popped ▸ onceRest, ?_⟩, ?_, fresh⟩, le_rfl, before, ?_, by simp⟩⟩
    · exact fun other present => known other (List.mem_cons_of_mem task (popped ▸ present))
    · exact fun other present => awakeAll other (List.mem_cons_of_mem task (popped ▸ present))
    · rw [List.append_nil]
      exact popped
  · have spawned : s.spawned ≤ next.spawned := stepped.spawned.ge.trans' (Nat.le_add_right _ _)
    have after := stepped.tasks
    rw [List.append_assoc] at after
    have others : ∀ other ≠ task, other ∈ next.tasks → next.state other ≠ .wait := by
      intro other different present
      rw [stepped.state other different]
      rw [after] at present
      rcases List.mem_append.mp present with inRest | arrived
      · exact awakeAll other (List.mem_cons_of_mem task inRest)
      · rcases List.mem_append.mp arrived with new | back
        · simp [fresh other (List.mem_range'_1.mp new).1]
        · split_ifs at back
          · exact absurd (List.mem_singleton.mp back) different
          · cases back
    have own : task ∈ next.tasks → next.state task ≠ .wait := by
      intro present
      rw [after] at present
      rcases List.mem_append.mp present with inRest | arrived
      · exact absurd inRest notInRest
      · rcases List.mem_append.mp arrived with new | back
        · exact absurd born (Nat.not_lt.mpr (List.mem_range'_1.mp new).1)
        · split_ifs at back with again
          · simp [stepped.runs again]
          · cases back
    refine ⟨_, ⟨⟨stepped.distinct distinct first, ?_, ?_⟩, spawned, before, after, ?_⟩⟩
    · intro other present
      by_cases same : other = task
      · subst same
        exact own present
      · exact others other same present
    · intro other above
      rw [stepped.state other (Nat.ne_of_gt (born.trans_le (spawned.trans above)))]
      exact fresh other (spawned.trans above)
    · intro other arrived
      rcases List.mem_append.mp arrived with new | back
      · exact Or.inr (List.mem_range'_1.mp new).1
      · split_ifs at back
        · obtain rfl := List.mem_singleton.mp back
          exact Or.inl queued
        · cases back

theorem turn_of_step
    {surroundings : Surroundings User Own Local Key Outside}
    {s next : Reactor User Own Key Outside} {label : Label User Key Outside}
    (runnable : Runnable s) (here : s.pc = .processing)
    (stepped : step surroundings s label = some next) (still : next.pc = .processing) :
    ∃ rest arrivals, Turn s label next rest arrivals := by
  cases moves_of_step stepped with
  | call away => simp [away] at here
  | exit away => simp [away] at here
  | poll away => simp [away] at here
  | complete away => simp [away] at here
  | proceed away => simp [away] at here
  | leave away => simp [away] at here
  | idle => cases still
  | round _ first processed => exact ⟨_, turn_of_round runnable here first processed⟩
  | deed deed =>
      cases deed with
      | spawn start => exact ⟨_, _, turn_of_spawn runnable start⟩
      | close key => exact ⟨_, _, turn_of_same runnable rfl rfl rfl rfl⟩
      | stop => exact ⟨_, _, turn_of_same runnable rfl rfl rfl rfl⟩
  | outside outside => exact ⟨_, _, turn_of_same runnable rfl rfl rfl rfl⟩

/-! ## A part of a call -/

/-- The calls of `one_step` serve the queue at its front. -/
theorem Calls.serves
    {surroundings : Surroundings User Own Local Key Outside}
    {s last : Reactor User Own Key Outside} {tasks : List TaskId}
    (calls : Calls surroundings s tasks last)
    (runnable : Runnable s) :
    Runnable last ∧ RoundRobin.Serves s.tasks tasks last.tasks := by
  induction calls with
  | refl s => exact ⟨runnable, .refl s.tasks⟩
  | @step s next last label tasks here stepped still calls inductionHypothesis =>
      obtain ⟨rest, arrivals, turn⟩ := turn_of_step runnable here stepped still
      obtain ⟨runnableLast, serves⟩ := inductionHypothesis turn.runnable
      refine ⟨runnableLast, ?_⟩
      rw [turn.before]
      rw [turn.after] at serves
      cases s.called label with
      | none => exact .arrive arrivals serves
      | some task => exact .serve arrivals serves

/-- A task that has left the queue does not come back during the call. -/
theorem Calls.absent
    {surroundings : Surroundings User Own Local Key Outside}
    {s last : Reactor User Own Key Outside} {tasks : List TaskId} {task : TaskId}
    (calls : Calls surroundings s tasks last)
    (runnable : Runnable s)
    (born : task < s.spawned)
    (absent : task ∉ s.tasks) :
    task ∉ last.tasks := by
  induction calls with
  | refl s => exact absent
  | @step s next last label tasks here stepped still calls inductionHypothesis =>
      obtain ⟨rest, arrivals, turn⟩ := turn_of_step runnable here stepped still
      apply inductionHypothesis turn.runnable (born.trans_le turn.spawned)
      intro present
      rw [turn.after] at present
      rcases List.mem_append.mp present with inRest | arrived
      · exact absent (by rw [turn.before]; exact List.mem_append_right _ inRest)
      · rcases turn.arrived task arrived with before | new
        · exact absent before
        · exact Nat.not_lt.mpr new born

theorem Calls.of_undefined
    {surroundings : Surroundings User Own Local Key Outside}
    {s last : Reactor User Own Key Outside} {tasks : List TaskId}
    (calls : Calls surroundings s tasks last) (undefined : s.undefined = true) :
    last.undefined = true := by
  cases calls with
  | refl => exact undefined
  | step _ stepped =>
      rw [step_of_undefined undefined] at stepped
      cases stepped

/-- Round robin: between two calls of `one_step` on a task, each other task that
was in the queue at the first of them, and each task that was spawned during it,
has exactly one. -/
theorem round_robin
    {surroundings : Surroundings User Own Local Key Outside}
    {s first next second last : Reactor User Own Key Outside}
    {label label' : Label User Key Outside} {before between : List TaskId} {task : TaskId}
    (runnable : Runnable s)
    (start : Calls surroundings s before first)
    (called : first.called label = some task)
    (stepped : step surroundings first label = some next)
    (middle : Calls surroundings next between second)
    (calledAgain : second.called label' = some task)
    (steppedAgain : step surroundings second label' = some last)
    (consecutive : task ∉ between) :
    ∀ other ≠ task, other ∈ first.tasks ∨ first.spawned ≤ other ∧ other < next.spawned →
      between.count other = 1 := by
  obtain ⟨⟨fuel, rfl⟩, here, awake, rest, front⟩ := of_called called
  obtain ⟨-, -, -, restAgain, frontAgain⟩ := of_called calledAgain
  obtain ⟨runnableFirst, -⟩ := start.serves runnable
  have processed : first.popFront.process surroundings fuel task = some next := by
    cases moves_of_step stepped with
    | idle _ noTask => simp [front] at noTask
    | round _ front' processed =>
        obtain ⟨rfl, -⟩ := List.cons.inj (front.symm.trans front')
        exact processed
  obtain ⟨_, turn⟩ := turn_of_round runnableFirst here front processed
  rcases stepped_of_process front awake processed with crashed | ⟨result, starts, round⟩
  · have undefined := middle.of_undefined (by rw [crashed])
    rw [step_of_undefined undefined] at steppedAgain
    cases steppedAgain
  obtain ⟨-, serves⟩ := middle.serves turn.runnable
  have onceNext := turn.runnable.once
  rw [round.tasks] at serves onceNext
  have once := runnableFirst.once
  have born := runnableFirst.known task (by simp [front])
  rw [front] at once
  by_cases again : result = .run
  · -- The task is at the end of the queue, so exactly those before it had their turn.
    rw [if_pos again] at serves onceNext
    rw [frontAgain] at serves
    obtain ⟨onceBefore, -, apart⟩ := List.nodup_append.mp onceNext
    have absent : task ∉ rest ++ List.range' first.spawned starts :=
      fun present => apart task present task (List.mem_singleton_self task) rfl
    obtain rfl := serves.served_eq consecutive absent
    intro other different waiting
    apply List.count_eq_one_of_mem onceBefore
    rcases waiting with queued | ⟨above, below⟩
    · rw [front] at queued
      exact List.mem_append_left _ ((List.mem_cons.mp queued).resolve_left different)
    · rw [round.spawned] at below
      exact List.mem_append_right _ (List.mem_range'_1.mpr ⟨above, below⟩)
  · -- The task has left the queue for good.
    have gone : task ∉ next.tasks := by
      rw [round.tasks, if_neg again, List.append_nil]
      intro present
      rcases List.mem_append.mp present with inRest | new
      · exact (List.nodup_cons.mp once).1 inRest
      · exact absurd born (Nat.not_lt.mpr (List.mem_range'_1.mp new).1)
    have absent := middle.absent turn.runnable (born.trans_le turn.spawned) gone
    exact absurd (by simp [frontAgain]) absent

omit [DecidableEq Key] in
/-- In every run of every program, `process_tasks` starts on such a queue. -/
theorem Disciplined.runnable
    {s : Reactor User Own Key Outside}
    (disciplined : Disciplined s) :
    Runnable s where
  toDistinct := disciplined.distinct
  awake task present := by
    have queued := List.count_pos_iff.mpr present
    cases disciplined.standing task with
    | unborn _ _ _ count => omega
    | ready _ _ _ state => simp [state]
    | parked _ _ _ _ count => omega
    | done _ _ _ count => omega
  fresh task unborn := by
    cases disciplined.standing task with
    | unborn _ _ state => exact state
    | ready born => exact absurd born (Nat.not_lt.mpr unborn)
    | parked born => exact absurd born (Nat.not_lt.mpr unborn)
    | done born => exact absurd born (Nat.not_lt.mpr unborn)

/-- Two tasks that yield take turns. -/
theorem round_robin_yielding :
    ∃ s next second last, Machine.run (step yielding) (initial 0)
        (.deed (.spawn (.user ())) :: callWith (.user ())) = some s ∧ s.tasks = [0, 1] ∧
      step yielding s (.process 4) = some next ∧ Calls yielding next [1] second ∧
      step yielding second (.process 4) = some last ∧ last.tasks = [1, 0] ∧
      ∀ other ≠ 0, other ∈ s.tasks ∨ s.spawned ≤ other ∧ other < next.spawned →
        [1].count other = 1 := by
  obtain ⟨s, next, second, last, ran, tasks, first, middle, again, turned, calls⟩ :
      ∃ s next second last, Machine.run (step yielding) (initial 0)
          (.deed (.spawn (.user ())) :: callWith (.user ())) = some s ∧ s.tasks = [0, 1] ∧
        step yielding s (.process 4) = some next ∧
        step yielding next (.process 4) = some second ∧
        step yielding second (.process 4) = some last ∧ last.tasks = [1, 0] ∧
        s.called (.process 4) = some 0 ∧ next.called (.process 4) = some 1 ∧
        second.called (.process 4) = some 0 ∧ next.pc = .processing ∧ second.pc = .processing :=
    ⟨_, _, _, _, rfl, rfl, rfl, rfl, rfl, rfl, rfl, rfl, rfl, rfl, rfl⟩
  obtain ⟨calledFirst, calledMiddle, calledAgain, here, still⟩ := calls
  have between : Calls yielding next [1] second := by
    have one := Calls.step here middle still (.refl second)
    rwa [calledMiddle] at one
  have runnable := (disciplined_of_reachable ⟨_, ran⟩).runnable
  exact ⟨s, next, second, last, ran, tasks, first, between, again, turned,
    round_robin runnable (.refl s) calledFirst first between calledAgain again (by simp)⟩

end Reactor
end Cppio
