import Cppio.Reactor.Run
import Cppio.Task.World

/-!
# Rounds of `process_tasks`

What one round does to the queue and to the states of the tasks.  Whatever a coroutine
and the other threads do while `one_step` runs, the queue only grows by the tasks
that are spawned; so a round moves the first task to the end, or takes it out,
and the others move up.
-/

namespace Cppio
namespace Reactor

variable {User Own Local Key Outside : Type} [DecidableEq Key]

/-- Between two points of a call of `one_step` on the task, so many tasks were
spawned; the states of the other tasks are as they were. -/
structure Grown
    (task : TaskId) (starts : Nat) (s next : Reactor User Own Key Outside) : Prop where
  spawned : next.spawned = s.spawned + starts
  tasks : next.tasks = s.tasks ++ List.range' s.spawned starts
  state : ∀ other ≠ task, next.state other = s.state other

omit [DecidableEq Key] in
theorem Grown.refl (task : TaskId) (s : Reactor User Own Key Outside) : Grown task 0 s s where
  spawned := rfl
  tasks := (List.append_nil _).symm
  state _ _ := rfl

omit [DecidableEq Key] in
theorem Grown.trans
    {task : TaskId} {starts starts' : Nat}
    {s middle next : Reactor User Own Key Outside}
    (grown : Grown task starts s middle) (grown' : Grown task starts' middle next) :
    Grown task (starts + starts') s next where
  spawned := by rw [grown'.spawned, grown.spawned, Nat.add_assoc]
  tasks := by
    rw [grown'.tasks, grown.tasks, grown.spawned, List.append_assoc, List.range'_append_1]
  state other different := (grown'.state other different).trans (grown.state other different)

omit [DecidableEq Key] in
/-- The task's own data, and what is outside of the tasks, may change. -/
theorem Grown.congr
    {task : TaskId} {starts : Nat} {s middle next : Reactor User Own Key Outside}
    (grown : Grown task starts s middle)
    (spawned : next.spawned = middle.spawned)
    (tasks : next.tasks = middle.tasks)
    (state : ∀ other ≠ task, next.state other = middle.state other) :
    Grown task starts s next where
  spawned := spawned.trans grown.spawned
  tasks := tasks.trans grown.tasks
  state other different := (state other different).trans (grown.state other different)

omit [DecidableEq Key] in
theorem grown_spawn
    (task : TaskId) (s : Reactor User Own Key Outside) (start : Start User) :
    Grown task 1 s (s.spawn start) where
  spawned := rfl
  tasks := rfl
  state _ _ := rfl

theorem grown_deed
    (task : TaskId) (s : Reactor User Own Key Outside) (deed : Deed User Key) :
    ∃ starts, Grown task starts s (s.deed deed) := by
  cases deed with
  | spawn start => exact ⟨_, grown_spawn task s start⟩
  | close key => exact ⟨0, (Grown.refl task s).congr rfl rfl fun _ _ => rfl⟩
  | stop => exact ⟨0, (Grown.refl task s).congr rfl rfl fun _ _ => rfl⟩

theorem grown_deeds
    {task : TaskId} {starts : Nat} {s middle : Reactor User Own Key Outside}
    (grown : Grown task starts s middle) (deeds : List (Deed User Key)) :
    ∃ starts, Grown task starts s (deeds.foldl deed middle) := by
  induction deeds generalizing starts middle with
  | nil => exact ⟨starts, grown⟩
  | cons deed deeds inductionHypothesis =>
      obtain ⟨_, grownHere⟩ := grown_deed task middle deed
      exact inductionHypothesis (grown.trans grownHere)

/-- While `one_step` runs, the queue only grows by what is spawned. -/
theorem preserves_grown
    (surroundings : Surroundings User Own Local Key Outside) (task : TaskId)
    (s : Reactor User Own Key Outside) :
    (system surroundings task).Preserves fun next => ∃ starts, Grown task starts s next where
  perform := by
    rintro effect next ⟨starts, grown⟩
    cases effect with
    | syscall call =>
        have answered : Grown task starts s
            { next with outside := (surroundings.syscall call next.outside).2.2 } :=
          grown.congr rfl rfl fun _ _ => rfl
        exact grown_deeds answered (surroundings.syscall call next.outside).2.1
    | overlapped => exact ⟨starts, grown.congr rfl rfl fun _ _ => rfl⟩
    | success => exact ⟨starts, grown⟩
    | register interest sock =>
        simp only [system, Reactor.perform]
        cases surroundings.epollCtl next.outside sock with
        | none => exact ⟨starts, grown⟩
        | some key => exact ⟨starts, grown.congr rfl rfl fun _ _ => rfl⟩
    | startTimer delay => exact ⟨starts, grown.congr rfl rfl fun _ _ => rfl⟩
    | perform effect =>
        have performed : Grown task starts s
            { next with outside := (surroundings.perform effect next.outside).2.2 } :=
          grown.congr rfl rfl fun _ _ => rfl
        exact grown_deeds performed (surroundings.perform effect next.outside).2.1
    | spawn start => exact ⟨_, grown.trans (grown_spawn task next start)⟩
  wait := by
    rintro next ⟨starts, grown⟩
    exact ⟨starts, grown.congr rfl rfl
      fun other different => Function.update_of_ne different _ _⟩
  observe _ _ grown := grown

/-! ## One round -/

/-- The tasks in the queue are different and were spawned. -/
structure Distinct (s : Reactor User Own Key Outside) : Prop where
  once : s.tasks.Nodup
  known : ∀ task ∈ s.tasks, task < s.spawned

/-- What the round of a task that does not wait has done. -/
structure Stepped
    (s : Reactor User Own Key Outside) (task : TaskId) (rest : List TaskId)
    (result : ScheduleType) (starts : Nat) (next : Reactor User Own Key Outside) : Prop where
  spawned : next.spawned = s.spawned + starts
  tasks : next.tasks =
    rest ++ List.range' s.spawned starts ++ if result = .run then [task] else []
  state : ∀ other ≠ task, next.state other = s.state other
  runs : result = .run → next.state task = .run

section Settle

variable (s : Reactor User Own Key Outside) (task : TaskId) (result : ScheduleType)

omit [DecidableEq Key] in
theorem settle_spawned : (s.settle task result).spawned = s.spawned := by
  cases result <;> rfl

omit [DecidableEq Key] in
theorem settle_tasks :
    (s.settle task result).tasks = s.tasks ++ if result = .run then [task] else [] := by
  cases result with
  | run => rfl
  | wait => exact (List.append_nil _).symm
  | done => exact (List.append_nil _).symm

omit [DecidableEq Key] in
theorem settle_frames : (s.settle task result).frames = s.frames := by
  cases result <;> rfl

omit [DecidableEq Key] in
theorem settle_state : (s.settle task result).state = s.state := by
  cases result <;> rfl

end Settle

/-- After undefined behaviour nothing happens. -/
theorem step_of_undefined
    {surroundings : Surroundings User Own Local Key Outside}
    {s : Reactor User Own Key Outside} (undefined : s.undefined = true)
    (label : Label User Key Outside) :
    step surroundings s label = none := by
  unfold step
  exact if_pos undefined

/-- A round calls `one_step`, or it ends in undefined behaviour. -/
theorem stepped_of_process
    {surroundings : Surroundings User Own Local Key Outside}
    {s next : Reactor User Own Key Outside} {task : TaskId} {rest : List TaskId} {fuel : Nat}
    (first : s.tasks = task :: rest) (runs : s.state task ≠ .wait)
    (processed : s.popFront.process surroundings fuel task = some next) :
    next = { s.popFront with undefined := true } ∨
      ∃ result starts, Stepped s task rest result starts next := by
  have awake : s.popFront.state task ≠ .wait := runs
  unfold process at processed
  rw [if_neg awake] at processed
  cases returned : (system surroundings task).oneStep fuel (s.popFront.frames task) s.popFront with
  | error stuck =>
      simp only [returned] at processed
      cases stuck with
      | outOfFuel => cases processed
      | undefined =>
          obtain rfl := Option.some.inj processed
          exact Or.inl rfl
  | ok left =>
      obtain ⟨result, frames, last⟩ := left
      simp only [returned] at processed
      obtain rfl := Option.some.inj processed
      obtain ⟨⟨starts, grown⟩, state⟩ := (preserves_grown surroundings task s.popFront).oneStep
        ⟨0, .refl task s.popFront⟩ returned
      refine Or.inr ⟨result, starts, ?_⟩
      exact
        { spawned := by rw [settle_spawned]; exact grown.spawned
          tasks := by
            have popped : s.popFront.tasks = rest := by rw [popFront, first]; rfl
            rw [settle_tasks, ← popped]
            exact congrArg (· ++ _) grown.tasks
          state := fun other different => by
            rw [settle_state]
            exact grown.state other different
          runs := by
            rintro rfl
            rw [settle_state]
            exact (state.resolve_left (by simp)).symm }

omit [DecidableEq Key] in
/-- A task that is spawned is new to the queue. -/
theorem Stepped.distinct
    {s next : Reactor User Own Key Outside} {task : TaskId} {rest : List TaskId}
    {result : ScheduleType} {starts : Nat}
    (stepped : Stepped s task rest result starts next)
    (distinct : Distinct s) (first : s.tasks = task :: rest) :
    Distinct next := by
  obtain ⟨once, known⟩ := distinct
  rw [first] at once known
  obtain ⟨notInRest, onceRest⟩ := List.nodup_cons.mp once
  have born := known task List.mem_cons_self
  have grown : (rest ++ List.range' s.spawned starts).Nodup := by
    apply onceRest.append List.nodup_range'
    intro other inRest new
    have below := known other (List.mem_cons_of_mem task inRest)
    exact Nat.not_lt.mpr (List.mem_range'_1.mp new).1 below
  have absent : task ∉ rest ++ List.range' s.spawned starts := by
    intro present
    rcases List.mem_append.mp present with inRest | new
    · exact notInRest inRest
    · exact Nat.not_lt.mpr (List.mem_range'_1.mp new).1 born
  constructor
  · rw [stepped.tasks]
    split_ifs
    · apply grown.append (List.nodup_singleton task)
      intro other present own
      obtain rfl := List.mem_singleton.mp own
      exact absent present
    · rwa [List.append_nil]
  · intro other present
    rw [stepped.tasks] at present
    rw [stepped.spawned]
    rcases List.mem_append.mp present with grownHere | back
    · rcases List.mem_append.mp grownHere with inRest | new
      · exact Nat.lt_add_right _ (known other (List.mem_cons_of_mem task inRest))
      · exact (List.mem_range'_1.mp new).2
    · split_ifs at back
      · obtain rfl := List.mem_singleton.mp back
        exact Nat.lt_add_right _ born
      · cases back

end Reactor
end Cppio
