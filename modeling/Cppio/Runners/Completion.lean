import Cppio.Runners.Isolation
import Cppio.Workers.Availability

/-!
# When `run` returns to a runner

A runner leaves the loop of `run` when it finds no active task.  Then all tasks have finished,
and nothing is left of them in the reactor or in the hands of the other runners.
-/

namespace Cppio

namespace Workers

variable {Worker Key : Type}

/-- A coroutine in a worker's hands has not finished. -/
theorem Fits.unfinished
    {pc : Pc Key} {quiet : Prop} {state : ScheduleType} {coroutine : Coroutine}
    (fits : Fits pc quiet state coroutine) : coroutine ≠ .finished := by
  rintro rfl
  cases pc with
  | executing task steps =>
      cases steps with
      | none => cases fits.2.2
      | some steps => cases fits.1
  | suspended task | checked task => cases fits.1
  | _ => cases fits.2.2

variable [DecidableEq Worker]

/-- A task that has finished is nowhere, and nothing is going to wake it. -/
theorem Situated.of_finished
    {s : State Worker Key} {task : TaskId} {place : Place Worker} {signal : Signal Worker}
    (situated : Situated s task place signal) (finished : s.coroutine task = .finished) :
    place = .nowhere ∧ signal = .none := by
  cases place with
  | nowhere =>
      refine ⟨rfl, ?_⟩
      by_contra signaled
      cases finished.symm.trans (situated.nowhere rfl signaled).2
  | queued => cases finished.symm.trans (situated.queued rfl).2.2
  | held worker => exact absurd finished (situated.held worker rfl).unfinished

omit [DecidableEq Worker] in
theorem accounted_initial : Accounted (State.initial : State Worker Key) where
  mentioned := by simp [State.initial, Pc.mentions]
  queued := by simp [State.initial]
  timed := by simp [State.initial, TimerPool.empty]
  armed := by simp [State.initial, Epoll.empty]
  active := by simp [State.initial]
  fresh := by simp [State.initial]
  stored := by simp [State.initial]
  returns := by simp [State.initial]
  executes := by simp [State.initial]
  alone := by simp [State.initial]

end Workers

namespace Runners

open Workers (Coroutine)

variable {Worker User Own Local Key : Type} [DecidableEq Worker] [DecidableEq Key]
variable {program : User → UserInstr User Own Local} {s next last : State Worker User Own Key}
variable {record : TaskId → List (Occurs User Own Local)} {coroutine : TaskId → Coroutine}
variable {delivered : TaskId → Bool} {worker : Worker} {choice : Choice Own Key}
variable {labels : List (Label Worker User Own Key)}

theorem accounted_of_leads
    {w : Workers.State Worker Key} (leads : Leads Workers.State.initial w) :
    Workers.Accounted w := by
  obtain ⟨labels, -, ran⟩ := leads
  exact Machine.invariant_of_reachable (fun _ _ _ accounted stepped => accounted.step stepped)
    Workers.accounted_initial ⟨labels, ran⟩

/-- All tasks have finished, with the values that executions of their code return.  None of
them is in `m_tasks`, in the timer pool or registered, and no runner is inside the `one_step`
of one. -/
structure Complete
    (program : User → UserInstr User Own Local) (s : State Worker User Own Key)
    (record : TaskId → List (Occurs User Own Local)) : Prop where
  finished : ∀ task start, s.spawned[task]? = some start →
    ∃ value, (s.frames task).FinishedWith value ∧
      Recording.Recorded program start.code (record task) (some value)
  tasks : s.tasks = []
  timers : s.timers.tasks = []
  armed : s.epoll.armed = []
  outside : ∀ worker task, (s.pc worker).inside ≠ some task

/-- What the other machine says of a coroutine that has finished. -/
theorem Refines.finished
    {task : TaskId} (refines : Refines program s record coroutine delivered)
    (finished : coroutine task = .finished) :
    ∃ start value, s.spawned[task]? = some start ∧ (s.frames task).FinishedWith value ∧
      Recording.Recorded program start.code (record task) (some value) := by
  cases refines.stages task with
  | unborn _ _ _ _ is | waits _ _ _ _ is => cases finished.symm.trans is
  | finished born _ _ done recorded => exact ⟨_, _, born, done, recorded⟩
  | @inside start worker _ _ _ _ within =>
      rw [finished] at within
      generalize s.pc worker = pc at within
      cases within with
      | walking _ enters | resuming _ enters => cases enters

theorem Refines.complete
    [Inhabited Key] (refines : Refines program s record coroutine delivered)
    (noTask : s.active = ∅) : Complete program s record := by
  have leads := refines.reached fun _ _ => default
  have accounted := accounted_of_leads leads
  have ended : ∀ task < s.spawned.length, coroutine task = .finished := by
    intro task born
    by_contra unfinished
    have active : task ∈ s.active := accounted.active task born unfinished
    rw [noTask] at active
    exact Finset.notMem_empty _ active
  have settled : ∀ task < s.spawned.length, ∃ place signal,
      Workers.Situated (seen s (fun _ _ => default) coroutine delivered) task place signal ∧
        place = .nowhere ∧ signal = .none := by
    intro task born
    obtain ⟨place, signal, situated⟩ := (kept_of_leads leads).situated task
    exact ⟨place, signal, situated, situated.of_finished (ended task born)⟩
  have unarmed : ∀ task < s.spawned.length, s.epoll.pending task + s.timers.pending task = 0 := by
    intro task born
    obtain ⟨place, signal, situated, rfl, rfl⟩ := settled task born
    exact situated.armed
  constructor
  case finished =>
    intro task start born
    obtain ⟨less, -⟩ := List.getElem?_eq_some_iff.mp born
    obtain ⟨start', value, born', finished, recorded⟩ := refines.finished (ended task less)
    obtain rfl := Option.some.inj (born.symm.trans born')
    exact ⟨value, finished, recorded⟩
  case tasks =>
    refine List.eq_nil_iff_forall_not_mem.mpr fun task queued => ?_
    obtain ⟨place, signal, situated, rfl, rfl⟩ := settled task (accounted.queued task queued)
    exact List.count_eq_zero.mp situated.count queued
  case timers =>
    refine List.eq_nil_iff_forall_not_mem.mpr fun entry present => ?_
    have none := unarmed entry.task (accounted.timed entry present)
    have some : 0 < s.timers.pending entry.task :=
      List.countP_pos_iff.mpr ⟨entry, present, decide_eq_true rfl⟩
    omega
  case armed =>
    refine List.eq_nil_iff_forall_not_mem.mpr fun registration present => ?_
    have none := unarmed registration.task (accounted.armed registration present)
    have some : 0 < s.epoll.pending registration.task :=
      List.countP_pos_iff.mpr ⟨registration, present, decide_eq_true rfl⟩
    omega
  case outside =>
    intro worker task inside
    have inside' :
        ((seen s (fun _ _ => default) coroutine delivered).pc worker).inside = some task := by
      rw [seen, inside_seenPc, inside]
    have holds := Workers.holds_of_inside inside'
    obtain ⟨born, -⟩ := held_of_leads leads holds
    obtain ⟨place, signal, situated, rfl, rfl⟩ := settled task born
    cases (situated.holder worker).mp holds

/-- A runner leaves `run` at its loop test, without active tasks, or at its test of
`m_running`. -/
theorem Moves.exits
    (moves : Moves program s worker choice next) (within : s.pc worker ≠ .exited)
    (returned : next.pc worker = .exited) : s.active = ∅ ∨ s.running = false := by
  cases moves with
  | crash => exact absurd returned within
  | exit here noTask => exact Or.inl noTask
  | leave here stopped => exact Or.inr stopped
  | execute here executes =>
      cases executes with
      | _ =>
          rw [State.goto_pc] at returned
          cases returned
  | ends here =>
      rw [State.goto_pc] at returned
      split_ifs at returned
  | _ =>
      rw [State.goto_pc] at returned
      cases returned

/-- On every run of any number of runners on which no `wake()` stores its `kRun` into a task
while a runner is inside its `one_step`, `run` returns to a runner only if the reactor is
being destroyed, or if all tasks have finished, each with the value that an execution of its
own code returns, and nothing is left to do for any of them. -/
theorem run_returns_complete
    [Inhabited Key]
    (guarded : Machine.AllSteps (State.step program) WakesOutside
      (State.initial : State Worker User Own Key) labels)
    (ran : Machine.run (State.step program) State.initial labels = some last)
    (stepped : last.step program (.work worker choice) = some next)
    (within : last.pc worker ≠ .exited) (returned : next.pc worker = .exited) :
    last.running = false ∨
      Complete program last fun task => Reactor.part task (log program State.initial labels) := by
  obtain ⟨coroutine, delivered, refines⟩ := refined_of_run guarded ran
  obtain ⟨-, ⟨_, _, same, moves⟩ | ⟨_, same, -⟩ | ⟨same, -⟩ | ⟨_, same, -⟩⟩ := step_cases stepped
  · obtain ⟨rfl, rfl⟩ := Label.work.inj same
    exact (moves.exits within returned).symm.imp_right refines.complete
  all_goals cases same

theorem run_returns_complete_twoNaps :
    ∃ last next,
      Machine.run (State.step Reactor.napping.program) State.initial (twoNaps ++ goes true 1) =
        some last ∧
      last.step Reactor.napping.program (.work true (.clock 9)) = some next ∧
      last.pc true = .head ∧ next.pc true = .exited ∧
      (last.running = false ∨ Complete Reactor.napping.program last fun task =>
        Reactor.part task
          (log Reactor.napping.program State.initial (twoNaps ++ goes true 1))) := by
  have guarded : Machine.AllSteps (State.step Reactor.napping.program) WakesOutside
      State.initial (twoNaps ++ goes true 1) := by
    decide +kernel
  obtain ⟨last, next, ran, stepped, here, returned⟩ : ∃ last next,
      Machine.run (State.step Reactor.napping.program) State.initial (twoNaps ++ goes true 1) =
        some last ∧
      last.step Reactor.napping.program (.work true (.clock 9)) = some next ∧
      last.pc true = .head ∧ next.pc true = .exited :=
    ⟨_, _, rfl, rfl, rfl, rfl⟩
  exact ⟨last, next, ran, stepped, here, returned,
    run_returns_complete guarded ran stepped (by rw [here]; exact nofun) returned⟩

end Runners
end Cppio
