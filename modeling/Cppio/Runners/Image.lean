import Cppio.Runners.Machine
import Cppio.Workers.Exclusion
import Cppio.Workers.OneWorker
import Mathlib.Data.Fintype.Basic

/-!
# The runners seen from outside

What the machine that leaves open what coroutines compute shows of the runners.  Where an
operation is on its way to suspension, that machine knows the descriptor's entry from the
start of the operation, while the runners learn it where `epoll_ctl` finds it: `key` gives
what each runner is going to find.
-/

namespace Cppio
namespace Runners

open Workers (Coroutine)

variable {Worker User Own Local Key : Type}

/-- What is left of an operation on its way to suspension. -/
def parking (key : SocketT → Key) : Code User Own → Option (List (ParkStep Key))
  | .park steps _ => some (steps.map (ParkStep.map key))
  | _ => none

/-- Where a runner is.  A coroutine has control until it suspends, also while `one_step`
goes from one that has returned to the one that awaits it. -/
def seenPc (key : SocketT → Key) (coroutine : TaskId → Coroutine) :
    Pc User Own → Workers.Pc Key
  | .head => .head
  | .waking rest source => .waking none (rest.map Prod.fst) source
  | .storing task rest source => .waking none (task :: rest.map Prod.fst) source
  | .scheduling task rest source => .waking (some task) (rest.map Prod.fst) source
  | .polled poll => .polled poll
  | .calling waitTime => .calling waitTime
  | .completed => .completed
  | .processing => .processing
  | .popped task => .popped task
  | .entered task => .entered task
  | .descending task _ => .walking task
  | .walking task _ => if coroutine task = .running then .executing task none else .walking task
  | .resuming task _ => if coroutine task = .running then .executing task none else .resuming task
  | .executing task _ _ code => .executing task (parking key code)
  | .resumed task _ => if coroutine task = .running then .executing task none else .suspended task
  | .left task _ => .suspended task
  | .checked task => .checked task
  | .returned task result => .returned task result
  | .exited => .exited

theorem inside_seenPc
    (key : SocketT → Key) (coroutine : TaskId → Coroutine) (pc : Pc User Own) :
    (seenPc key coroutine pc).inside = pc.inside := by
  cases pc with
  | walking task curr | resuming task curr | resumed task curr =>
      rw [seenPc]
      split_ifs <;> rfl
  | _ => rfl

/-- A runner that is not inside the task's `one_step` does not show its coroutine. -/
theorem seenPc_congr
    (key : SocketT → Key) {coroutine coroutine' : TaskId → Coroutine} {pc : Pc User Own}
    (same : ∀ task, pc.inside = some task → coroutine' task = coroutine task) :
    seenPc key coroutine' pc = seenPc key coroutine pc := by
  cases pc with
  | walking task curr | resuming task curr | resumed task curr =>
      rw [seenPc, seenPc, same task rfl]
  | _ => rfl

/-- The data of the reactor, its coroutines seen from outside. -/
def seen
    (s : State Worker User Own Key) (key : Worker → SocketT → Key)
    (coroutine : TaskId → Coroutine) (delivered : TaskId → Bool) : Workers.State Worker Key where
  spawned := s.spawned.length
  state := s.state
  coroutine := coroutine
  delivered := delivered
  tasks := s.tasks
  active := s.active
  timers := s.timers
  timersLock := s.timersLock
  epoll := s.epoll
  running := s.running
  undefined := s.undefined
  pc worker := seenPc (key worker) coroutine (s.pc worker)

/-- The step does not store the `kRun` of a `wake()` into a task while a runner is inside its
`one_step`. -/
def WakesOutside
    (s : State Worker User Own Key) (label : Label Worker User Own Key) : Prop :=
  ∀ worker choice task rest source, label = .work worker choice →
    s.pc worker = .storing task rest source → ∀ other, (s.pc other).inside ≠ some task

/-- The task into which the step stores the `kRun` of a `wake()`. -/
def wakes (s : State Worker User Own Key) : Label Worker User Own Key → Option TaskId
  | .work worker _ =>
      match s.pc worker with
      | .storing task _ _ => some task
      | _ => none
  | _ => none

theorem wakesOutside_iff
    (s : State Worker User Own Key) (label : Label Worker User Own Key) :
    WakesOutside s label ↔ ∀ task ∈ wakes s label, ∀ other, (s.pc other).inside ≠ some task := by
  constructor
  · intro outside task wakes
    cases label with
    | work worker choice =>
        simp only [Runners.wakes] at wakes
        split at wakes
        · next storing =>
            obtain rfl := Option.some.inj wakes
            exact outside worker choice _ _ _ rfl storing
        · cases wakes
    | _ => cases wakes
  · rintro outside worker choice task rest source rfl storing
    exact outside task (by simp only [wakes, storing, Option.mem_def])

instance decidableWakesOutside
    [Fintype Worker] (s : State Worker User Own Key) (label : Label Worker User Own Key) :
    Decidable (WakesOutside s label) :=
  decidable_of_iff _ (wakesOutside_iff s label).symm

section

variable [DecidableEq Worker] [DecidableEq Key]
variable {s : State Worker User Own Key} {key : Worker → SocketT → Key}
variable {coroutine coroutine' : TaskId → Coroutine} {delivered : TaskId → Bool}
variable {worker : Worker}

/-- Steps of the other machine that wake tasks from outside only. -/
abbrev Leads : Workers.State Worker Key → Workers.State Worker Key → Prop :=
  Machine.ReachableBy Workers.State.step Workers.WakesOutside

omit [DecidableEq Key] in
/-- A runner goes on, and the coroutine of the task that it is inside of may change. -/
theorem seen_goto
    (s : State Worker User Own Key) (key : Worker → SocketT → Key)
    (delivered : TaskId → Bool) (pc : Pc User Own)
    (same : ∀ other ≠ worker, ∀ task, (s.pc other).inside = some task →
      coroutine' task = coroutine task) :
    seen (s.goto worker pc) key coroutine' delivered =
      { (seen s key coroutine delivered).goto worker (seenPc (key worker) coroutine' pc) with
        coroutine := coroutine' } := by
  have pcs : (seen (s.goto worker pc) key coroutine' delivered).pc =
      Function.update (seen s key coroutine delivered).pc worker
        (seenPc (key worker) coroutine' pc) := by
    funext other
    by_cases isWorker : other = worker
    · subst isWorker
      simp [seen, State.goto]
    · simp only [seen, State.goto, Function.update_of_ne isWorker]
      exact seenPc_congr (key other) (same other isWorker)
  exact congrArg (fun pcs => { seen s key coroutine' delivered with pc := pcs }) pcs

omit [DecidableEq Key] in
theorem goto_self (w : Workers.State Worker Key) (worker : Worker) :
    w.goto worker (w.pc worker) = w := by
  rw [Workers.State.goto, Function.update_eq_self]

omit [DecidableEq Key] in
@[simp] theorem goto_goto
    (w : Workers.State Worker Key) (worker : Worker) (pc pc' : Workers.Pc Key) :
    (w.goto worker pc).goto worker pc' = w.goto worker pc' := by
  simp only [Workers.State.goto, Function.update_idem]

omit [DecidableEq Key] in
@[simp] theorem goto_pc
    (w : Workers.State Worker Key) (worker : Worker) (pc : Workers.Pc Key) :
    (w.goto worker pc).pc worker = pc := Function.update_self ..

/-- A step that does not store the `kRun` of a `wake()`. -/
theorem leads_of_work
    {w w' : Workers.State Worker Key} (worker : Worker) (choice : Workers.Choice Key)
    (defined : w.undefined = false)
    (calm : ∀ task rest source, w.pc worker ≠ .waking none (task :: rest) source)
    (worked : w.work worker choice = some w') :
    Leads w w' := by
  have guarded : Workers.WakesOutside w (.work worker choice) := by
    rintro other _ task rest source same there
    obtain ⟨rfl, -⟩ := Workers.Label.work.inj same
    exact absurd there (calm task rest source)
  have stepped : w.step (.work worker choice) = some w' := by
    rw [Workers.State.step, if_neg (by rw [defined]; decide)]
    exact worked
  exact Machine.reachableBy_of_step guarded stepped

/-- A step of another thread. -/
theorem leads_of_outside
    {w w' : Workers.State Worker Key} {label : Workers.Label Worker Key}
    (other : ∀ worker choice, label ≠ .work worker choice)
    (stepped : w.step label = some w') : Leads w w' :=
  Machine.reachableBy_of_step (fun _ _ _ _ _ same => absurd same (other _ _)) stepped

omit [DecidableEq Worker] [DecidableEq Key] in
theorem seen_spawn
    (s : State Worker User Own Key) (key : Worker → SocketT → Key)
    (coroutine : TaskId → Coroutine) (delivered : TaskId → Bool) (start : Start User) :
    seen (s.spawn start) key coroutine delivered = (seen s key coroutine delivered).spawn := by
  simp [seen, State.spawn, State.setFrames, Workers.State.spawn]

end

end Runners
end Cppio
