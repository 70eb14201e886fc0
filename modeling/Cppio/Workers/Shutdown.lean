import Cppio.Library.Machine
import Cppio.Reactor.TimerWidths
import Mathlib.Algebra.BigOperators.Group.Finset.Basic
import Mathlib.Algebra.Order.BigOperators.Group.Finset
import Mathlib.Data.Fintype.Basic
import Mathlib.Tactic.SplitIfs

/-!
# How the workers leave

The loops of `run` and `process_tasks` on any number of threads, up to `notify_one` after
the loop.  Which tasks timers and completions wake, how long `get_delay` says to wait, and
what `one_step` returns, is left open.  `notify_one` of `win32::iocp` posts a packet; that
of `posix::epoll` does nothing.  A worker that finds `m_tasks` not empty waits for no time:
it comes back from `m_completion_object.run` by itself.
-/

namespace Cppio

inductive Platform
  | win32
  | posix
  deriving DecidableEq

/-- What `notify_one` does to the number of posted packets. -/
def Platform.notifyOne : Platform → Nat → Nat
  | .win32, posted => posted + 1
  | .posix, posted => posted

/-- The timeout of `GetQueuedCompletionStatus`, a `DWORD`, or of `epoll_wait`. -/
def Platform.timeout : Platform → Nanoseconds → Int
  | .win32, waitTime => (waitTime.quotient 1000000).value % 2 ^ 32
  | .posix, waitTime => (MachinePool.timeout waitTime).value

/-- How many completions one call of `m_completion_object.run` delivers at most. -/
def Platform.mostEvents : Platform → Nat
  | .win32 => 1
  | .posix => 10

namespace Leaving

/-- Where a worker is. -/
inductive Pc
  /-- At the loop test of `run`. -/
  | head
  /-- `get_delay` has returned this delay; before the test of `m_tasks.empty()`. -/
  | polled (delay : Nanoseconds)
  /-- In `m_completion_object.run(wait_time)`. -/
  | calling (waitTime : Nanoseconds)
  /-- At the test of `m_running`. -/
  | completed
  /-- At the loop test of `process_tasks`. -/
  | processing
  /-- In `one_step`. -/
  | stepping (task : TaskId)
  /-- After the loop of `run`. -/
  | leaving
  /-- `run` has returned. -/
  | left
  deriving DecidableEq

/-- The reactor and its workers. -/
structure State (Worker : Type) where
  spawned : Nat
  /-- `m_tasks`. -/
  tasks : List TaskId
  /-- `m_active_tasks`. -/
  active : Finset TaskId
  /-- `m_running`. -/
  running : Bool
  /-- How many packets of `notify_one` are in the completion port. -/
  posted : Nat
  pc : Worker → Pc

/-- A worker's step, with what is left open. -/
inductive Choice
  | go
  /-- The tasks whose timers are due, and the delay to the next timer. -/
  | poll (woken : List TaskId) (delay : Nanoseconds)
  /-- The completions that the port delivers; none after the wait time. -/
  | complete (woken : List TaskId)
  /-- The port delivers a packet of `notify_one`. -/
  | packet
  | spawn
  | returns (result : ScheduleType)

/-- A step of a worker, or of a thread that is none. -/
inductive Label (Worker : Type)
  | work (worker : Worker) (choice : Choice)
  | spawn
  | stop

namespace State

variable {Worker : Type} [DecidableEq Worker]

/-- A reactor without tasks. -/
def initial : State Worker where
  spawned := 0
  tasks := []
  active := ∅
  running := true
  posted := 0
  pc _ := .head

def goto (s : State Worker) (worker : Worker) (pc : Pc) : State Worker :=
  { s with pc := Function.update s.pc worker pc }

@[simp] theorem goto_self (s : State Worker) (worker : Worker) (pc : Pc) :
    (s.goto worker pc).pc worker = pc := Function.update_self ..

theorem goto_of_ne (s : State Worker) {worker other : Worker} (different : other ≠ worker)
    (pc : Pc) : (s.goto worker pc).pc other = s.pc other := Function.update_of_ne different _ _

/-- `abstract_reactor::spawn`, with its `add`. -/
def spawn (s : State Worker) : State Worker :=
  { s with
    spawned := s.spawned + 1
    tasks := s.tasks ++ [s.spawned]
    active := insert s.spawned s.active }

/-- What `process_tasks` does with the result of `one_step`. -/
def settle (s : State Worker) (task : TaskId) : ScheduleType → State Worker
  | .run => { s with tasks := s.tasks ++ [task] }
  | .done => { s with active := s.active.erase task }
  | .wait => s

/-- A worker's next step. -/
def work (platform : Platform) (s : State Worker) (worker : Worker) (choice : Choice) :
    Option (State Worker) :=
  match s.pc worker, choice with
  | .head, .poll woken delay =>
      if s.active = ∅ then some (s.goto worker .leaving)
      else some ({ s with tasks := s.tasks ++ woken }.goto worker (.polled delay))
  | .polled delay, .go =>
      some (s.goto worker (.calling (MachinePool.runWaitTime s.tasks delay)))
  | .calling waitTime, .go =>
      -- With a timeout of zero the port does not wait.
      if platform.timeout waitTime = 0 ∧ s.posted = 0 then some (s.goto worker .completed)
      else none
  | .calling _, .complete woken =>
      if woken.length ≤ platform.mostEvents then
        some ({ s with tasks := s.tasks ++ woken }.goto worker .completed)
      else none
  | .calling _, .packet =>
      match s.posted with
      | 0 => none
      | posted + 1 => some ({ s with posted := posted }.goto worker .completed)
  | .completed, .go => some (s.goto worker (if s.running then .processing else .leaving))
  | .processing, .go =>
      match s.tasks with
      | [] => some (s.goto worker .head)
      | task :: rest => some ({ s with tasks := rest }.goto worker (.stepping task))
  | .stepping _, .spawn => some s.spawn
  | .stepping task, .returns result => some ((s.settle task result).goto worker .processing)
  | .leaving, .go =>
      some ({ s with posted := platform.notifyOne s.posted }.goto worker .left)
  | _, _ => none

/-- One step of the machine. -/
def step (platform : Platform) (s : State Worker) : Label Worker → Option (State Worker)
  | .work worker choice => s.work platform worker choice
  | .spawn => some s.spawn
  | .stop => some { s with running := false }

end State

variable {Worker : Type} [DecidableEq Worker]

/-- The steps of a worker, one constructor for each transition. -/
inductive Moves (platform : Platform) (s : State Worker) (worker : Worker) :
    Choice → State Worker → Prop
  | leave (here : s.pc worker = .head) (noTask : s.active = ∅) (woken : List TaskId)
      (delay : Nanoseconds) : Moves platform s worker (.poll woken delay) (s.goto worker .leaving)
  | poll (here : s.pc worker = .head) (active : s.active ≠ ∅) (woken : List TaskId)
      (delay : Nanoseconds) :
      Moves platform s worker (.poll woken delay)
        ({ s with tasks := s.tasks ++ woken }.goto worker (.polled delay))
  | call {delay : Nanoseconds} (here : s.pc worker = .polled delay) :
      Moves platform s worker .go
        (s.goto worker (.calling (MachinePool.runWaitTime s.tasks delay)))
  | expire {waitTime : Nanoseconds} (here : s.pc worker = .calling waitTime)
      (atOnce : platform.timeout waitTime = 0) (nothing : s.posted = 0) :
      Moves platform s worker .go (s.goto worker .completed)
  | complete {waitTime : Nanoseconds} (here : s.pc worker = .calling waitTime)
      {woken : List TaskId} (few : woken.length ≤ platform.mostEvents) :
      Moves platform s worker (.complete woken)
        ({ s with tasks := s.tasks ++ woken }.goto worker .completed)
  | packet {waitTime : Nanoseconds} (here : s.pc worker = .calling waitTime) {posted : Nat}
      (some : s.posted = posted + 1) :
      Moves platform s worker .packet ({ s with posted := posted }.goto worker .completed)
  | proceed (here : s.pc worker = .completed) (running : s.running = true) :
      Moves platform s worker .go (s.goto worker .processing)
  | break (here : s.pc worker = .completed) (stopped : s.running = false) :
      Moves platform s worker .go (s.goto worker .leaving)
  | idle (here : s.pc worker = .processing) (noTask : s.tasks = []) :
      Moves platform s worker .go (s.goto worker .head)
  | pop (here : s.pc worker = .processing) {task : TaskId} {rest : List TaskId}
      (first : s.tasks = task :: rest) :
      Moves platform s worker .go ({ s with tasks := rest }.goto worker (.stepping task))
  | spawn {task : TaskId} (here : s.pc worker = .stepping task) :
      Moves platform s worker .spawn s.spawn
  | returns {task : TaskId} (here : s.pc worker = .stepping task) (result : ScheduleType) :
      Moves platform s worker (.returns result) ((s.settle task result).goto worker .processing)
  | notify (here : s.pc worker = .leaving) :
      Moves platform s worker .go
        ({ s with posted := platform.notifyOne s.posted }.goto worker .left)

variable {platform : Platform} {s next : State Worker} {worker : Worker} {choice : Choice}

theorem moves_of_work (worked : s.work platform worker choice = some next) :
    Moves platform s worker choice next := by
  unfold State.work at worked
  split at worked
  · next woken delay here =>
      split_ifs at worked with noTask
      · obtain rfl := Option.some.inj worked
        exact .leave here noTask woken delay
      · obtain rfl := Option.some.inj worked
        exact .poll here noTask woken delay
  · next here =>
      obtain rfl := Option.some.inj worked
      exact .call here
  · next here =>
      split_ifs at worked with atOnce
      obtain rfl := Option.some.inj worked
      exact .expire here atOnce.1 atOnce.2
  · next woken here =>
      split_ifs at worked with few
      obtain rfl := Option.some.inj worked
      exact .complete here few
  · next here =>
      split at worked
      · cases worked
      · next posted some =>
          obtain rfl := Option.some.inj worked
          exact .packet here some
  · next here =>
      obtain rfl := Option.some.inj worked
      split_ifs with running
      · exact .proceed here running
      · exact .break here (Bool.eq_false_of_not_eq_true running)
  · next here =>
      split at worked
      · next noTask =>
          obtain rfl := Option.some.inj worked
          exact .idle here noTask
      · next first =>
          obtain rfl := Option.some.inj worked
          exact .pop here first
  · next here =>
      obtain rfl := Option.some.inj worked
      exact .spawn here
  · next here =>
      obtain rfl := Option.some.inj worked
      exact .returns here _
  · next here =>
      obtain rfl := Option.some.inj worked
      exact .notify here
  · cases worked

/-! ## A packet, or a worker that will post one -/

/-- The worker is in `m_completion_object.run`, or goes there without another loop test. -/
def Pc.calls : Pc → Bool
  | .polled _ => true
  | .calling _ => true
  | _ => false

/-- The worker comes to the loop test, or to `notify_one`, before it calls
`m_completion_object.run`. -/
def Pc.comes : Pc → Bool
  | .polled _ => false
  | .calling _ => false
  | .left => false
  | _ => true

theorem Pc.cases (pc : Pc) : pc.comes = true ∨ pc.calls = true ∨ pc = .left := by
  cases pc with
  | polled delay => exact Or.inr (Or.inl rfl)
  | calling waitTime => exact Or.inr (Or.inl rfl)
  | left => exact Or.inr (Or.inr rfl)
  | _ => exact Or.inl rfl

/-- With no active task there is a packet, or a worker that will post one, unless all have
left. -/
def Cascades (s : State Worker) : Prop :=
  s.active = ∅ →
    0 < s.posted ∨ (∃ worker, (s.pc worker).comes = true) ∨ ∀ worker, s.pc worker = .left

theorem comes_goto {pc : Pc} (comes : pc.comes = true) :
    ((s.goto worker pc).pc worker).comes = true := by
  rw [State.goto_self]
  exact comes

theorem Cascades.moves
    (cascades : Cascades s) (moves : Moves .win32 s worker choice next) : Cascades next := by
  intro noTask
  cases moves with
  | leave => exact Or.inr (Or.inl ⟨worker, comes_goto rfl⟩)
  | poll here active => exact absurd noTask active
  | call here =>
      rcases cascades noTask with posted | ⟨other, comes⟩ | left
      · exact Or.inl posted
      · have different : other ≠ worker := by
          rintro rfl
          rw [here] at comes
          cases comes
        refine Or.inr (Or.inl ⟨other, ?_⟩)
        rw [State.goto_of_ne _ different]
        exact comes
      · cases here.symm.trans (left worker)
  | expire => exact Or.inr (Or.inl ⟨worker, comes_goto rfl⟩)
  | complete => exact Or.inr (Or.inl ⟨worker, comes_goto rfl⟩)
  | packet => exact Or.inr (Or.inl ⟨worker, comes_goto rfl⟩)
  | proceed => exact Or.inr (Or.inl ⟨worker, comes_goto rfl⟩)
  | «break» => exact Or.inr (Or.inl ⟨worker, comes_goto rfl⟩)
  | idle => exact Or.inr (Or.inl ⟨worker, comes_goto rfl⟩)
  | pop => exact Or.inr (Or.inl ⟨worker, comes_goto rfl⟩)
  | spawn => exact absurd noTask (Finset.insert_ne_empty _ _)
  | returns => exact Or.inr (Or.inl ⟨worker, comes_goto rfl⟩)
  | notify => exact Or.inl (Nat.succ_pos _)

/-- There is nothing left to do. -/
structure Quiet (s : State Worker) : Prop where
  active : s.active = ∅
  tasks : s.tasks = []
  outside : ∀ worker task, s.pc worker ≠ .stepping task

/-- The step needs no completion, no time and no other thread. -/
def Choice.isOwn : Choice → Bool
  | .go => true
  | .poll _ _ => true
  | .packet => true
  | _ => false

def Label.isOwn : Label Worker → Bool
  | .work _ choice => choice.isOwn
  | _ => false

/-- How many steps a worker needs to leave. -/
def Pc.rank : Pc → Nat
  | .left => 0
  | .leaving => 1
  | .head => 2
  | .processing => 3
  | .stepping _ => 3
  | .completed => 4
  | .calling _ => 5
  | .polled _ => 6

theorem Quiet.goto {pc : Pc} (quiet : Quiet s) (outside : ∀ task, pc ≠ .stepping task) :
    Quiet (s.goto worker pc) where
  active := quiet.active
  tasks := quiet.tasks
  outside other task := by
    by_cases same : other = worker
    · subst same
      rw [State.goto_self]
      exact outside task
    · rw [State.goto_of_ne _ same]
      exact quiet.outside other task

/-- Where nothing is left to do, a worker's own step brings it nearer to the end of `run`. -/
theorem Quiet.moves
    (quiet : Quiet s) (own : choice.isOwn = true) (moves : Moves platform s worker choice next) :
    Quiet next ∧ ∃ pc, next.pc = Function.update s.pc worker pc ∧ pc.rank < (s.pc worker).rank := by
  have goes : ∀ {s' : State Worker} {pc : Pc}, Quiet s' → s'.pc = s.pc →
      (∀ task, pc ≠ .stepping task) → pc.rank < (s.pc worker).rank →
      Quiet (s'.goto worker pc) ∧
        ∃ pc', (s'.goto worker pc).pc = Function.update s.pc worker pc' ∧
          pc'.rank < (s.pc worker).rank := fun quiet same outside less =>
    ⟨quiet.goto outside, _, by rw [State.goto, same], less⟩
  cases moves with
  | leave here => exact goes quiet rfl (by simp) (by rw [here]; decide)
  | poll here active => exact absurd quiet.active active
  | call here => exact goes quiet rfl (by simp) (by rw [here]; simp only [Pc.rank]; decide)
  | expire here => exact goes quiet rfl (by simp) (by rw [here]; simp only [Pc.rank]; decide)
  | complete => cases own
  | packet here =>
      exact goes ⟨quiet.active, quiet.tasks, quiet.outside⟩ rfl (by simp)
        (by rw [here]; simp only [Pc.rank]; decide)
  | proceed here => exact goes quiet rfl (by simp) (by rw [here]; decide)
  | «break» here => exact goes quiet rfl (by simp) (by rw [here]; decide)
  | idle here => exact goes quiet rfl (by simp) (by rw [here]; decide)
  | pop here first => cases quiet.tasks.symm.trans first
  | spawn => cases own
  | returns => cases own
  | notify here =>
      exact goes ⟨quiet.active, quiet.tasks, quiet.outside⟩ rfl (by simp) (by rw [here]; decide)

section

variable [Fintype Worker]

/-- How many steps the workers need to leave. -/
def rank (s : State Worker) : Nat := ∑ worker, (s.pc worker).rank

theorem rank_lt {pc : Pc} (moved : next.pc = Function.update s.pc worker pc)
    (less : pc.rank < (s.pc worker).rank) : rank next < rank s := by
  refine Finset.sum_lt_sum (fun other _ => ?_) ⟨worker, Finset.mem_univ worker, ?_⟩
  · rw [moved]
    by_cases same : other = worker
    · subst same
      rw [Function.update_self]
      exact less.le
    · rw [Function.update_of_ne same]
  · rw [moved, Function.update_self]
    exact less

/-- Own steps are few, and leave nothing to do. -/
theorem Quiet.run
    {labels : List (Label Worker)} (quiet : Quiet s) (own : ∀ label ∈ labels, label.isOwn = true)
    (ran : Machine.run (State.step platform) s labels = some next) :
    Quiet next ∧ labels.length + rank next ≤ rank s := by
  induction labels generalizing s with
  | nil =>
      obtain rfl := Option.some.inj ran
      exact ⟨quiet, Nat.le_of_eq (Nat.zero_add _)⟩
  | cons label labels inductionHypothesis =>
      rw [Machine.run_cons, Option.bind_eq_some_iff] at ran
      obtain ⟨middle, stepped, rest⟩ := ran
      obtain ⟨ownHere, ownLater⟩ := List.forall_mem_cons.mp own
      cases label with
      | work worker choice =>
          obtain ⟨quietMiddle, pc, moved, less⟩ := quiet.moves ownHere (moves_of_work stepped)
          obtain ⟨quietNext, few⟩ := inductionHypothesis quietMiddle ownLater rest
          have fewer := rank_lt moved less
          refine ⟨quietNext, ?_⟩
          rw [List.length_cons]
          omega
      | spawn => cases ownHere
      | stop => cases ownHere

end

/-- No own step is possible. -/
def Stuck (platform : Platform) (s : State Worker) : Prop :=
  ∀ label : Label Worker, label.isOwn = true → s.step platform label = none

/-- A worker that calls `m_completion_object.run` waits there, and there is no packet for
it. -/
theorem Stuck.calls (stuck : Stuck platform s) (calls : (s.pc worker).calls = true) :
    s.posted = 0 ∧ ∃ waitTime, s.pc worker = .calling waitTime ∧ platform.timeout waitTime ≠ 0 := by
  have goes := stuck (.work worker .go) rfl
  have takes := stuck (.work worker .packet) rfl
  cases here : s.pc worker with
  | polled => simp [State.step, State.work, here] at goes
  | calling waitTime =>
      have nothing : s.posted = 0 := by
        cases posted : s.posted with
        | zero => rfl
        | succ count => simp [State.step, State.work, here, posted] at takes
      refine ⟨nothing, waitTime, rfl, fun atOnce => ?_⟩
      simp [State.step, State.work, here, atOnce, nothing] at goes
  | _ =>
      rw [here] at calls
      cases calls

/-- Three workers call `run`.  One executes the only task; one has found it in `m_tasks`,
so that it is to wait for no time; and one has found `m_tasks` empty and waits a second. -/
def alone : List (Label (Fin 3)) :=
  [.spawn, .work 0 (.poll [] .zero), .work 1 (.poll [] .zero), .work 2 (.poll [] .zero),
    .work 0 .go, .work 1 .go, .work 0 .go, .work 0 .go, .work 0 .go, .work 2 .go,
    .work 0 (.returns .done)]

/-- The worker that has executed the task leaves, and so does the one that does not wait. -/
def leaves : List (Label (Fin 3)) :=
  [.work 1 .go, .work 0 .go, .work 0 (.poll [] .zero), .work 0 .go,
    .work 1 .go, .work 1 .go, .work 1 (.poll [] .zero), .work 1 .go]

/-- A packet wakes the one that waits. -/
def follows : List (Label (Fin 3)) :=
  [.work 2 .packet, .work 2 .go, .work 2 .go, .work 2 (.poll [] .zero), .work 2 .go]

/-- The places of the three workers when the task is done. -/
structure Done (s : State (Fin 3)) : Prop where
  active : s.active = ∅
  tasks : s.tasks = []
  executes : s.pc 0 = .processing
  atOnce : s.pc 1 = .calling .zero
  later : s.pc 2 = .calling .second

theorem Done.quiet {s : State (Fin 3)} (done : Done s) : Quiet s where
  active := done.active
  tasks := done.tasks
  outside worker task here := by
    match worker with
    | 0 => cases done.executes.symm.trans here
    | 1 => cases done.atOnce.symm.trans here
    | 2 => cases done.later.symm.trans here

/-- The worker waits in `m_completion_object.run`, or is about to, with these ready tasks. -/
def Pc.waits (platform : Platform) (tasks : List TaskId) : Pc → Prop
  | .polled delay => platform.timeout (MachinePool.runWaitTime tasks delay) ≠ 0
  | .calling waitTime => platform.timeout waitTime ≠ 0
  | _ => False

end Leaving
end Cppio
