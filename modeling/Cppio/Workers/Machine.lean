import Cppio.Library.Machine
import Cppio.Reactor.Epoll
import Cppio.Reactor.TimerPool
import Mathlib.Data.Finset.Basic
import Mathlib.Logic.Function.Basic

/-!
# Several workers on one reactor

The threads that run `basic_reactor::run`, step by atomic step.  A worker's
place in the code is its `Pc`.  What a resumed coroutine computes is left open:
between two suspensions it may start any operation, await a child, spawn, or
finish, so the runs of the machine include those of every set of coroutines.
Undefined behaviour and failed assertions stop the machine.
-/

namespace Cppio
namespace Workers

/-- A coroutine, as the threads see it. -/
inductive Coroutine
  | suspended
  | running
  | finished
  deriving DecidableEq

/-- The loop that calls `wake()`: that of `get_delay` or that of `epoll::run`. -/
inductive Source
  | timers (poll : Poll TaskId)
  | events

/-- Where a worker is. -/
inductive Pc (Key : Type)
  /-- At the loop test of `run`. -/
  | head
  /-- In a loop of `wake()` calls; `stored` has its `kRun` but is not yet scheduled. -/
  | waking (stored : Option TaskId) (rest : List TaskId) (source : Source)
  /-- `get_delay` has returned. -/
  | polled (poll : Poll TaskId)
  /-- About to call `m_completion_object.run(wait_time)`, or in that call. -/
  | calling (waitTime : Int)
  /-- `m_completion_object.run` has returned. -/
  | completed
  /-- At the loop test of `process_tasks`. -/
  | processing
  /-- Before the `is_waiting()` of `process_tasks`. -/
  | popped (task : TaskId)
  /-- Before the assertion of `one_step`. -/
  | entered (task : TaskId)
  /-- Before the test of the inner loop of `one_step`. -/
  | walking (task : TaskId)
  /-- Before `curr.resume()`. -/
  | resuming (task : TaskId)
  /-- In the coroutine; `steps` are left before it suspends. -/
  | executing (task : TaskId) (steps : Option (List (ParkStep Key)))
  /-- `curr.resume()` has returned, before `curr.done()`. -/
  | suspended (task : TaskId)
  /-- Before `one_step` reads `m_state`. -/
  | checked (task : TaskId)
  /-- `one_step` has returned. -/
  | returned (task : TaskId) (result : ScheduleType)
  /-- `run` has returned. -/
  | exited

/-- The tasks for which the worker is going to call `wake()`. -/
def Pc.wakes {Key : Type} : Pc Key → List TaskId
  | .waking _ rest _ => rest
  | _ => []

/-- The reactor, its tasks and its workers. -/
structure State (Worker Key : Type) where
  /-- How many tasks `spawn` was given. -/
  spawned : Nat
  /-- `m_state`. -/
  state : TaskId → ScheduleType
  coroutine : TaskId → Coroutine
  /-- Whether an event was reported since the task was last handed over. -/
  delivered : TaskId → Bool
  /-- `m_tasks`. -/
  tasks : List TaskId
  /-- `m_active_tasks`. -/
  active : Finset TaskId
  /-- `m_timers`. -/
  timers : TimerPool TaskId
  /-- The lock of `m_timers`. -/
  timersLock : Bool
  /-- `m_completion_object`. -/
  epoll : Epoll Key
  /-- `m_running`. -/
  running : Bool
  /-- Undefined behaviour or a failed assertion. -/
  undefined : Bool
  pc : Worker → Pc Key

/-- What is not the machine's own choice in a worker's step. -/
inductive Choice (Key : Type)
  | go
  | clock (now : Int)
  | report (events : List (Registration Key))
  | start (operation : Operation Key)
  | awaitChild
  | spawn
  | childReturns
  | finish
  | park (succeeds : Bool) (now : Int)

/-- A step of a worker, or of a thread that is none. -/
inductive Label (Worker Key : Type)
  | work (worker : Worker) (choice : Choice Key)
  | spawn
  | stop
  | close (key : Key)

namespace State

variable {Worker Key : Type} [DecidableEq Worker] [DecidableEq Key]

/-- A reactor without tasks. -/
def initial : State Worker Key where
  spawned := 0
  state _ := .run
  coroutine _ := .suspended
  delivered _ := false
  tasks := []
  active := ∅
  timers := TimerPool.empty
  timersLock := false
  epoll := Epoll.empty
  running := true
  undefined := false
  pc _ := .head

/-- The worker goes on at another place. -/
def goto (s : State Worker Key) (worker : Worker) (pc : Pc Key) : State Worker Key :=
  { s with pc := Function.update s.pc worker pc }

/-- The machine stops. -/
def crash (s : State Worker Key) : State Worker Key :=
  { s with undefined := true }

/-- `m_state = state`. -/
def setState (s : State Worker Key) (task : TaskId) (state : ScheduleType) : State Worker Key :=
  { s with state := Function.update s.state task state }

def setCoroutine (s : State Worker Key) (task : TaskId) (coroutine : Coroutine) :
    State Worker Key :=
  { s with coroutine := Function.update s.coroutine task coroutine }

/-- `abstract_reactor::schedule`. -/
def schedule (s : State Worker Key) (task : TaskId) : State Worker Key :=
  { s with tasks := s.tasks ++ [task] }

/-- `abstract_reactor::spawn`, with its `add`. -/
def spawn (s : State Worker Key) : State Worker Key :=
  { s with
    spawned := s.spawned + 1
    tasks := s.tasks ++ [s.spawned]
    active := insert s.spawned s.active }

/-- One step of an operation on its way to suspension. -/
def parkStep
    (s : State Worker Key)
    (task : TaskId)
    (succeeds : Bool)
    (now : Int) : ParkStep Key → Option (State Worker Key)
  | .wait => some (s.setState task .wait)
  | .register interest key =>
      some { s with
        epoll := if succeeds then s.epoll.add ⟨key, interest, task⟩ else s.epoll
        delivered := Function.update s.delivered task false }
  | .startTimer delay =>
      if s.timersLock then none
      else
        some { s with
          timers := s.timers.add now delay task
          delivered := Function.update s.delivered task false }

/-- The events of one `epoll_wait`. -/
def report (s : State Worker Key) (events : List (Registration Key)) : State Worker Key :=
  { s with
    epoll := s.epoll.disarm events
    delivered := fun task =>
      s.delivered task || decide (task ∈ events.map Registration.task) }

/-- The wait time of `run` after its test. -/
def waitTime (s : State Worker Key) (poll : Poll TaskId) : Int :=
  if s.tasks = [] ∧ poll.waitTime = 0 then second else poll.waitTime

/-- A worker's next step. -/
def work (s : State Worker Key) (worker : Worker) (choice : Choice Key) :
    Option (State Worker Key) :=
  match s.pc worker, choice with
  | .head, .clock now =>
      if s.active = ∅ then some (s.goto worker .exited)
      else if s.timersLock then none
      else
        let poll := s.timers.getDelay now
        some ({ s with timers := poll.pool, timersLock := true }.goto worker
          (.waking none poll.woken (.timers poll)))
  | .waking none (task :: rest) source, .go =>
      some ((s.setState task .run).goto worker (.waking (some task) rest source))
  | .waking (some task) rest source, .go =>
      some ((s.schedule task).goto worker (.waking none rest source))
  | .waking none [] (.timers poll), .go =>
      some ({ s with timersLock := false }.goto worker (.polled poll))
  | .waking none [] .events, .go => some (s.goto worker .completed)
  | .polled poll, .go => some (s.goto worker (.calling (s.waitTime poll)))
  | .calling _, .report events =>
      if s.epoll.CanReport events then
        some ((s.report events).goto worker
          (.waking none (events.map Registration.task) .events))
      else none
  | .completed, .go => some (s.goto worker (if s.running then .processing else .exited))
  | .processing, .go =>
      match s.tasks with
      | [] => some (s.goto worker .head)
      | task :: rest => some ({ s with tasks := rest }.goto worker (.popped task))
  | .popped task, .go =>
      some (s.goto worker (if s.state task = .wait then .processing else .entered task))
  | .entered task, .go =>
      if s.state task = .wait then some s.crash
      else some (s.goto worker (.walking task))
  | .walking task, .go =>
      match s.coroutine task with
      | .running => some s.crash
      | .finished => some (s.goto worker (.returned task .done))
      | .suspended =>
          some (s.goto worker
            (if s.state task = .wait then .suspended task else .resuming task))
  | .resuming task, .go =>
      if s.coroutine task = .suspended then
        some ((s.setCoroutine task .running).goto worker (.executing task none))
      else some s.crash
  | .executing task none, .start operation =>
      some (s.goto worker (.executing task (some operation.parkSteps)))
  | .executing task none, .awaitChild => some (s.goto worker (.executing task (some [])))
  | .executing _ none, .spawn => some s.spawn
  | .executing task none, .childReturns =>
      if s.state task = .wait then
        some ((s.setCoroutine task .suspended).goto worker (.suspended task))
      else some s
  | .executing task none, .finish =>
      some ((s.setCoroutine task .finished).goto worker (.returned task .done))
  | .executing task (some (step :: rest)), .park succeeds now =>
      (s.parkStep task succeeds now step).map fun next =>
        next.goto worker (.executing task (some rest))
  | .executing task (some []), .go =>
      some ((s.setCoroutine task .suspended).goto worker (.suspended task))
  | .suspended task, .go =>
      match s.coroutine task with
      | .running => some s.crash
      | .finished => some (s.goto worker (.returned task .done))
      | .suspended => some (s.goto worker (.checked task))
  | .checked task, .go => some (s.goto worker (.returned task (s.state task)))
  | .returned task .run, .go => some ((s.schedule task).goto worker .processing)
  | .returned task .done, .go =>
      some ({ s with active := s.active.erase task }.goto worker .processing)
  | .returned _ .wait, .go => some (s.goto worker .processing)
  | _, _ => none

omit [DecidableEq Worker] in
/-- A park step moves no worker and schedules nothing. -/
theorem parkStep_frame
    {s next : State Worker Key} {task : TaskId} {succeeds : Bool} {now : Int}
    {step : ParkStep Key}
    (parked : s.parkStep task succeeds now step = some next) :
    next.pc = s.pc ∧ next.tasks = s.tasks ∧ next.coroutine = s.coroutine ∧
      next.spawned = s.spawned ∧ next.undefined = s.undefined := by
  cases step with
  | wait =>
      obtain rfl := Option.some.inj parked
      exact ⟨rfl, rfl, rfl, rfl, rfl⟩
  | register interest key =>
      obtain rfl := Option.some.inj parked
      exact ⟨rfl, rfl, rfl, rfl, rfl⟩
  | startTimer delay =>
      simp only [parkStep] at parked
      split_ifs at parked
      obtain rfl := Option.some.inj parked
      exact ⟨rfl, rfl, rfl, rfl, rfl⟩

/-- One step of the machine. -/
def step (s : State Worker Key) : Label Worker Key → Option (State Worker Key)
  | .work worker choice => if s.undefined then none else s.work worker choice
  | .spawn => if s.undefined then none else some s.spawn
  | .stop => if s.undefined then none else some { s with running := false }
  | .close key =>
      if s.undefined then none else some { s with epoll := s.epoll.forget key }

end State

variable {Worker Key : Type} [DecidableEq Worker] [DecidableEq Key]

/-- The steps of a worker, one constructor for each transition. -/
inductive Moves (s : State Worker Key) (worker : Worker) :
    Choice Key → State Worker Key → Prop
  | exit (here : s.pc worker = .head) (noTask : s.active = ∅) (now : Int) :
      Moves s worker (.clock now) (s.goto worker .exited)
  | poll (here : s.pc worker = .head) (unlocked : s.timersLock = false) (now : Int) :
      Moves s worker (.clock now)
        ({ s with timers := (s.timers.getDelay now).pool, timersLock := true }.goto worker
          (.waking none (s.timers.getDelay now).woken (.timers (s.timers.getDelay now))))
  | store {task rest source} (here : s.pc worker = .waking none (task :: rest) source) :
      Moves s worker .go ((s.setState task .run).goto worker (.waking (some task) rest source))
  | push {task rest source} (here : s.pc worker = .waking (some task) rest source) :
      Moves s worker .go ((s.schedule task).goto worker (.waking none rest source))
  | unlock {poll} (here : s.pc worker = .waking none [] (.timers poll)) :
      Moves s worker .go ({ s with timersLock := false }.goto worker (.polled poll))
  | complete (here : s.pc worker = .waking none [] .events) :
      Moves s worker .go (s.goto worker .completed)
  | test {poll} (here : s.pc worker = .polled poll) :
      Moves s worker .go (s.goto worker (.calling (s.waitTime poll)))
  | report {waitTime} (here : s.pc worker = .calling waitTime)
      {events : List (Registration Key)} (possible : s.epoll.CanReport events) :
      Moves s worker (.report events) ((s.report events).goto worker
        (.waking none (events.map Registration.task) .events))
  | enter (here : s.pc worker = .completed) (running : s.running = true) :
      Moves s worker .go (s.goto worker .processing)
  | leave (here : s.pc worker = .completed) (stopped : s.running = false) :
      Moves s worker .go (s.goto worker .exited)
  | idle (here : s.pc worker = .processing) (noTask : s.tasks = []) :
      Moves s worker .go (s.goto worker .head)
  | pop {task rest} (here : s.pc worker = .processing) (first : s.tasks = task :: rest) :
      Moves s worker .go ({ s with tasks := rest }.goto worker (.popped task))
  | drop {task} (here : s.pc worker = .popped task) (waiting : s.state task = .wait) :
      Moves s worker .go (s.goto worker .processing)
  | call {task} (here : s.pc worker = .popped task) (runs : s.state task ≠ .wait) :
      Moves s worker .go (s.goto worker (.entered task))
  | failAssertion {task} (here : s.pc worker = .entered task) (waiting : s.state task = .wait) :
      Moves s worker .go s.crash
  | walk {task} (here : s.pc worker = .entered task) (runs : s.state task ≠ .wait) :
      Moves s worker .go (s.goto worker (.walking task))
  | walkRunning {task} (here : s.pc worker = .walking task)
      (isRunning : s.coroutine task = .running) :
      Moves s worker .go s.crash
  | walkFinished {task} (here : s.pc worker = .walking task)
      (isFinished : s.coroutine task = .finished) :
      Moves s worker .go (s.goto worker (.returned task .done))
  | walkWaiting {task} (here : s.pc worker = .walking task)
      (isSuspended : s.coroutine task = .suspended) (waiting : s.state task = .wait) :
      Moves s worker .go (s.goto worker (.suspended task))
  | walkReady {task} (here : s.pc worker = .walking task)
      (isSuspended : s.coroutine task = .suspended) (runs : s.state task ≠ .wait) :
      Moves s worker .go (s.goto worker (.resuming task))
  | resume {task} (here : s.pc worker = .resuming task)
      (isSuspended : s.coroutine task = .suspended) :
      Moves s worker .go ((s.setCoroutine task .running).goto worker (.executing task none))
  | resumeTwice {task} (here : s.pc worker = .resuming task)
      (notSuspended : s.coroutine task ≠ .suspended) :
      Moves s worker .go s.crash
  | start {task} (here : s.pc worker = .executing task none) (operation : Operation Key) :
      Moves s worker (.start operation) (s.goto worker (.executing task (some operation.parkSteps)))
  | awaitChild {task} (here : s.pc worker = .executing task none) :
      Moves s worker .awaitChild (s.goto worker (.executing task (some [])))
  | spawn {task} (here : s.pc worker = .executing task none) :
      Moves s worker .spawn s.spawn
  | childWaits {task} (here : s.pc worker = .executing task none)
      (waiting : s.state task = .wait) :
      Moves s worker .childReturns ((s.setCoroutine task .suspended).goto worker (.suspended task))
  | childReturns {task} (here : s.pc worker = .executing task none)
      (runs : s.state task ≠ .wait) :
      Moves s worker .childReturns s
  | finish {task} (here : s.pc worker = .executing task none) :
      Moves s worker .finish ((s.setCoroutine task .finished).goto worker (.returned task .done))
  | park {task step rest next} (here : s.pc worker = .executing task (some (step :: rest)))
      {succeeds : Bool} {now : Int} (parked : s.parkStep task succeeds now step = some next) :
      Moves s worker (.park succeeds now) (next.goto worker (.executing task (some rest)))
  | suspend {task} (here : s.pc worker = .executing task (some [])) :
      Moves s worker .go ((s.setCoroutine task .suspended).goto worker (.suspended task))
  | checkRunning {task} (here : s.pc worker = .suspended task)
      (isRunning : s.coroutine task = .running) :
      Moves s worker .go s.crash
  | checkFinished {task} (here : s.pc worker = .suspended task)
      (isFinished : s.coroutine task = .finished) :
      Moves s worker .go (s.goto worker (.returned task .done))
  | check {task} (here : s.pc worker = .suspended task)
      (isSuspended : s.coroutine task = .suspended) :
      Moves s worker .go (s.goto worker (.checked task))
  | load {task} (here : s.pc worker = .checked task) :
      Moves s worker .go (s.goto worker (.returned task (s.state task)))
  | requeue {task} (here : s.pc worker = .returned task .run) :
      Moves s worker .go ((s.schedule task).goto worker .processing)
  | erase {task} (here : s.pc worker = .returned task .done) :
      Moves s worker .go ({ s with active := s.active.erase task }.goto worker .processing)
  | dismiss {task} (here : s.pc worker = .returned task .wait) :
      Moves s worker .go (s.goto worker .processing)

/-- The transitions are all that a worker's step can do. -/
theorem moves_of_work
    {s next : State Worker Key} {worker : Worker} {choice : Choice Key}
    (worked : s.work worker choice = some next) :
    Moves s worker choice next := by
  unfold State.work at worked
  split at worked
  · next now here =>
      split_ifs at worked with noTask locked
      · obtain rfl := Option.some.inj worked
        exact Moves.exit here noTask now
      · obtain rfl := Option.some.inj worked
        exact Moves.poll here (Bool.eq_false_iff.mpr locked) now
  · next here =>
      obtain rfl := Option.some.inj worked
      exact Moves.store here
  · next here =>
      obtain rfl := Option.some.inj worked
      exact Moves.push here
  · next here =>
      obtain rfl := Option.some.inj worked
      exact Moves.unlock here
  · next here =>
      obtain rfl := Option.some.inj worked
      exact Moves.complete here
  · next here =>
      obtain rfl := Option.some.inj worked
      exact Moves.test here
  · next here =>
      split_ifs at worked with possible
      obtain rfl := Option.some.inj worked
      exact Moves.report here possible
  · next here =>
      obtain rfl := Option.some.inj worked
      split_ifs with running
      · exact Moves.enter here running
      · exact Moves.leave here (Bool.eq_false_iff.mpr running)
  · next here =>
      split at worked
      · next noTask =>
          obtain rfl := Option.some.inj worked
          exact Moves.idle here noTask
      · next first =>
          obtain rfl := Option.some.inj worked
          exact Moves.pop here first
  · next here =>
      obtain rfl := Option.some.inj worked
      split_ifs with waiting
      · exact Moves.drop here waiting
      · exact Moves.call here waiting
  · next here =>
      split_ifs at worked with waiting
      · obtain rfl := Option.some.inj worked
        exact Moves.failAssertion here waiting
      · obtain rfl := Option.some.inj worked
        exact Moves.walk here waiting
  · next here =>
      split at worked
      · next isRunning =>
          obtain rfl := Option.some.inj worked
          exact Moves.walkRunning here isRunning
      · next isFinished =>
          obtain rfl := Option.some.inj worked
          exact Moves.walkFinished here isFinished
      · next isSuspended =>
          obtain rfl := Option.some.inj worked
          split_ifs with waiting
          · exact Moves.walkWaiting here isSuspended waiting
          · exact Moves.walkReady here isSuspended waiting
  · next here =>
      split_ifs at worked with isSuspended
      · obtain rfl := Option.some.inj worked
        exact Moves.resume here isSuspended
      · obtain rfl := Option.some.inj worked
        exact Moves.resumeTwice here isSuspended
  · next operation here =>
      obtain rfl := Option.some.inj worked
      exact Moves.start here operation
  · next here =>
      obtain rfl := Option.some.inj worked
      exact Moves.awaitChild here
  · next here =>
      obtain rfl := Option.some.inj worked
      exact Moves.spawn here
  · next here =>
      split_ifs at worked with waiting
      · obtain rfl := Option.some.inj worked
        exact Moves.childWaits here waiting
      · obtain rfl := Option.some.inj worked
        exact Moves.childReturns here waiting
  · next here =>
      obtain rfl := Option.some.inj worked
      exact Moves.finish here
  · next here =>
      obtain ⟨middle, parked, rfl⟩ := Option.map_eq_some_iff.mp worked
      exact Moves.park here parked
  · next here =>
      obtain rfl := Option.some.inj worked
      exact Moves.suspend here
  · next here =>
      split at worked
      · next isRunning =>
          obtain rfl := Option.some.inj worked
          exact Moves.checkRunning here isRunning
      · next isFinished =>
          obtain rfl := Option.some.inj worked
          exact Moves.checkFinished here isFinished
      · next isSuspended =>
          obtain rfl := Option.some.inj worked
          exact Moves.check here isSuspended
  · next here =>
      obtain rfl := Option.some.inj worked
      exact Moves.load here
  · next here =>
      obtain rfl := Option.some.inj worked
      exact Moves.requeue here
  · next here =>
      obtain rfl := Option.some.inj worked
      exact Moves.erase here
  · next here =>
      obtain rfl := Option.some.inj worked
      exact Moves.dismiss here
  · cases worked

/-- One step of the machine is a transition of a worker or a step from outside. -/
theorem step_cases
    {s next : State Worker Key} {label : Label Worker Key}
    (stepped : s.step label = some next) :
    (∃ worker choice, label = .work worker choice ∧ Moves s worker choice next) ∨
      (label = .spawn ∧ next = s.spawn) ∨
      (label = .stop ∧ next = { s with running := false }) ∨
      ∃ key, label = .close key ∧ next = { s with epoll := s.epoll.forget key } := by
  cases label with
  | work worker choice =>
      simp only [State.step] at stepped
      split_ifs at stepped
      exact Or.inl ⟨worker, choice, rfl, moves_of_work stepped⟩
  | spawn =>
      simp only [State.step] at stepped
      split_ifs at stepped
      exact Or.inr (Or.inl ⟨rfl, (Option.some.inj stepped).symm⟩)
  | stop =>
      simp only [State.step] at stepped
      split_ifs at stepped
      exact Or.inr (Or.inr (Or.inl ⟨rfl, (Option.some.inj stepped).symm⟩))
  | close key =>
      simp only [State.step] at stepped
      split_ifs at stepped
      exact Or.inr (Or.inr (Or.inr ⟨key, rfl, (Option.some.inj stepped).symm⟩))

/-- The task into which the step stores the `kRun` of a `wake()`. -/
def wakes (s : State Worker Key) : Label Worker Key → Option TaskId
  | .work worker _ =>
      match s.pc worker with
      | .waking none (task :: _) _ => some task
      | _ => none
  | _ => none

omit [DecidableEq Worker] [DecidableEq Key] in
theorem wakes_eq_some
    {s : State Worker Key} {label : Label Worker Key} {task : TaskId} :
    wakes s label = some task ↔
      ∃ worker choice rest source, label = .work worker choice ∧
        s.pc worker = .waking none (task :: rest) source := by
  constructor
  · intro stores
    cases label with
    | work worker choice =>
        simp only [wakes] at stores
        split at stores
        · next here =>
            obtain rfl := Option.some.inj stores
            exact ⟨worker, choice, _, _, rfl, here⟩
        · cases stores
    | _ => cases stores
  · rintro ⟨worker, choice, rest, source, rfl, here⟩
    simp only [wakes, here]

/-! ## Parts of runs -/

/-- The worker starts a round of `run`. -/
def startRound {Worker : Type} (worker : Worker) : List (Label Worker Nat) :=
  [.work worker (.clock 0), .work worker .go, .work worker .go]

/-- The worker gets from its call of `epoll::run`, without an event, to the
coroutine of the first task. -/
def intoCoroutine {Worker : Type} (worker : Worker) : List (Label Worker Nat) :=
  [.work worker (.report []), .work worker .go, .work worker .go, .work worker .go,
    .work worker .go, .work worker .go, .work worker .go, .work worker .go]

/-- The worker gets from a suspended coroutine back to `process_tasks`. -/
def outOfCoroutine {Worker : Type} (worker : Worker) : List (Label Worker Nat) :=
  [.work worker .go, .work worker .go, .work worker .go, .work worker .go]

end Workers
end Cppio
