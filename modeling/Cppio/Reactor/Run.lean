import Cppio.Library.Machine
import Cppio.Reactor.Epoll
import Cppio.Reactor.Operations
import Cppio.Reactor.TimerPool
import Mathlib.Data.Finset.Basic
import Mathlib.Tactic.SplitIfs

/-!
# A reactor with one worker

`basic_reactor::run` and `process_tasks` on one thread.  A task step is one call
of `one_step` on the coroutines of the task.  The answers of system calls, what
the program does apart from the reactor, clock readings and reported events come
from outside, and so do the spawns of other threads.
-/

namespace Cppio

/-- What other threads and the kernel do to a reactor. -/
inductive Deed (User Key : Type)
  | spawn (start : Start User)
  /-- The kernel drops the registration of a closed descriptor. -/
  | close (key : Key)
  /-- `~basic_reactor`. -/
  | stop

/-- The program and its surroundings.  An effect may be accompanied by deeds of
other threads. -/
structure Surroundings (User Own Local Key Outside : Type) where
  program : User → UserInstr User Own Local
  syscall : Syscall → Outside → Answer × List (Deed User Key) × Outside
  perform : Local → Outside → Own × List (Deed User Key) × Outside
  /-- `epoll_ctl`, which fails or finds the descriptor's entry. -/
  epollCtl : Outside → SocketT → Option Key
  /-- `high_resolution_clock::now()`. -/
  now : Outside → Int

/-- Where the worker is. -/
inductive RunPc
  /-- At the loop test of `run`. -/
  | head
  /-- About to call `m_completion_object.run(wait_time)`. -/
  | calling (waitTime : Int)
  /-- At the test of `m_running`. -/
  | completed
  /-- At the loop test of `process_tasks`. -/
  | processing
  /-- `run` has returned. -/
  | returned
  deriving DecidableEq

/-- A `basic_reactor`, with its tasks. -/
structure Reactor (User Own Key Outside : Type) where
  /-- How many tasks `spawn` was given. -/
  spawned : Nat
  frames : TaskId → Frames (Code User Own) (Result Own)
  /-- `m_state`. -/
  state : TaskId → ScheduleType
  /-- `success` of the task's `basic_overlapped`. -/
  success : TaskId → Bool
  /-- `m_tasks`. -/
  tasks : List TaskId
  /-- `m_active_tasks`. -/
  active : Finset TaskId
  /-- `m_timers`. -/
  timers : TimerPool TaskId
  /-- `m_completion_object`. -/
  epoll : Epoll Key
  /-- `m_running`. -/
  running : Bool
  outside : Outside
  /-- Undefined behaviour or a failed assertion. -/
  undefined : Bool
  pc : RunPc

namespace Reactor

variable {User Own Local Key Outside : Type} [DecidableEq Key]

/-- A reactor without tasks. -/
def initial (outside : Outside) : Reactor User Own Key Outside where
  spawned := 0
  frames _ := { next := 0, frame := fun _ => none }
  state _ := .run
  success _ := false
  tasks := []
  active := ∅
  timers := TimerPool.empty
  epoll := Epoll.empty
  running := true
  outside := outside
  undefined := false
  pc := .returned

/-- `m_state = state`. -/
def setState (s : Reactor User Own Key Outside) (task : TaskId) (state : ScheduleType) :
    Reactor User Own Key Outside :=
  { s with state := Function.update s.state task state }

def setSuccess (s : Reactor User Own Key Outside) (task : TaskId) (success : Bool) :
    Reactor User Own Key Outside :=
  { s with success := Function.update s.success task success }

def setFrames
    (s : Reactor User Own Key Outside)
    (task : TaskId)
    (frames : Frames (Code User Own) (Result Own)) : Reactor User Own Key Outside :=
  { s with frames := Function.update s.frames task frames }

/-- `abstract_reactor::schedule`. -/
def schedule (s : Reactor User Own Key Outside) (task : TaskId) : Reactor User Own Key Outside :=
  { s with tasks := s.tasks ++ [task] }

/-- `basic_task::wake`. -/
def wake (s : Reactor User Own Key Outside) (task : TaskId) : Reactor User Own Key Outside :=
  (s.setState task .run).schedule task

/-- `abstract_reactor::spawn`, with its `add`. -/
def spawn (s : Reactor User Own Key Outside) (start : Start User) :
    Reactor User Own Key Outside :=
  { s.setFrames s.spawned (Frames.ofCode start.code) with
    spawned := s.spawned + 1
    tasks := s.tasks ++ [s.spawned]
    active := insert s.spawned s.active }

def deed (s : Reactor User Own Key Outside) : Deed User Key → Reactor User Own Key Outside
  | .spawn start => s.spawn start
  | .close key => { s with epoll := s.epoll.forget key }
  | .stop => { s with running := false }

/-- The effects of a task's coroutines. -/
def perform
    (surroundings : Surroundings User Own Local Key Outside)
    (task : TaskId)
    (effect : Effect User Local)
    (s : Reactor User Own Key Outside) :
    effect.Reply Own × Reactor User Own Key Outside :=
  match effect with
  | .syscall call =>
      let (answer, deeds, outside) := surroundings.syscall call s.outside
      (answer, deeds.foldl deed { s with outside := outside })
  | .overlapped => ((), s.setSuccess task false)
  | .success => (s.success task, s)
  | .register interest sock =>
      ((), match surroundings.epollCtl s.outside sock with
        | some key => { s with epoll := s.epoll.add ⟨key, interest, task⟩ }
        | none => s)
  | .startTimer delay =>
      ((), { s with timers := s.timers.add (surroundings.now s.outside) delay task })
  | .perform effect =>
      let (value, deeds, outside) := surroundings.perform effect s.outside
      (value, deeds.foldl deed { s with outside := outside })
  | .spawn start => ((), s.spawn start)

/-- The coroutines of a task in the reactor. -/
def system (surroundings : Surroundings User Own Local Key Outside) (task : TaskId) :
    System (Code User Own) (Effect User Local) (Result Own) (Reactor User Own Key Outside)
      (Effect.Reply Own) where
  body := Code.instr surroundings.program
  perform := perform surroundings task
  state s := s.state task
  wait s := s.setState task .wait
  observe _ s := s

/-- `m_tasks.pop_front()`. -/
def popFront (s : Reactor User Own Key Outside) : Reactor User Own Key Outside :=
  { s with tasks := s.tasks.tail }

def goto (s : Reactor User Own Key Outside) (pc : RunPc) : Reactor User Own Key Outside :=
  { s with pc := pc }

/-- What `process_tasks` does with the result of `one_step`. -/
def settle (s : Reactor User Own Key Outside) (task : TaskId) :
    ScheduleType → Reactor User Own Key Outside
  | .run => s.schedule task
  | .done => { s with active := s.active.erase task }
  | .wait => s

/-- One round of `process_tasks`, with the task that it has popped. -/
def process
    (surroundings : Surroundings User Own Local Key Outside)
    (fuel : Nat)
    (task : TaskId)
    (s : Reactor User Own Key Outside) : Option (Reactor User Own Key Outside) :=
  if s.state task = .wait then some (s.settle task .wait)
  else
    match (system surroundings task).oneStep fuel (s.frames task) s with
    | .ok (result, frames, s) => some ((s.setFrames task frames).settle task result)
    | .error .outOfFuel => none
    | .error .undefined => some { s with undefined := true }

/-- `m_timers.get_delay()` and the test of its result. -/
def poll (s : Reactor User Own Key Outside) (now : Int) : Reactor User Own Key Outside :=
  let polled := s.timers.getDelay now
  let s := polled.woken.foldl wake { s with timers := polled.pool }
  s.goto (.calling (if s.tasks = [] ∧ polled.waitTime = 0 then second else polled.waitTime))

/-- One round of the loop of `epoll::run`, with whether the event carries no error. -/
def deliver (s : Reactor User Own Key Outside) (event : Registration Key × Bool) :
    Reactor User Own Key Outside :=
  (s.setSuccess event.1.task event.2).wake event.1.task

/-- `epoll::run`. -/
def complete (s : Reactor User Own Key Outside) (events : List (Registration Key × Bool)) :
    Reactor User Own Key Outside :=
  events.foldl deliver { s with epoll := s.epoll.disarm (events.map Prod.fst) }

/-- A step of the worker, a deed of another thread, or a change outside. -/
inductive Label (User Key Outside : Type)
  /-- `run` is called. -/
  | call
  | test
  | complete (events : List (Registration Key × Bool))
  | proceed
  | process (fuel : Nat)
  | deed (deed : Deed User Key)
  | outside (outside : Outside)

/-- One step of the machine. -/
def step
    (surroundings : Surroundings User Own Local Key Outside)
    (s : Reactor User Own Key Outside)
    (label : Label User Key Outside) : Option (Reactor User Own Key Outside) :=
  if s.undefined then none
  else
    match s.pc, label with
    | .returned, .call => some (s.goto .head)
    | .head, .test =>
        if s.active = ∅ then some (s.goto .returned)
        else some (s.poll (surroundings.now s.outside))
    | .calling _, .complete events =>
        if s.epoll.CanReport (events.map Prod.fst) then
          some ((s.complete events).goto .completed)
        else none
    | .completed, .proceed =>
        some (s.goto (if s.running then .processing else .returned))
    | .processing, .process fuel =>
        match s.tasks with
        | [] => some (s.goto .head)
        | task :: _ => s.popFront.process surroundings fuel task
    | _, .deed deed => some (s.deed deed)
    | _, .outside outside => some { s with outside := outside }
    | _, _ => none

/-- The transitions of the machine. -/
inductive Moves
    (surroundings : Surroundings User Own Local Key Outside) (s : Reactor User Own Key Outside) :
    Label User Key Outside → Reactor User Own Key Outside → Prop
  | call (here : s.pc = .returned) : Moves surroundings s .call (s.goto .head)
  | exit (here : s.pc = .head) (noTask : s.active = ∅) :
      Moves surroundings s .test (s.goto .returned)
  | poll (here : s.pc = .head) :
      Moves surroundings s .test (s.poll (surroundings.now s.outside))
  | complete {waitTime : Int} {events : List (Registration Key × Bool)}
      (here : s.pc = .calling waitTime)
      (possible : s.epoll.CanReport (events.map Prod.fst)) :
      Moves surroundings s (.complete events) ((s.complete events).goto .completed)
  | proceed (here : s.pc = .completed) (running : s.running = true) :
      Moves surroundings s .proceed (s.goto .processing)
  | leave (here : s.pc = .completed) (stopped : s.running = false) :
      Moves surroundings s .proceed (s.goto .returned)
  | idle (here : s.pc = .processing) (noTask : s.tasks = []) (fuel : Nat) :
      Moves surroundings s (.process fuel) (s.goto .head)
  | round {task : TaskId} {rest : List TaskId} {fuel : Nat} {next : Reactor User Own Key Outside}
      (here : s.pc = .processing) (first : s.tasks = task :: rest)
      (processed : s.popFront.process surroundings fuel task = some next) :
      Moves surroundings s (.process fuel) next
  | deed (deed : Deed User Key) : Moves surroundings s (.deed deed) (s.deed deed)
  | outside (outside : Outside) :
      Moves surroundings s (.outside outside) { s with outside := outside }

theorem moves_of_step
    {surroundings : Surroundings User Own Local Key Outside}
    {s next : Reactor User Own Key Outside} {label : Label User Key Outside}
    (stepped : step surroundings s label = some next) :
    Moves surroundings s label next := by
  unfold step at stepped
  by_cases crashed : s.undefined = true
  · rw [if_pos crashed] at stepped
    cases stepped
  rw [if_neg crashed] at stepped
  split at stepped
  · next here =>
      obtain rfl := Option.some.inj stepped
      exact .call here
  · next here =>
      split_ifs at stepped with noTask
      · obtain rfl := Option.some.inj stepped
        exact .exit here noTask
      · obtain rfl := Option.some.inj stepped
        exact .poll here
  · next waitTime events here =>
      split_ifs at stepped with possible
      obtain rfl := Option.some.inj stepped
      exact .complete here possible
  · next here =>
      obtain rfl := Option.some.inj stepped
      by_cases running : s.running = true
      · rw [if_pos running]
        exact .proceed here running
      · rw [if_neg running]
        exact .leave here (Bool.eq_false_of_not_eq_true running)
  · next fuel here =>
      split at stepped
      · next noTask =>
          obtain rfl := Option.some.inj stepped
          exact .idle here noTask fuel
      · next task rest first => exact .round here first stepped
  · obtain rfl := Option.some.inj stepped
    exact .deed _
  · obtain rfl := Option.some.inj stepped
    exact .outside _
  · cases stepped

/-- The task's own coroutine has run to completion. -/
def Done (s : Reactor User Own Key Outside) (task : TaskId) : Prop :=
  ∃ value, (s.frames task).FinishedWith value

end Reactor

end Cppio
