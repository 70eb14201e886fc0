import Cppio.Network.WakeSource
import Cppio.Workers.Machine

/-!
# The runners of a reactor

`basic_reactor::run` on any number of threads, which execute the coroutines of a program
instruction by instruction.  The answers of system calls, what the program does apart
from the reactor, clock readings and reported events are part of the labels.  Undefined
behaviour, such as the use of a coroutine that another thread has resumed, and failed
assertions stop the machine.
-/

namespace Cppio
namespace Runners

open Workers (Source)

/-- Where a runner is. -/
inductive Pc (User Own : Type)
  /-- At the loop test of `run`. -/
  | head
  /-- At the loop test around the calls of `wake()`; an event comes with its `success`. -/
  | waking (rest : List (TaskId × Option Bool)) (source : Source)
  /-- Before the store of `wake()`. -/
  | storing (task : TaskId) (rest : List (TaskId × Option Bool)) (source : Source)
  /-- Before the `schedule` of `wake()`. -/
  | scheduling (task : TaskId) (rest : List (TaskId × Option Bool)) (source : Source)
  /-- `get_delay` has returned. -/
  | polled (poll : Poll TaskId)
  /-- About to call `m_completion_object.run(wait_time)`. -/
  | calling (waitTime : Int)
  /-- `m_completion_object.run` has returned. -/
  | completed
  /-- At the loop test of `process_tasks`. -/
  | processing
  /-- Before the `is_waiting()` of `process_tasks`. -/
  | popped (task : TaskId)
  /-- Before the assertion of `one_step`. -/
  | entered (task : TaskId)
  /-- At the test of `m_inner_handle` in the outer loop of `one_step`. -/
  | descending (task : TaskId) (curr : Handle)
  /-- At the test of the inner loop of `one_step`. -/
  | walking (task : TaskId) (curr : Handle)
  /-- Before `curr.resume()`. -/
  | resuming (task : TaskId) (curr : Handle)
  /-- In the coroutine. -/
  | executing (task : TaskId) (curr : Handle) (frame : Frame (Code User Own) (Result Own))
      (code : Code User Own)
  /-- `curr.resume()` has returned. -/
  | resumed (task : TaskId) (curr : Handle)
  /-- The loops of `one_step` are left. -/
  | left (task : TaskId) (curr : Handle)
  /-- Before `one_step` reads `m_state`. -/
  | checked (task : TaskId)
  /-- `one_step` has returned. -/
  | returned (task : TaskId) (result : ScheduleType)
  /-- `run` has returned. -/
  | exited

namespace Pc

variable {User Own : Type}

/-- The task whose `one_step` the runner is inside. -/
def inside : Pc User Own → Option TaskId
  | .entered task => some task
  | .descending task _ => some task
  | .walking task _ => some task
  | .resuming task _ => some task
  | .executing task _ _ _ => some task
  | .resumed task _ => some task
  | .left task _ => some task
  | .checked task => some task
  | _ => none

/-- The coroutine whose frame `one_step` looks at next. -/
def looksAt : Pc User Own → Option (TaskId × Handle)
  | .descending task curr => some (task, curr)
  | .walking task curr => some (task, curr)
  | .resuming task curr => some (task, curr)
  | .resumed task curr => some (task, curr)
  | .left task curr => some (task, curr)
  | _ => none

end Pc

/-- The reactor, its tasks and its runners. -/
structure State (Worker User Own Key : Type) where
  /-- What `spawn` was given, in this order. -/
  spawned : List (Start User)
  frames : TaskId → Frames (Code User Own) (Result Own)
  /-- The coroutines that were resumed and have not suspended. -/
  resumed : Finset (TaskId × Handle)
  /-- `m_state`. -/
  state : TaskId → ScheduleType
  /-- `success` of the task's `basic_overlapped`. -/
  success : TaskId → Bool
  /-- `m_tasks`. -/
  tasks : List TaskId
  /-- `m_active_tasks`. -/
  active : Finset TaskId
  /-- `m_timers`. -/
  timers : TimerPool TaskId
  /-- The lock of `m_timers`. -/
  timersLock : Bool
  /-- `m_completion_object`. -/
  epoll : Epoll Key
  /-- `m_running`. -/
  running : Bool
  /-- Undefined behaviour or a failed assertion. -/
  undefined : Bool
  pc : Worker → Pc User Own

/-- What is not the machine's own choice in a runner's step. -/
inductive Choice (Own Key : Type)
  | go
  | clock (now : Int)
  | report (events : List (Registration Key × Bool))
  | answer (answer : Answer)
  /-- What `epoll_ctl` returns, and the descriptor's entry. -/
  | epollCtl (ctl : EpollCtl) (key : Key)
  | value (value : Own)

/-- What the loop of `epoll::run` does for an event: whom it wakes, and its `success`. -/
def delivery {Key : Type} (event : Registration Key × Bool) : TaskId × Option Bool :=
  (event.1.task, some event.2)

/-- A step of a runner, or of a thread that is none. -/
inductive Label (Worker User Own Key : Type)
  | work (worker : Worker) (choice : Choice Own Key)
  | spawn (start : Start User)
  | stop
  | close (key : Key)

namespace State

variable {Worker User Own Local Key : Type} [DecidableEq Worker] [DecidableEq Key]

/-- A reactor without tasks. -/
def initial : State Worker User Own Key where
  spawned := []
  frames _ := { next := 0, frame := fun _ => none }
  resumed := ∅
  state _ := .run
  success _ := false
  tasks := []
  active := ∅
  timers := TimerPool.empty
  timersLock := false
  epoll := Epoll.empty
  running := true
  undefined := false
  pc _ := .head

/-- The runner goes on at another place. -/
def goto (s : State Worker User Own Key) (worker : Worker) (pc : Pc User Own) :
    State Worker User Own Key :=
  { s with pc := Function.update s.pc worker pc }

omit [DecidableEq Key] in
@[simp] theorem goto_pc (s : State Worker User Own Key) (worker : Worker) (pc : Pc User Own) :
    (s.goto worker pc).pc worker = pc := Function.update_self ..

omit [DecidableEq Key] in
theorem goto_pc_of_ne
    (s : State Worker User Own Key) {worker other : Worker} (pc : Pc User Own)
    (different : other ≠ worker) : (s.goto worker pc).pc other = s.pc other :=
  Function.update_of_ne different ..

/-- The machine stops. -/
def crash (s : State Worker User Own Key) : State Worker User Own Key :=
  { s with undefined := true }

/-- `m_state = state`. -/
def setState (s : State Worker User Own Key) (task : TaskId) (state : ScheduleType) :
    State Worker User Own Key :=
  { s with state := Function.update s.state task state }

def setSuccess (s : State Worker User Own Key) (task : TaskId) (success : Bool) :
    State Worker User Own Key :=
  { s with success := Function.update s.success task success }

def setFrames
    (s : State Worker User Own Key) (task : TaskId)
    (frames : Frames (Code User Own) (Result Own)) : State Worker User Own Key :=
  { s with frames := Function.update s.frames task frames }

/-- `abstract_reactor::schedule`. -/
def schedule (s : State Worker User Own Key) (task : TaskId) : State Worker User Own Key :=
  { s with tasks := s.tasks ++ [task] }

/-- `abstract_reactor::spawn`, with its `add`. -/
def spawn (s : State Worker User Own Key) (start : Start User) : State Worker User Own Key :=
  { s.setFrames s.spawned.length (Frames.ofCode start.code) with
    spawned := s.spawned ++ [start]
    tasks := s.tasks ++ [s.spawned.length]
    active := insert s.spawned.length s.active }

/-- The coroutine has suspended or finished, and has left these frames. -/
def suspend
    (s : State Worker User Own Key) (task : TaskId) (curr : Handle)
    (frames : Frames (Code User Own) (Result Own)) : State Worker User Own Key :=
  { s.setFrames task frames with resumed := s.resumed.erase (task, curr) }

/-- The effects of a task's coroutines. -/
def perform (s : State Worker User Own Key) (task : TaskId) :
    (effect : Effect User Local) → Choice Own Key →
      Option (effect.Outcome Own × State Worker User Own Key)
  | .syscall _, .answer answer => some (answer, s)
  | .overlapped, .go => some ((), s.setSuccess task false)
  | .success, .go => some (s.success task, s)
  | .register interest _, .epollCtl ctl key =>
      some (ctl, if ctl.armed then { s with epoll := s.epoll.add ⟨key, interest, task⟩ } else s)
  | .startTimer delay, .clock now =>
      if s.timersLock then none
      else some ((), { s with timers := s.timers.add now delay task })
  | .perform _, .value value => some (value, s)
  | .spawn start, .go => some ((), s.spawn start)
  | _, _ => none

/-- An instruction of a coroutine. -/
def execute
    (program : User → UserInstr User Own Local)
    (s : State Worker User Own Key) (worker : Worker) (task : TaskId) (curr : Handle)
    (frame : Frame (Code User Own) (Result Own)) (code : Code User Own)
    (choice : Choice Own Key) : Option (State Worker User Own Key) :=
  match code.instr program, choice with
  | .perform effect next, choice =>
      (s.perform task effect choice).map fun (outcome, s) =>
        s.goto worker (.executing task curr frame (next (effect.reply outcome)))
  | .wait next, .go =>
      some ((s.setState task .wait).goto worker (.executing task curr frame next))
  | .suspend next, .go =>
      some ((s.suspend task curr
        ((s.frames task).put curr (some { frame with point := .code next }))).goto worker
          (.resumed task curr))
  | .await child next, .go =>
      some ((s.suspend task curr ((s.frames task).await curr frame child next)).goto worker
        (.resumed task curr))
  | .ret value, .go =>
      some ((s.suspend task curr
        ((s.frames task).put curr (some { frame with value := some value, point := .final }))).goto
          worker (.resumed task curr))
  | _, _ => none

/-- What `one_step` does with a frame, which must be there and not running. -/
def look
    (s : State Worker User Own Key) (task : TaskId) (curr : Handle)
    (goesOn : Frame (Code User Own) (Result Own) → State Worker User Own Key) :
    State Worker User Own Key :=
  if (task, curr) ∈ s.resumed then s.crash
  else
    match (s.frames task).frame curr with
    | none => s.crash
    | some frame => goesOn frame

/-- `curr.resume()`.  The task of an awaited child is destroyed once its value is taken. -/
def resume
    (s : State Worker User Own Key) (worker : Worker) (task : TaskId) (curr : Handle)
    (frame : Frame (Code User Own) (Result Own)) : State Worker User Own Key :=
  match frame.point with
  | .final => s.crash
  | .code code =>
      { s with resumed := insert (task, curr) s.resumed }.goto worker
        (.executing task curr frame code)
  | .resumption child next =>
      match ((s.frames task).frame child).bind Frame.value with
      | none => s.crash
      | some value =>
          { s.setFrames task ((s.frames task).put child none) with
            resumed := insert (task, curr) s.resumed }.goto worker
            (.executing task curr frame (next value))

/-- What follows `curr.resume()` in the inner loop of `one_step`. -/
def afterResume
    (s : State Worker User Own Key) (worker : Worker) (task : TaskId)
    (frame : Frame (Code User Own) (Result Own)) : State Worker User Own Key :=
  if ¬frame.done then s.goto worker (.checked task)
  else
    match frame.outerHandle with
    | none => s.goto worker (.returned task .done)
    | some outer =>
        s.look task outer fun awaiting =>
          (s.setFrames task ((s.frames task).put outer (some awaiting.resumable))).goto worker
            (.walking task outer)

/-- The wait time of `run` after its test. -/
def waitTime (s : State Worker User Own Key) (poll : Poll TaskId) : Int :=
  if s.tasks = [] ∧ poll.waitTime = 0 then second else poll.waitTime

/-- A runner's next step. -/
def work
    (program : User → UserInstr User Own Local)
    (s : State Worker User Own Key) (worker : Worker) (choice : Choice Own Key) :
    Option (State Worker User Own Key) :=
  match s.pc worker, choice with
  | .head, .clock now =>
      if s.active = ∅ then some (s.goto worker .exited)
      else if s.timersLock then none
      else
        let poll := s.timers.getDelay now
        some ({ s with timers := poll.pool, timersLock := true }.goto worker
          (.waking (poll.woken.map fun task => (task, none)) (.timers poll)))
  | .waking ((task, none) :: rest) source, .go => some (s.goto worker (.storing task rest source))
  | .waking ((task, some success) :: rest) source, .go =>
      some ((s.setSuccess task success).goto worker (.storing task rest source))
  | .storing task rest source, .go =>
      some ((s.setState task .run).goto worker (.scheduling task rest source))
  | .scheduling task rest source, .go =>
      some ((s.schedule task).goto worker (.waking rest source))
  | .waking [] (.timers poll), .go =>
      some ({ s with timersLock := false }.goto worker (.polled poll))
  | .waking [] .events, .go => some (s.goto worker .completed)
  | .polled poll, .go => some (s.goto worker (.calling (s.waitTime poll)))
  | .calling _, .report events =>
      if s.epoll.CanReport (events.map Prod.fst) then
        some ({ s with epoll := s.epoll.disarm (events.map Prod.fst) }.goto worker
          (.waking (events.map delivery) .events))
      else none
  | .completed, .go => some (s.goto worker (if s.running then .processing else .exited))
  | .processing, .go =>
      match s.tasks with
      | [] => some (s.goto worker .head)
      | task :: rest => some ({ s with tasks := rest }.goto worker (.popped task))
  | .popped task, .go =>
      some (s.goto worker (if s.state task = .wait then .processing else .entered task))
  | .entered task, .go =>
      if s.state task = .wait then some s.crash
      else some (s.goto worker (.descending task rootHandle))
  | .descending task curr, .go =>
      some (s.look task curr fun frame =>
        match frame.innerHandle with
        | none => s.goto worker (.walking task curr)
        | some inner => s.goto worker (.descending task inner))
  | .walking task curr, .go =>
      some (s.look task curr fun frame =>
        s.goto worker
          (if frame.done ∨ s.state task = .wait then .left task curr else .resuming task curr))
  | .resuming task curr, .go => some (s.look task curr (s.resume worker task curr))
  | .executing task curr frame code, choice => s.execute program worker task curr frame code choice
  | .resumed task curr, .go => some (s.look task curr (s.afterResume worker task))
  | .left task curr, .go =>
      some (s.look task curr fun frame =>
        s.goto worker (if frame.done then .returned task .done else .checked task))
  | .checked task, .go => some (s.goto worker (.returned task (s.state task)))
  | .returned task .run, .go => some ((s.schedule task).goto worker .processing)
  | .returned task .done, .go =>
      some ({ s with active := s.active.erase task }.goto worker .processing)
  | .returned _ .wait, .go => some (s.goto worker .processing)
  | _, _ => none

/-- One step of the machine. -/
def step
    (program : User → UserInstr User Own Local) (s : State Worker User Own Key) :
    Label Worker User Own Key → Option (State Worker User Own Key)
  | .work worker choice => if s.undefined then none else s.work program worker choice
  | .spawn start => if s.undefined then none else some (s.spawn start)
  | .stop => if s.undefined then none else some { s with running := false }
  | .close key => if s.undefined then none else some { s with epoll := s.epoll.forget key }

end State

variable {Worker User Own Local Key : Type} [DecidableEq Worker] [DecidableEq Key]

/-- The frame is there, and its coroutine is not running. -/
structure Rests
    (s : State Worker User Own Key) (task : TaskId) (curr : Handle)
    (frame : Frame (Code User Own) (Result Own)) : Prop where
  idle : (task, curr) ∉ s.resumed
  found : (s.frames task).frame curr = some frame

/-- Why a runner's next step stops the machine. -/
inductive Lost (s : State Worker User Own Key) : Pc User Own → Prop
  | asserts {task : TaskId} (waiting : s.state task = .wait) : Lost s (.entered task)
  | frame {pc : Pc User Own} {task : TaskId} {curr : Handle}
      (looks : pc.looksAt = some (task, curr)) (gone : ∀ frame, ¬Rests s task curr frame) :
      Lost s pc
  | outer {task : TaskId} {curr outer : Handle} {frame : Frame (Code User Own) (Result Own)}
      (rests : Rests s task curr frame) (finished : frame.done = true)
      (linked : frame.outerHandle = some outer) (gone : ∀ frame, ¬Rests s task outer frame) :
      Lost s (.resumed task curr)
  | final {task : TaskId} {curr : Handle} {frame : Frame (Code User Own) (Result Own)}
      (rests : Rests s task curr frame) (point : frame.point = .final) :
      Lost s (.resuming task curr)
  | value {task : TaskId} {curr child : Handle} {frame : Frame (Code User Own) (Result Own)}
      {next : Result Own → Code User Own}
      (rests : Rests s task curr frame) (point : frame.point = .resumption child next)
      (absent : ((s.frames task).frame child).bind Frame.value = none) :
      Lost s (.resuming task curr)

omit [DecidableEq Worker] [DecidableEq Key] in
theorem Lost.inside
    {s : State Worker User Own Key} {pc : Pc User Own} (lost : Lost s pc) :
    ∃ task, pc.inside = some task := by
  cases lost with
  | frame looks =>
      cases pc with
      | descending | walking | resuming | resumed | left => exact ⟨_, rfl⟩
      | _ => cases looks
  | _ => exact ⟨_, rfl⟩

/-- What an instruction of a coroutine does. -/
inductive Executes
    (program : User → UserInstr User Own Local) (s : State Worker User Own Key)
    (worker : Worker) (task : TaskId) (curr : Handle)
    (frame : Frame (Code User Own) (Result Own)) (code : Code User Own) :
    Choice Own Key → State Worker User Own Key → Prop
  | perform {effect : Effect User Local} {next : effect.Reply Own → Code User Own}
      {choice : Choice Own Key} {outcome : effect.Outcome Own} {s' : State Worker User Own Key}
      (body : code.instr program = .perform effect next)
      (performed : s.perform task effect choice = some (outcome, s')) :
      Executes program s worker task curr frame code choice
        (s'.goto worker (.executing task curr frame (next (effect.reply outcome))))
  | wait {next : Code User Own} (body : code.instr program = .wait next) :
      Executes program s worker task curr frame code .go
        ((s.setState task .wait).goto worker (.executing task curr frame next))
  | suspend {next : Code User Own} (body : code.instr program = .suspend next) :
      Executes program s worker task curr frame code .go
        ((s.suspend task curr
          ((s.frames task).put curr (some { frame with point := .code next }))).goto worker
            (.resumed task curr))
  | await {child : Code User Own} {next : Result Own → Code User Own}
      (body : code.instr program = .await child next) :
      Executes program s worker task curr frame code .go
        ((s.suspend task curr ((s.frames task).await curr frame child next)).goto worker
          (.resumed task curr))
  | ret {value : Result Own} (body : code.instr program = .ret value) :
      Executes program s worker task curr frame code .go
        ((s.suspend task curr
          ((s.frames task).put curr
            (some { frame with value := some value, point := .final }))).goto worker
              (.resumed task curr))

/-- The steps of a runner. -/
inductive Moves
    (program : User → UserInstr User Own Local) (s : State Worker User Own Key)
    (worker : Worker) : Choice Own Key → State Worker User Own Key → Prop
  | crash (lost : Lost s (s.pc worker)) : Moves program s worker .go s.crash
  | exit (here : s.pc worker = .head) (noTask : s.active = ∅) (now : Int) :
      Moves program s worker (.clock now) (s.goto worker .exited)
  | poll (here : s.pc worker = .head) (tasks : s.active ≠ ∅) (unlocked : s.timersLock = false)
      (now : Int) :
      Moves program s worker (.clock now)
        ({ s with timers := (s.timers.getDelay now).pool, timersLock := true }.goto worker
          (.waking ((s.timers.getDelay now).woken.map fun task => (task, none))
            (.timers (s.timers.getDelay now))))
  | due {task rest source} (here : s.pc worker = .waking ((task, none) :: rest) source) :
      Moves program s worker .go (s.goto worker (.storing task rest source))
  | event {task success rest source}
      (here : s.pc worker = .waking ((task, some success) :: rest) source) :
      Moves program s worker .go
        ((s.setSuccess task success).goto worker (.storing task rest source))
  | store {task rest source} (here : s.pc worker = .storing task rest source) :
      Moves program s worker .go
        ((s.setState task .run).goto worker (.scheduling task rest source))
  | push {task rest source} (here : s.pc worker = .scheduling task rest source) :
      Moves program s worker .go ((s.schedule task).goto worker (.waking rest source))
  | unlock {poll} (here : s.pc worker = .waking [] (.timers poll)) :
      Moves program s worker .go ({ s with timersLock := false }.goto worker (.polled poll))
  | complete (here : s.pc worker = .waking [] .events) :
      Moves program s worker .go (s.goto worker .completed)
  | test {poll} (here : s.pc worker = .polled poll) :
      Moves program s worker .go (s.goto worker (.calling (s.waitTime poll)))
  | report {waitTime} (here : s.pc worker = .calling waitTime)
      {events : List (Registration Key × Bool)}
      (possible : s.epoll.CanReport (events.map Prod.fst)) :
      Moves program s worker (.report events)
        ({ s with epoll := s.epoll.disarm (events.map Prod.fst) }.goto worker
          (.waking (events.map delivery) .events))
  | enter (here : s.pc worker = .completed) (running : s.running = true) :
      Moves program s worker .go (s.goto worker .processing)
  | leave (here : s.pc worker = .completed) (stopped : s.running = false) :
      Moves program s worker .go (s.goto worker .exited)
  | idle (here : s.pc worker = .processing) (noTask : s.tasks = []) :
      Moves program s worker .go (s.goto worker .head)
  | pop {task rest} (here : s.pc worker = .processing) (first : s.tasks = task :: rest) :
      Moves program s worker .go ({ s with tasks := rest }.goto worker (.popped task))
  | drop {task} (here : s.pc worker = .popped task) (waiting : s.state task = .wait) :
      Moves program s worker .go (s.goto worker .processing)
  | call {task} (here : s.pc worker = .popped task) (runs : s.state task ≠ .wait) :
      Moves program s worker .go (s.goto worker (.entered task))
  | root {task} (here : s.pc worker = .entered task) (runs : s.state task ≠ .wait) :
      Moves program s worker .go (s.goto worker (.descending task rootHandle))
  | descend {task curr frame inner} (here : s.pc worker = .descending task curr)
      (rests : Rests s task curr frame) (linked : frame.innerHandle = some inner) :
      Moves program s worker .go (s.goto worker (.descending task inner))
  | innermost {task curr frame} (here : s.pc worker = .descending task curr)
      (rests : Rests s task curr frame) (linked : frame.innerHandle = none) :
      Moves program s worker .go (s.goto worker (.walking task curr))
  | stay {task curr frame} (here : s.pc worker = .walking task curr)
      (rests : Rests s task curr frame) (stops : frame.done = true ∨ s.state task = .wait) :
      Moves program s worker .go (s.goto worker (.left task curr))
  | walk {task curr frame} (here : s.pc worker = .walking task curr)
      (rests : Rests s task curr frame) (unfinished : frame.done = false)
      (runs : s.state task ≠ .wait) :
      Moves program s worker .go (s.goto worker (.resuming task curr))
  | resume {task curr frame code} (here : s.pc worker = .resuming task curr)
      (rests : Rests s task curr frame) (point : frame.point = .code code) :
      Moves program s worker .go
        ({ s with resumed := insert (task, curr) s.resumed }.goto worker
          (.executing task curr frame code))
  | take {task curr frame child next value} (here : s.pc worker = .resuming task curr)
      (rests : Rests s task curr frame) (point : frame.point = .resumption child next)
      (returned : ((s.frames task).frame child).bind Frame.value = some value) :
      Moves program s worker .go
        ({ s.setFrames task ((s.frames task).put child none) with
          resumed := insert (task, curr) s.resumed }.goto worker
          (.executing task curr frame (next value)))
  | execute {task curr frame code choice next}
      (here : s.pc worker = .executing task curr frame code)
      (executes : Executes program s worker task curr frame code choice next) :
      Moves program s worker choice next
  | suspended {task curr frame} (here : s.pc worker = .resumed task curr)
      (rests : Rests s task curr frame) (unfinished : frame.done = false) :
      Moves program s worker .go (s.goto worker (.checked task))
  | finish {task curr frame} (here : s.pc worker = .resumed task curr)
      (rests : Rests s task curr frame) (finished : frame.done = true)
      (unlinked : frame.outerHandle = none) :
      Moves program s worker .go (s.goto worker (.returned task .done))
  | unwind {task curr frame outer awaiting} (here : s.pc worker = .resumed task curr)
      (rests : Rests s task curr frame) (finished : frame.done = true)
      (linked : frame.outerHandle = some outer) (restsOuter : Rests s task outer awaiting) :
      Moves program s worker .go
        ((s.setFrames task ((s.frames task).put outer (some awaiting.resumable))).goto worker
          (.walking task outer))
  | ends {task curr frame} (here : s.pc worker = .left task curr)
      (rests : Rests s task curr frame) :
      Moves program s worker .go
        (s.goto worker (if frame.done then .returned task .done else .checked task))
  | load {task} (here : s.pc worker = .checked task) :
      Moves program s worker .go (s.goto worker (.returned task (s.state task)))
  | requeue {task} (here : s.pc worker = .returned task .run) :
      Moves program s worker .go ((s.schedule task).goto worker .processing)
  | erase {task} (here : s.pc worker = .returned task .done) :
      Moves program s worker .go ({ s with active := s.active.erase task }.goto worker .processing)
  | dismiss {task} (here : s.pc worker = .returned task .wait) :
      Moves program s worker .go (s.goto worker .processing)

omit [DecidableEq Worker] [DecidableEq Key] in
/-- A frame that is looked at can be used, or the machine stops. -/
theorem look_cases
    (s : State Worker User Own Key) (task : TaskId) (curr : Handle)
    (goesOn : Frame (Code User Own) (Result Own) → State Worker User Own Key) :
    (∃ frame, Rests s task curr frame ∧ s.look task curr goesOn = goesOn frame) ∨
      ((∀ frame, ¬Rests s task curr frame) ∧ s.look task curr goesOn = s.crash) := by
  unfold State.look
  split_ifs with busy
  · exact Or.inr ⟨fun frame rests => rests.idle busy, rfl⟩
  · split
    · next absent =>
        refine Or.inr ⟨fun frame rests => ?_, rfl⟩
        cases absent.symm.trans rests.found
    · next frame found => exact Or.inl ⟨frame, ⟨busy, found⟩, rfl⟩

theorem executes_of_execute
    {program : User → UserInstr User Own Local} {s next : State Worker User Own Key}
    {worker : Worker} {task : TaskId} {curr : Handle}
    {frame : Frame (Code User Own) (Result Own)} {code : Code User Own} {choice : Choice Own Key}
    (executed : s.execute program worker task curr frame code choice = some next) :
    Executes program s worker task curr frame code choice next := by
  unfold State.execute at executed
  split at executed
  · next effect after body =>
      obtain ⟨⟨outcome, s'⟩, performed, rfl⟩ := Option.map_eq_some_iff.mp executed
      exact .perform body performed
  · next after body =>
      obtain rfl := Option.some.inj executed
      exact .wait body
  · next after body =>
      obtain rfl := Option.some.inj executed
      exact .suspend body
  · next child after body =>
      obtain rfl := Option.some.inj executed
      exact .await body
  · next value body =>
      obtain rfl := Option.some.inj executed
      exact .ret body
  · cases executed

/-- `curr.resume()` on a frame that can be used. -/
theorem moves_of_resume
    {program : User → UserInstr User Own Local} {s : State Worker User Own Key}
    {worker : Worker} {task : TaskId} {curr : Handle}
    {frame : Frame (Code User Own) (Result Own)}
    (here : s.pc worker = .resuming task curr) (rests : Rests s task curr frame) :
    Moves program s worker .go (s.resume worker task curr frame) := by
  unfold State.resume
  split
  · next point => exact .crash (here ▸ .final rests point)
  · next code point => exact .resume here rests point
  · next child next point =>
      cases returned : ((s.frames task).frame child).bind Frame.value with
      | none => exact .crash (here ▸ .value rests point returned)
      | some value => exact .take here rests point returned

theorem moves_of_afterResume
    {program : User → UserInstr User Own Local} {s : State Worker User Own Key}
    {worker : Worker} {task : TaskId} {curr : Handle}
    {frame : Frame (Code User Own) (Result Own)}
    (here : s.pc worker = .resumed task curr) (rests : Rests s task curr frame) :
    Moves program s worker .go (s.afterResume worker task frame) := by
  unfold State.afterResume
  split_ifs with finished
  · split
    · next unlinked => exact .finish here rests finished unlinked
    · next outer linked =>
        rcases look_cases s task outer _ with ⟨awaiting, restsOuter, looked⟩ | ⟨gone, looked⟩
        · rw [looked]
          exact .unwind here rests finished linked restsOuter
        · rw [looked]
          exact .crash (here ▸ .outer rests finished linked gone)
  · exact .suspended here rests (Bool.eq_false_iff.mpr finished)

/-- The transitions are all that a runner's step can do. -/
theorem moves_of_work
    {program : User → UserInstr User Own Local} {s next : State Worker User Own Key}
    {worker : Worker} {choice : Choice Own Key}
    (worked : s.work program worker choice = some next) :
    Moves program s worker choice next := by
  unfold State.work at worked
  split at worked
  · next now here =>
      split_ifs at worked with noTask locked
      · obtain rfl := Option.some.inj worked
        exact .exit here noTask now
      · obtain rfl := Option.some.inj worked
        exact .poll here noTask (Bool.eq_false_iff.mpr locked) now
  · next here =>
      obtain rfl := Option.some.inj worked
      exact .due here
  · next here =>
      obtain rfl := Option.some.inj worked
      exact .event here
  · next here =>
      obtain rfl := Option.some.inj worked
      exact .store here
  · next here =>
      obtain rfl := Option.some.inj worked
      exact .push here
  · next here =>
      obtain rfl := Option.some.inj worked
      exact .unlock here
  · next here =>
      obtain rfl := Option.some.inj worked
      exact .complete here
  · next here =>
      obtain rfl := Option.some.inj worked
      exact .test here
  · next here =>
      split_ifs at worked with possible
      obtain rfl := Option.some.inj worked
      exact .report here possible
  · next here =>
      obtain rfl := Option.some.inj worked
      split_ifs with running
      · exact .enter here running
      · exact .leave here (Bool.eq_false_iff.mpr running)
  · next here =>
      split at worked
      · next noTask =>
          obtain rfl := Option.some.inj worked
          exact .idle here noTask
      · next first =>
          obtain rfl := Option.some.inj worked
          exact .pop here first
  · next here =>
      obtain rfl := Option.some.inj worked
      split_ifs with waiting
      · exact .drop here waiting
      · exact .call here waiting
  · next here =>
      split_ifs at worked with waiting
      · obtain rfl := Option.some.inj worked
        exact .crash (here ▸ .asserts waiting)
      · obtain rfl := Option.some.inj worked
        exact .root here waiting
  · next task curr here =>
      obtain rfl := Option.some.inj worked
      rcases look_cases s task curr _ with ⟨frame, rests, looked⟩ | ⟨gone, looked⟩
      · rw [looked]
        split
        · next unlinked => exact .innermost here rests unlinked
        · next inner linked => exact .descend here rests linked
      · rw [looked]
        exact .crash (here ▸ .frame rfl gone)
  · next task curr here =>
      obtain rfl := Option.some.inj worked
      rcases look_cases s task curr _ with ⟨frame, rests, looked⟩ | ⟨gone, looked⟩
      · rw [looked]
        split_ifs with stops
        · exact .stay here rests stops
        · obtain ⟨unfinished, runs⟩ := not_or.mp stops
          exact .walk here rests (Bool.eq_false_iff.mpr unfinished) runs
      · rw [looked]
        exact .crash (here ▸ .frame rfl gone)
  · next task curr here =>
      obtain rfl := Option.some.inj worked
      rcases look_cases s task curr _ with ⟨frame, rests, looked⟩ | ⟨gone, looked⟩
      · rw [looked]
        exact moves_of_resume here rests
      · rw [looked]
        exact .crash (here ▸ .frame rfl gone)
  · next here => exact .execute here (executes_of_execute worked)
  · next task curr here =>
      obtain rfl := Option.some.inj worked
      rcases look_cases s task curr _ with ⟨frame, rests, looked⟩ | ⟨gone, looked⟩
      · rw [looked]
        exact moves_of_afterResume here rests
      · rw [looked]
        exact .crash (here ▸ .frame rfl gone)
  · next task curr here =>
      obtain rfl := Option.some.inj worked
      rcases look_cases s task curr _ with ⟨frame, rests, looked⟩ | ⟨gone, looked⟩
      · rw [looked]
        exact .ends here rests
      · rw [looked]
        exact .crash (here ▸ .frame rfl gone)
  · next here =>
      obtain rfl := Option.some.inj worked
      exact .load here
  · next here =>
      obtain rfl := Option.some.inj worked
      exact .requeue here
  · next here =>
      obtain rfl := Option.some.inj worked
      exact .erase here
  · next here =>
      obtain rfl := Option.some.inj worked
      exact .dismiss here
  · cases worked

/-- One step of the machine is a step of a runner or one from outside. -/
theorem step_cases
    {program : User → UserInstr User Own Local} {s next : State Worker User Own Key}
    {label : Label Worker User Own Key}
    (stepped : s.step program label = some next) :
    s.undefined = false ∧
      ((∃ worker choice, label = .work worker choice ∧ Moves program s worker choice next) ∨
        (∃ start, label = .spawn start ∧ next = s.spawn start) ∨
        (label = .stop ∧ next = { s with running := false }) ∨
        ∃ key, label = .close key ∧ next = { s with epoll := s.epoll.forget key }) := by
  cases label with
  | work worker choice =>
      simp only [State.step] at stepped
      split_ifs at stepped with crashed
      exact ⟨Bool.eq_false_iff.mpr crashed,
        Or.inl ⟨worker, choice, rfl, moves_of_work stepped⟩⟩
  | spawn start =>
      simp only [State.step] at stepped
      split_ifs at stepped with crashed
      exact ⟨Bool.eq_false_iff.mpr crashed,
        Or.inr (Or.inl ⟨start, rfl, (Option.some.inj stepped).symm⟩)⟩
  | stop =>
      simp only [State.step] at stepped
      split_ifs at stepped with crashed
      exact ⟨Bool.eq_false_iff.mpr crashed,
        Or.inr (Or.inr (Or.inl ⟨rfl, (Option.some.inj stepped).symm⟩))⟩
  | close key =>
      simp only [State.step] at stepped
      split_ifs at stepped with crashed
      exact ⟨Bool.eq_false_iff.mpr crashed,
        Or.inr (Or.inr (Or.inr ⟨key, rfl, (Option.some.inj stepped).symm⟩))⟩

end Runners
end Cppio
