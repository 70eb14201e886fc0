import Cppio.Workers.Machine

/-!
# Workers that stay

`initialize` creates the reactor, whose constructor starts its worker threads one
after the other; after it the calling thread spawns tasks and runs `wait_for_all`,
as often as it likes.  A worker whose loop test finds no active task returns for
good.  Every task that has not finished is active, so a worker returns in
between: before the first `spawn`, or after the last task of one batch and before
the first of the next.
-/

namespace Cppio
namespace Workers

section Steps

variable {Worker Key : Type} [DecidableEq Worker]

/-! ## Known tasks -/

/-- The tasks that a worker has at hand. -/
def Pc.mentions : Pc Key → List TaskId
  | .waking stored rest _ => stored.toList ++ rest
  | .popped task => [task]
  | .entered task => [task]
  | .walking task => [task]
  | .resuming task => [task]
  | .executing task _ => [task]
  | .suspended task => [task]
  | .checked task => [task]
  | .returned task _ => [task]
  | _ => []

/-- Every task that occurs anywhere was spawned. -/
structure Known (s : State Worker Key) : Prop where
  mentioned : ∀ worker, ∀ task ∈ (s.pc worker).mentions, task < s.spawned
  queued : ∀ task ∈ s.tasks, task < s.spawned
  timed : ∀ entry ∈ s.timers.tasks, entry.task < s.spawned
  armed : ∀ registration ∈ s.epoll.armed, registration.task < s.spawned

/-- What is known of the coroutines: those that have not finished are active, and
each is in the hands of at most one worker. -/
structure Accounted (s : State Worker Key) : Prop extends Known s where
  active : ∀ task < s.spawned, s.coroutine task ≠ .finished → task ∈ s.active
  fresh : ∀ task, s.spawned ≤ task → s.coroutine task = .suspended
  stored : ∀ task, s.state task ≠ .done
  returns : ∀ worker task, s.pc worker = .returned task .done → s.coroutine task = .finished
  executes : ∀ worker task steps, s.pc worker = .executing task steps →
    s.coroutine task = .running
  alone : ∀ worker other task steps steps', s.pc worker = .executing task steps →
    s.pc other = .executing task steps' → worker = other

/-- A worker goes on with the tasks that it had at hand. -/
theorem Known.goto
    {s : State Worker Key} {worker : Worker} {pc : Pc Key}
    (known : Known s)
    (mentions : ∀ task ∈ pc.mentions, task < s.spawned) :
    Known (s.goto worker pc) where
  mentioned other task present := by
    simp only [State.goto, Function.update_apply] at present
    split_ifs at present
    · exact mentions task present
    · exact known.mentioned other task present
  queued := known.queued
  timed := known.timed
  armed := known.armed

/-- A worker goes on without entering a coroutine. -/
theorem Accounted.goto
    {s : State Worker Key} {worker : Worker} {pc : Pc Key}
    (accounted : Accounted s)
    (mentions : ∀ task ∈ pc.mentions, task < s.spawned)
    (returns : ∀ task, pc = .returned task .done → s.coroutine task = .finished)
    (executes : ∀ task steps, pc = .executing task steps →
      ∃ before, s.pc worker = .executing task before) :
    Accounted (s.goto worker pc) where
  toKnown := accounted.toKnown.goto mentions
  active := accounted.active
  fresh := accounted.fresh
  stored := accounted.stored
  returns other task there := by
    simp only [State.goto, Function.update_apply] at there
    split_ifs at there
    · exact returns task there
    · exact accounted.returns other task there
  executes other task steps there := by
    simp only [State.goto, Function.update_apply] at there
    split_ifs at there
    · obtain ⟨before, here⟩ := executes task steps there
      exact accounted.executes worker task before here
    · exact accounted.executes other task steps there
  alone first second task steps steps' there there' := by
    have before : ∀ {other steps}, (s.goto worker pc).pc other = .executing task steps →
        ∃ steps, s.pc other = .executing task steps := by
      intro other steps there
      simp only [State.goto, Function.update_apply] at there
      split_ifs at there with same
      · rw [same]
        exact executes task steps there
      · exact ⟨steps, there⟩
    obtain ⟨_, here⟩ := before there
    obtain ⟨_, here'⟩ := before there'
    exact accounted.alone first second task _ _ here here'

/-- The worker that has a coroutine at hand starts it or stops it. -/
theorem Accounted.turn
    {s : State Worker Key} {worker : Worker} {task : TaskId} {coroutine : Coroutine}
    {pc : Pc Key}
    (accounted : Accounted s)
    (known : task < s.spawned)
    (unfinished : s.coroutine task ≠ .finished)
    (mine : ∀ other steps, s.pc other = .executing task steps → other = worker)
    (mentions : ∀ other ∈ pc.mentions, other = task)
    (returns : ∀ other, pc = .returned other .done → coroutine = .finished)
    (executes : ∀ other steps, pc = .executing other steps → coroutine = .running) :
    Accounted ((s.setCoroutine task coroutine).goto worker pc) where
  toKnown := by
    have same : Known (s.setCoroutine task coroutine) :=
      ⟨accounted.mentioned, accounted.queued, accounted.timed, accounted.armed⟩
    exact same.goto fun other present => mentions other present ▸ known
  active other below notFinished := by
    by_cases same : other = task
    · exact accounted.active other below (same ▸ unfinished)
    · simp only [State.goto, State.setCoroutine, Function.update_of_ne same] at notFinished
      exact accounted.active other below notFinished
  fresh other above := by
    have different : other ≠ task := fun same => Nat.not_lt.mpr above (same ▸ known)
    simp only [State.goto, State.setCoroutine, Function.update_of_ne different]
    exact accounted.fresh other above
  stored := accounted.stored
  returns other returned there := by
    simp only [State.goto, State.setCoroutine, Function.update_apply] at there ⊢
    by_cases here : other = worker
    · rw [if_pos here] at there
      obtain rfl := mentions returned (by simp [there, Pc.mentions])
      rw [if_pos rfl]
      exact returns returned there
    · rw [if_neg here] at there
      have finished := accounted.returns other returned there
      have different : returned ≠ task := fun same => unfinished (same ▸ finished)
      rw [if_neg different]
      exact finished
  executes other executed steps there := by
    simp only [State.goto, State.setCoroutine, Function.update_apply] at there ⊢
    by_cases here : other = worker
    · rw [if_pos here] at there
      obtain rfl := mentions executed (by simp [there, Pc.mentions])
      rw [if_pos rfl]
      exact executes executed steps there
    · rw [if_neg here] at there
      have different : executed ≠ task := fun same =>
        here (mine other steps (same ▸ there))
      rw [if_neg different]
      exact accounted.executes other executed steps there
  alone first second executed steps steps' there there' := by
    simp only [State.goto, State.setCoroutine, Function.update_apply] at there there'
    by_cases here : first = worker <;> by_cases here' : second = worker
    · rw [here, here']
    · rw [if_pos here] at there
      rw [if_neg here'] at there'
      obtain rfl := mentions executed (by simp [there, Pc.mentions])
      exact absurd (mine second steps' there') here'
    · rw [if_neg here] at there
      rw [if_pos here'] at there'
      obtain rfl := mentions executed (by simp [there', Pc.mentions])
      exact absurd (mine first steps there) here
    · rw [if_neg here] at there
      rw [if_neg here'] at there'
      exact accounted.alone first second executed steps steps' there there'

omit [DecidableEq Worker] in
/-- Nothing but the data of the tasks and of the reactor changes. -/
theorem Accounted.same
    {s next : State Worker Key}
    (accounted : Accounted s)
    (known : Known next)
    (stored : ∀ task, next.state task ≠ .done)
    (pc : next.pc = s.pc)
    (coroutine : next.coroutine = s.coroutine)
    (spawned : next.spawned = s.spawned)
    (active : next.active = s.active) :
    Accounted next where
  toKnown := known
  active := by
    rw [spawned, coroutine, active]
    exact accounted.active
  fresh := by
    rw [spawned, coroutine]
    exact accounted.fresh
  stored := stored
  returns := by
    rw [pc, coroutine]
    exact accounted.returns
  executes := by
    rw [pc, coroutine]
    exact accounted.executes
  alone := by
    rw [pc]
    exact accounted.alone

omit [DecidableEq Worker] in
theorem Accounted.setState
    {s : State Worker Key} {state : ScheduleType}
    (accounted : Accounted s)
    (task : TaskId)
    (goesOn : state ≠ .done) :
    Accounted (s.setState task state) := by
  refine accounted.same ⟨accounted.mentioned, accounted.queued, accounted.timed,
    accounted.armed⟩ (fun other => ?_) rfl rfl rfl rfl
  simp only [State.setState, Function.update_apply]
  split_ifs
  · exact goesOn
  · exact accounted.stored other

omit [DecidableEq Worker] in
theorem Accounted.spawn
    {s : State Worker Key}
    (accounted : Accounted s) :
    Accounted s.spawn where
  mentioned worker task present :=
    Nat.lt_succ_of_lt (accounted.mentioned worker task present)
  queued task present := by
    rcases List.mem_append.mp present with before | new
    · exact Nat.lt_succ_of_lt (accounted.queued task before)
    · obtain rfl := List.mem_singleton.mp new
      exact Nat.lt_succ_self _
  timed entry present := Nat.lt_succ_of_lt (accounted.timed entry present)
  armed registration present := Nat.lt_succ_of_lt (accounted.armed registration present)
  active task below unfinished := by
    rcases Nat.lt_succ_iff_lt_or_eq.mp below with before | rfl
    · exact Finset.mem_insert_of_mem (accounted.active task before unfinished)
    · exact Finset.mem_insert_self _ _
  fresh task above := accounted.fresh task (Nat.le_of_succ_le above)
  stored := accounted.stored
  returns := accounted.returns
  executes := accounted.executes
  alone := accounted.alone

variable [DecidableEq Key]

omit [DecidableEq Worker] in
/-- An operation on its way to suspension hands over a task that was spawned. -/
theorem Accounted.parkStep
    {s next : State Worker Key} {task : TaskId} {succeeds : Bool} {now : Int}
    {step : ParkStep Key}
    (accounted : Accounted s)
    (here : task < s.spawned)
    (parked : s.parkStep task succeeds now step = some next) :
    Accounted next := by
  cases step with
  | wait =>
      obtain rfl := Option.some.inj parked
      exact accounted.setState task (by simp)
  | register interest key =>
      obtain rfl := Option.some.inj parked
      refine accounted.same ⟨accounted.mentioned, accounted.queued, accounted.timed,
        fun registration present => ?_⟩ accounted.stored rfl rfl rfl rfl
      simp only at present ⊢
      split_ifs at present
      · rcases List.mem_cons.mp present with rfl | before
        · exact here
        · exact accounted.armed registration (List.mem_of_mem_filter before)
      · exact accounted.armed registration present
  | startTimer delay =>
      simp only [State.parkStep] at parked
      split_ifs at parked
      obtain rfl := Option.some.inj parked
      refine accounted.same ⟨accounted.mentioned, accounted.queued, fun entry present => ?_,
        accounted.armed⟩ accounted.stored rfl rfl rfl rfl
      rcases Keyed.mem_of_mem_insertUnique present with rfl | before
      · exact here
      · exact accounted.timed entry before

omit [DecidableEq Worker] [DecidableEq Key] in
theorem Accounted.schedule
    {s : State Worker Key} {task : TaskId}
    (accounted : Accounted s)
    (here : task < s.spawned) :
    Accounted (s.schedule task) := by
  refine accounted.same ⟨accounted.mentioned, fun other present => ?_, accounted.timed,
    accounted.armed⟩ accounted.stored rfl rfl rfl rfl
  rcases List.mem_append.mp present with before | new
  · exact accounted.queued other before
  · obtain rfl := List.mem_singleton.mp new
    exact here

omit [DecidableEq Key] in
/-- The coroutine that a worker is in stops. -/
theorem Accounted.stop
    {s : State Worker Key} {worker : Worker} {task : TaskId} {coroutine : Coroutine}
    {steps : Option (List (ParkStep Key))} {pc : Pc Key}
    (accounted : Accounted s)
    (here : s.pc worker = .executing task steps)
    (mentions : ∀ other ∈ pc.mentions, other = task)
    (returns : ∀ other, pc = .returned other .done → coroutine = .finished)
    (leaves : ∀ other steps, pc ≠ .executing other steps) :
    Accounted ((s.setCoroutine task coroutine).goto worker pc) := by
  have running := accounted.executes worker task steps here
  refine accounted.turn (accounted.mentioned worker task (by simp [here, Pc.mentions]))
    (by simp [running]) (fun other steps' there => ?_) mentions returns
    fun other steps' there => absurd there (leaves other steps')
  exact accounted.alone other worker task steps' steps there here

/-- A worker's step keeps the accounts. -/
theorem Accounted.moves
    {s next : State Worker Key} {worker : Worker} {choice : Choice Key}
    (accounted : Accounted s)
    (moves : Moves s worker choice next) :
    Accounted next := by
  have mentioned := accounted.mentioned worker
  cases moves with
  | poll here unlocked now =>
      have polled : Accounted
          { s with timers := (s.timers.getDelay now).pool, timersLock := true } := by
        refine accounted.same ⟨accounted.mentioned, accounted.queued, fun entry present => ?_,
          accounted.armed⟩ accounted.stored rfl rfl rfl rfl
        simp only [TimerPool.getDelay_pool] at present
        exact accounted.timed entry (TimerPool.mem_later.mp present).1
      refine polled.goto (fun task present => ?_) (by simp) (by simp)
      simp only [Pc.mentions, Option.toList_none, List.nil_append,
        TimerPool.getDelay_woken] at present
      obtain ⟨entry, isDue, rfl⟩ := List.mem_map.mp present
      exact accounted.timed entry (List.mem_of_mem_filter isDue)
  | @store task rest source here =>
      rw [here] at mentioned
      have stored : Accounted (s.setState task .run) := accounted.setState task (by simp)
      exact stored.goto mentioned (by simp) (by simp)
  | @push task rest source here =>
      rw [here] at mentioned
      have scheduled := accounted.schedule (mentioned task (by simp [Pc.mentions]))
      refine scheduled.goto (fun other present => ?_) (by simp) (by simp)
      exact mentioned other (List.mem_cons_of_mem _ present)
  | unlock here =>
      have unlocked : Accounted { s with timersLock := false } :=
        accounted.same ⟨accounted.mentioned, accounted.queued, accounted.timed,
          accounted.armed⟩ accounted.stored rfl rfl rfl rfl
      exact unlocked.goto (by simp [Pc.mentions]) (by simp) (by simp)
  | @report waitTime here events possible =>
      have reported : Accounted (s.report events) := by
        refine accounted.same ⟨accounted.mentioned, accounted.queued, accounted.timed,
          fun registration present => ?_⟩ accounted.stored rfl rfl rfl rfl
        exact accounted.armed registration (List.mem_of_mem_filter present)
      refine reported.goto (fun task present => ?_) (by simp) (by simp)
      obtain ⟨registration, inEvents, rfl⟩ := List.mem_map.mp present
      exact accounted.armed registration (possible.2.1 inEvents)
  | @pop task rest here first =>
      have popped : Accounted { s with tasks := rest } := by
        refine accounted.same ⟨accounted.mentioned, fun other present => ?_, accounted.timed,
          accounted.armed⟩ accounted.stored rfl rfl rfl rfl
        exact accounted.queued other (first ▸ List.mem_cons_of_mem task present)
      refine popped.goto (fun other present => ?_) (by simp) (by simp)
      obtain rfl := List.mem_singleton.mp present
      exact accounted.queued other (first ▸ List.mem_cons_self)
  | @resume task here isSuspended =>
      rw [here] at mentioned
      refine accounted.turn (mentioned task (by simp [Pc.mentions])) (by simp [isSuspended])
        (fun other steps there => ?_) (by simp [Pc.mentions]) (by simp) (by simp)
      have running := accounted.executes other task steps there
      rw [isSuspended] at running
      cases running
  | childWaits here waiting =>
      exact accounted.stop here (by simp [Pc.mentions]) (by simp) (by simp)
  | finish here =>
      exact accounted.stop here (by simp [Pc.mentions]) (by simp) (by simp)
  | suspend here =>
      exact accounted.stop here (by simp [Pc.mentions]) (by simp) (by simp)
  | spawn here => exact accounted.spawn
  | @park task step rest middle here succeeds now parked =>
      rw [here] at mentioned
      obtain ⟨pc, -, -, spawned, -⟩ := State.parkStep_frame parked
      have known := mentioned task (by simp [Pc.mentions])
      refine (accounted.parkStep known parked).goto ?_ (by simp) fun other steps there => ?_
      · rw [spawned]
        exact mentioned
      · obtain ⟨rfl, -⟩ := Pc.executing.inj there
        exact ⟨_, pc ▸ here⟩
  | @requeue task here =>
      rw [here] at mentioned
      have scheduled := accounted.schedule (mentioned task (by simp [Pc.mentions]))
      exact scheduled.goto (by simp [Pc.mentions]) (by simp) (by simp)
  | @erase task here =>
      have finished := accounted.returns worker task here
      have erased : Accounted { s with active := s.active.erase task } := by
        refine { accounted with active := fun other below unfinished => ?_ }
        refine Finset.mem_erase.mpr ⟨?_, accounted.active other below unfinished⟩
        exact fun same => unfinished (same ▸ finished)
      exact erased.goto (by simp [Pc.mentions]) (by simp) (by simp)
  | walkFinished here isFinished | checkFinished here isFinished =>
      rw [here] at mentioned
      refine accounted.goto mentioned (fun task returned => ?_) (by simp)
      obtain ⟨rfl, -⟩ := Pc.returned.inj returned
      exact isFinished
  | load here =>
      rw [here] at mentioned
      refine accounted.goto mentioned (fun task returned => ?_) (by simp)
      exact absurd (Pc.returned.inj returned).2 (accounted.stored _)
  | start here | awaitChild here =>
      rw [here] at mentioned
      refine accounted.goto mentioned (by simp) fun task steps there => ?_
      obtain ⟨rfl, -⟩ := Pc.executing.inj there
      exact ⟨_, here⟩
  | childReturns => exact accounted
  | failAssertion | walkRunning | resumeTwice | checkRunning =>
      exact accounted.same ⟨accounted.mentioned, accounted.queued, accounted.timed,
        accounted.armed⟩ accounted.stored rfl rfl rfl rfl
  | exit here | complete here | test here | enter here | leave here | idle here | drop here
  | dismiss here =>
      exact accounted.goto (by simp [Pc.mentions]) (by simp) (by simp)
  | call here | walk here | walkWaiting here | walkReady here | check here =>
      rw [here] at mentioned
      exact accounted.goto mentioned (by simp) (by simp)

theorem Accounted.step
    {s next : State Worker Key} {label : Label Worker Key}
    (accounted : Accounted s)
    (stepped : s.step label = some next) :
    Accounted next := by
  obtain ⟨worker, choice, -, moves⟩ | ⟨-, rfl⟩ | ⟨-, rfl⟩ | ⟨key, -, rfl⟩ := step_cases stepped
  · exact accounted.moves moves
  · exact accounted.spawn
  · exact accounted.same ⟨accounted.mentioned, accounted.queued, accounted.timed,
      accounted.armed⟩ accounted.stored rfl rfl rfl rfl
  · refine accounted.same ⟨accounted.mentioned, accounted.queued, accounted.timed,
      fun registration present => ?_⟩ accounted.stored rfl rfl rfl rfl
    exact accounted.armed registration (List.mem_of_mem_filter present)

/-! ## One worker -/

/-- Some spawned task has not finished. -/
def State.Unfinished (s : State Worker Key) : Prop :=
  ∃ task < s.spawned, s.coroutine task ≠ .finished

/-- While a task is unfinished and the reactor is not being destroyed, the worker
has not returned. -/
def Available (s : State Worker Key) (worker : Worker) : Prop :=
  s.running = true → s.Unfinished → s.pc worker ≠ .exited

omit [DecidableEq Key] in
theorem Available.goto
    {s : State Worker Key} {worker other : Worker} {pc : Pc Key}
    (available : Available s other)
    (stays : pc ≠ .exited) :
    Available (s.goto worker pc) other := by
  intro running unfinished
  simp only [State.goto, Function.update_apply]
  split_ifs
  · exact stays
  · exact available running unfinished

omit [DecidableEq Worker] in
theorem parkStep_running
    {s next : State Worker Key} {task : TaskId} {succeeds : Bool} {now : Int}
    {step : ParkStep Key}
    (parked : s.parkStep task succeeds now step = some next) :
    next.running = s.running := by
  cases step with
  | wait | register =>
      obtain rfl := Option.some.inj parked
      rfl
  | startTimer delay =>
      simp only [State.parkStep] at parked
      split_ifs at parked
      obtain rfl := Option.some.inj parked
      rfl

/-- A worker returns only when no task is active or the reactor is being
destroyed, and nobody spawns or finishes a task outside of a coroutine. -/
theorem Available.moves
    {s next : State Worker Key} {worker other : Worker} {choice : Choice Key}
    (accounted : Accounted s)
    (available : Available s other)
    (moves : Moves s worker choice next) :
    Available next other := by
  -- With an unfinished task at hand, what a step does to the tasks does not matter.
  have busy : ∀ {task} {middle : State Worker Key}, task ∈ (s.pc worker).mentions →
      s.coroutine task ≠ .finished → middle.pc = s.pc → middle.running = s.running →
        Available middle other := by
    intro task middle present unfinished pc running
    unfold Available
    rw [pc, running]
    exact fun runs _ =>
      available runs ⟨task, accounted.mentioned worker task present, unfinished⟩
  have inside : ∀ {task steps}, s.pc worker = .executing task steps →
      task ∈ (s.pc worker).mentions ∧ s.coroutine task ≠ .finished := by
    intro task steps here
    refine ⟨by simp [here, Pc.mentions], ?_⟩
    rw [accounted.executes worker task steps here]
    simp
  cases moves with
  | exit here noTask now =>
      rintro - ⟨task, below, unfinished⟩
      have active := accounted.active task below unfinished
      rw [noTask] at active
      simp at active
  | leave here stopped =>
      intro running
      exact absurd running (by simp [State.goto, stopped])
  | @resume task here isSuspended =>
      have present : task ∈ (s.pc worker).mentions := by simp [here, Pc.mentions]
      have unfinished : s.coroutine task ≠ .finished := by simp [isSuspended]
      exact Available.goto (busy present unfinished rfl rfl) (by simp)
  | childWaits here waiting =>
      obtain ⟨present, unfinished⟩ := inside here
      exact Available.goto (busy present unfinished rfl rfl) (by simp)
  | finish here =>
      obtain ⟨present, unfinished⟩ := inside here
      exact Available.goto (busy present unfinished rfl rfl) (by simp)
  | suspend here =>
      obtain ⟨present, unfinished⟩ := inside here
      exact Available.goto (busy present unfinished rfl rfl) (by simp)
  | spawn here =>
      obtain ⟨present, unfinished⟩ := inside here
      exact busy present unfinished rfl rfl
  | park here parked =>
      obtain ⟨present, unfinished⟩ := inside here
      obtain ⟨pc, -⟩ := State.parkStep_frame parked
      exact Available.goto (busy present unfinished pc (parkStep_running parked)) (by simp)
  | childReturns | failAssertion | walkRunning | resumeTwice | checkRunning => exact available
  | _ => exact Available.goto available (by simp)

end Steps

/-! ## From `initialize` on -/

/-- A thread that may be in `run`: the one that called `initialize`, while it is in
`wait_for_all`, or one that the constructor of the reactor has started. -/
inductive Runner (workerCount : Nat)
  | caller
  | runner (index : Fin workerCount)
  deriving DecidableEq

/-- The reactor that `initialize(workerCount)` creates and the number of threads
in `m_runners`. -/
structure Startup (workerCount : Nat) (Key : Type) where
  runners : Nat
  reactor : State (Runner workerCount) Key

/-- What happens next: the constructor starts a thread, the calling thread calls
`wait_for_all`, or the reactor does a step. -/
inductive StartupLabel (workerCount : Nat) (Key : Type)
  | emplaceBack
  | waitForAll
  | reactor (label : Label (Runner workerCount) Key)

/-- `run` has returned or was not called. -/
def Pc.isExited {Key : Type} : Pc Key → Bool
  | .exited => true
  | _ => false

namespace Startup

variable {workerCount : Nat} {Key : Type} [DecidableEq Key]

/-- The constructor has not started a thread, and nobody is in `run`. -/
def initial : Startup workerCount Key where
  runners := 0
  reactor := (State.initial : State (Runner workerCount) Key).goto .caller .exited

/-- The calling thread has come back from `initialize` and is not in `wait_for_all`. -/
def callerFree (s : Startup workerCount Key) : Bool :=
  s.runners = workerCount && (s.reactor.pc .caller).isExited

/-- Who can do a step of the reactor: a thread once it is started, the calling
thread while it is free. -/
def permits (s : Startup workerCount Key) : Label (Runner workerCount) Key → Bool
  | .work (.runner index) _ => index < s.runners
  | .work .caller _ => true
  | .spawn => s.callerFree
  | .stop => s.callerFree
  | .close _ => true

def step (s : Startup workerCount Key) :
    StartupLabel workerCount Key → Option (Startup workerCount Key)
  | .emplaceBack =>
      if s.runners < workerCount then some { s with runners := s.runners + 1 } else none
  | .waitForAll =>
      if s.callerFree ∧ s.reactor.undefined = false then
        some { s with reactor := s.reactor.goto .caller .head }
      else none
  | .reactor label =>
      if s.permits label then
        (s.reactor.step label).map fun reactor => { s with reactor := reactor }
      else none

/-- While a task is unfinished and the reactor is not being destroyed, all the
workers that were requested are in `run`. -/
def Staffed (s : Startup workerCount Key) : Prop :=
  s.reactor.running = true → s.reactor.Unfinished →
    ∀ index, s.reactor.pc (.runner index) ≠ .exited

/-- The calling thread spawns only while no worker has returned. -/
def SpawnsInTime (s : Startup workerCount Key) (label : StartupLabel workerCount Key) : Prop :=
  label = .reactor .spawn → s.reactor.running = true →
    ∀ index, s.reactor.pc (.runner index) ≠ .exited

omit [DecidableEq Key] in
theorem accounted_initial : Accounted (initial : Startup workerCount Key).reactor := by
  have accounted : Accounted (State.initial : State (Runner workerCount) Key) := by
    constructor
    · constructor <;> simp [State.initial, Pc.mentions, TimerPool.empty, Epoll.empty]
    all_goals simp [State.initial]
  exact accounted.goto (by simp [Pc.mentions]) (by simp) (by simp)

/-- What a step does to the reactor. -/
theorem step_cases
    {s next : Startup workerCount Key} {label : StartupLabel workerCount Key}
    (stepped : s.step label = some next) :
    next.reactor = s.reactor ∨ next.reactor = s.reactor.goto .caller .head ∨
      ∃ deed, label = .reactor deed ∧ s.reactor.step deed = some next.reactor := by
  cases label with
  | emplaceBack =>
      simp only [step, Option.ite_none_right_eq_some, Option.some.injEq] at stepped
      obtain ⟨-, rfl⟩ := stepped
      exact Or.inl rfl
  | waitForAll =>
      simp only [step, Option.ite_none_right_eq_some, Option.some.injEq] at stepped
      obtain ⟨-, rfl⟩ := stepped
      exact Or.inr (Or.inl rfl)
  | reactor deed =>
      simp only [step, Option.ite_none_right_eq_some] at stepped
      obtain ⟨-, mapped⟩ := stepped
      obtain ⟨reactor, moved, rfl⟩ := Option.map_eq_some_iff.mp mapped
      exact Or.inr (Or.inr ⟨deed, rfl, moved⟩)

theorem accounted_step
    {s next : Startup workerCount Key} {label : StartupLabel workerCount Key}
    (accounted : Accounted s.reactor)
    (stepped : s.step label = some next) :
    Accounted next.reactor := by
  obtain same | waits | ⟨deed, -, moved⟩ := step_cases stepped
  · rw [same]
    exact accounted
  · rw [waits]
    exact accounted.goto (by simp [Pc.mentions]) (by simp) (by simp)
  · exact accounted.step moved

/-- A step after which a worker is missing is a spawn that comes too late. -/
theorem staffed_step
    {s next : Startup workerCount Key} {label : StartupLabel workerCount Key}
    (accounted : Accounted s.reactor)
    (staffed : s.Staffed)
    (inTime : s.SpawnsInTime label)
    (stepped : s.step label = some next) :
    next.Staffed := by
  have available : ∀ index, Available s.reactor (.runner index) :=
    fun index running unfinished => staffed running unfinished index
  obtain same | waits | ⟨deed, rfl, moved⟩ := step_cases stepped
  · unfold Staffed
    rw [same]
    exact staffed
  · unfold Staffed
    rw [waits]
    exact fun running unfinished index =>
      Available.goto (available index) (by simp) running unfinished
  · obtain ⟨worker, choice, -, moves⟩ | ⟨rfl, spawned⟩ | ⟨-, stopped⟩ | ⟨key, -, closed⟩ :=
      Workers.step_cases moved
    · exact fun running unfinished index =>
        (available index).moves accounted moves running unfinished
    · intro running _ index
      rw [spawned] at running ⊢
      exact inTime rfl running index
    · intro running
      rw [stopped] at running
      cases running
    · unfold Staffed
      rw [closed]
      exact staffed

/-- After a spawn a task is unfinished. -/
theorem spawnsInTime_of_staffed
    {s next : Startup workerCount Key} {label : StartupLabel workerCount Key}
    (accounted : Accounted s.reactor)
    (stepped : s.step label = some next)
    (staffed : next.Staffed) :
    s.SpawnsInTime label := by
  rintro rfl running index
  simp only [step, Option.ite_none_right_eq_some] at stepped
  obtain ⟨-, mapped⟩ := stepped
  obtain ⟨reactor, moved, rfl⟩ := Option.map_eq_some_iff.mp mapped
  simp only [State.step] at moved
  split_ifs at moved
  obtain rfl := Option.some.inj moved
  refine staffed running ⟨s.reactor.spawned, Nat.lt_succ_self _, ?_⟩ index
  have suspended : s.reactor.spawn.coroutine s.reactor.spawned = .suspended :=
    accounted.fresh _ le_rfl
  simp [suspended]

/-- For any number of workers and in every interleaving, the workers that were
requested stay available exactly if the calling thread never spawns after one of
them has returned. -/
theorem staffed_iff_spawnsInTime (labels : List (StartupLabel workerCount Key)) :
    Machine.AllStates step Staffed (initial : Startup workerCount Key) labels ↔
      Machine.AllSteps step SpawnsInTime (initial : Startup workerCount Key) labels := by
  have sound : ∀ s : Startup workerCount Key, Accounted s.reactor ∧ s.Staffed → s.Staffed :=
    fun s both => both.2
  have preserved : ∀ (s : Startup workerCount Key) label next,
      Accounted s.reactor ∧ s.Staffed → s.SpawnsInTime label → s.step label = some next →
        Accounted next.reactor ∧ next.Staffed :=
    fun s label next both inTime stepped =>
      ⟨accounted_step both.1 stepped, staffed_step both.1 both.2 inTime stepped⟩
  have complete : ∀ (s : Startup workerCount Key) label next,
      Accounted s.reactor ∧ s.Staffed → s.step label = some next → next.Staffed →
        s.SpawnsInTime label :=
    fun s label next both stepped staffed => spawnsInTime_of_staffed both.1 stepped staffed
  refine Machine.allStates_iff_allSteps sound preserved complete ⟨accounted_initial, ?_⟩ labels
  rintro - ⟨task, below, -⟩
  exact absurd below (Nat.not_lt_zero task)

/-- Of four workers one gets to its loop test before the first task is spawned. -/
def earlyTest : List (StartupLabel 4 Nat) :=
  [.emplaceBack, .emplaceBack, .emplaceBack, .emplaceBack,
    .reactor (.work (.runner 0) (.clock 0)), .reactor .spawn]

/-- The task is not finished and the worker has returned. -/
theorem not_staffed_earlyTest :
    ¬∀ s : Startup 4 Nat, Machine.Reachable step initial s → s.Staffed := by
  intro always
  have late : ∃ s : Startup 4 Nat, Machine.run step initial earlyTest = some s ∧
      s.reactor.running = true ∧ s.reactor.spawned = 1 ∧ s.reactor.coroutine 0 = .suspended ∧
        s.reactor.pc (.runner 0) = .exited := ⟨_, rfl, rfl, rfl, rfl, rfl⟩
  obtain ⟨s, ran, running, spawned, suspended, returned⟩ := late
  have unfinished : s.reactor.Unfinished := ⟨0, by omega, by simp [suspended]⟩
  exact always s ⟨earlyTest, ran⟩ running unfinished 0 returned

end Startup

end Workers
end Cppio
