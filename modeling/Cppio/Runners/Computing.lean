import Cppio.Runners.Isolation

/-!
# Programs that only compute

A program whose coroutines neither sleep nor use sockets hands no task over, so that nothing is
ever woken.  Any number of runners isolates the tasks of such a program, in every interleaving.
-/

namespace Cppio

variable {User Own Local : Type}

/-! ## Frames of the program -/

/-- The task is a coroutine of the program. -/
def Start.IsUser (start : Start User) : Prop := ∃ here, start = .user here

/-- The coroutine is one of the program. -/
def Code.IsUser (code : Code User Own) : Prop := ∃ here, code = .user here

theorem Start.IsUser.code {start : Start User} (isUser : start.IsUser) :
    (start.code : Code User Own).IsUser := by
  obtain ⟨here, rfl⟩ := isUser
  exact ⟨here, rfl⟩

/-- Neither the instruction nor a task that it starts is handed over. -/
def UserInstr.Computes : UserInstr User Own Local → Prop
  | .spawn start _ => start.IsUser
  | .await child _ => child.IsUser
  | .sleep _ _ => False
  | _ => True

/-- What a coroutine of such a program does next. -/
inductive Code.Computing :
    Instr (Code User Own) (Effect User Local) (Result Own) (Effect.Reply Own) → Prop
  | perform {effect : Local} {next : Own → Code User Own} (goesOn : ∀ value, (next value).IsUser) :
      Computing (.perform (.perform effect) next)
  | spawn {start : Start User} {next : Unit → Code User Own} (isUser : start.IsUser)
      (goesOn : (next ()).IsUser) : Computing (.perform (.spawn start) next)
  | await {child : Code User Own} {next : Result Own → Code User Own} (isUser : child.IsUser)
      (goesOn : ∀ result, (next result).IsUser) : Computing (.await child next)
  | suspend {next : Code User Own} (goesOn : next.IsUser) : Computing (.suspend next)
  | ret {value : Result Own} : Computing (.ret value)

theorem Code.computing_instr
    {program : User → UserInstr User Own Local} (computes : ∀ here, (program here).Computes)
    {code : Code User Own} (isUser : code.IsUser) : Code.Computing (code.instr program) := by
  obtain ⟨here, rfl⟩ := isUser
  have computesHere := computes here
  simp only [Code.instr]
  cases is : program here with
  | perform effect next => exact .perform fun value => ⟨next value, rfl⟩
  | spawn start next =>
      rw [is] at computesHere
      exact .spawn computesHere ⟨next, rfl⟩
  | await child next =>
      rw [is] at computesHere
      exact .await computesHere.code fun result => ⟨next result, rfl⟩
  | sleep delay next =>
      rw [is] at computesHere
      cases computesHere
  | yield next => exact .suspend ⟨next, rfl⟩
  | ret value => exact .ret

/-- The coroutine goes on in the program. -/
def Frame.IsUser (frame : Frame (Code User Own) (Result Own)) : Prop :=
  match frame.point with
  | .code code => code.IsUser
  | .resumption _ next => ∀ result, (next result).IsUser
  | .final => True

namespace Frames

/-- All coroutines of the task are those of the program. -/
def AreUser (frames : Frames (Code User Own) (Result Own)) : Prop :=
  ∀ handle, ∀ frame ∈ frames.frame handle, frame.IsUser

variable {frames : Frames (Code User Own) (Result Own)} {handle : Handle}

theorem AreUser.update
    (areUser : frames.AreUser) (handle : Handle)
    {own : Option (Frame (Code User Own) (Result Own))} (isUser : ∀ frame ∈ own, frame.IsUser) :
    (frames.put handle own).AreUser := by
  intro other frame there
  by_cases same : other = handle
  · subst same
    rw [put_frame_self] at there
    exact isUser frame there
  · rw [put_frame_of_ne _ _ same] at there
    exact areUser other frame there

theorem AreUser.put
    (areUser : frames.AreUser) (handle : Handle) (own : Frame (Code User Own) (Result Own))
    (isUser : own.IsUser) : (frames.put handle (some own)).AreUser :=
  areUser.update handle fun _ there => Option.some.inj there ▸ isUser

theorem AreUser.await
    {frame : Frame (Code User Own) (Result Own)} {child : Code User Own}
    {next : Result Own → Code User Own} (areUser : frames.AreUser) (isUser : child.IsUser)
    (goesOn : ∀ result, (next result).IsUser) :
    (frames.await handle frame child next).AreUser :=
  (areUser.put frames.next (start (some handle) child) isUser).put handle
    { frame with innerHandle := some frames.next, point := .resumption frames.next next } goesOn

theorem areUser_ofCode {code : Code User Own} (isUser : code.IsUser) : (ofCode code).AreUser :=
  have nothing : AreUser ⟨1, fun _ => none⟩ := fun _ _ there => nomatch there
  nothing.put rootHandle (start none code) isUser

end Frames

namespace Runners

variable {Worker Key : Type}

/-- The runner wakes nothing, and what it executes is a coroutine of the program. -/
def Pc.Computes : Pc User Own → Prop
  | .waking rest _ => rest = []
  | .storing _ _ _ => False
  | .scheduling _ _ _ => False
  | .executing _ _ frame code => frame.IsUser ∧ code.IsUser
  | _ => True

/-- Nothing is handed over, and all coroutines are those of the program. -/
structure Computing (s : State Worker User Own Key) : Prop where
  timers : s.timers.tasks = []
  epoll : s.epoll.armed = []
  frames : ∀ task, (s.frames task).AreUser
  pcs : ∀ worker, (s.pc worker).Computes

variable [DecidableEq Worker] [DecidableEq Key]
variable {program : User → UserInstr User Own Local} {s next : State Worker User Own Key}
variable {worker : Worker} {choice : Choice Own Key} {task : TaskId}

/-! ## Every step -/

omit [DecidableEq Key] in
theorem Computing.goto
    (computing : Computing s) {pc : Pc User Own} (computes : pc.Computes) :
    Computing (s.goto worker pc) where
  timers := computing.timers
  epoll := computing.epoll
  frames := computing.frames
  pcs other := by
    by_cases same : other = worker
    · subst same
      rw [State.goto_pc]
      exact computes
    · rw [s.goto_pc_of_ne _ same]
      exact computing.pcs other

omit [DecidableEq Worker] [DecidableEq Key] in
theorem Computing.setFrames
    (computing : Computing s) (task : TaskId) {frames : Frames (Code User Own) (Result Own)}
    (areUser : frames.AreUser) : Computing (s.setFrames task frames) where
  timers := computing.timers
  epoll := computing.epoll
  frames other := by
    change (Function.update s.frames task frames other).AreUser
    by_cases same : other = task
    · subst same
      rw [Function.update_self]
      exact areUser
    · rw [Function.update_of_ne same]
      exact computing.frames other
  pcs := computing.pcs

omit [DecidableEq Worker] [DecidableEq Key] in
theorem Computing.spawn (computing : Computing s) {start : Start User} (isUser : start.IsUser) :
    Computing (s.spawn start) :=
  have spawned := computing.setFrames s.spawned.length (Frames.areUser_ofCode isUser.code)
  ⟨spawned.timers, spawned.epoll, spawned.frames, spawned.pcs⟩

omit [DecidableEq Key] in
theorem Computing.halt
    (computing : Computing s) (curr : Handle) {frames : Frames (Code User Own) (Result Own)}
    (areUser : frames.AreUser) : Computing ((s.suspend task curr frames).goto worker
      (.resumed task curr)) :=
  have left := computing.setFrames task areUser
  have suspended : Computing (s.suspend task curr frames) :=
    ⟨left.timers, left.epoll, left.frames, left.pcs⟩
  suspended.goto trivial

theorem Computing.executes
    {curr : Handle} {frame : Frame (Code User Own) (Result Own)} {code : Code User Own}
    (computes : ∀ here, (program here).Computes) (computing : Computing s)
    (there : s.pc worker = .executing task curr frame code)
    (executes : Executes program s worker task curr frame code choice next) : Computing next := by
  have inCoroutine := computing.pcs worker
  rw [there] at inCoroutine
  obtain ⟨own, isUser⟩ := inCoroutine
  have instr := Code.computing_instr computes isUser
  cases executes with
  | perform body performed =>
      rw [body] at instr
      cases instr with
      | perform goesOn =>
          cases choice with
          | value value =>
              obtain ⟨rfl, rfl⟩ := Prod.mk.inj (Option.some.inj performed)
              exact computing.goto ⟨own, goesOn value⟩
          | _ => cases performed
      | spawn started goesOn =>
          cases choice with
          | go =>
              obtain ⟨rfl, rfl⟩ := Prod.mk.inj (Option.some.inj performed)
              exact (computing.spawn started).goto ⟨own, goesOn⟩
          | _ => cases performed
  | wait body =>
      rw [body] at instr
      cases instr
  | suspend body =>
      rw [body] at instr
      cases instr with
      | suspend goesOn => exact computing.halt curr ((computing.frames task).put curr _ goesOn)
  | await body =>
      rw [body] at instr
      cases instr with
      | await started goesOn =>
          exact computing.halt curr ((computing.frames task).await started goesOn)
  | ret body => exact computing.halt curr ((computing.frames task).put curr _ trivial)

theorem Computing.moves
    (computes : ∀ here, (program here).Computes) (computing : Computing s)
    (moves : Moves program s worker choice next) : Computing next := by
  have computesHere := computing.pcs worker
  cases moves with
  | crash => exact ⟨computing.timers, computing.epoll, computing.frames, computing.pcs⟩
  | poll here tasks unlocked now =>
      have polled : Computing { s with
          timers := (s.timers.getDelay now).pool, timersLock := true } :=
        ⟨by simp [TimerPool.getDelay, computing.timers, TimerPool.getDelayLoop], computing.epoll,
          computing.frames, computing.pcs⟩
      refine polled.goto ?_
      simp [Pc.Computes, TimerPool.getDelay, computing.timers, TimerPool.getDelayLoop]
  | due here | event here | store here | push here =>
      rw [here] at computesHere
      cases computesHere
  | @report _ here events possible =>
      obtain ⟨-, among, -⟩ := possible
      rw [computing.epoll, List.subset_nil, List.map_eq_nil_iff] at among
      subst among
      have disarmed : Computing { s with epoll := s.epoll.disarm [] } :=
        ⟨computing.timers, by simp [Epoll.disarm, computing.epoll], computing.frames,
          computing.pcs⟩
      exact disarmed.goto rfl
  | @resume task curr frame code here rests point =>
      have own := computing.frames task curr frame rests.found
      have busy : Computing { s with resumed := insert (task, curr) s.resumed } :=
        ⟨computing.timers, computing.epoll, computing.frames, computing.pcs⟩
      refine busy.goto ⟨own, ?_⟩
      rw [Frame.IsUser, point] at own
      exact own
  | @take task curr frame child after value here rests point =>
      have own := computing.frames task curr frame rests.found
      have taken : Computing (s.setFrames task ((s.frames task).put child none)) :=
        computing.setFrames task ((computing.frames task).update child fun _ there =>
          absurd there (Option.not_mem_none _))
      have busy : Computing { s.setFrames task ((s.frames task).put child none) with
          resumed := insert (task, curr) s.resumed } :=
        ⟨taken.timers, taken.epoll, taken.frames, taken.pcs⟩
      refine busy.goto ⟨own, ?_⟩
      rw [Frame.IsUser, point] at own
      exact own value
  | execute here executes => exact computing.executes computes here executes
  | @unwind task curr frame outer awaiting here _ _ _ restsOuter =>
      have own : awaiting.resumable.IsUser := computing.frames task outer awaiting restsOuter.found
      refine (computing.setFrames task ((computing.frames task).put outer _ own)).goto ?_
      trivial
  | unlock here | pop here | requeue here | erase here =>
      apply Computing.goto
      · exact ⟨computing.timers, computing.epoll, computing.frames, computing.pcs⟩
      · trivial
  | ends here =>
      refine computing.goto ?_
      split_ifs <;> trivial
  | _ => exact computing.goto trivial

theorem Computing.step
    {label : Label Worker User Own Key} (computes : ∀ here, (program here).Computes)
    (computing : Computing s) (spawns : ∀ start, label = .spawn start → start.IsUser)
    (stepped : s.step program label = some next) : Computing next := by
  obtain ⟨-, ⟨worker, choice, rfl, moves⟩ | ⟨start, rfl, rfl⟩ | ⟨rfl, rfl⟩ | ⟨key, rfl, rfl⟩⟩ :=
    step_cases stepped
  · exact computing.moves computes moves
  · exact computing.spawn (spawns start rfl)
  · exact ⟨computing.timers, computing.epoll, computing.frames, computing.pcs⟩
  · exact ⟨computing.timers, by simp [Epoll.forget, computing.epoll], computing.frames,
      computing.pcs⟩

omit [DecidableEq Worker] [DecidableEq Key] in
theorem Computing.wakesOutside
    (computing : Computing s) (label : Label Worker User Own Key) : WakesOutside s label := by
  intro worker choice task rest source _ storing
  have computes := computing.pcs worker
  rw [storing] at computes
  cases computes

/-! ## Every run -/

omit [DecidableEq Worker] [DecidableEq Key] in
theorem computing_initial : Computing (State.initial : State Worker User Own Key) where
  timers := rfl
  epoll := rfl
  frames _ _ _ there := nomatch there
  pcs _ := trivial

/-- Nothing is woken on the runs of a program that only computes. -/
theorem wakesOutside_of_computes
    {labels : List (Label Worker User Own Key)} (computes : ∀ here, (program here).Computes)
    (spawns : ∀ start, .spawn start ∈ labels → start.IsUser) (computing : Computing s) :
    Machine.AllSteps (State.step program) WakesOutside s labels := by
  induction labels generalizing s with
  | nil => trivial
  | cons label labels inductionHypothesis =>
      intro next stepped
      have computingNext := computing.step computes
        (fun start same => spawns start (same ▸ List.mem_cons_self)) stepped
      exact ⟨computing.wakesOutside label, inductionHypothesis
        (fun start present => spawns start (List.mem_cons_of_mem _ present)) computingNext⟩

/-- Any number of runners isolates the tasks of a program that only computes, in every
interleaving: no runner uses a coroutine that is running or was destroyed, each task is in
the hands of one runner at most and has done the first part of an execution of its own code,
and where no runner is inside its `one_step`, what an execution does up to a suspension or
to its end. -/
theorem computing_isolated
    [Inhabited Key] {last : State Worker User Own Key} {labels : List (Label Worker User Own Key)}
    (computes : ∀ here, (program here).Computes)
    (spawns : ∀ start, .spawn start ∈ labels → start.IsUser)
    (ran : Machine.run (State.step program) State.initial labels = some last) :
    Exclusive last ∧ ∀ task start, last.spawned[task]? = some start →
      Recording.Begun program start.code
          (Reactor.part task (log program State.initial labels)) ∧
        ((∀ worker, (last.pc worker).inside ≠ some task) →
          FollowsOwnCode program last task start
            (Reactor.part task (log program State.initial labels))) := by
  obtain ⟨coroutine, delivered, refines⟩ :=
    refined_of_run (wakesOutside_of_computes computes spawns computing_initial) ran
  exact ⟨refines.exclusive, fun task start born =>
    ⟨refines.begun born, refines.followsOwnCode born⟩⟩

/-- A program whose tasks await a coroutine that performs an effect. -/
def counting : Nat → UserInstr Nat Unit Unit
  | 0 => .await (.user 1) fun _ => 2
  | 1 => .perform () fun _ => 2
  | _ + 2 => .ret ()

/-- A runner performs the effect. -/
def counts (worker : Bool) : Label Bool Nat Unit Nat :=
  .work worker (.value ())

/-- One of two runners finishes its task, the other one is inside its own. -/
def twoCounts : List (Label Bool Nat Unit Nat) :=
  [.spawn (.user 0), .spawn (.user 0)] ++ startRound true 0 0 ++ startRound false 0 0 ++
    goes true 10 ++ goes false 10 ++ goes true 7 ++ counts true :: goes true 7 ++
    goes false 7 ++ [counts false]

theorem computing_isolated_twoCounts :
    ∃ last, Machine.run (State.step counting) State.initial twoCounts = some last ∧
      last.active = {1} ∧ (last.pc false).inside = some 1 ∧
      Reactor.part 1 (log counting State.initial twoCounts) = [.performed (.perform ()) ()] ∧
      Exclusive last ∧ ∀ task start, last.spawned[task]? = some start →
        Recording.Begun counting start.code
            (Reactor.part task (log counting State.initial twoCounts)) ∧
          ((∀ worker, (last.pc worker).inside ≠ some task) →
            FollowsOwnCode counting last task start
              (Reactor.part task (log counting State.initial twoCounts))) := by
  obtain ⟨last, ran, active, inside, record⟩ : ∃ last,
      Machine.run (State.step counting) State.initial twoCounts = some last ∧
        last.active = {1} ∧ (last.pc false).inside = some 1 ∧
        Reactor.part 1 (log counting State.initial twoCounts) = [.performed (.perform ()) ()] :=
    ⟨_, rfl, by decide, rfl, rfl⟩
  refine ⟨last, ran, active, inside, record,
    computing_isolated (fun here => ?_) (fun start present => ?_) ran⟩
  · match here with
    | 0 => exact ⟨1, rfl⟩
    | 1 => trivial
    | _ + 2 => trivial
  · have isUser : start = .user 0 := by
      simpa [twoCounts, startRound, goes, counts] using present
    exact ⟨0, isUser⟩

end Runners

end Cppio
