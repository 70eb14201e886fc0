import Cppio.Workers.Availability
import Cppio.Workers.Image

/-!
# One worker

The machine of several workers leaves open what coroutines compute; the reactor with one
worker runs them.  With one thread, which calls `run` as often as it likes, every run of
the reactor is a run of that machine.
-/

namespace Cppio

/-- The same step with other keys. -/
def ParkStep.map {Key Key' : Type} (key : Key → Key') : ParkStep Key → ParkStep Key'
  | .wait => .wait
  | .register interest sock => .register interest (key sock)
  | .startTimer delay => .startTimer delay

/-- The same operation with another key. -/
def Operation.map {Key Key' : Type} (key : Key → Key') : Operation Key → Operation Key'
  | .connect sock => .connect (key sock)
  | .accept sock => .accept (key sock)
  | .tcpRead sock => .tcpRead (key sock)
  | .tcpWrite sock => .tcpWrite (key sock)
  | .udpRead sock => .udpRead (key sock)
  | .udpWrite sock => .udpWrite (key sock)
  | .sleep delay => .sleep delay

theorem Operation.parkSteps_map
    {Key Key' : Type} (key : Key → Key') (operation : Operation Key) :
    (operation.map key).parkSteps = operation.parkSteps.map (ParkStep.map key) := by
  cases operation with
  | _ => rfl

namespace Workers

variable {User Own Local Key Outside : Type}

/-! ## In the coroutines of a task -/

section

variable [DecidableEq Key]
variable {first : State Unit Key} {s s' : Reactor User Own Key Outside} {task : TaskId}
variable {steps steps' : Option (List (ParkStep Key))}

/-- From `first` the worker has come into the coroutines of the task; `steps` are left of an
operation's parking. -/
def Turn
    (first : State Unit Key) (task : TaskId) (steps : Option (List (ParkStep Key)))
    (s : Reactor User Own Key Outside) : Prop :=
  task < s.spawned ∧ ∃ coroutine delivered,
    Machine.Reachable State.step first
        (image s false (.executing task steps) coroutine delivered) ∧
      coroutine task = .running ∧ ∀ other ≠ task, Stage s coroutine other

theorem Turn.move
    (turn : Turn first task steps s) (born : task < s'.spawned)
    (moves : ∀ coroutine delivered, ∃ delivered', Machine.Reachable State.step
      (image s false (.executing task steps) coroutine delivered)
      (image s' false (.executing task steps') coroutine delivered'))
    (stages : ∀ {coroutine other}, other ≠ task → Stage s coroutine other →
      Stage s' coroutine other) :
    Turn first task steps' s' := by
  obtain ⟨-, coroutine, delivered, reached, running, others⟩ := turn
  obtain ⟨delivered', moved⟩ := moves coroutine delivered
  exact ⟨born, coroutine, delivered', reached.trans moved, running,
    fun other different => stages different (others other different)⟩

theorem Turn.deed (turn : Turn first task steps s) (deed : Deed User Key) :
    Turn first task steps (s.deed deed) := by
  have born : task < (s.deed deed).spawned := by
    cases deed with
    | spawn start => exact Nat.lt_succ_of_lt turn.1
    | _ => exact turn.1
  exact turn.move born (fun _ delivered => ⟨delivered, reachable_deed deed⟩)
    fun _ stage => stage.deed deed

theorem Turn.deeds (turn : Turn first task steps s) (deeds : List (Deed User Key)) :
    Turn first task steps (deeds.foldl Reactor.deed s) := by
  induction deeds generalizing s with
  | nil => exact turn
  | cons deed deeds inductionHypothesis => exact inductionHypothesis (turn.deed deed)

omit [DecidableEq Key] in
theorem Stage.outside
    {coroutine : TaskId → Coroutine} (stage : Stage s coroutine task) (outside : Outside) :
    Stage { s with outside := outside } coroutine task := stage.congr rfl rfl rfl

theorem Turn.outside (turn : Turn first task steps s) (outside : Outside) :
    Turn first task steps { s with outside := outside } :=
  turn.move turn.1 (fun _ delivered => ⟨delivered, .refl _ _⟩) fun _ stage => stage.outside outside

/-- An effect that does not hand the task over. -/
theorem Turn.perform
    (turn : Turn first task steps s) (surroundings : Surroundings User Own Local Key Outside)
    {effect : Effect User Local} (calm : effect.isArm = false) :
    Turn first task steps (Reactor.perform surroundings task effect s).2 := by
  cases effect with
  | syscall call => exact (turn.outside _).deeds _
  | overlapped =>
      exact turn.move turn.1 (fun _ delivered => ⟨delivered, .refl _ _⟩)
        fun _ stage => stage.congr rfl rfl rfl
  | success => exact turn
  | register interest sock => cases calm
  | startTimer delay => cases calm
  | perform effect => exact (turn.outside _).deeds _
  | spawn start => exact turn.deed (.spawn start)

/-- The coroutine begins to park by an operation. -/
theorem Turn.start (turn : Turn first task none s) (operation : Operation Key) :
    Turn first task (some operation.parkSteps) s :=
  turn.move turn.1 (fun _ delivered => ⟨delivered, reachable_of_work (.start operation) rfl⟩)
    fun _ stage => stage

/-- The coroutine suspends, and its task is not handed over. -/
theorem Turn.suspend (turn : Turn first task none s) : Turn first task (some []) s :=
  turn.move turn.1 (fun _ delivered => ⟨delivered, reachable_of_work .awaitChild rfl⟩)
    fun _ stage => stage

theorem Turn.wait {rest : List (ParkStep Key)} (turn : Turn first task (some (.wait :: rest)) s) :
    Turn first task (some rest) (s.setState task .wait) :=
  turn.move turn.1
    (fun _ delivered => ⟨delivered, reachable_of_work (.park true 0) rfl⟩)
    fun _ stage => stage.congr rfl rfl rfl

/-- The key of a descriptor, as `epoll_ctl` finds it. -/
def keyOf
    (surroundings : Surroundings User Own Local Key Outside) (unregistered : Key)
    (outside : Outside) (sock : SocketT) : Key :=
  (surroundings.epollCtl outside sock).getD unregistered

theorem Turn.register
    {surroundings : Surroundings User Own Local Key Outside} {unregistered : Key}
    {interest : Interest} {sock : SocketT} {rest : List (ParkStep Key)}
    (turn : Turn first task
      (some (.register interest (keyOf surroundings unregistered s.outside sock) :: rest)) s) :
    Turn first task (some rest)
      (Reactor.perform surroundings task (.register interest sock : Effect User Local) s).2 := by
  cases known : surroundings.epollCtl s.outside sock with
  | none =>
      have same : (Reactor.perform surroundings task
          (.register interest sock : Effect User Local) s).2 = s := by
        simp only [Reactor.perform, known]
      rw [same]
      exact turn.move turn.1 (fun _ _ => ⟨_, reachable_of_work (.park false 0) rfl⟩)
        fun _ stage => stage
  | some key =>
      have added : (Reactor.perform surroundings task
          (.register interest sock : Effect User Local) s).2 =
          { s with epoll := s.epoll.add ⟨key, interest, task⟩ } := by
        simp only [Reactor.perform, known]
      rw [keyOf, known, Option.getD_some] at turn
      rw [added]
      exact turn.move turn.1 (fun _ _ => ⟨_, reachable_of_work (.park true 0) rfl⟩)
        fun _ stage => stage.congr rfl rfl rfl

theorem Turn.startTimer
    {surroundings : Surroundings User Own Local Key Outside}
    {delay : Int} {rest : List (ParkStep Key)}
    (turn : Turn first task (some (.startTimer delay :: rest)) s) :
    Turn first task (some rest)
      (Reactor.perform surroundings task (.startTimer delay : Effect User Local) s).2 :=
  turn.move turn.1
    (fun _ _ => ⟨_, reachable_of_work (.park true (surroundings.now s.outside)) rfl⟩)
    fun _ stage => stage.congr rfl rfl rfl

end

/-! ## A call of `one_step` -/

section

variable [DecidableEq Key]

/-- How far the running coroutine is on its way to a suspension. -/
inductive Course
    (surroundings : Surroundings User Own Local Key Outside) (unregistered : Key)
    (first : State Unit Key) (task : TaskId) (s : Reactor User Own Key Outside)
    (instr : Instr (Code User Own) (Effect User Local) (Result Own) (Effect.Reply Own)) : Prop
  | calm (operating : Code.Operating instr) (state : s.state task = .run)
      (turn : Turn first task none s)
  | parking {steps : List (ParkStep SocketT)} {next : Code User Own}
      (parks : instr = Code.parkInstr next steps) (operates : next.Operates)
      (turn : Turn first task
        (some (steps.map (ParkStep.map (keyOf surroundings unregistered s.outside)))) s)

variable {surroundings : Surroundings User Own Local Key Outside} {unregistered : Key}
variable {first : State Unit Key} {task : TaskId} {s : Reactor User Own Key Outside}

theorem course_of_operates
    {code : Code User Own} (operates : code.Operates) (state : s.state task = .run)
    (turn : Turn first task none s) :
    Course surroundings unregistered first task s (code.instr surroundings.program) := by
  rcases Code.operating_or_park surroundings.program operates with
    operating | ⟨operation, next, parks, -, operatesNext⟩
  · exact .calm operating state turn
  · refine .parking parks operatesNext ?_
    rw [← Operation.parkSteps_map]
    exact turn.start _

/-- A coroutine that awaits or returns is not on its way to suspension. -/
theorem Course.calm_of
    {instr : Instr (Code User Own) (Effect User Local) (Result Own) (Effect.Reply Own)}
    (course : Course surroundings unregistered first task s instr)
    (suspend : ∀ after, instr ≠ .suspend after) (wait : ∀ after, instr ≠ .wait after)
    (perform : ∀ effect after, instr ≠ .perform effect after) :
    Code.Operating instr ∧ s.state task = .run ∧ Turn first task none s := by
  cases course with
  | calm operating state turn => exact ⟨operating, state, turn⟩
  | @parking steps next parks =>
      rcases Code.parkInstr_cases steps next with ⟨after, is⟩ | ⟨after, is⟩ | ⟨effect, after, is⟩
      · exact absurd (parks.trans is) (suspend after)
      · exact absurd (parks.trans is) (wait after)
      · exact absurd (parks.trans is) (perform effect after)

theorem outside_of_isArm
    {effect : Effect User Local} (isArm : effect.isArm = true) :
    (Reactor.perform surroundings task effect s).2.outside = s.outside := by
  cases effect with
  | register interest sock =>
      simp only [Reactor.perform]
      split <;> rfl
  | startTimer delay => rfl
  | _ => cases isArm

theorem state_of_perform (effect : Effect User Local) :
    (Reactor.perform surroundings task effect s).2.state = s.state := by
  have deeds : ∀ (deeds : List (Deed User Key)) (s : Reactor User Own Key Outside),
      (deeds.foldl Reactor.deed s).state = s.state := by
    intro deeds
    induction deeds with
    | nil => exact fun _ => rfl
    | cons deed deeds inductionHypothesis =>
        refine fun s => (inductionHypothesis (s.deed deed)).trans ?_
        cases deed with
        | _ => rfl
  cases effect with
  | syscall call => exact deeds _ _
  | perform effect => exact deeds _ _
  | register interest sock =>
      simp only [Reactor.perform]
      split <;> rfl
  | _ => rfl

/-- The steps of the other machine for a step of the running coroutine. -/
def outline
    (surroundings : Surroundings User Own Local Key Outside) (unregistered : Key)
    (first : State Unit Key) (task : TaskId) :
    Outline (Reactor.system surroundings task) where
  Running nexts code s :=
    (∀ next ∈ nexts, ∀ result, (next result).Operates) ∧
      Course surroundings unregistered first task s (code.instr surroundings.program)
  Resting nexts code s :=
    (code.Operates ∧ ∀ next ∈ nexts, ∀ result, (next result).Operates) ∧
      s.state task = .run ∧ Turn first task none s
  Suspended nexts code s :=
    (code.Operates ∧ ∀ next ∈ nexts, ∀ result, (next result).Operates) ∧
      Turn first task (some []) s
  Finished _ s := Turn first task none s
  perform := by
    rintro nexts code s effect next ⟨below, course⟩ body
    replace body : code.instr surroundings.program = .perform effect next := body
    rw [body] at course
    refine ⟨below, ?_⟩
    change Course surroundings unregistered first task
      (Reactor.perform surroundings task effect s).2 _
    cases course with
    | calm operating state turn =>
        cases operating with
        | perform calm operates =>
            refine course_of_operates (operates _) ?_ (turn.perform surroundings calm)
            rw [state_of_perform]
            exact state
    | @parking steps after parks operates turn =>
        obtain ⟨arm, rest, rfl, -, -, isArm, goesOn⟩ := Code.parkInstr_eq_perform parks.symm
        rw [goesOn]
        refine .parking rfl operates ?_
        rw [outside_of_isArm isArm]
        cases arm with
        | wait => cases parks
        | register interest sock =>
            cases parks
            exact turn.register
        | startTimer delay =>
            cases parks
            exact turn.startTimer
  wait := by
    rintro nexts code s next ⟨below, course⟩ body
    replace body : code.instr surroundings.program = .wait next := body
    rw [body] at course
    cases course with
    | calm operating => cases operating
    | parking parks operates turn =>
        obtain ⟨rest, rfl, rfl⟩ := Code.parkInstr_eq_wait parks.symm
        exact ⟨below, .parking rfl operates turn.wait⟩
  suspend := by
    rintro nexts code s next ⟨below, course⟩ body
    replace body : code.instr surroundings.program = .suspend next := body
    rw [body] at course
    cases course with
    | calm operating state turn =>
        cases operating with
        | suspend operates => exact ⟨⟨operates, below⟩, turn.suspend⟩
    | parking parks operates turn =>
        obtain ⟨rfl, rfl⟩ := Code.parkInstr_eq_suspend parks.symm
        exact ⟨⟨operates, below⟩, turn⟩
  await := by
    rintro nexts code s child next ⟨below, course⟩ body
    replace body : code.instr surroundings.program = .await child next := body
    rw [body] at course
    obtain ⟨operating, -, turn⟩ := course.calm_of (by simp) (by simp) (by simp)
    cases operating with
    | await operates operatesNext =>
        exact ⟨⟨operates, List.forall_mem_cons.mpr ⟨operatesNext, below⟩⟩, turn.suspend⟩
  awake := by
    rintro nexts code s value next ⟨-, course⟩ body
    replace body : code.instr surroundings.program = .ret value := body
    rw [body] at course
    obtain ⟨-, running, -⟩ := course.calm_of (by simp) (by simp) (by simp)
    change s.state task ≠ .wait
    rw [running]
    decide
  ret := by
    rintro nexts code s value next frames handle ⟨below, course⟩ body -
    replace body : code.instr surroundings.program = .ret value := body
    rw [body] at course
    obtain ⟨-, running, turn⟩ := course.calm_of (by simp) (by simp) (by simp)
    obtain ⟨operates, below⟩ := List.forall_mem_cons.mp below
    exact ⟨below, course_of_operates (operates value) running turn⟩
  finish := by
    rintro code s value ⟨-, course⟩ body
    replace body : code.instr surroundings.program = .ret value := body
    rw [body] at course
    obtain ⟨-, -, turn⟩ := course.calm_of (by simp) (by simp) (by simp)
    exact turn
  start := by
    rintro nexts code s frames handle ⟨⟨operates, below⟩, state, turn⟩ - -
    exact ⟨below, course_of_operates operates state turn⟩

omit [DecidableEq Key] in
theorem settle_frame
    (s : Reactor User Own Key Outside) (task : TaskId) (result : ScheduleType) :
    (s.settle task result).spawned = s.spawned ∧ (s.settle task result).frames = s.frames := by
  cases result with
  | _ => exact ⟨rfl, rfl⟩

/-- From the coroutines of a task the worker comes back to `process_tasks`. -/
theorem back_of_result
    {result : ScheduleType} {frames : Frames (Code User Own) (Result Own)}
    (left : (outline surroundings unregistered first task).Result result frames s) :
    ∃ coroutine delivered,
      Machine.Reachable State.step first
        (image ((s.setFrames task frames).settle task result) false .processing coroutine
          delivered) ∧
      ∀ other, Stage ((s.setFrames task frames).settle task result) coroutine other := by
  obtain ⟨spawned, kept⟩ := settle_frame (s.setFrames task frames) task result
  have own : ((s.setFrames task frames).settle task result).frames task = frames := by
    rw [kept]
    exact Function.update_self ..
  have elsewhere : ∀ {other}, other ≠ task →
      ((s.setFrames task frames).settle task result).frames other = s.frames other := by
    intro other different
    rw [kept]
    exact Function.update_of_ne different _ _
  obtain ⟨rfl, value, finishedWith, born, coroutine, delivered, reached, running, others⟩ |
    ⟨rfl, suspended⟩ := left
  · let coroutine' := Function.update coroutine task Coroutine.finished
    have finish : Machine.Reachable State.step
        (image s false (.executing task none) coroutine delivered)
        (image s false (.returned task .done) coroutine' delivered) :=
      reachable_of_work .finish rfl
    have erase : Machine.Reachable State.step
        (image s false (.returned task .done) coroutine' delivered)
        (image ((s.setFrames task frames).settle task .done) false .processing coroutine'
          delivered) := reachable_of_work .go rfl
    refine ⟨coroutine', delivered, (reached.trans finish).trans erase, fun other => ?_⟩
    by_cases same : other = task
    · subst same
      exact .finished born ⟨value, own.symm ▸ finishedWith⟩ (Function.update_self ..)
    · exact (others other same).congr spawned (elsewhere same) (Function.update_of_ne same _ _)
  · obtain ⟨handle, frame, code, nexts, stacked, point, operates, born, coroutine, delivered,
      reached, running, others⟩ := suspended
    let coroutine' := Function.update coroutine task Coroutine.suspended
    have suspend : Machine.Reachable State.step
        (image s false (.executing task (some [])) coroutine delivered)
        (image s false (.suspended task) coroutine' delivered) := reachable_of_work .go rfl
    have check : Machine.Reachable State.step
        (image s false (.suspended task) coroutine' delivered)
        (image s false (.checked task) coroutine' delivered) := by
      have isSuspended : coroutine' task = .suspended := Function.update_self ..
      refine reachable_of_work .go ?_
      simp only [State.work, image, isSuspended]
    have load : Machine.Reachable State.step
        (image s false (.checked task) coroutine' delivered)
        (image s false (.returned task (s.state task)) coroutine' delivered) :=
      reachable_of_work .go rfl
    have settle : Machine.Reachable State.step
        (image s false (.returned task (s.state task)) coroutine' delivered)
        (image ((s.setFrames task frames).settle task (s.state task)) false .processing coroutine'
          delivered) := by
      cases s.state task with
      | _ => exact reachable_of_work .go rfl
    refine ⟨coroutine', delivered, (((reached.trans suspend).trans check).trans load).trans settle,
      fun other => ?_⟩
    by_cases same : other = task
    · subst same
      refine .suspended (spawned ▸ born) ?_ (Function.update_self ..)
      rw [own]
      exact ⟨handle, frame, code, nexts, stacked, point, operates⟩
    · exact (others other same).congr spawned (elsewhere same) (Function.update_of_ne same _ _)

/-- `process_tasks` takes the first task and resumes its coroutines. -/
theorem reachable_enter
    {rest : List TaskId} {coroutine : TaskId → Coroutine} {delivered : TaskId → Bool}
    (first : s.tasks = task :: rest) (state : s.state task = .run)
    (isSuspended : coroutine task = .suspended) :
    Machine.Reachable State.step (image s false .processing coroutine delivered)
      (image s.popFront false (.executing task none)
        (Function.update coroutine task .running) delivered) := by
  have pop : Machine.Reachable State.step (image s false .processing coroutine delivered)
      (image s.popFront false (.popped task) coroutine delivered) := by
    refine reachable_of_work .go ?_
    simp only [State.work, image, Reactor.popFront, first]
    rfl
  have call : Machine.Reachable State.step
      (image s.popFront false (.popped task) coroutine delivered)
      (image s.popFront false (.entered task) coroutine delivered) := by
    refine reachable_of_work .go ?_
    simp only [State.work, image, Reactor.popFront, state]
    rfl
  have walk : Machine.Reachable State.step
      (image s.popFront false (.entered task) coroutine delivered)
      (image s.popFront false (.walking task) coroutine delivered) := by
    refine reachable_of_work .go ?_
    simp only [State.work, image, Reactor.popFront, state]
    rfl
  have ready : Machine.Reachable State.step
      (image s.popFront false (.walking task) coroutine delivered)
      (image s.popFront false (.resuming task) coroutine delivered) := by
    refine reachable_of_work .go ?_
    simp only [State.work, image, Reactor.popFront, state, isSuspended]
    rfl
  have resume : Machine.Reachable State.step
      (image s.popFront false (.resuming task) coroutine delivered)
      (image s.popFront false (.executing task none)
        (Function.update coroutine task .running) delivered) := by
    refine reachable_of_work .go ?_
    simp only [State.work, image, Reactor.popFront, isSuspended]
    rfl
  exact (((pop.trans call).trans walk).trans ready).trans resume

/-- A round of `process_tasks`. -/
theorem reachable_process
    {rest : List TaskId} {fuel : Nat} {next : Reactor User Own Key Outside}
    {coroutine : TaskId → Coroutine} {delivered : TaskId → Bool}
    (unregistered : Key) (disciplined : Reactor.Disciplined s)
    (stages : ∀ other, Stage s coroutine other) (here : s.pc = .processing)
    (first : s.tasks = task :: rest)
    (processed : s.popFront.process surroundings fuel task = some next) :
    ∃ coroutine' delivered', next.pc = .processing ∧
      Machine.Reachable State.step (image s false .processing coroutine delivered)
        (image next false .processing coroutine' delivered') ∧
      ∀ other, Stage next coroutine' other := by
  obtain ⟨-, -, pc, -⟩ :=
    Reactor.standing_process disciplined.standing first disciplined.defined here processed
  obtain ⟨current, unfinished, state, -⟩ :=
    Reactor.current_of_pop disciplined.standing first disciplined.defined here
  cases stages task with
  | unborn unborn => exact absurd current.born (Nat.not_lt_of_le unborn)
  | finished _ done =>
      obtain ⟨value, finishedWith⟩ := done
      exact absurd finishedWith (unfinished.unfinished value)
  | suspended born suspendedAt isSuspended =>
      let executing := image s.popFront false (.executing task none)
        (Function.update coroutine task .running) delivered
      have turn : Turn executing task none s.popFront :=
        ⟨born, _, delivered, .refl _ _, Function.update_self .., fun other different =>
          (stages other).congr rfl rfl (Function.update_of_ne different _ _)⟩
      have rests : (s.popFront.frames task).SuspendedAt fun nexts code =>
          (outline surroundings unregistered executing task).Resting nexts code s.popFront :=
        suspendedAt.imp fun nexts code operates => ⟨operates, state, turn⟩
      have awake : s.popFront.state task ≠ .wait := by
        change s.state task ≠ .wait
        rw [state]
        decide
      unfold Reactor.process at processed
      rw [if_neg awake] at processed
      rcases (outline surroundings unregistered executing task).oneStep_result rests awake fuel with
        stuck | ⟨result, frames, s', returned, left⟩
      · simp only [stuck] at processed
        cases processed
      · simp only [returned] at processed
        obtain rfl := Option.some.inj processed
        obtain ⟨coroutine', delivered', reached, stages'⟩ := back_of_result left
        exact ⟨coroutine', delivered', pc,
          (reachable_enter first state isSuspended).trans reached, stages'⟩

end

/-! ## Runs -/

section

variable [DecidableEq Key]

/-- A step of the reactor, or a call of `run` by the one thread. -/
inductive CallLabel (Key : Type)
  | call
  | reactor (label : Label Unit Key)

/-- The worker is the thread that calls `run`, whenever it is not in it. -/
def State.callStep (w : State Unit Key) : CallLabel Key → Option (State Unit Key)
  | .call =>
      if w.undefined then none
      else if (w.pc ()).isExited then some (w.goto () .head) else none
  | .reactor label => w.step label

theorem reachable_callStep
    {w w' : State Unit Key} (reachable : Machine.Reachable State.step w w') :
    Machine.Reachable State.callStep w w' := by
  obtain ⟨labels, ran⟩ := reachable
  refine ⟨labels.map .reactor, ?_⟩
  rw [Machine.run, List.foldlM_map]
  exact ran

variable {surroundings : Surroundings User Own Local Key Outside}
variable {s next : Reactor User Own Key Outside}

/-- Each step of the reactor is steps of the other machine. -/
theorem represents_of_step
    {label : Reactor.Label User Key Outside} {w : State Unit Key} (unregistered : Key)
    (disciplined : Reactor.Disciplined s) (represents : Represents s w)
    (stepped : Reactor.step surroundings s label = some next) :
    ∃ w', Machine.Reachable State.callStep w w' ∧ Represents next w' := by
  obtain ⟨coroutine, delivered, rfl, stages⟩ := represents
  -- The worker goes on, and the coroutines are as they were.
  have goesOn : ∀ {next : Reactor User Own Key Outside} (delivered' : TaskId → Bool),
      next.spawned = s.spawned → next.frames = s.frames →
      Machine.Reachable State.step (image s false (pcOf s.pc) coroutine delivered)
        (image next false (pcOf next.pc) coroutine delivered') →
      ∃ w', Machine.Reachable State.callStep (image s false (pcOf s.pc) coroutine delivered) w' ∧
        Represents next w' := fun _ spawned frames reached =>
    ⟨_, reachable_callStep reached, coroutine, _, rfl,
      fun other => (stages other).congr spawned (congrFun frames other) rfl⟩
  cases Reactor.moves_of_step stepped with
  | call here =>
      refine ⟨image s false .head coroutine delivered, ?_, coroutine, delivered, rfl,
        fun other => (stages other).congr rfl rfl rfl⟩
      have called : (image s false (pcOf s.pc) coroutine delivered).callStep .call =
          some (image s false .head coroutine delivered) := by
        rw [here]
        exact congrArg some (image_goto _)
      exact Machine.reachable_of_step called
  | exit here noTask =>
      refine goesOn delivered rfl rfl ?_
      rw [here]
      exact reachable_of_work (.clock 0) (if_pos noTask)
  | poll here =>
      have active : s.active ≠ ∅ := by
        intro noTask
        have exits : Reactor.step surroundings s .test = some (s.goto .returned) := by
          simp [Reactor.step, disciplined.defined, here, noTask]
        cases congrArg (Option.map Reactor.pc) (exits.symm.trans stepped)
      refine goesOn delivered (Reactor.foldl_wake_frame _ _).2 (Reactor.foldl_wake_frames _ _) ?_
      rw [here]
      exact reachable_poll active _
  | complete here possible =>
      obtain ⟨delivered', completed⟩ := reachable_complete possible
      refine goesOn delivered' (Reactor.foldl_deliver_frame _ _).2
        (Reactor.foldl_deliver_frames _ _) ?_
      rw [here]
      exact completed
  | proceed here running =>
      refine goesOn delivered rfl rfl ?_
      rw [here]
      refine reachable_of_work .go ?_
      simp only [State.work, image, pcOf, Reactor.goto, running, if_true]
  | leave here stopped =>
      refine goesOn delivered rfl rfl ?_
      rw [here]
      refine reachable_of_work .go ?_
      simp only [State.work, image, pcOf, Reactor.goto, stopped, Bool.false_eq_true, if_false]
  | idle here noTask fuel =>
      refine goesOn delivered rfl rfl ?_
      rw [here]
      refine reachable_of_work .go ?_
      simp only [State.work, image, pcOf, Reactor.goto, noTask]
  | round here first processed =>
      rw [here]
      obtain ⟨coroutine', delivered', pc, reached, stages'⟩ :=
        reachable_process unregistered disciplined stages here first processed
      refine ⟨_, reachable_callStep reached, coroutine', delivered', ?_, stages'⟩
      rw [pc]
      rfl
  | deed deed =>
      refine ⟨_, reachable_callStep (reachable_deed deed), coroutine, delivered, ?_,
        fun other => (stages other).deed deed⟩
      cases deed with
      | _ => rfl
  | outside outside => exact goesOn delivered rfl rfl (.refl _ _)

/-- Every run of a reactor with one worker is a run of the machine of several workers, with
the one thread that calls `run`: the tasks, the queue, the timers, the registrations and
where the worker is are the same. -/
theorem runs_as_one_worker
    {outside : Outside} (unregistered : Key)
    (reachable : Machine.Reachable (Reactor.step surroundings) (Reactor.initial outside) s) :
    ∃ w, Machine.Reachable State.callStep (State.initial.goto () .exited) w ∧ Represents s w := by
  have start : Represents (Reactor.initial outside : Reactor User Own Key Outside)
      ((State.initial : State Unit Key).goto () .exited) := by
    refine ⟨fun _ => .suspended, fun _ => false, ?_, fun task => .unborn (Nat.zero_le _) rfl⟩
    have there : (State.initial : State Unit Key) = image
      (Reactor.initial outside : Reactor User Own Key Outside) false .head
      (fun _ => .suspended) fun _ => false := rfl
    rw [there, image_goto]
    rfl
  have preserved : ∀ (s : Reactor User Own Key Outside) label next, s.Disciplined →
      Reactor.step surroundings s label = some next → next.Disciplined :=
    fun _ _ _ disciplined stepped => (disciplined.moves (Reactor.moves_of_step stepped)).1
  exact Machine.reachable_of_simulates preserved
    (fun _ _ _ _ disciplined represents stepped =>
      represents_of_step unregistered disciplined represents stepped)
    (Reactor.disciplined_initial outside) start reachable

theorem runs_as_one_worker_nap :
    ∃ s w, Machine.run (Reactor.step Reactor.napping) (Reactor.initial 0) Reactor.nap = some s ∧
      Machine.Reachable State.callStep (State.initial.goto () .exited) w ∧ Represents s w := by
  obtain ⟨s, ran⟩ : ∃ s, Machine.run (Reactor.step Reactor.napping) (Reactor.initial 0)
    Reactor.nap = some s := ⟨_, rfl⟩
  obtain ⟨w, reachable, represents⟩ := runs_as_one_worker 0 ⟨Reactor.nap, ran⟩
  exact ⟨s, w, ran, reachable, represents⟩

end

end Workers
end Cppio
