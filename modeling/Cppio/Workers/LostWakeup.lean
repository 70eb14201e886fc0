import Cppio.Workers.Machine
import Mathlib.Data.Fintype.Basic

/-!
# Lost wake-ups

A task is lost when its event was delivered and it nevertheless waits, with
nothing left that would wake it.  This happens only to operations that register
before they call `wait()`: a `wake()` in between is overwritten.  Operations
that call `wait()` first never lose a wake-up, whatever the other workers do.
-/

namespace Cppio
namespace Workers

variable {Worker Key : Type} [DecidableEq Worker] [DecidableEq Key]

/-- Some worker is going to wake the task. -/
def Woken (s : State Worker Key) (task : TaskId) : Prop :=
  ∃ worker, task ∈ (s.pc worker).wakes

/-- The event of the task was delivered; the task is suspended in `kWait`, is
not in `m_tasks`, has no armed registration, and nobody is going to wake it. -/
structure Lost (s : State Worker Key) (task : TaskId) : Prop where
  delivered : s.delivered task = true
  waits : s.state task = .wait
  suspended : s.coroutine task = .suspended
  unscheduled : task ∉ s.tasks
  unarmed : s.epoll.pending task = 0
  unwoken : ¬Woken s task

/-- Some step that hands the task over is still to come. -/
def ArmsLater (steps : List (ParkStep Key)) : Prop :=
  ∃ step ∈ steps, step.isArm = true

/-- The step does not store the `kRun` of a `wake()` into a task that has been
registered and has yet to call `wait()`. -/
def WakesParked (s : State Worker Key) (label : Label Worker Key) : Prop :=
  ∀ worker choice task rest source, label = .work worker choice →
    s.pc worker = .waking none (task :: rest) source →
      ∀ other steps, s.pc other = .executing task (some steps) →
        ParkStep.wait ∈ steps → ArmsLater steps

/-- The task that the worker is going to suspend, with the steps until then. -/
def Pc.parks : Pc Key → Option (TaskId × List (ParkStep Key))
  | .executing task (some steps) => some (task, steps)
  | _ => none

/-- The worker has registered the task and is on its way to the task's `wait()`. -/
def Pc.Exposes (task : TaskId) (pc : Pc Key) : Prop :=
  ∃ parks ∈ pc.parks, parks.1 = task ∧ ParkStep.wait ∈ parks.2 ∧ ¬ArmsLater parks.2

instance (steps : List (ParkStep Key)) : Decidable (ArmsLater steps) :=
  inferInstanceAs (Decidable (∃ step ∈ steps, step.isArm = true))

instance (task : TaskId) (pc : Pc Key) : Decidable (pc.Exposes task) :=
  inferInstanceAs (Decidable (∃ parks ∈ pc.parks, _))

omit [DecidableEq Worker] [DecidableEq Key] in
theorem Pc.parks_eq_some {pc : Pc Key} {task : TaskId} {steps : List (ParkStep Key)} :
    pc.parks = some (task, steps) ↔ pc = .executing task (some steps) := by
  constructor
  · intro parks
    unfold Pc.parks at parks
    split at parks
    · obtain ⟨rfl, rfl⟩ := Prod.mk.inj (Option.some.inj parks)
      rfl
    · cases parks
  · rintro rfl
    rfl

omit [DecidableEq Worker] [DecidableEq Key] in
theorem wakesParked_iff (s : State Worker Key) (label : Label Worker Key) :
    WakesParked s label ↔ ∀ task ∈ wakes s label, ∀ other, ¬(s.pc other).Exposes task := by
  constructor
  · rintro parked task stores other ⟨⟨_, steps⟩, parks, rfl, waits, unarmed⟩
    obtain ⟨worker, choice, rest, source, rfl, here⟩ := wakes_eq_some.mp stores
    have there := Pc.parks_eq_some.mp parks
    exact unarmed (parked worker choice _ rest source rfl here other steps there waits)
  · intro parked worker choice task rest source same here other steps there waits
    have stores : wakes s label = some task :=
      wakes_eq_some.mpr ⟨worker, choice, rest, source, same, here⟩
    by_contra unarmed
    exact parked task stores other
      ⟨(task, steps), Pc.parks_eq_some.mpr there, rfl, waits, unarmed⟩

instance decidableWakesParked
    [Fintype Worker] (s : State Worker Key) (label : Label Worker Key) :
    Decidable (WakesParked s label) :=
  decidable_of_iff _ (wakesParked_iff s label).symm

/-- What keeps delivered events from being lost. -/
structure Handled (s : State Worker Key) : Prop where
  executes : ∀ worker task steps, s.pc worker = .executing task steps →
    s.coroutine task = .running
  alone : ∀ worker other task steps steps', s.pc worker = .executing task steps →
    s.pc other = .executing task steps' → worker = other
  waits : ∀ task, s.delivered task = true → s.state task = .wait →
    Woken s task ∨ ∃ worker steps, s.pc worker = .executing task (some steps) ∧ ArmsLater steps
  late : ∀ worker task steps, s.pc worker = .executing task (some steps) →
    ParkStep.wait ∈ steps → ¬ArmsLater steps → s.delivered task = true → Woken s task

omit [DecidableEq Worker] [DecidableEq Key] in
theorem Handled.not_lost
    {s : State Worker Key}
    (handled : Handled s)
    (task : TaskId) : ¬Lost s task := by
  intro lost
  rcases handled.waits task lost.delivered lost.waits with woken | ⟨worker, steps, here, -⟩
  · exact lost.unwoken woken
  · have running := handled.executes worker task (some steps) here
    rw [lost.suspended] at running
    cases running

omit [DecidableEq Worker] [DecidableEq Key] in
theorem handled_initial : Handled (State.initial : State Worker Key) where
  executes := by simp [State.initial]
  alone := by simp [State.initial]
  waits := by simp [State.initial]
  late := by simp [State.initial]

omit [DecidableEq Worker] [DecidableEq Key] in
/-- Only the places and the data of the tasks count. -/
theorem Handled.same
    {s next : State Worker Key}
    (handled : Handled s)
    (pc : next.pc = s.pc)
    (state : next.state = s.state)
    (coroutine : next.coroutine = s.coroutine)
    (delivered : next.delivered = s.delivered) :
    Handled next where
  executes := by
    rw [pc, coroutine]
    exact handled.executes
  alone := by
    rw [pc]
    exact handled.alone
  waits := by
    unfold Woken
    rw [pc, state, delivered]
    exact handled.waits
  late := by
    unfold Woken
    rw [pc, delivered]
    exact handled.late

omit [DecidableEq Key] in
theorem Woken.goto
    {s : State Worker Key} {worker : Worker} {pc : Pc Key} {task : TaskId}
    (woken : Woken s task)
    (keeps : task ∈ (s.pc worker).wakes → task ∈ pc.wakes) :
    Woken (s.goto worker pc) task := by
  obtain ⟨waker, wakes⟩ := woken
  refine ⟨waker, ?_⟩
  by_cases same : waker = worker
  · subst same
    simpa [State.goto] using keeps wakes
  · simpa [State.goto, same] using wakes

omit [DecidableEq Key] in
/-- A worker outside of coroutines that stays outside changes nobody's place in
them. -/
theorem executing_goto_iff
    {s : State Worker Key} {worker other : Worker} {pc : Pc Key} {task : TaskId}
    {steps : Option (List (ParkStep Key))}
    (wasOut : ∀ task steps, s.pc worker ≠ .executing task steps)
    (isOut : ∀ task steps, pc ≠ .executing task steps) :
    (s.goto worker pc).pc other = .executing task steps ↔
      s.pc other = .executing task steps := by
  simp only [State.goto, Function.update_apply]
  split_ifs with same
  · exact iff_of_false (isOut task steps) (same ▸ wasOut task steps)
  · rfl

omit [DecidableEq Key] in
/-- A worker that stays outside of coroutines, and that still wakes whom it was
going to wake. -/
theorem Handled.goto
    {s : State Worker Key} {worker : Worker} {pc : Pc Key}
    (handled : Handled s)
    (keeps : ∀ task ∈ (s.pc worker).wakes, task ∈ pc.wakes)
    (wasOut : ∀ task steps, s.pc worker ≠ .executing task steps)
    (isOut : ∀ task steps, pc ≠ .executing task steps) :
    Handled (s.goto worker pc) where
  executes other task steps here :=
    handled.executes other task steps ((executing_goto_iff wasOut isOut).mp here)
  alone first second task steps steps' here there :=
    handled.alone first second task steps steps' ((executing_goto_iff wasOut isOut).mp here)
      ((executing_goto_iff wasOut isOut).mp there)
  waits task delivered waits := by
    rcases handled.waits task delivered waits with woken | ⟨other, steps, here, arms⟩
    · exact Or.inl (woken.goto (keeps task))
    · exact Or.inr ⟨other, steps, (executing_goto_iff wasOut isOut).mpr here, arms⟩
  late other task steps here waits noArm delivered :=
    (handled.late other task steps ((executing_goto_iff wasOut isOut).mp here) waits noArm
      delivered).goto (keeps task)

/-- What a worker may do about the one task whose coroutine it is in, or is
about to be in. -/
structure OwnStep (s next : State Worker Key) (worker : Worker) (task : TaskId) (pc : Pc Key) :
    Prop where
  moved : next.pc = Function.update s.pc worker pc
  others : ∀ other, other ≠ task → next.state other = s.state other ∧
    next.coroutine other = s.coroutine other ∧ next.delivered other = s.delivered other
  wasQuiet : (s.pc worker).wakes = []
  wasOwn : ∀ other steps, s.pc worker = .executing other steps → other = task
  isOwn : ∀ other steps, pc = .executing other steps → other = task
  free : ∀ other steps, s.pc other = .executing task steps → other = worker
  executes : ∀ steps, pc = .executing task steps → next.coroutine task = .running
  waits : next.delivered task = true → next.state task = .wait →
    Woken s task ∨ ∃ steps, pc = .executing task (some steps) ∧ ArmsLater steps
  late : ∀ steps, pc = .executing task (some steps) → ParkStep.wait ∈ steps →
    ¬ArmsLater steps → next.delivered task = true → Woken s task

omit [DecidableEq Key] in
theorem OwnStep.woken
    {s next : State Worker Key} {worker : Worker} {task other : TaskId} {pc : Pc Key}
    (own : OwnStep s next worker task pc)
    (woken : Woken s other) :
    Woken next other := by
  obtain ⟨waker, wakes⟩ := woken
  have different : waker ≠ worker := by
    rintro rfl
    rw [own.wasQuiet] at wakes
    cases wakes
  exact ⟨waker, by simpa [own.moved, different] using wakes⟩

omit [DecidableEq Key] in
/-- Whoever executes after the step is the worker in its task, or executed
another task before. -/
theorem OwnStep.executing
    {s next : State Worker Key} {worker other : Worker} {task third : TaskId} {pc : Pc Key}
    {steps : Option (List (ParkStep Key))}
    (own : OwnStep s next worker task pc)
    (here : next.pc other = .executing third steps) :
    (other = worker ∧ third = task ∧ pc = .executing task steps) ∨
      (other ≠ worker ∧ third ≠ task ∧ s.pc other = .executing third steps) := by
  rw [own.moved, Function.update_apply] at here
  split_ifs at here with same
  · obtain rfl := own.isOwn third steps here
    exact Or.inl ⟨same, rfl, here⟩
  · refine Or.inr ⟨same, fun equal => same ?_, here⟩
    exact own.free other steps (equal ▸ here)

omit [DecidableEq Key] in
theorem Handled.own
    {s next : State Worker Key} {worker : Worker} {task : TaskId} {pc : Pc Key}
    (handled : Handled s)
    (own : OwnStep s next worker task pc) :
    Handled next where
  executes other third steps here := by
    rcases own.executing here with ⟨-, rfl, isHere⟩ | ⟨-, different, before⟩
    · exact own.executes steps isHere
    · rw [(own.others third different).2.1]
      exact handled.executes other third steps before
  alone first second third steps steps' here there := by
    rcases own.executing here with ⟨rfl, isTask, -⟩ | ⟨-, notTask, before⟩ <;>
      rcases own.executing there with ⟨rfl, isTask', -⟩ | ⟨-, notTask', before'⟩
    · rfl
    · exact absurd isTask notTask'
    · exact absurd isTask' notTask
    · exact handled.alone first second third steps steps' before before'
  waits third delivered waits := by
    by_cases same : third = task
    · subst same
      rcases own.waits delivered waits with woken | ⟨steps, isHere, arms⟩
      · exact Or.inl (own.woken woken)
      · exact Or.inr ⟨worker, steps, by simp [own.moved, isHere], arms⟩
    · obtain ⟨sameState, -, sameDelivered⟩ := own.others third same
      rw [sameDelivered] at delivered
      rw [sameState] at waits
      rcases handled.waits third delivered waits with woken | ⟨other, steps, before, arms⟩
      · exact Or.inl (own.woken woken)
      · have different : other ≠ worker := by
          rintro rfl
          exact same (own.wasOwn third _ before)
        exact Or.inr ⟨other, steps, by simpa [own.moved, different] using before, arms⟩
  late other third steps here waits arms delivered := by
    rcases own.executing here with ⟨-, rfl, isHere⟩ | ⟨-, different, before⟩
    · exact own.woken (own.late steps isHere waits arms delivered)
    · rw [(own.others third different).2.2] at delivered
      exact own.woken (handled.late other third steps before waits arms delivered)

omit [DecidableEq Key] in
/-- A worker in a coroutine is the only one in it. -/
theorem Handled.ownStep
    {s next : State Worker Key} {worker : Worker} {task : TaskId} {pc : Pc Key}
    {before : Option (List (ParkStep Key))}
    (handled : Handled s)
    (here : s.pc worker = .executing task before)
    (moved : next.pc = Function.update s.pc worker pc)
    (others : ∀ other, other ≠ task → next.state other = s.state other ∧
      next.coroutine other = s.coroutine other ∧ next.delivered other = s.delivered other)
    (isOwn : ∀ other steps, pc = .executing other steps →
      other = task ∧ next.coroutine task = .running)
    (waits : next.delivered task = true → next.state task = .wait →
      Woken s task ∨ ∃ steps, pc = .executing task (some steps) ∧ ArmsLater steps)
    (late : ∀ steps, pc = .executing task (some steps) → ParkStep.wait ∈ steps →
      ¬ArmsLater steps → next.delivered task = true → Woken s task) :
    Handled next :=
  handled.own
    { moved := moved
      others := others
      wasQuiet := by rw [here]; rfl
      wasOwn := fun other steps there => (Pc.executing.inj (here.symm.trans there)).1.symm
      isOwn := fun other steps there => (isOwn other steps there).1
      free := fun other steps there => handled.alone other worker task steps before there here
      executes := fun steps there => (isOwn task steps there).2
      waits := waits
      late := late }

omit [DecidableEq Worker] [DecidableEq Key] in
/-- In a coroutine that has nothing to hand over, a delivered event is still to
be handled. -/
theorem Handled.woken
    {s : State Worker Key} {worker : Worker} {task : TaskId}
    {steps : Option (List (ParkStep Key))}
    (handled : Handled s)
    (here : s.pc worker = .executing task steps)
    (noArm : ∀ list, steps = some list → ¬ArmsLater list)
    (delivered : s.delivered task = true)
    (waits : s.state task = .wait) :
    Woken s task := by
  rcases handled.waits task delivered waits with woken | ⟨other, list, there, arms⟩
  · exact woken
  · obtain rfl := handled.alone worker other task steps (some list) here there
    obtain ⟨-, rfl⟩ := Pc.executing.inj (here.symm.trans there)
    exact absurd arms (noArm list rfl)

omit [DecidableEq Key] in
/-- A worker registers the task that it executes, which forgets what was delivered to it. -/
theorem Handled.arm
    {s next : State Worker Key} {worker : Worker} {task : TaskId} {step : ParkStep Key}
    {rest : List (ParkStep Key)}
    (handled : Handled s)
    (here : s.pc worker = .executing task (some (step :: rest)))
    (pc : next.pc = s.pc)
    (state : next.state = s.state)
    (coroutine : next.coroutine = s.coroutine)
    (delivered : next.delivered = Function.update s.delivered task false) :
    Handled (next.goto worker (.executing task (some rest))) := by
  have running := handled.executes worker task _ here
  have moved : (next.goto worker (.executing task (some rest))).pc =
      Function.update s.pc worker (.executing task (some rest)) := by
    simp only [State.goto, pc]
  have forgotten : (next.goto worker (.executing task (some rest))).delivered task ≠ true := by
    simp [State.goto, delivered]
  refine handled.ownStep here moved ?_ ?_ ?_ ?_
  · intro other different
    simp [State.goto, state, coroutine, delivered, different]
  · intro other steps there
    refine ⟨(Pc.executing.inj there).1.symm, ?_⟩
    simpa only [State.goto, coroutine] using running
  · exact fun again => absurd again forgotten
  · exact fun steps there waits noArm again => absurd again forgotten

theorem Handled.park
    {s next : State Worker Key} {worker : Worker} {task : TaskId}
    {step : ParkStep Key} {rest : List (ParkStep Key)} {succeeds : Bool} {now : Int}
    (handled : Handled s)
    (here : s.pc worker = .executing task (some (step :: rest)))
    (parked : s.parkStep task succeeds now step = some next) :
    Handled (next.goto worker (.executing task (some rest))) := by
  have running := handled.executes worker task _ here
  cases step with
  | wait =>
      obtain rfl := Option.some.inj parked
      have armsRest : ¬ArmsLater rest → ¬ArmsLater ((.wait : ParkStep Key) :: rest) := by
        rintro noArm ⟨step, present, arms⟩
        rcases List.mem_cons.mp present with rfl | inRest
        · cases arms
        · exact noArm ⟨step, inRest, arms⟩
      refine handled.ownStep here rfl ?_ ?_ ?_ ?_
      · intro other different
        simp [State.goto, State.setState, different]
      · intro other steps there
        exact ⟨(Pc.executing.inj there).1.symm, running⟩
      · intro delivered _
        by_cases arms : ArmsLater rest
        · exact Or.inr ⟨rest, rfl, arms⟩
        · exact Or.inl (handled.late worker task _ here (by simp) (armsRest arms) delivered)
      · intro steps there waits noArm delivered
        obtain ⟨-, same⟩ := Pc.executing.inj there
        obtain rfl := Option.some.inj same
        exact handled.late worker task _ here (by simp) (armsRest noArm) delivered
  | register interest key =>
      obtain rfl := Option.some.inj parked
      exact handled.arm here rfl rfl rfl rfl
  | startTimer delay =>
      simp only [State.parkStep] at parked
      split_ifs at parked
      obtain rfl := Option.some.inj parked
      exact handled.arm here rfl rfl rfl rfl

omit [DecidableEq Key] in
theorem Handled.store
    {s : State Worker Key} {worker : Worker} {task : TaskId} {rest : List TaskId}
    {source : Source}
    (handled : Handled s)
    (here : s.pc worker = .waking none (task :: rest) source)
    (parked : ∀ other steps, s.pc other = .executing task (some steps) →
      ParkStep.wait ∈ steps → ArmsLater steps) :
    Handled ((s.setState task .run).goto worker (.waking (some task) rest source)) := by
  have wasOut : ∀ task steps, s.pc worker ≠ .executing task steps := by simp [here]
  have isOut : ∀ third steps,
      (.waking (some task) rest source : Pc Key) ≠ .executing third steps := by simp
  have keeps : ∀ third, third ≠ task → Woken s third →
      Woken ((s.setState task .run).goto worker (.waking (some task) rest source)) third := by
    intro third different woken
    refine Woken.goto woken fun wakes => ?_
    rw [State.setState, here] at wakes
    exact (List.mem_cons.mp wakes).resolve_left different
  refine
    { executes := fun other third steps there =>
        handled.executes other third steps ((executing_goto_iff wasOut isOut).mp there)
      alone := fun first second third steps steps' there there' =>
        handled.alone first second third steps steps' ((executing_goto_iff wasOut isOut).mp there)
          ((executing_goto_iff wasOut isOut).mp there')
      waits := fun third delivered waits => ?_
      late := fun other third steps there waits noArm delivered => ?_ }
  · have different : third ≠ task := by
      rintro rfl
      simp [State.goto, State.setState] at waits
    have waited : s.state third = .wait := by
      simpa [State.goto, State.setState, different] using waits
    rcases handled.waits third delivered waited with woken | ⟨other, steps, there, arms⟩
    · exact Or.inl (keeps third different woken)
    · exact Or.inr ⟨other, steps, (executing_goto_iff wasOut isOut).mpr there, arms⟩
  · have before := (executing_goto_iff wasOut isOut).mp there
    have different : third ≠ task := by
      rintro rfl
      exact noArm (parked other steps before waits)
    exact keeps third different (handled.late other third steps before waits noArm delivered)

/-- Reported events are about to be handled. -/
theorem Handled.report
    {s : State Worker Key} {worker : Worker} {waitTime : Int}
    (handled : Handled s)
    (here : s.pc worker = .calling waitTime)
    (events : List (Registration Key)) :
    Handled ((s.report events).goto worker
      (.waking none (events.map Registration.task) .events)) := by
  have wasOut : ∀ task steps, s.pc worker ≠ .executing task steps := by simp [here]
  have isOut : ∀ task steps, (.waking none (events.map Registration.task) .events : Pc Key) ≠
      .executing task steps := by simp
  have keeps : ∀ task, Woken s task → Woken ((s.report events).goto worker
      (.waking none (events.map Registration.task) .events)) task := by
    intro task woken
    have moved : Woken (s.report events) task := woken
    apply moved.goto
    intro wakes
    rw [State.report, here] at wakes
    cases wakes
  have reported : ∀ task ∈ events.map Registration.task, Woken ((s.report events).goto worker
      (.waking none (events.map Registration.task) .events)) task :=
    fun task present => ⟨worker, by simpa [State.goto, Pc.wakes] using present⟩
  refine
    { executes := fun other task steps there =>
        handled.executes other task steps ((executing_goto_iff wasOut isOut).mp there)
      alone := fun first second task steps steps' there there' =>
        handled.alone first second task steps steps' ((executing_goto_iff wasOut isOut).mp there)
          ((executing_goto_iff wasOut isOut).mp there')
      waits := fun task delivered waits => ?_
      late := fun other task steps there waits noArm delivered => ?_ }
  · simp only [State.goto, State.report, Bool.or_eq_true, decide_eq_true_eq] at delivered
    rcases delivered with before | now
    · rcases handled.waits task before waits with woken | ⟨other, steps, there, arms⟩
      · exact Or.inl (keeps task woken)
      · exact Or.inr ⟨other, steps, (executing_goto_iff wasOut isOut).mpr there, arms⟩
    · exact Or.inl (reported task now)
  · simp only [State.goto, State.report, Bool.or_eq_true, decide_eq_true_eq] at delivered
    have there' := (executing_goto_iff wasOut isOut).mp there
    rcases delivered with before | now
    · exact keeps task (handled.late other task steps there' waits noArm before)
    · exact reported task now

theorem Handled.moves
    {s next : State Worker Key} {worker : Worker} {choice : Choice Key}
    (handled : Handled s)
    (parked : WakesParked s (.work worker choice))
    (moves : Moves s worker choice next) :
    Handled next := by
  cases moves with
  | store here =>
      exact handled.store here fun other steps there waits =>
        parked worker _ _ _ _ rfl here other steps there waits
  | report here possible => exact handled.report here _
  | @resume task here isSuspended =>
      have free : ∀ other steps, s.pc other ≠ .executing task steps := by
        intro other steps there
        have running := handled.executes other task steps there
        rw [isSuspended] at running
        cases running
      refine handled.own
        { moved := rfl
          others := fun other different => by simp [State.goto, State.setCoroutine, different]
          wasQuiet := by rw [here]; rfl
          wasOwn := by simp [here]
          isOwn := fun other steps there => (Pc.executing.inj there).1.symm
          free := fun other steps there => absurd there (free other steps)
          executes := fun steps there => by simp [State.goto, State.setCoroutine]
          waits := fun delivered waits => ?_
          late := by simp }
      rcases handled.waits task delivered waits with woken | ⟨other, steps, there, -⟩
      · exact Or.inl woken
      · exact absurd there (free other _)
  | @start task here operation =>
      refine handled.ownStep here rfl (fun other different => ⟨rfl, rfl, rfl⟩)
        (fun other steps there =>
          ⟨(Pc.executing.inj there).1.symm, handled.executes worker task _ here⟩)
        (fun delivered waits => Or.inl (handled.woken here (by simp) delivered waits)) ?_
      intro steps there waits noArm
      obtain ⟨-, same⟩ := Pc.executing.inj there
      obtain rfl := Option.some.inj same
      obtain ⟨arm, arms, order | order⟩ := operation.parkSteps_once
      · exact absurd ⟨arm, by simp [order], arms⟩ noArm
      · exact absurd ⟨arm, by simp [order], arms⟩ noArm
  | @awaitChild task here =>
      refine handled.ownStep here rfl (fun other different => ⟨rfl, rfl, rfl⟩)
        (fun other steps there =>
          ⟨(Pc.executing.inj there).1.symm, handled.executes worker task _ here⟩)
        (fun delivered waits => Or.inl (handled.woken here (by simp) delivered waits)) ?_
      intro steps there waits
      obtain ⟨-, same⟩ := Pc.executing.inj there
      obtain rfl := Option.some.inj same
      cases waits
  | @childWaits task here waiting =>
      exact handled.ownStep here rfl
        (fun other different => by simp [State.goto, State.setCoroutine, different])
        (by simp) (fun delivered waits => Or.inl (handled.woken here (by simp) delivered waits))
        (by simp)
  | @finish task here =>
      exact handled.ownStep here rfl
        (fun other different => by simp [State.goto, State.setCoroutine, different])
        (by simp) (fun delivered waits => Or.inl (handled.woken here (by simp) delivered waits))
        (by simp)
  | @suspend task here =>
      refine handled.ownStep here rfl
        (fun other different => by simp [State.goto, State.setCoroutine, different])
        (by simp) (fun delivered waits => Or.inl (handled.woken here ?_ delivered waits))
        (by simp)
      rintro list same ⟨step, present, -⟩
      obtain rfl := Option.some.inj same
      cases present
  | park here stepped => exact handled.park here stepped
  | spawn here => exact handled.same rfl rfl rfl rfl
  | childReturns => exact handled
  | failAssertion | walkRunning | resumeTwice | checkRunning =>
      exact handled.same rfl rfl rfl rfl
  | _ =>
      refine Handled.goto (handled.same rfl rfl rfl rfl) ?_ ?_ ?_ <;>
        simp_all [Pc.wakes, State.schedule]

theorem Handled.step
    {s next : State Worker Key} {label : Label Worker Key}
    (handled : Handled s)
    (parked : WakesParked s label)
    (stepped : s.step label = some next) :
    Handled next := by
  obtain ⟨worker, choice, rfl, moves⟩ | ⟨-, rfl⟩ | ⟨-, rfl⟩ | ⟨key, -, rfl⟩ := step_cases stepped
  · exact handled.moves parked moves
  · exact handled.same rfl rfl rfl rfl
  · exact handled.same rfl rfl rfl rfl
  · exact handled.same rfl rfl rfl rfl

/-- On every run of any number of workers on which no `wake()` stores its
`kRun` between the registration of a task and its `wait()`, no task is ever
lost. -/
theorem not_lost_of_wakesParked
    {labels : List (Label Worker Key)}
    (parked : Machine.AllSteps State.step WakesParked State.initial labels) :
    Machine.AllStates State.step (fun s => ∀ task, ¬Lost s task) State.initial labels :=
  Machine.allStates_of_allSteps (fun _ handled => Handled.not_lost handled)
    (fun _ _ _ handled parked stepped => Handled.step handled parked stepped)
    handled_initial parked

/-- One worker accepts on descriptor 5 and suspends the task.  Then the other worker is told of
a connection and schedules the task, and the first one resumes it. -/
def acceptParked : List (Label Bool Nat) :=
  [.spawn] ++ startRound true ++ startRound false ++ intoCoroutine false ++
    [.work false (.start (.accept 5)), .work false (.park true 0), .work false (.park true 0)] ++
    outOfCoroutine false ++
    [.work true (.report [⟨5, .read, 0⟩]), .work true .go, .work true .go,
      .work false .go, .work false .go, .work false .go, .work false .go, .work false .go]

theorem not_lost_acceptParked :
    ∃ s, Machine.run State.step State.initial acceptParked = some s ∧
      s.delivered 0 = true ∧ s.pc false = .executing 0 none ∧ ∀ task, ¬Lost s task := by
  have parked : Machine.AllSteps State.step WakesParked State.initial acceptParked := by
    decide +kernel
  have reached : ∃ s, Machine.run State.step State.initial acceptParked = some s ∧
      s.delivered 0 = true ∧ s.pc false = .executing 0 none := ⟨_, rfl, rfl, rfl⟩
  obtain ⟨s, ran, delivered, here⟩ := reached
  have allStates := not_lost_of_wakesParked parked
  exact ⟨s, ran, delivered, here, allStates acceptParked [] s (by simp) ran⟩

/-- One worker connects on descriptor 5.  After the registration the other
worker delivers the event and schedules the task; then the first one calls
`wait()`, suspends, and drops the task that it finds in the queue. -/
def connectRace : List (Label Bool Nat) :=
  [.spawn] ++ startRound true ++ startRound false ++ intoCoroutine false ++
    [.work false (.start (.connect 5)), .work false (.park true 0),
      .work true (.report [⟨5, .write, 0⟩]), .work true .go, .work true .go,
      .work false (.park true 0)] ++
    outOfCoroutine false ++ [.work false .go, .work false .go]

/-- The connecting task is lost. -/
theorem not_never_lost_connectRace :
    ¬∀ s, Machine.Reachable State.step (State.initial : State Bool Nat) s →
      ∀ task, ¬Lost s task := by
  intro never
  have lost : ∃ s, Machine.run State.step (State.initial : State Bool Nat) connectRace = some s ∧
      s.delivered 0 = true ∧ s.state 0 = .wait ∧ s.coroutine 0 = .suspended ∧ s.tasks = [] ∧
      s.epoll.pending 0 = 0 ∧ ∀ worker, (s.pc worker).wakes = [] := by
    refine ⟨_, rfl, rfl, rfl, rfl, rfl, rfl, fun worker => ?_⟩
    cases worker <;> rfl
  obtain ⟨s, ran, delivered, waits, suspended, unscheduled, unarmed, quiet⟩ := lost
  refine never s ⟨connectRace, ran⟩ 0 ⟨delivered, waits, suspended, ?_, unarmed, ?_⟩
  · simp [unscheduled]
  · rintro ⟨worker, wakes⟩
    simp [quiet worker] at wakes

end Workers
end Cppio
