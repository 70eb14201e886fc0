import Cppio.Workers.Machine
import Mathlib.Data.Fintype.Basic

/-!
# Exclusive execution

Every task has at most one place: in `m_tasks` once, or in the hands of one
worker.  A parked task has at most one signal that will wake it: a registration,
a timer, or a `wake()` that a worker is going to call.  A `wake()` gives a task
its place back, and this is sound as long as no worker is still inside the
task's `one_step`.  The operations hand a task over before its coroutine has
suspended, and nothing makes the other workers wait until then.
-/

namespace Cppio
namespace Workers

variable {Worker Key : Type} [DecidableEq Worker]

/-- The task whose `one_step` the worker is inside. -/
def Pc.inside : Pc Key → Option TaskId
  | .entered task => some task
  | .walking task => some task
  | .resuming task => some task
  | .executing task _ => some task
  | .suspended task => some task
  | .checked task => some task
  | _ => none

/-- The task that the worker is going to schedule or run, or is running. -/
def Pc.holds : Pc Key → Option TaskId
  | .waking stored _ _ => stored
  | .popped task => some task
  | .returned task .run => some task
  | pc => pc.inside

/-- No task is in `m_tasks` twice, or in it while a worker is inside its
`one_step`, and no two workers are inside the `one_step` of one task. -/
structure Exclusive (s : State Worker Key) : Prop where
  once : s.tasks.Nodup
  outside : ∀ worker task, (s.pc worker).inside = some task → task ∉ s.tasks
  alone : ∀ worker other task, (s.pc worker).inside = some task →
    (s.pc other).inside = some task → worker = other
  defined : s.undefined = false

/-- The step does not store the `kRun` of a `wake()` into a task while a worker
is inside its `one_step`. -/
def WakesOutside (s : State Worker Key) (label : Label Worker Key) : Prop :=
  ∀ worker choice task rest source, label = .work worker choice →
    s.pc worker = .waking none (task :: rest) source →
      ∀ other, (s.pc other).inside ≠ some task

omit [DecidableEq Worker] in
theorem wakesOutside_iff (s : State Worker Key) (label : Label Worker Key) :
    WakesOutside s label ↔ ∀ task ∈ wakes s label, ∀ other, (s.pc other).inside ≠ some task := by
  constructor
  · intro outside task stores
    obtain ⟨worker, choice, rest, source, rfl, here⟩ := wakes_eq_some.mp stores
    exact outside worker choice task rest source rfl here
  · intro outside worker choice task rest source same here
    exact outside task (wakes_eq_some.mpr ⟨worker, choice, rest, source, same, here⟩)

instance decidableWakesOutside
    [Fintype Worker] (s : State Worker Key) (label : Label Worker Key) :
    Decidable (WakesOutside s label) :=
  decidable_of_iff _ (wakesOutside_iff s label).symm

/-- Where a task is. -/
inductive Place (Worker : Type)
  | nowhere
  | queued
  | held (worker : Worker)
  deriving DecidableEq

/-- What is going to wake a task. -/
inductive Signal (Worker : Type)
  | none
  | armed
  | wake (worker : Worker)
  deriving DecidableEq

/-- What remains to be done before a coroutine suspends fits the task: it still
calls `wait()` or has, and it hands the task over while nothing else would wake
it. -/
structure Parking (steps : List (ParkStep Key)) (quiet : Prop) (state : ScheduleType) :
    Prop where
  waits : ParkStep.wait ∈ steps → state = .run
  waited : ParkStep.wait ∉ steps → state = .wait ∨ (steps = [] ∧ quiet ∧ state = .run)
  arms : (∃ step ∈ steps, step.isArm = true) → quiet
  single : steps.Pairwise fun step later => step.isArm ≠ later.isArm

/-- What holds of a task in the hands of a worker. -/
def Fits (pc : Pc Key) (quiet : Prop) (state : ScheduleType) (coroutine : Coroutine) : Prop :=
  match pc with
  | .executing _ none => quiet ∧ state = .run ∧ coroutine = .running
  | .executing _ (some steps) => coroutine = .running ∧ Parking steps quiet state
  | .suspended _ => coroutine = .suspended ∧ (state = .wait ∨ (quiet ∧ state = .run))
  | .checked _ => coroutine = .suspended ∧ (state = .wait ∨ (quiet ∧ state = .run))
  | _ => quiet ∧ state = .run ∧ coroutine = .suspended

/-- The task is at the place and has the signal. -/
structure Situated
    (s : State Worker Key) (task : TaskId) (place : Place Worker) (signal : Signal Worker) :
    Prop where
  count : s.tasks.count task = if place = .queued then 1 else 0
  holder : ∀ worker, (s.pc worker).holds = some task ↔ place = .held worker
  armed : s.epoll.pending task + s.timers.pending task = if signal = .armed then 1 else 0
  wakes : ∀ worker, (s.pc worker).wakes.count task = if signal = .wake worker then 1 else 0
  nowhere : place = .nowhere → signal ≠ .none → s.state task = .wait ∧
    s.coroutine task = .suspended
  queued : place = .queued → signal = .none ∧ s.state task = .run ∧
    s.coroutine task = .suspended
  held : ∀ worker, place = .held worker →
    Fits (s.pc worker) (signal = .none) (s.state task) (s.coroutine task)
  fresh : s.spawned ≤ task → place = .nowhere ∧ signal = .none ∧ s.state task = .run ∧
    s.coroutine task = .suspended

/-- Every task has one place and one signal. -/
structure Kept (s : State Worker Key) : Prop where
  situated : ∀ task, ∃ place signal, Situated s task place signal
  defined : s.undefined = false

theorem holds_of_inside
    {pc : Pc Key} {task : TaskId}
    (inside : pc.inside = some task) :
    pc.holds = some task := by
  cases pc with
  | returned other result => cases inside
  | _ => simp_all [Pc.inside, Pc.holds]

theorem Kept.exclusive
    {s : State Worker Key}
    (kept : Kept s) :
    Exclusive s where
  once := by
    rw [List.nodup_iff_count_le_one]
    intro task
    obtain ⟨place, signal, situated⟩ := kept.situated task
    rw [situated.count]
    split_ifs <;> omega
  outside worker task inside present := by
    obtain ⟨place, signal, situated⟩ := kept.situated task
    have held := (situated.holder worker).mp (holds_of_inside inside)
    have counted := situated.count
    rw [held, if_neg (by simp)] at counted
    exact List.count_eq_zero.mp counted present
  alone worker other task inside inside' := by
    obtain ⟨place, signal, situated⟩ := kept.situated task
    have held := (situated.holder worker).mp (holds_of_inside inside)
    have held' := (situated.holder other).mp (holds_of_inside inside')
    exact Place.held.inj (held.symm.trans held')
  defined := kept.defined

theorem kept_initial : Kept (State.initial : State Worker Key) where
  situated task := by
    refine ⟨.nowhere, .none, ?_⟩
    constructor <;> simp [State.initial, Pc.holds, Pc.inside, Pc.wakes, Epoll.pending,
      Epoll.empty, TimerPool.pending, TimerPool.empty]
  defined := rfl

/-! ## Tasks that a step leaves alone -/

theorem Parking.quiet
    {steps : List (ParkStep Key)} {quiet : Prop} {state : ScheduleType}
    (parking : Parking steps quiet state)
    {quieter : Prop}
    (becomes : quiet → quieter) :
    Parking steps quieter state where
  waits := parking.waits
  waited absent := (parking.waited absent).imp id fun ⟨empty, isQuiet, runs⟩ =>
    ⟨empty, becomes isQuiet, runs⟩
  arms arm := becomes (parking.arms arm)
  single := parking.single

theorem Fits.quiet
    {pc : Pc Key} {quiet quieter : Prop} {state : ScheduleType} {coroutine : Coroutine}
    (fits : Fits pc quiet state coroutine)
    (becomes : quiet → quieter) :
    Fits pc quieter state coroutine := by
  cases pc with
  | executing task steps =>
      cases steps with
      | none => exact ⟨becomes fits.1, fits.2⟩
      | some steps => exact ⟨fits.1, fits.2.quiet becomes⟩
  | suspended task => exact ⟨fits.1, fits.2.imp id fun ⟨isQuiet, runs⟩ => ⟨becomes isQuiet, runs⟩⟩
  | checked task => exact ⟨fits.1, fits.2.imp id fun ⟨isQuiet, runs⟩ => ⟨becomes isQuiet, runs⟩⟩
  | _ => exact ⟨becomes fits.1, fits.2⟩

/-- A step that has nothing to do with the task, except that it may take over
its signal or remove its registration. -/
structure Apart (s next : State Worker Key) (task : TaskId) : Prop where
  still : ∀ worker, (s.pc worker).holds = some task ∨ (next.pc worker).holds = some task →
    next.pc worker = s.pc worker
  count : next.tasks.count task = s.tasks.count task
  state : next.state task = s.state task
  coroutine : next.coroutine task = s.coroutine task
  spawned : next.spawned = s.spawned

/-- Whoever moves without the task in its hands leaves its holder in place. -/
theorem still_of_moved
    {s next : State Worker Key} {worker : Worker} {task : TaskId} {pc : Pc Key}
    (moved : next.pc = Function.update s.pc worker pc)
    (wasApart : (s.pc worker).holds ≠ some task)
    (isApart : pc.holds ≠ some task)
    (other : Worker)
    (holds : (s.pc other).holds = some task ∨ (next.pc other).holds = some task) :
    next.pc other = s.pc other := by
  by_cases same : other = worker
  · subst same
    rw [moved, Function.update_self] at holds
    exact absurd holds (not_or.mpr ⟨wasApart, isApart⟩)
  · rw [moved, Function.update_of_ne same]

/-- The signals taken over for the task are the same if this worker's are. -/
theorem count_wakes_of_moved
    {s next : State Worker Key} {worker : Worker} {task : TaskId} {pc : Pc Key}
    (moved : next.pc = Function.update s.pc worker pc)
    (wakes : pc.wakes.count task = (s.pc worker).wakes.count task)
    (other : Worker) :
    (next.pc other).wakes.count task = (s.pc other).wakes.count task := by
  by_cases same : other = worker
  · subst same
    rw [moved, Function.update_self, wakes]
  · rw [moved, Function.update_of_ne same]

/-- A step of a worker whose hands stay empty is apart from every task. -/
theorem Apart.of_empty
    {s next : State Worker Key} {worker : Worker} {pc : Pc Key}
    (moved : next.pc = Function.update s.pc worker pc)
    (spawned : next.spawned = s.spawned)
    (wasEmpty : (s.pc worker).holds = none)
    (isEmpty : pc.holds = none)
    (tasks : next.tasks = s.tasks)
    (state : next.state = s.state)
    (coroutine : next.coroutine = s.coroutine)
    (task : TaskId) :
    Apart s next task where
  still := still_of_moved moved (by simp [wasEmpty]) (by simp [isEmpty])
  count := by rw [tasks]
  state := by rw [state]
  coroutine := by rw [coroutine]
  spawned := spawned

theorem Apart.situated
    {s next : State Worker Key} {task : TaskId}
    {place : Place Worker} {signal signal' : Signal Worker}
    (apart : Apart s next task)
    (situated : Situated s task place signal)
    (becomes : signal = .none → signal' = .none)
    (armed : next.epoll.pending task + next.timers.pending task =
      if signal' = .armed then 1 else 0)
    (wakes : ∀ other, (next.pc other).wakes.count task =
      if signal' = .wake other then 1 else 0) :
    Situated next task place signal' where
  count := apart.count.trans situated.count
  holder other := by
    constructor
    · intro holds
      rw [apart.still other (Or.inr holds)] at holds
      exact (situated.holder other).mp holds
    · intro held
      have holds := (situated.holder other).mpr held
      rwa [apart.still other (Or.inl holds)]
  armed := armed
  wakes := wakes
  nowhere isNowhere some := by
    rw [apart.state, apart.coroutine]
    exact situated.nowhere isNowhere fun isNone => some (becomes isNone)
  queued isQueued := by
    rw [apart.state, apart.coroutine]
    exact ⟨becomes (situated.queued isQueued).1, (situated.queued isQueued).2⟩
  held other isHeld := by
    have holds := (situated.holder other).mpr isHeld
    rw [apart.still other (Or.inl holds), apart.state, apart.coroutine]
    exact (situated.held other isHeld).quiet becomes
  fresh isFresh := by
    rw [apart.spawned] at isFresh
    rw [apart.state, apart.coroutine]
    obtain ⟨isNowhere, isNone, runs⟩ := situated.fresh isFresh
    exact ⟨isNowhere, becomes isNone, runs⟩

/-- The task has a place and a signal. -/
def Sited (s : State Worker Key) (task : TaskId) : Prop :=
  ∃ place signal, Situated s task place signal

/-- Nothing happens to the signal of the task, or it is lost. -/
theorem Apart.sited
    {s next : State Worker Key} {task : TaskId}
    (apart : Apart s next task)
    (sited : Sited s task)
    (pending : next.epoll.pending task + next.timers.pending task ≤
      s.epoll.pending task + s.timers.pending task)
    (wakes : ∀ worker, (next.pc worker).wakes.count task = (s.pc worker).wakes.count task) :
    Sited next task := by
  obtain ⟨place, signal, situated⟩ := sited
  have armedBefore := situated.armed
  have wakesBefore : ∀ other, (next.pc other).wakes.count task =
      if signal = .wake other then 1 else 0 :=
    fun other => (wakes other).trans (situated.wakes other)
  by_cases isArmed : signal = .armed
  · subst isArmed
    rw [if_pos rfl] at armedBefore
    by_cases gone : next.epoll.pending task + next.timers.pending task = 0
    · exact ⟨place, .none, apart.situated situated (by simp) (by simpa using gone)
        (by simpa using wakesBefore)⟩
    · exact ⟨place, .armed, apart.situated situated (by simp) (by simp; omega) wakesBefore⟩
  · rw [if_neg isArmed] at armedBefore
    exact ⟨place, signal, apart.situated situated id (by rw [if_neg isArmed]; omega) wakesBefore⟩

/-- The worker takes over what would wake the task. -/
theorem Apart.taken
    {s next : State Worker Key} {worker : Worker} {task : TaskId} {pc : Pc Key}
    (apart : Apart s next task)
    (sited : Sited s task)
    (moved : next.pc = Function.update s.pc worker pc)
    (noWakes : (s.pc worker).wakes = [])
    (pending : pc.wakes.count task + (next.epoll.pending task + next.timers.pending task) =
      s.epoll.pending task + s.timers.pending task) :
    Sited next task := by
  obtain ⟨place, signal, situated⟩ := sited
  have armedBefore := situated.armed
  have notWaking : signal ≠ .wake worker := by
    rintro rfl
    simpa [noWakes] using situated.wakes worker
  by_cases takes : pc.wakes.count task = 0
  · refine ⟨place, signal, apart.situated situated id (by omega) fun other => ?_⟩
    by_cases same : other = worker
    · subst same
      rw [moved, Function.update_self, takes, if_neg notWaking]
    · rw [moved, Function.update_of_ne same, situated.wakes]
  · have isArmed : signal = .armed := by
      by_contra notArmed
      rw [if_neg notArmed] at armedBefore
      omega
    subst isArmed
    rw [if_pos rfl] at armedBefore
    refine ⟨place, .wake worker, apart.situated situated (by simp) (by simp; omega)
      fun other => ?_⟩
    by_cases same : other = worker
    · subst same
      rw [moved, Function.update_self, if_pos rfl]
      omega
    · have isOther : Signal.wake worker ≠ .wake other := fun equal =>
        same (Signal.wake.inj equal).symm
      rw [moved, Function.update_of_ne same, if_neg isOther, situated.wakes, if_neg (by simp)]

/-! ## The task that a step is about -/

/-- A step of a worker about a task that no other worker holds. -/
structure About
    (s next : State Worker Key) (worker : Worker) (task : TaskId) (pc : Pc Key)
    (place place' : Place Worker) (signal signal' : Signal Worker) : Prop where
  moved : next.pc = Function.update s.pc worker pc
  spawned : next.spawned = s.spawned
  live : place ≠ .nowhere ∨ signal ≠ .none
  wasOurs : ∀ other, place = .held other → other = worker
  isOurs : ∀ other, place' = .held other → other = worker
  count : next.tasks.count task = if place' = .queued then 1 else 0
  holds : pc.holds = some task ↔ place' = .held worker
  armed : next.epoll.pending task + next.timers.pending task = if signal' = .armed then 1 else 0
  wakes : pc.wakes.count task = if signal' = .wake worker then 1 else 0
  wakesOther : ∀ other, other ≠ worker → (signal' = .wake other ↔ signal = .wake other)
  nowhere : place' = .nowhere → signal' ≠ .none → next.state task = .wait ∧
    next.coroutine task = .suspended
  queued : place' = .queued → signal' = .none ∧ next.state task = .run ∧
    next.coroutine task = .suspended
  held : place' = .held worker →
    Fits pc (signal' = .none) (next.state task) (next.coroutine task)

theorem About.situated
    {s next : State Worker Key} {worker : Worker} {task : TaskId} {pc : Pc Key}
    {place place' : Place Worker} {signal signal' : Signal Worker}
    (about : About s next worker task pc place place' signal signal')
    (situated : Situated s task place signal) :
    Situated next task place' signal' where
  count := about.count
  holder other := by
    rw [about.moved, Function.update_apply]
    split_ifs with same
    · rw [same]
      exact about.holds
    · exact iff_of_false
        (fun holds => same (about.wasOurs other ((situated.holder other).mp holds)))
        (fun held => same (about.isOurs other held))
  armed := about.armed
  wakes other := by
    rw [about.moved, Function.update_apply]
    split_ifs with same isWake isWake
    · rw [about.wakes, if_pos (same ▸ isWake)]
    · rw [about.wakes, if_neg (same ▸ isWake)]
    · simpa [(about.wakesOther other same).mp isWake] using situated.wakes other
    · have wasNot : signal ≠ .wake other := fun was =>
        isWake ((about.wakesOther other same).mpr was)
      simpa [wasNot] using situated.wakes other
  nowhere := about.nowhere
  queued := about.queued
  held other isHeld := by
    obtain rfl := about.isOurs other isHeld
    rw [about.moved, Function.update_self]
    exact about.held isHeld
  fresh isFresh := by
    rw [about.spawned] at isFresh
    obtain ⟨isNowhere, isNone, -⟩ := situated.fresh isFresh
    exact absurd (about.live) (by simp [isNowhere, isNone])

/-- What a worker holds is in its hands and fits where the worker is. -/
theorem Sited.held
    {s : State Worker Key} {worker : Worker} {task : TaskId}
    (sited : Sited s task)
    (holds : (s.pc worker).holds = some task) :
    ∃ signal, Situated s task (.held worker) signal ∧
      Fits (s.pc worker) (signal = .none) (s.state task) (s.coroutine task) := by
  obtain ⟨place, signal, situated⟩ := sited
  obtain rfl := (situated.holder worker).mp holds
  exact ⟨signal, situated, situated.held worker rfl⟩

/-- The worker puts the task from its hands into a place and leaves the signal as it is. -/
theorem Situated.put
    {s next : State Worker Key} {worker : Worker} {task : TaskId} {pc : Pc Key}
    {signal : Signal Worker}
    (situated : Situated s task (.held worker) signal)
    (place : Place Worker)
    (moved : next.pc = Function.update s.pc worker pc)
    (spawned : next.spawned = s.spawned)
    (epoll : next.epoll = s.epoll)
    (timers : next.timers = s.timers)
    (wakes : pc.wakes = (s.pc worker).wakes)
    (isOurs : ∀ other, place = .held other → other = worker)
    (count : next.tasks.count task = if place = .queued then 1 else 0)
    (holds : pc.holds = some task ↔ place = .held worker)
    (nowhere : place = .nowhere → signal ≠ .none → next.state task = .wait ∧
      next.coroutine task = .suspended)
    (queued : place = .queued → signal = .none ∧ next.state task = .run ∧
      next.coroutine task = .suspended)
    (held : place = .held worker →
      Fits pc (signal = .none) (next.state task) (next.coroutine task)) :
    Sited next task := by
  have about : About s next worker task pc (.held worker) place signal signal :=
    { moved := moved
      spawned := spawned
      live := Or.inl (by simp)
      wasOurs := by simp
      isOurs := isOurs
      count := count
      holds := holds
      armed := by rw [epoll, timers, situated.armed]
      wakes := by rw [wakes, situated.wakes]
      wakesOther := fun other different => Iff.rfl
      nowhere := nowhere
      queued := queued
      held := held }
  exact ⟨_, _, about.situated situated⟩

/-- The worker keeps the task in its hands and the signal as it is. -/
theorem Situated.keep
    {s next : State Worker Key} {worker : Worker} {task : TaskId} {pc : Pc Key}
    {signal : Signal Worker}
    (situated : Situated s task (.held worker) signal)
    (moved : next.pc = Function.update s.pc worker pc)
    (spawned : next.spawned = s.spawned)
    (tasks : next.tasks = s.tasks)
    (epoll : next.epoll = s.epoll)
    (timers : next.timers = s.timers)
    (holds : pc.holds = some task)
    (wakes : pc.wakes = (s.pc worker).wakes)
    (fits : Fits pc (signal = .none) (next.state task) (next.coroutine task)) :
    Sited next task := by
  refine situated.put (.held worker) moved spawned epoll timers wakes ?_ ?_ ?_ ?_ ?_ fun _ => fits
  · simp
  · rw [tasks, situated.count]
  · simp [holds]
  · simp
  · simp

/-- The worker lets go of the task, which waits or will not be woken. -/
theorem Situated.release
    {s next : State Worker Key} {worker : Worker} {task : TaskId} {pc : Pc Key}
    {signal : Signal Worker}
    (situated : Situated s task (.held worker) signal)
    (moved : next.pc = Function.update s.pc worker pc)
    (spawned : next.spawned = s.spawned)
    (tasks : next.tasks = s.tasks)
    (epoll : next.epoll = s.epoll)
    (timers : next.timers = s.timers)
    (holds : pc.holds = none)
    (wakes : pc.wakes = (s.pc worker).wakes)
    (nowhere : signal ≠ .none → next.state task = .wait ∧ next.coroutine task = .suspended) :
    Sited next task := by
  refine situated.put .nowhere moved spawned epoll timers wakes ?_ ?_ ?_ (fun _ => nowhere) ?_ ?_
  · simp
  · simp [tasks, situated.count]
  · simp [holds]
  · simp
  · simp

/-- The worker puts the task into `m_tasks`. -/
theorem Situated.queue
    {s next : State Worker Key} {worker : Worker} {task : TaskId} {pc : Pc Key}
    (situated : Situated s task (.held worker) .none)
    (moved : next.pc = Function.update s.pc worker pc)
    (spawned : next.spawned = s.spawned)
    (tasks : next.tasks = s.tasks ++ [task])
    (epoll : next.epoll = s.epoll)
    (timers : next.timers = s.timers)
    (holds : pc.holds = none)
    (wakes : pc.wakes = (s.pc worker).wakes)
    (runs : next.state task = .run)
    (suspended : next.coroutine task = .suspended) :
    Sited next task := by
  refine situated.put .queued moved spawned epoll timers wakes ?_ ?_ ?_ ?_
    (fun _ => ⟨rfl, runs, suspended⟩) ?_
  · simp
  · simp [tasks, situated.count]
  · simp [holds]
  · simp
  · simp

/-- A step about one task that leaves the others where they are. -/
theorem Kept.about
    {s next : State Worker Key} {worker : Worker} {pc : Pc Key}
    (kept : Kept s)
    (task : TaskId)
    (moved : next.pc = Function.update s.pc worker pc)
    (spawned : next.spawned = s.spawned)
    (defined : next.undefined = s.undefined)
    (wasOurs : ∀ other, (s.pc worker).holds = some other → other = task)
    (isOurs : ∀ other, pc.holds = some other → other = task)
    (others : ∀ other, other ≠ task →
      next.tasks.count other = s.tasks.count other ∧ next.state other = s.state other ∧
        next.coroutine other = s.coroutine other ∧
        next.epoll.pending other + next.timers.pending other ≤
          s.epoll.pending other + s.timers.pending other ∧
        pc.wakes.count other = (s.pc worker).wakes.count other)
    (own : Sited s task → Sited next task) :
    Kept next where
  situated other := by
    by_cases same : other = task
    · subst same
      exact own (kept.situated other)
    · obtain ⟨count, state, coroutine, pending, wakes⟩ := others other same
      have apart : Apart s next other :=
        { still := still_of_moved moved (fun holds => same (wasOurs other holds))
            fun holds => same (isOurs other holds)
          count := count
          state := state
          coroutine := coroutine
          spawned := spawned }
      exact apart.sited (kept.situated other) pending (count_wakes_of_moved moved wakes)
  defined := by rw [defined, kept.defined]

/-- A step of a worker with empty hands about no task. -/
theorem Kept.apart
    {s next : State Worker Key} {worker : Worker} {pc : Pc Key}
    (kept : Kept s)
    (moved : next.pc = Function.update s.pc worker pc)
    (spawned : next.spawned = s.spawned)
    (defined : next.undefined = s.undefined)
    (wasEmpty : (s.pc worker).holds = none)
    (isEmpty : pc.holds = none)
    (tasks : next.tasks = s.tasks)
    (state : next.state = s.state)
    (coroutine : next.coroutine = s.coroutine)
    (epoll : next.epoll = s.epoll)
    (timers : next.timers = s.timers)
    (wakes : pc.wakes = (s.pc worker).wakes) :
    Kept next where
  situated other := by
    have apart := Apart.of_empty moved spawned wasEmpty isEmpty tasks state coroutine other
    exact apart.sited (kept.situated other) (by rw [epoll, timers])
      (count_wakes_of_moved moved (by rw [wakes]))
  defined := by rw [defined, kept.defined]

/-- A worker with empty hands takes over signals. -/
theorem Kept.takeOver
    {s next : State Worker Key} {worker : Worker} {pc : Pc Key}
    (kept : Kept s)
    (moved : next.pc = Function.update s.pc worker pc)
    (spawned : next.spawned = s.spawned)
    (defined : next.undefined = s.undefined)
    (wasEmpty : (s.pc worker).holds = none)
    (isEmpty : pc.holds = none)
    (noWakes : (s.pc worker).wakes = [])
    (tasks : next.tasks = s.tasks)
    (state : next.state = s.state)
    (coroutine : next.coroutine = s.coroutine)
    (pending : ∀ task,
      pc.wakes.count task + (next.epoll.pending task + next.timers.pending task) =
        s.epoll.pending task + s.timers.pending task) :
    Kept next where
  situated other := by
    have apart := Apart.of_empty moved spawned wasEmpty isEmpty tasks state coroutine other
    exact apart.taken (kept.situated other) moved noWakes (pending other)
  defined := by rw [defined, kept.defined]

/-- A step of a worker about the task in its hands, which keeps the queue. -/
theorem Kept.inHand
    {s next : State Worker Key} {worker : Worker} {task : TaskId} {pc : Pc Key}
    (kept : Kept s)
    (holds : (s.pc worker).holds = some task)
    (moved : next.pc = Function.update s.pc worker pc)
    (spawned : next.spawned = s.spawned)
    (defined : next.undefined = s.undefined)
    (isOurs : pc.holds = some task ∨ pc.holds = none)
    (tasks : next.tasks = s.tasks)
    (others : ∀ other, other ≠ task →
      next.state other = s.state other ∧ next.coroutine other = s.coroutine other)
    (epoll : next.epoll = s.epoll)
    (timers : next.timers = s.timers)
    (wakes : pc.wakes = (s.pc worker).wakes)
    (fits : ∀ signal : Signal Worker,
      Fits (s.pc worker) (signal = .none) (s.state task) (s.coroutine task) →
        (pc.holds = some task →
          Fits pc (signal = .none) (next.state task) (next.coroutine task)) ∧
        (pc.holds = none → signal ≠ .none →
          next.state task = .wait ∧ next.coroutine task = .suspended)) :
    Kept next := by
  refine kept.about task moved spawned defined ?_ ?_ ?_ ?_
  · intro other holdsOther
    exact Option.some.inj (holdsOther.symm.trans holds)
  · intro other holdsOther
    rcases isOurs with isTask | isNone
    · exact Option.some.inj (holdsOther.symm.trans isTask)
    · rw [isNone] at holdsOther
      cases holdsOther
  · intro other different
    obtain ⟨state, coroutine⟩ := others other different
    exact ⟨by rw [tasks], state, coroutine, by rw [epoll, timers], by rw [wakes]⟩
  · intro sited
    obtain ⟨signal, situated, fitsBefore⟩ := sited.held holds
    obtain ⟨fitsAfter, nowhere⟩ := fits signal fitsBefore
    rcases isOurs with isTask | isNone
    · exact situated.keep moved spawned tasks epoll timers isTask wakes (fitsAfter isTask)
    · exact situated.release moved spawned tasks epoll timers isNone wakes (nowhere isNone)

/-- A worker schedules the task in its hands. -/
theorem Kept.schedule
    {s : State Worker Key} {worker : Worker} {task : TaskId} {pc : Pc Key}
    (kept : Kept s)
    (holds : (s.pc worker).holds = some task)
    (isEmpty : pc.holds = none)
    (wakes : pc.wakes = (s.pc worker).wakes)
    (fits : ∀ quiet : Prop, Fits (s.pc worker) quiet (s.state task) (s.coroutine task) →
      quiet ∧ s.state task = .run ∧ s.coroutine task = .suspended) :
    Kept ((s.schedule task).goto worker pc) := by
  refine kept.about task rfl rfl rfl ?_ ?_ ?_ ?_
  · intro other holdsOther
    exact Option.some.inj (holdsOther.symm.trans holds)
  · simp [isEmpty]
  · intro other different
    refine ⟨?_, rfl, rfl, le_refl _, by rw [wakes]⟩
    simp [State.goto, State.schedule, different.symm]
  · intro sited
    obtain ⟨signal, situated, fitsBefore⟩ := sited.held holds
    obtain ⟨quiet, runs, suspended⟩ := fits _ fitsBefore
    subst quiet
    exact situated.queue rfl rfl rfl rfl rfl isEmpty wakes runs suspended

/-- `wake()` takes a parked task into the worker's hands. -/
theorem Kept.store
    {s : State Worker Key} {worker : Worker} {task : TaskId} {rest : List TaskId}
    {source : Source}
    (kept : Kept s)
    (here : s.pc worker = .waking none (task :: rest) source)
    (outside : ∀ other, (s.pc other).inside ≠ some task) :
    Kept ((s.setState task .run).goto worker (.waking (some task) rest source)) := by
  have wasEmpty : (s.pc worker).holds = none := by rw [here]; rfl
  have wakesHere : (s.pc worker).wakes = task :: rest := by rw [here]; rfl
  refine kept.about task rfl rfl rfl (by simp [wasEmpty]) ?_ ?_ ?_
  · intro other holds
    exact (Option.some.inj holds).symm
  · intro other different
    refine ⟨rfl, by simp [State.goto, State.setState, different], rfl, le_refl _, ?_⟩
    rw [wakesHere, List.count_cons_of_ne different.symm]
    rfl
  · rintro ⟨place, signal, situated⟩
    have isWake : signal = .wake worker := by
      by_contra isNot
      have counted := situated.wakes worker
      rw [wakesHere, if_neg isNot] at counted
      simp at counted
    subst isWake
    have isNowhere : place = .nowhere := by
      cases place with
      | nowhere => rfl
      | queued => exact absurd (situated.queued rfl).1 (by simp)
      | held other =>
          have holds := (situated.holder other).mpr rfl
          have fits := situated.held other rfl
          have notInside := outside other
          cases place : s.pc other <;> simp_all [Fits, Pc.inside, Pc.holds]
    subst isNowhere
    obtain ⟨waits, suspended⟩ := situated.nowhere rfl (by simp)
    have counted := situated.wakes worker
    rw [wakesHere, if_pos rfl, List.count_cons_self] at counted
    have about : About s ((s.setState task .run).goto worker (.waking (some task) rest source))
        worker task (.waking (some task) rest source) .nowhere (.held worker)
        (.wake worker) .none :=
      { moved := rfl
        spawned := rfl
        live := Or.inr (by simp)
        wasOurs := by simp
        isOurs := by simp
        count := by simpa [State.goto, State.setState] using situated.count
        holds := by simp [Pc.holds]
        armed := by simpa [State.goto, State.setState] using situated.armed
        wakes := by
          simp only [Pc.wakes, reduceCtorEq, if_false]
          omega
        wakesOther := fun other different => by simp [different.symm]
        nowhere := by simp
        queued := by simp
        held := fun _ => ⟨rfl, by simp [State.goto, State.setState], suspended⟩ }
    exact ⟨_, _, about.situated situated⟩

/-- A popped task is in the worker's hands. -/
theorem Kept.pop
    {s : State Worker Key} {worker : Worker} {task : TaskId} {rest : List TaskId}
    (kept : Kept s)
    (here : s.pc worker = .processing)
    (first : s.tasks = task :: rest) :
    Kept ({ s with tasks := rest }.goto worker (.popped task)) := by
  have wasEmpty : (s.pc worker).holds = none := by rw [here]; rfl
  have noWakes : (s.pc worker).wakes = [] := by rw [here]; rfl
  refine kept.about task rfl rfl rfl (by simp [wasEmpty]) ?_ ?_ ?_
  · intro other holds
    exact (Option.some.inj holds).symm
  · intro other different
    refine ⟨?_, rfl, rfl, le_refl _, by rw [noWakes]; rfl⟩
    rw [first, List.count_cons_of_ne different.symm]
    rfl
  · rintro ⟨place, signal, situated⟩
    have counted := situated.count
    rw [first, List.count_cons_self] at counted
    have isQueued : place = .queued := by
      by_contra isNot
      rw [if_neg isNot] at counted
      omega
    subst isQueued
    obtain ⟨isNone, runs, suspended⟩ := situated.queued rfl
    subst isNone
    rw [if_pos rfl] at counted
    have about : About s ({ s with tasks := rest }.goto worker (.popped task)) worker task
        (.popped task) .queued (.held worker) .none .none :=
      { moved := rfl
        spawned := rfl
        live := Or.inl (by simp)
        wasOurs := by simp
        isOurs := by simp
        count := by simpa [State.goto] using counted
        holds := by simp [Pc.holds]
        armed := situated.armed
        wakes := by simp [Pc.wakes]
        wakesOther := fun other different => Iff.rfl
        nowhere := by simp
        queued := by simp
        held := fun _ => ⟨rfl, runs, suspended⟩ }
    exact ⟨_, _, about.situated situated⟩

theorem Parking.wait
    {rest : List (ParkStep Key)} {quiet : Prop} {state : ScheduleType}
    (parking : Parking (.wait :: rest) quiet state) :
    Parking rest quiet .wait := by
  obtain ⟨alternate, single⟩ := List.pairwise_cons.mp parking.single
  exact
    { waits := fun present => absurd rfl (alternate .wait present)
      waited := fun _ => Or.inl rfl
      arms := fun ⟨step, present, isArm⟩ =>
        parking.arms ⟨step, List.mem_cons_of_mem _ present, isArm⟩
      single := single }

theorem Parking.arm
    {arm : ParkStep Key} {rest : List (ParkStep Key)} {quiet : Prop} {state : ScheduleType}
    (parking : Parking (arm :: rest) quiet state)
    (isArm : arm.isArm = true)
    (quiet' : Prop) :
    quiet ∧ Parking rest quiet' state := by
  obtain ⟨alternate, single⟩ := List.pairwise_cons.mp parking.single
  refine ⟨parking.arms ⟨arm, List.mem_cons_self, isArm⟩, ?_⟩
  exact
    { waits := fun present => parking.waits (List.mem_cons_of_mem _ present)
      waited := fun absent => by
        have notArm : ParkStep.wait ≠ arm := by
          rintro rfl
          cases isArm
        rcases parking.waited (by simp [notArm, absent]) with waits | ⟨isEmpty, -⟩
        · exact Or.inl waits
        · cases isEmpty
      arms := fun ⟨step, present, isArm'⟩ =>
        absurd (isArm.trans isArm'.symm) (alternate step present)
      single := single }

/-- An operation hands its task over. -/
theorem Kept.arm
    {s next : State Worker Key} {worker : Worker} {task : TaskId}
    {arm : ParkStep Key} {rest : List (ParkStep Key)}
    (kept : Kept s)
    (here : s.pc worker = .executing task (some (arm :: rest)))
    (isArm : arm.isArm = true)
    (moved : next.pc = Function.update s.pc worker (.executing task (some rest)))
    (spawned : next.spawned = s.spawned)
    (defined : next.undefined = s.undefined)
    (tasks : next.tasks = s.tasks)
    (state : next.state = s.state)
    (coroutine : next.coroutine = s.coroutine)
    (pending : ∀ other, next.epoll.pending other + next.timers.pending other ≤
      s.epoll.pending other + s.timers.pending other + if task = other then 1 else 0) :
    Kept next := by
  have noWakes : (s.pc worker).wakes = [] := by rw [here]; rfl
  have holds : (s.pc worker).holds = some task := by rw [here]; rfl
  refine kept.about task moved spawned defined ?_ ?_ ?_ ?_
  · intro other holdsOther
    exact Option.some.inj (holdsOther.symm.trans holds)
  · intro other holdsOther
    exact (Option.some.inj holdsOther).symm
  · intro other different
    refine ⟨by rw [tasks], by rw [state], by rw [coroutine], ?_, by rw [noWakes]; rfl⟩
    simpa [different.symm] using pending other
  · intro sited
    obtain ⟨signal, situated, fits⟩ := sited.held holds
    rw [here] at fits
    obtain ⟨running, parking⟩ := fits
    obtain ⟨isNone, -⟩ := parking.arm isArm True
    subst isNone
    have armedBefore := situated.armed
    rw [if_neg (by simp)] at armedBefore
    have atMost := pending task
    rw [armedBefore, if_pos rfl] at atMost
    obtain ⟨signal', armed, notWake⟩ : ∃ signal' : Signal Worker,
        next.epoll.pending task + next.timers.pending task =
          (if signal' = .armed then 1 else 0) ∧ ∀ other, signal' ≠ .wake other := by
      by_cases gone : next.epoll.pending task + next.timers.pending task = 0
      · exact ⟨.none, by simpa using gone, by simp⟩
      · exact ⟨.armed, by simp; omega, by simp⟩
    have about : About s next worker task (.executing task (some rest)) (.held worker)
        (.held worker) .none signal' :=
      { moved := moved
        spawned := spawned
        live := Or.inl (by simp)
        wasOurs := by simp
        isOurs := by simp
        count := by rw [tasks, situated.count]
        holds := by simp [Pc.holds, Pc.inside]
        armed := armed
        wakes := by simp [Pc.wakes, notWake]
        wakesOther := fun other different => by simp [notWake]
        nowhere := by simp
        queued := by simp
        held := fun _ => by
          rw [state, coroutine]
          exact ⟨running, (parking.arm isArm _).2⟩ }
    exact ⟨_, _, about.situated situated⟩

/-- A task that starts an operation, with nothing that would wake it. -/
theorem parking_parkSteps
    (operation : Operation Key) {quiet : Prop} {state : ScheduleType}
    (isQuiet : quiet)
    (runs : state = .run) :
    Parking operation.parkSteps quiet state := by
  obtain ⟨arm, isArm, order | order⟩ := operation.parkSteps_once
  · rw [order]
    exact ⟨fun _ => runs, fun absent => absurd List.mem_cons_self absent, fun _ => isQuiet,
      by simp [isArm]⟩
  · rw [order]
    exact ⟨fun _ => runs, fun absent => absurd (by simp) absent, fun _ => isQuiet,
      by simp [isArm]⟩

/-- A worker goes on with the task in its hands. -/
theorem Kept.onward
    {s : State Worker Key} {worker : Worker} {task : TaskId} {before pc : Pc Key}
    (kept : Kept s)
    (here : s.pc worker = before)
    (holds : before.holds = some task)
    (stays : pc.holds = some task)
    (wakes : pc.wakes = before.wakes)
    (fits : ∀ quiet : Prop, Fits before quiet (s.state task) (s.coroutine task) →
      Fits pc quiet (s.state task) (s.coroutine task)) :
    Kept (s.goto worker pc) := by
  subst here
  exact kept.inHand holds rfl rfl rfl (Or.inl stays) rfl (fun _ _ => ⟨rfl, rfl⟩) rfl rfl wakes
    fun _ fitsBefore => ⟨fun _ => fits _ fitsBefore, by simp [stays]⟩

/-- `spawn` puts a fresh task into the queue. -/
theorem Kept.spawn
    {s : State Worker Key}
    (kept : Kept s) :
    Kept s.spawn where
  situated task := by
    by_cases isNew : task = s.spawned
    · subst isNew
      obtain ⟨place, signal, situated⟩ := kept.situated s.spawned
      obtain ⟨isNowhere, isNone, runs, suspended⟩ := situated.fresh le_rfl
      subst isNowhere isNone
      refine ⟨.queued, .none, ?_⟩
      exact
        { count := by simp [State.spawn, situated.count]
          holder := fun worker => by simpa [State.spawn] using situated.holder worker
          armed := situated.armed
          wakes := situated.wakes
          nowhere := by simp
          queued := fun _ => ⟨rfl, runs, suspended⟩
          held := by simp
          fresh := fun older => absurd older (by simp [State.spawn]) }
    · obtain ⟨place, signal, situated⟩ := kept.situated task
      refine ⟨place, signal, ?_⟩
      exact
        { count := by
            rw [← situated.count]
            simp [State.spawn, Ne.symm isNew]
          holder := situated.holder
          armed := situated.armed
          wakes := situated.wakes
          nowhere := situated.nowhere
          queued := situated.queued
          held := situated.held
          fresh := fun older => situated.fresh (by simp [State.spawn] at older; omega) }
  defined := kept.defined

section Steps

variable [DecidableEq Key]

theorem Kept.park
    {s next : State Worker Key} {worker : Worker} {task : TaskId}
    {step : ParkStep Key} {rest : List (ParkStep Key)} {succeeds : Bool} {now : Int}
    (kept : Kept s)
    (here : s.pc worker = .executing task (some (step :: rest)))
    (parked : s.parkStep task succeeds now step = some next) :
    Kept (next.goto worker (.executing task (some rest))) := by
  cases step with
  | wait =>
      obtain rfl := Option.some.inj parked
      refine kept.inHand (by rw [here]; rfl) rfl rfl rfl (Or.inl rfl) rfl ?_ rfl rfl
        (by rw [here]; rfl) ?_
      · intro other different
        simp [State.goto, State.setState, different]
      · intro signal fits
        rw [here] at fits
        refine ⟨fun _ => ⟨fits.1, ?_⟩, by simp [Pc.holds, Pc.inside]⟩
        simpa [State.goto, State.setState] using fits.2.wait
  | register interest key =>
      obtain rfl := Option.some.inj parked
      refine kept.arm here rfl rfl rfl rfl rfl rfl rfl fun other => ?_
      cases succeeds with
      | false => exact Nat.le_add_right _ _
      | true =>
          have added := s.epoll.pending_add_le ⟨key, interest, task⟩ other
          simp only [State.goto, if_true]
          dsimp only at added
          omega
  | startTimer delay =>
      simp only [State.parkStep] at parked
      split_ifs at parked
      obtain rfl := Option.some.inj parked
      refine kept.arm here rfl rfl rfl rfl rfl rfl rfl fun other => ?_
      have added := s.timers.pending_add_le now delay task other
      simp only [State.goto]
      omega

theorem Kept.moves
    {s next : State Worker Key} {worker : Worker} {choice : Choice Key}
    (kept : Kept s)
    (outside : WakesOutside s (.work worker choice))
    (moves : Moves s worker choice next) :
    Kept next := by
  have fitsHere : ∀ {pc : Pc Key} {task : TaskId}, s.pc worker = pc → pc.holds = some task →
      ∃ signal : Signal Worker, Fits pc (signal = .none) (s.state task) (s.coroutine task) := by
    rintro pc task here holds
    have sited : Sited s task := kept.situated task
    obtain ⟨signal, -, fits⟩ := sited.held (by rw [here]; exact holds)
    exact ⟨signal, here ▸ fits⟩
  cases moves with
  | poll here unlocked now =>
      refine kept.takeOver rfl rfl rfl (by rw [here]; rfl) rfl (by rw [here]; rfl) rfl rfl rfl
        fun task => ?_
      have moved := s.timers.pending_getDelay now task
      simp only [State.goto, Pc.wakes]
      omega
  | report here possible =>
      refine kept.takeOver rfl rfl rfl (by rw [here]; rfl) rfl (by rw [here]; rfl) rfl rfl rfl
        fun task => ?_
      have moved := s.epoll.pending_disarm possible task
      simp only [State.goto, State.report, Pc.wakes]
      omega
  | store here => exact kept.store here fun other => outside worker _ _ _ _ rfl here other
  | @push task rest source here =>
      have holds : (s.pc worker).holds = some task := by rw [here]; rfl
      have wakes : rest = (s.pc worker).wakes := by rw [here]; rfl
      exact kept.schedule holds rfl wakes fun quiet fits => by
        rw [here] at fits
        exact fits
  | pop here first => exact kept.pop here first
  | drop here waiting =>
      obtain ⟨signal, -, runs, -⟩ := fitsHere here rfl
      exact absurd (waiting.symm.trans runs) (by simp)
  | call here runs =>
      exact kept.onward here rfl rfl rfl fun quiet fits => fits
  | failAssertion here waiting =>
      obtain ⟨signal, -, runs, -⟩ := fitsHere here rfl
      exact absurd (waiting.symm.trans runs) (by simp)
  | walk here runs =>
      exact kept.onward here rfl rfl rfl fun quiet fits => fits
  | walkRunning here isRunning =>
      obtain ⟨signal, -, -, suspended⟩ := fitsHere here rfl
      exact absurd (isRunning.symm.trans suspended) (by simp)
  | walkFinished here isFinished =>
      obtain ⟨signal, -, -, suspended⟩ := fitsHere here rfl
      exact absurd (isFinished.symm.trans suspended) (by simp)
  | walkWaiting here isSuspended waiting =>
      obtain ⟨signal, -, runs, -⟩ := fitsHere here rfl
      exact absurd (waiting.symm.trans runs) (by simp)
  | walkReady here isSuspended runs =>
      exact kept.onward here rfl rfl rfl fun quiet fits => fits
  | @resume task here isSuspended =>
      refine kept.inHand (by rw [here]; rfl) rfl rfl rfl (Or.inl rfl) rfl ?_ rfl rfl
        (by rw [here]; rfl) fun signal fits => ?_
      · intro other different
        simp [State.goto, State.setCoroutine, different]
      · rw [here] at fits
        exact ⟨fun _ => ⟨fits.1, fits.2.1, by simp [State.goto, State.setCoroutine]⟩, nofun⟩
  | resumeTwice here notSuspended =>
      obtain ⟨signal, -, -, suspended⟩ := fitsHere here rfl
      exact absurd suspended notSuspended
  | start here operation =>
      refine kept.onward here rfl rfl rfl fun quiet fits => ?_
      exact ⟨fits.2.2, parking_parkSteps operation fits.1 fits.2.1⟩
  | awaitChild here =>
      refine kept.onward here rfl rfl rfl fun quiet fits => ?_
      exact ⟨fits.2.2, nofun, fun _ => Or.inr ⟨rfl, fits.1, fits.2.1⟩, nofun, List.Pairwise.nil⟩
  | spawn here => exact kept.spawn
  | childWaits here waiting =>
      obtain ⟨signal, -, runs, -⟩ := fitsHere here rfl
      exact absurd (waiting.symm.trans runs) (by simp)
  | childReturns => exact kept
  | @finish task here =>
      refine kept.inHand (by rw [here]; rfl) rfl rfl rfl (Or.inr rfl) rfl ?_ rfl rfl
        (by rw [here]; rfl) fun signal fits => ?_
      · intro other different
        simp [State.goto, State.setCoroutine, different]
      · rw [here] at fits
        exact ⟨nofun, fun _ some => absurd fits.1 some⟩
  | park here stepped => exact kept.park here stepped
  | @suspend task here =>
      refine kept.inHand (by rw [here]; rfl) rfl rfl rfl (Or.inl rfl) rfl ?_ rfl rfl
        (by rw [here]; rfl) fun signal fits => ?_
      · intro other different
        simp [State.goto, State.setCoroutine, different]
      · rw [here] at fits
        refine ⟨fun _ => ⟨by simp [State.goto, State.setCoroutine], ?_⟩, nofun⟩
        exact (fits.2.waited (by simp)).imp id And.right
  | checkRunning here isRunning =>
      obtain ⟨signal, suspended, -⟩ := fitsHere here rfl
      exact absurd (isRunning.symm.trans suspended) (by simp)
  | checkFinished here isFinished =>
      obtain ⟨signal, suspended, -⟩ := fitsHere here rfl
      exact absurd (isFinished.symm.trans suspended) (by simp)
  | check here isSuspended =>
      exact kept.onward here rfl rfl rfl fun quiet fits => fits
  | @load task here =>
      have holds : (s.pc worker).holds = some task := by rw [here]; rfl
      have wakes : [] = (s.pc worker).wakes := by rw [here]; rfl
      obtain ⟨signal, suspended, waits | ⟨isNone, runs⟩⟩ := fitsHere here rfl
      · rw [waits]
        exact kept.inHand holds rfl rfl rfl (Or.inr rfl) rfl (fun _ _ => ⟨rfl, rfl⟩) rfl rfl
          wakes fun signal fits => ⟨nofun, fun _ _ => ⟨waits, suspended⟩⟩
      · rw [runs]
        refine kept.onward here rfl rfl rfl fun quiet fits => ?_
        rcases fits.2 with waits | ⟨isQuiet, runs⟩
        · exact absurd (waits.symm.trans runs) (by simp)
        · exact ⟨isQuiet, runs, suspended⟩
  | @requeue task here =>
      have holds : (s.pc worker).holds = some task := by rw [here]; rfl
      have wakes : [] = (s.pc worker).wakes := by rw [here]; rfl
      exact kept.schedule holds rfl wakes fun quiet fits => by
        rw [here] at fits
        exact fits
  | exit here | unlock here | complete here | test here | enter here | leave here | idle here
  | erase here | dismiss here =>
      exact kept.apart rfl rfl rfl (by rw [here]; rfl) rfl rfl rfl rfl rfl rfl (by rw [here]; rfl)

theorem Kept.step
    {s next : State Worker Key} {label : Label Worker Key}
    (kept : Kept s)
    (outside : WakesOutside s label)
    (stepped : s.step label = some next) :
    Kept next := by
  obtain ⟨worker, choice, rfl, moves⟩ | ⟨-, rfl⟩ | ⟨-, rfl⟩ | ⟨key, -, rfl⟩ := step_cases stepped
  · exact kept.moves outside moves
  · exact kept.spawn
  · refine ⟨fun task => ?_, kept.defined⟩
    have apart : Apart s { s with running := false } task := ⟨fun _ _ => rfl, rfl, rfl, rfl, rfl⟩
    exact apart.sited (kept.situated task) le_rfl fun _ => rfl
  · refine ⟨fun task => ?_, kept.defined⟩
    have apart : Apart s { s with epoll := s.epoll.forget key } task :=
      ⟨fun _ _ => rfl, rfl, rfl, rfl, rfl⟩
    refine apart.sited (kept.situated task) ?_ fun _ => rfl
    exact Nat.add_le_add_right (s.epoll.pending_forget_le key task) _

/-- On every run of any number of workers on which no `wake()` stores its
`kRun` into a task while a worker is inside its `one_step`, execution is
exclusive in every state. -/
theorem exclusive_of_wakesOutside
    {labels : List (Label Worker Key)}
    (outside : Machine.AllSteps State.step WakesOutside State.initial labels) :
    Machine.AllStates State.step Exclusive State.initial labels :=
  Machine.allStates_of_allSteps (fun _ kept => Kept.exclusive kept)
    (fun _ _ _ kept outside stepped => Kept.step kept outside stepped)
    kept_initial outside

end Steps

/-- One worker reads from descriptor 5 and leaves the task's `one_step`.  Then the other worker
is told of data, schedules the task, pops it and enters its `one_step`. -/
def readParked : List (Label Bool Nat) :=
  [.spawn] ++ startRound true ++ startRound false ++ intoCoroutine false ++
    [.work false (.start (.tcpRead 5)), .work false (.park true 0), .work false (.park true 0)] ++
    outOfCoroutine false ++
    [.work true (.report [⟨5, .read, 0⟩]), .work true .go, .work true .go, .work true .go,
      .work true .go, .work true .go, .work true .go]

theorem exclusive_readParked :
    ∃ s, Machine.run State.step State.initial readParked = some s ∧
      (s.pc true).inside = some 0 ∧ Exclusive s := by
  have outside : Machine.AllSteps State.step WakesOutside State.initial readParked := by
    decide +kernel
  have reached : ∃ s, Machine.run State.step State.initial readParked = some s ∧
      (s.pc true).inside = some 0 := ⟨_, rfl, rfl⟩
  obtain ⟨s, ran, inside⟩ := reached
  have allStates := exclusive_of_wakesOutside outside
  exact ⟨s, ran, inside, allStates readParked [] s (by simp) ran⟩

/-- One worker reads from descriptor 5.  It has registered and not yet suspended
when the other worker delivers the event, schedules the task, pops it and
enters its `one_step`. -/
def readRace : List (Label Bool Nat) :=
  [.spawn] ++ startRound true ++ startRound false ++ intoCoroutine false ++
    [.work false (.start (.tcpRead 5)), .work false (.park true 0), .work false (.park true 0),
      .work true (.report [⟨5, .read, 0⟩]), .work true .go, .work true .go, .work true .go,
      .work true .go, .work true .go, .work true .go]

/-- Both workers are inside the `one_step` of the reading task. -/
theorem not_exclusive_readRace :
    ¬∀ s, Machine.Reachable State.step (State.initial : State Bool Nat) s → Exclusive s := by
  intro always
  have both : ∃ s, Machine.run State.step (State.initial : State Bool Nat) readRace = some s ∧
      (s.pc true).inside = some 0 ∧ (s.pc false).inside = some 0 := ⟨_, rfl, rfl, rfl⟩
  obtain ⟨s, ran, insideTrue, insideFalse⟩ := both
  exact absurd ((always s ⟨readRace, ran⟩).alone true false 0 insideTrue insideFalse) (by simp)

end Workers
end Cppio
